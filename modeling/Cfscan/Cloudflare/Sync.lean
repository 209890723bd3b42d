import Cfscan.Cloudflare.Store
import Cfscan.Lib.Nesting
import Cfscan.Store.Trim

/-!
# Syncing the prefixes — `internal/cloudflare/sync.go`

`Sync` fetches Cloudflare's two lists and replaces the official prefixes, `SyncASN` does the same
for one origin, and `SyncEnabledASNs` calls it for every enabled one. What a request to the outside
brings back is an argument (`Response`): the texts and the payload, or where it failed.

What the rest of the development uses of the two fetches is `Fetched`: the items of a successful
fetch are the masked prefixes of what the response holds, under their canonical texts.

Both fetches stop at the first text that is no prefix, and then nothing is written but the error of
the source. An official list must hold at least one prefix of its version; the announced prefixes of
an origin may be none at all, and then its sync leaves the source without any.

The texts of the errors are the program's. Two kinds of text are Go's own, `%q` and the errors of
`netip.ParsePrefix`, and are passed in as `Texts`; no proof looks into them.
-/

set_option autoImplicit false

namespace Cfscan.Cloudflare

open Cfscan.Lib Cfscan.Store
open Netip (Prefix)

/-! ## Fetching -/

/-- What a `GET` comes to. The message is the start of the body of a refusal. -/
inductive Response (β : Type) where
  | unsent (cause : String)
  | failed (cause : String)
  | answered (status : Int) (message : String) (body : β)
deriving Repr

/-- The lines the scanner gives before it stops, and the error it stops with. -/
structure Lines where
  lines : List String
  error : Option String
deriving Repr

structure RipeResponse where
  status : String
  prefixes : List String
deriving Repr

/-- The texts of Go's own: `%q`, and the errors of `netip.ParsePrefix`. -/
structure Texts where
  quote : String → String
  parsePrefix : String → String

def versionOf (p : Prefix) : Int := if p.addr.is4 then 4 else 6

/-- `model.Prefix` of a prefix, from no source yet. -/
def masked (p : Prefix) : ModelPrefix := ⟨p.masked.string, versionOf p, "", true⟩

def parsePrefix (texts : Texts) (value : String) : Except String ModelPrefix :=
  match Netip.parsePrefix (trimSpace value) with
  | none => .error (texts.parsePrefix (trimSpace value))
  | some p => .ok (masked p)

/-- The loop over the lines of an official list. -/
def collectOfficial (texts : Texts) (version : Int) : List String → Except String (List ModelPrefix)
  | [] => .ok []
  | line :: rest =>
    let value := trimSpace line
    if value = "" then collectOfficial texts version rest
    else
      match parsePrefix texts value with
      | .error error =>
        .error ("parse Cloudflare prefix " ++ texts.quote value ++ ": " ++ error)
      | .ok item =>
        if item.ipVersion ≠ version then .error ("unexpected IP version for " ++ value)
        else (collectOfficial texts version rest).map ({ item with source := sourceOfficial } :: ·)

def fetchOfficial (texts : Texts) (url : String) (version : Int) :
    Response Lines → Except String (List ModelPrefix)
  | .unsent cause => .error ("create Cloudflare prefix request: " ++ cause)
  | .failed cause => .error ("fetch " ++ url ++ ": " ++ cause)
  | .answered status message body =>
    if status ≠ 200 then
      .error ("fetch " ++ url ++ ": status " ++ toString status ++ ": " ++ trimSpace message)
    else do
      let items ← collectOfficial texts version body.lines
      match body.error with
      | some cause => .error ("read Cloudflare prefixes: " ++ cause)
      | none =>
        if items.length = 0 then
          .error ("Cloudflare returned no IPv" ++ toString version ++ " prefixes")
        else .ok items

/-- The loop over the announced prefixes of an origin; `seen` are the texts kept so far. -/
def collectASN (texts : Texts) (asn : Int) : List String → List String →
    Except String (List ModelPrefix)
  | _, [] => .ok []
  | seen, raw :: rest =>
    match parsePrefix texts raw with
    | .error error =>
      .error ("parse AS" ++ toString asn ++ " prefix " ++ texts.quote raw ++ ": " ++ error)
    | .ok item =>
      if item.cidr ∈ seen then collectASN texts asn seen rest
      else (collectASN texts asn (item.cidr :: seen) rest).map
        ({ item with source := "asn:" ++ toString asn } :: ·)

def fetchASN (texts : Texts) (asn : Int) (response : Response (Except String RipeResponse)) :
    Except String (List ModelPrefix) :=
  if ¬ asnAllowed asn then .error ("invalid ASN " ++ toString asn)
  else
    match response with
    | .unsent cause => .error ("create ASN prefix request: " ++ cause)
    | .failed cause => .error ("fetch AS" ++ toString asn ++ " prefixes: " ++ cause)
    | .answered status message body =>
      if status ≠ 200 then
        .error ("fetch AS" ++ toString asn ++ " prefixes: status " ++ toString status ++ ": " ++
          trimSpace message)
      else
        match body with
        | .error cause => .error ("decode AS" ++ toString asn ++ " prefixes: " ++ cause)
        | .ok payload =>
          if payload.status ≠ "ok" then
            .error ("AS" ++ toString asn ++ " prefix source returned status " ++
              texts.quote payload.status)
          else collectASN texts asn [] payload.prefixes

/-! ## The syncer

A fetch that fails is recorded with the source and returned; that the record fails too is
not seen by the caller. `SyncEnabledASNs` goes on after a source that failed and stops when
its context is over. -/

/-- The times of a call, and where it loses the database. -/
structure Call where
  now : Timestamp
  clock : Timestamp
  outage : Outage
deriving Repr

def v4URL : String := "https://www.cloudflare.com/ips-v4"

def v6URL : String := "https://www.cloudflare.com/ips-v6"

section Syncer

variable (texts : Texts) (pg : Postgres)

/-- The error of a fetch, recorded as far as that goes, and returned. -/
def fetchFailed {α : Type} (call : Call) (record : String → Statements Unit) (error : String)
    (s : PoolStore) : Except SyncError α × PoolStore :=
  (.error (.message error), ((record error).transact call.outage s).2)

def sync (call : Call) (v4 v6 : Response Lines) (s : PoolStore) :
    Except SyncError SourceStatus × PoolStore :=
  match fetchOfficial texts v4URL 4 v4 with
  | .error error => fetchFailed call (recordSourceError call.now sourceOfficial) error s
  | .ok v4 =>
    match fetchOfficial texts v6URL 6 v6 with
    | .error error => fetchFailed call (recordSourceError call.now sourceOfficial) error s
    | .ok v6 =>
      (replaceCloudflarePrefixes pg call.now call.clock (v4 ++ v6)).transact call.outage s

def syncASN (call : Call) (asn : Int) (response : Response (Except String RipeResponse))
    (s : PoolStore) : Except SyncError ASNSource × PoolStore :=
  match fetchASN texts asn response with
  | .error error => fetchFailed call (recordASNError call.now asn) error s
  | .ok prefixes =>
    (replaceASNPrefixes pg call.now call.clock asn prefixes).transact call.outage s

structure ASNSyncSummary where
  synced : Int
  failed : Int
  items : List ASNSource
deriving Repr

def ASNSyncSummary.empty : ASNSyncSummary := ⟨0, 0, []⟩

/-- One round of `SyncEnabledASNs`: the error of its context if that is over, or what its `SyncASN`
gets. -/
structure Visit where
  canceled : Option String
  call : Call
  response : Response (Except String RipeResponse)
deriving Repr

/-- `err.Error()`; what a database error reads like is `cause`. -/
def SyncError.text (cause : DbError → String) : SyncError → String
  | .message text => text
  | .db context error => context ++ ": " ++ cause error
  | .lost context error => context ++ ": " ++ error

/-- The loop of `SyncEnabledASNs`. -/
def syncEach (cause : DbError → String) (visits : Int → Visit) :
    List ASNSource → ASNSyncSummary → PoolStore → (ASNSyncSummary × Option SyncError) × PoolStore
  | [], summary, s => ((summary, none), s)
  | source :: rest, summary, s =>
    match (visits source.asn).canceled with
    | some error => ((summary, some (.message error)), s)
    | none =>
      match syncASN texts pg (visits source.asn).call source.asn (visits source.asn).response s with
      | (.error error, s') =>
        let item := { source with status := "error", lastError := error.text cause }
        syncEach cause visits rest
          { summary with items := summary.items ++ [item], failed := summary.failed + 1 } s'
      | (.ok item, s') =>
        syncEach cause visits rest
          { summary with items := summary.items ++ [item], synced := summary.synced + 1 } s'

/-- `ListASNSources` can lose the database too. -/
def syncEnabledASNs (cause : DbError → String) (listing : Outage) (visits : Int → Visit)
    (s : PoolStore) : (ASNSyncSummary × Option SyncError) × PoolStore :=
  match Conn.transact (Conn.exec (.lost "list ASN sources") fun s =>
      (.ok (listASNSources s true, s) : Except SyncError _)) listing s with
  | (.error error, s') => ((.empty, some error), s')
  | (.ok sources, s') => syncEach texts pg cause visits sources .empty s'

end Syncer

/-! ## What a fetch returns

Of the functions above, the rest of the development uses `Fetched` only: masked prefixes
with canonical texts and the version that goes with them. -/

/-- The masked prefixes of the texts, those that are prefixes. -/
def networksOf (lines : List String) : List Prefix :=
  lines.filterMap fun line => (Netip.parsePrefix (trimSpace line)).map Prefix.masked

/-- The lines a response carries. -/
def Response.lines : Response Lines → List String
  | .answered _ _ body => body.lines
  | _ => []

def Response.prefixes : Response (Except String RipeResponse) → List String
  | .answered _ _ (.ok payload) => payload.prefixes
  | _ => []

/-- The item stands for the prefix, under its canonical text. -/
def Stands (item : ModelPrefix) (p : Prefix) : Prop :=
  item.cidr = p.string ∧ item.ipVersion = versionOf p

/-- The items of a fetch are the prefixes. -/
structure Fetched (items : List ModelPrefix) (networks : List Prefix) : Prop where
  item : ∀ item ∈ items, ∃ p ∈ networks, Stands item p
  network : ∀ p ∈ networks, ∃ item ∈ items, Stands item p

theorem networksOf_cons_of_none {line : String} (h : Netip.parsePrefix (trimSpace line) = none)
    (rest : List String) : networksOf (line :: rest) = networksOf rest := by
  rw [networksOf, List.filterMap_cons, h]
  rfl

theorem networksOf_cons_of_some {line : String} {p : Prefix}
    (h : Netip.parsePrefix (trimSpace line) = some p) (rest : List String) :
    networksOf (line :: rest) = p.masked :: networksOf rest := by
  rw [networksOf, List.filterMap_cons, h]
  rfl

theorem networksOf_append (lines lines' : List String) :
    networksOf (lines ++ lines') = networksOf lines ++ networksOf lines' :=
  List.filterMap_append

theorem masked_of_mem_networksOf {lines : List String} {p : Prefix} (h : p ∈ networksOf lines) :
    p.masked = p := by
  obtain ⟨line, _, hp⟩ := List.mem_filterMap.mp h
  obtain ⟨p, _, rfl⟩ := Option.map_eq_some_iff.mp hp
  exact p.masked_masked

theorem versionOf_masked (p : Prefix) : versionOf p.masked = versionOf p := by
  rw [versionOf, versionOf, Netip.Prefix.is4_masked]

namespace Fetched

variable {items items' : List ModelPrefix} {networks networks' : List Prefix}

theorem nil : Fetched [] [] :=
  ⟨fun _ h => absurd h List.not_mem_nil, fun _ h => absurd h List.not_mem_nil⟩

theorem append (h : Fetched items networks) (h' : Fetched items' networks') :
    Fetched (items ++ items') (networks ++ networks') where
  item := fun item hitem => by
    rcases List.mem_append.mp hitem with hitem | hitem
    · obtain ⟨p, hp, hstands⟩ := h.item item hitem
      exact ⟨p, List.mem_append_left _ hp, hstands⟩
    · obtain ⟨p, hp, hstands⟩ := h'.item item hitem
      exact ⟨p, List.mem_append_right _ hp, hstands⟩
  network := fun p hp => by
    rcases List.mem_append.mp hp with hp | hp
    · obtain ⟨item, hitem, hstands⟩ := h.network p hp
      exact ⟨item, List.mem_append_left _ hitem, hstands⟩
    · obtain ⟨item, hitem, hstands⟩ := h'.network p hp
      exact ⟨item, List.mem_append_right _ hitem, hstands⟩

theorem cons {item : ModelPrefix} {p : Prefix} (hstands : Stands item p)
    (h : Fetched items networks) : Fetched (item :: items) (p :: networks) := by
  have hone : Fetched [item] [p] :=
    ⟨by simpa using hstands, by simpa using hstands⟩
  exact hone.append h

end Fetched

section Fetch

variable {texts : Texts}

theorem parsePrefix_ok {value : String} {item : ModelPrefix}
    (h : parsePrefix texts value = .ok item) :
    ∃ p, Netip.parsePrefix (trimSpace value) = some p ∧ item = masked p := by
  unfold parsePrefix at h
  split at h
  · cases h
  · cases h
    exact ⟨_, ‹_›, rfl⟩

theorem stands_masked (p : Prefix) (source : String) :
    Stands { masked p with source } p.masked := ⟨rfl, (versionOf_masked p).symm⟩

theorem parsePrefix_empty : Netip.parsePrefix "" = none := by decide

theorem fetched_collectOfficial {version : Int} {lines : List String} {items : List ModelPrefix}
    (h : collectOfficial texts version lines = .ok items) : Fetched items (networksOf lines) := by
  induction lines generalizing items with
  | nil =>
    cases h
    exact .nil
  | cons line rest ih =>
    rw [collectOfficial] at h
    split at h
    next hblank =>
      rw [networksOf_cons_of_none (by rw [hblank, parsePrefix_empty])]
      exact ih h
    next =>
      split at h
      · cases h
      · rename_i item hitem
        obtain ⟨p, hp, rfl⟩ := parsePrefix_ok hitem
        rw [trimSpace_trimSpace] at hp
        split at h
        · cases h
        · obtain ⟨items, hrest, rfl⟩ := map_eq_ok h
          rw [networksOf_cons_of_some hp]
          exact (ih hrest).cons (stands_masked p _)

theorem fetched_fetchOfficial {url : String} {version : Int} {response : Response Lines}
    {items : List ModelPrefix} (h : fetchOfficial texts url version response = .ok items) :
    Fetched items (networksOf response.lines) := by
  unfold fetchOfficial at h
  split at h
  · cases h
  · cases h
  · split at h
    · cases h
    · obtain ⟨collected, hcollected, h⟩ := bind_eq_ok h
      split at h
      · cases h
      · split at h <;> cases h
        exact fetched_collectOfficial hcollected

/-- Of a prefix whose text has been seen no item is kept. -/
theorem collectASN_ok {asn : Int} {seen lines : List String} {items : List ModelPrefix}
    (h : collectASN texts asn seen lines = .ok items) :
    (∀ item ∈ items, ∃ p ∈ networksOf lines, Stands item p) ∧
      ∀ p ∈ networksOf lines, p.string ∉ seen → ∃ item ∈ items, Stands item p := by
  induction lines generalizing seen items with
  | nil =>
    cases h
    exact ⟨nofun, nofun⟩
  | cons line rest ih =>
    rw [collectASN] at h
    split at h
    · cases h
    · rename_i item hitem
      obtain ⟨p, hp, rfl⟩ := parsePrefix_ok hitem
      rw [networksOf_cons_of_some hp]
      split at h
      next hseen =>
        obtain ⟨hitems, hnetworks⟩ := ih h
        refine ⟨fun item hitem => ?_, ?_⟩
        · obtain ⟨q, hq, hstands⟩ := hitems item hitem
          exact ⟨q, List.mem_cons_of_mem _ hq, hstands⟩
        · rw [List.forall_mem_cons]
          exact ⟨fun hnew => absurd hseen hnew, hnetworks⟩
      next hnew =>
        obtain ⟨items, hrest, rfl⟩ := map_eq_ok h
        obtain ⟨hitems, hnetworks⟩ := ih hrest
        refine ⟨?_, ?_⟩
        · rw [List.forall_mem_cons]
          refine ⟨⟨_, List.mem_cons_self, stands_masked p _⟩, fun item hitem => ?_⟩
          obtain ⟨q, hq, hstands⟩ := hitems item hitem
          exact ⟨q, List.mem_cons_of_mem _ hq, hstands⟩
        · rw [List.forall_mem_cons]
          refine ⟨fun _ => ⟨_, List.mem_cons_self, stands_masked p _⟩, fun q hq hseen => ?_⟩
          by_cases hsame : q.string = (masked p).cidr
          · -- the item just kept stands for it
            obtain rfl : q = p.masked := Netip.Prefix.string_injective hsame
            exact ⟨_, List.mem_cons_self, stands_masked p _⟩
          · obtain ⟨item, hitem, hstands⟩ :=
              hnetworks q hq (List.not_mem_cons_of_ne_of_not_mem hsame hseen)
            exact ⟨item, List.mem_cons_of_mem _ hitem, hstands⟩

theorem fetched_fetchASN {asn : Int} {response : Response (Except String RipeResponse)}
    {items : List ModelPrefix} (h : fetchASN texts asn response = .ok items) :
    Fetched items (networksOf response.prefixes) := by
  unfold fetchASN at h
  split at h
  · cases h
  · split at h
    · cases h
    · cases h
    · split at h
      · cases h
      · split at h
        · cases h
        · split at h
          · cases h
          · obtain ⟨hitems, hnetworks⟩ := collectASN_ok h
            exact ⟨hitems, fun p hp => hnetworks p hp List.not_mem_nil⟩

end Fetch

end Cfscan.Cloudflare
