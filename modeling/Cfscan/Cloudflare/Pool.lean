import Cfscan.Cloudflare.Sync
import Cfscan.Lib.Log
import Cfscan.Lib.Refill

/-!
# The prefix pool is the union of the last syncs

The requests that change the pool are syncs, each of which can fail at any point, and changes of
the ASN sources. `World.log` keeps the ones that returned no error, in their order; `lastOfficial`
and `lastSynced` read off it what the last syncs fetched. `Follows` ties the tables to the log: the
active rows of `cloudflare_prefixes` are the last official list, and those of an existing source in
`asn_prefixes` what its last sync since its creation fetched. A row that a later sync no longer
names stays, inactive, and can come back.

## Why a log

The tables alone do not tell what the pool should be: an inactive row may have been the last sync's
or one of years ago. So the statement is against the log, and the tables only have to follow it.
`Follows` is kept by every request, whether it succeeds (`follows_sync` and its siblings) or fails
at some statement, which moves nothing a listing reads (`unmoved_of_error`).

Each call is one transaction, or one statement, and is run as one step; two syncs that overlap are
two transactions that update the same rows, and are taken in the order of their commits. A
transaction whose commit is lost is taken to have failed.
-/

set_option autoImplicit false

namespace Cfscan.Cloudflare

open Cfscan.Lib Cfscan.Store
open Netip (Prefix)

/-! ## Runs

An event is a call with all it meets outside: the answers of the sources, its times, and
where it loses the database. `log` holds the events that succeeded; no call reads it. -/

inductive Event where
  | sync (call : Call) (v4 v6 : Response Lines)
  | syncASN (call : Call) (asn : Int) (response : Response (Except String RipeResponse))
  | create (call : Call) (input : CreateASNSourceRequest)
  | update (call : Call) (asn : Int) (input : UpdateASNSourceRequest)
  | delete (call : Call) (asn : Int)
deriving Repr

/-- The error of a call, and the tables it leaves. -/
def outcome {α : Type} (r : Except SyncError α × PoolStore) : Option SyncError × PoolStore :=
  match r.1 with
  | .error error => (some error, r.2)
  | .ok _ => (none, r.2)

section Run

variable (texts : Texts) (pg : Postgres)

/-- A call that is one statement, or one that writes and one that reads, is a transaction too. -/
def Event.perform : Event → PoolStore → Option SyncError × PoolStore
  | .sync call v4 v6, s => outcome (Cloudflare.sync texts pg call v4 v6 s)
  | .syncASN call asn response, s => outcome (Cloudflare.syncASN texts pg call asn response s)
  | .create call input, s => outcome ((createASNSource call.now input).transact call.outage s)
  | .update call asn input, s =>
    outcome ((updateASNSource call.now asn input).transact call.outage s)
  | .delete call asn, s => outcome ((deleteASNSource asn).transact call.outage s)

/-- The tables, and the requests that succeeded. -/
structure World where
  log : List Event
  store : PoolStore

def World.initial (now : Timestamp) : World := ⟨[], .initial now⟩

def World.step (w : World) (e : Event) : World :=
  match e.perform texts pg w.store with
  | (none, s) => ⟨w.log ++ [e], s⟩
  | (some _, s) => ⟨w.log, s⟩

inductive Request where
  | event (e : Event)
  | syncEnabledASNs (listing : Outage) (visits : Int → Visit)

/-- The calls of `SyncASN` in `SyncEnabledASNs`, up to where its context is over. -/
def visited (visits : Int → Visit) : List ASNSource → List Event
  | [] => []
  | source :: rest =>
    match (visits source.asn).canceled with
    | some _ => []
    | none =>
      .syncASN (visits source.asn).call source.asn (visits source.asn).response ::
        visited visits rest

def Request.events (s : PoolStore) : Request → List Event
  | .event e => [e]
  | .syncEnabledASNs (some (0, _)) _ => []
  | .syncEnabledASNs _ visits => visited visits (listASNSources s true)

def World.serve (w : World) (request : Request) : World :=
  (request.events w.store).foldl (World.step texts pg) w

theorem store_step (w : World) (e : Event) :
    (w.step texts pg e).store = (e.perform texts pg w.store).2 := by
  unfold World.step
  split <;> rename_i hperform <;> rw [hperform]

theorem outcome_store {α : Type} (r : Except SyncError α × PoolStore) : (outcome r).2 = r.2 := by
  unfold outcome
  split <;> rfl

theorem syncEach_store (cause : DbError → String) (visits : Int → Visit)
    (sources : List ASNSource) (summary : ASNSyncSummary) (w : World) :
    (syncEach texts pg cause visits sources summary w.store).2 =
      ((visited visits sources).foldl (World.step texts pg) w).store := by
  induction sources generalizing summary w with
  | nil => rfl
  | cons source rest ih =>
    have hstep := store_step texts pg w
      (.syncASN (visits source.asn).call source.asn (visits source.asn).response)
    rw [Event.perform, outcome_store] at hstep
    rw [syncEach, visited]
    cases (visits source.asn).canceled with
    | some error => rfl
    | none =>
      dsimp only
      rw [List.foldl_cons]
      split <;> rename_i hsync <;> rw [hsync] at hstep <;> rw [← ih] <;> rw [hstep]

/-- `SyncEnabledASNs` is its calls of `SyncASN`. -/
theorem syncEnabledASNs_store (cause : DbError → String) (listing : Outage) (visits : Int → Visit)
    (w : World) :
    (syncEnabledASNs texts pg cause listing visits w.store).2 =
      (w.serve texts pg (.syncEnabledASNs listing visits)).store := by
  rcases listing with _ | ⟨_ | answered, reported⟩
  · exact syncEach_store texts pg cause visits _ _ w
  · rfl
  · exact syncEach_store texts pg cause visits _ _ w

end Run

/-! ## What the log says

An official sync replaces what the last one brought, and the sync of an origin likewise,
back to where its source was created. A source that is deleted and created anew starts with
nothing. -/

def Event.official : Event → Option (List Prefix)
  | .sync _ v4 v6 => some (networksOf (v4.lines ++ v6.lines))
  | _ => none

def Event.announced (asn : Int) : Event → Option (List Prefix)
  | .syncASN _ synced response => if synced = asn then some (networksOf response.prefixes) else none
  | _ => none

def Event.creates (asn : Int) : Event → Bool
  | .create _ input => decide (input.asn = asn)
  | _ => false

/-- The prefixes of the last official sync. -/
def lastOfficial (log : List Event) : List Prefix := (last? Event.official log).getD []

/-- The prefixes of the last sync of a source since it was created. -/
def lastSynced (asn : Int) (log : List Event) : List Prefix :=
  (last? (Event.announced asn) (since (Event.creates asn) log)).getD []

/-- The official prefixes, and those of the sources. -/
def pool (log : List Event) (sources : List ASNSource) : Set Prefix :=
  {p | p ∈ lastOfficial log ∨ ∃ item ∈ sources, p ∈ lastSynced item.asn log}

theorem lastOfficial_sync (log : List Event) (call : Call) (v4 v6 : Response Lines) :
    lastOfficial (log ++ [.sync call v4 v6]) = networksOf (v4.lines ++ v6.lines) := by
  rw [lastOfficial, last?_concat_of_some (f := Event.official) rfl, Option.getD_some]

theorem lastOfficial_other {log : List Event} {e : Event} (h : e.official = none) :
    lastOfficial (log ++ [e]) = lastOfficial log := by
  rw [lastOfficial, last?_concat_of_none h, lastOfficial]

theorem lastSynced_syncASN (log : List Event) (call : Call) (asn : Int)
    (response : Response (Except String RipeResponse)) :
    lastSynced asn (log ++ [.syncASN call asn response]) = networksOf response.prefixes := by
  have hanswer : Event.announced asn (.syncASN call asn response) =
      some (networksOf response.prefixes) := if_pos rfl
  rw [lastSynced, since_concat_of_neg rfl, last?_concat_of_some hanswer, Option.getD_some]

theorem lastSynced_create (log : List Event) (call : Call) (input : CreateASNSourceRequest) :
    lastSynced input.asn (log ++ [.create call input]) = [] := by
  have hcreates : Event.creates input.asn (.create call input) = true := decide_eq_true rfl
  rw [lastSynced, since_concat_of_pos hcreates]
  rfl

theorem lastSynced_other {log : List Event} {e : Event} {asn : Int}
    (hcreates : e.creates asn = false) (hannounced : e.announced asn = none) :
    lastSynced asn (log ++ [e]) = lastSynced asn log := by
  rw [lastSynced, since_concat_of_neg hcreates, last?_concat_of_none hannounced, lastSynced]

theorem masked_of_mem_lastOfficial {log : List Event} {p : Prefix} (h : p ∈ lastOfficial log) :
    p.masked = p := by
  unfold lastOfficial at h
  cases hlast : last? Event.official log with
  | none =>
    rw [hlast] at h
    cases h
  | some networks =>
    rw [hlast] at h
    obtain ⟨e, -, he⟩ := exists_of_last? hlast
    cases e <;> cases he
    exact masked_of_mem_networksOf h

theorem masked_of_mem_lastSynced {asn : Int} {log : List Event} {p : Prefix}
    (h : p ∈ lastSynced asn log) : p.masked = p := by
  unfold lastSynced at h
  cases hlast : last? (Event.announced asn) (since (Event.creates asn) log) with
  | none =>
    rw [hlast] at h
    cases h
  | some networks =>
    rw [hlast] at h
    obtain ⟨e, -, he⟩ := exists_of_last? hlast
    cases e <;> try cases he
    obtain ⟨-, he⟩ := Option.ite_none_right_eq_some.mp he
    cases he
    exact masked_of_mem_networksOf h

/-! ## The tables follow the log

Active rows and the log are compared value by value, as the server reads the texts. What is
said of the version of a row is said of the inactive ones as well. -/

/-- The server reads a masked prefix as Go prints it, and Go reads what the server prints for it. -/
def ReadsPrefixes (pg : Postgres) : Prop :=
  ∀ p : Prefix, p.masked = p →
    ∃ cidr, pg.cidr p.string = some cidr ∧ Netip.parsePrefix cidr.text = some p

/-- The value is one of the prefixes. -/
def Names (pg : Postgres) (networks : List Prefix) (cidr : Cidr) : Prop :=
  ∃ p ∈ networks, pg.cidr p.string = some cidr

/-- The version of a row is that of its prefix. -/
def VersionOf (cidr : Cidr) (ipVersion : Int) : Prop :=
  ∀ p, Netip.parsePrefix cidr.text = some p → ipVersion = versionOf p

structure PrefixRow.Sound (row : PrefixRow) : Prop where
  source : row.source = sourceOfficial
  version : VersionOf row.cidr row.ipVersion

structure Follows (pg : Postgres) (log : List Event) (s : PoolStore) : Prop where
  official : ∀ cidr, On PrefixRow.active s.prefixes cidr ↔ Names pg (lastOfficial log) cidr
  sound : ∀ row ∈ s.prefixes.rows, row.Sound
  synced : ∀ asn cidr, On ASNPrefixRow.active s.asnPrefixes (asn, cidr) ↔
    s.sources.find? asn ≠ none ∧ Names pg (lastSynced asn log) cidr
  versions : ∀ row ∈ s.asnPrefixes.rows, VersionOf row.cidr row.ipVersion

section Calls

variable {pg : Postgres} {now clock : Timestamp} {items : List ModelPrefix}
  {networks : List Prefix} {s s' : PoolStore}

theorem parse_of_names (hreads : ReadsPrefixes pg) {p : Prefix} (hp : p.masked = p) {cidr : Cidr}
    (h : pg.cidr p.string = some cidr) : Netip.parsePrefix cidr.text = some p := by
  obtain ⟨cidr', hcidr', hparse⟩ := hreads p hp
  rw [h] at hcidr'
  cases hcidr'
  exact hparse

/-- What is known of the items a sync writes. -/
structure Readable (pg : Postgres) (items : List ModelPrefix) (networks : List Prefix) : Prop where
  names : ∀ cidr, (∃ item ∈ items, pg.cidr item.cidr = some cidr) ↔ Names pg networks cidr
  version : ∀ item ∈ items, ∀ cidr, pg.cidr item.cidr = some cidr → VersionOf cidr item.ipVersion

theorem Fetched.readable (hreads : ReadsPrefixes pg) (hmasked : ∀ p ∈ networks, p.masked = p)
    (h : Fetched items networks) : Readable pg items networks where
  names := fun cidr => by
    constructor
    · rintro ⟨item, hitem, hcidr⟩
      obtain ⟨p, hp, htext, -⟩ := h.item item hitem
      exact ⟨p, hp, htext ▸ hcidr⟩
    · rintro ⟨p, hp, hcidr⟩
      obtain ⟨item, hitem, htext, -⟩ := h.network p hp
      exact ⟨item, hitem, htext ▸ hcidr⟩
  version := fun item hitem cidr hcidr p hparse => by
    obtain ⟨q, hq, htext, hversion⟩ := h.item item hitem
    have hq' := parse_of_names hreads (hmasked q hq) (htext ▸ hcidr)
    rw [hparse] at hq'
    cases hq'
    exact hversion

/-! ### The official sync -/

theorem cidr_upsertedPrefix (now : Timestamp) (ipVersion : Int) (t : Table Cidr PrefixRow PrefixRow.cidr)
    (cidr : Cidr) : (upsertedPrefix now cidr ipVersion (t.find? cidr)).cidr = cidr := by
  cases hrow : t.find? cidr with
  | none => rfl
  | some row =>
    have hkey := Table.key_of_find? hrow
    exact hkey

theorem sound_upsertedPrefix {cidr : Cidr} {ipVersion : Int} (h : VersionOf cidr ipVersion)
    (t : Table Cidr PrefixRow PrefixRow.cidr) :
    (upsertedPrefix now cidr ipVersion (t.find? cidr)).Sound := by
  have hcidr := cidr_upsertedPrefix now ipVersion t cidr
  revert hcidr
  cases t.find? cidr with
  | none => exact fun _ => ⟨rfl, h⟩
  | some row =>
    intro hcidr
    refine ⟨rfl, ?_⟩
    rw [hcidr]
    exact h

theorem active_upsertedPrefix (cidr : Cidr) (ipVersion : Int) (row : Option PrefixRow) :
    (upsertedPrefix now cidr ipVersion row).active = true := by
  cases row <;> rfl

theorem upsertPrefix_ok {item : ModelPrefix} {t t' : Table Cidr PrefixRow PrefixRow.cidr}
    (h : upsertPrefix pg now item t = .ok t') : ∃ cidr, pg.cidr item.cidr = some cidr ∧
      t' = t.put (upsertedPrefix now cidr item.ipVersion (t.find? cidr)) := by
  unfold upsertPrefix at h
  split at h
  · cases h
  · split at h <;> cases h
    exact ⟨_, ‹_›, rfl⟩

/-- The official prefixes are the items, and nothing else has changed but the record of the sync. -/
structure OfficialReplaced (pg : Postgres) (items : List ModelPrefix) (s s' : PoolStore) : Prop where
  sources : s'.sources = s.sources
  asnPrefixes : s'.asnPrefixes = s.asnPrefixes
  refilled : Refilled PrefixRow.active (fun _ => True)
    (fun cidr => ∃ item ∈ items, pg.cidr item.cidr = some cidr) s.prefixes s'.prefixes
  sound : ∀ row ∈ s'.prefixes.rows, row.Sound

theorem officialReplaced_deactivated (hs : ∀ row ∈ s.prefixes.rows, row.Sound) :
    OfficialReplaced pg [] s { s with prefixes := deactivatePrefixes s.prefixes } where
  sources := rfl
  asnPrefixes := rfl
  refilled := by
    refine (Refilled.switchOff cidr_deactivated active_deactivated fun row hrow => ?_).congr
      fun cidr => by simp
    simpa using (hs row hrow).source
  sound := fun row hrow => by
    simp only [deactivatePrefixes, Table.mem_updateWhere] at hrow
    obtain ⟨old, hold, rfl⟩ := hrow
    have hsound := hs old hold
    split
    · exact ⟨hsound.source, hsound.version⟩
    · exact hsound

theorem OfficialReplaced.upsert {done : List ModelPrefix} {item : ModelPrefix} {s₁ : PoolStore}
    (h : OfficialReplaced pg done s s₁) {t : Table Cidr PrefixRow PrefixRow.cidr}
    (hupsert : upsertPrefix pg now item s₁.prefixes = .ok t)
    (hversion : ∀ cidr, pg.cidr item.cidr = some cidr → VersionOf cidr item.ipVersion) :
    OfficialReplaced pg (done ++ [item]) s { s₁ with prefixes := t } := by
  obtain ⟨cidr, hcidr, rfl⟩ := upsertPrefix_ok hupsert
  refine ⟨h.sources, h.asnPrefixes, ?_, ?_⟩
  · refine (h.refilled.put (active_upsertedPrefix cidr item.ipVersion _)).congr fun cidr' => ?_
    rw [cidr_upsertedPrefix]
    simp [hcidr, eq_comm, or_and_right, exists_or]
  · intro row hrow
    rcases Table.mem_put.mp hrow with rfl | ⟨hrow, -⟩
    · exact sound_upsertedPrefix (hversion cidr hcidr) _
    · exact h.sound row hrow

theorem ends_replaceCloudflarePrefixes {status : SourceStatus}
    (h : Conn.Ends (replaceCloudflarePrefixes pg now clock items) s status s')
    (hreadable : Readable pg items networks) (hs : ∀ row ∈ s.prefixes.rows, row.Sound) :
    OfficialReplaced pg items s s' := by
  obtain ⟨_, s₀, hbegin, h⟩ := Conn.ends_bind h
  cases Conn.ends_write hbegin
  obtain ⟨_, s₁, hdeactivate, h⟩ := Conn.ends_bind h
  cases Conn.ends_write hdeactivate
  obtain ⟨_, s₂, hupserts, h⟩ := Conn.ends_bind h
  obtain ⟨_, s₃, hrecord, h⟩ := Conn.ends_bind h
  obtain ⟨_, s₄, hcommit, h⟩ := Conn.ends_bind h
  obtain ⟨-, rfl⟩ := Conn.ends_pure h
  cases Conn.ends_write hcommit
  have hreplaced : OfficialReplaced pg items s s₂ := by
    refine Conn.ends_forM (OfficialReplaced pg · s) hupserts (officialReplaced_deactivated hs) ?_
    intro done item s₁ s₂ hitem hinv hone
    have hone := Conn.ends_write hone
    obtain ⟨t, hupsert, rfl⟩ := map_eq_ok hone
    exact hinv.upsert hupsert (hreadable.version item hitem)
  have hrecord := Conn.ends_write hrecord
  obtain ⟨t, -, rfl⟩ := map_eq_ok hrecord
  exact ⟨hreplaced.sources, hreplaced.asnPrefixes, hreplaced.refilled, hreplaced.sound⟩

/-! ### The sync of a source -/

theorem key_upsertedASNPrefix (now : Timestamp) (asn ipVersion : Int)
    (t : Table (Int × Cidr) ASNPrefixRow ASNPrefixRow.key) (cidr : Cidr) :
    (upsertedASNPrefix now asn cidr ipVersion (t.find? (asn, cidr))).key = (asn, cidr) := by
  cases hrow : t.find? (asn, cidr) with
  | none => rfl
  | some row =>
    have hkey := Table.key_of_find? hrow
    exact hkey

theorem version_upsertedASNPrefix (asn : Int) (cidr : Cidr) (ipVersion : Int)
    (row : Option ASNPrefixRow) :
    (upsertedASNPrefix now asn cidr ipVersion row).ipVersion = ipVersion := by
  cases row <;> rfl

theorem active_upsertedASNPrefix (asn : Int) (cidr : Cidr) (ipVersion : Int)
    (row : Option ASNPrefixRow) :
    (upsertedASNPrefix now asn cidr ipVersion row).active = true := by
  cases row <;> rfl

theorem upsertASNPrefix_ok {asn : Int} {item : ModelPrefix}
    (h : upsertASNPrefix pg now asn item s = .ok s') : ∃ cidr, pg.cidr item.cidr = some cidr ∧
      s' = { s with
        asnPrefixes := s.asnPrefixes.put
          (upsertedASNPrefix now asn cidr item.ipVersion (s.asnPrefixes.find? (asn, cidr))) } := by
  unfold upsertASNPrefix at h
  split at h
  · cases h
  · split at h
    · split at h <;> cases h
      exact ⟨_, ‹_›, rfl⟩
    · cases h

/-- The prefixes of the source are the items, and no other prefix has changed. -/
structure ASNReplaced (pg : Postgres) (asn : Int) (items : List ModelPrefix) (s s' : PoolStore) :
    Prop where
  prefixes : s'.prefixes = s.prefixes
  sources : s'.sources = s.sources
  refilled : Refilled ASNPrefixRow.active (fun k => k.1 = asn)
    (fun k => k.1 = asn ∧ ∃ item ∈ items, pg.cidr item.cidr = some k.2) s.asnPrefixes s'.asnPrefixes
  versions : ∀ row ∈ s'.asnPrefixes.rows, VersionOf row.cidr row.ipVersion

theorem asnReplaced_deactivated (asn : Int)
    (hs : ∀ row ∈ s.asnPrefixes.rows, VersionOf row.cidr row.ipVersion) :
    ASNReplaced pg asn [] s { s with asnPrefixes := deactivateASNPrefixes asn s.asnPrefixes } where
  prefixes := rfl
  sources := rfl
  refilled := by
    refine (Refilled.switchOff key_deactivated (fun _ => rfl) fun row hrow => ?_).congr
      fun k => by simp
    exact decide_eq_true_iff
  versions := fun row hrow => by
    simp only [deactivateASNPrefixes, Table.mem_updateWhere] at hrow
    obtain ⟨old, hold, rfl⟩ := hrow
    have hversion := hs old hold
    split <;> exact hversion

theorem ASNReplaced.upsert {asn : Int} {done : List ModelPrefix} {item : ModelPrefix}
    {s₁ s₂ : PoolStore} (h : ASNReplaced pg asn done s s₁)
    (hupsert : upsertASNPrefix pg now asn item s₁ = .ok s₂)
    (hversion : ∀ cidr, pg.cidr item.cidr = some cidr → VersionOf cidr item.ipVersion) :
    ASNReplaced pg asn (done ++ [item]) s s₂ := by
  obtain ⟨cidr, hcidr, rfl⟩ := upsertASNPrefix_ok hupsert
  have hkey := key_upsertedASNPrefix now asn item.ipVersion s₁.asnPrefixes cidr
  refine ⟨h.prefixes, h.sources, ?_, ?_⟩
  · refine (h.refilled.put (active_upsertedASNPrefix asn cidr item.ipVersion _)).congr fun k => ?_
    rw [hkey]
    obtain ⟨a, c⟩ := k
    simp [hcidr, eq_comm, or_and_right, exists_or, and_or_left]
  · intro row hrow
    rcases Table.mem_put.mp hrow with rfl | ⟨hrow, -⟩
    · rw [version_upsertedASNPrefix, show (upsertedASNPrefix now asn cidr item.ipVersion
        (s₁.asnPrefixes.find? (asn, cidr))).cidr = cidr from (Prod.ext_iff.mp hkey).2]
      exact hversion cidr hcidr
    · exact h.versions row hrow

/-- A source is written over: there are as many sources as before. -/
theorem find?_put_source {t : Table Int ASNSource ASNSource.asn} {item' : ASNSource}
    (item : ASNSource) (hitem : t.find? item.asn = some item) (hasn : item'.asn = item.asn) (asn : Int) :
    (t.put item').find? asn ≠ none ↔ t.find? asn ≠ none := by
  rw [Table.find?_put, hasn]
  by_cases h : item.asn = asn
  · subst h
    simp [hitem]
  · rw [if_neg h]

theorem recordASNSync_ok {asn : Int} {c : Counts} {item : ASNSource}
    (h : recordASNSync c now clock asn s = .ok (item, s')) : s'.prefixes = s.prefixes ∧
      s'.asnPrefixes = s.asnPrefixes ∧ s.sources.find? asn ≠ none ∧
      ∀ a, s'.sources.find? a ≠ none ↔ s.sources.find? a ≠ none := by
  unfold recordASNSync at h
  split at h
  · cases h
  · rename_i old hold
    split at h <;> cases h
    have hasn := Table.key_of_find? hold
    refine ⟨rfl, rfl, by simp [hold], find?_put_source old ?_ rfl⟩
    rw [hasn, hold]

theorem ends_replaceASNPrefixes {asn : Int} {item : ASNSource}
    (h : Conn.Ends (replaceASNPrefixes pg now clock asn items) s item s')
    (hreadable : Readable pg items networks)
    (hs : ∀ row ∈ s.asnPrefixes.rows, VersionOf row.cidr row.ipVersion) :
    s'.prefixes = s.prefixes ∧ s.sources.find? asn ≠ none ∧
      (∀ a, s'.sources.find? a ≠ none ↔ s.sources.find? a ≠ none) ∧
      ∃ s₁, ASNReplaced pg asn items s s₁ ∧ s'.asnPrefixes = s₁.asnPrefixes := by
  obtain ⟨_, s₀, hbegin, h⟩ := Conn.ends_bind h
  cases Conn.ends_write hbegin
  obtain ⟨_, s₁, hdeactivate, h⟩ := Conn.ends_bind h
  cases Conn.ends_write hdeactivate
  obtain ⟨_, s₂, hupserts, h⟩ := Conn.ends_bind h
  obtain ⟨_, s₃, hfinish, h⟩ := Conn.ends_bind h
  cases Conn.ends_write hfinish
  obtain ⟨_, s₄, hrecord, h⟩ := Conn.ends_bind h
  obtain ⟨_, s₅, hcommit, h⟩ := Conn.ends_bind h
  obtain ⟨-, rfl⟩ := Conn.ends_pure h
  cases Conn.ends_write hcommit
  have hreplaced : ASNReplaced pg asn items s s₂ := by
    refine Conn.ends_forM (ASNReplaced pg asn · s) hupserts (asnReplaced_deactivated asn hs) ?_
    intro done item s₁ s₂ hitem hinv hone
    exact hinv.upsert (Conn.ends_write hone) (hreadable.version item hitem)
  obtain ⟨hprefixes, hasnPrefixes, hfound, hsources⟩ := recordASNSync_ok (Conn.ends_exec hrecord)
  rw [hreplaced.sources] at hfound hsources
  exact ⟨hprefixes.trans hreplaced.prefixes, hfound, hsources, s₂, hreplaced, hasnPrefixes⟩

/-! ### The other calls -/

theorem ends_createASNSource {input : CreateASNSourceRequest} {item : ASNSource}
    (h : Conn.Ends (createASNSource now input) s item s') : s.sources.find? input.asn = none ∧
      s' = { s with sources := s.sources.put (newASNSource now input) } := by
  unfold createASNSource at h
  split at h
  · have h := Conn.ends_exec h
    split at h
    · split at h <;> cases h
      exact ⟨‹_›, rfl⟩
    · cases h
  · exact absurd h Conn.not_ends_throw

theorem ends_updateASNSource {asn : Int} {input : UpdateASNSourceRequest} {item : ASNSource}
    (h : Conn.Ends (updateASNSource now asn input) s item s') :
    ∃ old, s.sources.find? asn = some old ∧ item.asn = asn ∧
      s' = { s with sources := s.sources.put item } := by
  obtain ⟨name, s₁, hname, hrest⟩ := Conn.ends_bind h
  obtain ⟨organization, s₂, horganization, hupdate⟩ := Conn.ends_bind hrest
  obtain rfl := (Conn.ends_lift hname).2
  obtain rfl := (Conn.ends_lift horganization).2
  have hupdate := Conn.ends_exec hupdate
  split at hupdate
  · split at hupdate
    · cases hupdate
    · rename_i old hold
      cases hupdate
      have hasn := Table.key_of_find? hold
      exact ⟨old, hold, hasn, rfl⟩
  · cases hupdate

/-- A delete that returns no error has deleted the source, or found it managed no longer. -/
theorem ends_deleteASNSource {asn : Int} {u : Unit}
    (h : Conn.Ends (deleteASNSource asn) s u s') : s' = (deleteUnmanaged asn s).2 := by
  obtain ⟨affected, s₁, hdelete, h⟩ := Conn.ends_bind h
  have hdelete := Conn.ends_exec hdelete
  injection hdelete with hdelete
  have hs₁ : s₁ = (deleteUnmanaged asn s).2 := by rw [hdelete]
  split at h
  · obtain ⟨found, s₂, hselect, h⟩ := Conn.ends_bind h
    have hselect := Conn.ends_exec hselect
    cases hselect
    split at h
    · exact absurd h Conn.not_ends_throw
    · split at h
      · exact absurd h Conn.not_ends_throw
      · obtain ⟨-, rfl⟩ := Conn.ends_pure h
        exact hs₁
  · obtain ⟨-, rfl⟩ := Conn.ends_pure h
    exact hs₁

end Calls

/-! ### A step -/

section Step

variable {texts : Texts} {pg : Postgres} {e : Event} {log log' : List Event} {s s' : PoolStore}

/-- Nothing a listing reads has changed. -/
structure Unmoved (s s' : PoolStore) : Prop where
  prefixes : s'.prefixes = s.prefixes
  asnPrefixes : s'.asnPrefixes = s.asnPrefixes
  sources : ∀ asn, (s'.sources.find? asn).map ASNSource.enabled =
    (s.sources.find? asn).map ASNSource.enabled

theorem Unmoved.refl (s : PoolStore) : Unmoved s s := ⟨rfl, rfl, fun _ => rfl⟩

theorem Unmoved.found (h : Unmoved s s') (asn : Int) :
    s'.sources.find? asn ≠ none ↔ s.sources.find? asn ≠ none := by
  have hasn := congrArg Option.isNone (h.sources asn)
  rw [Option.isNone_map, Option.isNone_map] at hasn
  rw [← Option.isSome_iff_ne_none, ← Option.isSome_iff_ne_none, ← Option.not_isNone,
    ← Option.not_isNone, hasn]

theorem Unmoved.enabled (h : Unmoved s s') (asn : Int) :
    sourceEnabled s' asn = sourceEnabled s asn := by
  have hasn := h.sources asn
  unfold sourceEnabled
  cases hs : s.sources.find? asn <;> cases hs' : s'.sources.find? asn <;>
    simp_all

/-- What one statement wrote, if it was answered. -/
theorem transact_write {statement : PoolStore → Except SyncError PoolStore}
    {lost : String → SyncError} {outage : Outage} {P : PoolStore → Prop} (hs : P s)
    (hwrite : ∀ s', statement s = .ok s' → P s') :
    P ((Conn.write lost statement).transact outage s).2 := by
  rcases h : (Conn.write lost statement).transact outage s with ⟨_ | _, s'⟩
  · rw [Conn.transact_error h]
    exact hs
  · exact hwrite s' (Conn.ends_write (Conn.transact_ok h))

theorem unmoved_recordSourceError (now : Timestamp) (source error : String) (outage : Outage) :
    Unmoved s ((recordSourceError now source error).transact outage s).2 := by
  refine transact_write (Unmoved.refl s) fun s' h => ?_
  split at h
  · cases h
  · split at h <;> cases h
    exact ⟨rfl, rfl, fun _ => rfl⟩

theorem unmoved_recordASNError (now : Timestamp) (asn : Int) (error : String) (outage : Outage) :
    Unmoved s ((recordASNError now asn error).transact outage s).2 := by
  refine transact_write (Unmoved.refl s) fun s' h => ?_
  split at h
  · cases h
  · split at h
    · split at h <;> cases h
      · exact Unmoved.refl s
      · rename_i item hitem
        refine ⟨rfl, rfl, fun a => ?_⟩
        have hasn := Table.key_of_find? hitem
        have hkey : ∀ lastError, (failedASNSource now lastError item).asn = asn := fun _ => hasn
        dsimp only
        rw [Table.find?_put, hkey]
        by_cases ha : asn = a
        · subst ha
          rw [if_pos rfl, hitem]
          rfl
        · rw [if_neg ha]
    · cases h

theorem of_outcome_error {α : Type} {r : Except SyncError α × PoolStore} {error : SyncError}
    (h : outcome r = (some error, s')) : r = (.error error, s') := by
  obtain ⟨_ | _, _⟩ := r <;> cases h
  rfl

theorem of_outcome_ok {α : Type} {r : Except SyncError α × PoolStore}
    (h : outcome r = (none, s')) : ∃ a, r = (.ok a, s') := by
  obtain ⟨_ | a, _⟩ := r <;> cases h
  exact ⟨a, rfl⟩

/-- A request that fails moves nothing. -/
theorem unmoved_of_error {error : SyncError} (h : e.perform texts pg s = (some error, s')) :
    Unmoved s s' := by
  cases e with
  | sync call v4 v6 =>
    have h := of_outcome_error h
    unfold sync at h
    split at h
    · cases h
      exact unmoved_recordSourceError _ _ _ _
    · split at h
      · cases h
        exact unmoved_recordSourceError _ _ _ _
      · rw [Conn.transact_error h]
        exact Unmoved.refl s
  | syncASN call asn response =>
    have h := of_outcome_error h
    unfold syncASN at h
    split at h
    · cases h
      exact unmoved_recordASNError _ _ _ _
    · rw [Conn.transact_error h]
      exact Unmoved.refl s
  | create call input =>
    rw [Conn.transact_error (of_outcome_error h)]
    exact Unmoved.refl s
  | update call asn input =>
    rw [Conn.transact_error (of_outcome_error h)]
    exact Unmoved.refl s
  | delete call asn =>
    rw [Conn.transact_error (of_outcome_error h)]
    exact Unmoved.refl s

theorem Follows.of_unmoved (h : Follows pg log s) (hmove : Unmoved s s') : Follows pg log s' where
  official := hmove.prefixes ▸ h.official
  sound := hmove.prefixes ▸ h.sound
  synced := fun asn cidr => by rw [hmove.asnPrefixes, hmove.found, h.synced]
  versions := hmove.asnPrefixes ▸ h.versions

/-! What a request that succeeds does to the tables is what it does to the log. -/

theorem follows_sync (hreads : ReadsPrefixes pg) (h : Follows pg log s) {call : Call}
    {v4 v6 : Response Lines} {status : SourceStatus}
    (hsync : Cloudflare.sync texts pg call v4 v6 s = (.ok status, s')) :
    Follows pg (log ++ [.sync call v4 v6]) s' := by
  unfold Cloudflare.sync at hsync
  split at hsync
  · cases hsync
  · rename_i items4 hv4
    split at hsync
    · cases hsync
    · rename_i items6 hv6
      have hfetched := (fetched_fetchOfficial hv4).append (fetched_fetchOfficial hv6)
      rw [← networksOf_append] at hfetched
      have hreadable := hfetched.readable hreads fun p => masked_of_mem_networksOf
      have hreplaced := ends_replaceCloudflarePrefixes (Conn.transact_ok hsync) hreadable h.sound
      refine ⟨fun cidr => ?_, hreplaced.sound, fun asn cidr => ?_, ?_⟩
      · rw [hreplaced.refilled cidr, lastOfficial_sync, ← hreadable.names]
        simp
      · rw [hreplaced.asnPrefixes, hreplaced.sources, h.synced, lastSynced_other rfl rfl]
      · rw [hreplaced.asnPrefixes]
        exact h.versions

theorem follows_syncASN (hreads : ReadsPrefixes pg) (h : Follows pg log s) {call : Call}
    {asn : Int} {response : Response (Except String RipeResponse)} {item : ASNSource}
    (hsync : Cloudflare.syncASN texts pg call asn response s = (.ok item, s')) :
    Follows pg (log ++ [.syncASN call asn response]) s' := by
  unfold Cloudflare.syncASN at hsync
  split at hsync
  · cases hsync
  · rename_i items hitems
    have hreadable := (fetched_fetchASN hitems).readable hreads fun p => masked_of_mem_networksOf
    obtain ⟨hprefixes, hfound, hsources, s₁, hreplaced, hasn⟩ :=
      ends_replaceASNPrefixes (Conn.transact_ok hsync) hreadable h.versions
    refine ⟨fun cidr => ?_, hprefixes ▸ h.sound, fun a cidr => ?_, hasn ▸ hreplaced.versions⟩
    · rw [hprefixes, h.official, lastOfficial_other rfl]
    · rw [hasn, hreplaced.refilled (a, cidr), hsources, h.synced]
      by_cases ha : a = asn
      · subst ha
        rw [lastSynced_syncASN, ← hreadable.names]
        simp [hfound]
      · have hother : Event.announced a (.syncASN call asn response) = none := if_neg (Ne.symm ha)
        rw [lastSynced_other rfl hother]
        simp [ha]

theorem follows_create (h : Follows pg log s) {call : Call} {input : CreateASNSourceRequest}
    (hnew : s.sources.find? input.asn = none) :
    Follows pg (log ++ [.create call input])
      { s with sources := s.sources.put (newASNSource call.now input) } where
  official := fun cidr => by rw [lastOfficial_other rfl, h.official]
  sound := h.sound
  synced := fun asn cidr => by
    have hkey : (newASNSource call.now input).asn = input.asn := rfl
    rw [h.synced, Table.find?_put, hkey]
    by_cases ha : input.asn = asn
    · -- there were no prefixes of it, and there has been no sync since
      subst ha
      rw [lastSynced_create]
      simp [hnew, Names]
    · have hother : Event.creates asn (.create call input) = false := decide_eq_false ha
      rw [if_neg ha, lastSynced_other hother rfl]
  versions := h.versions

theorem follows_update (h : Follows pg log s) {call : Call} {asn : Int}
    {input : UpdateASNSourceRequest} {old item : ASNSource} (hold : s.sources.find? asn = some old)
    (hasn : item.asn = asn) :
    Follows pg (log ++ [.update call asn input]) { s with sources := s.sources.put item } where
  official := fun cidr => by rw [lastOfficial_other rfl, h.official]
  sound := h.sound
  synced := fun a cidr => by
    have hkey := Table.key_of_find? hold
    rw [h.synced, lastSynced_other rfl rfl]
    dsimp only
    rw [find?_put_source old (hkey.symm ▸ hold) (hasn.trans hkey.symm)]
  versions := h.versions

theorem follows_delete (h : Follows pg log s) {call : Call} {asn : Int} :
    Follows pg (log ++ [.delete call asn]) (deleteUnmanaged asn s).2 := by
  have hlog : Follows pg (log ++ [.delete call asn]) s := by
    refine ⟨fun cidr => ?_, h.sound, fun a cidr => ?_, h.versions⟩
    · rw [lastOfficial_other rfl, h.official]
    · rw [lastSynced_other rfl rfl, h.synced]
  unfold deleteUnmanaged
  split
  · exact hlog
  · split
    · exact hlog
    · refine ⟨hlog.official, h.sound, fun a cidr => ?_, fun row hrow => ?_⟩
      · dsimp only
        rw [on_keepWhere (q := fun k => k.1 ≠ asn) (fun row => by simp [ASNPrefixRow.key]),
          hlog.synced, Table.find?_erase]
        by_cases ha : asn = a
        · subst ha
          simp
        · simp [ha, Ne.symm ha]
      · exact h.versions row (Table.mem_keepWhere.mp hrow).1

theorem follows_of_ok (hreads : ReadsPrefixes pg) (h : Follows pg log s)
    (hperform : e.perform texts pg s = (none, s')) : Follows pg (log ++ [e]) s' := by
  cases e with
  | sync call v4 v6 =>
    obtain ⟨status, hok⟩ := of_outcome_ok hperform
    exact follows_sync hreads h hok
  | syncASN call asn response =>
    obtain ⟨item, hok⟩ := of_outcome_ok hperform
    exact follows_syncASN hreads h hok
  | create call input =>
    obtain ⟨item, hok⟩ := of_outcome_ok hperform
    obtain ⟨hnew, rfl⟩ := ends_createASNSource (Conn.transact_ok hok)
    exact follows_create h hnew
  | update call asn input =>
    obtain ⟨item, hok⟩ := of_outcome_ok hperform
    obtain ⟨old, hold, hasn, rfl⟩ := ends_updateASNSource (Conn.transact_ok hok)
    exact follows_update h hold hasn
  | delete call asn =>
    obtain ⟨_, hok⟩ := of_outcome_ok hperform
    rw [ends_deleteASNSource (Conn.transact_ok hok)]
    exact follows_delete h

theorem Follows.step (hreads : ReadsPrefixes pg) {w : World} (h : Follows pg w.log w.store)
    (e : Event) : Follows pg (w.step texts pg e).log (w.step texts pg e).store := by
  unfold World.step
  split
  · exact follows_of_ok hreads h ‹_›
  · exact h.of_unmoved (unmoved_of_error ‹_›)

theorem follows_initial (now : Timestamp) : Follows pg [] (PoolStore.initial now) where
  official := fun cidr => iff_of_false not_on_empty (by simp [Names, lastOfficial])
  sound := fun _ h => absurd h List.not_mem_nil
  synced := fun asn cidr => iff_of_false not_on_empty (by simp [Names, lastSynced])
  versions := fun _ h => absurd h List.not_mem_nil

/-- Whatever is requested, the tables follow the log. -/
theorem follows_serve (hreads : ReadsPrefixes pg) (now : Timestamp) (requests : List Request) :
    let w := requests.foldl (World.serve texts pg) (World.initial now)
    Follows pg w.log w.store := by
  suffices ∀ w : World, Follows pg w.log w.store →
      Follows pg (requests.foldl (World.serve texts pg) w).log
        (requests.foldl (World.serve texts pg) w).store from this _ (follows_initial now)
  induction requests with
  | nil => exact fun w h => h
  | cons request requests ih =>
    intro w h
    refine ih _ ?_
    unfold World.serve
    generalize request.events w.store = events
    induction events generalizing w with
    | nil => exact h
    | cons e events ih => exact ih _ (h.step hreads e)

end Step

end Cfscan.Cloudflare
