import Cfscan.Jobs.Marks
import Mathlib.Logic.Relation

/-!
# An entry from one plan to a later one

`planLeagueTargets_entries` puts together what a plan does to one entry (`Planned`) and what becomes
of an entry between two plans. An entry **rests** while it is inactive: plans leave it out, and a
job of an earlier plan may still be created for it, since the targets of a plan are handed to
`CreateScanJob` after its transaction and that call marks an entry whether it is active or not. So
what an entry has when a later plan takes it back is the tier, the streak and the time of the
evaluation it was left with, and the time of the last job, which need not be the one it was left
with.

`Rest` therefore carries beside the store the time of the last job that took the prefix.

## What this file does not say

* The evaluation is not opened here. A new entry and one that is taken back are evaluated by the
  call that writes them (`refreshed`), and what they are afterwards is `League.Hysteresis`.
* Nothing is said of agent ids that `ResolveScanAgentIDs` has not returned. `plan_forgets` has an id
  in capitals, of which no entry is ever deactivated.
* A plan that fails is not a step: it rolls back. Nor is anything said of an entry whose agent is
  deleted, which takes its entries along.
-/

set_option autoImplicit false

namespace Cfscan.Jobs

open Cfscan.Lib Cfscan.Store Cfscan.Scan Cfscan.League
open Cfscan.League.Dashboard (LeagueKey LeagueRow)

/-! ## At rest

The steps between two plans, for one key. A plan in which the entry stays inactive, a
created job that may mark it, and anything else that leaves the league table alone. -/

/-- What a prefix has to lose. -/
structure History where
  tier : Tier
  badStreak : Int
  lastScheduledAt : Option Timestamp
  lastEvaluatedAt : Option Timestamp
deriving DecidableEq, Repr

def historyOf (e : LeagueRow) : History :=
  ⟨e.tier, e.badStreak, e.lastScheduledAt, e.lastEvaluatedAt⟩

/-- The tables, and the time of the last job for the entry that is followed. -/
structure Resting where
  store : JobStore
  lastJob : Option Timestamp

/-- One transaction that leaves an entry inactive or alone: a plan of any agents and any prefixes,
a job of any targets, or a transaction that does not write the row. -/
inductive Rest (server : PlanServer) (k : LeagueKey) : Resting → Resting → Prop
  | plan {input : LeagueRequest} {agentIDs : List String} {byName : Arrangement (agentOrder server)}
      {registered : Table UUID Enrollment.AgentRow Enrollment.AgentRow.id} {moment : Timestamp}
      {requested : List String} (now : Timestamp) (queries : PlanQueries) (rt : Runtime)
      (agents : Agents) (s : JobStore) (prefixes : List ModelPrefix) (seed : String) (force : Bool)
      (fuel : Nat) (lastJob : Option Timestamp)
      (hresolved : resolveScanAgentIDs server byName registered moment requested = .ok agentIDs)
      (hinactive : ∀ e, (planLeagueTargets server input agentIDs now queries rt agents s prefixes
        seed force fuel).2.entries.find? k = some e → e.active = false) :
      Rest server k ⟨s, lastJob⟩ ⟨(planLeagueTargets server input agentIDs now queries rt agents s
        prefixes seed force fuel).2, lastJob⟩
  | job (agents : Agents) (s : JobStore) (now : Timestamp) (jobID : UUID)
      (input : CreateScanJobRequest) (range : AnyOrder ScheduledPrefix)
      (agentTargets : List AgentScanTargets) (lastJob : Option Timestamp)
      (hready : RecheckReady server.toPostgres s.scan) :
      Rest server k ⟨s, lastJob⟩
        ⟨(createScanJob server.toPostgres agents s now jobID input range agentTargets).2,
          if Takes input jobID k
              (createScanJob server.toPostgres agents s now jobID input range agentTargets) then
            some now
          else lastJob⟩
  | other {s s' : JobStore} (lastJob : Option Timestamp)
      (hrow : s'.entries.find? k = s.entries.find? k) : Rest server k ⟨s, lastJob⟩ ⟨s', lastJob⟩

/-- The entry has the history it was left with, and the time of the last job. -/
def Kept (k : LeagueKey) (left : History) (w : Resting) : Prop :=
  (w.store.entries.find? k).map historyOf = some { left with lastScheduledAt := w.lastJob }

section Plan

variable {server : PlanServer} {input : LeagueRequest} {agentIDs : List String} {now : Timestamp}
  {agents : Agents}

theorem Planned.rest {prefixes : List ModelPrefix} {s s' : JobStore}
    (h : Planned server input agentIDs now prefixes s s') {k : LeagueKey}
    (hinactive : ∀ e, s'.entries.find? k = some e → e.active = false) :
    (s'.entries.find? k).map historyOf = (s.entries.find? k).map historyOf := by
  by_cases hplan : inPlan server input agentIDs k = true
  · by_cases hpool : InPool server input.includeIPv6 prefixes k
    · have hactive := hinactive _ (h.listed k hplan hpool)
      rw [active_refreshed, active_activateEntry] at hactive
      cases hactive
    · rw [h.unlisted k hplan hpool, Option.map_map]
      rfl
  · rw [h.outside k (eq_false_of_ne_true hplan)]

/-- What one transaction leaves of the history. -/
theorem Rest.kept {k : LeagueKey} {left : History} {w w' : Resting}
    (hplain : PlainUUIDs server.toPostgres) (h : Rest server k w w') (hkept : Kept k left w) :
    Kept k left w' := by
  unfold Kept at hkept ⊢
  cases h with
  | plan now queries rt agents s prefixes seed force fuel lastJob hresolved hinactive =>
    have hcanonical := (resolveScanAgentIDs_canonical hresolved).1
    rcases planLeagueTargets_planned hcanonical queries rt s prefixes seed force fuel with
      ⟨_, hrun⟩ | ⟨_, s', hrun, hplanned⟩
    · rw [hrun]
      exact hkept
    · rw [hrun] at hinactive ⊢
      exact (hplanned.rest hinactive).trans hkept
  | job agents s now jobID input range agentTargets lastJob hready =>
    dsimp only
    rw [createScanJob_entries _ _ _ _ _ _ hplain hready]
    split
    next htakes =>
      obtain ⟨e, hfind, he⟩ := Option.map_eq_some_iff.mp hkept
      rw [hfind]
      exact congrArg (fun history : History => some { history with lastScheduledAt := some now }) he
    next => exact hkept
  | other lastJob hrow =>
    rw [hrow]
    exact hkept

/-- However long an entry rests. -/
theorem Rest.kept_run {k : LeagueKey} {left : History} {w w' : Resting}
    (hplain : PlainUUIDs server.toPostgres) (h : Relation.ReflTransGen (Rest server k) w w')
    (hkept : Kept k left w) : Kept k left w' := by
  induction h with
  | refl => exact hkept
  | tail _ hstep ih => exact hstep.kept hplain ih

/-! ## A plan, and what it finds -/

/-- **The entries of a plan.** A successful plan activates the prefixes of the pool and no others,
makes new entries in observation and evaluates them, leaves other agents and configurations alone,
and takes an entry that has rested back as it was left, with the time of the last job, for its
evaluation. -/
theorem planLeagueTargets_entries (hplain : PlainUUIDs server.toPostgres)
    {byName : Arrangement (agentOrder server)}
    {registered : Table UUID Enrollment.AgentRow Enrollment.AgentRow.id} {moment : Timestamp}
    {requested : List String}
    (hresolved : resolveScanAgentIDs server byName registered moment requested = .ok agentIDs)
    {queries : PlanQueries} {rt : Runtime} {s s' : JobStore} {prefixes : List ModelPrefix}
    {seed : String} {force : Bool} {fuel : Nat} {plan : Option (List AgentScanTargets)}
    (h : planLeagueTargets server input agentIDs now queries rt agents s prefixes seed force fuel =
      (.ok plan, s')) :
    (∀ k, inPlan server input agentIDs k = true →
      ((∃ e, s'.entries.find? k = some e ∧ e.active = true) ↔
        InPool server input.includeIPv6 prefixes k)) ∧
    (∀ k e, s.entries.find? k = none → s'.entries.find? k = some e →
      (∃ e₁ : LeagueRow, e₁.key = k ∧ e₁.active = true ∧
        historyOf e₁ = ⟨.observation, 0, none, none⟩ ∧
        e = refreshed server input agentIDs now s.scan e₁) ∧
      (ofEntry (planResults server input agentIDs s.scan
        (now - League.Dashboard.sevenDays)) k = [] → e.tier = .observation ∧ e.badStreak = 0)) ∧
    (∀ k, inPlan server input agentIDs k = false → s'.entries.find? k = s.entries.find? k) ∧
    (∀ k s₀ e₀ lastJob e, s₀.entries.find? k = some e₀ →
      Relation.ReflTransGen (Rest server k) ⟨s₀, e₀.lastScheduledAt⟩ ⟨s, lastJob⟩ →
      (∀ e₁, s.entries.find? k = some e₁ → e₁.active = false) →
      s'.entries.find? k = some e → e.active = true →
      e.lastScheduledAt = lastJob ∧ ∃ e₁, e₁.key = k ∧ e₁.active = true ∧
        historyOf e₁ = { historyOf e₀ with lastScheduledAt := lastJob } ∧
        e = refreshed server input agentIDs now s.scan e₁) := by
  have hplanned : Planned server input agentIDs now prefixes s s' := by
    rcases planLeagueTargets_planned (resolveScanAgentIDs_canonical hresolved).1 queries rt s prefixes
      seed force fuel with ⟨_, hrun⟩ | ⟨_, s'', hrun, hplanned⟩
    · rw [hrun] at h
      cases h
    · rw [hrun] at h
      cases h
      exact hplanned
  refine ⟨fun k hplan => hplanned.active_iff hplan, fun k e hnone hsome => ?_, hplanned.outside,
    fun k s₀ e₀ lastJob e hrow hrests hrested hsome hactive => ?_⟩
  · obtain rfl := hplanned.new hnone hsome
    exact ⟨⟨newEntry now k, rfl, rfl, rfl, rfl⟩, refreshed_newEntry⟩
  · -- what the entry was left with is still in its row
    have hleft : Kept k (historyOf e₀) ⟨s₀, e₀.lastScheduledAt⟩ :=
      congrArg (Option.map historyOf) hrow
    obtain ⟨e₁, hfind, hsame⟩ := Option.map_eq_some_iff.mp (Rest.kept_run hplain hrests hleft)
    have hkey : e₁.key = k := Table.key_of_find? hfind
    obtain rfl := hplanned.resumed hfind (hrested e₁ hfind) hsome hactive
    exact ⟨congrArg History.lastScheduledAt hsame, activateEntry now k (some e₁), hkey, rfl, hsame,
      rfl⟩

end Plan

/-! ## A prefix taken back -/

/-- An entry that rests as a challenger. -/
def resting : LeagueRow := { scheduledOnce with active := false }

def oneResting : JobStore := ⟨.empty, .empty, ⟨[resting], List.nodup_singleton _⟩⟩

def onePool : List ModelPrefix := [⟨"104.16.0.0/24", 4, "official", true⟩]

def oneQueries : PlanQueries := ⟨.unchanged, .mergeSort _⟩

def oneRuntime : Runtime := ⟨fun _ => 0, .insertion, 0⟩

def oneRegistered : Table UUID Enrollment.AgentRow Enrollment.AgentRow.id :=
  ⟨[{ id := 0x6f9619ff8b864011b42d00c04fc964ff, name := "agent", region := "", continent := "",
      concurrency := 8, status := "online", os := "linux", architecture := "amd64", version := "1",
      lastSeenAt := 0, createdAt := 0, updatedAt := 0 }], List.nodup_singleton _⟩

theorem resolved_oneAgent :
    resolveScanAgentIDs oneNetwork (.mergeSort _) oneRegistered 0 [oneAgent] = .ok [oneAgent] := by
  decide +kernel

/-- What an earlier plan had chosen of the prefix. -/
def chosenTargets : List AgentScanTargets := [⟨oneAgent, [⟨"104.16.0.1", "104.16.0.0/24"⟩]⟩]

/-- A plan of one agent, on a pool. -/
def planned (server : PlanServer) (agentID : String) (now : Timestamp) (s : JobStore)
    (prefixes : List ModelPrefix) :
    Except StoreError (Option (List AgentScanTargets)) × JobStore :=
  planLeagueTargets server oneProbe [agentID] now oneQueries oneRuntime (fun _ => some "agent") s
    prefixes "seed" false 0


/-- The job of an earlier plan, which comes late. -/
def lateJob (s : JobStore) : Except StoreError ScanJob × JobStore :=
  createScanJob oneNetwork.toPostgres (fun _ => some "agent") s 60 7
    oneProbe.toCreateScanJobRequest .unchanged chosenTargets

/-- What has happened while it rested: the job, and a plan the prefix is not in. -/
def stillResting : JobStore := (planned oneNetwork oneAgent 70 (lateJob oneResting).2 []).2

theorem inactive_stillResting {e : LeagueRow} (hfind : stillResting.entries.find? oneKey = some e) :
    e.active = false := by
  have hinactive : (stillResting.entries.find? oneKey).map LeagueRow.active = some false := by
    decide +kernel
  rw [hfind] at hinactive
  exact Option.some_inj.mp hinactive

theorem rests_oneResting : Relation.ReflTransGen (Rest oneNetwork oneKey) ⟨oneResting, some 5⟩
    ⟨stillResting, some 60⟩ := by
  have htakes : Takes oneProbe.toCreateScanJobRequest 7 oneKey (lateJob oneResting) := by
    decide +kernel
  have hjob : Rest oneNetwork oneKey ⟨oneResting, some 5⟩ ⟨(lateJob oneResting).2,
      if Takes oneProbe.toCreateScanJobRequest 7 oneKey (lateJob oneResting) then some 60
      else some 5⟩ :=
    .job _ _ _ _ _ _ _ _
      ⟨fun _ h => absurd h List.not_mem_nil, fun _ h => absurd h List.not_mem_nil⟩
  rw [if_pos htakes] at hjob
  exact .tail (.single hjob)
    (.plan _ _ _ _ _ _ _ _ _ _ resolved_oneAgent fun _ hfind => inactive_stillResting hfind)

theorem planLeagueTargets_entries_resting :
    ∃ plan s' e, planned oneNetwork oneAgent 90 stillResting onePool = (.ok plan, s') ∧
      s'.entries.find? oneKey = some e ∧ e.active = true ∧ e.lastScheduledAt = some 60 ∧
      ∃ e₁, historyOf e₁ = ⟨.challenger, 1, some 60, none⟩ ∧
        e = refreshed oneNetwork oneProbe [oneAgent] 90 stillResting.scan e₁ := by
  have hok : (planned oneNetwork oneAgent 90 stillResting onePool).1.isOk = true := by
    decide +kernel
  generalize hrun : planned oneNetwork oneAgent 90 stillResting onePool = result at hok
  obtain ⟨plan | plan, s'⟩ := result
  · cases hok
  obtain ⟨hactive, -, -, hback⟩ :=
    planLeagueTargets_entries plainUUIDs_oneNetwork resolved_oneAgent hrun
  obtain ⟨e, hfind, he⟩ := (hactive oneKey (by decide +kernel)).mpr
    ⟨⟨"104.16.0.0/24", 4, "official", true⟩, List.mem_singleton.mpr rfl, rfl, by decide +kernel⟩
  obtain ⟨hscheduled, e₁, -, -, hhistory, hrefreshed⟩ :=
    hback oneKey oneResting resting (some 60) e (by decide +kernel) rests_oneResting
      (fun _ hrow => inactive_stillResting hrow) hfind he
  exact ⟨plan, s', e, rfl, hfind, he, hscheduled, e₁, hhistory, hrefreshed⟩

/-! ## What a plan does not keep

Three things that might be expected of a plan and are not so, in one run each: an id in
capitals deactivates nothing, a new entry with results does not stay in observation, and a
job that was planned before an entry was deactivated still marks it. -/

def inCapitals : String := "6F9619FF-8B86-4011-B42D-00C04FC964FF"

/-- A uuid is also read in capitals. The percentile is one of equal values. -/
def anyCase : PlanServer := { oneNetwork with
  uuid := fun text =>
    if text = inCapitals then some 0x6f9619ff8b864011b42d00c04fc964ff else oneNetwork.uuid text
  percentileCont := fun _ values => values.headD 0
  uuid_text := by
    intro id
    by_cases hid : oneNetwork.uuidText id = inCapitals
    · -- no uuid is printed in capitals
      have hread := oneNetwork.uuid_text id
      rw [hid] at hread
      have hlength : id = 36 := (Option.some_inj.mp hread).symm
      subst hlength
      exact absurd hid (by decide)
    · rw [if_neg hid]
      exact oneNetwork.uuid_text id }

def oneScheduled : JobStore := ⟨.empty, .empty, ⟨[scheduledOnce], List.nodup_singleton _⟩⟩

/-- An answer of an address of the prefix, to a scan that was not of the league. -/
def answered (taskID : Int) (host : String) : ScanResult where
  jobID := 8
  taskID := taskID
  agentID := 0x6f9619ff8b864011b42d00c04fc964ff
  targetIP := ⟨host, none⟩
  targetPrefix := some ⟨"104.16.0.0/24"⟩
  available := true
  latencyMS := 20
  packetLoss := 0
  tcpConnectMS := 5
  tlsHandshakeMS := 10
  ttfbMS := 15
  totalMS := 20
  httpStatus := 200
  httpVersion := "HTTP/2.0"
  tlsVersion := "TLS 1.3"
  colo := "LAX"
  cfRay := ""
  errorCode := ""
  errorMessage := ""
  successfulTries := 3
  attempts := 3
  scannedAt := taskID

/-- Three addresses of the prefix have answered, and it has no entry. -/
def oneScanned : JobStore where
  scan := { ScanStore.empty with
    jobs := ⟨[oneTarget.job 8 0], List.nodup_singleton _⟩
    results := ⟨[answered 1 "104.16.0.1", answered 2 "104.16.0.2", answered 3 "104.16.0.3"],
      by decide⟩ }
  ipTargets := .empty
  entries := .empty

/-- An agent named in capitals keeps its stale entries; a new entry is evaluated at once, here to a
challenger; and a job that comes late moves the time an entry rests with. -/
theorem plan_forgets :
    ((planned anyCase inCapitals 90 oneScheduled []).1.isOk = true ∧
      ((planned anyCase inCapitals 90 oneScheduled []).2.entries.find? oneKey).map
        LeagueRow.active = some true) ∧
    ((planned anyCase oneAgent 90 oneScanned onePool).1.isOk = true ∧
      ((planned anyCase oneAgent 90 oneScanned onePool).2.entries.find? oneKey).map
        LeagueRow.tier = some .challenger) ∧
    ((planned oneNetwork oneAgent 50 oneScheduled []).2.entries.find? oneKey).map
        (fun e => (e.active, e.lastScheduledAt)) = some (false, some 5) ∧
      ((planned oneNetwork oneAgent 90 (lateJob (planned oneNetwork oneAgent 50 oneScheduled []).2).2
        onePool).2.entries.find? oneKey).map (fun e => (e.active, e.lastScheduledAt)) =
          some (true, some 60) := by
  refine ⟨⟨?_, ?_⟩, ⟨?_, ?_⟩, ?_, ?_⟩ <;> decide +kernel

end Cfscan.Jobs
