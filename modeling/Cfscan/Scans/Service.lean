import Cfscan.Jobs.Store
import Cfscan.Targets.Enumerate
import Cfscan.Targets.OnePerPrefix

/-!
# The scan service — `internal/scans/service.go`

A request leaves the service as it came in, with the fields that are zero filled in. Zero stands for
a field that was not given, and for one field it is also a value a caller may ask for:
`Validate` accepts a packet loss of 0, and `ApplyDefaults` makes 50 of it (`kept_iff`).

`create` goes through the same three steps as the source. The defaults come first and the checks
after them, so that a field left out is never refused; then the targets are chosen, by the agents,
the prefixes and the league, and the store is called once.

The collaborators of the service are the fields of `Environment`, in a state monad over any state,
and `Create` hands them what it was given: the kind of the job alone is set by its caller.
-/

set_option autoImplicit false

namespace Cfscan.Scans

open Cfscan.Lib Cfscan.Store

/-- `model.CreateScanJobRequest`. -/
structure CreateScanJobRequest extends Scan.CreateScanJobRequest where
  forceLeague : Bool
  agentIDs : List String
  targetCount : Int
  includeIPv6 : Bool
deriving DecidableEq, Repr

/-! ## Defaults and checks -/

/-- The instant of a clock, as far as `Format("01-02 15:04")` prints it. -/
structure Clock where
  month : Nat
  day : Nat
  hour : Nat
  minute : Nat

def digit (n : Nat) : Char := Char.ofNat (48 + n % 10)

def twoDigits (n : Nat) : List Char := [digit (n / 10), digit n]

def Clock.format (t : Clock) : String :=
  String.ofList (twoDigits t.month ++ '-' :: twoDigits t.day ++ ' ' :: twoDigits t.hour ++
    ':' :: twoDigits t.minute)

/-- A field that is zero was not given. -/
def orDefault {α : Type} [DecidableEq α] (zero value default : α) : α :=
  if value = zero then default else value

def applyDefaults (now : Clock) (input : CreateScanJobRequest) : CreateScanJobRequest :=
  let scheme := orDefault "" input.scheme "https"
  { input with
    name := orDefault "" (trimSpace input.name) ("Cloudflare scan " ++ now.format)
    samplingMode := orDefault "" input.samplingMode "count"
    targetCount := orDefault 0 input.targetCount 128
    scheme := scheme
    hostname := orDefault "" input.hostname "cloudflare.com"
    path := orDefault "" input.path "/cdn-cgi/trace"
    port := orDefault 0 input.port (if scheme = "http" then 80 else 443)
    attempts := orDefault 0 input.attempts 3
    timeoutMS := orDefault 0 input.timeoutMS 5000
    maxLatencyMS := orDefault 0 input.maxLatencyMS 1000
    maxPacketLoss := orDefault 0 input.maxPacketLoss 50
    blacklistMinutes := orDefault 0 input.blacklistMinutes 60 }

def refuseIf (refused : Bool) (message : String) : Except String Unit :=
  if refused then .error message else .ok ()

def validate (input : CreateScanJobRequest) : Except String Unit := do
  refuseIf (input.samplingMode != "count" && input.samplingMode != "one_per_prefix" &&
      input.samplingMode != "league")
    "sampling_mode must be count, one_per_prefix, or league"
  refuseIf ((input.samplingMode == "count" || input.samplingMode == "league") &&
      (decide (input.targetCount < 1) || decide (input.targetCount > Targets.maxSampleTargets)))
    ("target_count must be between 1 and " ++ toString Targets.maxSampleTargets)
  refuseIf (input.scheme != "https" && input.scheme != "http") "scheme must be http or https"
  refuseIf (input.hostname == "" || input.hostname.toList.any fun c => c ∈ [' ', '/', '\\'])
    "valid hostname is required"
  refuseIf (input.path == "" || input.path.toList.head? != some '/') "path must start with /"
  refuseIf (decide (input.port < 1) || decide (input.port > 65535))
    "port must be between 1 and 65535"
  refuseIf (decide (input.attempts < 1) || decide (input.attempts > 10))
    "attempts must be between 1 and 10"
  refuseIf (decide (input.timeoutMS < 500) || decide (input.timeoutMS > 30000))
    "timeout_ms must be between 500 and 30000"
  refuseIf (decide (input.maxLatencyMS ≤ 0) || decide (input.maxLatencyMS > 60000))
    "max_latency_ms must be between 1 and 60000"
  refuseIf (decide (input.maxPacketLoss < 0) || decide (input.maxPacketLoss > 100))
    "max_packet_loss must be between 0 and 100"
  refuseIf (decide (input.blacklistMinutes < 1) || decide (input.blacklistMinutes > 10080))
    "blacklist_minutes must be between 1 and 10080"

/-! ## What is accepted

The checks as conditions on the fields. Where one address is taken of each prefix the count
is not looked at, which is the one number of a request without a bound. -/

theorem refuseIf_bind {refused : Bool} {message : String} {rest : Unit → Except String Unit} :
    (refuseIf refused message >>= rest) = .ok () ↔ refused = false ∧ rest () = .ok () := by
  cases refused with
  | true => exact ⟨nofun, fun h => absurd h.1 (by decide)⟩
  | false => exact ⟨fun h => ⟨rfl, h⟩, And.right⟩

theorem refuseIf_eq {refused : Bool} {message : String} :
    refuseIf refused message = .ok () ↔ refused = false := by
  cases refused with
  | true => exact ⟨nofun, nofun⟩
  | false => exact ⟨fun _ => rfl, fun _ => rfl⟩

/-- What `Validate` accepts. -/
structure Valid (input : CreateScanJobRequest) : Prop where
  mode : input.samplingMode = "count" ∨ input.samplingMode = "one_per_prefix" ∨
    input.samplingMode = "league"
  count : input.samplingMode ≠ "one_per_prefix" → 1 ≤ input.targetCount ∧ input.targetCount ≤ 10000
  scheme : input.scheme = "https" ∨ input.scheme = "http"
  hostname : input.hostname ≠ "" ∧ ∀ c ∈ input.hostname.toList, c ∉ [' ', '/', '\\']
  path : input.path ≠ "" ∧ input.path.toList.head? = some '/'
  port : 1 ≤ input.port ∧ input.port ≤ 65535
  attempts : 1 ≤ input.attempts ∧ input.attempts ≤ 10
  timeout : 500 ≤ input.timeoutMS ∧ input.timeoutMS ≤ 30000
  latency : 0 < input.maxLatencyMS ∧ input.maxLatencyMS ≤ 60000
  loss : 0 ≤ input.maxPacketLoss ∧ input.maxPacketLoss ≤ 100
  blacklist : 1 ≤ input.blacklistMinutes ∧ input.blacklistMinutes ≤ 10080

theorem between_iff {α : Type} [LinearOrder α] {low high value : α} :
    (decide (value < low) || decide (value > high)) = false ↔ low ≤ value ∧ value ≤ high := by
  simp only [Bool.or_eq_false_iff, decide_eq_false_iff_not, not_lt, gt_iff_lt]

theorem mode_iff {mode : String} :
    (mode != "count" && mode != "one_per_prefix" && mode != "league") = false ↔
      mode = "count" ∨ mode = "one_per_prefix" ∨ mode = "league" := by
  simp only [Bool.and_eq_false_iff, bne_eq_false_iff_eq, or_assoc]

theorem count_iff {mode : String} {count : Int}
    (hmode : mode = "count" ∨ mode = "one_per_prefix" ∨ mode = "league") :
    ((mode == "count" || mode == "league") &&
        (decide (count < 1) || decide (count > Targets.maxSampleTargets))) = false ↔
      (mode ≠ "one_per_prefix" → 1 ≤ count ∧ count ≤ 10000) := by
  rw [Bool.and_eq_false_iff, between_iff, Targets.maxSampleTargets]
  rcases hmode with rfl | rfl | rfl <;> simp

theorem validate_iff {input : CreateScanJobRequest} : validate input = .ok () ↔ Valid input := by
  unfold validate
  simp only [refuseIf_bind, refuseIf_eq, between_iff, mode_iff]
  constructor
  · rintro ⟨hmode, hcount, hscheme, hhostname, hpath, hport, hattempts, htimeout, hlatency, hloss,
      hblacklist⟩
    exact ⟨hmode, (count_iff hmode).mp hcount, or_iff_not_imp_left.mpr (by simpa using hscheme),
      by simpa using hhostname, by simpa using hpath, hport, hattempts, htimeout,
      by simpa using hlatency, hloss, hblacklist⟩
  · rintro ⟨hmode, hcount, hscheme, hhostname, hpath, hport, hattempts, htimeout, hlatency, hloss,
      hblacklist⟩
    exact ⟨hmode, (count_iff hmode).mpr hcount, by simpa using or_iff_not_imp_left.mp hscheme,
      by simpa using hhostname, by simpa using hpath, hport, hattempts, htimeout,
      by simpa using hlatency, hloss, hblacklist⟩

/-! ## Defaults of an accepted request -/

@[simp] theorem orDefault_self {α : Type} [DecidableEq α] (zero default : α) :
    orDefault zero zero default = default := if_pos rfl

theorem orDefault_of_ne {α : Type} [DecidableEq α] {zero value default : α} (h : value ≠ zero) :
    orDefault zero value default = value := if_neg h

/-- What `ApplyDefaults` makes of an accepted request: only the name, the count that is not looked
at and the packet loss can change. -/
theorem applyDefaults_of_valid {input : CreateScanJobRequest} (h : Valid input) (now : Clock) :
    applyDefaults now input = { input with
      name := orDefault "" (trimSpace input.name) ("Cloudflare scan " ++ now.format)
      targetCount := orDefault 0 input.targetCount 128
      maxPacketLoss := orDefault 0 input.maxPacketLoss 50 } := by
  have hmode : input.samplingMode ≠ "" := by
    rcases h.mode with hm | hm | hm <;> rw [hm] <;> decide
  have hscheme : input.scheme ≠ "" := by
    rcases h.scheme with hs | hs <;> rw [hs] <;> decide
  have hport : input.port ≠ 0 := by have := h.port; omega
  have hattempts : input.attempts ≠ 0 := by have := h.attempts; omega
  have htimeout : input.timeoutMS ≠ 0 := by have := h.timeout; omega
  have hblacklist : input.blacklistMinutes ≠ 0 := by have := h.blacklist; omega
  unfold applyDefaults
  simp only [orDefault_of_ne hmode, orDefault_of_ne hscheme, orDefault_of_ne h.hostname.1,
    orDefault_of_ne h.path.1, orDefault_of_ne hport, orDefault_of_ne hattempts,
    orDefault_of_ne htimeout, orDefault_of_ne h.latency.1.ne', orDefault_of_ne hblacklist]

/-- A request as it was asked for: only the name is trimmed, or filled in when it is blank, and
with one address for each prefix the count does not matter. -/
structure Kept (input result : CreateScanJobRequest) : Prop where
  name : trimSpace input.name ≠ "" → result.name = trimSpace input.name
  fields : ∃ name targetCount, result = { input with name := name, targetCount := targetCount }
  count : input.samplingMode ≠ "one_per_prefix" → result.targetCount = input.targetCount

theorem kept_iff {input : CreateScanJobRequest} (h : Valid input) (now : Clock) :
    Kept input (applyDefaults now input) ↔ input.maxPacketLoss ≠ 0 := by
  rw [applyDefaults_of_valid h]
  constructor
  · rintro ⟨-, ⟨name, targetCount, hfields⟩, -⟩ hzero
    have hloss := congrArg (fun r => r.maxPacketLoss) hfields
    simp [hzero] at hloss
  · intro hloss
    refine ⟨orDefault_of_ne, ⟨_, _, by rw [orDefault_of_ne hloss]⟩, fun hmode => ?_⟩
    have hcount := h.count hmode
    exact orDefault_of_ne (by omega)

/-! ## `Create`

The collaborators are called in the order of the source, and a failure of one ends the call.
A mode of sampling chooses between them; the league makes its own plan. -/

inductive ServiceError where
  /-- An error of `Validate`. -/
  | invalid (message : String)
  | store (cause : StoreError)
  /-- `official source: …; ASN sources: …` -/
  | sources (official asn : String)
  | targets (cause : Targets.TargetsError)
  /-- `ErrNoLeagueTargetsDue` -/
  | noLeagueTargetsDue
  | panic
deriving DecidableEq

/-- A call that can fail, and has its effect on the world either way. -/
abbrev Calls (σ : Type) := ExceptT ServiceError (StateM σ)

/-- The `Store` and the `PrefixSyncer` of the service, SHA-256 and `sort.Slice`. -/
structure Environment (σ : Type) where
  listActivePrefixes : Bool → Calls σ (List ModelPrefix)
  resolveScanAgentIDs : List String → Calls σ (List String)
  planLeagueTargets : CreateScanJobRequest → List ModelPrefix → List String → String → Bool →
    Calls σ (List Scan.AgentScanTargets)
  createScanJob : CreateScanJobRequest → List Scan.AgentScanTargets → Calls σ Scan.ScanJob
  /-- The errors of the two syncs. -/
  sync : StateM σ (Option String)
  syncEnabledASNs : StateM σ (Option String)
  sha256 : String → BitVec 256
  sortSlice : SortSlice

section Create

variable {σ : Type} (env : Environment σ)

def activePrefixes (includeIPv6 : Bool) : Calls σ (List ModelPrefix) := do
  let prefixes ← env.listActivePrefixes includeIPv6
  if prefixes.length = 0 then
    let officialErr ← env.sync
    let asnErr ← env.syncEnabledASNs
    match officialErr, asnErr with
    | some official, some asn => throw (.sources official asn)
    | _, _ => env.listActivePrefixes includeIPv6
  else pure prefixes

/-- A result of `internal/targets`. -/
def sampled {α : Type} : Option (Except Targets.TargetsError α) → Calls σ α
  | none => throw .panic
  | some (.error cause) => throw (.targets cause)
  | some (.ok a) => pure a

/-- The targets of each agent. -/
def chooseTargets (input : CreateScanJobRequest) (kind : String) (prefixes : List ModelPrefix)
    (agentIDs : List String) (seed : String) : Calls σ (List Scan.AgentScanTargets) := do
  if input.samplingMode = "league" then
    let agentTargets ← env.planLeagueTargets input prefixes agentIDs seed
      (input.forceLeague || kind != "scheduled")
    if (agentTargets.map fun item => item.targets.length).sum = 0 then throw .noLeagueTargetsDue
    else pure agentTargets
  else
    let items ←
      if input.samplingMode = "one_per_prefix" then
        sampled (Targets.onePerPrefix env.sha256 env.sortSlice prefixes input.includeIPv6 seed)
      else
        sampled (Targets.sample env.sha256 env.sortSlice prefixes input.targetCount
          input.includeIPv6 seed)
    pure (agentIDs.map fun agentID => ⟨agentID, items⟩)

/-- What `Create` does with a request it has accepted, with its kind and its defaults. -/
def createAccepted (stamp : String) (input : CreateScanJobRequest) : Calls σ Scan.ScanJob := do
  let prefixes ← activePrefixes env input.includeIPv6
  let agentIDs ← env.resolveScanAgentIDs input.agentIDs
  let seed := input.kind ++ "|" ++ input.name ++ "|" ++ stamp
  let agentTargets ← chooseTargets env input input.kind prefixes agentIDs seed
  env.createScanJob input agentTargets

/-- `Create`. `now` is the clock of the default name, `stamp` that of the seed, in RFC 3339. -/
def create (now : Clock) (stamp : String) (input : CreateScanJobRequest) (kind : String) :
    Calls σ Scan.ScanJob :=
  let input := applyDefaults now input
  match validate input with
  | .error message => throw (.invalid message)
  | .ok () => createAccepted env stamp { input with kind := orDefault "" kind "normal" }

end Create

section Handed

variable {σ α β : Type}

theorem run_bind_ok {x : Calls σ α} {f : α → Calls σ β} {s s' : σ} {b : β}
    (h : (x >>= f).run.run s = (.ok b, s')) :
    ∃ a s₁, x.run.run s = (.ok a, s₁) ∧ (f a).run.run s₁ = (.ok b, s') := by
  rw [ExceptT.run_bind, StateT.run_bind] at h
  rcases hx : x.run.run s with ⟨result, s₁⟩
  rw [hx] at h
  cases result with
  | error cause => cases h
  | ok a => exact ⟨a, s₁, rfl, h⟩

/-- A job that is created is what the store made of the request with its defaults. -/
theorem create_handed (env : Environment σ) {now : Clock} {stamp kind : String}
    {input : CreateScanJobRequest} {s s' : σ} {job : Scan.ScanJob}
    (h : (create env now stamp input kind).run.run s = (.ok job, s')) :
    Valid (applyDefaults now input) ∧ ∃ agentTargets s₁,
      (env.createScanJob { applyDefaults now input with kind := orDefault "" kind "normal" }
        agentTargets).run.run s₁ = (.ok job, s') := by
  unfold create at h
  dsimp only at h
  split at h
  · cases h
  · rename_i hvalid
    unfold createAccepted at h
    obtain ⟨prefixes, s₁, -, h⟩ := run_bind_ok h
    obtain ⟨agentIDs, s₂, -, h⟩ := run_bind_ok h
    obtain ⟨agentTargets, s₃, -, h⟩ := run_bind_ok h
    exact ⟨validate_iff.mp hvalid, agentTargets, s₃, h⟩

/-- A request with its defaults is created as it is. -/
theorem create_accepted (env : Environment σ) {now : Clock} {input : CreateScanJobRequest}
    (hvalid : validate input = .ok ()) (hkept : applyDefaults now input = input)
    (stamp kind : String) :
    create env now stamp input kind =
      createAccepted env stamp { input with kind := orDefault "" kind "normal" } := by
  unfold create
  rw [hkept]
  dsimp only
  rw [hvalid]

end Handed

end Cfscan.Scans
