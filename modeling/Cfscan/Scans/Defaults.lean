import Cfscan.Scans.Service

/-!
# Requests that are honoured

The job that `Create` persists has the columns its caller asked for, and with them the thresholds
that later decide what goes on the blacklist, for every accepted request but those that tolerate no
packet loss: `honoured_iff`.

`Honoured` is about the columns of the job and not about its targets: which addresses a request
comes to is a matter of the prefixes there are. Besides that packet loss the defaults change the
name of an accepted request, and its count where one address is taken of each prefix; neither is
among the columns here.
-/

set_option autoImplicit false

namespace Cfscan.Scans

open Cfscan.Store

/-- `CreateScanJob` of the store, as a call of the service. -/
def storedJob (pg : Postgres) (agents : Scan.Agents) (instant : Timestamp) (jobID : UUID)
    (range : Jobs.AnyOrder Jobs.ScheduledPrefix) (input : CreateScanJobRequest)
    (agentTargets : List Scan.AgentScanTargets) : Calls Jobs.JobStore Scan.ScanJob := fun s =>
  let r := Jobs.createScanJob pg agents s instant jobID input.toCreateScanJobRequest range
    agentTargets
  (r.1.mapError ServiceError.store, r.2)

/-- The columns of a job that its request decides, the name apart. -/
structure AsAsked (input : CreateScanJobRequest) (job : Scan.ScanJob) : Prop where
  samplingMode : job.samplingMode = input.samplingMode
  scheme : job.scheme = input.scheme
  hostname : job.hostname = input.hostname
  path : job.path = input.path
  port : job.port = input.port
  attempts : job.attempts = input.attempts
  timeoutMS : job.timeoutMS = input.timeoutMS
  maxLatencyMS : job.maxLatencyMS = input.maxLatencyMS
  maxPacketLoss : job.maxPacketLoss = input.maxPacketLoss
  blacklistMinutes : job.blacklistMinutes = input.blacklistMinutes

/-- The defaults leave the request alone, and the jobs that are created for it are as it asks. -/
structure Honoured (input : CreateScanJobRequest) : Prop where
  kept : ∀ now, Kept input (applyDefaults now input)
  persisted : ∀ (env : Environment Jobs.JobStore) pg agents instant jobID range,
    env.createScanJob = storedJob pg agents instant jobID range →
    ∀ now stamp kind s job s', (create env now stamp input kind).run.run s = (.ok job, s') →
      job ∈ s'.scan.jobs.rows ∧ AsAsked input job

/-- What the store makes of a request. -/
theorem storedJob_ok {pg : Postgres} {agents : Scan.Agents} {instant : Timestamp} {jobID : UUID}
    {range : Jobs.AnyOrder Jobs.ScheduledPrefix} {input : CreateScanJobRequest}
    {agentTargets : List Scan.AgentScanTargets} {s s' : Jobs.JobStore} {job : Scan.ScanJob}
    (h : (storedJob pg agents instant jobID range input agentTargets).run.run s = (.ok job, s')) :
    job ∈ s'.scan.jobs.rows ∧ AsAsked input job := by
  change (Except.mapError ServiceError.store (Jobs.createScanJob pg agents s instant jobID
      input.toCreateScanJobRequest range agentTargets).1,
    (Jobs.createScanJob pg agents s instant jobID input.toCreateScanJobRequest range
      agentTargets).2) = (.ok job, s') at h
  rcases Jobs.createScanJob_cases pg agents s instant jobID input.toCreateScanJobRequest range
    agentTargets with ⟨d, entries, -, -, hrun⟩ | ⟨-, error, n, hrun⟩
  · rw [hrun] at h
    cases h
    exact ⟨Lib.Table.mem_put.mpr (Or.inl rfl), ⟨rfl, rfl, rfl, rfl, rfl, rfl, rfl, rfl, rfl, rfl⟩⟩
  · rw [hrun] at h
    cases h

theorem honoured_iff {input : CreateScanJobRequest} (h : validate input = .ok ()) :
    Honoured input ↔ input.maxPacketLoss ≠ 0 := by
  have hvalid := validate_iff.mp h
  constructor
  · intro honoured
    exact (kept_iff hvalid ⟨1, 1, 0, 0⟩).mp (honoured.kept ⟨1, 1, 0, 0⟩)
  · intro hloss
    refine ⟨fun now => (kept_iff hvalid now).mpr hloss, ?_⟩
    intro env pg agents instant jobID range henv now stamp kind s job s' hrun
    obtain ⟨-, agentTargets, s₁, hhanded⟩ := create_handed env hrun
    rw [henv] at hhanded
    obtain ⟨hmem, hasked⟩ := storedJob_ok hhanded
    rw [applyDefaults_of_valid hvalid, orDefault_of_ne hloss] at hasked
    exact ⟨hmem, ⟨hasked.samplingMode, hasked.scheme, hasked.hostname, hasked.path, hasked.port,
      hasked.attempts, hasked.timeoutMS, hasked.maxLatencyMS, hasked.maxPacketLoss,
      hasked.blacklistMinutes⟩⟩

/-- A request with every field given. -/
def fullRequest : CreateScanJobRequest where
  kind := ""
  name := "edge"
  samplingMode := "count"
  scheme := "https"
  hostname := "cloudflare.com"
  path := "/cdn-cgi/trace"
  port := 443
  attempts := 3
  timeoutMS := 5000
  maxLatencyMS := 300
  maxPacketLoss := 1
  blacklistMinutes := 60
  includeBlocked := false
  forceLeague := false
  agentIDs := []
  targetCount := 128
  includeIPv6 := false

theorem honoured_fullRequest : Honoured fullRequest := by
  have haccepted : validate fullRequest = .ok () := by decide +kernel
  exact (honoured_iff haccepted).mpr (by decide)

/-- No packet loss is tolerated, and half of all packets is. -/
theorem lossless_not_honoured :
    ¬ ∀ input, validate input = .ok () → Honoured input := by
  intro h
  have honoured := h { fullRequest with maxPacketLoss := 0 } (by decide +kernel)
  obtain ⟨name, targetCount, hfields⟩ := (honoured.kept ⟨7, 16, 8, 0⟩).fields
  have hloss : (50 : ℚ) = 0 := congrArg (fun r => r.maxPacketLoss) hfields
  exact absurd hloss (by decide)

end Cfscan.Scans
