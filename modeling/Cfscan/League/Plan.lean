import Cfscan.League.Entry
import Cfscan.Lib.RoundRobin
import Cfscan.Lib.SortSlice
import Cfscan.Targets.Sample

/-!
# `PlanAgent` — which addresses an agent scans next

The translation of `Due` and `PlanAgent` in `internal/league/league.go`. The due entries, longer
prefixes first, each build a queue: anchors from the candidates, then drawn addresses, all
through one `seen` map. The queues of a tier are flattened round robin, and the three tiers are
merged by a pattern of six slots until the budget is reached.

What the function takes from outside the repository is a parameter: SHA-256 (any function), the
clock, and `sort.Slice` (any function that keeps to its documentation). `none` is a plan that is
not returned: a panic in `addressFor`, or a loop that has not ended within its fuel.

`planAgent` takes fuel for its two loops, one amount for both. It is not a bound of the source: that
some amount suffices for every input, and which, is the first thing proved of the function
(`planAgent_total`), and every result about a plan is for all larger ones.

The candidates of an entry are passed in as a function of its prefix, as the source passes a map.
The query they come from is not modelled, and no result about a plan asks more of them than a text
that is canonical.
-/

set_option autoImplicit false

namespace Cfscan.League

open Lib Lib.Netip Targets

structure Runtime where
  sha256 : String → BitVec 256
  sortSlice : SortSlice
  clock : Time

/-- `model.LeagueCandidate`, as far as the plan reads it. -/
structure LeagueCandidate where
  targetIP : String
deriving DecidableEq, Repr

structure PlanOptions where
  now : Time
  seed : String
  budget : Int
  force : Bool
deriving DecidableEq, Repr

structure PrefixQueue where
  cidr : String
  items : List ScanTarget
deriving DecidableEq, Repr

/-! ## What depends on the tier

Samples, anchors and interval of an entry, by its tier. An unknown tier is treated as
observation throughout. -/

def hour : Time := 3600 * 1000000000

def intervalForTier (tier : Tier) : Time :=
  match normalizedTier tier with
  | .champion => hour
  | .challenger => 6 * hour
  | _ => 24 * hour

def samplesForTier (tier : Tier) : Nat :=
  match normalizedTier tier with
  | .champion => 6
  | .challenger => 3
  | _ => 1

def anchorsForTier (tier : Tier) : Nat :=
  match normalizedTier tier with
  | .champion => 2
  | .challenger => 1
  | _ => 0

/-- The keys of the maps `queues`, `flat` and `positions`. -/
def tiers : List Tier := [.champion, .challenger, .observation]

def pattern : List Tier :=
  [.champion, .champion, .champion, .challenger, .challenger, .observation]

/-! ## Due entries, and their order

An active entry is due when it is forced, was never scheduled, or its interval is over; an
inactive one never is. Longer prefixes come first, and within a length the hash of the seed
decides. -/

def due (entry : PrefixLeagueEntry) (now : Time) (force : Bool) : Bool :=
  if !entry.active then false
  else
    match force, entry.lastScheduledAt with
    | true, _ => true
    | _, none => true
    | false, some scheduled => !decide (scheduled + intervalForTier entry.tier > now)

/-- The first eight bytes of the hash of the parts, each followed by a zero byte. -/
def stableScore (sha256 : String → BitVec 256) (parts : List String) : Nat :=
  (sha256 (parts.foldl (fun text part => text ++ part ++ "\x00") "")).toNat / 2 ^ 192

def dueLess (sha256 : String → BitVec 256) (seed : String) (a b : PrefixLeagueEntry) : Bool :=
  let scored := decide (stableScore sha256 [seed, a.agentID, a.prefixCIDR] <
    stableScore sha256 [seed, b.agentID, b.prefixCIDR])
  match parsePrefix a.prefixCIDR, parsePrefix b.prefixCIDR with
  | some left, some right =>
      if left.bits ≠ right.bits then decide (left.bits > right.bits) else scored
  | _, _ => scored

/-- The options after the defaults `PlanAgent` starts with. -/
def PlanOptions.effective (options : PlanOptions) (clock : Time) : PlanOptions where
  now := if options.now = 0 then clock else options.now
  seed := options.seed
  budget :=
    if options.budget ≤ 0 ∨ options.budget > maxSampleTargets then maxSampleTargets
    else options.budget
  force := options.force

def dueOrder (rt : Runtime) (entries : List PrefixLeagueEntry) (options : PlanOptions) :
    List PrefixLeagueEntry :=
  rt.sortSlice.sort (dueLess rt.sha256 options.seed)
    (entries.filter fun entry => due entry options.now options.force)

/-! ## The queues

One pass over the due entries with one `seen` map for all of them. An address that an
earlier entry has queued is not queued again, as an anchor or as a draw. -/

/-- The loop over the candidates of one prefix. -/
def takeAnchors (network : Prefix) (limit : Nat) :
    List LeagueCandidate → List ScanTarget → Seen → List ScanTarget × Seen
  | [], items, seen => (items, seen)
  | candidate :: rest, items, seen =>
      if items.length ≥ limit then (items, seen)
      else
        match parseAddr candidate.targetIP with
        | none => takeAnchors network limit rest items seen
        | some addr =>
            if !network.contains addr then takeAnchors network limit rest items seen
            else if candidate.targetIP ∈ seen then takeAnchors network limit rest items seen
            else
              takeAnchors network limit rest (items ++ [⟨candidate.targetIP, network.string⟩])
                (candidate.targetIP :: seen)

/-- The queues built so far, by tier, and the `seen` map. -/
structure Queues where
  queues : Tier → List PrefixQueue
  seen : Seen

def Queues.empty : Queues := ⟨fun _ => [], []⟩

/-- `queues[tier] = append(queues[tier], …)`, when the queue has anything in it. -/
def Queues.push (s : Queues) (tier : Tier) (queue : PrefixQueue) (seen : Seen) : Queues where
  queues :=
    if queue.items.length > 0 then Function.update s.queues tier (s.queues tier ++ [queue])
    else s.queues
  seen := seen

/-- The loop over the due entries: one entry. -/
def queueEntry (rt : Runtime) (candidates : String → List LeagueCandidate) (options : PlanOptions)
    (s : Queues) (entry : PrefixLeagueEntry) : Option Queues :=
  let tier := normalizedTier entry.tier
  let desired := samplesForTier tier
  match parsePrefix entry.prefixCIDR with
  | none => some s
  | some parsed => do
      let network := parsed.masked
      let (items, seen) :=
        takeAnchors network (anchorsForTier tier) (candidates entry.prefixCIDR) [] s.seen
      let (generated, seen) ← fromPrefix rt.sha256 network.string (desired - items.length)
        (options.seed ++ "|" ++ entry.agentID ++ "|" ++ network.string) seen
      let items :=
        match generated with
        | .ok generated => items ++ generated
        | .error _ => items
      some (s.push tier ⟨network.string, items⟩ seen)

def buildQueues (rt : Runtime) (candidates : String → List LeagueCandidate) (options : PlanOptions)
    (order : List PrefixLeagueEntry) : Option Queues :=
  order.foldlM (queueEntry rt candidates options) Queues.empty

/-! ## The plan -/

def groupLess (sha256 : String → BitVec 256) (seed : String) (a b : PrefixQueue) : Bool :=
  decide (stableScore sha256 [seed, a.cidr] < stableScore sha256 [seed, b.cidr])

def flatten (rt : Runtime) (options : PlanOptions) (groups : List PrefixQueue) (fuel : Nat) :
    Option (List ScanTarget) :=
  RoundRobin.serve
    ((rt.sortSlice.sort (groupLess rt.sha256 options.seed) groups).map PrefixQueue.items) fuel

/-- `flat`: the flattened queues of each tier. -/
def flatFor (rt : Runtime) (options : PlanOptions) (queues : Tier → List PrefixQueue) (fuel : Nat) :
    Option (Tier → List ScanTarget) := do
  let champion ← flatten rt options (queues .champion) fuel
  let challenger ← flatten rt options (queues .challenger) fuel
  let observation ← flatten rt options (queues .observation) fuel
  some fun
    | .champion => champion
    | .challenger => challenger
    | .observation => observation
    | .other _ => []

/-- `PlanAgent`, its two unbounded loops given `fuel` turns each. -/
def planAgent (rt : Runtime) (entries : List PrefixLeagueEntry)
    (candidates : String → List LeagueCandidate) (options : PlanOptions) (fuel : Nat) :
    Option (List ScanTarget) := do
  let options := options.effective rt.clock
  let built ← buildQueues rt candidates options (dueOrder rt entries options)
  let flat ← flatFor rt options built.queues fuel
  RoundRobin.weighted pattern flat options.budget.toNat fuel

end Cfscan.League
