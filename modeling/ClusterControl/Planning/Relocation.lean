import ClusterControl.Demand.Ranking
import ClusterControl.Planning.Migration

/-!
# Relocation away from one host

Candidates are picked from the host that is too busy or too idle, and each goes to the first
destination with room.  A candidate that fits nowhere is left out of the plan.  An overloaded host
gives up its largest machines until it is back under its upper bounds, to the least loaded hosts,
passive ones included; an underloaded host gives up all of them, to the most loaded hosts that are
not passive.
-/

namespace ClusterControl

/-- How much an overloaded host gives up. -/
inductive OverloadPolicy
  /-- As many of the largest machines as it takes. -/
  | greedy
  /-- Exactly the largest machine. -/
  | single
  deriving DecidableEq, Repr

namespace OverloadPolicy

def name : OverloadPolicy → String
  | greedy => "GreedyOverload"
  | single => "DummyOverload"

/-- The policy a setting names, in any letter case; an unknown name means the greedy one. -/
def ofName (name : String) : OverloadPolicy :=
  match String.ofList (name.toList.map Char.toLower) with
  | "dummyoverload" | "dummy_overload" | "dummy" => single
  | _ => greedy

end OverloadPolicy

/-- How a host is relieved. -/
inductive RelocationPolicy
  | overload (p : OverloadPolicy)
  | underload
  deriving DecidableEq, Repr

namespace RelocationPolicy

def name : RelocationPolicy → String
  | overload p => p.name
  | underload => "GreedyUnderload"

/-- Passive hosts may be chosen as destinations. -/
def includesPassive : RelocationPolicy → Bool
  | overload _ => true
  | underload => false

/-- The policy for a state; a stable host needs none. -/
def forState (overloadPolicy : OverloadPolicy) : LoadState → Option RelocationPolicy
  | .overloaded => some (overload overloadPolicy)
  | .underloaded => some underload
  | .stable => none

end RelocationPolicy

namespace Relocation

variable {α : Type} [Quantity α]

/-- The largest machines, one after the other, until what remains of the utilization fits within
the upper bounds. -/
def takeUntilRelieved (e : Estimator α) (capacity upper : Resources α) :
    Resources α → List (Vm α) → List (Vm α)
  | _, [] => []
  | remaining, vm :: rest =>
    if (remaining.divide capacity).fitsWithin upper then []
    else vm :: takeUntilRelieved e capacity upper (remaining.monus (e.demand vm)) rest

/-- The machines an overloaded host gives up, largest first. -/
def overloadCandidates (k : Ranking α) (p : OverloadPolicy) (source : Host α) : List (Vm α) :=
  let vms := k.sortVms .decreasing source.vms.values
  match p with
  | .single => vms.take 1
  | .greedy =>
    takeUntilRelieved k.estimator source.capacity source.thresholds.upper
      (k.estimator.utilization source) vms

/-- The machines a host gives up under a policy, largest first. -/
def candidates (k : Ranking α) (p : RelocationPolicy) (source : Host α) : List (Vm α) :=
  match p with
  | .overload q => overloadCandidates k q source
  | .underload => k.sortVms .decreasing source.vms.values

/-- The host may receive a machine of the source under the policy. -/
def eligible (p : RelocationPolicy) (source : Host α) (h : Host α) : Bool :=
  h.id != source.id && (p.includesPassive || !h.isPassive)

/-- Which destinations are tried first. -/
def destinationOrder : RelocationPolicy → SortOrder
  | .overload _ => .increasing
  | .underload => .decreasing

/-- Sends one candidate to the first eligible destination with room, if there is one. -/
def assignStep (p : RelocationPolicy) (source : Host α)
    (s : MigrationPlan × List (Host α)) (vm : Vm α) : MigrationPlan × List (Host α) :=
  let target := s.2.findIdx? fun h => eligible p source h && h.canTake vm
  match target.bind fun i => (s.2[i]?).map (i, ·) with
  | some (i, h) => (s.1.add vm.id (some source.id) h.id, s.2.set i (h.assign vm))
  | none => s

/-- Sends every candidate to a destination; the destinations are sorted first unless there is
nothing to send or nowhere to send it. -/
def assignAll (k : Ranking α) (p : RelocationPolicy) (source : Host α) (vms : List (Vm α))
    (destinations : List (Host α)) : MigrationPlan × List (Host α) :=
  if vms.isEmpty || destinations.isEmpty then (.empty, destinations)
  else
    let (plan, hosts) :=
      vms.foldl (assignStep p source) (.empty, k.sortHosts (destinationOrder p) destinations)
    ({ plan with hostsUsed := plan.destinations.length }, hosts)

/-- The moves that relieve a host, and the destinations as they then are. -/
def relocate (k : Ranking α) (p : RelocationPolicy) (source : Host α)
    (destinations : List (Host α)) : MigrationPlan × List (Host α) :=
  let (plan, hosts) := assignAll k p source (candidates k p source) destinations
  match p with
  | .overload _ => (plan, hosts)
  | .underload =>
    if !plan.isEmpty && plan.size == source.vms.size then
      ({ plan with hostsReleased := 1 }, hosts)
    else (plan, hosts)

end Relocation

end ClusterControl
