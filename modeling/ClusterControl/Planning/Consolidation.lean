import ClusterControl.Demand.Ranking
import ClusterControl.Planning.Migration
import ClusterControl.Planning.Placement

/-!
# Consolidation of the cluster

Serial consolidation repeatedly takes the least loaded host that has not been tried, and moves all
its machines onto the others, most loaded first.  A host that can be emptied is released and takes
no further part; one that cannot keeps its machines and stays available as a destination.  Passive
hosts take no part at all.
-/

namespace ClusterControl

/-- The name of the only consolidation policy. -/
def Consolidation.policyName : String := "Sercon"

namespace Consolidation

variable {α : Type} [Quantity α]

/-- Where a run stands: the hosts that still take part, the hosts tried as a source, the plan. -/
structure Round (α : Type) where
  hosts : List (Host α)
  tried : List HostId
  plan : MigrationPlan

/-- Index of the last host that passes a test. -/
def lastIdx? (p : Host α → Bool) (hosts : List (Host α)) : Option Nat :=
  (hosts.reverse.findIdx? p).map fun i => hosts.length - 1 - i

/-- Moves machines, one after the other, to the first other host with room, and says which went
where; stops at the first that fits nowhere. -/
def rehome (source : HostId) : List (Host α) → List (Vm α) → List (Host α) × List (VmId × Nat)
  | hosts, [] => (hosts, [])
  | hosts, vm :: rest =>
    let target := hosts.findIdx? fun h => h.id != source && h.canTake vm
    match target.bind fun i => (hosts[i]?).map (i, ·) with
    | some (i, h) =>
      let (hosts', moved) := rehome source (hosts.set i (h.assign vm)) rest
      (hosts', (vm.id, i) :: moved)
    | none => (hosts, [])

/-- Takes moved machines off the hosts they were moved to. -/
def undo (hosts : List (Host α)) (moved : List (VmId × Nat)) : List (Host α) :=
  moved.foldl (fun hs m => hs.modify m.2 fun h => h.unassign m.1) hosts

/-- Records moves off a source in a plan. -/
def record (source : HostId) (hosts : List (Host α)) (plan : MigrationPlan)
    (moved : List (VmId × Nat)) : MigrationPlan :=
  moved.foldl
    (fun p m =>
      match hosts[m.2]? with
      | some h => p.add m.1 (some source) h.id
      | none => p)
    plan

/-- Tries to empty one host; `none` when there is no further host to try. -/
def round (k : Ranking α) (s : Round α) : Option (Round α) :=
  let hosts := k.sortHosts .decreasing s.hosts
  let candidate := lastIdx? (fun h => !s.tried.contains h.id && h.hasVms) hosts
  match candidate.bind fun i => (hosts[i]?).map (i, ·) with
  | none => none
  | some (i, source) =>
    let tried := source.id :: s.tried
    let vms := k.sortVms .decreasing source.vms.values
    let (after, moved) := rehome source.id hosts vms
    if moved.length = vms.length then
      let plan := record source.id after s.plan moved
      some { hosts := after.eraseIdx i, tried
             plan := { plan with hostsReleased := plan.hostsReleased + 1 } }
    else some { hosts := undo after moved, tried, plan := s.plan }

/-- At most the given number of rounds. -/
def rounds (k : Ranking α) : Nat → Round α → Round α
  | 0, s => s
  | n + 1, s =>
    match round k s with
    | some s' => rounds k n s'
    | none => { s with hosts := k.sortHosts .decreasing s.hosts }

/-- The plan that consolidates a cluster; it may be empty. -/
def consolidate (k : Ranking α) (hosts : List (Host α)) : MigrationPlan :=
  let awake := hosts.filter fun h => !h.isPassive
  let final := rounds k awake.length ⟨awake, [], .empty⟩
  { final.plan with hostsUsed := (final.hosts.filter Host.hasVms).length }

end Consolidation

end ClusterControl
