import ClusterControl.Demand.Estimator
import ClusterControl.Resource.Norm

/-!
# Ranking

Machines and hosts are ranked by the norm of their estimated demand.  The direction is chosen by
the caller; hosts of equal load stand in the order active, woken up, passive in both directions.
Sorting computes each load once and is stable.
-/

namespace ClusterControl

inductive SortOrder
  | increasing
  | decreasing
  deriving DecidableEq, Repr

/-- Turns a comparison into the given direction. -/
def SortOrder.direct (o : SortOrder) (c : Ordering) : Ordering :=
  match o with
  | increasing => c
  | decreasing => c.swap

/-- The place of a status among hosts of equal load. -/
def HostStatus.rank : HostStatus → Nat
  | active => 0
  | wokenUp => 1
  | passive => 2

/-- A norm over an estimator's demands. -/
structure Ranking (α : Type) where
  norm : Norm
  estimator : Estimator α

namespace Ranking

variable {α : Type} [Quantity α]

def vmLoad (k : Ranking α) (vm : Vm α) : α := k.norm.apply (k.estimator.demand vm)

def hostLoad (k : Ranking α) (h : Host α) : α := k.norm.apply (k.estimator.utilization h)

def compareVms (k : Ranking α) (o : SortOrder) (a b : Vm α) : Ordering :=
  o.direct (Quantity.compare (k.vmLoad a) (k.vmLoad b))

/-- Compares by load in the given direction, then by status rank in a fixed one. -/
def compareHosts (k : Ranking α) (o : SortOrder) (a b : Host α) : Ordering :=
  (o.direct (Quantity.compare (k.hostLoad a) (k.hostLoad b))).then
    (compare a.status.rank b.status.rank)

/-- Stable sort of machines by load. -/
def sortVms (k : Ranking α) (o : SortOrder) (vms : List (Vm α)) : List (Vm α) :=
  let keyed := vms.map fun vm => (k.vmLoad vm, vm)
  let sorted := keyed.mergeSort fun a b => (o.direct (Quantity.compare a.1 b.1)).isLE
  sorted.map (·.2)

/-- Stable sort of hosts by load, then by status. -/
def sortHosts (k : Ranking α) (o : SortOrder) (hosts : List (Host α)) : List (Host α) :=
  let keyed := hosts.map fun h => (k.hostLoad h, h)
  let sorted := keyed.mergeSort fun a b =>
    ((o.direct (Quantity.compare a.1 b.1)).then (compare a.2.status.rank b.2.status.rank)).isLE
  sorted.map (·.2)

end Ranking

end ClusterControl
