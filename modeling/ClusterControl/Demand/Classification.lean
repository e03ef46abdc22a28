import ClusterControl.Demand.Estimator

/-!
# Host classification

A host is overloaded when one dimension is used beyond its upper bound, and underloaded when every
dimension is used less than its lower bound.
-/

namespace ClusterControl

variable {α : Type} [Quantity α]

/-- Measures utilization fractions against thresholds; being overloaded is looked at first. -/
def LoadState.classify (utilization : Resources α) (t : Thresholds α) : LoadState :=
  if Resource.all.any fun r => Quantity.lt (t.get r).max (utilization.get r) then .overloaded
  else if Resource.all.all fun r => Quantity.lt (utilization.get r) (t.get r).min then .underloaded
  else .stable

/-- The state of a host under its own thresholds. -/
def Estimator.classify (e : Estimator α) (h : Host α) : LoadState :=
  .classify (e.normalized h) h.thresholds

end ClusterControl
