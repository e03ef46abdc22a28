import ClusterControl.Inventory.VirtualMachine

/-!
# Observations

A host reports samples of its own usage and of its machines' usage.
-/

namespace ClusterControl

/-- One reported sample. -/
inductive Observation (α : Type)
  | host (id : HostId) (sample : Sample α)
  | vm (id : VmId) (sample : Sample α)
  deriving DecidableEq

end ClusterControl
