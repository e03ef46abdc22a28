import ClusterControl.Inventory.Host
import ClusterControl.Workflow.Outcome

/-!
# Status of a controller

What a controller says about itself when it is asked.
-/

namespace ClusterControl

/-- How many hosts are in each power state, and how many machines they carry. -/
structure HostCounts where
  active : Nat
  wokenUp : Nat
  passive : Nat
  vms : Nat
  deriving DecidableEq, Repr

def HostCounts.ofHosts {α : Type} (hosts : List (Host α)) : HostCounts :=
  { active := hosts.countP (·.status == .active)
    wokenUp := hosts.countP (·.status == .wokenUp)
    passive := hosts.countP (·.status == .passive)
    vms := hosts.foldl (fun n h => n + h.vms.size) 0 }

/-- What a controller says about itself. -/
structure ControllerStatus where
  busy : Bool
  activity : Activity
  phase : ResolutionPhase
  hosts : HostCounts
  deriving DecidableEq, Repr

end ClusterControl
