import ClusterControl.Workflow.Program

/-!
# Power of hosts

A passive host is woken by claiming it first and asking it then; when it fails, the claim is taken
back.  It counts as active once it reports samples.  Idle hosts are powered down the same way, all
but a reserve.
-/

namespace ClusterControl.Power

variable {α : Type}

/-! ## Waking -/

/-- Wakes one host, and says whether it is awake now. -/
def wakeOne (host : HostId) : Program α Bool := do
  match ← Program.store (.transition host .passive .wokenUp) with
  | .error _ => return false
  | .ok false => return true
  | .ok true =>
    match ← Program.host (.wakeUp host) with
    | .ok () =>
      Program.count .hostsWoken 1
      Program.event (.powerTransition host none true)
      return true
    | .error _ =>
      match ← Program.store (.transition host .wokenUp .passive) with
      | .error _ => return false
      | .ok _ =>
        Program.event (.powerTransition host none false)
        return false

/-- Wakes hosts one after the other, and gives those that could not be woken. -/
def wakeAll : List HostId → Program α (List HostId)
  | [] => return []
  | host :: rest => do
    let awake ← wakeOne host
    let failed ← wakeAll rest
    return if awake then failed else host :: failed

/-- Wakes hosts; the error lists those that could not be woken. -/
def wake (hosts : List HostId) : Program α (Except (List HostId) Unit) := do
  match ← wakeAll hosts with
  | [] => return .ok ()
  | failed => return .error failed

/-- A woken host that reports samples is active from then on. -/
def markActive (host : HostId) : Program α (Except StoreError Bool) :=
  Program.store (.transition host .wokenUp .active)

/-! ## Powering down -/

/-- Powers one idle host down, and says whether it did. -/
def powerDownOne (action : PowerAction) (host : HostId) :
    ExceptT WorkflowError (Program α) Bool := do
  if ← Program.storeOrFail (.transition host .active .passive) then
    match ← (Program.host (.powerDown host action) : Program α _) with
    | .ok () =>
      (Program.count .hostsPoweredDown 1 : Program α Unit)
      (Program.event (.powerTransition host (some action) true) : Program α Unit)
      return true
    | .error _ =>
      let _ ← Program.storeOrFail (.transition host .passive .active)
      (Program.event (.powerTransition host (some action) false) : Program α Unit)
      return false
  else return false

/-- Powers hosts down one after the other; an error of the store ends it. -/
def powerDownAll (action : PowerAction) :
    List HostId → ExceptT WorkflowError (Program α) (List HostId)
  | [] => return []
  | host :: rest => do
    let down ← powerDownOne action host
    let others ← powerDownAll action rest
    return if down then host :: others else others

/-- An active host without machines. -/
def isIdle (h : Host α) : Bool := h.status == .active && !h.hasVms

/-- Powers down every idle host but the first `reserved`. -/
def powerDownIdle (reserved : Nat) (action : PowerAction) :
    Program α (Except WorkflowError (List HostId)) :=
  Program.gated .powerManagement do
    let hosts ← Program.storeOrFail (.listHosts 0 true false)
    powerDownAll action (((hosts.filter isIdle).drop reserved).map Host.id)

/-! ## Saving energy -/

/-- One look for idle hosts; it is skipped while another workflow runs. -/
def saveEnergy (reserved : Nat) (action : PowerAction) : Program α (List HostId) := do
  if ← Program.ask .isBusy then
    Program.count (.skippedTriggers Health.energySaver) 1
    return []
  else
    match ← powerDownIdle reserved action with
    | .ok hosts =>
      Program.healthy Health.energySaver
      return hosts
    | .error .busy =>
      Program.count (.skippedTriggers Health.energySaver) 1
      return []
    | .error e =>
      Program.degraded Health.energySaver e.message
      return []

end ClusterControl.Power
