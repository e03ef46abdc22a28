import ClusterControl.Workflow.Commit

/-!
# Control of single machines

An operator's action is passed on to the host of the machine, and the store follows once the host
agreed.  A migration needs the cluster to itself: its destination is checked first, and it is then
carried out and committed like any plan.
-/

namespace ClusterControl.Control

variable {α : Type}

/-- The record of a machine and the host it is on. -/
def locate (vm : VmId) : ExceptT WorkflowError (Program α) (Vm α × HostId) := do
  match ← Program.storeOrFail (.findVm vm) with
  | none => throw (.unknownVm vm)
  | some found =>
    match found.hostId with
    | none => throw (.unassignedVm vm)
    | some host => return (found, host)

/-- What an action other than a migration does to the store. -/
def follow (vm : VmId) : VmAction → ExceptT WorkflowError (Program α) Unit
  | .suspend => Program.storeOrFail (.setVmStatus vm .paused none)
  | .resume | .reboot => Program.storeOrFail (.setVmStatus vm .running none)
  | .shutdown | .destroy => do
    let _ ← Program.storeOrFail (.removeVm vm)
  | .migrate _ => return ()

/-- Passes an action on to the host of a machine. -/
def forward (vm : VmId) (action : VmAction) : ExceptT WorkflowError (Program α) Unit := do
  let (_, host) ← locate vm
  Program.hostOrFail (.control host vm action)
  follow vm action

variable [Quantity α]

/-- The host can take a machine from another host. -/
def accepts (target : Host α) (source : HostId) (vm : Vm α) : Bool :=
  target.status != .passive && target.id != source && target.canTake vm

/-- Moves one machine to a destination. -/
def migrate (vm : VmId) (destination : HostId) : ExceptT WorkflowError (Program α) Unit := do
  let (found, source) ← locate vm
  match ← Program.storeOrFail (.findHost destination 0) with
  | none => throw (.invalidDestination destination)
  | some target =>
    if !accepts target source found then throw (.invalidDestination destination)
    let plan := MigrationPlan.empty.add vm (some source) destination
    let report ← (Program.ask (.enforce .own plan) : Program α _)
    (Commit.report report : Program α Unit)
    match report.outcomeOf vm with
    | some (.failed reason) => throw (.control (.rejected destination reason))
    | _ => return ()

/-- Applies an operator's action to a machine. -/
def run (vm : VmId) (action : VmAction) : Program α (Except WorkflowError Unit) :=
  match action with
  | .migrate destination => Program.gated .migrating (migrate vm destination)
  | action => (forward vm action).run

end ClusterControl.Control
