import ClusterControl.Schedule.Cron
import ClusterControl.Workflow.Control
import ClusterControl.Workflow.Detection
import ClusterControl.Workflow.Monitoring
import ClusterControl.Workflow.Reconfiguration
import ClusterControl.Workflow.Status
import ClusterControl.Workflow.Submission

/-!
# Jobs

Everything the controller can be asked to do in the background, the type of what comes of it, and
the program that does it.
-/

namespace ClusterControl

inductive Job (α : Type)
  /-- The rest of a submission that was accepted. -/
  | submission (task : TaskId) (vms : List (Vm α))
  | control (vm : VmId) (action : VmAction)
  | resolve (host : HostId) (state : LoadState)
  | reconfigure
  | powerDown (reserved : Nat) (action : PowerAction)
  | wake (hosts : List HostId)
  | markActive (host : HostId)
  | observe (o : Observation α)
  | observeAll (l : List (Observation α))
  | detect
  | saveEnergy
  /-- Consolidates as if the schedule had just fired; the schedule has to be readable. -/
  | fire
  | countHosts
  /-- Carries a plan out beside the controller, and tells how many machines are still under way
  there; nothing is committed. -/
  | tryPlan (plan : MigrationPlan)
  /-- Resolves an anomaly beside the controller, and tells the phase it ends in; nothing is
  committed. -/
  | tryResolve (host : HostId) (state : LoadState)

namespace Job

variable {α : Type}

/-- What comes of a job. -/
@[reducible] def Result : Job α → Type
  | submission .. => Unit
  | control .. => Except WorkflowError Unit
  | resolve .. => Except WorkflowError ResolutionReport
  | reconfigure => Except WorkflowError ReconfigurationReport
  | powerDown .. => Except WorkflowError (List HostId)
  | wake .. => Except (List HostId) Unit
  | markActive .. => Except StoreError Bool
  | observe .. => Bool
  | observeAll .. => List Bool
  | detect => List (HostId × LoadState)
  | saveEnergy => List HostId
  | fire => Except UnreadableSchedule (Option ReconfigurationReport)
  | countHosts => Except StoreError HostCounts
  | tryPlan .. => EnforcementReport × Nat
  | tryResolve .. => Except ResolutionError ResolutionReport × ResolutionPhase

/-- Counts the hosts and their machines. -/
def hostCounts : Program α (Except StoreError HostCounts) := do
  match ← Program.store (.listHosts 0 false false) with
  | .ok hosts => return .ok (.ofHosts hosts)
  | .error e => return .error e

/-- Carries a plan out on trial. -/
def tryPlanning (plan : MigrationPlan) : Program α (EnforcementReport × Nat) := do
  let r ← Program.ask (.enforce .trial plan)
  return (r, ← Program.ask (.inFlight .trial))

variable [Quantity α]

/-- Consolidates on schedule. -/
def firing (c : Settings α) :
    Program α (Except UnreadableSchedule (Option ReconfigurationReport)) := do
  match Schedule.read c.consolidation.schedule with
  | .ok _ => return .ok (← Reconfiguration.fire c)
  | .error e => return .error e

/-- Resolves an anomaly on trial. -/
def tryResolving (c : Settings α) (host : HostId) (state : LoadState) :
    Program α (Except ResolutionError ResolutionReport × ResolutionPhase) := do
  let r ← Resolution.resolve c .trial host state
  return (r, ← Program.ask (.phase .trial))

/-- How a job is done under the given settings. -/
def program (c : Settings α) : (j : Job α) → Program α j.Result
  | submission task vms => Submission.finish c.estimator.window task vms
  | control vm action => Control.run vm action
  | resolve host state => Resolution.run c host state
  | reconfigure => Reconfiguration.run c
  | powerDown reserved action => Power.powerDownIdle reserved action
  | wake hosts => Power.wake hosts
  | markActive host => Power.markActive host
  | observe o => Monitoring.handle o
  | observeAll l => Monitoring.handleAll l
  | detect => Detection.cycle c
  | saveEnergy => Power.saveEnergy c.energy.reservedHosts c.energy.powerAction
  | fire => firing c
  | countHosts => hostCounts
  | tryPlan plan => tryPlanning plan
  | tryResolve host state => tryResolving c host state

end Job

end ClusterControl
