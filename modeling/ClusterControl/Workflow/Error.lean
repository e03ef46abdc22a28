import ClusterControl.Workflow.Outcome
import ClusterControl.Text.Quoted

/-!
# Why workflows stop

Each refusal is a value; its wording is one function.
-/

namespace ClusterControl

/-- Why a request to a host fails. -/
inductive ControlError
  | unreachable (host : HostId) (reason : String)
  | rejected (host : HostId) (reason : String)
  deriving DecidableEq, Repr

/-- The area of an error and what went wrong there. -/
def ControlError.kind : ControlError → String
  | unreachable .. => "Control/Unreachable"
  | rejected .. => "Control/Rejected"

def ControlError.message : ControlError → String
  | unreachable host reason => "local controller " ++ host ++ " is unreachable: " ++ reason
  | rejected host reason => "local controller " ++ host ++ " rejected the request: " ++ reason

/-- Why the resolution of an anomaly is abandoned. -/
inductive ResolutionError
  | hostUnknown (host : HostId)
  | hostStable (host : HostId) (state : LoadState)
  | noDestinationCandidates (host : HostId)
  | emptyPlan (host : HostId)
  | wakeupFailed (hosts : List HostId)
  | store (e : StoreError)
  deriving DecidableEq, Repr

/-- The area of an error and what went wrong there. -/
def ResolutionError.kind : ResolutionError → String
  | hostUnknown _ => "Resolution/HostUnknown"
  | hostStable .. => "Resolution/HostStable"
  | noDestinationCandidates _ => "Resolution/NoDestinationCandidates"
  | emptyPlan _ => "Resolution/EmptyPlan"
  | wakeupFailed _ => "Resolution/WakeupFailed"
  | store e => e.kind

def ResolutionError.message : ResolutionError → String
  | hostUnknown host => "no description available for host " ++ host
  | hostStable host state => "host " ++ host ++ " reported " ++ state.label ++ ", nothing to resolve"
  | noDestinationCandidates host => "no destination candidates for host " ++ host
  | emptyPlan host => "relocation plan for host " ++ host ++ " is empty"
  | wakeupFailed hosts => "failed to wake up hosts " ++ Text.quotedList hosts
  | store e => e.message

/-- Why a workflow is refused or fails. -/
inductive WorkflowError
  | busy
  | unknownVm (vm : VmId)
  | unassignedVm (vm : VmId)
  | invalidDestination (host : HostId)
  | resolution (e : ResolutionError)
  | store (e : StoreError)
  | control (e : ControlError)
  deriving DecidableEq, Repr

namespace WorkflowError

/-- What went wrong, with its area if it is not the workflow itself. -/
def kind : WorkflowError → String
  | busy => "Busy"
  | unknownVm _ => "UnknownVirtualMachine"
  | unassignedVm _ => "UnassignedVirtualMachine"
  | invalidDestination _ => "InvalidDestination"
  | resolution e => e.kind
  | store e => e.kind
  | control e => e.kind

def message : WorkflowError → String
  | busy => "state machine is busy with another workflow"
  | unknownVm vm => "virtual machine " ++ vm ++ " is not known"
  | unassignedVm vm => "virtual machine " ++ vm ++ " is not assigned to a host"
  | invalidDestination host => "host " ++ host ++ " cannot receive virtual machines"
  | resolution e => e.message
  | store e => e.message
  | control e => e.message

def isBusy : WorkflowError → Bool
  | busy => true
  | _ => false

end WorkflowError

end ClusterControl
