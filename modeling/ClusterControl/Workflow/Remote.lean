import ClusterControl.Planning.Migration
import ClusterControl.Workflow.Error

/-!
# Requests to hosts

What the controller asks of hosts.  A host may do it, refuse it or be out of reach; it may also
never answer.
-/

namespace ClusterControl

/-- A request of a workflow to a host. -/
inductive HostRequest (α : Type)
  | start (host : HostId) (vms : List (Vm α))
  | control (host : HostId) (vm : VmId) (action : VmAction)
  | powerDown (host : HostId) (action : PowerAction)
  | wakeUp (host : HostId)

/-- What a host says to a request that it does not fail. -/
@[reducible] def HostRequest.Answer {α : Type} : HostRequest α → Type
  | start .. => List VmId
  | control .. => Unit
  | powerDown .. => Unit
  | wakeUp .. => Unit

/-- How a host takes a migration on. -/
inductive MigrationStart
  /-- It is under way, and its end will be signalled. -/
  | started
  /-- It is over already. -/
  | completed
  deriving DecidableEq, Repr

/-- A request as it is seen from outside. -/
inductive HostCall
  | start (host : HostId) (vms : List VmId)
  | migrate (m : Migration)
  | suspend (host : HostId) (vm : VmId)
  | control (host : HostId) (vm : VmId) (action : VmAction)
  | powerDown (host : HostId) (action : PowerAction)
  | wakeUp (host : HostId)
  deriving DecidableEq

/-- A request in one line. -/
def HostCall.text : HostCall → String
  | start host vms => "start " ++ host ++ " " ++ Text.quotedList vms
  | migrate m => "migrate " ++ m.vm ++ " " ++ m.source.getD "-" ++ "->" ++ m.destination
  | suspend host vm => "suspend " ++ host ++ " " ++ vm
  | control host vm action => "control " ++ host ++ " " ++ vm ++ " " ++ action.label
  | powerDown host action => "power " ++ host ++ " " ++ action.key
  | wakeUp host => "wake " ++ host

def HostRequest.call {α : Type} : HostRequest α → HostCall
  | start host vms => .start host (vms.map Vm.id)
  | control host vm action => .control host vm action
  | powerDown host action => .powerDown host action
  | wakeUp host => .wakeUp host

end ClusterControl
