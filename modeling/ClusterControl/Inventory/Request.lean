import ClusterControl.Inventory.Store

/-!
# Requests to the store

Every operation on the store as a value.  A request is carried out in one step, and its answer may
always be an error: a store may lose its backend.
-/

namespace ClusterControl

/-- An operation on the store. -/
inductive StoreRequest (α : Type)
  | addHost (host : Host α)
  | listHosts (entries : Nat) (excludePassive monitoring : Bool)
  | findHost (host : HostId) (entries : Nat)
  | hostStatus (host : HostId)
  | setHostStatus (host : HostId) (status : HostStatus)
  | transition (host : HostId) (expected next : HostStatus)
  | addVm (vm : Vm α)
  | findVm (vm : VmId)
  | setVmStatus (vm : VmId) (status : VmStatus) (code : Option VmErrorCode)
  | moveVm (vm : VmId) (destination : HostId)
  | removeVm (vm : VmId)
  | addHostSample (host : HostId) (sample : Sample α)
  | addVmSample (vm : VmId) (sample : Sample α)

/-- The kinds of operations. -/
inductive StoreOperation
  | addHost
  | listHosts
  | findHost
  | hostStatus
  | setHostStatus
  | transition
  | addVm
  | findVm
  | setVmStatus
  | moveVm
  | removeVm
  | addHostSample
  | addVmSample
  deriving DecidableEq, Repr

namespace StoreRequest

variable {α : Type}

def operation : StoreRequest α → StoreOperation
  | addHost .. => .addHost
  | listHosts .. => .listHosts
  | findHost .. => .findHost
  | hostStatus .. => .hostStatus
  | setHostStatus .. => .setHostStatus
  | transition .. => .transition
  | addVm .. => .addVm
  | findVm .. => .findVm
  | setVmStatus .. => .setVmStatus
  | moveVm .. => .moveVm
  | removeVm .. => .removeVm
  | addHostSample .. => .addHostSample
  | addVmSample .. => .addVmSample

/-- What a request is answered with when it does not fail. -/
@[reducible] def Answer : StoreRequest α → Type
  | addHost .. => Unit
  | listHosts .. => List (Host α)
  | findHost .. => Option (Host α)
  | hostStatus .. => HostStatus
  | setHostStatus .. => Bool
  | transition .. => Bool
  | addVm .. => Bool
  | findVm .. => Option (Vm α)
  | setVmStatus .. => Unit
  | moveVm .. => Unit
  | removeVm .. => Option (Vm α)
  | addHostSample .. => Unit
  | addVmSample .. => Unit

/-- The answer to a request, and the store after it. -/
def apply : (q : StoreRequest α) → Store α → Except StoreError q.Answer × Store α
  | addHost host, s => (.ok (), s.addHost host)
  | listHosts entries excludePassive monitoring, s =>
    (.ok (s.hostList entries excludePassive monitoring), s)
  | findHost host entries, s => (.ok (s.host? host entries), s)
  | hostStatus host, s => (s.hostStatus host, s)
  | setHostStatus host status, s => ((.ok (s.setHostStatus host status).1), (s.setHostStatus host status).2)
  | transition host expected next, s => s.transition host expected next
  | addVm vm, s => (.ok (s.addVm vm).1, (s.addVm vm).2)
  | findVm vm, s => (.ok (s.vm? vm), s)
  | setVmStatus vm status code, s => s.setVmStatus vm status code
  | moveVm vm destination, s => s.moveVm vm destination
  | removeVm vm, s => (.ok (s.removeVm vm).1, (s.removeVm vm).2)
  | addHostSample host sample, s => s.addHostSample host sample
  | addVmSample vm sample, s => s.addVmSample vm sample

end StoreRequest

end ClusterControl
