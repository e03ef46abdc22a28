import ClusterControl.Inventory.History

/-!
# Virtual machines

A machine has an identity, a lifecycle status, the capacity it asked for and the samples observed
of it.  It knows the host it runs on; a machine without a host is unassigned.
-/

namespace ClusterControl

/-- Names a virtual machine. -/
abbrev VmId := String

/-- Names a host. -/
abbrev HostId := String

/-- Lifecycle of a machine. -/
inductive VmStatus
  | pending
  | running
  | paused
  | shutOff
  | migrating
  | error
  | unknown
  deriving DecidableEq, Repr

namespace VmStatus

def all : List VmStatus := [pending, running, paused, shutOff, migrating, error, unknown]

/-- The name in stored records. -/
def key : VmStatus → String
  | pending => "pending"
  | running => "running"
  | paused => "paused"
  | shutOff => "shut_off"
  | migrating => "migrating"
  | error => "error"
  | unknown => "unknown"

/-- The name shown to operators. -/
def label : VmStatus → String
  | pending => "PENDING"
  | running => "RUNNING"
  | paused => "PAUSED"
  | shutOff => "SHUTOFF"
  | migrating => "MIGRATING"
  | error => "ERROR"
  | unknown => "UNKNOWN"

end VmStatus

/-- Why a machine ended up in the error status. -/
inductive VmErrorCode
  | notEnoughResources
  | startFailed
  | migrationFailed
  /-- The submitted id is placed already or repeated in its batch. -/
  | duplicateId
  deriving DecidableEq, Repr

namespace VmErrorCode

def all : List VmErrorCode := [notEnoughResources, startFailed, migrationFailed, duplicateId]

def key : VmErrorCode → String
  | notEnoughResources => "not_enough_resources"
  | startFailed => "start_failed"
  | migrationFailed => "migration_failed"
  | duplicateId => "duplicate_id"

end VmErrorCode

/-- A virtual machine as the inventory records it. -/
structure Vm (α : Type) where
  id : VmId
  status : VmStatus
  errorCode : Option VmErrorCode
  /-- The host it runs on; `none` while unassigned. -/
  hostId : Option HostId
  requested : Resources α
  history : History (Sample α)
  deriving DecidableEq

namespace Vm

variable {α : Type}

/-- A pending machine without a host or samples. -/
def new (id : VmId) (requested : Resources α) (historyCapacity : Nat) : Vm α :=
  { id, status := .pending, errorCode := none, hostId := none, requested,
    history := .empty historyCapacity }

def isAssigned (vm : Vm α) : Bool := vm.hostId.isSome

def withStatus (vm : Vm α) (status : VmStatus) (code : Option VmErrorCode) : Vm α :=
  { vm with status, errorCode := code }

/-- The machine marked as failed for a reason. -/
def failed (vm : Vm α) (code : VmErrorCode) : Vm α := vm.withStatus .error (some code)

/-- The machine as it is recorded on a host. -/
def on (vm : Vm α) (host : HostId) : Vm α := { vm with hostId := some host }

/-- The machine with one more sample. -/
def observe (vm : Vm α) (s : Sample α) : Vm α := { vm with history := vm.history.push s }

/-- The machine with only its `n` most recent samples. -/
def trim (vm : Vm α) (n : Nat) : Vm α := { vm with history := vm.history.retainLatest n }

end Vm

/-- What an operator may ask of one machine. -/
inductive VmAction
  | suspend
  | resume
  | shutdown
  | reboot
  | destroy
  | migrate (destination : HostId)
  deriving DecidableEq, Repr

/-- The wording of an action. -/
def VmAction.label : VmAction → String
  | suspend => "suspend"
  | resume => "resume"
  | shutdown => "shutdown"
  | reboot => "reboot"
  | destroy => "destroy"
  | migrate destination => "migrate to " ++ destination

end ClusterControl
