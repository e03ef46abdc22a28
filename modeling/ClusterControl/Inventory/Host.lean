import ClusterControl.Inventory.VirtualMachine
import ClusterControl.SortedMap

/-!
# Hosts

A host offers a total capacity and carries machines.  What its machines asked for is its requested
capacity; what is left over is free.  Thresholds say which part of the capacity may be in use
before the host counts as too busy or too idle.
-/

namespace ClusterControl

/-- Power state of a host. -/
inductive HostStatus
  | active
  | passive
  | wokenUp
  deriving DecidableEq, Repr

namespace HostStatus

def all : List HostStatus := [active, passive, wokenUp]

def key : HostStatus → String
  | active => "active"
  | passive => "passive"
  | wokenUp => "woken_up"

def label : HostStatus → String
  | active => "ACTIVE"
  | passive => "PASSIVE"
  | wokenUp => "WOKENUP"

end HostStatus

/-- How an idle host is powered down. -/
inductive PowerAction
  | shutdown
  | suspendToRam
  | suspendToDisk
  | suspendToBoth
  deriving DecidableEq, Repr

namespace PowerAction

def all : List PowerAction := [shutdown, suspendToRam, suspendToDisk, suspendToBoth]

def key : PowerAction → String
  | shutdown => "shutdown"
  | suspendToRam => "suspend_to_ram"
  | suspendToDisk => "suspend_to_disk"
  | suspendToBoth => "suspend_to_both"

end PowerAction

/-- Lower and upper bound of one dimension's utilization, as fractions of the capacity. -/
structure Band (α : Type) where
  min : α
  max : α
  deriving DecidableEq, Repr

/-- A band for each dimension. -/
abbrev Thresholds (α : Type) := Resources (Band α)

/-- The result of measuring a host against its thresholds. -/
inductive LoadState
  | stable
  | overloaded
  | underloaded
  deriving DecidableEq, Repr

namespace LoadState

def all : List LoadState := [stable, overloaded, underloaded]

def key : LoadState → String
  | stable => "stable"
  | overloaded => "overloaded"
  | underloaded => "underloaded"

def label : LoadState → String
  | stable => "STABLE"
  | overloaded => "OVERLOADED"
  | underloaded => "UNDERLOADED"

def isAnomaly : LoadState → Bool
  | stable => false
  | _ => true

end LoadState

namespace Thresholds

variable {α : Type}

/-- The same bounds in every dimension. -/
def uniform (min max : α) : Thresholds α := .ofFn fun _ => ⟨min, max⟩

variable [Quantity α]

/-- Twenty and ninety per cent in every dimension. -/
def standard : Thresholds α := uniform (Quantity.ofDecimal 2 1) (Quantity.ofDecimal 9 1)

/-- The upper bounds as a vector of amounts. -/
def upper (t : Thresholds α) : Resources α := (t.map Band.max).clamped

end Thresholds

/-- A host as the inventory records it. -/
structure Host (α : Type) where
  id : HostId
  address : String
  status : HostStatus
  capacity : Resources α
  /-- The machines on the host, filed under their ids. -/
  vms : SortedMap (Vm α)
  /-- What the host itself uses, apart from its machines. -/
  history : History (Sample α)
  thresholds : Thresholds α
  deriving DecidableEq

namespace Host

variable {α : Type}

/-- Records a machine on the host, under its id, in place of one with the same id. -/
def assign (h : Host α) (vm : Vm α) : Host α :=
  { h with vms := h.vms.insert vm.id (vm.on h.id) }

/-- Drops the machine filed under an id. -/
def unassign (h : Host α) (vm : VmId) : Host α := { h with vms := h.vms.erase vm }

def hasVms (h : Host α) : Bool := !h.vms.isEmpty

def isPassive (h : Host α) : Bool := h.status == .passive

def withStatus (h : Host α) (status : HostStatus) : Host α := { h with status }

/-- The host with one more sample of its own usage. -/
def observe (h : Host α) (s : Sample α) : Host α := { h with history := h.history.push s }

/-- The host with only the `n` most recent samples of itself and of each machine. -/
def trim (h : Host α) (n : Nat) : Host α :=
  { h with history := h.history.retainLatest n, vms := h.vms.mapValues fun _ vm => vm.trim n }

variable [Quantity α]

/-- An active host without machines, under the standard thresholds. -/
def new (id : HostId) (capacity : Resources α) (historyCapacity : Nat) : Host α :=
  { id, address := "", status := .active, capacity, vms := .empty,
    history := .empty historyCapacity, thresholds := .standard }

/-- What the machines on the host asked for, summed in key order. -/
def requested (h : Host α) : Resources α := .sum (h.vms.values.map Vm.requested)

def free (h : Host α) : Resources α := h.capacity.monus h.requested

/-- The host can take a machine without exceeding its capacity. -/
def canTake (h : Host α) (vm : Vm α) : Bool :=
  (h.requested.add vm.requested).fitsWithin h.capacity

end Host

end ClusterControl
