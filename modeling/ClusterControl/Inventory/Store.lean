import ClusterControl.Inventory.Host

/-!
# The cluster's inventory

The store owns the descriptions of hosts and machines.  A machine is recorded on one host, which
the index names, or among the unassigned machines.  Readers get copies with trimmed histories;
status changes of hosts go through compare-and-set, so that racing workflows cannot overwrite each
other.
-/

namespace ClusterControl

/-- Why the store refuses an operation. -/
inductive StoreError
  | hostNotFound (host : HostId)
  | vmNotFound (vm : VmId)
  | backend (reason : String)
  deriving DecidableEq, Repr

/-- The area of an error and what went wrong there. -/
def StoreError.kind : StoreError → String
  | hostNotFound _ => "Repository/HostNotFound"
  | vmNotFound _ => "Repository/VmNotFound"
  | backend _ => "Repository/Backend"

def StoreError.message : StoreError → String
  | hostNotFound host => "host " ++ host ++ " is not known to the repository"
  | vmNotFound vm => "virtual machine " ++ vm ++ " is not known to the repository"
  | backend reason => "repository backend error: " ++ reason

/-- Hosts, the place of every assigned machine, and the machines without a host. -/
structure Store (α : Type) where
  hosts : SortedMap (Host α)
  index : SortedMap HostId
  unassigned : SortedMap (Vm α)

namespace Store

variable {α : Type}

def empty : Store α := ⟨.empty, .empty, .empty⟩

instance : Inhabited (Store α) := ⟨empty⟩

/-! ## Hosts -/

/-- Files a host, and every machine listed under it in the index. -/
def insertHost (s : Store α) (h : Host α) : Store α :=
  { s with index := h.vms.keys.foldl (fun ix vm => ix.insert vm h.id) s.index
           hosts := s.hosts.insert h.id h }

/-- The store with the given hosts, registered one after the other. -/
def ofHosts (hosts : List (Host α)) : Store α := hosts.foldl insertHost empty

/-- Registers a host in place of one with the same id, whose machines leave the index. -/
def addHost (s : Store α) (h : Host α) : Store α :=
  match s.hosts.get? h.id with
  | some previous =>
    { s with hosts := s.hosts.erase h.id
             index := previous.vms.keys.foldl (fun ix vm => ix.erase vm) s.index }.insertHost h
  | none => s.insertHost h

/-- The hosts in id order, passive ones optionally left out; histories are cut to the latest
entries, or emptied when monitoring data is not wanted. -/
def hostList (s : Store α) (entries : Nat) (excludePassive monitoring : Bool) : List (Host α) :=
  (s.hosts.values.filter fun h => !(excludePassive && h.isPassive)).map fun h =>
    h.trim (if monitoring then entries else 0)

/-- One host, with histories cut to the latest entries. -/
def host? (s : Store α) (id : HostId) (entries : Nat) : Option (Host α) :=
  (s.hosts.get? id).map fun h => h.trim entries

def hostStatus (s : Store α) (id : HostId) : Except StoreError HostStatus :=
  match s.hosts.get? id with
  | some h => .ok h.status
  | none => .error (.hostNotFound id)

/-- Changes a host's status; says whether the host is known. -/
def setHostStatus (s : Store α) (id : HostId) (status : HostStatus) : Bool × Store α :=
  match s.hosts.get? id with
  | some h => (true, { s with hosts := s.hosts.insert id (h.withStatus status) })
  | none => (false, s)

/-- Changes a host's status if it is the expected one; says whether it was. -/
def transition (s : Store α) (id : HostId) (expected next : HostStatus) :
    Except StoreError Bool × Store α :=
  match s.hosts.get? id with
  | none => (.error (.hostNotFound id), s)
  | some h =>
    if h.status = expected then (.ok true, { s with hosts := s.hosts.insert id (h.withStatus next) })
    else (.ok false, s)

/-! ## Machines -/

/-- The host that the index names for a machine. -/
def hostOf (s : Store α) (vm : VmId) : Option HostId := s.index.get? vm

/-- Changes the description of one host, if it is known. -/
def modifyHost (s : Store α) (id : HostId) (f : Host α → Host α) : Store α :=
  { s with hosts := s.hosts.modify id f }

/-- Takes a machine off the host it was on, unless that is where it is now. -/
def dropPrevious (s : Store α) (vm : VmId) (previous target : Option HostId) : Store α :=
  match previous with
  | some p => if target = some p then s else s.modifyHost p fun h => h.unassign vm
  | none => s

/-- Records a machine on its host, or as unassigned when it names none, and drops the record it
had before.  A machine that names an unknown host is refused. -/
def addVm (s : Store α) (vm : Vm α) : Bool × Store α :=
  let previous := s.hostOf vm.id
  match vm.hostId with
  | none =>
    let filed : Store α :=
      { s with unassigned := s.unassigned.insert vm.id vm, index := s.index.erase vm.id }
    (true, filed.dropPrevious vm.id previous none)
  | some target =>
    match s.hosts.get? target with
    | none => (false, s)
    | some h =>
      let filed : Store α :=
        { hosts := s.hosts.insert target (h.assign vm), unassigned := s.unassigned.erase vm.id
          index := s.index.insert vm.id target }
      (true, filed.dropPrevious vm.id previous (some target))

/-- The record of a machine: on the host that the index names, else among the unassigned. -/
def vm? (s : Store α) (vm : VmId) : Option (Vm α) :=
  match s.hostOf vm with
  | some host => (s.hosts.get? host).bind fun h => h.vms.get? vm
  | none => s.unassigned.get? vm

/-- Changes the record of a machine on a host. -/
def modifyVmOn (s : Store α) (host : HostId) (vm : VmId) (f : Vm α → Vm α) :
    Except StoreError Unit × Store α :=
  match s.hosts.get? host with
  | none => (.error (.hostNotFound host), s)
  | some h =>
    match h.vms.get? vm with
    | none => (.error (.vmNotFound vm), s)
    | some v =>
      (.ok (), { s with hosts := s.hosts.insert host { h with vms := h.vms.insert vm (f v) } })

/-- Changes a machine's status and error code. -/
def setVmStatus (s : Store α) (vm : VmId) (status : VmStatus) (code : Option VmErrorCode) :
    Except StoreError Unit × Store α :=
  match s.hostOf vm with
  | some host => s.modifyVmOn host vm fun v => v.withStatus status code
  | none =>
    match s.unassigned.get? vm with
    | some v => (.ok (), { s with unassigned := s.unassigned.insert vm (v.withStatus status code) })
    | none => (.error (.vmNotFound vm), s)

/-- Moves a machine from the host that the index names to another one, samples and all. -/
def moveVm (s : Store α) (vm : VmId) (destination : HostId) : Except StoreError Unit × Store α :=
  if !s.hosts.contains destination then (.error (.hostNotFound destination), s)
  else
    match s.hostOf vm with
    | none => (.error (.vmNotFound vm), s)
    | some source =>
      if source = destination then (.ok (), s)
      else
        match (s.hosts.get? source).bind fun h => h.vms.get? vm with
        | none => (.error (.vmNotFound vm), s)
        | some v =>
          let emptied := s.modifyHost source fun h => h.unassign vm
          let filled := emptied.modifyHost destination fun h => h.assign v
          (.ok (), { filled with index := filled.index.insert vm destination })

/-- Forgets a machine, and gives the record it had. -/
def removeVm (s : Store α) (vm : VmId) : Option (Vm α) × Store α :=
  match s.hostOf vm with
  | some host =>
    let record := (s.hosts.get? host).bind fun h => h.vms.get? vm
    (record, { s with index := s.index.erase vm }.modifyHost host fun h => h.unassign vm)
  | none => (s.unassigned.get? vm, { s with unassigned := s.unassigned.erase vm })

/-! ## Samples -/

/-- Appends a sample to a host's history. -/
def addHostSample (s : Store α) (id : HostId) (sample : Sample α) :
    Except StoreError Unit × Store α :=
  match s.hosts.get? id with
  | some h => (.ok (), { s with hosts := s.hosts.insert id (h.observe sample) })
  | none => (.error (.hostNotFound id), s)

/-- Appends a sample to the history of a machine on a host. -/
def addVmSample (s : Store α) (vm : VmId) (sample : Sample α) : Except StoreError Unit × Store α :=
  match s.hostOf vm with
  | some host => s.modifyVmOn host vm fun v => v.observe sample
  | none => (.error (.vmNotFound vm), s)

end Store

end ClusterControl
