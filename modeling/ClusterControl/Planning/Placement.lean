import ClusterControl.Inventory.Host

/-!
# Placement of new machines

A placement offers each machine of a batch to the hosts in turn.  A host that takes one is updated
at once, so later machines see what is left.  A machine that fits nowhere stays unassigned.
-/

namespace ClusterControl

/-- A machine chosen for a host. -/
structure Assignment (α : Type) where
  vm : Vm α
  host : HostId
  deriving DecidableEq

/-- What became of a batch. -/
structure PlacementPlan (α : Type) where
  assignments : List (Assignment α)
  unassigned : List (Vm α)
  deriving DecidableEq

namespace PlacementPlan

variable {α : Type}

def empty : PlacementPlan α := ⟨[], []⟩

instance : Inhabited (PlacementPlan α) := ⟨empty⟩

/-- Adds an assignment; the machine carries its host. -/
def assign (p : PlacementPlan α) (vm : Vm α) (host : HostId) : PlacementPlan α :=
  { p with assignments := p.assignments ++ [⟨vm.on host, host⟩] }

def leave (p : PlacementPlan α) (vm : Vm α) : PlacementPlan α :=
  { p with unassigned := p.unassigned ++ [vm] }

/-- The assigned machines of each host, in batch order. -/
def byHost (p : PlacementPlan α) : SortedMap (List (Vm α)) :=
  p.assignments.foldl
    (fun m a => m.insert a.host ((m.get? a.host).getD [] ++ [a.vm])) .empty

/-- The host of the first assignment of a machine. -/
def hostOf (p : PlacementPlan α) (vm : VmId) : Option HostId :=
  (p.assignments.find? fun a => a.vm.id == vm).map Assignment.host

end PlacementPlan

/-- How the next host is looked for. -/
inductive PlacementPolicy
  /-- The first host, in host order, with room. -/
  | firstFit
  /-- The first host with room from the one after the last that took a machine. -/
  | roundRobin
  deriving DecidableEq, Repr

namespace PlacementPolicy

def name : PlacementPolicy → String
  | firstFit => "FirstFit"
  | roundRobin => "RoundRobin"

/-- The policy a setting names, in any letter case; an unknown name means first fit. -/
def ofName (name : String) : PlacementPolicy :=
  match String.ofList (name.toList.map Char.toLower) with
  | "roundrobin" | "round_robin" => roundRobin
  | _ => firstFit

end PlacementPolicy

namespace Placement

variable {α : Type} [Quantity α]

/-- What a placement has come to so far. -/
structure Progress (α : Type) where
  plan : PlacementPlan α
  hosts : List (Host α)
  /-- Where the cyclic search for the next machine starts. -/
  position : Nat

/-- The machine goes to the host at an index, or stays unassigned. -/
def settle (s : Progress α) (vm : Vm α) (choice : Option Nat) : Progress α :=
  match choice.bind fun i => (s.hosts[i]?).map (i, ·) with
  | some (i, h) => { s with plan := s.plan.assign vm h.id, hosts := s.hosts.set i (h.assign vm) }
  | none => { s with plan := s.plan.leave vm }

/-- Index of the first host with room for the machine. -/
def firstFitting (vm : Vm α) (hosts : List (Host α)) : Option Nat :=
  hosts.findIdx? fun h => h.canTake vm

/-- Every index, in cyclic order from a position. -/
def cycleFrom (position count : Nat) : List Nat :=
  (List.range count).map fun offset => (position + offset) % count

/-- Index of the first host with room in cyclic order from a position. -/
def nextFitting (vm : Vm α) (hosts : List (Host α)) (position : Nat) : Option Nat :=
  (cycleFrom position hosts.length).find? fun i =>
    match hosts[i]? with
    | some h => h.canTake vm
    | none => false

def firstFitStep (s : Progress α) (vm : Vm α) : Progress α :=
  settle s vm (firstFitting vm s.hosts)

/-- As `settle`, and the search for the next machine starts after the host that took this one. -/
def roundRobinStep (s : Progress α) (vm : Vm α) : Progress α :=
  match nextFitting vm s.hosts s.position with
  | some i => { settle s vm (some i) with position := (i + 1) % s.hosts.length }
  | none => settle s vm none

/-- Places a batch.  The cursor is the position that the last round-robin batch left; a batch
that is offered no hosts leaves it alone. -/
def place (p : PlacementPolicy) (cursor : Nat) (vms : List (Vm α)) (hosts : List (Host α)) :
    Progress α :=
  match p with
  | .firstFit => vms.foldl firstFitStep ⟨.empty, hosts, cursor⟩
  | .roundRobin =>
    if hosts.isEmpty then ⟨⟨[], vms⟩, hosts, cursor⟩
    else vms.foldl roundRobinStep ⟨.empty, hosts, cursor % hosts.length⟩

end Placement

end ClusterControl
