import ClusterControl.Inventory.Host

/-!
# Migration plans

A plan says for each machine it moves where the machine is and where it goes.  Recording a further
move of a machine keeps the place it started from, and a machine that comes back to that place
leaves the plan: a plan is the net effect of the moves recorded in it.
-/

namespace ClusterControl

/-- One machine's move. -/
structure Migration where
  vm : VmId
  source : Option HostId
  destination : HostId
  deriving DecidableEq, Repr

/-- The moves to carry out, filed by machine, and how many hosts the result uses and frees. -/
structure MigrationPlan where
  migrations : SortedMap Migration
  hostsUsed : Nat
  hostsReleased : Nat
  deriving DecidableEq

namespace MigrationPlan

def empty : MigrationPlan := ⟨.empty, 0, 0⟩

instance : Inhabited MigrationPlan := ⟨empty⟩

/-- Records a move; the source of a machine that is in the plan already is kept. -/
def add (p : MigrationPlan) (vm : VmId) (source : Option HostId) (destination : HostId) :
    MigrationPlan :=
  let start := match p.migrations.get? vm with
    | some m => m.source
    | none => source
  if start = some destination then { p with migrations := p.migrations.erase vm }
  else { p with migrations := p.migrations.insert vm ⟨vm, start, destination⟩ }

def isEmpty (p : MigrationPlan) : Bool := p.migrations.isEmpty

def size (p : MigrationPlan) : Nat := p.migrations.size

/-- The moves in the order of the machines' ids. -/
def moves (p : MigrationPlan) : List Migration := p.migrations.values

def destinationOf (p : MigrationPlan) (vm : VmId) : Option HostId :=
  (p.migrations.get? vm).map Migration.destination

/-- The hosts that receive a machine, each once, in order. -/
def destinations (p : MigrationPlan) : List HostId :=
  (SortedMap.ofList (p.moves.map fun m => (m.destination, ()))).keys

end MigrationPlan

end ClusterControl
