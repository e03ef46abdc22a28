import ClusterControl.Inventory.Observation

/-!
# Intake of observations

Observations wait in a bounded queue until they are stored.  What comes while the queue is full or
closed is turned away.
-/

namespace ClusterControl

structure Intake (α : Type) where
  capacity : Nat
  /-- What waits, first come first. -/
  items : List (Observation α)
  isOpen : Bool

namespace Intake

variable {α : Type}

/-- An open queue for at least one observation. -/
def empty (capacity : Nat) : Intake α := ⟨max 1 capacity, [], true⟩

/-- Queues an observation; says whether there was room. -/
def offer (q : Intake α) (o : Observation α) : Bool × Intake α :=
  if q.isOpen && q.items.length < q.capacity then (true, { q with items := q.items ++ [o] })
  else (false, q)

/-- Offers observations in order, and says of each whether there was room. -/
def offerAll (q : Intake α) : List (Observation α) → List Bool × Intake α
  | [] => ([], q)
  | o :: rest =>
    let (taken, q) := q.offer o
    let (others, q) := offerAll q rest
    (taken :: others, q)

/-- The first that waits, and the queue without it. -/
def take? (q : Intake α) : Option (Observation α × Intake α) :=
  match q.items with
  | [] => none
  | o :: rest => some (o, { q with items := rest })

/-- Drops what waits and turns everything away from then on. -/
def close (q : Intake α) : Intake α := { q with items := [], isOpen := false }

end Intake

end ClusterControl
