import ClusterControl.Resource.Vector

/-!
# Bounded histories

A history keeps the most recent entries up to a capacity chosen when it is made, oldest first.
The bound is part of the type, so no operation can leave a history overfull.
-/

namespace ClusterControl

/-- The last `n` entries of a list, in order. -/
def lastEntries {β : Type} (n : Nat) (l : List β) : List β := l.drop (l.length - n)

theorem length_lastEntries {β : Type} (n : Nat) (l : List β) :
    (lastEntries n l).length = min n l.length := by
  simp only [lastEntries, List.length_drop]
  omega

/-- Entries in arrival order, at most `capacity` of them. -/
structure History (β : Type) where
  capacity : Nat
  entries : List β
  length_le : entries.length ≤ capacity

namespace History

variable {β : Type}

@[ext]
theorem ext {h k : History β} (hc : h.capacity = k.capacity) (he : h.entries = k.entries) :
    h = k := by
  cases h; cases k; cases hc; cases he; rfl

instance [DecidableEq β] : DecidableEq (History β) := fun h k =>
  if e : h.capacity = k.capacity ∧ h.entries = k.entries then .isTrue (ext e.1 e.2)
  else .isFalse fun hk => e (hk ▸ ⟨rfl, rfl⟩)

/-- A history that has seen nothing. -/
def empty (capacity : Nat) : History β := ⟨capacity, [], Nat.zero_le _⟩

/-- How many samples a machine or host keeps when nothing else is asked for. -/
def defaultCapacity : Nat := 60

instance : Inhabited (History β) := ⟨empty defaultCapacity⟩

def size (h : History β) : Nat := h.entries.length

def isEmpty (h : History β) : Bool := h.entries.isEmpty

/-- Appends an entry after dropping as many of the oldest as make room for it; a history of
capacity zero stays empty. -/
def push (h : History β) (e : β) : History β :=
  if hc : h.capacity = 0 then h
  else
    ⟨h.capacity, h.entries.drop (h.entries.length + 1 - h.capacity) ++ [e], by
      have := h.length_le
      simp only [List.length_append, List.length_drop, List.length_singleton]
      omega⟩

/-- The `n` most recent entries, oldest first. -/
def latest (h : History β) (n : Nat) : List β := lastEntries n h.entries

def last? (h : History β) : Option β := h.entries.getLast?

def clear (h : History β) : History β := ⟨h.capacity, [], Nat.zero_le _⟩

/-- Forgets all but the `n` most recent entries; the capacity stays. -/
def retainLatest (h : History β) (n : Nat) : History β :=
  ⟨h.capacity, lastEntries n h.entries, by
    rw [length_lastEntries]
    have := h.length_le
    omega⟩

/-- Fills a new history with a list of entries, one push after the other. -/
def ofList (capacity : Nat) (l : List β) : History β := l.foldl push (empty capacity)

end History

/-- What was observed at one time. -/
structure Sample (α : Type) where
  timestamp : Int
  usage : Resources α
  deriving DecidableEq, Repr

end ClusterControl
