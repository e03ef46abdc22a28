import ClusterControl.Controller.State

/-!
# Building a controller

A controller is put together from parts.  It cannot do without a store and a way to reach the hosts;
what is missing is named, the store first.
-/

namespace ClusterControl

/-- A part that every controller needs. -/
inductive Builder.Part
  | store
  | control
  deriving DecidableEq, Repr

/-- What is said when the part is missing. -/
def Builder.Part.message : Part → String
  | store => "Repository is required"
  | control => "Node control is required"

/-- The parts that have been given so far. -/
structure Builder (α : Type) where
  store : Option (Store α)
  /-- There is a way to reach the hosts; what they answer is theirs to say. -/
  control : Bool
  settings : Settings α

namespace Builder

variable {α : Type}

/-- Nothing but the standard settings. -/
def empty [Quantity α] : Builder α := ⟨none, false, .standard⟩

/-- Starts a controller; the error is a part that is missing. -/
def build (b : Builder α) : Except Part (Controller α) :=
  match b.store with
  | none => .error .store
  | some s => if b.control then .ok (.start b.settings s) else .error .control

/-- The part has been given. -/
def Has (b : Builder α) : Part → Prop
  | .store => b.store.isSome = true
  | .control => b.control = true

theorem build_eq_ok_iff {b : Builder α} {s : Controller α} :
    b.build = .ok s ↔ ∃ t, b.store = some t ∧ b.control = true ∧ .start b.settings t = s := by
  unfold build
  split
  · rename_i hstore
    simp [hstore]
  · rename_i t hstore
    cases b.control <;> simp [hstore]

/-- A controller is built exactly when no part is missing. -/
theorem exists_build_iff {b : Builder α} : (∃ s, b.build = .ok s) ↔ ∀ p, b.Has p := by
  simp only [build_eq_ok_iff]
  constructor
  · rintro ⟨s, t, hstore, hcontrol, -⟩ p
    cases p with
    | store => exact Option.isSome_iff_exists.2 ⟨t, hstore⟩
    | control => exact hcontrol
  · intro hall
    obtain ⟨t, hstore⟩ := Option.isSome_iff_exists.1 (hall .store)
    exact ⟨_, t, hstore, hall .control, rfl⟩

/-- The part that is named as missing has not been given, while the store has if it is not named. -/
theorem of_build_eq_error {b : Builder α} {p : Part} (h : b.build = .error p) :
    ¬b.Has p ∧ (p = .control → b.Has .store) := by
  unfold build at h
  split at h
  · rename_i hstore
    cases h
    exact ⟨by simp [Has, hstore], by simp⟩
  · rename_i t hstore
    split at h
    · cases h
    · rename_i hcontrol
      cases h
      exact ⟨hcontrol, fun _ => Option.isSome_iff_exists.2 ⟨t, hstore⟩⟩

end Builder

end ClusterControl
