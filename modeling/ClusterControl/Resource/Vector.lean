import ClusterControl.Quantity

/-!
# Resource vectors

A host and a machine are measured in four dimensions: processor, memory, and network traffic in
each direction.  Vectors made from outside numbers are clamped, so their components are finite and
not negative; sums are plain component-wise sums.
-/

namespace ClusterControl

/-- A measured dimension. -/
inductive Resource
  | cpu
  | memory
  | networkRx
  | networkTx
  deriving DecidableEq, Repr

namespace Resource

/-- Every dimension, in the fixed order of a vector's components. -/
def all : List Resource := [cpu, memory, networkRx, networkTx]

def index : Resource → Nat
  | cpu => 0
  | memory => 1
  | networkRx => 2
  | networkTx => 3

def name : Resource → String
  | cpu => "cpu"
  | memory => "memory"
  | networkRx => "network_rx"
  | networkTx => "network_tx"

/-- The name used in narrow listings. -/
def shortName : Resource → String
  | cpu => "cpu"
  | memory => "mem"
  | networkRx => "rx"
  | networkTx => "tx"

end Resource

/-- One amount for each dimension. -/
structure Resources (α : Type) where
  cpu : α
  memory : α
  networkRx : α
  networkTx : α
  deriving DecidableEq, Repr

namespace Resources

variable {α β γ : Type}

/-- The component for a dimension. -/
def get (v : Resources α) : Resource → α
  | .cpu => v.cpu
  | .memory => v.memory
  | .networkRx => v.networkRx
  | .networkTx => v.networkTx

/-- The vector with the given component for each dimension. -/
def ofFn (f : Resource → α) : Resources α :=
  ⟨f .cpu, f .memory, f .networkRx, f .networkTx⟩

@[simp]
theorem get_ofFn (f : Resource → α) (r : Resource) : (ofFn f).get r = f r := by
  cases r <;> rfl

/-- Two vectors that agree in every dimension are equal. -/
@[ext]
theorem ext {v w : Resources α} (h : ∀ r, v.get r = w.get r) : v = w := by
  cases v; cases w
  have h₁ := h .cpu
  have h₂ := h .memory
  have h₃ := h .networkRx
  have h₄ := h .networkTx
  simp only [get] at h₁ h₂ h₃ h₄
  subst h₁ h₂ h₃ h₄
  rfl

def toList (v : Resources α) : List α := [v.cpu, v.memory, v.networkRx, v.networkTx]

def map (f : α → β) (v : Resources α) : Resources β := ofFn fun r => f (v.get r)

def zipWith (f : α → β → γ) (v : Resources α) (w : Resources β) : Resources γ :=
  ofFn fun r => f (v.get r) (w.get r)

/-- Replaces one component as it is given. -/
def put (v : Resources α) (r : Resource) (x : α) : Resources α :=
  ofFn fun r' => if r' = r then x else v.get r'

variable [Quantity α]

def zero : Resources α := ofFn fun _ => Quantity.zero

instance : Inhabited (Resources α) := ⟨zero⟩

/-- The vector of four outside numbers, each clamped to a finite amount that is not negative. -/
def clamped (v : Resources α) : Resources α := v.map Quantity.clamp

/-- The same number in every dimension, clamped. -/
def uniform (x : α) : Resources α := clamped (ofFn fun _ => x)

/-- Replaces one component, raised to zero when it is negative. -/
def set (v : Resources α) (r : Resource) (x : α) : Resources α :=
  v.put r (Quantity.max x Quantity.zero)

def add (v w : Resources α) : Resources α := v.zipWith Quantity.add w

/-- Component-wise difference that stops at zero. -/
def monus (v w : Resources α) : Resources α :=
  v.zipWith (fun a b => Quantity.max (Quantity.sub a b) Quantity.zero) w

/-- Component-wise quotient; a divisor that is not positive gives zero. -/
def divide (v w : Resources α) : Resources α :=
  v.zipWith (fun a b => if Quantity.lt Quantity.zero b then Quantity.div a b else Quantity.zero) w

/-- Every component times one factor, clamped. -/
def scale (v : Resources α) (k : α) : Resources α :=
  clamped (v.map fun a => Quantity.mul a k)

/-- How far a component may exceed its bound and still fit: one part in 10⁹ of a unit absorbs what
rounding has piled up. -/
def tolerance : α := Quantity.ofDecimal 1 9

/-- No component exceeds its bound by more than the tolerance. -/
def fitsWithin (v bound : Resources α) : Bool :=
  Resource.all.all fun r => Quantity.le (v.get r) (Quantity.add (bound.get r) tolerance)

def isZero (v : Resources α) : Bool :=
  v.toList.all fun a => Quantity.le a Quantity.zero && Quantity.le Quantity.zero a

/-- Left-to-right sum, from zero. -/
def sum (vs : List (Resources α)) : Resources α := vs.foldl add zero

end Resources

end ClusterControl
