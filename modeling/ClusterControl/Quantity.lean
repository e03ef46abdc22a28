/-!
# Quantities

Every amount the controller compares — a request, a capacity, a usage, a load — is a number
from one scalar type.  Running code uses double-precision numbers, where addition rounds and an
overflow is infinite; statements about capacity are made over exact numbers.  This module names
the few operations both readings share, so that one set of definitions serves both.
-/

namespace ClusterControl

/-- The operations on amounts that estimation, ranking and planning use. -/
class Quantity (α : Type) where
  zero : α
  /-- The number written with digits `m` and `p` decimal places. -/
  ofDecimal (m p : Nat) : α
  add : α → α → α
  sub : α → α → α
  mul : α → α → α
  div : α → α → α
  abs : α → α
  /-- The square root, used by one norm only. -/
  root : α → α
  /-- The larger of two numbers; a number that is not comparable loses. -/
  max : α → α → α
  le : α → α → Bool
  lt : α → α → Bool
  isFinite : α → Bool
  /-- A total order, also where `le` is not total. -/
  compare : α → α → Ordering

namespace Quantity

variable {α : Type} [Quantity α]

/-- A whole number as a quantity. -/
def ofNat (n : Nat) : α := ofDecimal n 0

/-- Amounts are finite and not negative: anything else counts as nothing. -/
def clamp (x : α) : α := if isFinite x then max x zero else zero

/-- Left-to-right sum. -/
def sum (xs : List α) : α := xs.foldl add zero

end Quantity

/-! ## Doubles -/

/-- The order of the IEEE 754 total order: by sign, then by magnitude bits, so that every pair of
doubles is comparable. -/
def Float.totalOrderKey (x : Float) : Int :=
  let bits := x.toBits
  if bits >>> 63 = 0 then (bits.toNat : Int) else -((bits &&& 0x7FFFFFFFFFFFFFFF).toNat : Int) - 1

instance : Quantity Float where
  zero := 0
  ofDecimal m p := OfScientific.ofScientific m true p
  add := (· + ·)
  sub := (· - ·)
  mul := (· * ·)
  div := (· / ·)
  abs := Float.abs
  root := Float.sqrt
  max a b := if a.isNaN then b else if b.isNaN then a else if b < a then a else b
  le a b := a ≤ b
  lt a b := a < b
  isFinite := Float.isFinite
  compare a b := Ord.compare (Float.totalOrderKey a) (Float.totalOrderKey b)

end ClusterControl
