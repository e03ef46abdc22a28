import ClusterControl.Proofs.Resource.Exact
import Mathlib.Algebra.Order.Group.Defs
import Mathlib.Order.Compare
import Mathlib.Order.Std

/-!
# Differences in exact numbers

A host that gives up machines is followed by subtraction, and machines are ranked by comparison.
Over exact numbers what was added can be taken away again.

* `Quantity.Faithful` asks that differences and comparisons are exact too.
* `Resources.add_monus_cancel` takes away what was added to a vector that is not negative.
* `Resources.nonneg_clamped`: a vector made from outside numbers is not negative.
-/

namespace ClusterControl

/-- Sums, differences and comparisons are exact.  Nothing is said of products, quotients and
roots. -/
class Quantity.Faithful (α : Type) [Quantity α] [AddCommGroup α] [LinearOrder α] : Prop
    extends Quantity.Exact α where
  sub_eq (a b : α) : Quantity.sub a b = a - b
  max_eq (a b : α) : Quantity.max a b = Max.max a b
  compare_eq (a b : α) : Quantity.compare a b = Ord.compare a b

instance : Quantity.Faithful ℚ where
  sub_eq _ _ := rfl
  max_eq _ _ := rfl
  compare_eq _ _ := rfl

variable {α : Type} [AddCommGroup α] [LinearOrder α] [Quantity α] [Quantity.Faithful α]

theorem Quantity.clamp_nonneg (x : α) : 0 ≤ clamp x := by
  rw [clamp]
  split
  · rw [Faithful.max_eq, Exact.zero_eq]
    exact le_max_right x 0
  · rw [Exact.zero_eq]

namespace Resources

theorem get_monus (v w : Resources α) (r : Resource) :
    (v.monus w).get r = max (v.get r - w.get r) 0 := by
  rw [monus, zipWith, get_ofFn, Quantity.Faithful.max_eq, Quantity.Faithful.sub_eq,
    Quantity.Exact.zero_eq]

/-- What was added to a vector that is not negative can be taken away again. -/
theorem add_monus_cancel {v : Resources α} (hv : v.Nonneg) (w : Resources α) :
    (v.add w).monus w = v := by
  ext r
  rw [get_monus, get_add, add_sub_cancel_right, max_eq_left (hv r)]

theorem nonneg_zero : (zero : Resources α).Nonneg := fun r => (get_zero r).ge

theorem nonneg_clamped (v : Resources α) : v.clamped.Nonneg := fun r => by
  rw [clamped, map, get_ofFn]
  exact Quantity.clamp_nonneg _

/-- A vector that is not negative stays so when a component is replaced: a negative number is raised
to zero. -/
theorem Nonneg.set {v : Resources α} (hv : v.Nonneg) (r : Resource) (x : α) :
    (v.set r x).Nonneg := fun r' => by
  rw [Resources.set, put, get_ofFn]
  split
  · rw [Quantity.Faithful.max_eq, Quantity.Exact.zero_eq]
    exact le_max_right x 0
  · exact hv r'

end Resources

end ClusterControl
