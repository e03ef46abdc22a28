import ClusterControl.Proofs.Store.Consistency
import Mathlib.Algebra.BigOperators.Group.Finset.Basic
import Mathlib.Algebra.Module.Submodule.Lattice
import Mathlib.Algebra.Order.BigOperators.Group.Finset
import Mathlib.Algebra.Order.Ring.Rat
import Mathlib.Data.List.Permutation

/-!
# Capacity in exact numbers

Doubles round, so a sum of requests depends on the order in which they are added.  Over exact
numbers it depends on the machines alone, and grows with them.

* `Quantity.Exact` says what is asked of the numbers: sums and comparisons do not round.
* `Host.requested_mono` and `Host.requested_assign_le` compare what machines ask for.
-/

namespace ClusterControl

/-- Sums and comparisons are exact.  Nothing is said of the other operations: they rank hosts and
machines, and a host's capacity holds whichever comes first. -/
class Quantity.Exact (α : Type) [Quantity α] [AddCommMonoid α] [LinearOrder α] : Prop where
  zero_eq : (Quantity.zero : α) = 0
  add_eq (a b : α) : Quantity.add a b = a + b
  le_iff {a b : α} : Quantity.le a b = true ↔ a ≤ b

/-- The rationals, where every operation is exact but the root: a square stands in for it, which
ranks hosts and machines alike. -/
instance : Quantity ℚ where
  zero := 0
  ofDecimal m p := m / 10 ^ p
  add := (· + ·)
  sub := (· - ·)
  mul := (· * ·)
  div := (· / ·)
  abs := Rat.abs
  root a := a
  max := Max.max
  le a b := decide (a ≤ b)
  lt a b := decide (a < b)
  isFinite _ := true
  compare := compare

instance : Quantity.Exact ℚ where
  zero_eq := rfl
  add_eq _ _ := rfl
  le_iff := decide_eq_true_iff

variable {α : Type} [AddCommMonoid α]

namespace Host

/-- What is asked for under an id, in one dimension. -/
def share (h : Host α) (r : Resource) (v : VmId) : α :=
  match h.vms.get? v with
  | some w => w.requested.get r
  | none => 0

theorem share_of_get? {h : Host α} {v : VmId} {w : Vm α} (hw : h.vms.get? v = some w)
    (r : Resource) : h.share r v = w.requested.get r := by
  rw [share, hw]

end Host

variable [LinearOrder α]

/-- No component is below zero. -/
def Resources.Nonneg (v : Resources α) : Prop := ∀ r, 0 ≤ v.get r

theorem Resources.nonneg_iff_all {v : Resources α} :
    v.Nonneg ↔ ∀ r ∈ Resource.all, 0 ≤ v.get r :=
  ⟨fun h r _ => h r, fun h r => h r (by cases r <;> simp [Resource.all])⟩

instance (v : Resources α) : Decidable v.Nonneg :=
  decidable_of_iff _ Resources.nonneg_iff_all.symm

theorem Host.share_nonneg {h : Host α} (hh : ∀ {v w}, h.vms.get? v = some w → w.requested.Nonneg)
    (r : Resource) (v : VmId) : 0 ≤ h.share r v := by
  rw [share]
  split
  · rename_i w hw
    exact hh hw r
  · exact le_refl 0

variable [Quantity α] [Quantity.Exact α]

namespace Resources

@[simp]
theorem get_zero (r : Resource) : (zero : Resources α).get r = 0 := by
  rw [zero, get_ofFn, Quantity.Exact.zero_eq]

@[simp]
theorem get_add (v w : Resources α) (r : Resource) : (v.add w).get r = v.get r + w.get r := by
  rw [add, zipWith, get_ofFn, Quantity.Exact.add_eq]

theorem get_sum (vs : List (Resources α)) (r : Resource) :
    (sum vs).get r = (vs.map fun v => v.get r).sum := by
  have hfold : ∀ (vs : List (Resources α)) (acc : Resources α),
      (vs.foldl add acc).get r = acc.get r + (vs.map fun v => v.get r).sum := by
    intro vs
    induction vs with
    | nil => simp
    | cons v rest ih => simp [ih, add_assoc]
  rw [sum, hfold, get_zero, zero_add]

theorem fitsWithin_iff {v bound : Resources α} : v.fitsWithin bound = true ↔
    ∀ r, v.get r ≤ Quantity.add (bound.get r) tolerance := by
  rw [fitsWithin, List.all_eq_true]
  constructor
  · intro h r
    exact Quantity.Exact.le_iff.1 (h r (by cases r <;> simp [Resource.all]))
  · exact fun h r _ => Quantity.Exact.le_iff.2 (h r)

/-- What is no more than something that fits fits too. -/
theorem fitsWithin_of_le {v w bound : Resources α} (h : ∀ r, v.get r ≤ w.get r)
    (hw : w.fitsWithin bound = true) : v.fitsWithin bound = true :=
  fitsWithin_iff.2 fun r => (h r).trans (fitsWithin_iff.1 hw r)

end Resources

namespace Host

/-- What a host's machines ask for, summed over their ids. -/
theorem requested_eq_sum {h : Host α} {r : Resource} {f : VmId → α}
    (hf : ∀ {v w}, h.vms.get? v = some w → w.requested.get r = f v) :
    h.requested.get r = ∑ v ∈ h.vms.keys.toFinset, f v := by
  rw [List.sum_toFinset f h.vms.nodup_keys, requested, Resources.get_sum, SortedMap.values,
    SortedMap.keys, List.map_map, List.map_map, List.map_map]
  congr 1
  exact List.map_congr_left fun e he => hf (SortedMap.get?_eq_some_iff.2 he)

theorem requested_eq_shares (h : Host α) (r : Resource) :
    h.requested.get r = ∑ v ∈ h.vms.keys.toFinset, h.share r v :=
  requested_eq_sum fun hw => (share_of_get? hw r).symm

variable [IsOrderedAddMonoid α]

/-- A host whose machines are among those of another, asking for the same, has no more requested. -/
theorem requested_mono {h k : Host α}
    (hsub : ∀ {v w}, h.vms.get? v = some w →
      ∃ w', k.vms.get? v = some w' ∧ w.requested = w'.requested)
    (hk : ∀ {v w}, k.vms.get? v = some w → w.requested.Nonneg) (r : Resource) :
    h.requested.get r ≤ k.requested.get r := by
  have hsame : h.requested.get r = ∑ v ∈ h.vms.keys.toFinset, k.share r v := by
    refine requested_eq_sum fun {v w} hw => ?_
    obtain ⟨w', hw', heq⟩ := hsub hw
    rw [share_of_get? hw', heq]
  have hkeys : h.vms.keys.toFinset ⊆ k.vms.keys.toFinset := by
    intro v hv
    rw [List.mem_toFinset, SortedMap.mem_keys_iff, Option.isSome_iff_exists] at hv ⊢
    obtain ⟨w, hw⟩ := hv
    obtain ⟨w', hw', -⟩ := hsub hw
    exact ⟨w', hw'⟩
  rw [hsame, requested_eq_shares k]
  exact Finset.sum_le_sum_of_subset_of_nonneg hkeys fun v _ _ => share_nonneg hk r v

/-- A host that takes a machine has at most what that machine asks for requested on top. -/
theorem requested_assign_le {h : Host α} {vm : Vm α}
    (hh : ∀ {v w}, h.vms.get? v = some w → w.requested.Nonneg) (r : Resource) :
    (h.assign vm).requested.get r ≤ (h.requested.add vm.requested).get r := by
  have hkeys : (h.assign vm).vms.keys.toFinset =
      insert vm.id (h.vms.keys.toFinset.erase vm.id) := by
    ext v
    rw [Finset.mem_insert, Finset.mem_erase, List.mem_toFinset, List.mem_toFinset,
      SortedMap.mem_keys_iff, SortedMap.mem_keys_iff]
    refine (h.has_assign vm v).trans ?_
    by_cases hv : v = vm.id <;> simp [hv, Host.Has]
  have hothers : ∀ v ∈ h.vms.keys.toFinset.erase vm.id,
      (h.assign vm).share r v = h.share r v := by
    intro v hv
    rw [share, share, assign, SortedMap.get?_insert, if_neg (Finset.ne_of_mem_erase hv)]
  have hnew : (h.assign vm).share r vm.id = vm.requested.get r := by
    rw [share, assign, SortedMap.get?_insert, if_pos rfl]
    rfl
  calc (h.assign vm).requested.get r
      = ∑ v ∈ insert vm.id (h.vms.keys.toFinset.erase vm.id), (h.assign vm).share r v := by
        rw [requested_eq_shares, hkeys]
    _ = vm.requested.get r + ∑ v ∈ h.vms.keys.toFinset.erase vm.id, h.share r v := by
        rw [Finset.sum_insert (Finset.notMem_erase _ _), hnew, Finset.sum_congr rfl hothers]
    _ ≤ vm.requested.get r + ∑ v ∈ h.vms.keys.toFinset, h.share r v := by
        refine add_le_add (le_refl _) ?_
        exact Finset.sum_le_sum_of_subset_of_nonneg (Finset.erase_subset _ _)
          fun v _ _ => share_nonneg hh r v
    _ = (h.requested.add vm.requested).get r := by
        rw [Resources.get_add, requested_eq_shares h, add_comm]

end Host

end ClusterControl
