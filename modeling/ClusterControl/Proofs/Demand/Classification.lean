import Mathlib.Algebra.Field.Rat
import Mathlib.Algebra.Order.Field.Basic
import ClusterControl.Demand.Classification
import ClusterControl.Proofs.Demand.Remaining

/-!
# Classification and load

More load makes a host no less loaded: from underloaded to stable to overloaded.  This has to come
through every stage of the classification, from the demands of the machines over their sum and the
fractions of the capacity, which are zero where there is no capacity, to a disjunction and a
conjunction of comparisons with thresholds that may be crossed.

* `Quantity.Divisible` asks that quotients are exact.
* `LoadState.level_classify_mono` says that classification grows with the utilization.
* `Estimator.Lawful.normalized_unassign_le` says that a host's utilization falls with its machines.
* `Estimator.levels_monotone` puts them together.
-/

namespace ClusterControl

/-- Sums, differences, comparisons and quotients are exact.  Nothing is said of products and
roots. -/
class Quantity.Divisible (α : Type) [Quantity α] [Field α] [LinearOrder α] : Prop
    extends Quantity.Faithful α where
  lt_iff {a b : α} : Quantity.lt a b = true ↔ a < b
  div_eq (a b : α) : Quantity.div a b = a / b

instance : Quantity.Divisible ℚ where
  lt_iff := decide_eq_true_iff
  div_eq _ _ := rfl

variable {α : Type}

/-! ## States in the order of the load -/

namespace LoadState

/-- How loaded a host in a state is. -/
def level : LoadState → Nat
  | underloaded => 0
  | stable => 1
  | overloaded => 2

theorem level_le_two (s : LoadState) : s.level ≤ 2 := by
  cases s <;> decide

variable [Quantity α] {u u' : Resources α} {t : Thresholds α}

theorem classify_eq_overloaded_iff :
    classify u t = .overloaded ↔ ∃ r, Quantity.lt (t.get r).max (u.get r) = true := by
  rw [classify]
  split
  · rename_i hany
    obtain ⟨r, -, hr⟩ := List.any_eq_true.1 hany
    exact ⟨fun _ => ⟨r, hr⟩, fun _ => rfl⟩
  · rename_i hnone
    constructor
    · intro hover
      split at hover <;> cases hover
    · rintro ⟨r, hr⟩
      exact absurd (List.any_eq_true.2 ⟨r, by cases r <;> simp [Resource.all], hr⟩) hnone

theorem classify_eq_underloaded_iff (hover : classify u t ≠ .overloaded) :
    classify u t = .underloaded ↔ ∀ r, Quantity.lt (u.get r) (t.get r).min = true := by
  unfold classify at hover ⊢
  split
  · rename_i hany
    exact absurd (if_pos hany) hover
  · split
    · rename_i hall
      exact ⟨fun _ r => List.all_eq_true.1 hall r (by cases r <;> simp [Resource.all]),
        fun _ => rfl⟩
    · rename_i hsome
      constructor
      · intro hunder
        cases hunder
      · intro hall
        exact absurd (List.all_eq_true.2 fun r _ => hall r) hsome

variable [Field α] [LinearOrder α] [Quantity.Divisible α]

/-- Classification grows with the utilization, whatever the thresholds are. -/
theorem level_classify_mono (h : ∀ r, u.get r ≤ u'.get r) :
    (classify u t).level ≤ (classify u' t).level := by
  by_cases hover' : classify u' t = .overloaded
  · rw [hover']
    exact level_le_two _
  -- the lesser utilization is beyond no bound either
  have hover : classify u t ≠ .overloaded := by
    intro hover
    obtain ⟨r, hr⟩ := classify_eq_overloaded_iff.1 hover
    refine hover' (classify_eq_overloaded_iff.2 ⟨r, Quantity.Divisible.lt_iff.2 ?_⟩)
    exact lt_of_lt_of_le (Quantity.Divisible.lt_iff.1 hr) (h r)
  cases hstate' : classify u' t with
  | overloaded => exact absurd hstate' hover'
  | stable =>
    cases hstate : classify u t with
    | overloaded => exact absurd hstate hover
    | stable => exact le_refl _
    | underloaded => exact Nat.zero_le _
  | underloaded =>
    have hbelow := (classify_eq_underloaded_iff hover').1 hstate'
    have hunder : classify u t = .underloaded := by
      refine (classify_eq_underloaded_iff hover).2 fun r => Quantity.Divisible.lt_iff.2 ?_
      exact lt_of_le_of_lt (h r) (Quantity.Divisible.lt_iff.1 (hbelow r))
    rw [hunder]

end LoadState

/-! ## Machines and utilization -/

/-- A host that takes a machine with a new id and gives it up again is as it was. -/
theorem Host.unassign_assign {h : Host α} {vm : Vm α} (hnew : h.vms.get? vm.id = none) :
    (h.assign vm).unassign vm.id = h := by
  have hvms : ((h.assign vm).unassign vm.id).vms = h.vms := by
    refine SortedMap.ext_get? fun v => ?_
    rw [unassign, assign, SortedMap.get?_erase, SortedMap.get?_insert]
    by_cases hv : v = vm.id
    · rw [if_pos hv, hv, hnew]
    · rw [if_neg hv, if_neg hv]
  calc (h.assign vm).unassign vm.id
      = { h with vms := ((h.assign vm).unassign vm.id).vms } := rfl
    _ = h := by rw [hvms]

variable [Quantity α] [Field α] [LinearOrder α] [Quantity.Divisible α]

theorem Resources.get_divide (u c : Resources α) (r : Resource) :
    (u.divide c).get r = if 0 < c.get r then u.get r / c.get r else 0 := by
  rw [divide, zipWith, get_ofFn, Quantity.Divisible.div_eq, Quantity.Exact.zero_eq]
  simp only [Quantity.Divisible.lt_iff]

variable [IsStrictOrderedRing α]

/-- Fractions of a capacity grow with the amounts, also where there is no capacity. -/
theorem Resources.divide_mono {u u' : Resources α} (h : ∀ r, u.get r ≤ u'.get r)
    (c : Resources α) (r : Resource) : (u.divide c).get r ≤ (u'.divide c).get r := by
  rw [get_divide, get_divide]
  split
  · rename_i hpos
    exact div_le_div_of_nonneg_right (h r) hpos.le
  · exact le_refl 0

namespace Estimator

variable {e : Estimator α}

/-- A host that gives up a machine uses no more of any dimension. -/
theorem Lawful.utilization_unassign_le (he : e.Lawful) (h : Host α) (v : VmId) (r : Resource) :
    (e.utilization (h.unassign v)).get r ≤ (e.utilization h).get r := by
  cases hv : h.vms.get? v with
  | none =>
    have hsame : h.unassign v = h := by
      rw [Host.unassign, SortedMap.erase_eq_self hv]
    rw [hsame]
  | some vm =>
    rw [← he.utilization_unassign hv, Resources.get_add]
    exact le_add_of_nonneg_right (he.demand_nonneg vm r)

theorem Lawful.normalized_unassign_le (he : e.Lawful) (h : Host α) (v : VmId) (r : Resource) :
    (e.normalized (h.unassign v)).get r ≤ (e.normalized h).get r :=
  Resources.divide_mono (he.utilization_unassign_le h v) h.capacity r

theorem Lawful.level_unassign_le (he : e.Lawful) (h : Host α) (v : VmId) :
    (e.classify (h.unassign v)).level ≤ (e.classify h).level :=
  LoadState.level_classify_mono (he.normalized_unassign_le h v)

theorem Lawful.level_le_assign (he : e.Lawful) {h : Host α} {vm : Vm α}
    (hnew : h.vms.get? vm.id = none) :
    (e.classify h).level ≤ (e.classify (h.assign vm)).level := by
  have hle := he.level_unassign_le (h.assign vm) vm.id
  rwa [Host.unassign_assign hnew] at hle

/-- Over exact numbers a host's state follows its load: it takes no further machine without being
as loaded as before or more, and gives up none without being as loaded or less, for every estimator
that settings name and for every other lawful one; and a greater utilization never means a lesser
state. -/
theorem levels_monotone (α : Type) [Quantity α] [Field α] [LinearOrder α] [IsStrictOrderedRing α]
    [Quantity.Divisible α] :
    (∀ name window capacity, (ofName name window capacity : Estimator α).Lawful) ∧
    (∀ e : Estimator α, e.Lawful → ∀ (h : Host α) (vm : Vm α), h.vms.get? vm.id = none →
      (e.classify h).level ≤ (e.classify (h.assign vm)).level) ∧
    (∀ e : Estimator α, e.Lawful → ∀ (h : Host α) (v : VmId),
      (e.classify (h.unassign v)).level ≤ (e.classify h).level) ∧
    ∀ (u u' : Resources α) (t : Thresholds α), (∀ r, u.get r ≤ u'.get r) →
      (LoadState.classify u t).level ≤ (LoadState.classify u' t).level := by
  refine ⟨?_, ?_, ?_, ?_⟩
  · intro name window capacity
    exact lawful_ofName name window capacity
  · intro e he h vm hnew
    exact he.level_le_assign hnew
  · intro e he h v
    exact he.level_unassign_le h v
  · intro u u' t h
    exact LoadState.level_classify_mono h

/-- A host without memory, whose lower bounds are above its upper ones. -/
def crossed : Host ℚ :=
  { Host.new "a" ⟨10, 0, 10, 10⟩ 1 with thresholds := .uniform (9 / 10) (4 / 5) }

/-- A machine that was last seen to use nine units of everything. -/
def heavy : Vm ℚ := (Vm.new "v" ⟨9, 9, 9, 9⟩ 1).observe ⟨0, ⟨9, 9, 9, 9⟩⟩

/-- It takes the host from one end to the other, and back. -/
theorem levels_of_crossed :
    (((ofName "average" 1 1).classify crossed).level = 0 ∧
      ((ofName "average" 1 1).classify (crossed.assign heavy)).level = 2) ∧
    ((ofName "average" 1 1).classify crossed).level ≤
      ((ofName "average" 1 1).classify (crossed.assign heavy)).level ∧
    ((ofName "average" 1 1).classify ((crossed.assign heavy).unassign "v")).level ≤
      ((ofName "average" 1 1).classify (crossed.assign heavy)).level := by
  obtain ⟨hnamed, htakes, hgives, -⟩ := levels_monotone ℚ
  have hlawful := hnamed "average" 1 1
  refine ⟨⟨by decide +kernel, by decide +kernel⟩, ?_, ?_⟩
  · exact htakes _ hlawful crossed heavy (by decide +kernel)
  · exact hgives _ hlawful (crossed.assign heavy) "v"

end Estimator

end ClusterControl
