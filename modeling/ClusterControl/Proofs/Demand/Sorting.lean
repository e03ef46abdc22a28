import Mathlib.Data.List.Basic
import ClusterControl.Demand.Ranking

/-!
# Sorting by load

Machines and hosts are sorted on loads that are computed once, with comparisons of their own.  They
come in the order that the comparisons of machines and hosts give, entries that compare alike in the
order they had; since both comparisons are total preorders, this leaves one result only.

* `StableSort` says what the stable sort of a list is, and `stableSort_iff` that there is one.
* `Ranking.sortVms_eq_mergeSort` and `Ranking.sortHosts_eq_mergeSort` say that the sorts agree with
  the comparisons.
* `Ranking.sorts_stably` is the account for loads in double precision.
-/

namespace ClusterControl

/-! ## Stable sorts -/

section StableSort

variable {β : Type} {cmp : β → β → Ordering} {l l' : List β}

/-- A list is rearranged so that no entry compares greater than a later one, and the entries that
compare alike are in the order they had. -/
structure StableSort (cmp : β → β → Ordering) (l l' : List β) : Prop where
  perm : l'.Perm l
  ordered : l'.Pairwise fun a b => cmp a b ≠ .gt
  stable : ∀ a, l'.filter (fun b => cmp a b == .eq) = l.filter (fun b => cmp a b == .eq)

variable [Std.TransCmp cmp]

theorem filter_alike_cons (x : β) (xs : List β) :
    (x :: xs).filter (fun b => cmp x b == .eq) = x :: xs.filter (fun b => cmp x b == .eq) :=
  List.filter_cons_of_pos (by simp [Std.ReflCmp.compare_self])

/-- The heads of two lists in order compare alike if each is in the other list. -/
theorem alike_of_mem {x y : β} {xs ys : List β} (hl : ∀ b ∈ xs, cmp x b ≠ .gt)
    (hl' : ∀ b ∈ ys, cmp y b ≠ .gt) (hx : x ∈ y :: ys) (hy : y ∈ x :: xs) : cmp x y = .eq := by
  rcases List.mem_cons.1 hx with rfl | hx
  · exact Std.ReflCmp.compare_self
  rcases List.mem_cons.1 hy with rfl | hy
  · exact Std.ReflCmp.compare_self
  have hyx : cmp y x = (cmp x y).swap := Std.OrientedCmp.eq_swap
  cases hxy : cmp x y with
  | lt => exact absurd (hyx.trans (congrArg Ordering.swap hxy)) (hl' x hx)
  | eq => rfl
  | gt => exact absurd hxy (hl y hy)

/-- Two lists in order that have the same entries of every class are one list. -/
theorem eq_of_ordered (hl : l.Pairwise fun a b => cmp a b ≠ .gt)
    (hl' : l'.Pairwise fun a b => cmp a b ≠ .gt)
    (hclass : ∀ a, l.filter (fun b => cmp a b == .eq) = l'.filter (fun b => cmp a b == .eq)) :
    l = l' := by
  induction l generalizing l' with
  | nil =>
    cases l' with
    | nil => rfl
    | cons y ys =>
      have hnil := hclass y
      rw [filter_alike_cons, List.filter_nil] at hnil
      exact absurd hnil (by simp)
  | cons x xs ih =>
    have hx : x ∈ l'.filter fun b => cmp x b == .eq := by
      rw [← hclass x, filter_alike_cons]
      exact List.mem_cons_self
    cases l' with
    | nil => exact absurd hx (by simp)
    | cons y ys =>
      have hy : y ∈ (x :: xs).filter fun b => cmp y b == .eq := by
        rw [hclass y, filter_alike_cons]
        exact List.mem_cons_self
      rw [List.pairwise_cons] at hl hl'
      have halike : cmp x y = .eq :=
        alike_of_mem hl.1 hl'.1 (List.mem_of_mem_filter hx) (List.mem_of_mem_filter hy)
      obtain rfl : x = y := by
        have hhead := hclass x
        rw [filter_alike_cons, List.filter_cons_of_pos (by simp [halike])] at hhead
        exact (List.cons_eq_cons.1 hhead).1
      refine congrArg (x :: ·) (ih hl.2 hl'.2 fun a => ?_)
      have htail := hclass a
      rw [List.filter_cons, List.filter_cons] at htail
      by_cases ha : (cmp a x == .eq) = true
      · rw [if_pos ha, if_pos ha] at htail
        exact (List.cons_eq_cons.1 htail).2
      · rwa [if_neg ha, if_neg ha] at htail

theorem stableSort_mergeSort (l : List β) :
    StableSort cmp l (l.mergeSort fun a b => (cmp a b).isLE) := by
  have htrans : ∀ a b c, (cmp a b).isLE = true → (cmp b c).isLE = true → (cmp a c).isLE = true :=
    fun a b c => Std.TransCmp.isLE_trans
  have htotal : ∀ a b, ((cmp a b).isLE || (cmp b a).isLE) = true := by
    intro a b
    rw [show cmp b a = (cmp a b).swap from Std.OrientedCmp.eq_swap]
    cases cmp a b <;> rfl
  have hperm := List.mergeSort_perm l fun a b => (cmp a b).isLE
  refine ⟨hperm, ?_, fun a => ?_⟩
  · exact (List.pairwise_mergeSort htrans htotal l).imp Ordering.isLE_iff_ne_gt.1
  · -- a class is in order as it is, so the sort keeps it, and there is nothing else of the class
    have hclass : (l.filter fun b => cmp a b == .eq).Pairwise fun b c => (cmp b c).isLE = true := by
      rw [List.pairwise_iff_forall_sublist]
      intro b c hbc
      have hb := List.of_mem_filter (hbc.subset List.mem_cons_self)
      have hc := List.of_mem_filter (hbc.subset (List.mem_cons_of_mem b List.mem_cons_self))
      rw [beq_iff_eq] at hb hc
      rw [Std.TransCmp.eq_trans (Std.OrientedCmp.eq_symm hb) hc]
      rfl
    have hkept := (List.sublist_mergeSort htrans htotal hclass List.filter_sublist).filter
      fun b => cmp a b == .eq
    rw [List.filter_filter] at hkept
    simp only [Bool.and_self] at hkept
    exact (hkept.eq_of_length (hperm.filter _).length_eq.symm).symm

/-- The stable sort of a list is its merge sort. -/
theorem stableSort_iff : StableSort cmp l l' ↔ l' = l.mergeSort fun a b => (cmp a b).isLE := by
  have hsort : StableSort cmp l (l.mergeSort fun a b => (cmp a b).isLE) := stableSort_mergeSort l
  constructor
  · intro h
    exact eq_of_ordered h.ordered hsort.ordered fun a => (h.stable a).trans (hsort.stable a).symm
  · rintro rfl
    exact hsort

/-- Comparing entries by what a function says of them. -/
theorem transCmp_on {γ : Type} (f : γ → β) : Std.TransCmp fun a b => cmp (f a) (f b) where
  eq_swap := Std.OrientedCmp.eq_swap
  isLE_trans := Std.TransCmp.isLE_trans

end StableSort

/-! ## Comparisons -/

/-- The order on doubles tells any two bit patterns apart. -/
theorem Float.totalOrderKey_eq_iff {x y : Float} :
    Float.totalOrderKey x = Float.totalOrderKey y ↔ x.toBits = y.toBits := by
  have hsign : ∀ b : UInt64, b >>> 63 = 0 ↔ b.toNat < 2 ^ 63 := by
    intro b
    rw [← UInt64.toNat_inj, UInt64.toNat_shiftRight]
    simp [Nat.shiftRight_eq_div_pow]
  have hmagnitude : ∀ b : UInt64, (b &&& 0x7FFFFFFFFFFFFFFF).toNat = b.toNat % 2 ^ 63 := by
    intro b
    rw [UInt64.toNat_and]
    exact Nat.and_two_pow_sub_one_eq_mod b.toNat 63
  constructor
  · intro h
    unfold Float.totalOrderKey at h
    simp only [hsign, hmagnitude] at h
    rw [← UInt64.toNat_inj]
    have hx := x.toBits.toNat_lt
    have hy := y.toBits.toNat_lt
    split at h <;> split at h <;> omega
  · intro h
    unfold Float.totalOrderKey
    rw [h]

instance : Std.TransCmp (Quantity.compare : Float → Float → Ordering) :=
  inferInstanceAs (Std.TransCmp (compareOn Float.totalOrderKey))

theorem Float.compare_eq_iff {x y : Float} : Quantity.compare x y = .eq ↔ x.toBits = y.toBits := by
  rw [← Float.totalOrderKey_eq_iff]
  exact Std.LawfulEqOrd.compare_eq_iff_eq

namespace SortOrder

theorem direct_eq_iff {o : SortOrder} {c : Ordering} : o.direct c = .eq ↔ c = .eq := by
  cases o <;> cases c <;> decide

/-- A total preorder is one in both directions. -/
instance transCmp_direct {β : Type} {cmp : β → β → Ordering} [Std.TransCmp cmp] (o : SortOrder) :
    Std.TransCmp fun a b => o.direct (cmp a b) := by
  cases o with
  | increasing => exact inferInstanceAs (Std.TransCmp cmp)
  | decreasing =>
    have hswap : (fun a b => (cmp a b).swap) = fun a b => cmp b a := by
      funext a b
      exact Std.OrientedCmp.eq_swap.symm
    rw [show (fun a b => SortOrder.decreasing.direct (cmp a b)) = fun a b => cmp b a from hswap]
    exact Std.TransCmp.opposite

end SortOrder

/-- A status stands before another one of the same load: active, woken up, passive. -/
def HostStatus.Before (s s' : HostStatus) : Prop := [s, s'].Sublist [active, wokenUp, passive]

instance (s s' : HostStatus) : Decidable (s.Before s') :=
  inferInstanceAs (Decidable ([s, s'].Sublist _))

theorem HostStatus.compare_rank_eq_lt_iff {s s' : HostStatus} :
    compare s.rank s'.rank = .lt ↔ s.Before s' := by
  cases s <;> cases s' <;> decide

theorem HostStatus.compare_rank_eq_iff {s s' : HostStatus} :
    compare s.rank s'.rank = .eq ↔ s = s' := by
  cases s <;> cases s' <;> decide

namespace Ranking

/-! ## The sorts -/

section Sorts

variable {α : Type} [Quantity α]

/-- Sorting machines on their loads is sorting them by the comparison of machines. -/
theorem sortVms_eq_mergeSort (k : Ranking α) (o : SortOrder) (vms : List (Vm α)) :
    k.sortVms o vms = vms.mergeSort fun a b => (k.compareVms o a b).isLE := by
  have hkeyed := List.map_mergeSort (l := vms) (r := fun a b => (k.compareVms o a b).isLE)
    (s := fun a b : α × Vm α => (o.direct (Quantity.compare a.1 b.1)).isLE)
    (f := fun vm => (k.vmLoad vm, vm)) fun _ _ _ _ => rfl
  rw [sortVms, ← hkeyed, List.map_map]
  exact List.map_id _

/-- Sorting hosts on their loads is sorting them by the comparison of hosts. -/
theorem sortHosts_eq_mergeSort (k : Ranking α) (o : SortOrder) (hosts : List (Host α)) :
    k.sortHosts o hosts = hosts.mergeSort fun a b => (k.compareHosts o a b).isLE := by
  have hkeyed := List.map_mergeSort (l := hosts) (r := fun a b => (k.compareHosts o a b).isLE)
    (s := fun a b : α × Host α => ((o.direct (Quantity.compare a.1 b.1)).then
      (compare a.2.status.rank b.2.status.rank)).isLE)
    (f := fun h => (k.hostLoad h, h)) fun _ _ _ _ => rfl
  rw [sortHosts, ← hkeyed, List.map_map]
  exact List.map_id _

variable [Std.TransCmp (Quantity.compare : α → α → Ordering)]

instance transCmp_compareVms (k : Ranking α) (o : SortOrder) : Std.TransCmp (k.compareVms o) :=
  have : Std.TransCmp fun a b => Quantity.compare (k.vmLoad a) (k.vmLoad b) := transCmp_on k.vmLoad
  SortOrder.transCmp_direct o

instance transCmp_compareHosts (k : Ranking α) (o : SortOrder) : Std.TransCmp (k.compareHosts o) :=
  have : Std.TransCmp fun a b => Quantity.compare (k.hostLoad a) (k.hostLoad b) :=
    transCmp_on k.hostLoad
  have : Std.TransCmp fun a b => o.direct (Quantity.compare (k.hostLoad a) (k.hostLoad b)) :=
    SortOrder.transCmp_direct o
  have : Std.TransCmp fun a b : Host α => compare a.status.rank b.status.rank :=
    transCmp_on fun h : Host α => h.status.rank
  inferInstanceAs (Std.TransCmp (compareLex
    (fun a b => o.direct (Quantity.compare (k.hostLoad a) (k.hostLoad b)))
    fun a b => compare a.status.rank b.status.rank))

theorem stableSort_sortVms_iff (k : Ranking α) (o : SortOrder) {vms vms' : List (Vm α)} :
    StableSort (k.compareVms o) vms vms' ↔ vms' = k.sortVms o vms := by
  rw [sortVms_eq_mergeSort]
  exact stableSort_iff

theorem stableSort_sortHosts_iff (k : Ranking α) (o : SortOrder) {hosts hosts' : List (Host α)} :
    StableSort (k.compareHosts o) hosts hosts' ↔ hosts' = k.sortHosts o hosts := by
  rw [sortHosts_eq_mergeSort]
  exact stableSort_iff

end Sorts

variable {k : Ranking Float} {o : SortOrder}

theorem compareVms_eq_iff {a b : Vm Float} :
    k.compareVms o a b = .eq ↔ (k.vmLoad a).toBits = (k.vmLoad b).toBits := by
  rw [compareVms, SortOrder.direct_eq_iff, Float.compare_eq_iff]

theorem compareHosts_eq_iff {a b : Host Float} : k.compareHosts o a b = .eq ↔
    (k.hostLoad a).toBits = (k.hostLoad b).toBits ∧ a.status = b.status := by
  rw [compareHosts, Ordering.then_eq_eq, SortOrder.direct_eq_iff, Float.compare_eq_iff,
    HostStatus.compare_rank_eq_iff]

/-- Among hosts of one load the status decides, in both directions. -/
theorem compareHosts_lt_iff {a b : Host Float}
    (h : (k.hostLoad a).toBits = (k.hostLoad b).toBits) :
    k.compareHosts o a b = .lt ↔ a.status.Before b.status := by
  have hload : o.direct (Quantity.compare (k.hostLoad a) (k.hostLoad b)) = .eq :=
    SortOrder.direct_eq_iff.2 (Float.compare_eq_iff.2 h)
  rw [compareHosts, hload, Ordering.eq_then, HostStatus.compare_rank_eq_lt_iff]

/-- Machines and hosts are sorted stably by comparisons that are total preorders.  Machines compare
alike only if their loads are the same double, and hosts if their statuses are the same too; hosts
of one load stand in the order active, woken up, passive, in both directions. -/
theorem sorts_stably (k : Ranking Float) (o : SortOrder) :
    Std.TransCmp (k.compareVms o) ∧ Std.TransCmp (k.compareHosts o) ∧
    (∀ vms vms', StableSort (k.compareVms o) vms vms' ↔ vms' = k.sortVms o vms) ∧
    (∀ hosts hosts', StableSort (k.compareHosts o) hosts hosts' ↔ hosts' = k.sortHosts o hosts) ∧
    (∀ a b, k.compareVms o a b = .eq ↔ (k.vmLoad a).toBits = (k.vmLoad b).toBits) ∧
    (∀ a b, k.compareHosts o a b = .eq ↔
      (k.hostLoad a).toBits = (k.hostLoad b).toBits ∧ a.status = b.status) ∧
    ∀ a b, (k.hostLoad a).toBits = (k.hostLoad b).toBits →
      (k.compareHosts o a b = .lt ↔ a.status.Before b.status) := by
  refine ⟨inferInstance, inferInstance, ?_, ?_, ?_, ?_, ?_⟩
  · intro vms vms'
    exact k.stableSort_sortVms_iff o
  · intro hosts hosts'
    exact k.stableSort_sortHosts_iff o
  · intro a b
    exact compareVms_eq_iff
  · intro a b
    exact compareHosts_eq_iff
  · intro a b h
    exact compareHosts_lt_iff h

end Ranking

end ClusterControl
