import ClusterControl.Demand.Ranking
import ClusterControl.Proofs.Resource.Faithful

/-!
# Machines in the order of their loads

Machines are sorted by load alone.  The sort is stable and they come in key order, so machines of
equal load stand in key order: loads and keys leave one order only.

* `Ranking.Precedes` is that order.
* `Ranking.exists_ranked` says that a host's machines are sorted into it.
-/

namespace ClusterControl

/-- Of two different entries of a list, one comes before the other. -/
theorem pair_sublist_or {β : Type} {a b : β} {l : List β} (ha : a ∈ l) (hb : b ∈ l) (hab : a ≠ b) :
    [a, b].Sublist l ∨ [b, a].Sublist l := by
  obtain ⟨l₁, l₂, rfl⟩ := List.append_of_mem ha
  rcases List.mem_append.1 hb with hb | hb
  · exact .inr ((List.singleton_sublist.2 hb).append (List.singleton_sublist.2 List.mem_cons_self))
  · obtain rfl | hb := List.mem_cons.1 hb
    · exact absurd rfl hab
    · exact .inl (((List.singleton_sublist.2 hb).cons_cons a).trans
        (List.sublist_append_right l₁ _))

/-- What comes before another entry of a list without duplicates does not come after it too. -/
theorem not_pair_sublist_swap {β : Type} {a b : β} {l : List β} (hl : l.Nodup)
    (hab : [a, b].Sublist l) : ¬ [b, a].Sublist l := by
  induction l with
  | nil => exact fun _ => by simp at hab
  | cons x rest ih =>
    rw [List.nodup_cons] at hl
    intro hba
    rcases List.sublist_cons_iff.1 hab with hrest | ⟨t, ht, htail⟩
    · rcases List.sublist_cons_iff.1 hba with hrest' | ⟨t, ht, htail⟩
      · exact ih hl.2 hrest hrest'
      · obtain ⟨rfl, rfl⟩ := List.cons_eq_cons.1 ht
        exact hl.1 (hrest.subset (by simp))
    · obtain ⟨rfl, rfl⟩ := List.cons_eq_cons.1 ht
      have hmem : b ∈ rest := htail.subset (List.mem_singleton_self b)
      rcases List.sublist_cons_iff.1 hba with hrest' | ⟨t, ht, -⟩
      · exact hl.1 (hrest'.subset (by simp))
      · exact hl.1 ((List.cons_eq_cons.1 ht).1 ▸ hmem)

/-- A stable sort leaves entries that compare alike in the order they had. -/
theorem pairwise_mergeSort_stable {β : Type} {le : β → β → Bool} {before : β → β → Prop}
    (htrans : ∀ a b c, le a b = true → le b c = true → le a c = true)
    (htotal : ∀ a b, (le a b || le b a) = true) {l : List β} (hl : l.Nodup)
    (hbefore : l.Pairwise before) :
    (l.mergeSort le).Pairwise fun a b => le a b = true ∧ (le b a = true → before a b) := by
  have hperm : (l.mergeSort le).Perm l := List.mergeSort_perm l le
  have hnodup : (l.mergeSort le).Nodup := hperm.nodup_iff.2 hl
  have hsorted := List.pairwise_mergeSort htrans htotal l
  rw [List.pairwise_iff_forall_sublist] at hbefore hsorted ⊢
  intro a b hab
  refine ⟨hsorted hab, fun hle => ?_⟩
  have ha : a ∈ l := hperm.subset (hab.subset List.mem_cons_self)
  have hb : b ∈ l := hperm.subset (hab.subset (List.mem_cons_of_mem a List.mem_cons_self))
  have hne : a ≠ b := fun heq => by
    have hpair := hnodup.sublist hab
    simp [heq] at hpair
  obtain h | h := pair_sublist_or ha hb hne
  · exact hbefore h
  · have hswap := List.pair_sublist_mergeSort htrans htotal hle h
    exact absurd hswap (not_pair_sublist_swap hnodup hab)

namespace Ranking

variable {α : Type} [Quantity α] [LinearOrder α]

/-- One machine stands before another in decreasing order: it has the greater load, or the same
load and the smaller key. -/
def Precedes (k : Ranking α) (x y : VmId × Vm α) : Prop :=
  k.vmLoad y.2 < k.vmLoad x.2 ∨ k.vmLoad y.2 = k.vmLoad x.2 ∧ x.1 < y.1

variable [AddCommGroup α] [Quantity.Faithful α]

/-- The comparison by which loads are sorted in decreasing order. -/
theorem isLE_decreasing_iff {a b : α} :
    (SortOrder.decreasing.direct (Quantity.compare a b)).isLE = true ↔ b ≤ a := by
  rw [SortOrder.direct, Quantity.Faithful.compare_eq, Ordering.isLE_swap, ← Ordering.ne_lt_iff_isGE]
  exact compare_ge_iff_ge

/-- The machines of a host are sorted by decreasing load, those of equal load by key. -/
theorem exists_ranked (k : Ranking α) (h : Host α) :
    ∃ ranked : List (VmId × Vm α), ranked.Perm h.vms.entries ∧ ranked.Pairwise k.Precedes ∧
      ranked.map Prod.snd = k.sortVms .decreasing h.vms.values := by
  let le := fun x y : VmId × Vm α =>
    (SortOrder.decreasing.direct (Quantity.compare (k.vmLoad x.2) (k.vmLoad y.2))).isLE
  have htrans : ∀ x y z, le x y = true → le y z = true → le x z = true := fun x y z hxy hyz =>
    isLE_decreasing_iff.2 ((isLE_decreasing_iff.1 hyz).trans (isLE_decreasing_iff.1 hxy))
  have htotal : ∀ x y, (le x y || le y x) = true := by
    intro x y
    rw [Bool.or_eq_true]
    exact (le_total (k.vmLoad y.2) (k.vmLoad x.2)).imp isLE_decreasing_iff.2 isLE_decreasing_iff.2
  have hstable := pairwise_mergeSort_stable htrans htotal (.of_map _ h.vms.nodup_keys) h.vms.sorted
  refine ⟨h.vms.entries.mergeSort le, List.mergeSort_perm _ le, hstable.imp fun {x y} hxy => ?_, ?_⟩
  · exact (isLE_decreasing_iff.1 hxy.1).lt_or_eq.imp_right fun heq =>
      ⟨heq, hxy.2 (isLE_decreasing_iff.2 heq.ge)⟩
  · have hkeyed := List.map_mergeSort (l := h.vms.entries) (r := le)
      (s := fun a b : α × Vm α => (SortOrder.decreasing.direct (Quantity.compare a.1 b.1)).isLE)
      (f := fun x => (k.vmLoad x.2, x.2)) fun _ _ _ _ => rfl
    rw [sortVms, SortedMap.values, List.map_map]
    refine Eq.trans ?_ (congrArg (List.map fun x => x.2) hkeyed)
    rw [List.map_map]
    rfl

end Ranking

end ClusterControl
