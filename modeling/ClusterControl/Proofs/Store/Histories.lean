import Mathlib.Data.List.Induction
import ClusterControl.Inventory.History

/-!
# What histories keep

A history keeps the last entries of all that it ever took in, as many as its capacity allows
(`History.entries_foldl_push_eq`), and a cut of it shows what it showed before in every window that
was kept (`History.latest_retainLatest`).
-/

namespace ClusterControl

variable {β : Type}

/-! ## The last entries of a list -/

/-- The last entries of the last entries are the last entries. -/
theorem lastEntries_lastEntries {m n : Nat} (h : m ≤ n) (l : List β) :
    lastEntries m (lastEntries n l) = lastEntries m l := by
  rw [lastEntries, lastEntries, List.drop_drop, lastEntries, List.length_drop]
  congr 1
  omega

@[simp]
theorem lastEntries_nil (n : Nat) : lastEntries n ([] : List β) = [] := List.drop_nil

theorem lastEntries_eq_nil_iff {n : Nat} {l : List β} :
    lastEntries n l = [] ↔ n = 0 ∨ l = [] := by
  rw [← List.length_eq_zero_iff, length_lastEntries, ← List.length_eq_zero_iff]
  omega

theorem lastEntries_of_length_le {n : Nat} {l : List β} (h : l.length ≤ n) :
    lastEntries n l = l := by
  rw [lastEntries, Nat.sub_eq_zero_of_le h, List.drop_zero]

/-- What was dropped already does not come back when more is appended. -/
theorem lastEntries_append (n : Nat) (l k : List β) :
    lastEntries n (lastEntries n l ++ k) = lastEntries n (l ++ k) := by
  simp only [lastEntries, List.drop_append, List.drop_drop, List.length_append, List.length_drop]
  congr 1
  · congr 1
    omega
  · congr 1
    omega

namespace History

/-! ## Cuts -/

/-- A history that is cut shows what it showed before in every window that was kept. -/
theorem latest_retainLatest {m n : Nat} (h : m ≤ n) (k : History β) :
    (k.retainLatest n).latest m = k.latest m :=
  lastEntries_lastEntries h k.entries

/-- Nothing can be cut from a history without entries. -/
theorem retainLatest_of_entries {k : History β} (h : k.entries = []) (n : Nat) :
    k.retainLatest n = k :=
  ext rfl (by simp only [retainLatest, h, lastEntries_nil])

/-! ## New entries -/

@[simp]
theorem capacity_push (h : History β) (b : β) : (h.push b).capacity = h.capacity := by
  unfold push
  split <;> rfl

theorem capacity_foldl_push (l : List β) (h : History β) :
    (l.foldl push h).capacity = h.capacity := by
  induction l generalizing h with
  | nil => rfl
  | cons b l ih => rw [List.foldl_cons, ih, capacity_push]

theorem entries_push (h : History β) (b : β) :
    (h.push b).entries = lastEntries h.capacity (h.entries ++ [b]) := by
  have hlength := h.length_le
  rw [push]
  split
  · rename_i hzero
    have hempty : h.entries = [] := List.length_eq_zero_iff.1 (by omega)
    rw [hempty, hzero]
    rfl
  · simp only [lastEntries, List.length_append, List.length_singleton, List.drop_append]
    have hrest : h.entries.length + 1 - h.capacity - h.entries.length = 0 := by omega
    rw [hrest, List.drop_zero]

/-- A history keeps the last entries of what it had and what it took in. -/
theorem entries_foldl_push_eq (h : History β) (l : List β) :
    (l.foldl push h).entries = lastEntries h.capacity (h.entries ++ l) := by
  induction l using List.reverseRecOn with
  | nil => rw [List.foldl_nil, List.append_nil, lastEntries_of_length_le h.length_le]
  | append_singleton l b ih =>
    rw [List.foldl_append, List.foldl_cons, List.foldl_nil, entries_push, ih, capacity_foldl_push,
      lastEntries_append, List.append_assoc]

/-- An entry of a history that took in a list was there before, or is on the list. -/
theorem mem_foldl_push {l : List β} {h : History β} {b : β}
    (hb : b ∈ (l.foldl push h).entries) : b ∈ h.entries ∨ b ∈ l := by
  rw [entries_foldl_push_eq] at hb
  exact List.mem_append.1 (List.mem_of_mem_drop hb)

/-- What fits into a history is appended to it. -/
theorem entries_foldl_push {l : List β} {h : History β}
    (hroom : h.entries.length + l.length ≤ h.capacity) :
    (l.foldl push h).entries = h.entries ++ l := by
  rw [entries_foldl_push_eq, lastEntries_of_length_le]
  rwa [List.length_append]

end History

end ClusterControl
