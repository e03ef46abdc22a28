import Mathlib.Data.List.Nodup
import Mathlib.Data.List.Pairwise
import ClusterControl.SortedMap

/-!
# Looking up keys of a map in key order

Each operation on a map is described by what it does to look-ups, and two maps with the same
look-ups are equal (`ext_get?`).  Nothing after this module unfolds the list of entries.
-/

namespace ClusterControl.SortedMap

variable {β γ : Type}

/-! ## Entries and look-ups -/

/-- The keys of a map are pairwise different. -/
theorem nodup_keys (m : SortedMap β) : m.keys.Nodup := by
  rw [keys, List.Nodup, List.pairwise_map]
  exact m.sorted.imp fun h => String.ne_of_lt h

/-- A look-up finds exactly the entry that is on the list. -/
theorem get?_eq_some_iff {m : SortedMap β} {k : String} {v : β} :
    m.get? k = some v ↔ (k, v) ∈ m.entries := by
  obtain ⟨entries, sorted⟩ := m
  have hnd : (entries.map (·.1)).Nodup := nodup_keys ⟨entries, sorted⟩
  simp only [get?]
  clear sorted
  induction entries with
  | nil => simp
  | cons e rest ih =>
    obtain ⟨k', v'⟩ := e
    rw [List.map_cons, List.nodup_cons] at hnd
    by_cases hk : k' = k
    · subst hk
      have hfresh : (k', v) ∉ rest := fun h => hnd.1 (List.mem_map.2 ⟨_, h, rfl⟩)
      simp [hfresh, eq_comm]
    · have hk' : ¬(k = k') := fun h => hk h.symm
      simp [hk, hk', ih hnd.2]

theorem get?_eq_none_iff {m : SortedMap β} {k : String} : m.get? k = none ↔ k ∉ m.keys := by
  rw [keys, List.mem_map, ← not_iff_not, not_not]
  constructor
  · intro h
    obtain ⟨v, hv⟩ := Option.ne_none_iff_exists'.1 h
    exact ⟨(k, v), get?_eq_some_iff.1 hv, rfl⟩
  · rintro ⟨⟨k', v⟩, hmem, rfl⟩ hnone
    rw [get?_eq_some_iff.2 hmem] at hnone
    exact absurd hnone (by simp)

theorem mem_keys_iff {m : SortedMap β} {k : String} : k ∈ m.keys ↔ (m.get? k).isSome := by
  rw [← not_iff_not, ← get?_eq_none_iff, Option.not_isSome_iff_eq_none]

theorem mem_values_iff {m : SortedMap β} {v : β} : v ∈ m.values ↔ ∃ k, m.get? k = some v := by
  simp only [values, List.mem_map, get?_eq_some_iff, Prod.exists]
  constructor
  · rintro ⟨k, w, hmem, rfl⟩
    exact ⟨k, hmem⟩
  · rintro ⟨k, hmem⟩
    exact ⟨k, v, hmem, rfl⟩

@[simp]
theorem contains_eq (m : SortedMap β) (k : String) : m.contains k = (m.get? k).isSome := rfl

theorem isEmpty_iff {m : SortedMap β} : m.isEmpty = true ↔ ∀ k, m.get? k = none := by
  rw [isEmpty, List.isEmpty_iff]
  constructor
  · intro h k
    rw [get?, h]
    rfl
  · intro h
    refine List.eq_nil_iff_forall_not_mem.2 ?_
    rintro ⟨k, v⟩ hmem
    rw [← get?_eq_some_iff, h k] at hmem
    exact absurd hmem (by simp)

/-- Maps that answer every look-up alike are equal. -/
theorem ext_get? {m n : SortedMap β} (h : ∀ k, m.get? k = n.get? k) : m = n := by
  refine SortedMap.ext (List.Perm.eq_of_pairwise ?_ m.sorted n.sorted ?_)
  · intro a b _ _ hab hba
    exact absurd (String.lt_trans hab hba) (String.lt_irrefl _)
  · refine (List.perm_ext_iff_of_nodup ?_ ?_).2 ?_
    · exact (List.Nodup.of_map _ m.nodup_keys)
    · exact (List.Nodup.of_map _ n.nodup_keys)
    · rintro ⟨k, v⟩
      rw [← get?_eq_some_iff, ← get?_eq_some_iff, h k]

/-! ## Look-ups after an operation -/

@[simp]
theorem get?_empty (k : String) : (empty : SortedMap β).get? k = none := rfl

@[grind =]
theorem get?_insert (m : SortedMap β) (k : String) (v : β) (k' : String) :
    (m.insert k v).get? k' = if k' = k then some v else m.get? k' := by
  simp only [get?, insert]
  induction m.entries with
  | nil =>
    by_cases hk : k = k'
    · simp [insertEntry, hk]
    · simp [insertEntry, hk, Ne.symm hk]
  | cons e rest ih =>
    obtain ⟨k₁, v₁⟩ := e
    unfold insertEntry
    split
    · by_cases hk : k = k'
      · simp [hk]
      · rw [List.find?_cons_of_neg (by simpa using hk), if_neg (Ne.symm hk)]
    · split
      · rename_i hlt
        have hne : k₁ ≠ k := String.ne_of_lt hlt
        by_cases hk : k₁ = k'
        · subst hk
          simp [hne]
        · rw [List.find?_cons_of_neg (by simpa using hk), ih,
            List.find?_cons_of_neg (by simpa using hk)]
      · rename_i hnlt hngt
        obtain rfl : k = k₁ := String.le_antisymm (String.not_lt.1 hngt) (String.not_lt.1 hnlt)
        by_cases hk : k = k'
        · simp [hk]
        · rw [List.find?_cons_of_neg (by simpa using hk), if_neg (Ne.symm hk),
            List.find?_cons_of_neg (by simpa using hk)]

@[grind =]
theorem get?_erase (m : SortedMap β) (k k' : String) :
    (m.erase k).get? k' = if k' = k then none else m.get? k' := by
  refine Option.ext fun v => ?_
  rw [get?_eq_some_iff]
  by_cases hk : k' = k
  · simp [erase, hk]
  · simp [erase, hk, get?_eq_some_iff]

@[grind =]
theorem get?_mapValues (m : SortedMap β) (f : String → β → γ) (k : String) :
    (m.mapValues f).get? k = (m.get? k).map (f k) := by
  simp only [get?, mapValues, List.find?_map, Option.map_map]
  have hp : ((fun e : String × γ => e.1 == k) ∘ fun e : String × β => (e.1, f e.1 e.2)) =
      fun e => e.1 == k := rfl
  rw [hp]
  cases hfind : m.entries.find? fun e => e.1 == k with
  | none => rfl
  | some e =>
    have hk : e.1 = k := by simpa using List.find?_some hfind
    simp [← hk]

@[grind =]
theorem get?_modify (m : SortedMap β) (k : String) (f : β → β) (k' : String) :
    (m.modify k f).get? k' = if k' = k then (m.get? k').map f else m.get? k' := by
  rw [modify, get?_mapValues]
  by_cases hk : k' = k <;> simp [hk]

/-- Erasing a key that is not there changes nothing. -/
theorem erase_eq_self {m : SortedMap β} {k : String} (h : m.get? k = none) : m.erase k = m := by
  refine ext_get? fun k' => ?_
  rw [get?_erase]
  by_cases hk : k' = k
  · rw [if_pos hk, hk, h]
  · rw [if_neg hk]

/-! ## Values that are changed one by one -/

theorem values_mapValues (m : SortedMap β) (f : β → γ) :
    (m.mapValues fun _ v => f v).values = m.values.map f := by
  rw [values, mapValues, values, List.map_map, List.map_map]
  rfl

theorem mapValues_mapValues {δ : Type} (m : SortedMap β) (f : β → γ) (g : γ → δ) :
    ((m.mapValues fun _ v => f v).mapValues fun _ v => g v) = m.mapValues fun _ v => g (f v) :=
  SortedMap.ext List.map_map

/-- Values that two functions treat alike give the same map. -/
theorem mapValues_congr {m : SortedMap β} {f g : β → γ} (h : ∀ v ∈ m.values, f v = g v) :
    (m.mapValues fun _ v => f v) = m.mapValues fun _ v => g v := by
  refine SortedMap.ext (List.map_congr_left fun e he => ?_)
  exact congrArg (e.1, ·) (h e.2 (List.mem_map_of_mem he))

theorem mapValues_insert (m : SortedMap β) (k : String) (v : β) (f : β → γ) :
    ((m.insert k v).mapValues fun _ v => f v) = (m.mapValues fun _ v => f v).insert k (f v) := by
  refine ext_get? fun k' => ?_
  simp only [get?_mapValues, get?_insert]
  split <;> rfl

theorem mapValues_erase (m : SortedMap β) (k : String) (f : β → γ) :
    ((m.erase k).mapValues fun _ v => f v) = (m.mapValues fun _ v => f v).erase k := by
  refine ext_get? fun k' => ?_
  simp only [get?_mapValues, get?_erase]
  split <;> rfl

/-! ## Entries after an insertion -/

/-- The entries after an insertion are the new one and those under other keys. -/
theorem perm_insert (m : SortedMap β) (k : String) (v : β) :
    (m.insert k v).entries.Perm ((k, v) :: (m.erase k).entries) := by
  have hfresh : (k, v) ∉ (m.erase k).entries := by
    rw [← get?_eq_some_iff, get?_erase, if_pos rfl]
    simp
  refine (List.perm_ext_iff_of_nodup (.of_map _ (m.insert k v).nodup_keys)
    (List.nodup_cons.2 ⟨hfresh, .of_map _ (m.erase k).nodup_keys⟩)).2 ?_
  rintro ⟨k', w⟩
  rw [List.mem_cons, ← get?_eq_some_iff, ← get?_eq_some_iff, get?_insert, get?_erase]
  by_cases hk : k' = k
  · simp [hk, eq_comm]
  · simp [hk]

/-- An entry and those under other keys are all there are. -/
theorem perm_of_get? {m : SortedMap β} {k : String} {v : β} (h : m.get? k = some v) :
    m.entries.Perm ((k, v) :: (m.erase k).entries) := by
  have hsame : m.insert k v = m := ext_get? fun k' => by
    rw [get?_insert]
    by_cases hk : k' = k
    · rw [if_pos hk, hk, h]
    · rw [if_neg hk]
  simpa only [hsame] using m.perm_insert k v

/-! ## Look-ups after many insertions or erasures -/

/-- Filing one value under many keys. -/
theorem get?_foldl_insert (ks : List String) (v : β) (m : SortedMap β) (k : String) :
    (ks.foldl (fun m k => m.insert k v) m).get? k = if k ∈ ks then some v else m.get? k := by
  induction ks generalizing m with
  | nil => simp
  | cons k₁ rest ih =>
    rw [List.foldl_cons, ih, get?_insert]
    by_cases hrest : k ∈ rest <;> by_cases hk : k = k₁ <;> simp [hrest, hk]

theorem get?_foldl_erase (ks : List String) (m : SortedMap β) (k : String) :
    (ks.foldl (fun m k => m.erase k) m).get? k = if k ∈ ks then none else m.get? k := by
  induction ks generalizing m with
  | nil => simp
  | cons k₁ rest ih =>
    rw [List.foldl_cons, ih, get?_erase]
    by_cases hrest : k ∈ rest <;> by_cases hk : k = k₁ <;> simp [hrest, hk]

/-! ## Maps filled from a list -/

/-- An entry of a map that was filled from a list is on the list. -/
theorem mem_of_get?_ofList {l : List (String × β)} {k : String} {b : β}
    (h : (ofList l).get? k = some b) : (k, b) ∈ l := by
  have hfold : ∀ (l : List (String × β)) (m : SortedMap β),
      (l.foldl (fun m e => m.insert e.1 e.2) m).get? k = some b →
        m.get? k = some b ∨ (k, b) ∈ l := by
    intro l
    induction l with
    | nil => exact fun m hm => .inl hm
    | cons x l ih =>
      intro m hm
      obtain hx | hl := ih _ hm
      · rw [get?_insert] at hx
        by_cases hk : k = x.1
        · rw [if_pos hk] at hx
          rw [hk, ← Option.some.inj hx]
          exact .inr List.mem_cons_self
        · rw [if_neg hk] at hx
          exact .inl hx
      · exact .inr (List.mem_cons_of_mem _ hl)
  obtain hempty | hmem := hfold l .empty h
  · rw [get?_empty] at hempty
    cases hempty
  · exact hmem

/-- A map is restored from its entries. -/
theorem ofList_entries (m : SortedMap β) : ofList m.entries = m := by
  have hfold : ∀ (l : List (String × β)) (m : SortedMap β) (k : String),
      (l.map (·.1)).Nodup → (l.foldl (fun m e => m.insert e.1 e.2) m).get? k =
        ((l.find? (·.1 == k)).map (·.2)).or (m.get? k) := by
    intro l
    induction l with
    | nil => intro m k _; rfl
    | cons x l ih =>
      intro m k hnodup
      rw [List.map_cons, List.nodup_cons] at hnodup
      rw [List.foldl_cons, ih _ k hnodup.2, get?_insert, List.find?_cons]
      by_cases hk : k = x.1
      · have hnone : l.find? (·.1 == k) = none := by
          rw [List.find?_eq_none]
          intro y hy heq
          exact hnodup.1 (hk ▸ (beq_iff_eq.1 heq) ▸ List.mem_map_of_mem hy)
        have hhead : (x.1 == k) = true := by simpa using hk.symm
        rw [hnone, hhead, if_pos hk]
        rfl
      · have hhead : (x.1 == k) = false := by simpa using Ne.symm hk
        rw [hhead, if_neg hk]
  refine ext_get? fun k => ?_
  rw [ofList, hfold m.entries .empty k m.nodup_keys, get?_empty, Option.or_none]
  rfl

end ClusterControl.SortedMap
