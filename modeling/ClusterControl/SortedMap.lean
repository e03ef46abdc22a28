/-!
# Maps in key order

A finite map from names to values, kept as a list of entries in strictly increasing key order.
Two maps with the same entries are equal, and reading the entries gives the order every listing
of hosts and machines uses.
-/

namespace ClusterControl

/-- Inserts or replaces one entry of a list in key order. -/
def SortedMap.insertEntry {β : Type} (k : String) (v : β) : List (String × β) → List (String × β)
  | [] => [(k, v)]
  | (k', v') :: rest =>
    if k < k' then (k, v) :: (k', v') :: rest
    else if k' < k then (k', v') :: SortedMap.insertEntry k v rest
    else (k, v) :: rest

/-- A key of the result of an insertion is the new one or an old one. -/
theorem SortedMap.mem_insertEntry {β : Type} {k : String} {v : β} {e : String × β} :
    ∀ {l : List (String × β)}, e ∈ SortedMap.insertEntry k v l → e = (k, v) ∨ e ∈ l
  | [], h => by simpa [insertEntry] using h
  | (k', v') :: rest, h => by
    unfold insertEntry at h
    split at h
    · simpa using h
    · split at h
      · rcases List.mem_cons.1 h with h | h
        · exact .inr (h ▸ List.mem_cons_self)
        · rcases mem_insertEntry h with h | h
          · exact .inl h
          · exact .inr (List.mem_cons_of_mem _ h)
      · rcases List.mem_cons.1 h with h | h
        · exact .inl h
        · exact .inr (List.mem_cons_of_mem _ h)

theorem SortedMap.pairwise_insertEntry {β : Type} (k : String) (v : β) :
    ∀ {l : List (String × β)}, l.Pairwise (fun a b => a.1 < b.1) →
      (SortedMap.insertEntry k v l).Pairwise (fun a b => a.1 < b.1)
  | [], _ => by simp [insertEntry]
  | (k', v') :: rest, h => by
    have hrest := (List.pairwise_cons.1 h).2
    have hhead := (List.pairwise_cons.1 h).1
    unfold insertEntry
    split
    · rename_i hlt
      refine List.pairwise_cons.2 ⟨fun e he => ?_, h⟩
      rcases List.mem_cons.1 he with rfl | he
      · exact hlt
      · exact String.lt_trans hlt (hhead e he)
    · rename_i hnlt
      split
      · rename_i hgt
        refine List.pairwise_cons.2 ⟨fun e he => ?_, pairwise_insertEntry k v hrest⟩
        rcases mem_insertEntry he with rfl | he
        · exact hgt
        · exact hhead e he
      · rename_i hngt
        have hk : k = k' := String.le_antisymm (String.not_lt.1 hngt) (String.not_lt.1 hnlt)
        exact List.pairwise_cons.2 ⟨fun e he => hk ▸ hhead e he, hrest⟩

/-- A finite map from names to values in increasing key order. -/
structure SortedMap (β : Type) where
  entries : List (String × β)
  sorted : entries.Pairwise (fun a b => a.1 < b.1)

namespace SortedMap

variable {β γ : Type}

@[ext]
theorem ext {m n : SortedMap β} (h : m.entries = n.entries) : m = n := by
  cases m; cases n; cases h; rfl

instance [DecidableEq β] : DecidableEq (SortedMap β) := fun m n =>
  if h : m.entries = n.entries then .isTrue (ext h) else .isFalse fun e => h (e ▸ rfl)

/-- The map with no entries. -/
def empty : SortedMap β := ⟨[], .nil⟩

instance : Inhabited (SortedMap β) := ⟨empty⟩

/-- The value filed under a key. -/
def get? (m : SortedMap β) (k : String) : Option β :=
  (m.entries.find? (·.1 == k)).map (·.2)

def contains (m : SortedMap β) (k : String) : Bool := (m.get? k).isSome

/-- Files a value under a key, replacing the one that was there. -/
def insert (m : SortedMap β) (k : String) (v : β) : SortedMap β :=
  ⟨insertEntry k v m.entries, pairwise_insertEntry k v m.sorted⟩

def erase (m : SortedMap β) (k : String) : SortedMap β :=
  ⟨m.entries.filter (·.1 != k), m.sorted.filter _⟩

/-- Changes every value, given its key; the keys stay. -/
def mapValues (m : SortedMap β) (f : String → β → γ) : SortedMap γ :=
  ⟨m.entries.map fun e => (e.1, f e.1 e.2), by
    rw [List.pairwise_map]; exact m.sorted⟩

/-- Changes the value under one key, if there is one. -/
def modify (m : SortedMap β) (k : String) (f : β → β) : SortedMap β :=
  m.mapValues fun k' v => if k' = k then f v else v

/-- Keeps the entries that pass a test. -/
def filter (m : SortedMap β) (p : String → β → Bool) : SortedMap β :=
  ⟨m.entries.filter fun e => p e.1 e.2, m.sorted.filter _⟩

/-- Files the pairs one after the other: of two with one key the later stays. -/
def ofList (l : List (String × β)) : SortedMap β :=
  l.foldl (fun m e => m.insert e.1 e.2) empty

def keys (m : SortedMap β) : List String := m.entries.map (·.1)

def values (m : SortedMap β) : List β := m.entries.map (·.2)

def size (m : SortedMap β) : Nat := m.entries.length

def isEmpty (m : SortedMap β) : Bool := m.entries.isEmpty

end SortedMap

end ClusterControl
