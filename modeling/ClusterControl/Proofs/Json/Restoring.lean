import ClusterControl.Json.Dialect
import ClusterControl.Proofs.SortedMap

/-!
# Decoders that restore what they have read

A decoder may clean what it reads, so what is written afterwards need not be what was read.  It
restores its values when each value that it has read is read back, as it is, from its own written
form.

* `Decoder.Restores` is this property; scalars have it, and lists, maps and values that may be null
  inherit it from their parts.
* `Decoder.record_object` says that a record is read member by member from the members that its
  writer lists; `Restores.required` and its companions pass the property from a field to a record.
-/

namespace ClusterControl

/-- A sequence of two readings succeeds when each does. -/
theorem Except.exists_of_bind {ε β γ : Type} {x : Except ε β} {f : β → Except ε γ} {c : γ}
    (h : (x >>= f) = .ok c) : ∃ b, x = .ok b ∧ f b = .ok c := by
  cases x with
  | error e => exact absurd h (by simp [bind, Except.bind])
  | ok b => exact ⟨b, rfl, h⟩

@[simp]
theorem Except.ok_bind {ε β γ : Type} (b : β) (f : β → Except ε γ) : (.ok b >>= f) = f b := rfl

@[simp]
theorem Except.pure_eq_ok {ε β : Type} (b : β) : (pure b : Except ε β) = .ok b := rfl

theorem Except.exists_of_map {ε β γ : Type} {x : Except ε β} {f : β → γ} {c : γ}
    (h : f <$> x = .ok c) : ∃ b, x = .ok b ∧ f b = c := by
  cases x with
  | error e => cases h
  | ok b => exact ⟨b, rfl, Except.ok.inj h⟩

namespace Decoder

variable {β : Type} {d : Decoder β} {e : β → Json}

/-- Each value that the decoder has read is read back from its written form. -/
def Restores (d : Decoder β) (e : β → Json) : Prop := ∀ j v, d j = .ok v → d (e v) = .ok v

/-! ## Scalars -/

theorem bounds_of_intIn {lo hi : Int} {j : Json} {i : Int} (h : intIn lo hi j = .ok i) :
    lo ≤ i ∧ i ≤ hi := by
  unfold intIn at h
  split at h
  · split at h
    · rename_i hbounds
      rwa [← Except.ok.inj h]
    · cases h
  · cases h

theorem intIn_int {lo hi i : Int} (h : lo ≤ i ∧ i ≤ hi) : intIn lo hi (.int i) = .ok i :=
  if_pos h

theorem restores_intIn (lo hi : Int) : Restores (intIn lo hi) .int := fun _ _ h =>
  intIn_int (bounds_of_intIn h)

theorem restores_int64 : Restores int64 .int := restores_intIn _ _

/-- A count within the bound is read back. -/
theorem natUpTo_nat {hi n : Nat} (h : n ≤ hi) : natUpTo hi (.nat n) = .ok n := by
  rw [natUpTo, Json.nat, intIn_int ⟨Int.natCast_nonneg n, Int.ofNat_le.2 h⟩]
  rfl

theorem restores_natUpTo (hi : Nat) : Restores (natUpTo hi) .nat := by
  intro j n h
  obtain ⟨i, hi', rfl⟩ := Except.exists_of_map h
  obtain ⟨-, hup⟩ := bounds_of_intIn hi'
  exact natUpTo_nat (Int.toNat_le.2 hup)

theorem restores_nat64 : Restores nat64 .nat := restores_natUpTo _

/-- Only finite numbers are read. -/
theorem isFinite_of_float {j : Json} {x : Float} (h : float j = .ok x) : x.isFinite = true := by
  have hread : ∀ y : Float, (if y.isFinite = true then Except.ok y
      else .error DecodeError.outOfRange) = .ok x → x.isFinite = true := by
    intro y hy
    by_cases hfinite : y.isFinite = true
    · rw [if_pos hfinite] at hy
      rwa [← Except.ok.inj hy]
    · rw [if_neg hfinite] at hy
      cases hy
  cases j with
  | number n =>
    cases n with
    | whole i => exact hread (Float.ofInt i) h
    | double y => exact hread y h
  | _ => cases h

theorem float_float {x : Float} (h : x.isFinite = true) : float (.float x) = .ok x := if_pos h

theorem restores_float : Restores float .float := fun _ _ h =>
  float_float (isFinite_of_float h)

/-- What is found by its name is found again, whatever the other names are. -/
theorem choice_of_find {all : List β} {key : β → String} {s : String} {b : β}
    (h : all.find? (fun c => key c == s) = some b) :
    choice all key (.string (key b)) = .ok b := by
  have hkey : key b = s := by simpa using List.find?_some h
  simp only [choice, hkey, h]

theorem restores_choice (all : List β) (key : β → String) :
    Restores (choice all key) fun b => .string (key b) := by
  intro j b h
  unfold choice at h
  dsimp only at h
  split at h
  · split at h
    · rename_i hfind
      rw [← Except.ok.inj h]
      exact choice_of_find hfind
    · cases h
  · obtain ⟨c, hc, h⟩ := Except.exists_of_bind h
    have hcb : choice all key (.string (key c)) = .ok c := by
      split at hc
      · rename_i hfind
        rw [← Except.ok.inj hc]
        exact choice_of_find hfind
      · cases hc
    split at h
    · rwa [← Except.ok.inj h]
    · cases h
    · cases h
  · cases h

/-! ## Values that may be null, lists and maps -/

/-- A value that is not null is read as one. -/
theorem nullable_of_ne_null {j : Json} (hj : j ≠ .null) : nullable d j = some <$> d j := by
  cases j with
  | null => exact absurd rfl hj
  | _ => rfl

theorem Restores.of_nullable (h : Restores d e) {j : Json} {b : β}
    (hj : nullable d j = .ok (some b)) : d (e b) = .ok b := by
  by_cases hnull : j = .null
  · subst hnull
    cases hj
  · rw [nullable_of_ne_null hnull] at hj
    obtain ⟨c, hc, heq⟩ := Except.exists_of_map hj
    rw [Option.some.inj heq] at hc
    exact h _ _ hc

/-- Every item of a list that was read is restored. -/
theorem Restores.of_mem_items (h : Restores d e) {js : List Json} {l : List β}
    (hl : items d js = .ok l) : ∀ b ∈ l, d (e b) = .ok b := by
  induction js generalizing l with
  | nil =>
    rw [← Except.ok.inj hl]
    exact fun b hb => absurd hb List.not_mem_nil
  | cons j js ih =>
    obtain ⟨b, hb, hrest⟩ := Except.exists_of_bind hl
    obtain ⟨bs, hbs, hcons⟩ := Except.exists_of_bind hrest
    rw [← Except.ok.inj hcons]
    exact List.forall_mem_cons.2 ⟨h _ _ hb, ih hbs⟩

theorem items_map {l : List β} (h : ∀ b ∈ l, d (e b) = .ok b) : items d (l.map e) = .ok l := by
  induction l with
  | nil => rfl
  | cons b l ih =>
    obtain ⟨hb, hl⟩ := List.forall_mem_cons.1 h
    rw [List.map_cons, items, hb, ih hl]
    rfl

theorem Restores.of_mem_list (h : Restores d e) {j : Json} {l : List β} (hl : list d j = .ok l) :
    ∀ b ∈ l, d (e b) = .ok b := by
  unfold list at hl
  split at hl
  · exact h.of_mem_items hl
  · cases hl

theorem Restores.list (h : Restores d e) : Restores (list d) fun l => .array (l.map e) :=
  fun _ _ hl => items_map (h.of_mem_list hl)

/-- Every value of an object that was read is restored. -/
theorem Restores.of_mem_members (h : Restores d e) {ms : List (String × Json)}
    {l : List (String × β)} (hl : members d ms = .ok l) : ∀ x ∈ l, d (e x.2) = .ok x.2 := by
  induction ms generalizing l with
  | nil =>
    rw [← Except.ok.inj hl]
    exact fun x hx => absurd hx List.not_mem_nil
  | cons m ms ih =>
    obtain ⟨b, hb, hrest⟩ := Except.exists_of_bind hl
    obtain ⟨bs, hbs, hcons⟩ := Except.exists_of_bind hrest
    rw [← Except.ok.inj hcons]
    exact List.forall_mem_cons.2 ⟨h _ _ hb, ih hbs⟩

theorem members_map {l : List (String × β)} (h : ∀ x ∈ l, d (e x.2) = .ok x.2) :
    members d (l.map fun x => (x.1, e x.2)) = .ok l := by
  induction l with
  | nil => rfl
  | cons x l ih =>
    obtain ⟨hx, hl⟩ := List.forall_mem_cons.1 h
    rw [List.map_cons, members, hx, ih hl]
    rfl

theorem Restores.map (h : Restores d e) :
    Restores (map d) fun m => .object (m.entries.map fun x => (x.1, e x.2)) := by
  intro j m hm
  unfold Decoder.map at hm
  split at hm
  · obtain ⟨l, hl, rfl⟩ := Except.exists_of_map hm
    have hentries : ∀ x ∈ (SortedMap.ofList l).entries, d (e x.2) = .ok x.2 := by
      intro x hx
      have hget := SortedMap.get?_eq_some_iff.2 hx
      exact h.of_mem_members hl x (SortedMap.mem_of_get?_ofList hget)
    rw [Decoder.map, members_map hentries]
    exact congrArg Except.ok (SortedMap.ofList_entries _)
  · cases hm

/-! ## Records -/

/-- A member whose name is not asked for does not count. -/
theorem pick_cons_of_not_mem {m : String × Json} {ms : List (String × Json)} {fields : List String}
    (h : m.1 ∉ fields) : pick (m :: ms) fields = pick ms fields := by
  induction fields with
  | nil => rfl
  | cons f fields ih =>
    rw [List.mem_cons, not_or] at h
    have hname : (m.1 == f) = false := by simpa using h.1
    rw [pick, pick, List.filter_cons_of_neg (by simp [hname]), ih h.2]

/-- The members that a writer lists in the order of the fields are picked as they stand. -/
theorem pick_of_sublist {ms : List (String × Json)} {fields : List String} (hnodup : fields.Nodup)
    (h : (ms.map (·.1)).Sublist fields) : pick ms fields = .ok ms := by
  induction fields generalizing ms with
  | nil =>
    have hnil : ms = [] := List.map_eq_nil_iff.1 (List.sublist_nil.1 h)
    rw [hnil, pick]
  | cons f fields ih =>
    obtain ⟨hf, hrest⟩ := List.nodup_cons.1 hnodup
    have hfilter : ∀ {l : List (String × Json)}, f ∉ l.map (·.1) → l.filter (·.1 == f) = [] := by
      intro l hl
      rw [List.filter_eq_nil_iff]
      intro m hm heq
      exact hl (beq_iff_eq.1 heq ▸ List.mem_map_of_mem hm)
    rw [pick]
    cases ms with
    | nil => exact ih hrest (List.nil_sublist _)
    | cons m ms =>
      rw [List.map_cons] at h
      by_cases hm : m.1 = f
      · rw [hm, List.cons_sublist_cons] at h
        have hnone : f ∉ ms.map (·.1) := fun hmem => hf (h.subset hmem)
        rw [List.filter_cons_of_pos (by simpa using hm), hfilter hnone]
        dsimp only
        rw [pick_cons_of_not_mem (hm ▸ hf), ih hrest h]
        rfl
      · have hskip : ((m :: ms).map (·.1)).Sublist fields := by
          rw [List.map_cons]
          obtain hsub | ⟨l, heq, -⟩ := List.sublist_cons_iff.1 h
          · exact hsub
          · exact absurd (List.cons.inj heq).1 hm
        rw [hfilter fun hmem => hf (hskip.subset hmem)]
        exact ih hrest hskip

/-- A record that is written member by member is read member by member. -/
theorem record_object {ms : List (String × Json)} {fields : List String} (hnodup : fields.Nodup)
    (h : (ms.map (·.1)).Sublist fields) : record fields (.object ms) = .ok ⟨false, ms⟩ := by
  rw [record, pick_of_sublist hnodup h]
  rfl

namespace Fields

@[simp]
theorem slot_cons (p : Bool) (f g : String) (j : Json) (ms : List (String × Json)) :
    slot ⟨p, (g, j) :: ms⟩ f = if g = f then some j else slot ⟨p, ms⟩ f := by
  rw [slot, List.find?_cons]
  by_cases h : g = f
  · rw [if_pos h, beq_iff_eq.2 h]
    rfl
  · rw [if_neg h, beq_false_of_ne h]
    rfl

@[simp]
theorem slot_nil (p : Bool) (f : String) : slot ⟨p, []⟩ f = none := rfl

attribute [simp] required withDefault optional

end Fields

/-- A field that was read is restored. -/
theorem Restores.required (h : Restores d e) {r : Fields} {f : String} {b : β}
    (hb : r.required f d = .ok b) : d (e b) = .ok b := by
  unfold Fields.required at hb
  split at hb
  · exact h _ _ hb
  · cases hb

/-- A field that was read or left out is restored when its default is. -/
theorem Restores.withDefault (h : Restores d e) {r : Fields} {f : String} {b default : β}
    (hdefault : d (e default) = .ok default) (hb : r.withDefault f d default = .ok b) :
    d (e b) = .ok b := by
  unfold Fields.withDefault at hb
  split at hb
  · exact h _ _ hb
  · rwa [← Except.ok.inj hb]

/-- A value in a field that may be left out or null is restored. -/
theorem Restores.orNone (h : Restores d e) {r : Fields} {f : String} {b : β}
    (hb : r.withDefault f (nullable d) none = .ok (some b)) : d (e b) = .ok b := by
  unfold Fields.withDefault at hb
  split at hb
  · exact h.of_nullable hb
  · cases hb

end Decoder

/-! ## Values of their own type -/

namespace Dialect

theorem record_strict : strict.record = Decoder.record := rfl

theorem string_strict : strict.string = Decoder.string := rfl

theorem bool_strict : strict.bool = Decoder.bool := rfl

theorem float_strict : strict.float = Decoder.float := rfl

theorem nat64_strict : strict.nat64 = Decoder.nat64 := rfl

theorem choice_strict {β : Type} (all : List β) (key : β → String) :
    strict.choice all key = Decoder.choice all key := rfl

end Dialect

end ClusterControl
