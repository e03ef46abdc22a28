import Mathlib.Data.List.DropRight
import ClusterControl.Proofs.Codec.Inventory

/-!
# A history is an exact window

Whatever is done to a history, it holds what a plain list would hold that is cut to its last entries
after each push.  Writing a history and reading it back is one of the things that may be done: the
reader fills a new history push by push, and what comes out is the history that was written.

* `History.Act` is what may be done, and `Act.onList` the same for a plain list.
* `History.exists_act` is the comparison for one act and `History.exists_run` for any number.
* `History.exact_window` adds what the history shows, and what is read of a list of any length.
-/

namespace ClusterControl

variable {β : Type}

theorem lastEntries_eq_rtake (n : Nat) (l : List β) : lastEntries n l = l.rtake n := rfl

theorem rtake_suffix (n : Nat) (l : List β) : l.rtake n <:+ l := List.drop_suffix _ l

namespace History

/-! ## Acts -/

/-- What may be done to a history. -/
inductive Act (β : Type)
  | push (b : β)
  | clear
  | retainLatest (n : Nat)
  /-- The history is written and read back. -/
  | reload

namespace Act

/-- The entry that comes in. -/
def pushed? : Act β → Option β
  | push b => some b
  | _ => none

/-- The act on a plain list, which is cut to its last entries after a push. -/
def onList (capacity : Nat) (l : List β) : Act β → List β
  | push b => (l ++ [b]).rtake capacity
  | clear => []
  | retainLatest n => l.rtake n
  | reload => l

variable {capacity : Nat} {l pushed : List β}

/-- An entry of the list was on it before, or has come in. -/
theorem mem_onList {a : Act β} {b : β} (hb : b ∈ a.onList capacity l) : b ∈ l ∨ a = push b := by
  cases a with
  | push c =>
    obtain hl | hc := List.mem_append.1 ((rtake_suffix capacity (l ++ [c])).mem hb)
    · exact .inl hl
    · exact .inr (congrArg push (List.mem_singleton.1 hc).symm)
  | clear => exact absurd hb List.not_mem_nil
  | retainLatest n => exact .inl ((rtake_suffix n l).mem hb)
  | reload => exact .inl hb

/-- The list stays the end of all that has come in. -/
theorem onList_suffix (h : l <:+ pushed) (a : Act β) :
    a.onList capacity l <:+ pushed ++ [a].filterMap pushed? := by
  cases a with
  | push b =>
    obtain ⟨older, rfl⟩ := h
    have hconcat : l ++ [b] <:+ older ++ l ++ [b] := ⟨older, (List.append_assoc ..).symm⟩
    exact (rtake_suffix capacity _).trans hconcat
  | clear => exact List.nil_suffix
  | retainLatest n =>
    show l.rtake n <:+ pushed ++ []
    rw [List.append_nil]
    exact (rtake_suffix n l).trans h
  | reload =>
    show l <:+ pushed ++ []
    rwa [List.append_nil]

end Act

/-- What a plain list holds after the acts, starting with nothing. -/
def window (capacity : Nat) (acts : List (Act β)) : List β := acts.foldl (Act.onList capacity) []

/-- The window is the end of all that has come in, in the order in which it came. -/
theorem window_suffix (capacity : Nat) (acts : List (Act β)) :
    window capacity acts <:+ acts.filterMap Act.pushed? := by
  induction acts using List.reverseRecOn with
  | nil => exact List.nil_suffix
  | append_singleton acts a ih =>
    rw [window, List.foldl_append, List.filterMap_append]
    exact Act.onList_suffix ih a

section Reading

variable (entry : Decoder β) (e : β → Json)

/-- The history after an act; only reading back could fail. -/
def act (h : History β) : Act β → Except DecodeError (History β)
  | .push b => .ok (h.push b)
  | .clear => .ok h.clear
  | .retainLatest n => .ok (h.retainLatest n)
  | .reload => decode entry (h.encode e)

def run (h : History β) (acts : List (Act β)) : Except DecodeError (History β) :=
  acts.foldlM (act entry e) h

variable {entry e} {h : History β}

/-- A history whose entries are read back is itself read back. -/
theorem reload_eq (hcapacity : h.capacity ≤ maxNat64)
    (hentries : ∀ b ∈ h.entries, entry (e b) = .ok b) : decode entry (h.encode e) = .ok h :=
  decode_encode (Decoder.natUpTo_nat hcapacity) hentries

/-- One act: it succeeds, the capacity stays, and the entries are those of the plain list. -/
theorem exists_act (hcapacity : h.capacity ≤ maxNat64)
    (hentries : ∀ b ∈ h.entries, entry (e b) = .ok b) (a : Act β) :
    ∃ k, h.act entry e a = .ok k ∧ k.capacity = h.capacity ∧
      k.entries = a.onList h.capacity h.entries := by
  cases a with
  | push b =>
    refine ⟨h.push b, rfl, capacity_push h b, ?_⟩
    rw [entries_push, lastEntries_eq_rtake, Act.onList]
  | clear => exact ⟨h.clear, rfl, rfl, rfl⟩
  | retainLatest n => exact ⟨h.retainLatest n, rfl, rfl, lastEntries_eq_rtake n h.entries⟩
  | reload => exact ⟨h, reload_eq hcapacity hentries, rfl, rfl⟩

/-- Any acts, whose new entries are read back: each succeeds on what the one before it left. -/
theorem exists_run (hcapacity : h.capacity ≤ maxNat64)
    (hentries : ∀ b ∈ h.entries, entry (e b) = .ok b) {acts : List (Act β)}
    (hacts : ∀ b, .push b ∈ acts → entry (e b) = .ok b) :
    ∃ k, h.run entry e acts = .ok k ∧ k.capacity = h.capacity ∧
      k.entries = acts.foldl (Act.onList h.capacity) h.entries ∧
      ∀ b ∈ k.entries, entry (e b) = .ok b := by
  induction acts generalizing h with
  | nil => exact ⟨h, rfl, rfl, rfl, hentries⟩
  | cons a rest ih =>
    obtain ⟨k, hk, hkcapacity, hkentries⟩ := exists_act hcapacity hentries a
    have hkback : ∀ b ∈ k.entries, entry (e b) = .ok b := by
      intro b hb
      rw [hkentries] at hb
      obtain hold | hnew := Act.mem_onList hb
      · exact hentries b hold
      · exact hacts b (hnew ▸ List.mem_cons_self)
    obtain ⟨m, hm, hmcapacity, hmentries, hmback⟩ :=
      ih (hkcapacity ▸ hcapacity) hkback fun b hb => hacts b (List.mem_cons_of_mem a hb)
    refine ⟨m, ?_, hmcapacity.trans hkcapacity, ?_, hmback⟩
    · rw [run, List.foldlM_cons, hk, Except.ok_bind]
      exact hm
    · rw [hmentries, hkcapacity, hkentries, List.foldl_cons]

/-- A history that is written with any number of entries is read with the last of them. -/
theorem exists_decode {capacity : Nat} (hcapacity : capacity ≤ maxNat64) {js : List Json}
    {l : List β} (hl : Decoder.items entry js = .ok l) :
    ∃ k, decode entry (.object [("capacity", .nat capacity), ("entries", .array js)]) = .ok k ∧
      k.capacity = capacity ∧ k.entries = l.rtake capacity := by
  have hlist : Decoder.list entry (.array js) = .ok l := hl
  have hnat : Decoder.nat64 (.nat capacity) = .ok capacity := Decoder.natUpTo_nat hcapacity
  refine ⟨ofList capacity l, ?_, capacity_foldl_push l _, ?_⟩
  · rw [decode, Decoder.record_object]
    · simp [hnat, hlist]
    · decide
    · exact .refl _
  · rw [ofList, entries_foldl_push_eq, lastEntries_eq_rtake]
    rfl

/-! ## What a history shows -/

/-- What a history of some capacity shows after the acts. -/
structure Shows (capacity : Nat) (acts : List (Act β)) (h : History β) : Prop where
  capacity_eq : h.capacity = capacity
  entries_eq : h.entries = window capacity acts
  size_le : h.size ≤ capacity
  /-- The entries stand in the order in which they came in. -/
  oldest_first : h.entries <:+ acts.filterMap Act.pushed?
  /-- The latest entries are the end of them, as long as asked for if there are so many. -/
  latest : ∀ n, h.latest n <:+ h.entries ∧ (h.latest n).length = min n h.size

theorem shows_of_entries {capacity : Nat} {acts : List (Act β)} (hcapacity : h.capacity = capacity)
    (hentries : h.entries = window capacity acts) : h.Shows capacity acts where
  capacity_eq := hcapacity
  entries_eq := hentries
  size_le := hcapacity ▸ h.length_le
  oldest_first := hentries ▸ window_suffix capacity acts
  latest := by
    intro n
    refine ⟨?_, length_lastEntries n h.entries⟩
    rw [latest, lastEntries_eq_rtake]
    exact rtake_suffix n h.entries

/-- For any capacity of 64 bits, zero among them, and any pushes, clears, cuts and reloads, with
entries that are read back from their own written form: every act succeeds, the history shows
exactly the window of what has come in, and reading it back from its written form changes nothing.
A written list of entries, however long, is read with the last `capacity` of them. -/
theorem exact_window {capacity : Nat} (hcapacity : capacity ≤ maxNat64) {acts : List (Act β)}
    (hacts : ∀ b, .push b ∈ acts → entry (e b) = .ok b) :
    (∃ h, (empty capacity).run entry e acts = .ok h ∧ h.Shows capacity acts ∧
      decode entry (h.encode e) = .ok h) ∧
    ∀ js l, Decoder.items entry js = .ok l →
      ∃ k, decode entry (.object [("capacity", .nat capacity), ("entries", .array js)]) = .ok k ∧
        k.capacity = capacity ∧ k.entries = l.rtake capacity := by
  have hempty : ∀ b ∈ (empty capacity : History β).entries, entry (e b) = .ok b :=
    fun b hb => absurd hb List.not_mem_nil
  obtain ⟨h, hrun, hcap, hentries, hback⟩ := exists_run (h := empty capacity) hcapacity hempty hacts
  refine ⟨⟨h, hrun, shows_of_entries hcap hentries, ?_⟩, fun js l hl => exists_decode hcapacity hl⟩
  exact reload_eq (hcap.trans_le hcapacity) hback

end Reading

/-! ## Samples -/

/-- A sample of clamped amounts at a time of 64 bits is read back, so it may come in. -/
theorem decode_sample {t : Int} (ht : minInt64 ≤ t ∧ t ≤ maxInt64) (v : Resources Float) :
    Sample.decode (Sample.encode ⟨t, v.clamped⟩) = .ok ⟨t, v.clamped⟩ :=
  Sample.decode_encode (Decoder.intIn_int ht) (Resources.decode_encode_clamped v)

def sampleAt (t : Int) : Sample Float := ⟨t, Resources.clamped ⟨0.5, 512, 5, 0⟩⟩

/-- A history of two samples overflows, is cut to one and overflows again. -/
def overflows : List (Act (Sample Float)) :=
  [.push (sampleAt 0), .push (sampleAt 1), .reload, .push (sampleAt 2), .retainLatest 1, .reload,
    .push (sampleAt 3), .push (sampleAt 4)]

theorem exact_window_of_overflows :
    2 ≤ maxNat64 ∧ (∀ b, .push b ∈ overflows → Sample.decode b.encode = .ok b) ∧
    (∃ h, (empty 2).run Sample.decode Sample.encode overflows = .ok h ∧
      h.entries = [sampleAt 3, sampleAt 4] ∧ h.latest 1 = [sampleAt 4] ∧
      decode Sample.decode (h.encode Sample.encode) = .ok h) ∧
    ∃ k, decode Sample.decode (.object [("capacity", .nat 2),
        ("entries", .array ([sampleAt 0, sampleAt 1, sampleAt 2].map Sample.encode))]) = .ok k ∧
      k.entries = [sampleAt 1, sampleAt 2] := by
  have hcapacity : 2 ≤ maxNat64 := by decide
  have hback : ∀ t ∈ [0, 1, 2, 3, 4], Sample.decode (sampleAt t).encode = .ok (sampleAt t) := by
    intro t ht
    refine decode_sample ?_ _
    revert t
    decide
  have hacts : ∀ b, .push b ∈ overflows → Sample.decode b.encode = .ok b := by
    intro b hb
    simp only [overflows, List.mem_cons, Act.push.injEq, reduceCtorEq, false_or, List.not_mem_nil,
      or_false] at hb
    obtain rfl | rfl | rfl | rfl | rfl := hb <;> exact hback _ (by decide)
  obtain ⟨⟨h, hrun, hshows, hreload⟩, hread⟩ := exact_window hcapacity hacts
  have hentries : h.entries = [sampleAt 3, sampleAt 4] := hshows.entries_eq
  obtain ⟨k, hk, -, hkept⟩ := hread _ [sampleAt 0, sampleAt 1, sampleAt 2]
    (Decoder.items_map fun b hb => by
      simp only [List.mem_cons, List.not_mem_nil, or_false] at hb
      obtain rfl | rfl | rfl := hb <;> exact hback _ (by decide))
  exact ⟨hcapacity, hacts, ⟨h, hrun, hentries, by rw [latest, hentries]; rfl, hreload⟩, k, hk, hkept⟩

end History

end ClusterControl
