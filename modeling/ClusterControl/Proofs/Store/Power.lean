import ClusterControl.Proofs.Store.Traffic

/-!
# Hosts that are awake

A host is awake unless it is passive.  Most requests leave the power of every host as it is: only
`Store.transition` and `Store.setHostStatus` change it.
-/

namespace ClusterControl.Store

variable {α : Type}

/-- The status of a host on record. -/
def status? (s : Store α) (id : HostId) : Option HostStatus := (s.hosts.get? id).map Host.status

/-- The host is known, and not passive. -/
def Awake (s : Store α) (id : HostId) : Prop := ∃ st, s.status? id = some st ∧ st ≠ .passive

/-- No machine is on record on the host. -/
def Empties (s : Store α) (id : HostId) : Prop := ∀ v, s.recordOn id v = none

theorem Awake.of_status {s t : Store α} {id : HostId} (h : s.Awake id)
    (hst : t.status? id = s.status? id) : t.Awake id := by
  obtain ⟨st, hget, hne⟩ := h
  exact ⟨st, hst.trans hget, hne⟩

/-- A host that sheds machines until none is left, or has none, stays without. -/
theorem Empties.sheds {s t : Store α} {id : HostId} (h : s.Empties id) (hst : s.Sheds t) :
    t.Empties id := by
  intro v
  by_contra hne
  obtain ⟨w', hw'⟩ := Option.ne_none_iff_exists'.1 hne
  obtain ⟨w, hw, -⟩ := hst.records hw'
  rw [h v] at hw
  exact absurd hw (by simp)

/-- A host that is shown is awake unless it is shown as passive. -/
theorem Shows.awake {s : Store α} {h : Host α} (hh : s.Shows h) (hstatus : h.isPassive = false) :
    s.Awake h.id := by
  obtain ⟨k, n, hget, rfl⟩ := hh
  have hpassive : (k.status == .passive) = false := hstatus
  refine ⟨k.status, ?_, fun he => ?_⟩
  · rw [status?, hget, Option.map_some]
  · rw [he] at hpassive
    exact absurd hpassive (by decide)

theorem hasVms_eq_false_iff {h : Host α} : h.hasVms = false ↔ ∀ v, h.vms.get? v = none := by
  rw [Host.hasVms, Bool.not_eq_false', SortedMap.isEmpty_iff]

theorem Shows.empties {s : Store α} {h : Host α} (hh : s.Shows h) (hvms : h.hasVms = false) :
    s.Empties h.id := by
  intro v
  have hnot : ¬h.Has v := by
    rw [Host.Has, hasVms_eq_false_iff.1 hvms v]
    simp
  rw [hh.has_iff] at hnot
  exact Option.not_isSome_iff_eq_none.1 hnot

/-- A host on record has no machines when none is on record there. -/
theorem empties_iff {s : Store α} {id : HostId} {h : Host α} (hget : s.hosts.get? id = some h) :
    s.Empties id ↔ h.hasVms = false := by
  rw [hasVms_eq_false_iff]
  exact forall_congr' fun v => by rw [recordOn_of_get? hget]

instance (s : Store α) (id : HostId) : Decidable (s.Empties id) :=
  match hget : s.hosts.get? id with
  | some _ => decidable_of_iff _ (empties_iff hget).symm
  | none => .isTrue fun v => recordOn_of_get?_none hget v

/-! ## Power and requests -/

theorem status_of_bare {s t : Store α} {id : HostId}
    (h : (t.hosts.get? id).map Host.bare = (s.hosts.get? id).map Host.bare) :
    t.status? id = s.status? id := by
  have hstatus : ∀ o : Option (Host α), o.map Host.status = (o.map Host.bare).map Host.status :=
    fun o => by rw [Option.map_map]; rfl
  rw [status?, status?, hstatus, h, ← hstatus]

theorem status_addHostSample (s : Store α) (id : HostId) (sample : Sample α) (id' : HostId) :
    (s.addHostSample id sample).2.status? id' = s.status? id' := by
  unfold addHostSample
  split
  · rename_i h hget
    rw [status?, SortedMap.get?_insert]
    by_cases hid : id' = id
    · rw [if_pos hid, hid, status?, hget]
      rfl
    · rw [if_neg hid, status?]
  · rfl

/-- A transition changes the power of its host, if that is the expected one. -/
theorem status_transition (s : Store α) (id : HostId) (expected next : HostStatus) (id' : HostId) :
    (s.transition id expected next).2.status? id' =
      if id' = id ∧ s.status? id = some expected then some next else s.status? id' := by
  unfold transition
  split
  · rename_i hget
    rw [if_neg]
    rintro ⟨-, hstatus⟩
    rw [status?, hget] at hstatus
    exact absurd hstatus (by simp)
  · rename_i h hget
    have hstatus : s.status? id = some h.status := by rw [status?, hget, Option.map_some]
    rw [hstatus]
    split
    · rename_i hexpected
      rw [status?, SortedMap.get?_insert]
      by_cases hid : id' = id
      · rw [if_pos hid, if_pos ⟨hid, by rw [hexpected]⟩]
        rfl
      · rw [if_neg hid, if_neg fun h => hid h.1, status?]
    · rename_i hexpected
      rw [if_neg fun h => hexpected (Option.some.inj h.2)]

/-- What a transition answers: whether the host was as expected. -/
theorem answer_transition {s : Store α} {id : HostId} {expected next : HostStatus} {done : Bool}
    (h : (s.transition id expected next).1 = .ok done) :
    ∃ st, s.status? id = some st ∧ (done = true ↔ st = expected) := by
  unfold transition at h
  split at h
  · exact absurd h (by simp)
  · rename_i k hget
    refine ⟨k.status, by rw [status?, hget, Option.map_some], ?_⟩
    split at h
    · rename_i hexpected
      rw [← Except.ok.inj h]
      exact ⟨fun _ => hexpected, fun _ => rfl⟩
    · rename_i hexpected
      rw [← Except.ok.inj h]
      exact ⟨(by simp), fun he => absurd he hexpected⟩

end ClusterControl.Store
