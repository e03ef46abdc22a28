import ClusterControl.Proofs.Store.Entries
import ClusterControl.Proofs.Store.Power

/-!
# Hosts that are switched

A workflow that changes the power of hosts claims them one after the other: each one has the status
that the workflow expects and gets another one, and nothing else in the store changes.

* `Store.Switches` says so of a list of hosts; such changes add up (`Store.Switches.trans`) and leave
  every machine as it is (`Store.Switches.sameOf`).
* `Store.switches_transition` says that one transition does it, and that the way back undoes it.
-/

namespace ClusterControl.Store

variable {α : Type} {s t u : Store α} {old new : HostStatus} {first rest : List HostId}

/-- From `s` to `s'` the hosts on the list, which had the status `old`, have got the status `new`,
and nothing else has changed. -/
structure Switches (old new : HostStatus) (s s' : Store α) (switched : List HostId) : Prop where
  before : ∀ id ∈ switched, s.status? id = some old
  hosts : ∀ id, s'.hosts.get? id =
    if id ∈ switched then (s.hosts.get? id).map (Host.withStatus · new) else s.hosts.get? id
  index : s'.index = s.index
  unassigned : s'.unassigned = s.unassigned

theorem Switches.refl (old new : HostStatus) (s : Store α) : s.Switches old new s [] :=
  ⟨fun _ h => absurd h List.not_mem_nil, fun _ => by simp, rfl, rfl⟩

theorem Switches.status (h : s.Switches old new t first) (id : HostId) :
    t.status? id = if id ∈ first then some new else s.status? id := by
  rw [status?, h.hosts]
  by_cases hid : id ∈ first
  · obtain ⟨k, hk, -⟩ := Option.map_eq_some_iff.1 (h.before id hid)
    simp [hid, hk, Host.withStatus]
  · simp [hid, status?]

/-- Hosts may be switched one after the other. -/
theorem Switches.trans (hne : old ≠ new) (h : s.Switches old new t first)
    (k : t.Switches old new u rest) : s.Switches old new u (first ++ rest) := by
  -- a host that was switched does not have the old status any more
  have hapart : ∀ id ∈ rest, id ∉ first := by
    intro id hid hfirst
    have hstatus := k.before id hid
    rw [h.status, if_pos hfirst] at hstatus
    exact hne (Option.some.inj hstatus).symm
  refine ⟨fun id hid => ?_, fun id => ?_, k.index.trans h.index, k.unassigned.trans h.unassigned⟩
  · rcases List.mem_append.1 hid with hid | hid
    · exact h.before id hid
    · have hstatus := k.before id hid
      rwa [h.status, if_neg (hapart id hid)] at hstatus
  · rw [k.hosts, h.hosts]
    by_cases hrest : id ∈ rest
    · simp [hrest, hapart id hrest]
    · simp [hrest]

/-- The machines of every host are where they were. -/
theorem Switches.recordOn (h : s.Switches old new t first) (id : HostId) (v : VmId) :
    t.recordOn id v = s.recordOn id v := by
  rw [Store.recordOn, h.hosts, Store.recordOn]
  by_cases hid : id ∈ first
  · rw [if_pos hid]
    cases s.hosts.get? id <;> rfl
  · rw [if_neg hid]

/-- Every machine is as it was. -/
theorem Switches.sameOf (h : s.Switches old new t first) (v : VmId) : SameOf s t v :=
  ⟨by rw [h.index], fun id => h.recordOn id v, by rw [h.unassigned]⟩

theorem Switches.empties_iff (h : s.Switches old new t first) (id : HostId) :
    t.Empties id ↔ s.Empties id := by
  simp only [Empties, h.recordOn]

theorem Switches.consistent (h : s.Switches old new t first) (hs : s.Consistent) :
    t.Consistent := by
  refine hs.refresh ⟨fun id => ?_, fun id v => by rw [h.recordOn], h.index,
    fun v => by rw [h.unassigned]⟩
  rw [h.hosts]
  by_cases hid : id ∈ first
  · rw [if_pos hid, Option.map_map]
    rfl
  · rw [if_neg hid]

theorem Switches.keyed (h : s.Switches old new t first) (hs : s.Keyed) : t.Keyed := by
  intro id k hget
  rw [h.hosts] at hget
  split at hget
  · obtain ⟨k', hk', rfl⟩ := Option.map_eq_some_iff.1 hget
    exact hs (h := k') hk'
  · exact hs hget

/-- A transition from the status that a host has switches it, and the way back undoes that. -/
theorem switches_transition {id : HostId} (h : s.status? id = some old) (new : HostStatus) :
    ∃ s', s.transition id old new = (.ok true, s') ∧ s.Switches old new s' [id] ∧
      s'.transition id new old = (.ok true, s) := by
  obtain ⟨k, hk, hstatus⟩ := Option.map_eq_some_iff.1 h
  have hback : (k.withStatus new).withStatus old = k := by
    rw [Host.withStatus, Host.withStatus, ← hstatus]
  have hrestored : (s.hosts.insert id (k.withStatus new)).insert id k = s.hosts := by
    refine SortedMap.ext_get? fun id' => ?_
    by_cases hid : id' = id <;> simp [SortedMap.get?_insert, hid, hk]
  refine ⟨{ s with hosts := s.hosts.insert id (k.withStatus new) }, ?_, ?_, ?_⟩
  · simp [transition, hk, hstatus]
  · refine ⟨fun id' hid => ?_, fun id' => ?_, rfl, rfl⟩
    · rw [List.mem_singleton.1 hid]
      exact h
    · by_cases hid : id' = id <;> simp [SortedMap.get?_insert, hid, hk]
  · have hswitched : (k.withStatus new).status = new := rfl
    simp [transition, SortedMap.get?_insert, hswitched, hback, hrestored]

end ClusterControl.Store
