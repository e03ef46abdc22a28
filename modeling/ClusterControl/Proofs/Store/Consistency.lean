import ClusterControl.Inventory.Request
import ClusterControl.Proofs.SortedMap

/-!
# Consistency of the inventory

The store keeps three maps: the hosts with their machines, the index, and the unassigned machines.

* `Store.Placed` says that they agree on where a machine is: the index names the host that lists it,
  and nothing is listed twice.
* `Store.Filed` adds that the records on hosts are under their own ids, and `Store.Consistent` that
  each record names the place it is in.
* `Store.Refreshes` are the changes of statuses and samples.  They keep all three, since no machine
  changes place.
-/

namespace ClusterControl

variable {α : Type}

/-- What identifies a machine, where it is recorded, and what it asked for. -/
def Vm.outline (v : Vm α) : VmId × Option HostId × Resources α := (v.id, v.hostId, v.requested)

/-- What identifies a host, and what it offers. -/
def Host.outline (h : Host α) : HostId × Resources α := (h.id, h.capacity)

/-- A host without its machines. -/
def Host.bare (h : Host α) : Host α := { h with vms := .empty }

@[simp]
theorem Host.bare_assign (h : Host α) (vm : Vm α) : (h.assign vm).bare = h.bare := rfl

@[simp]
theorem Host.bare_unassign (h : Host α) (vm : VmId) : (h.unassign vm).bare = h.bare := rfl

theorem Host.id_of_bare {h k : Host α} (hbare : h.bare = k.bare) : h.id = k.id :=
  (congrArg Host.id hbare : h.bare.id = k.bare.id)

theorem Host.capacity_of_bare {h k : Host α} (hbare : h.bare = k.bare) : h.capacity = k.capacity :=
  (congrArg Host.capacity hbare : h.bare.capacity = k.bare.capacity)

/-- A machine is filed on the host under an id. -/
def Host.Has (h : Host α) (v : VmId) : Prop := (h.vms.get? v).isSome = true

theorem Host.has_assign (h : Host α) (vm : Vm α) (v : VmId) :
    (h.assign vm).Has v ↔ v = vm.id ∨ h.Has v := by
  rw [Has, Host.assign, SortedMap.get?_insert]
  by_cases hv : v = vm.id <;> simp [hv, Has]

namespace Store

/-- The record of a machine on one host. -/
def recordOn (s : Store α) (host : HostId) (vm : VmId) : Option (Vm α) :=
  (s.hosts.get? host).bind fun h => h.vms.get? vm

/-- Every machine of the store is in one place: on the one host that the index names for it, or
among the unassigned machines, when the index names none. -/
structure Placed (s : Store α) : Prop where
  indexed : ∀ {v id}, s.index.get? v = some id ↔ (s.recordOn id v).isSome = true
  apart : ∀ {v id}, (s.unassigned.get? v).isSome = true → s.recordOn id v = none

/-- Every machine is in one place, and on a host it is filed under its own id.  Its record may name
any host, or none. -/
structure Filed (s : Store α) : Prop extends Placed s where
  own_id : ∀ {id v w}, s.recordOn id v = some w → w.id = v

/-- The three maps of a store agree on where each machine is. -/
structure Consistent (s : Store α) : Prop where
  host_id : ∀ {id h}, s.hosts.get? id = some h → h.id = id
  indexed : ∀ {v id}, s.index.get? v = some id ↔ (s.recordOn id v).isSome = true
  apart : ∀ {v id}, (s.unassigned.get? v).isSome = true → s.recordOn id v = none
  on_host : ∀ {id v w}, s.recordOn id v = some w → w.id = v ∧ w.hostId = some id
  off_host : ∀ {v w}, s.unassigned.get? v = some w → w.id = v ∧ w.hostId = none

theorem consistent_empty : (empty : Store α).Consistent where
  host_id h := by simp [empty] at h
  indexed := by simp [empty, recordOn]
  apart h := by simp [empty] at h
  on_host h := by simp [empty, recordOn] at h
  off_host h := by simp [empty] at h

theorem recordOn_of_get? {s : Store α} {id : HostId} {h : Host α} (hget : s.hosts.get? id = some h)
    (v : VmId) : s.recordOn id v = h.vms.get? v := by
  rw [recordOn, hget, Option.bind_some]

theorem recordOn_of_get?_none {s : Store α} {id : HostId} (hget : s.hosts.get? id = none)
    (v : VmId) : s.recordOn id v = none := by
  rw [recordOn, hget, Option.bind_none]

/-- Records on hosts depend on the hosts alone. -/
@[simp]
theorem recordOn_hosts (s : Store α) (ix : SortedMap HostId) (un : SortedMap (Vm α)) (id : HostId)
    (v : VmId) : recordOn ⟨s.hosts, ix, un⟩ id v = s.recordOn id v := rfl

/-- Replacing one host replaces the records on it. -/
theorem recordOn_insert (s : Store α) (id : HostId) (h : Host α) (ix : SortedMap HostId)
    (un : SortedMap (Vm α)) (id' : HostId) (v : VmId) :
    recordOn ⟨s.hosts.insert id h, ix, un⟩ id' v =
      if id' = id then h.vms.get? v else s.recordOn id' v := by
  rw [recordOn, SortedMap.get?_insert]
  by_cases hid : id' = id
  · rw [if_pos hid, if_pos hid, Option.bind_some]
  · rw [if_neg hid, if_neg hid, recordOn]

/-- Taking a machine off a host takes its record away there. -/
theorem recordOn_unassign (hosts : SortedMap (Host α)) (p : HostId) (vm : VmId)
    (ix : SortedMap HostId) (un : SortedMap (Vm α)) (id : HostId) (v : VmId) :
    recordOn ⟨hosts.modify p fun h => h.unassign vm, ix, un⟩ id v =
      if id = p ∧ v = vm then none else recordOn ⟨hosts, ix, un⟩ id v := by
  simp only [recordOn, SortedMap.get?_modify, Host.unassign]
  by_cases hid : id = p
  · cases hget : hosts.get? id with
    | none => simp [hid]
    | some h => by_cases hv : v = vm <;> simp [hid, hv, SortedMap.get?_erase]
  · simp [hid]

/-- Filing a machine on a host puts its record there. -/
theorem recordOn_assign {hosts : SortedMap (Host α)} {p : HostId} {k : Host α}
    (hget : hosts.get? p = some k) (vm : Vm α) (ix : SortedMap HostId) (un : SortedMap (Vm α))
    (id : HostId) (v : VmId) :
    recordOn ⟨hosts.modify p fun h => h.assign vm, ix, un⟩ id v =
      if id = p ∧ v = vm.id then some (vm.on k.id) else recordOn ⟨hosts, ix, un⟩ id v := by
  simp only [recordOn, SortedMap.get?_modify, Host.assign]
  by_cases hid : id = p
  · by_cases hv : v = vm.id <;> simp [hid, hv, hget, SortedMap.get?_insert]
  · simp [hid]

theorem Consistent.filed {s : Store α} (hs : s.Consistent) : s.Filed :=
  ⟨⟨hs.indexed, hs.apart⟩, fun h => (hs.on_host h).1⟩

theorem Consistent.placed {s : Store α} (hs : s.Consistent) : s.Placed := hs.filed.toPlaced

namespace Placed

variable {s : Store α}

theorem index_of_recordOn (hs : s.Placed) {v : VmId} {id : HostId} {w : Vm α}
    (h : s.recordOn id v = some w) : s.index.get? v = some id :=
  hs.indexed.2 (by rw [h]; rfl)

/-- No two hosts record a machine. -/
theorem eq_of_recordOn (hs : s.Placed) {v : VmId} {id id' : HostId}
    (h : (s.recordOn id v).isSome = true) (h' : (s.recordOn id' v).isSome = true) : id = id' := by
  have hid := hs.indexed.2 h
  rw [hs.indexed.2 h'] at hid
  exact (Option.some.inj hid).symm

/-- A machine is recorded on one host only. -/
theorem recordOn_unique (hs : s.Placed) {v : VmId} {id id' : HostId} {w w' : Vm α}
    (h : s.recordOn id v = some w) (h' : s.recordOn id' v = some w') : id = id' :=
  hs.eq_of_recordOn (by rw [h]; rfl) (by rw [h']; rfl)

/-- A machine is on no host but the one that the index names. -/
theorem recordOn_of_hostOf_ne (hs : s.Placed) {v : VmId} {id : HostId}
    (h : s.hostOf v ≠ some id) : s.recordOn id v = none := by
  by_contra hsome
  obtain ⟨w, hw⟩ := Option.ne_none_iff_exists'.1 hsome
  exact h (hs.index_of_recordOn hw)

theorem recordOn_of_index_none (hs : s.Placed) {v : VmId} (h : s.index.get? v = none)
    (id : HostId) : s.recordOn id v = none :=
  hs.recordOn_of_hostOf_ne (by simp [hostOf, h])

theorem recordOn_of_index_ne (hs : s.Placed) {v : VmId} {p id : HostId}
    (h : s.index.get? v = some p) (hne : id ≠ p) : s.recordOn id v = none :=
  hs.recordOn_of_hostOf_ne (by simp [hostOf, h, hne.symm])

/-- A machine on a host is not unassigned. -/
theorem unassigned_of_recordOn (hs : s.Placed) {v : VmId} {id : HostId} {w : Vm α}
    (h : s.recordOn id v = some w) : s.unassigned.get? v = none := by
  by_contra hsome
  rw [hs.apart (Option.isSome_iff_ne_none.2 hsome)] at h
  exact absurd h (by simp)

/-- The record that the index points to is there. -/
theorem recordOn_of_index (hs : s.Placed) {v : VmId} {p : HostId}
    (h : s.index.get? v = some p) : ∃ w, s.recordOn p v = some w :=
  Option.isSome_iff_exists.1 (hs.indexed.1 h)

end Placed

/-! ## Changes that leave every machine where it is -/

/-- From `s` to `s'` no machine changes place or what it asked for, and no host what it offers;
statuses and samples may change. -/
structure Refreshes (s s' : Store α) : Prop where
  hosts : ∀ id, (s'.hosts.get? id).map Host.outline = (s.hosts.get? id).map Host.outline
  recordOn : ∀ id v, (s'.recordOn id v).map Vm.outline = (s.recordOn id v).map Vm.outline
  index : s'.index = s.index
  unassigned : ∀ v, (s'.unassigned.get? v).map Vm.outline = (s.unassigned.get? v).map Vm.outline

theorem Refreshes.refl (s : Store α) : Refreshes s s :=
  ⟨fun _ => rfl, fun _ _ => rfl, rfl, fun _ => rfl⟩

/-- A value with the same image under a function on either side of an equality of options. -/
theorem exists_of_map_eq {β γ : Type} {f : β → γ} {o o' : Option β} {b : β}
    (h : o'.map f = o.map f) (hb : o' = some b) : ∃ a, o = some a ∧ f b = f a := by
  rw [hb, Option.map_some, eq_comm, Option.map_eq_some_iff] at h
  obtain ⟨a, ha, heq⟩ := h
  exact ⟨a, ha, heq.symm⟩

theorem Placed.refresh {s s' : Store α} (hs : s.Placed) (h : Refreshes s s') : s'.Placed := by
  have hsome : ∀ id v, (s'.recordOn id v).isSome = (s.recordOn id v).isSome := fun id v => by
    rw [← Option.isSome_map (f := Vm.outline), h.recordOn, Option.isSome_map]
  constructor
  · intro v id
    rw [h.index, hsome]
    exact hs.indexed
  · intro v id hv
    rw [← Option.isSome_map (f := Vm.outline), h.unassigned, Option.isSome_map] at hv
    rw [← Option.not_isSome_iff_eq_none, hsome, hs.apart hv]
    simp

theorem Filed.refresh {s s' : Store α} (hs : s.Filed) (h : Refreshes s s') : s'.Filed := by
  refine ⟨hs.toPlaced.refresh h, fun {id v w'} hget => ?_⟩
  obtain ⟨w, hold, heq⟩ := exists_of_map_eq (h.recordOn id v) hget
  have hid : w'.id = w.id := (Prod.ext_iff.1 heq).1
  rw [hid]
  exact hs.own_id hold

theorem Consistent.refresh {s s' : Store α} (hs : s.Consistent) (h : Refreshes s s') :
    s'.Consistent := by
  have hplaced := hs.placed.refresh h
  refine ⟨?_, hplaced.indexed, hplaced.apart, ?_, ?_⟩
  · intro id k' hget
    obtain ⟨k, hold, heq⟩ := exists_of_map_eq (h.hosts id) hget
    have hid : k'.id = k.id := (Prod.ext_iff.1 heq).1
    rw [hid]
    exact hs.host_id hold
  · intro id v w' hget
    obtain ⟨w, hold, heq⟩ := exists_of_map_eq (h.recordOn id v) hget
    obtain ⟨hid, hhost⟩ := hs.on_host hold
    simp only [Vm.outline, Prod.mk.injEq] at heq
    exact ⟨heq.1.trans hid, heq.2.1.trans hhost⟩
  · intro v w' hget
    obtain ⟨w, hold, heq⟩ := exists_of_map_eq (h.unassigned v) hget
    obtain ⟨hid, hhost⟩ := hs.off_host hold
    simp only [Vm.outline, Prod.mk.injEq] at heq
    exact ⟨heq.1.trans hid, heq.2.1.trans hhost⟩

/-- A host may change in all but its id, its capacity and its machines. -/
theorem refreshes_host {s : Store α} {id : HostId} {h h' : Host α}
    (hget : s.hosts.get? id = some h) (houtline : h'.outline = h.outline) (hvms : h'.vms = h.vms) :
    Refreshes s { s with hosts := s.hosts.insert id h' } := by
  refine ⟨fun id' => ?_, fun id' v => ?_, rfl, fun _ => rfl⟩
  · rw [SortedMap.get?_insert]
    by_cases hi : id' = id
    · rw [if_pos hi, hi, hget, Option.map_some, Option.map_some, houtline]
    · rw [if_neg hi]
  · rw [recordOn_insert, hvms]
    by_cases hi : id' = id
    · rw [if_pos hi, hi, recordOn_of_get? hget]
    · rw [if_neg hi]

/-- A record on a host may change in all but its id, its place and what it asks for. -/
theorem refreshes_record {s : Store α} {id : HostId} {h : Host α} {vm : VmId} {v v' : Vm α}
    (hget : s.hosts.get? id = some h) (hvm : h.vms.get? vm = some v)
    (houtline : v'.outline = v.outline) :
    Refreshes s { s with hosts := s.hosts.insert id { h with vms := h.vms.insert vm v' } } := by
  refine ⟨fun id' => ?_, fun id' u => ?_, rfl, fun _ => rfl⟩
  · rw [SortedMap.get?_insert]
    by_cases hi : id' = id
    · rw [if_pos hi, hi, hget]
      rfl
    · rw [if_neg hi]
  · rw [recordOn_insert]
    by_cases hi : id' = id
    · rw [if_pos hi, hi, recordOn_of_get? hget, SortedMap.get?_insert]
      by_cases hu : u = vm
      · rw [if_pos hu, hu, hvm, Option.map_some, Option.map_some, houtline]
      · rw [if_neg hu]
    · rw [if_neg hi]

/-- An unassigned record may change in all but its id, its place and what it asks for. -/
theorem refreshes_unassigned {s : Store α} {vm : VmId} {v v' : Vm α}
    (hget : s.unassigned.get? vm = some v) (houtline : v'.outline = v.outline) :
    Refreshes s { s with unassigned := s.unassigned.insert vm v' } := by
  refine ⟨fun _ => rfl, fun _ _ => rfl, rfl, fun u => ?_⟩
  rw [SortedMap.get?_insert]
  by_cases hu : u = vm
  · rw [if_pos hu, hu, hget, Option.map_some, Option.map_some, houtline]
  · rw [if_neg hu]

theorem refreshes_setHostStatus (s : Store α) (id : HostId) (status : HostStatus) :
    Refreshes s (s.setHostStatus id status).2 := by
  unfold setHostStatus
  split
  · rename_i h hget
    exact refreshes_host hget rfl rfl
  · exact .refl s

theorem refreshes_transition (s : Store α) (id : HostId) (expected next : HostStatus) :
    Refreshes s (s.transition id expected next).2 := by
  unfold transition
  split
  · exact .refl s
  · rename_i h hget
    split
    · exact refreshes_host hget rfl rfl
    · exact .refl s

theorem refreshes_addHostSample (s : Store α) (id : HostId) (sample : Sample α) :
    Refreshes s (s.addHostSample id sample).2 := by
  unfold addHostSample
  split
  · rename_i h hget
    exact refreshes_host hget rfl rfl
  · exact .refl s

theorem refreshes_modifyVmOn (s : Store α) (host : HostId) (vm : VmId) {f : Vm α → Vm α}
    (hf : ∀ v, (f v).outline = v.outline) : Refreshes s (s.modifyVmOn host vm f).2 := by
  unfold modifyVmOn
  split
  · exact .refl s
  · rename_i h hget
    split
    · exact .refl s
    · rename_i v hvm
      exact refreshes_record hget hvm (hf v)

theorem refreshes_setVmStatus (s : Store α) (vm : VmId) (status : VmStatus)
    (code : Option VmErrorCode) : Refreshes s (s.setVmStatus vm status code).2 := by
  unfold setVmStatus
  split
  · exact refreshes_modifyVmOn s _ vm fun _ => rfl
  · split
    · rename_i v hget
      exact refreshes_unassigned hget rfl
    · exact .refl s

theorem refreshes_addVmSample (s : Store α) (vm : VmId) (sample : Sample α) :
    Refreshes s (s.addVmSample vm sample).2 := by
  unfold addVmSample
  split
  · exact refreshes_modifyVmOn s _ vm fun _ => rfl
  · exact .refl s

end Store

end ClusterControl
