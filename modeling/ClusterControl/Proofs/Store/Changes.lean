import ClusterControl.Proofs.Store.Consistency

/-!
# Machines that change place

Consistency outlasts the changes in which machines move.

* `Store.Relocates`: one machine changes place and everything else stays.  This covers adding,
  moving and removing a machine.
* `Store.Consistent.addHost`: a host takes the place of another, with all its machines.
-/

namespace ClusterControl

variable {α : Type}

namespace Store

/-! ## Machines that change place -/

/-- From `s` to `s'` one machine changes place: its record is now `w`, on the host `place` or among
the unassigned ones; without a record it is nowhere.  All other machines stay where they are. -/
structure Relocates (s s' : Store α) (vm : VmId) (place : Option HostId) (w : Option (Vm α)) :
    Prop where
  hosts : ∀ id, (s'.hosts.get? id).map Host.bare = (s.hosts.get? id).map Host.bare
  recordOn : ∀ id v, s'.recordOn id v =
    if v = vm then (if place = some id then w else none) else s.recordOn id v
  index : ∀ v, s'.index.get? v = if v = vm then place else s.index.get? v
  unassigned : ∀ v, s'.unassigned.get? v =
    if v = vm then (if place = none then w else none) else s.unassigned.get? v

/-- A machine that changed place is in one place if it was recorded where the index says. -/
theorem Placed.relocate {s s' : Store α} {vm : VmId} {place : Option HostId} {w : Option (Vm α)}
    (hs : s.Placed) (h : Relocates s s' vm place w)
    (hplace : place.isSome = true → w.isSome = true) : s'.Placed := by
  constructor
  · intro v id
    rw [h.index, h.recordOn]
    by_cases hv : v = vm
    · rw [if_pos hv, if_pos hv]
      by_cases hp : place = some id
      · simpa [hp] using hplace (by rw [hp]; rfl)
      · simp [hp]
    · rw [if_neg hv, if_neg hv]
      exact hs.indexed
  · intro v id
    rw [h.unassigned, h.recordOn]
    by_cases hv : v = vm
    · cases place <;> simp [hv]
    · rw [if_neg hv, if_neg hv]
      exact hs.apart

theorem Filed.relocate {s s' : Store α} {vm : VmId} {place : Option HostId} {w : Option (Vm α)}
    (hs : s.Filed) (h : Relocates s s' vm place w) (hrec : ∀ v, w = some v → v.id = vm)
    (hplace : place.isSome = true → w.isSome = true) : s'.Filed := by
  refine ⟨hs.toPlaced.relocate h hplace, fun {id v u} hu => ?_⟩
  rw [h.recordOn] at hu
  by_cases hv : v = vm
  · rw [if_pos hv] at hu
    rw [hv]
    exact hrec u (Option.ite_none_right_eq_some.1 hu).2
  · rw [if_neg hv] at hu
    exact hs.own_id hu

/-- The maps agree after a machine changed place if its new record says where it is. -/
theorem Consistent.relocate {s s' : Store α} {vm : VmId} {place : Option HostId}
    {w : Option (Vm α)} (hs : s.Consistent) (h : Relocates s s' vm place w)
    (hrec : ∀ v, w = some v → v.id = vm ∧ v.hostId = place)
    (hplace : place.isSome = true → w.isSome = true) : s'.Consistent := by
  have hplaced := hs.placed.relocate h hplace
  refine ⟨?_, hplaced.indexed, hplaced.apart, ?_, ?_⟩
  · intro id k' hget
    obtain ⟨k, hold, hbare⟩ := exists_of_map_eq (h.hosts id) hget
    exact (Host.id_of_bare hbare).trans (hs.host_id hold)
  · intro id v u
    rw [h.recordOn]
    by_cases hv : v = vm
    · rw [if_pos hv, hv]
      by_cases hp : place = some id
      · rw [if_pos hp, ← hp]
        exact hrec u
      · simp [hp]
    · rw [if_neg hv]
      exact hs.on_host
  · intro v u
    rw [h.unassigned]
    by_cases hv : v = vm
    · rw [if_pos hv, hv]
      by_cases hp : place = none
      · rw [if_pos hp, ← hp]
        exact hrec u
      · simp [hp]
    · rw [if_neg hv]
      exact hs.off_host

/-- Dropping the record a machine had before leaves it only where it was filed last. -/
theorem recordOn_dropPrevious {s : Store α} {vm : VmId} {previous target : Option HostId}
    (hgone : ∀ id, previous ≠ some id → target ≠ some id → s.recordOn id vm = none)
    (id : HostId) (v : VmId) : (s.dropPrevious vm previous target).recordOn id v =
      if v = vm ∧ target ≠ some id then none else s.recordOn id v := by
  cases previous with
  | none =>
    by_cases hc : v = vm ∧ target ≠ some id
    · rw [if_pos hc, hc.1]
      exact hgone id (by simp) hc.2
    · rw [if_neg hc, dropPrevious]
  | some p =>
    by_cases hp : target = some p
    · rw [dropPrevious, if_pos hp]
      by_cases hc : v = vm ∧ target ≠ some id
      · rw [if_pos hc, hc.1]
        exact hgone id (fun h => hc.2 (by rw [hp, h])) hc.2
      · rw [if_neg hc]
    · rw [dropPrevious, if_neg hp]
      refine (recordOn_unassign s.hosts p vm s.index s.unassigned id v).trans ?_
      by_cases hid : id = p
      · subst hid
        by_cases hv : v = vm <;> simp [hv, hp]
      · by_cases hc : v = vm ∧ target ≠ some id
        · rw [if_neg fun h => hid h.1, if_pos hc, hc.1]
          exact hgone id (fun h => hid (Option.some.inj h).symm) hc.2
        · rw [if_neg fun h => hid h.1, if_neg hc]

/-- Changing a host's machines leaves the rest of every host. -/
theorem bare_modify (hosts : SortedMap (Host α)) (p : HostId) {f : Host α → Host α}
    (hf : ∀ h, (f h).bare = h.bare) (id : HostId) :
    ((hosts.modify p f).get? id).map Host.bare = (hosts.get? id).map Host.bare := by
  rw [SortedMap.get?_modify]
  by_cases hid : id = p
  · rw [if_pos hid, Option.map_map]
    exact congrArg (fun g => (hosts.get? id).map g) (funext hf)
  · rw [if_neg hid]

theorem bare_insert {hosts : SortedMap (Host α)} {p : HostId} {h h' : Host α}
    (hget : hosts.get? p = some h) (hbare : h'.bare = h.bare) (id : HostId) :
    ((hosts.insert p h').get? id).map Host.bare = (hosts.get? id).map Host.bare := by
  rw [SortedMap.get?_insert]
  by_cases hid : id = p
  · rw [if_pos hid, hid, hget, Option.map_some, Option.map_some, hbare]
  · rw [if_neg hid]

theorem bare_dropPrevious (s : Store α) (vm : VmId) (previous target : Option HostId)
    (id : HostId) : ((s.dropPrevious vm previous target).hosts.get? id).map Host.bare =
      (s.hosts.get? id).map Host.bare := by
  cases previous with
  | none => rfl
  | some p =>
    rw [dropPrevious]
    split
    · rfl
    · exact bare_modify s.hosts p (fun h => h.bare_unassign vm) id

@[simp]
theorem index_dropPrevious (s : Store α) (vm : VmId) (previous target : Option HostId) :
    (s.dropPrevious vm previous target).index = s.index := by
  cases previous <;> simp only [dropPrevious]
  split <;> rfl

@[simp]
theorem unassigned_dropPrevious (s : Store α) (vm : VmId) (previous target : Option HostId) :
    (s.dropPrevious vm previous target).unassigned = s.unassigned := by
  cases previous <;> simp only [dropPrevious]
  split <;> rfl

/-! ## Adding, moving and removing a machine -/

/-- A machine without a host is filed among the unassigned ones. -/
theorem Consistent.addVm_unassigned {s : Store α} (hs : s.Consistent) {vm : Vm α}
    (hhost : vm.hostId = none) :
    ∃ s', s.addVm vm = (true, s') ∧ Relocates s s' vm.id none (some vm) := by
  refine ⟨_, by simp only [addVm, hhost]; rfl, ?_⟩
  set filed : Store α :=
    { s with unassigned := s.unassigned.insert vm.id vm, index := s.index.erase vm.id } with hfiled
  have hgone : ∀ id, s.hostOf vm.id ≠ some id → (none : Option HostId) ≠ some id →
      filed.recordOn id vm.id = none := fun id hprev _ => hs.placed.recordOn_of_hostOf_ne hprev
  refine ⟨fun id => ?_, fun id v => ?_, fun v => ?_, fun v => ?_⟩
  · exact bare_dropPrevious filed _ _ _ id
  · rw [recordOn_dropPrevious hgone]
    by_cases hv : v = vm.id
    · simp [hv]
    · simp only [hv, false_and, if_false]
      rfl
  · rw [index_dropPrevious, hfiled, SortedMap.get?_erase]
  · rw [unassigned_dropPrevious, hfiled, SortedMap.get?_insert, if_pos rfl]

/-- A machine that names a known host is filed there. -/
theorem Consistent.addVm_assigned {s : Store α} (hs : s.Consistent) {vm : Vm α} {t : HostId}
    {h : Host α} (hhost : vm.hostId = some t) (hget : s.hosts.get? t = some h) :
    ∃ s', s.addVm vm = (true, s') ∧ Relocates s s' vm.id (some t) (some (vm.on t)) := by
  refine ⟨_, by simp only [addVm, hhost, hget]; rfl, ?_⟩
  set filed : Store α :=
    { hosts := s.hosts.insert t (h.assign vm), unassigned := s.unassigned.erase vm.id
      index := s.index.insert vm.id t } with hfiled
  have hid : h.id = t := hs.host_id hget
  have hfile : ∀ id v, filed.recordOn id v =
      if id = t ∧ v = vm.id then some (vm.on t) else s.recordOn id v := by
    intro id v
    rw [hfiled, recordOn_insert]
    by_cases hi : id = t
    · rw [if_pos hi, hi, Host.assign, SortedMap.get?_insert, hid, recordOn_of_get? hget]
      by_cases hv : v = vm.id <;> simp [hv]
    · rw [if_neg hi, if_neg fun h => hi h.1]
  have hgone : ∀ id, s.hostOf vm.id ≠ some id → some t ≠ some id →
      filed.recordOn id vm.id = none := by
    intro id hprev hne
    rw [hfile, if_neg fun h => hne (by rw [h.1])]
    exact hs.placed.recordOn_of_hostOf_ne hprev
  refine ⟨fun id => ?_, fun id v => ?_, fun v => ?_, fun v => ?_⟩
  · exact (bare_dropPrevious filed _ _ _ id).trans (bare_insert hget (h.bare_assign vm) id)
  · rw [recordOn_dropPrevious hgone, hfile]
    by_cases hv : v = vm.id
    · by_cases hi : t = id
      · simp [hv, hi]
      · simp [hv, hi]
    · simp [hv]
  · rw [index_dropPrevious, hfiled, SortedMap.get?_insert]
  · rw [unassigned_dropPrevious, hfiled, SortedMap.get?_erase]
    rfl

/-- A machine that names an unknown host is refused. -/
theorem addVm_unknown {s : Store α} {vm : Vm α} {t : HostId} (hhost : vm.hostId = some t)
    (hget : s.hosts.get? t = none) : s.addVm vm = (false, s) := by
  simp only [addVm, hhost, hget]

/-- A machine that is on one host moves to another known one. -/
theorem Filed.relocates_moveVm {s : Store α} (hs : s.Filed) {vm : VmId} {source d : HostId}
    {v : Vm α} (hv : s.recordOn source vm = some v) {k : Host α} (hk : s.hosts.get? d = some k)
    (hsd : source ≠ d) :
    ∃ s', s.moveVm vm d = (.ok (), s') ∧ Relocates s s' vm (some d) (some (v.on k.id)) := by
  have hp : s.index.get? vm = some source := hs.index_of_recordOn hv
  have hbind : ((s.hosts.get? source).bind fun h => h.vms.get? vm) = some v := hv
  rw [moveVm, SortedMap.contains_eq, hostOf, hp, hk]
  simp only [Option.isSome_some, Bool.not_true, Bool.false_eq_true, if_false, if_neg hsd, hbind]
  refine ⟨_, rfl, ?_⟩
  have hne : ¬d = source := fun h => hsd h.symm
  refine ⟨fun id => ?_, fun id u => ?_, fun u => ?_, fun u => ?_⟩
  · exact (bare_modify _ d (fun h => h.bare_assign v) id).trans
      (bare_modify _ source (fun h => h.bare_unassign vm) id)
  · have hkept : (s.hosts.modify source fun h => h.unassign vm).get? d = some k := by
      rw [SortedMap.get?_modify, if_neg hne, hk]
    have hrec := (recordOn_assign hkept v s.index s.unassigned id u).trans
      (congrArg _ (recordOn_unassign s.hosts source vm s.index s.unassigned id u))
    rw [hs.own_id hv] at hrec
    refine hrec.trans ?_
    by_cases hu : u = vm
    · subst hu
      by_cases hid : id = d
      · simp [hid]
      · have hdid : ¬d = id := fun h => hid h.symm
        by_cases his : id = source
        · simp [his, hne, hsd]
        · simpa [hid, hdid, his] using hs.recordOn_of_index_ne hp his
    · simp [hu]
  · simp only [modifyHost, SortedMap.get?_insert]
  · by_cases hu : u = vm
    · simp [modifyHost, hu, hs.unassigned_of_recordOn hv]
    · simp [modifyHost, hu]

theorem Consistent.relocates_moveVm {s : Store α} (hs : s.Consistent) {vm : VmId}
    {source d : HostId} {v : Vm α} (hv : s.recordOn source vm = some v)
    (hd : (s.hosts.get? d).isSome = true) (hsd : source ≠ d) :
    ∃ s', s.moveVm vm d = (.ok (), s') ∧ Relocates s s' vm (some d) (some (v.on d)) := by
  obtain ⟨k, hk⟩ := Option.isSome_iff_exists.1 hd
  have hmoved := hs.filed.relocates_moveVm hv hk hsd
  rwa [hs.host_id hk] at hmoved

/-- A move fails and changes nothing, or the machine is there already, or it changes place. -/
theorem Filed.moveVm_cases {s : Store α} (hs : s.Filed) (vm : VmId) (d : HostId) :
    (∃ e, s.moveVm vm d = (.error e, s)) ∨ s.moveVm vm d = (.ok (), s) ∨
      ∃ source v k s', s.moveVm vm d = (.ok (), s') ∧ s.hosts.get? d = some k ∧
        s.recordOn source vm = some v ∧ Relocates s s' vm (some d) (some (v.on k.id)) := by
  cases hd : s.hosts.get? d with
  | none =>
    rw [moveVm, SortedMap.contains_eq, hd]
    exact .inl ⟨_, rfl⟩
  | some k =>
    have hknown : (s.hosts.get? d).isSome = true := by rw [hd]; rfl
    cases hp : s.index.get? vm with
    | none =>
      rw [moveVm, SortedMap.contains_eq, hknown, hostOf, hp]
      exact .inl ⟨_, rfl⟩
    | some source =>
      by_cases hsd : source = d
      · rw [moveVm, SortedMap.contains_eq, hknown, hostOf, hp]
        exact .inr (.inl (by simp [hsd]))
      · obtain ⟨v, hv⟩ := hs.recordOn_of_index hp
        obtain ⟨s', heq, hmoved⟩ := hs.relocates_moveVm hv hd hsd
        exact .inr (.inr ⟨source, v, k, s', heq, rfl, hv, hmoved⟩)

theorem Consistent.moveVm_cases {s : Store α} (hs : s.Consistent) (vm : VmId) (d : HostId) :
    (∃ e, s.moveVm vm d = (.error e, s)) ∨ s.moveVm vm d = (.ok (), s) ∨
      ∃ source v s', s.moveVm vm d = (.ok (), s') ∧ (s.hosts.get? d).isSome = true ∧
        s.recordOn source vm = some v ∧ Relocates s s' vm (some d) (some (v.on d)) := by
  obtain herror | hthere | ⟨source, v, k, s', heq, hk, hv, hmoved⟩ := hs.filed.moveVm_cases vm d
  · exact .inl herror
  · exact .inr (.inl hthere)
  · rw [hs.host_id hk] at hmoved
    exact .inr (.inr ⟨source, v, s', heq, by rw [hk]; rfl, hv, hmoved⟩)

/-- A machine that is removed is nowhere from then on. -/
theorem Consistent.removeVm_relocates {s : Store α} (hs : s.Consistent) (vm : VmId) :
    Relocates s (s.removeVm vm).2 vm none none := by
  simp only [removeVm, hostOf]
  cases hp : s.index.get? vm with
  | none =>
    refine ⟨fun _ => rfl, fun id v => ?_, fun v => ?_, fun v => ?_⟩
    · by_cases hv : v = vm
      · simpa [hv] using hs.placed.recordOn_of_index_none hp id
      · simp only [hv, if_false]
        rfl
    · by_cases hv : v = vm <;> simp [hv, hp]
    · simp only [SortedMap.get?_erase, if_pos trivial]
  | some host =>
    refine ⟨fun id => ?_, fun id v => ?_, fun v => ?_, fun v => ?_⟩
    · exact bare_modify s.hosts host (fun h => h.bare_unassign vm) id
    · refine (recordOn_unassign s.hosts host vm _ s.unassigned id v).trans ?_
      by_cases hv : v = vm
      · subst hv
        by_cases hid : id = host
        · simp [hid]
        · simpa [hid] using hs.placed.recordOn_of_index_ne hp hid
      · simp only [hv, and_false, if_false]
        rfl
    · simp only [modifyHost, SortedMap.get?_erase]
    · obtain ⟨w, hw⟩ := hs.placed.recordOn_of_index hp
      by_cases hv : v = vm <;> simp [modifyHost, hv, hs.placed.unassigned_of_recordOn hw]

/-! ## Replacing a host -/

/-- The machines that a host comes with are filed under their ids, name the host, and are nowhere
else in the store. -/
structure Admits (s : Store α) (h : Host α) : Prop where
  filed : ∀ {v w}, h.vms.get? v = some w → w.id = v ∧ w.hostId = some h.id
  assigned : ∀ {v w}, h.vms.get? v = some w → s.unassigned.get? v = none
  elsewhere : ∀ {v w id}, h.vms.get? v = some w → id ≠ h.id → s.recordOn id v = none

/-- A host without machines may be registered at any time. -/
theorem admits_of_no_vms {s : Store α} {h : Host α} (hvms : h.vms = .empty) : s.Admits h := by
  refine ⟨?_, ?_, ?_⟩ <;> intro v w <;> simp [hvms]

/-- The index after a host has taken the place of another. -/
theorem index_addHost (s : Store α) (h : Host α) (v : VmId) :
    (s.addHost h).index.get? v =
      if (h.vms.get? v).isSome then some h.id
      else if (s.recordOn h.id v).isSome then none else s.index.get? v := by
  unfold addHost
  split
  · rename_i previous hget
    simp only [insertHost, SortedMap.get?_foldl_insert, SortedMap.get?_foldl_erase,
      SortedMap.mem_keys_iff, recordOn_of_get? hget]
  · rename_i hget
    simp only [insertHost, SortedMap.get?_foldl_insert, SortedMap.mem_keys_iff,
      recordOn_of_get?_none hget, Option.isSome_none, Bool.false_eq_true, if_false]

theorem hosts_addHost (s : Store α) (h : Host α) (id : HostId) :
    (s.addHost h).hosts.get? id = if id = h.id then some h else s.hosts.get? id := by
  unfold addHost
  split
  · simp only [insertHost, SortedMap.get?_insert, SortedMap.get?_erase]
    by_cases hid : id = h.id <;> simp [hid]
  · simp only [insertHost, SortedMap.get?_insert]

@[simp]
theorem unassigned_addHost (s : Store α) (h : Host α) :
    (s.addHost h).unassigned = s.unassigned := by
  unfold addHost
  split <;> rfl

theorem recordOn_addHost (s : Store α) (h : Host α) (id : HostId) (v : VmId) :
    (s.addHost h).recordOn id v = if id = h.id then h.vms.get? v else s.recordOn id v := by
  rw [recordOn, hosts_addHost]
  by_cases hid : id = h.id
  · rw [if_pos hid, if_pos hid, Option.bind_some]
  · rw [if_neg hid, if_neg hid, recordOn]

/-- The maps agree after a host has taken the place of another one, or of none. -/
theorem Consistent.addHost {s : Store α} (hs : s.Consistent) {h : Host α} (hadmitted : s.Admits h) :
    (s.addHost h).Consistent := by
  refine ⟨?_, ?_, ?_, ?_, ?_⟩
  · intro id k hget
    rw [hosts_addHost] at hget
    by_cases hid : id = h.id
    · rw [if_pos hid] at hget
      rw [← Option.some.inj hget, hid]
    · rw [if_neg hid] at hget
      exact hs.host_id hget
  · intro v id
    rw [index_addHost, recordOn_addHost]
    cases hv : h.vms.get? v with
    | some w =>
      by_cases hid : id = h.id
      · simp [hid]
      · have hne : ¬h.id = id := fun e => hid e.symm
        simp [hid, hne, hadmitted.elsewhere hv hid]
    | none =>
      cases hprev : s.recordOn h.id v with
      | some w =>
        by_cases hid : id = h.id
        · simp [hid]
        · simpa [hid] using hs.placed.recordOn_of_index_ne (hs.placed.index_of_recordOn hprev) hid
      | none =>
        by_cases hid : id = h.id
        · subst hid
          have hnot : s.index.get? v ≠ some h.id := fun e => by
            simpa [hprev] using hs.indexed.1 e
          simpa using hnot
        · have hindexed : s.index.get? v = some id ↔ (s.recordOn id v).isSome = true := hs.indexed
          simpa [hid] using hindexed
  · intro v id hv
    rw [unassigned_addHost] at hv
    rw [recordOn_addHost]
    by_cases hid : id = h.id
    · rw [if_pos hid, Option.eq_none_iff_forall_ne_some]
      intro w hw
      rw [hadmitted.assigned hw] at hv
      exact absurd hv (by simp)
    · rw [if_neg hid]
      exact hs.apart hv
  · intro id v w hget
    rw [recordOn_addHost] at hget
    by_cases hid : id = h.id
    · rw [if_pos hid] at hget
      rw [hid]
      exact hadmitted.filed hget
    · rw [if_neg hid] at hget
      exact hs.on_host hget
  · intro v w hget
    rw [unassigned_addHost] at hget
    exact hs.off_host hget

end Store

end ClusterControl
