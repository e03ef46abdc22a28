import ClusterControl.Proofs.Store.OnePlace

/-!
# Machines that come and go

A plan is made from what the store shows, and carried out on what the store is by then.  This module
says what may have changed in between, and what carrying out changes.

* `Store.Shows`: a listed host is a host of the store, but for its samples.
* `Store.Sheds`: no machine has come to a host, and no host has changed what it offers.
* `Store.Delivered`: machines have come only to hosts where they were expected.  The requests that
  `StoreRequest.Delivers` describes do no more than that.
-/

namespace ClusterControl

variable {α : Type}

namespace Store

/-! ## What the store shows -/

/-- The host is one of the store, but for its samples. -/
def Shows (s : Store α) (h : Host α) : Prop :=
  ∃ k n, s.hosts.get? h.id = some k ∧ h = k.trim n

/-- Every host is filed under its own id. -/
def Keyed (s : Store α) : Prop := ∀ ⦃id h⦄, s.hosts.get? id = some h → h.id = id

theorem Consistent.keyed {s : Store α} (hs : s.Consistent) : s.Keyed := fun _ _ h => hs.host_id h

theorem Keyed.shows_of_host? {s : Store α} (hs : s.Keyed) {id : HostId} {n : Nat} {h : Host α}
    (hh : s.host? id n = some h) : h.id = id ∧ s.Shows h := by
  obtain ⟨k, hk, rfl⟩ := Option.map_eq_some_iff.1 hh
  have hid : k.id = id := hs hk
  exact ⟨hid, k, n, by rw [show (k.trim n).id = id from hid, hk], rfl⟩

theorem Keyed.shows_of_mem_hostList {s : Store α} (hs : s.Keyed) {n : Nat}
    {excludePassive monitoring : Bool} {h : Host α}
    (hh : h ∈ s.hostList n excludePassive monitoring) :
    s.Shows h ∧ (excludePassive = true → h.isPassive = false) := by
  obtain ⟨k, hk, rfl⟩ := List.mem_map.1 hh
  obtain ⟨hmem, hstatus⟩ := List.mem_filter.1 hk
  obtain ⟨id, hget⟩ := SortedMap.mem_values_iff.1 hmem
  have hid : k.id = id := hs hget
  refine ⟨⟨k, _, ?_, rfl⟩, fun hexclude => ?_⟩
  · rw [show (k.trim _).id = id from hid, hget]
  · have hpassive : (k.trim (if monitoring = true then n else 0)).isPassive = k.isPassive := rfl
    rw [hpassive]
    simpa [hexclude] using hstatus

/-- Hosts are kept by their ids, lowest first. -/
theorem Keyed.sorted_values {s : Store α} (hs : s.Keyed) :
    (s.hosts.values.map Host.id).Pairwise (· < ·) := by
  rw [SortedMap.values, List.map_map]
  refine List.pairwise_map.2 (s.hosts.sorted.imp_of_mem fun {x y} hx hy hlt => ?_)
  have hid : ∀ {z : HostId × Host α}, z ∈ s.hosts.entries → z.2.id = z.1 :=
    fun hz => hs (SortedMap.get?_eq_some_iff.2 hz)
  rwa [Function.comp, Function.comp, hid hx, hid hy]

/-- The hosts of a listing all have different ids. -/
theorem Keyed.nodup_hostList {s : Store α} (hs : s.Keyed) (n : Nat)
    (excludePassive monitoring : Bool) :
    ((s.hostList n excludePassive monitoring).map Host.id).Nodup := by
  have hids : s.hosts.values.map Host.id = s.hosts.keys := by
    rw [SortedMap.values, SortedMap.keys, List.map_map]
    exact List.map_congr_left fun e he => hs (SortedMap.get?_eq_some_iff.2 he)
  rw [hostList, List.map_map]
  refine List.Nodup.sublist (List.filter_sublist.map _) ?_
  exact hids ▸ s.hosts.nodup_keys

theorem Consistent.shows_of_host? {s : Store α} (hs : s.Consistent) {id : HostId} {n : Nat}
    {h : Host α} (hh : s.host? id n = some h) : h.id = id ∧ s.Shows h :=
  hs.keyed.shows_of_host? hh

theorem Consistent.shows_of_mem_hostList {s : Store α} (hs : s.Consistent) {n : Nat}
    {excludePassive monitoring : Bool} {h : Host α}
    (hh : h ∈ s.hostList n excludePassive monitoring) :
    s.Shows h ∧ (excludePassive = true → h.isPassive = false) :=
  hs.keyed.shows_of_mem_hostList hh

theorem Consistent.nodup_hostList {s : Store α} (hs : s.Consistent) (n : Nat)
    (excludePassive monitoring : Bool) :
    ((s.hostList n excludePassive monitoring).map Host.id).Nodup :=
  hs.keyed.nodup_hostList n excludePassive monitoring

/-- The machines of a host that is shown are those on record, but for their samples. -/
theorem Shows.get?_vms {s : Store α} {h : Host α} (hh : s.Shows h) (v : VmId) :
    (h.vms.get? v).map Vm.outline = (s.recordOn h.id v).map Vm.outline := by
  obtain ⟨k, n, hget, rfl⟩ := hh
  rw [recordOn_of_get? hget, Host.trim, SortedMap.get?_mapValues, Option.map_map]
  rfl

theorem Shows.record {s : Store α} {h : Host α} (hh : s.Shows h) {v : VmId} {w : Vm α}
    (hw : h.vms.get? v = some w) : ∃ w', s.recordOn h.id v = some w' ∧ w.outline = w'.outline :=
  exists_of_map_eq (hh.get?_vms v) hw

theorem Shows.has_iff {s : Store α} {h : Host α} (hh : s.Shows h) (v : VmId) :
    h.Has v ↔ (s.recordOn h.id v).isSome = true := by
  rw [Host.Has, ← Option.isSome_map (f := Vm.outline), hh.get?_vms, Option.isSome_map]

/-- No machine is on two of the hosts that are shown. -/
theorem Shows.apart {s : Store α} (hs : s.Consistent) {h k : Host α} (hh : s.Shows h)
    (hk : s.Shows k) (hid : h.id ≠ k.id) (v : VmId) : ¬(h.Has v ∧ k.Has v) := by
  rintro ⟨hhv, hkv⟩
  obtain ⟨w, hw⟩ := Option.isSome_iff_exists.1 ((hh.has_iff v).1 hhv)
  obtain ⟨w', hw'⟩ := Option.isSome_iff_exists.1 ((hk.has_iff v).1 hkv)
  exact hid (hs.placed.recordOn_unique hw hw')

/-- A machine that is on a host is found there. -/
theorem Consistent.vm?_of_recordOn {s : Store α} (hs : s.Consistent) {id : HostId} {v : VmId}
    {w : Vm α} (hw : s.recordOn id v = some w) : s.vm? v = some w := by
  rw [vm?, hostOf, hs.placed.index_of_recordOn hw]
  exact hw

/-- A machine that is found with a host is on that host. -/
theorem Consistent.recordOn_of_vm? {s : Store α} (hs : s.Consistent) {id : HostId} {v : VmId}
    {w : Vm α} (hw : s.vm? v = some w) (hid : w.hostId = some id) :
    w.id = v ∧ s.recordOn id v = some w := by
  rw [vm?, hostOf] at hw
  cases hp : s.index.get? v with
  | none =>
    rw [hp] at hw
    rw [(hs.off_host hw).2] at hid
    exact absurd hid (by simp)
  | some p =>
    rw [hp] at hw
    have hrecord : s.recordOn p v = some w := hw
    obtain ⟨hv, hhost⟩ := hs.on_host hrecord
    rw [hid] at hhost
    rw [Option.some.inj hhost]
    exact ⟨hv, hrecord⟩

/-! ## Machines that leave -/

/-- From `s` to `s'` hosts go on offering the same, and the machines that are on hosts were there
before and asked for the same. -/
structure Sheds (s s' : Store α) : Prop where
  hosts : ∀ id, (s'.hosts.get? id).map Host.outline = (s.hosts.get? id).map Host.outline
  records : ∀ {id v w'}, s'.recordOn id v = some w' →
    ∃ w, s.recordOn id v = some w ∧ w'.requested = w.requested

theorem Sheds.refl (s : Store α) : Sheds s s := ⟨fun _ => rfl, fun h => ⟨_, h, rfl⟩⟩

theorem Sheds.trans {s t u : Store α} (h : Sheds s t) (k : Sheds t u) : Sheds s u := by
  refine ⟨fun id => (k.hosts id).trans (h.hosts id), fun hw => ?_⟩
  obtain ⟨w₁, hw₁, heq₁⟩ := k.records hw
  obtain ⟨w₂, hw₂, heq₂⟩ := h.records hw₁
  exact ⟨w₂, hw₂, heq₁.trans heq₂⟩

theorem Refreshes.sheds {s s' : Store α} (h : Refreshes s s') : Sheds s s' := by
  refine ⟨h.hosts, fun {id v w'} hw' => ?_⟩
  obtain ⟨w, hw, heq⟩ := exists_of_map_eq (h.recordOn id v) hw'
  simp only [Vm.outline, Prod.mk.injEq] at heq
  exact ⟨w, hw, heq.2.2⟩

/-- Hosts that differ in their machines only offer the same. -/
theorem outline_of_bare {o o' : Option (Host α)} (h : o'.map Host.bare = o.map Host.bare) :
    o'.map Host.outline = o.map Host.outline := by
  have houtline : ∀ o : Option (Host α), o.map Host.outline = (o.map Host.bare).map Host.outline :=
    fun o => by rw [Option.map_map]; rfl
  rw [houtline o', h, ← houtline o]

theorem Consistent.sheds_removeVm {s : Store α} (hs : s.Consistent) (vm : VmId) :
    Sheds s (s.removeVm vm).2 := by
  have hgone := hs.removeVm_relocates vm
  refine ⟨fun id => outline_of_bare (hgone.hosts id), fun {id v w'} hw' => ?_⟩
  rw [hgone.recordOn] at hw'
  split at hw'
  · exact absurd hw' (by simp)
  · exact ⟨w', hw', rfl⟩

end Store

/-! ## Machines that arrive -/

/-- The request brings machines only to hosts where they are expected; a machine that is new there
is as expected, too. -/
inductive StoreRequest.Delivers (expected : VmId → HostId → Prop)
    (fresh : VmId → Resources α → Prop) : StoreRequest α → Prop
  | move {v : VmId} {d : HostId} (h : expected v d) : Delivers expected fresh (.moveVm v d)
  | place {w : Vm α} {d : HostId} (hd : w.hostId = some d) (h : expected w.id d)
    (hfresh : fresh w.id w.requested) : Delivers expected fresh (.addVm w)
  | shelve {w : Vm α} (hnowhere : w.hostId = none) : Delivers expected fresh (.addVm w)
  | mark (v : VmId) (status : VmStatus) (code : Option VmErrorCode) :
    Delivers expected fresh (.setVmStatus v status code)

namespace Store

/-- From `s` to `s'` hosts change in their machines only.  A machine that is on a host was there
before, or it was expected there: then it was on another host and asks for the same, or it is
new. -/
structure Delivered (expected : VmId → HostId → Prop) (fresh : VmId → Resources α → Prop)
    (s s' : Store α) : Prop where
  consistent : s'.Consistent
  hosts : ∀ id, (s'.hosts.get? id).map Host.bare = (s.hosts.get? id).map Host.bare
  records : ∀ {id v w'}, s'.recordOn id v = some w' →
    (∃ w, s.recordOn id v = some w ∧ w'.requested = w.requested) ∨
      expected v id ∧ (fresh v w'.requested ∨
        ∃ id' w, s.recordOn id' v = some w ∧ w'.requested = w.requested)

section

variable {expected : VmId → HostId → Prop} {fresh : VmId → Resources α → Prop}

theorem Delivered.refl {s : Store α} (hs : s.Consistent) : Delivered expected fresh s s :=
  ⟨hs, fun _ => rfl, fun h => .inl ⟨_, h, rfl⟩⟩

theorem bare_modifyVmOn (s : Store α) (host : HostId) (vm : VmId) (f : Vm α → Vm α) (id : HostId) :
    ((s.modifyVmOn host vm f).2.hosts.get? id).map Host.bare =
      (s.hosts.get? id).map Host.bare := by
  unfold modifyVmOn
  split
  · rfl
  · rename_i h hget
    split
    · rfl
    · rename_i v _
      have hbare : ({ h with vms := h.vms.insert vm (f v) } : Host α).bare = h.bare := rfl
      exact bare_insert hget hbare id

theorem bare_setVmStatus (s : Store α) (vm : VmId) (status : VmStatus) (code : Option VmErrorCode)
    (id : HostId) : ((s.setVmStatus vm status code).2.hosts.get? id).map Host.bare =
      (s.hosts.get? id).map Host.bare := by
  unfold setVmStatus
  split
  · exact bare_modifyVmOn s _ vm _ id
  · split <;> rfl

theorem bare_addVmSample (s : Store α) (vm : VmId) (sample : Sample α) (id : HostId) :
    ((s.addVmSample vm sample).2.hosts.get? id).map Host.bare =
      (s.hosts.get? id).map Host.bare := by
  unfold addVmSample
  split
  · exact bare_modifyVmOn s _ vm _ id
  · rfl

/-- A machine that changed place is where it was expected, if it is on a host at all. -/
theorem Relocates.delivered {s s' : Store α} {vm : VmId} {place : Option HostId}
    {w : Option (Vm α)} (h : Relocates s s' vm place w) (hs' : s'.Consistent)
    (hplace : ∀ {d x}, place = some d → w = some x → expected vm d ∧ (fresh vm x.requested ∨
      ∃ id' y, s.recordOn id' vm = some y ∧ x.requested = y.requested)) :
    Delivered expected fresh s s' := by
  refine ⟨hs', h.hosts, fun {id v w'} hw' => ?_⟩
  rw [h.recordOn] at hw'
  by_cases hv : v = vm
  · rw [if_pos hv] at hw'
    split at hw'
    · rename_i hid
      rw [hv]
      exact .inr (hplace hid hw')
    · exact absurd hw' (by simp)
  · rw [if_neg hv] at hw'
    exact .inl ⟨w', hw', rfl⟩

end

end Store

/-- What a request does that brings machines only where they are expected. -/
theorem StoreRequest.Delivers.delivered {expected : VmId → HostId → Prop}
    {fresh : VmId → Resources α → Prop} {q : StoreRequest α} (hq : q.Delivers expected fresh)
    {s : Store α} (hs : s.Consistent) : Store.Delivered expected fresh s (q.apply s).2 := by
  cases hq with
  | @move v d h =>
    have hs' : (s.moveVm v d).2.Consistent := hs.moveVm v d
    rw [StoreRequest.apply]
    obtain ⟨e, heq⟩ | heq | ⟨source, x, s', heq, -, hx, hmoved⟩ := hs.moveVm_cases v d
    · rw [heq]
      exact .refl hs
    · rw [heq]
      exact .refl hs
    · rw [heq] at hs' ⊢
      refine hmoved.delivered hs' ?_
      rintro _ _ ⟨⟩ ⟨⟩
      exact ⟨h, .inr ⟨source, x, hx, rfl⟩⟩
  | @place w d hd h hfresh =>
    have hs' : (s.addVm w).2.Consistent := hs.addVm w
    rw [StoreRequest.apply]
    cases hget : s.hosts.get? d with
    | none =>
      rw [Store.addVm_unknown hd hget]
      exact .refl hs
    | some k =>
      obtain ⟨s', heq, hmoved⟩ := hs.addVm_assigned hd hget
      rw [heq] at hs' ⊢
      refine hmoved.delivered hs' ?_
      rintro _ _ ⟨⟩ ⟨⟩
      exact ⟨h, .inl hfresh⟩
  | @shelve w hnowhere =>
    have hs' : (s.addVm w).2.Consistent := hs.addVm w
    rw [StoreRequest.apply]
    obtain ⟨s', heq, hmoved⟩ := hs.addVm_unassigned hnowhere
    rw [heq] at hs' ⊢
    exact hmoved.delivered hs' (by simp)
  | mark v status code =>
    have hrefreshed := Store.refreshes_setVmStatus s v status code
    refine ⟨hs.refresh hrefreshed, Store.bare_setVmStatus s v status code, fun hw' => .inl ?_⟩
    exact hrefreshed.sheds.records hw'

end ClusterControl
