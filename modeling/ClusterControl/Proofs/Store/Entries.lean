import ClusterControl.Proofs.Store.OnePlace

/-!
# Machines that are entered

Adding a machine enters its record in the place that it names, and nowhere else.  After several
machines were entered, each under an id of its own, every one of them is where its record says, and
everything else is as it was.
-/

namespace ClusterControl

variable {α : Type}

namespace Store

/-- The machine is recorded as `w` in the place that `w` names, and in no other. -/
structure Files (s : Store α) (w : Vm α) : Prop where
  index : s.index.get? w.id = w.hostId
  recordOn : ∀ id, s.recordOn id w.id = if w.hostId = some id then some w else none
  unassigned : s.unassigned.get? w.id = if w.hostId = none then some w else none

/-- The two stores record the same of a machine. -/
structure SameOf (s s' : Store α) (v : VmId) : Prop where
  index : s'.index.get? v = s.index.get? v
  recordOn : ∀ id, s'.recordOn id v = s.recordOn id v
  unassigned : s'.unassigned.get? v = s.unassigned.get? v

/-- From `s` to `s'` the machines on the list were entered, and nothing else has changed. -/
structure Enters (s s' : Store α) (entered : List (Vm α)) : Prop where
  consistent : s'.Consistent
  hosts : ∀ id, (s'.hosts.get? id).map Host.bare = (s.hosts.get? id).map Host.bare
  files : ∀ w ∈ entered, s'.Files w
  others : ∀ v, v ∉ entered.map Vm.id → SameOf s s' v

theorem Enters.refl {s : Store α} (hs : s.Consistent) : Enters s s [] :=
  ⟨hs, fun _ => rfl, fun _ hw => absurd hw List.not_mem_nil, fun _ _ => ⟨rfl, fun _ => rfl, rfl⟩⟩

/-- What one machine does to the store is to be filed where its record says. -/
theorem Relocates.files {s s' : Store α} {w : Vm α}
    (h : Relocates s s' w.id w.hostId (some w)) : s'.Files w where
  index := by rw [h.index, if_pos rfl]
  recordOn id := by rw [h.recordOn, if_pos rfl]
  unassigned := by rw [h.unassigned, if_pos rfl]

theorem Relocates.sameOf {s s' : Store α} {vm v : VmId} {place : Option HostId}
    {w : Option (Vm α)} (h : Relocates s s' vm place w) (hv : v ≠ vm) : SameOf s s' v where
  index := by rw [h.index, if_neg hv]
  recordOn id := by rw [h.recordOn, if_neg hv]
  unassigned := by rw [h.unassigned, if_neg hv]

theorem SameOf.trans {s t u : Store α} {v : VmId} (h : SameOf s t v) (k : SameOf t u v) :
    SameOf s u v :=
  ⟨k.index.trans h.index, fun id => (k.recordOn id).trans (h.recordOn id),
    k.unassigned.trans h.unassigned⟩

/-- A record stays filed while nothing changes about the machine. -/
theorem Files.sameOf {s s' : Store α} {w : Vm α} (h : s.Files w) (k : SameOf s s' w.id) :
    s'.Files w :=
  ⟨k.index.trans h.index, fun id => (k.recordOn id).trans (h.recordOn id),
    k.unassigned.trans h.unassigned⟩

/-- One more machine changes place. -/
theorem Enters.relocates {s t u : Store α} {entered : List (Vm α)} (h : Enters s t entered)
    {w : Vm α} (hw : w.id ∉ entered.map Vm.id) (hu : u.Consistent)
    (hmoved : Relocates t u w.id w.hostId (some w)) : Enters s u (entered ++ [w]) := by
  have hne : ∀ {v}, v ∈ entered.map Vm.id → v ≠ w.id := fun hv heq => hw (heq ▸ hv)
  refine ⟨hu, fun id => (hmoved.hosts id).trans (h.hosts id), fun x hx => ?_, fun v hv => ?_⟩
  · obtain hx | hx := List.mem_append.1 hx
    · exact (h.files x hx).sameOf (hmoved.sameOf (hne (List.mem_map_of_mem hx)))
    · rw [List.mem_singleton.1 hx]
      exact hmoved.files
  · rw [List.map_append, List.mem_append, not_or] at hv
    exact (h.others v hv.1).trans (hmoved.sameOf (by simpa using hv.2))

/-- A machine whose id is new on the list is entered when it names no host or a known one. -/
theorem Enters.addVm {s t : Store α} {entered : List (Vm α)} (h : Enters s t entered) {w : Vm α}
    (hw : w.id ∉ entered.map Vm.id)
    (hhost : ∀ host, w.hostId = some host → (s.hosts.get? host).isSome = true) :
    (t.addVm w).1 = true ∧ Enters s (t.addVm w).2 (entered ++ [w]) := by
  have hconsistent := h.consistent.addVm w
  cases hplace : w.hostId with
  | none =>
    obtain ⟨u, heq, hmoved⟩ := h.consistent.addVm_unassigned hplace
    rw [heq] at hconsistent ⊢
    rw [← hplace] at hmoved
    exact ⟨rfl, h.relocates hw hconsistent hmoved⟩
  | some host =>
    obtain ⟨k, hk⟩ : ∃ k, t.hosts.get? host = some k := by
      have hknown := hhost host hplace
      rw [← Option.isSome_map (f := Host.bare), ← h.hosts, Option.isSome_map] at hknown
      exact Option.isSome_iff_exists.1 hknown
    obtain ⟨u, heq, hmoved⟩ := h.consistent.addVm_assigned hplace hk
    have hrecord : w.on host = w := by rw [Vm.on, ← hplace]
    rw [heq] at hconsistent ⊢
    rw [hrecord, ← hplace] at hmoved
    exact ⟨rfl, h.relocates hw hconsistent hmoved⟩

end Store

end ClusterControl
