import ClusterControl.Proofs.Planning.Growth
import ClusterControl.Proofs.Resource.Exact
import ClusterControl.Proofs.Store.Traffic

/-!
# Room for what is planned

A planner puts machines on copies of hosts as long as they can take them.  A store that has not
gained machines since has room for all of the plan, and for every part of it.

* `Store.Fits`: the machines of every host fit on it.
* `Store.Expects`: hosts have at most the machines that the planned copies have.
* `Store.Expects.delivered`: bringing one more machine where the plan sends it keeps both.
-/

namespace ClusterControl

variable {α : Type}

/-! ## What a plan expects -/

/-- Every machine asks for what is known of it, and a host that has been copied offers what the copy
does and has no machine that the copy has not. -/
structure Store.Expects (demand : VmId → Resources α) (copies : List (Host α)) (s : Store α) :
    Prop where
  demand : ∀ {id v w}, s.recordOn id v = some w → w.requested = demand v
  capacity : ∀ {k h}, k ∈ copies → s.hosts.get? k.id = some h → h.capacity = k.capacity
  kept : ∀ {k v w}, k ∈ copies → s.recordOn k.id v = some w → k.Has v

namespace Store

/-- A plan expects of a store that shows the hosts it was made from what it expects of the
copies. -/
theorem expects_of_planned {s : Store α} {hosts copies : List (Host α)}
    (hshows : ∀ h ∈ hosts, s.Shows h) {demand : VmId → Resources α}
    (hdemand : ∀ {id v w}, s.recordOn id v = some w → w.requested = demand v)
    {Φ : Host α → Prop} (hplanned : Planned hosts Φ copies) : s.Expects demand copies := by
  refine ⟨hdemand, fun {k h₀} hk hget => ?_, fun {k v w} hk hw => ?_⟩
  · obtain ⟨h, hh, hbare, -⟩ := hplanned.origin k hk
    obtain ⟨h₁, n, hget₁, rfl⟩ := hshows h hh
    rw [Host.id_of_bare hbare, hget₁] at hget
    rw [← Option.some.inj hget]
    exact (Host.capacity_of_bare hbare).symm
  · obtain ⟨h, hh, hbare, hhas⟩ := hplanned.origin k hk
    rw [Host.id_of_bare hbare] at hw
    exact hhas v (((hshows h hh).has_iff v).2 (by rw [hw]; rfl))

theorem Expects.sheds {s t : Store α} {demand : VmId → Resources α} {copies : List (Host α)}
    (h : s.Expects demand copies) (hst : s.Sheds t) : t.Expects demand copies := by
  refine ⟨fun hw' => ?_, fun {k h'} hk hget' => ?_, fun {k v w'} hk hw' => ?_⟩
  · obtain ⟨w, hw, heq⟩ := hst.records hw'
    rw [heq]
    exact h.demand hw
  · obtain ⟨h₀, hget, houtline⟩ := exists_of_map_eq (hst.hosts k.id) hget'
    rw [show h'.capacity = h₀.capacity from congrArg Prod.snd houtline]
    exact h.capacity hk hget
  · obtain ⟨w, hw, -⟩ := hst.records hw'
    exact h.kept hk hw

end Store

variable [Quantity α]

/-- It is known what machines on hosts ask for, and what machines ask for that are on none. -/
theorem Store.Consistent.exists_demand {s : Store α} (hs : s.Consistent) {batch : List (Vm α)}
    (hnodup : (batch.map Vm.id).Nodup) (hfree : ∀ vm ∈ batch, ∀ id, s.recordOn id vm.id = none) :
    ∃ demand : VmId → Resources α, (∀ {id v w}, s.recordOn id v = some w → w.requested = demand v) ∧
      ∀ vm ∈ batch, vm.requested = demand vm.id := by
  refine ⟨fun v => (((batch.find? fun vm => vm.id == v).or (s.vm? v)).map Vm.requested).getD .zero,
    fun {id v w} hw => ?_, fun vm hvm => ?_⟩
  · have hnone : batch.find? (fun vm => vm.id == v) = none := by
      rw [List.find?_eq_none]
      intro vm hvm hid
      rw [← beq_iff_eq.1 hid, hfree vm hvm id] at hw
      exact absurd hw (by simp)
    simp [hnone, hs.vm?_of_recordOn hw]
  · have hfound : (batch.find? fun u => u.id == vm.id).isSome = true :=
      List.find?_isSome.2 ⟨vm, hvm, beq_iff_eq.2 rfl⟩
    obtain ⟨u, hu⟩ := Option.isSome_iff_exists.1 hfound
    have hid : u.id = vm.id := by simpa using List.find?_some hu
    obtain rfl := List.inj_on_of_nodup_map hnodup (List.mem_of_find?_eq_some hu) hvm hid
    simp [hu]

/-- It is known what machines ask for that stay on hosts while others leave. -/
theorem Store.Sheds.exists_demand {s t : Store α} (hst : s.Sheds t) (hs : s.Consistent) :
    ∃ demand : VmId → Resources α,
      (∀ {id v w}, s.recordOn id v = some w → w.requested = demand v) ∧
        ∀ {id v w}, t.recordOn id v = some w → w.requested = demand v := by
  have hnone : (([] : List (Vm α)).map Vm.id).Nodup := List.nodup_nil
  obtain ⟨demand, hdemand, -⟩ := hs.exists_demand hnone (by simp)
  refine ⟨demand, hdemand, fun hw => ?_⟩
  obtain ⟨w₀, hw₀, heq⟩ := hst.records hw
  exact heq.trans (hdemand hw₀)

variable [AddCommMonoid α] [LinearOrder α]

/-- The store is consistent, no machine on a host asks for less than nothing, and no host has more
requested than it offers. -/
structure Store.Fits (s : Store α) : Prop where
  consistent : s.Consistent
  nonneg : ∀ {id v w}, s.recordOn id v = some w → w.requested.Nonneg
  fits : ∀ {id h}, s.hosts.get? id = some h → h.requested.fitsWithin h.capacity = true

/-- The host has its machines filed under their ids, each asks for what is known of it, and they
fit. -/
structure Host.Roomy (demand : VmId → Resources α) (k : Host α) : Prop where
  filed : ∀ {v w}, k.vms.get? v = some w →
    w.id = v ∧ w.requested = demand v ∧ w.requested.Nonneg
  fits : k.requested.fitsWithin k.capacity = true

variable [Quantity.Exact α] [IsOrderedAddMonoid α]

/-! ## Copies -/

/-- A copy that can take a machine has room for it. -/
theorem Host.Roomy.assign {demand : VmId → Resources α} {k : Host α} (h : k.Roomy demand)
    {vm : Vm α} (hdemand : vm.requested = demand vm.id) (hnonneg : vm.requested.Nonneg)
    (htake : k.canTake vm = true) : (k.assign vm).Roomy demand := by
  refine ⟨fun {v w} hw => ?_, ?_⟩
  · rw [Host.assign, SortedMap.get?_insert] at hw
    split at hw
    · rename_i hv
      rw [← Option.some.inj hw, hv]
      exact ⟨rfl, hdemand, hnonneg⟩
    · exact h.filed hw
  · exact Resources.fitsWithin_of_le (Host.requested_assign_le fun hw => (h.filed hw).2.2) htake

/-- A host that a fitting store shows has room for its own machines. -/
theorem Store.Fits.roomy {s : Store α} (hs : s.Fits) {demand : VmId → Resources α}
    (hdemand : ∀ {id v w}, s.recordOn id v = some w → w.requested = demand v) {h : Host α}
    (hh : s.Shows h) : h.Roomy demand := by
  have hrecord : ∀ {v w}, h.vms.get? v = some w →
      ∃ w', s.recordOn h.id v = some w' ∧ w.id = w'.id ∧ w.requested = w'.requested := by
    intro v w hw
    obtain ⟨w', hw', heq⟩ := hh.record hw
    simp only [Vm.outline, Prod.mk.injEq] at heq
    exact ⟨w', hw', heq.1, heq.2.2⟩
  refine ⟨fun {v w} hw => ?_, ?_⟩
  · obtain ⟨w', hw', hid, heq⟩ := hrecord hw
    rw [hid, heq]
    exact ⟨(hs.consistent.on_host hw').1, hdemand hw', hs.nonneg hw'⟩
  · obtain ⟨k, n, hget, rfl⟩ := hh
    have hfits : k.requested.fitsWithin (k.trim n).capacity = true := hs.fits hget
    refine Resources.fitsWithin_of_le (Host.requested_mono (fun {v w} hw => ?_) fun hw => ?_)
      hfits
    · obtain ⟨w', hw', -, heq⟩ := hrecord hw
      rw [recordOn_of_get? hget] at hw'
      exact ⟨w', hw', heq⟩
    · rw [← recordOn_of_get? hget] at hw
      exact hs.nonneg hw

/-! ## Stores -/

namespace Store

/-- What has machines taken away still fits. -/
theorem Fits.sheds {s t : Store α} (hs : s.Fits) (ht : t.Consistent) (hst : s.Sheds t) :
    t.Fits := by
  refine ⟨ht, fun hw' => ?_, fun {id h'} hget' => ?_⟩
  · obtain ⟨w, hw, heq⟩ := hst.records hw'
    rw [heq]
    exact hs.nonneg hw
  · obtain ⟨h, hget, houtline⟩ := exists_of_map_eq (hst.hosts id) hget'
    rw [show h'.capacity = h.capacity from congrArg Prod.snd houtline]
    refine Resources.fitsWithin_of_le (Host.requested_mono (fun {v w'} hw' => ?_) fun hw => ?_)
      (hs.fits hget)
    · rw [← recordOn_of_get? hget'] at hw'
      obtain ⟨w, hw, heq⟩ := hst.records hw'
      rw [recordOn_of_get? hget] at hw
      exact ⟨w, hw, heq⟩
    · rw [← recordOn_of_get? hget] at hw
      exact hs.nonneg hw

/-- Bringing a machine where the plan sends it keeps what the plan expects, and everything fits. -/
theorem Expects.delivered {s t : Store α} {demand : VmId → Resources α}
    {hosts copies : List (Host α)} (h : s.Expects demand copies) (hs : s.Fits)
    (hplanned : Planned hosts (Host.Roomy demand) copies)
    (hst : s.Delivered (Receives copies) (fun v r => r = demand v ∧ r.Nonneg) t) :
    t.Fits ∧ t.Expects demand copies := by
  have hrecords : ∀ {id v w'}, t.recordOn id v = some w' →
      w'.requested = demand v ∧ w'.requested.Nonneg := by
    intro id v w' hw'
    obtain ⟨w, hw, heq⟩ | ⟨-, hfresh | ⟨id', w, hw, heq⟩⟩ := hst.records hw'
    · exact heq ▸ ⟨h.demand hw, hs.nonneg hw⟩
    · exact hfresh
    · exact heq ▸ ⟨h.demand hw, hs.nonneg hw⟩
  have hcapacity : ∀ {id h'}, t.hosts.get? id = some h' →
      ∃ h₀, s.hosts.get? id = some h₀ ∧ h'.capacity = h₀.capacity := by
    intro id h' hget'
    obtain ⟨h₀, hget, hbare⟩ := exists_of_map_eq (hst.hosts id) hget'
    exact ⟨h₀, hget, Host.capacity_of_bare hbare⟩
  have hexpects : t.Expects demand copies := by
    refine ⟨fun hw' => (hrecords hw').1, fun {k h'} hk hget' => ?_, fun {k v w'} hk hw' => ?_⟩
    · obtain ⟨h₀, hget, heq⟩ := hcapacity hget'
      exact heq.trans (h.capacity hk hget)
    · obtain ⟨w, hw, -⟩ | ⟨hreceived, -⟩ := hst.records hw'
      · exact h.kept hk hw
      · exact hplanned.has_of_receives hk hreceived
  refine ⟨⟨hst.consistent, fun hw' => (hrecords hw').2, fun {id h'} hget' => ?_⟩, hexpects⟩
  by_cases hcopy : ∃ k ∈ copies, k.id = id
  · -- the host was copied, and has no machine that its copy has not
    obtain ⟨k, hk, rfl⟩ := hcopy
    have hroomy := hplanned.fine k hk
    rw [hexpects.capacity hk hget']
    refine Resources.fitsWithin_of_le (Host.requested_mono (fun {v w'} hw' => ?_)
      fun hw => (hroomy.filed hw).2.2) hroomy.fits
    rw [← recordOn_of_get? hget'] at hw'
    obtain ⟨w, hw⟩ := Option.isSome_iff_exists.1 (hexpects.kept hk hw')
    exact ⟨w, hw, (hrecords hw').1.trans (hroomy.filed hw).2.1.symm⟩
  · -- nothing is expected on the host, so it has no machine that it had not before
    obtain ⟨h₀, hget, heq⟩ := hcapacity hget'
    rw [heq]
    refine Resources.fitsWithin_of_le (Host.requested_mono (fun {v w'} hw' => ?_) fun hw => ?_)
      (hs.fits hget)
    · rw [← recordOn_of_get? hget'] at hw'
      obtain ⟨w, hw, hsame⟩ | ⟨⟨k, hk, hid, -⟩, -⟩ := hst.records hw'
      · rw [recordOn_of_get? hget] at hw
        exact ⟨w, hw, hsame⟩
      · exact absurd ⟨k, hk, hid⟩ hcopy
    · rw [← recordOn_of_get? hget] at hw
      exact hs.nonneg hw

end Store

end ClusterControl
