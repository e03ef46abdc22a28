import Mathlib.Data.List.Induction
import ClusterControl.Proofs.Store.Changes

/-!
# Stores made from a list of hosts

A store that is made from hosts with different ids lists them by id, in whatever order they were
given, and its maps agree when every machine is filed under its id on one host.
-/

namespace ClusterControl

variable {α : Type}

/-- Every machine is filed under its id, on one host, and carries the id of that host. -/
structure Host.Apart (hosts : List (Host α)) : Prop where
  filed : ∀ {h}, h ∈ hosts → ∀ {v w}, h.vms.get? v = some w → w.id = v ∧ w.hostId = some h.id
  once : ∀ {h k}, h ∈ hosts → k ∈ hosts → ∀ {v}, h.Has v → k.Has v → h.id = k.id

theorem Host.Apart.mono {hosts rest : List (Host α)} (h : Host.Apart hosts)
    (hrest : ∀ k ∈ rest, k ∈ hosts) : Host.Apart rest :=
  ⟨fun hk => h.filed (hrest _ hk), fun hk hk' => h.once (hrest _ hk) (hrest _ hk')⟩

namespace Store

theorem ofHosts_concat (hosts : List (Host α)) (h : Host α) :
    ofHosts (hosts ++ [h]) = (ofHosts hosts).insertHost h := by
  rw [ofHosts, List.foldl_append, List.foldl_cons, List.foldl_nil, ofHosts]

/-- A host is listed under its id. -/
theorem get?_ofHosts {hosts : List (Host α)} (hnodup : (hosts.map Host.id).Nodup) {id : HostId}
    {h : Host α} : (ofHosts hosts).hosts.get? id = some h ↔ h ∈ hosts ∧ h.id = id := by
  induction hosts using List.reverseRecOn with
  | nil => simp [ofHosts, empty]
  | append_singleton hosts k ih =>
    rw [List.map_append, List.map_cons, List.map_nil, List.nodup_append] at hnodup
    obtain ⟨hrest, -, hapart⟩ := hnodup
    have hnew : k.id ∉ hosts.map Host.id := fun hmem => hapart k.id hmem k.id (by simp) rfl
    rw [ofHosts_concat, insertHost, SortedMap.get?_insert]
    split
    · rename_i hid
      rw [Option.some.injEq, List.mem_append, List.mem_singleton]
      constructor
      · rintro rfl
        exact ⟨.inr rfl, hid.symm⟩
      · rintro ⟨hmem | rfl, hh⟩
        · have hsame : h.id = k.id := hh.trans hid
          exact absurd (hsame ▸ List.mem_map_of_mem hmem) hnew
        · rfl
    · rename_i hid
      rw [ih hrest, List.mem_append, List.mem_singleton]
      constructor
      · rintro ⟨hmem, hh⟩
        exact ⟨.inl hmem, hh⟩
      · rintro ⟨hmem | rfl, hh⟩
        · exact ⟨hmem, hh⟩
        · exact absurd hh.symm hid

theorem unassigned_ofHosts (hosts : List (Host α)) : (ofHosts hosts).unassigned = .empty := by
  induction hosts using List.reverseRecOn with
  | nil => rfl
  | append_singleton hosts k ih => rw [ofHosts_concat, insertHost, ih]

/-- Hosts that can be put in the order of their ids have different ones. -/
theorem nodup_ids_of_sorted {hosts listed : List (Host α)} (hperm : hosts.Perm listed)
    (hsorted : listed.Pairwise fun h k => h.id < k.id) : (hosts.map Host.id).Nodup := by
  rw [(hperm.map Host.id).nodup_iff]
  exact (List.pairwise_map.2 hsorted).imp String.ne_of_lt

/-- Hosts are listed in the order of their ids. -/
theorem values_ofHosts {hosts listed : List (Host α)} (hperm : hosts.Perm listed)
    (hsorted : listed.Pairwise fun h k => h.id < k.id) : (ofHosts hosts).hosts.values = listed := by
  have hnodup := nodup_ids_of_sorted hperm hsorted
  let m : SortedMap (Host α) := ⟨listed.map fun h => (h.id, h), List.pairwise_map.2 hsorted⟩
  have hm : (ofHosts hosts).hosts = m := by
    refine SortedMap.ext_get? fun id => Option.ext fun h => ?_
    rw [get?_ofHosts hnodup, hperm.mem_iff, SortedMap.get?_eq_some_iff]
    constructor
    · rintro ⟨hmem, rfl⟩
      exact List.mem_map_of_mem (f := fun h => (h.id, h)) hmem
    · intro hmem
      obtain ⟨k, hk, heq⟩ := List.mem_map.1 hmem
      obtain ⟨rfl, rfl⟩ := Prod.mk.inj heq
      exact ⟨hk, rfl⟩
  rw [hm, SortedMap.values, List.map_map]
  exact List.map_id listed

/-- The maps of the store agree when the hosts have their machines for themselves. -/
theorem consistent_ofHosts {hosts : List (Host α)} (hnodup : (hosts.map Host.id).Nodup)
    (hapart : Host.Apart hosts) : (ofHosts hosts).Consistent := by
  induction hosts using List.reverseRecOn with
  | nil => exact consistent_empty
  | append_singleton hosts k ih =>
    have hboth := hnodup
    rw [List.map_append, List.map_cons, List.map_nil, List.nodup_append] at hboth
    obtain ⟨hrest, -, hdisjoint⟩ := hboth
    have hk : k ∈ hosts ++ [k] := by simp
    have hgood := ih hrest (hapart.mono fun h hh => List.mem_append_left _ hh)
    have hnone : (ofHosts hosts).hosts.get? k.id = none := by
      rw [Option.eq_none_iff_forall_ne_some]
      intro h hget
      obtain ⟨hmem, hid⟩ := (get?_ofHosts hrest).1 hget
      exact hdisjoint k.id (hid ▸ List.mem_map_of_mem hmem) k.id (by simp) rfl
    have hadmits : (ofHosts hosts).Admits k := by
      refine ⟨fun hv => hapart.filed hk hv, fun _ => ?_, fun {v w id} hv hid => ?_⟩
      · rw [unassigned_ofHosts, SortedMap.get?_empty]
      · cases hrecord : (ofHosts hosts).recordOn id v with
        | none => rfl
        | some x =>
          obtain ⟨h, hget, hx⟩ := Option.bind_eq_some_iff.1 hrecord
          obtain ⟨hmem, rfl⟩ := (get?_ofHosts hrest).1 hget
          have hsame : h.id = k.id := hapart.once (List.mem_append_left _ hmem) hk
            (Option.isSome_iff_exists.2 ⟨x, hx⟩) (Option.isSome_iff_exists.2 ⟨w, hv⟩)
          exact absurd hsame hid
    have hadded := hgood.addHost hadmits
    rw [addHost, hnone] at hadded
    rwa [ofHosts_concat]

end Store

end ClusterControl
