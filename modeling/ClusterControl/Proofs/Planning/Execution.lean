import ClusterControl.Proofs.Planning.Consolidation
import ClusterControl.Proofs.Resource.Exact

/-!
# Carrying out a plan

A plan is carried out move by move: a machine leaves its source and is recorded on its destination.
Where the machines are in the end depends on the moves alone, not on their order.

* `Migration.perform` carries out one move on the hosts of a cluster.
* `Migration.performAll_eq_map` says what becomes of every host when some moves are carried out
  that start where their machines are.
-/

namespace ClusterControl

variable {α : Type}

theorem Host.hasVms_iff {h : Host α} : h.hasVms = true ↔ ∃ v, h.Has v := by
  rw [hasVms, Bool.not_eq_true', ← Bool.not_eq_true, SortedMap.isEmpty_iff]
  simp [Has, Option.isSome_iff_ne_none]

/-- The machine leaves its source for its destination; nothing happens when it is not there. -/
def Migration.perform (m : Migration) (hosts : List (Host α)) : List (Host α) :=
  match hosts.findSome? fun h => if some h.id = m.source then h.vms.get? m.vm else none with
  | some vm => hosts.map fun h =>
    let left := if some h.id = m.source then h.unassign m.vm else h
    if h.id = m.destination then left.assign vm else left
  | none => hosts

/-- Moves are carried out one after the other. -/
def Migration.performAll (moves : List Migration) (hosts : List (Host α)) : List (Host α) :=
  moves.foldl (fun hosts m => m.perform hosts) hosts

/-- A plan that has its moves arrive has every one of them once. -/
theorem MigrationPlan.Arrives.nodup_moves {p : MigrationPlan} {copies : List (Host α)}
    (h : p.Arrives copies) : p.moves.Nodup := by
  rw [MigrationPlan.moves, SortedMap.values, List.Nodup, List.pairwise_map]
  refine p.migrations.sorted.imp_of_mem fun {a b} ha hb hlt heq => ?_
  rw [← (h (SortedMap.get?_eq_some_iff.2 ha)).1, ← (h (SortedMap.get?_eq_some_iff.2 hb)).1, heq]
    at hlt
  exact String.lt_irrefl _ hlt

/-- Different moves of a plan are of different machines. -/
theorem MigrationPlan.Arrives.nodup_vms {p : MigrationPlan} {copies : List (Host α)}
    (h : p.Arrives copies) {moves : List Migration} (hmoves : ∀ m ∈ moves, m ∈ p.moves)
    (hnodup : moves.Nodup) : (moves.map Migration.vm).Nodup := by
  refine (List.nodup_map_iff_inj_on hnodup).2 fun m hm m' hm' hvm => ?_
  obtain ⟨v, hv⟩ := SortedMap.mem_values_iff.1 (hmoves m hm)
  obtain ⟨v', hv'⟩ := SortedMap.mem_values_iff.1 (hmoves m' hm')
  rw [← (h hv).1, hvm, (h hv').1, hv'] at hv
  exact (Option.some.inj hv).symm

/-- It is known what the machines of separate hosts ask for. -/
theorem Consolidation.Apart.exists_demand [Quantity α] {hosts : List (Host α)}
    (h : Apart (fun _ => True) hosts) : ∃ demand : VmId → Resources α,
      ∀ k ∈ hosts, ∀ {v w}, k.vms.get? v = some w → w.requested = demand v := by
  refine ⟨fun v => ((hosts.findSome? fun k => k.vms.get? v).map Vm.requested).getD .zero,
    fun k hk {v w} hw => ?_⟩
  have hsome : (hosts.findSome? fun k => k.vms.get? v).isSome = true :=
    List.findSome?_isSome_iff.2 ⟨k, hk, by rw [hw]; rfl⟩
  obtain ⟨u, hu⟩ := Option.isSome_iff_exists.1 hsome
  obtain ⟨k', hk', hget⟩ := List.exists_of_findSome?_eq_some hu
  obtain rfl := h.eq_of_has hk hk' (v := v) (by rw [Host.Has, hw]; rfl)
    (by rw [Host.Has, hget]; rfl)
  rw [hw] at hget
  obtain rfl := Option.some.inj hget
  simp [hu]

namespace Migration

/-- The move takes a machine from a host that has it to another one. -/
def Departs (hosts : List (Host α)) (m : Migration) : Prop :=
  ∃ h ∈ hosts, m.source = some h.id ∧ h.Has m.vm ∧ m.destination ≠ h.id

/-- What becomes of a host when moves have been carried out: it has the machines that were sent to
it, and those of its own that were not sent anywhere. -/
structure Settles (moves : List Migration) (demand : VmId → Resources α) (h h' : Host α) :
    Prop where
  bare : h'.bare = h.bare
  has : ∀ v, h'.Has v ↔ (∃ m ∈ moves, m.vm = v ∧ m.destination = h.id) ∨
    (h.Has v ∧ ∀ m ∈ moves, m.vm ≠ v)
  filed : ∀ {v w}, h'.vms.get? v = some w → w.id = v ∧ w.requested = demand v

theorem Settles.id {moves : List Migration} {demand : VmId → Resources α} {h h' : Host α}
    (hs : Settles moves demand h h') : h'.id = h.id :=
  Host.id_of_bare hs.bare

theorem Settles.isPassive {moves : List Migration} {demand : VmId → Resources α} {h h' : Host α}
    (hs : Settles moves demand h h') : h'.isPassive = h.isPassive :=
  (congrArg Host.isPassive hs.bare : h'.bare.isPassive = h.bare.isPassive)

theorem Settles.capacity {moves : List Migration} {demand : VmId → Resources α} {h h' : Host α}
    (hs : Settles moves demand h h') : h'.capacity = h.capacity :=
  Host.capacity_of_bare hs.bare

theorem settles_nil {demand : VmId → Resources α} {h : Host α}
    (hfiled : ∀ {v w}, h.vms.get? v = some w → w.id = v ∧ w.requested = demand v) :
    Settles [] demand h h :=
  ⟨rfl, by simp, hfiled⟩

variable {hosts : List (Host α)} {moves : List Migration} {demand : VmId → Resources α}

/-- A move that starts where its machine is finds the machine there, whatever other machines have
moved before. -/
theorem Departs.found {m : Migration} (hm : m.Departs hosts) (hfresh : ∀ m' ∈ moves, m'.vm ≠ m.vm)
    {f : Host α → Host α} (hf : ∀ h ∈ hosts, Settles moves demand h (f h)) :
    ∃ vm, ((hosts.map f).findSome? fun h =>
        if some h.id = m.source then h.vms.get? m.vm else none) = some vm ∧
      vm.id = m.vm ∧ vm.requested = demand m.vm := by
  obtain ⟨s, hs, hsource, hhas, -⟩ := hm
  have hstill : (f s).Has m.vm := ((hf s hs).has m.vm).2 (.inr ⟨hhas, hfresh⟩)
  obtain ⟨w, hw⟩ := Option.isSome_iff_exists.1 hstill
  have hsome : ((hosts.map f).findSome? fun h =>
      if some h.id = m.source then h.vms.get? m.vm else none).isSome = true := by
    refine List.findSome?_isSome_iff.2 ⟨f s, List.mem_map_of_mem hs, ?_⟩
    rw [(hf s hs).id, hsource, if_pos rfl, hw]
    rfl
  obtain ⟨vm, hvm⟩ := Option.isSome_iff_exists.1 hsome
  obtain ⟨h', hh', hget⟩ := List.exists_of_findSome?_eq_some hvm
  obtain ⟨h, hh, rfl⟩ := List.mem_map.1 hh'
  split at hget
  · exact ⟨vm, hvm, (hf h hh).filed hget⟩
  · exact absurd hget (by simp)

/-- What a host answers after one more move: the machine that moved is at its destination only. -/
theorem Settles.get?_perform {h h' : Host α} (hh : Settles moves demand h h') (hmem : h ∈ hosts)
    (hapart : Consolidation.Apart (fun _ => True) hosts) {m : Migration} (hm : m.Departs hosts)
    (hfresh : ∀ m' ∈ moves, m'.vm ≠ m.vm) {vm : Vm α} (hid : vm.id = m.vm) (v : VmId) :
    (let left := if some h'.id = m.source then h'.unassign m.vm else h'
      if h'.id = m.destination then left.assign vm else left).vms.get? v =
        if v = m.vm then (if h.id = m.destination then some (vm.on h.id) else none)
        else h'.vms.get? v := by
  obtain ⟨s, hs, hsource, hhas, -⟩ := hm
  have hleft : (if some h'.id = m.source then h'.unassign m.vm else h').vms.get? v =
      if v = m.vm then none else h'.vms.get? v := by
    split
    · exact SortedMap.get?_erase h'.vms m.vm v
    · rename_i hother
      split
      · rename_i hv
        refine Option.not_isSome_iff_eq_none.1 fun hthere => ?_
        rcases (hh.has v).1 hthere with ⟨m', hm', hvm, -⟩ | ⟨hhere, -⟩
        · exact hfresh m' hm' (hvm.trans hv)
        · rw [hh.id, hapart.eq_of_has hmem hs (hv ▸ hhere) hhas, hsource] at hother
          exact hother rfl
      · rfl
  have hleft_id : (if some h'.id = m.source then h'.unassign m.vm else h').id = h.id := by
    split <;> exact hh.id
  dsimp only
  rw [hh.id] at hleft hleft_id ⊢
  split
  · rw [Host.assign, SortedMap.get?_insert, hid, hleft, hleft_id]
    split <;> simp_all
  · rw [hleft]

/-- One more move is carried out. -/
theorem Settles.perform {h h' h'' : Host α} (hh : Settles moves demand h h') {m : Migration}
    (hfresh : ∀ m' ∈ moves, m'.vm ≠ m.vm) {vm : Vm α} (hid : vm.id = m.vm)
    (hdemand : vm.requested = demand m.vm) (hbare : h''.bare = h'.bare)
    (hget : ∀ v, h''.vms.get? v =
      if v = m.vm then (if h.id = m.destination then some (vm.on h.id) else none)
      else h'.vms.get? v) : Settles (moves ++ [m]) demand h h'' := by
  refine ⟨hbare.trans hh.bare, fun v => ?_, fun {v w} hw => ?_⟩
  · rw [Host.Has, hget]
    by_cases hv : v = m.vm
    · rw [if_pos hv]
      constructor
      · intro hsome
        split at hsome
        · rename_i hd
          exact .inl ⟨m, by simp, hv.symm, hd.symm⟩
        · exact absurd hsome (by simp)
      · rintro (⟨m', hm', hvm, hd⟩ | ⟨-, hnone⟩)
        · rcases List.mem_append.1 hm' with hm' | hm'
          · exact absurd (hvm.trans hv) (hfresh m' hm')
          · rw [← List.mem_singleton.1 hm', hd, if_pos rfl]
            rfl
        · exact absurd hv.symm (hnone m (by simp))
    · rw [if_neg hv, ← Host.Has, hh.has v]
      have hnew : m.vm ≠ v := fun h => hv h.symm
      constructor
      · rintro (⟨m', hm', hvm⟩ | ⟨hhere, hnone⟩)
        · exact .inl ⟨m', List.mem_append_left _ hm', hvm⟩
        · exact .inr ⟨hhere, fun m' hm' => (List.mem_append.1 hm').elim (hnone m') fun hm' =>
            List.mem_singleton.1 hm' ▸ hnew⟩
      · rintro (⟨m', hm', hvm⟩ | ⟨hhere, hnone⟩)
        · rcases List.mem_append.1 hm' with hm' | hm'
          · exact .inl ⟨m', hm', hvm⟩
          · exact absurd (List.mem_singleton.1 hm' ▸ hvm.1) hnew
        · exact .inr ⟨hhere, fun m' hm' => hnone m' (List.mem_append_left _ hm')⟩
  · rw [hget] at hw
    by_cases hv : v = m.vm
    · rw [if_pos hv] at hw
      split at hw
      · rw [← Option.some.inj hw, hv]
        exact ⟨hid, hdemand⟩
      · exact absurd hw (by simp)
    · rw [if_neg hv] at hw
      exact hh.filed hw

theorem performAll_concat (moves : List Migration) (m : Migration) (hosts : List (Host α)) :
    performAll (moves ++ [m]) hosts = m.perform (performAll moves hosts) := by
  rw [performAll, List.foldl_append]
  rfl

/-- After moves of different machines that start where the machines are, every host has settled: in
whatever order they are carried out. -/
theorem performAll_eq_map
    (hapart : Consolidation.Apart (fun _ => True) hosts) (hfiled : Consolidation.Filed hosts)
    (hdemand : ∀ h ∈ hosts, ∀ {v w}, h.vms.get? v = some w → w.requested = demand v)
    (hmoves : ∀ m ∈ moves, m.Departs hosts) (hnodup : (moves.map Migration.vm).Nodup) :
    ∃ f : Host α → Host α, performAll moves hosts = hosts.map f ∧
      ∀ h ∈ hosts, Settles moves demand h (f h) := by
  induction moves using List.reverseRecOn with
  | nil =>
    exact ⟨id, (List.map_id hosts).symm, fun h hh =>
      settles_nil fun hw => ⟨hfiled h hh hw, hdemand h hh hw⟩⟩
  | append_singleton moves m ih =>
    rw [List.map_append, List.nodup_append] at hnodup
    obtain ⟨f, hf, hsettled⟩ := ih (fun m' hm' => hmoves m' (List.mem_append_left _ hm')) hnodup.1
    have hfresh : ∀ m' ∈ moves, m'.vm ≠ m.vm := fun m' hm' =>
      hnodup.2.2 m'.vm (List.mem_map_of_mem hm') m.vm (by simp)
    have hm := hmoves m (by simp)
    obtain ⟨vm, hfound, hid, hvm⟩ := hm.found hfresh hsettled
    refine ⟨fun h => let left := if some (f h).id = m.source then (f h).unassign m.vm else f h
      if (f h).id = m.destination then left.assign vm else left, ?_, fun h hh => ?_⟩
    · rw [performAll_concat, hf, perform, hfound]
      exact List.map_map
    · refine (hsettled h hh).perform hfresh hid hvm ?_ fun v =>
        (hsettled h hh).get?_perform hh hapart hm hfresh hid v
      dsimp only
      split <;> split <;> simp

end Migration

end ClusterControl
