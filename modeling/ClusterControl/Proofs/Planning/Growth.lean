import ClusterControl.Planning.Placement
import ClusterControl.Planning.Relocation
import ClusterControl.Proofs.Store.Consistency

/-!
# Hosts that are planned with

A planner works on copies of the hosts: it looks for a host that can take a machine, and puts the
machine there.  The copies only gain machines, and what a plan sends somewhere is on the copy there.

* `Planned` says what the copies keep of the hosts, and of a property that taking machines keeps.
* `Placement.place_eq_foldl` takes a placement apart into its steps, one for each machine;
  `Placement.step_of_choose_eq_some`, `Placement.step_of_choose_eq_none` and
  `Relocation.assignStep_cases` say what a step does.
* `Placement.sound_place` and `Relocation.planned_relocate` say what is so of the copies that the
  policies end with.
-/

namespace ClusterControl

variable {α : Type}

/-- One of the hosts receives a machine. -/
def Receives (hosts : List (Host α)) (v : VmId) (d : HostId) : Prop :=
  ∃ k ∈ hosts, k.id = d ∧ k.Has v

/-- The hosts are copies of some of the given ones, one of each at most, that have gained machines,
each with a property. -/
structure Planned (hosts : List (Host α)) (Φ : Host α → Prop) (copies : List (Host α)) : Prop where
  origin : ∀ k ∈ copies, ∃ h ∈ hosts, k.bare = h.bare ∧ ∀ v, h.Has v → k.Has v
  distinct : (copies.map Host.id).Nodup
  fine : ∀ k ∈ copies, Φ k

theorem Planned.start {hosts : List (Host α)} {Φ : Host α → Prop}
    (hids : (hosts.map Host.id).Nodup) (h : ∀ k ∈ hosts, Φ k) : Planned hosts Φ hosts :=
  ⟨fun k hk => ⟨k, hk, rfl, fun _ hv => hv⟩, hids, h⟩

/-- What one of the copies receives is on the copy with that id. -/
theorem Planned.has_of_receives {hosts copies : List (Host α)} {Φ : Host α → Prop}
    (h : Planned hosts Φ copies) {k : Host α} (hk : k ∈ copies) {v : VmId}
    (hv : Receives copies v k.id) : k.Has v := by
  obtain ⟨k', hk', hid, hhas⟩ := hv
  rwa [← List.inj_on_of_nodup_map h.distinct hk' hk hid]

/-- Machines are received only where a host was given. -/
theorem Planned.exists_of_receives {hosts copies : List (Host α)} {Φ : Host α → Prop}
    (h : Planned hosts Φ copies) {v : VmId} {d : HostId} (hv : Receives copies v d) :
    ∃ k ∈ hosts, k.id = d := by
  obtain ⟨k', hk', rfl, -⟩ := hv
  obtain ⟨k, hk, hbare, -⟩ := h.origin k' hk'
  exact ⟨k, hk, (Host.id_of_bare hbare).symm⟩

theorem Planned.perm {hosts copies copies' : List (Host α)} {Φ : Host α → Prop}
    (h : Planned hosts Φ copies) (hp : copies'.Perm copies) : Planned hosts Φ copies' :=
  ⟨fun k hk => h.origin k (hp.mem_iff.1 hk), (hp.map Host.id).nodup_iff.2 h.distinct,
    fun k hk => h.fine k (hp.mem_iff.1 hk)⟩

/-- Some of the copies are planned as well. -/
theorem Planned.sublist {hosts copies copies' : List (Host α)} {Φ : Host α → Prop}
    (h : Planned hosts Φ copies) (hs : copies'.Sublist copies) : Planned hosts Φ copies' :=
  ⟨fun k hk => h.origin k (hs.mem hk), h.distinct.sublist (hs.map Host.id),
    fun k hk => h.fine k (hs.mem hk)⟩

theorem Receives.perm {copies copies' : List (Host α)} {v : VmId} {d : HostId}
    (h : Receives copies v d) (hp : copies'.Perm copies) : Receives copies' v d := by
  obtain ⟨k, hk, hd, hv⟩ := h
  exact ⟨k, hp.mem_iff.2 hk, hd, hv⟩

/-- Hosts keep their ids when one takes a machine. -/
theorem ids_set_assign {copies : List (Host α)} {i : Nat} {k : Host α} (hk : copies[i]? = some k)
    (vm : Vm α) : (copies.set i (k.assign vm)).map Host.id = copies.map Host.id := by
  have hget : (copies.map Host.id)[i]? = some k.id := by
    rw [List.getElem?_map, hk, Option.map_some]
  obtain ⟨hlt, hid⟩ := List.getElem?_eq_some_iff.1 hget
  rw [List.map_set, show (k.assign vm).id = (copies.map Host.id)[i] from hid.symm]
  exact List.set_getElem_self hlt

/-- A copy takes a machine. -/
theorem Planned.assign {hosts copies : List (Host α)} {Φ : Host α → Prop}
    (h : Planned hosts Φ copies) {i : Nat} {k : Host α} (hk : copies[i]? = some k) {vm : Vm α}
    (hΦ : Φ (k.assign vm)) : Planned hosts Φ (copies.set i (k.assign vm)) := by
  refine ⟨fun k' hk' => ?_, ?_, fun k' hk' => ?_⟩
  · obtain hmem | rfl := List.mem_or_eq_of_mem_set hk'
    · exact h.origin k' hmem
    · obtain ⟨h₀, hh₀, hbare, hvms⟩ := h.origin k (List.mem_of_getElem? hk)
      refine ⟨h₀, hh₀, hbare, fun v hv => ?_⟩
      exact (k.has_assign vm v).2 (.inr (hvms v hv))
  · rw [ids_set_assign hk]
    exact h.distinct
  · obtain hmem | rfl := List.mem_or_eq_of_mem_set hk'
    · exact h.fine k' hmem
    · exact hΦ

/-- What was received stays received while copies take machines. -/
theorem Receives.assign {copies : List (Host α)} {v : VmId} {d : HostId}
    (h : Receives copies v d) {i : Nat} {k : Host α} (hk : copies[i]? = some k) (vm : Vm α) :
    Receives (copies.set i (k.assign vm)) v d := by
  obtain ⟨k', hmem, hd, hv⟩ := h
  obtain ⟨n, hn⟩ := List.mem_iff_getElem?.1 hmem
  have hlt : i < copies.length := (List.getElem?_eq_some_iff.1 hk).1
  by_cases hni : i = n
  · subst hni
    rw [hk] at hn
    obtain rfl := Option.some.inj hn
    exact ⟨k.assign vm, List.mem_of_getElem? (List.getElem?_set_self hlt), hd,
      (k.has_assign vm v).2 (.inr hv)⟩
  · refine ⟨k', List.mem_of_getElem? (i := n) ?_, hd, hv⟩
    rw [List.getElem?_set_ne hni, hn]

theorem receives_assign {copies : List (Host α)} {i : Nat} {k : Host α}
    (hk : copies[i]? = some k) (vm : Vm α) :
    Receives (copies.set i (k.assign vm)) vm.id k.id := by
  have hlt : i < copies.length := (List.getElem?_eq_some_iff.1 hk).1
  exact ⟨k.assign vm, List.mem_of_getElem? (List.getElem?_set_self hlt), rfl,
    (k.has_assign vm vm.id).2 (.inl rfl)⟩

/-! ## Plans -/

namespace MigrationPlan

/-- Recording a move files it under the machine, or takes the machine out of the plan. -/
theorem migrations_add (p : MigrationPlan) (vm : VmId) (source : Option HostId) (d : HostId) :
    ∃ start, (p.add vm source d).migrations = if start = some d then p.migrations.erase vm
      else p.migrations.insert vm ⟨vm, start, d⟩ := by
  unfold add
  cases p.migrations.get? vm with
  | none =>
    refine ⟨source, ?_⟩
    dsimp only
    split <;> rfl
  | some m =>
    refine ⟨m.source, ?_⟩
    dsimp only
    split <;> rfl

/-- What is planned for a machine after one more move is recorded: that move, or what was planned
before. -/
theorem get?_add {p : MigrationPlan} {vm v : VmId} {source : Option HostId} {d : HostId}
    {m : Migration} (h : (p.add vm source d).migrations.get? v = some m) :
    (v = vm ∧ m.vm = vm ∧ m.destination = d) ∨ v ≠ vm ∧ p.migrations.get? v = some m := by
  obtain ⟨start, hadd⟩ := p.migrations_add vm source d
  rw [hadd] at h
  by_cases hv : v = vm
  · split at h
    · rw [SortedMap.get?_erase, if_pos hv] at h
      exact absurd h (by simp)
    · rw [SortedMap.get?_insert, if_pos hv] at h
      rw [← Option.some.inj h]
      exact .inl ⟨hv, rfl, rfl⟩
  · split at h
    · rw [SortedMap.get?_erase, if_neg hv] at h
      exact .inr ⟨hv, h⟩
    · rw [SortedMap.get?_insert, if_neg hv] at h
      exact .inr ⟨hv, h⟩

/-- Every machine of a plan is received where the plan sends it. -/
def Arrives (p : MigrationPlan) (copies : List (Host α)) : Prop :=
  ∀ ⦃v m⦄, p.migrations.get? v = some m → m.vm = v ∧ Receives copies v m.destination

theorem arrives_empty (copies : List (Host α)) : empty.Arrives copies :=
  fun _ _ h => absurd h (by simp [empty])

theorem Arrives.perm {p : MigrationPlan} {copies copies' : List (Host α)} (h : p.Arrives copies)
    (hp : copies'.Perm copies) : p.Arrives copies' :=
  fun _ _ hv => ⟨(h hv).1, (h hv).2.perm hp⟩

theorem Arrives.mem_moves {p : MigrationPlan} {copies : List (Host α)} (h : p.Arrives copies)
    {m : Migration} (hm : m ∈ p.moves) : Receives copies m.vm m.destination := by
  obtain ⟨v, hv⟩ := SortedMap.mem_values_iff.1 hm
  obtain ⟨rfl, hreceived⟩ := h hv
  exact hreceived

/-- The destinations of a plan are the hosts that a machine is moved to. -/
theorem mem_destinations_iff {p : MigrationPlan} {id : HostId} :
    id ∈ p.destinations ↔ ∃ m ∈ p.moves, m.destination = id := by
  have hfold : ∀ l : List Migration, SortedMap.ofList (l.map fun m => (m.destination, ())) =
      (l.map Migration.destination).foldl (fun ds d => ds.insert d ()) .empty := by
    intro l
    rw [SortedMap.ofList, List.foldl_map, List.foldl_map]
  rw [destinations, hfold, SortedMap.mem_keys_iff, SortedMap.get?_foldl_insert, ← List.mem_map]
  by_cases hid : id ∈ p.moves.map Migration.destination
  · simp [hid]
  · simp [hid]

end MigrationPlan

variable [Quantity α]

namespace Ranking

/-- Ranking hosts only changes their order. -/
theorem perm_sortHosts (k : Ranking α) (o : SortOrder) (hosts : List (Host α)) :
    (k.sortHosts o hosts).Perm hosts := by
  have hsorted := (List.mergeSort_perm (hosts.map fun h => (k.hostLoad h, h)) fun a b =>
    ((o.direct (Quantity.compare a.1 b.1)).then (compare a.2.status.rank b.2.status.rank)).isLE).map
      (·.2)
  rwa [List.map_map, show ((·.2) ∘ fun h : Host α => (k.hostLoad h, h)) = id from rfl,
    List.map_id] at hsorted

theorem perm_sortVms (k : Ranking α) (o : SortOrder) (vms : List (Vm α)) :
    (k.sortVms o vms).Perm vms := by
  have hsorted := (List.mergeSort_perm (vms.map fun vm => (k.vmLoad vm, vm)) fun a b =>
    (o.direct (Quantity.compare a.1 b.1)).isLE).map (·.2)
  rwa [List.map_map, show ((·.2) ∘ fun vm : Vm α => (k.vmLoad vm, vm)) = id from rfl,
    List.map_id] at hsorted

end Ranking

/-! ## Placement -/

namespace Placement

/-! ### One machine at a time -/

/-- Where a policy starts to look with a batch. -/
def origin (p : PlacementPolicy) (cursor count : Nat) : Nat :=
  match p with
  | .firstFit => cursor
  | .roundRobin => cursor % count

/-- Index of the host that a policy finds for a machine. -/
def choose (p : PlacementPolicy) (s : Progress α) (vm : Vm α) : Option Nat :=
  match p with
  | .firstFit => firstFitting vm s.hosts
  | .roundRobin => nextFitting vm s.hosts s.position

/-- Where a policy goes on to look after it found a host. -/
def advance (p : PlacementPolicy) (s : Progress α) (i : Nat) : Nat :=
  match p with
  | .firstFit => s.position
  | .roundRobin => (i + 1) % s.hosts.length

/-- Places one machine of a batch. -/
def step : PlacementPolicy → Progress α → Vm α → Progress α
  | .firstFit => firstFitStep
  | .roundRobin => roundRobinStep

/-- A batch is placed one machine at a time, also when no hosts are offered. -/
theorem place_eq_foldl (p : PlacementPolicy) (cursor : Nat) (vms : List (Vm α))
    (hosts : List (Host α)) : place p cursor vms hosts =
      vms.foldl (step p) ⟨.empty, hosts, origin p cursor hosts.length⟩ := by
  have hnone : ∀ (vms left : List (Vm α)),
      vms.foldl roundRobinStep (⟨⟨[], left⟩, [], cursor⟩ : Progress α) =
        ⟨⟨[], left ++ vms⟩, [], cursor⟩ := by
    intro vms
    induction vms with
    | nil => simp
    | cons vm rest ih =>
      intro left
      rw [List.foldl_cons, show roundRobinStep (⟨⟨[], left⟩, [], cursor⟩ : Progress α) vm =
        ⟨⟨[], left ++ [vm]⟩, [], cursor⟩ from rfl, ih, List.append_assoc, List.singleton_append]
  cases p with
  | firstFit => rfl
  | roundRobin =>
    unfold place
    dsimp only
    split
    · rename_i hempty
      rw [List.isEmpty_iff.1 hempty, List.length_nil,
        show origin .roundRobin cursor 0 = cursor from Nat.mod_zero _]
      exact (hnone vms []).symm
    · rfl

/-- What comes later in a batch is placed on top of what came before. -/
theorem place_append (p : PlacementPolicy) (cursor : Nat) (before after : List (Vm α))
    (hosts : List (Host α)) : place p cursor (before ++ after) hosts =
      after.foldl (step p) (place p cursor before hosts) := by
  rw [place_eq_foldl, place_eq_foldl, List.foldl_append]

theorem canTake_of_firstFitting {vm : Vm α} {l : List (Host α)} {i : Nat} {k : Host α}
    (hi : firstFitting vm l = some i) (hk : l[i]? = some k) : k.canTake vm = true := by
  obtain ⟨hlt, hfits, -⟩ := List.findIdx?_eq_some_iff_getElem.1 hi
  obtain ⟨-, rfl⟩ := List.getElem?_eq_some_iff.1 hk
  exact hfits

theorem canTake_of_nextFitting {vm : Vm α} {l : List (Host α)} {position i : Nat} {k : Host α}
    (hi : nextFitting vm l position = some i) (hk : l[i]? = some k) : k.canTake vm = true := by
  have hfits := List.find?_some hi
  simpa only [hk] using hfits

/-- Every index is in the cycle, wherever it starts. -/
theorem mem_cycleFrom {position count i : Nat} (hi : i < count) : i ∈ cycleFrom position count := by
  have hpos : position % count < count := Nat.mod_lt _ (by omega)
  refine List.mem_map.2 ⟨(i + (count - position % count)) % count,
    List.mem_range.2 (Nat.mod_lt _ (by omega)), ?_⟩
  calc (position + (i + (count - position % count)) % count) % count
      = (position % count + (i + (count - position % count))) % count := by
        rw [Nat.add_mod, Nat.mod_mod, ← Nat.add_mod, Nat.mod_add_mod]
    _ = (i + count) % count := by congr 1; omega
    _ = i := by rw [Nat.add_mod_right, Nat.mod_eq_of_lt hi]

/-- A machine for which a host is found goes there. -/
theorem step_of_choose_eq_some {p : PlacementPolicy} {s : Progress α} {vm : Vm α} {i : Nat}
    (hi : choose p s vm = some i) : ∃ k, s.hosts[i]? = some k ∧ k.canTake vm = true ∧
      step p s vm = ⟨s.plan.assign vm k.id, s.hosts.set i (k.assign vm), advance p s i⟩ := by
  have hlt : i < s.hosts.length := by
    cases p with
    | firstFit => exact (List.findIdx?_eq_some_iff_getElem.1 hi).1
    | roundRobin =>
      obtain ⟨offset, hoffset, rfl⟩ := List.mem_map.1 (List.mem_of_find?_eq_some hi)
      exact Nat.mod_lt _ (by have := List.mem_range.1 hoffset; omega)
  have hget := List.getElem?_eq_getElem hlt
  have hsettle : settle s vm (some i) =
      { s with plan := s.plan.assign vm s.hosts[i].id,
               hosts := s.hosts.set i (s.hosts[i].assign vm) } := by
    unfold settle
    rw [Option.bind_some, hget, Option.map_some]
  refine ⟨s.hosts[i], hget, ?_, ?_⟩
  · cases p with
    | firstFit => exact canTake_of_firstFitting hi hget
    | roundRobin => exact canTake_of_nextFitting hi hget
  · cases p with
    | firstFit =>
      rw [step, firstFitStep, show firstFitting vm s.hosts = some i from hi, hsettle]
      rfl
    | roundRobin =>
      rw [step, roundRobinStep, show nextFitting vm s.hosts s.position = some i from hi]
      dsimp only
      rw [hsettle]
      rfl

/-- A machine for which no host is found fits none, and is left unassigned. -/
theorem step_of_choose_eq_none {p : PlacementPolicy} {s : Progress α} {vm : Vm α}
    (hnone : choose p s vm = none) : (∀ k ∈ s.hosts, k.canTake vm = false) ∧
      step p s vm = { s with plan := s.plan.leave vm } := by
  cases p with
  | firstFit =>
    refine ⟨fun k hk => by simpa using List.findIdx?_eq_none_iff.1 hnone k hk, ?_⟩
    rw [step, firstFitStep, show firstFitting vm s.hosts = none from hnone]
    rfl
  | roundRobin =>
    refine ⟨fun k hk => ?_, ?_⟩
    · obtain ⟨i, hget⟩ := List.mem_iff_getElem?.1 hk
      have hlt := (List.getElem?_eq_some_iff.1 hget).1
      have hi := List.find?_eq_none.1 hnone i (mem_cycleFrom hlt)
      simpa [hget] using hi
    · rw [step, roundRobinStep, show nextFitting vm s.hosts s.position = none from hnone]
      rfl

/-! ### Whole batches -/

variable {hosts : List (Host α)} {batch : List (Vm α)} {Φ : Host α → Prop}

/-- What holds of a placement under way: the copies are planned, and every assignment is of a
machine of the batch, which its host has received. -/
structure Sound (hosts : List (Host α)) (batch : List (Vm α)) (Φ : Host α → Prop)
    (s : Progress α) : Prop where
  planned : Planned hosts Φ s.hosts
  assigned : ∀ a ∈ s.plan.assignments, (∃ vm ∈ batch, a.vm = vm.on a.host) ∧
    Receives s.hosts a.vm.id a.host

/-- A machine is placed on a host that can take it, or on none. -/
theorem Sound.step (hΦ : ∀ h vm, vm ∈ batch → Φ h → h.canTake vm = true → Φ (h.assign vm))
    {s : Progress α} (h : Sound hosts batch Φ s) (p : PlacementPolicy) {vm : Vm α}
    (hvm : vm ∈ batch) : Sound hosts batch Φ (step p s vm) := by
  cases hchoice : choose p s vm with
  | some i =>
    obtain ⟨k, hk, htake, hstep⟩ := step_of_choose_eq_some hchoice
    rw [hstep]
    have hfine := h.planned.fine k (List.mem_of_getElem? hk)
    refine ⟨h.planned.assign hk (hΦ k vm hvm hfine htake), fun a ha => ?_⟩
    rcases List.mem_append.1 ha with ha | ha
    · exact ⟨(h.assigned a ha).1, (h.assigned a ha).2.assign hk vm⟩
    · rw [List.mem_singleton.1 ha]
      exact ⟨⟨vm, hvm, rfl⟩, receives_assign hk vm⟩
  | none =>
    rw [(step_of_choose_eq_none hchoice).2]
    exact ⟨h.planned, h.assigned⟩

/-- A whole batch is placed on copies of the offered hosts. -/
theorem sound_place (p : PlacementPolicy) (cursor : Nat) (hids : (hosts.map Host.id).Nodup)
    (hhosts : ∀ h ∈ hosts, Φ h)
    (hΦ : ∀ h vm, vm ∈ batch → Φ h → h.canTake vm = true → Φ (h.assign vm)) :
    Sound hosts batch Φ (place p cursor batch hosts) := by
  have hfold : ∀ (l : List (Vm α)) s, (∀ vm ∈ l, vm ∈ batch) → Sound hosts batch Φ s →
      Sound hosts batch Φ (l.foldl (step p) s) := by
    intro l
    induction l with
    | nil => exact fun s _ hs => hs
    | cons vm rest ih =>
      intro s hl hs
      exact ih _ (fun w hw => hl w (List.mem_cons_of_mem _ hw))
        (hs.step hΦ p (hl vm List.mem_cons_self))
  rw [place_eq_foldl]
  exact hfold batch _ (fun _ h => h)
    ⟨.start hids hhosts, fun a ha => absurd ha List.not_mem_nil⟩

end Placement

/-! ## Relocation -/

namespace Relocation

variable {source : Host α} {hosts : List (Host α)} {Φ : Host α → Prop}

/-- The machines that a host gives up are some of its machines, each once. -/
theorem sublist_candidates (k : Ranking α) (p : RelocationPolicy) (source : Host α) :
    (candidates k p source).Sublist (k.sortVms .decreasing source.vms.values) := by
  have htake : ∀ (e : Estimator α) (capacity upper remaining : Resources α) (l : List (Vm α)),
      (takeUntilRelieved e capacity upper remaining l).Sublist l := by
    intro e capacity upper remaining l
    induction l generalizing remaining with
    | nil => exact .refl _
    | cons vm rest ih =>
      unfold takeUntilRelieved
      split
      · exact List.nil_sublist _
      · exact (ih _).cons_cons vm
  cases p with
  | underload => exact .refl _
  | overload q =>
    cases q with
    | single => exact List.take_sublist _ _
    | greedy => exact htake _ _ _ _ _

theorem mem_candidates {k : Ranking α} {p : RelocationPolicy} {vm : Vm α}
    (hvm : vm ∈ candidates k p source) : vm ∈ source.vms.values :=
  (k.perm_sortVms .decreasing source.vms.values).mem_iff.1
    ((sublist_candidates k p source).mem hvm)

omit [Quantity α] in
theorem eligible_iff {p : RelocationPolicy} {h : Host α} : eligible p source h = true ↔
    h.id ≠ source.id ∧ (p = .underload → h.isPassive = false) := by
  rw [eligible, Bool.and_eq_true, bne_iff_ne]
  cases p <;> simp [RelocationPolicy.includesPassive]

/-- A candidate goes to an eligible destination that can take it, or fits none and stays out of the
plan. -/
theorem assignStep_cases (p : RelocationPolicy) (source : Host α)
    (s : MigrationPlan × List (Host α)) (vm : Vm α) :
    (∃ i k, s.2[i]? = some k ∧ eligible p source k = true ∧ k.canTake vm = true ∧
      assignStep p source s vm =
        (s.1.add vm.id (some source.id) k.id, s.2.set i (k.assign vm))) ∨
    ((∀ k ∈ s.2, eligible p source k = true → k.canTake vm = false) ∧
      assignStep p source s vm = s) := by
  unfold assignStep
  dsimp only
  cases htarget : s.2.findIdx? fun h => eligible p source h && h.canTake vm with
  | none =>
    refine .inr ⟨fun k hk heligible => ?_, rfl⟩
    have hnot := List.findIdx?_eq_none_iff.1 htarget k hk
    rwa [heligible, Bool.true_and] at hnot
  | some i =>
    obtain ⟨hlt, hfits, -⟩ := List.findIdx?_eq_some_iff_getElem.1 htarget
    obtain ⟨heligible, htake⟩ := Bool.and_eq_true_iff.1 hfits
    refine .inl ⟨i, s.2[i], List.getElem?_eq_getElem hlt, heligible, htake, ?_⟩
    rw [Option.bind_some, List.getElem?_eq_getElem hlt, Option.map_some]

/-- Every candidate goes to a copy that can take it, or stays out of the plan. -/
theorem planned_assignStep (p : RelocationPolicy) {batch : List (Vm α)}
    (hΦ : ∀ h vm, vm ∈ batch → Φ h → h.canTake vm = true → Φ (h.assign vm))
    {s : MigrationPlan × List (Host α)} (hs : Planned hosts Φ s.2) (hplan : s.1.Arrives s.2)
    {vm : Vm α} (hvm : vm ∈ batch) : Planned hosts Φ (assignStep p source s vm).2 ∧
      (assignStep p source s vm).1.Arrives (assignStep p source s vm).2 := by
  obtain ⟨i, k, hk, -, htake, hstep⟩ | ⟨-, hstep⟩ := assignStep_cases p source s vm
  · rw [hstep]
    refine ⟨hs.assign hk (hΦ k vm hvm (hs.fine k (List.mem_of_getElem? hk)) htake), ?_⟩
    intro v m hm
    obtain ⟨rfl, hmv, hd⟩ | ⟨-, hold⟩ := MigrationPlan.get?_add hm
    · rw [hd]
      exact ⟨hmv, receives_assign hk vm⟩
    · exact ⟨(hplan hold).1, (hplan hold).2.assign hk vm⟩
  · rw [hstep]
    exact ⟨hs, hplan⟩

/-- A relocation is planned on copies of the destinations, and each machine it moves arrives. -/
theorem planned_relocate (k : Ranking α) (p : RelocationPolicy) (hids : (hosts.map Host.id).Nodup)
    (hhosts : ∀ h ∈ hosts, Φ h)
    (hΦ : ∀ h vm, vm ∈ source.vms.values → Φ h → h.canTake vm = true → Φ (h.assign vm)) :
    ∃ copies, Planned hosts Φ copies ∧ (relocate k p source hosts).1.Arrives copies := by
  have hall : ∃ copies, Planned hosts Φ copies ∧
      (assignAll k p source (candidates k p source) hosts).1.Arrives copies := by
    unfold assignAll
    split
    · exact ⟨hosts, .start hids hhosts, MigrationPlan.arrives_empty _⟩
    · have hfold : ∀ (l : List (Vm α)) (s : MigrationPlan × List (Host α)),
          (∀ vm ∈ l, vm ∈ source.vms.values) → Planned hosts Φ s.2 → s.1.Arrives s.2 →
          Planned hosts Φ (l.foldl (assignStep p source) s).2 ∧
            (l.foldl (assignStep p source) s).1.Arrives (l.foldl (assignStep p source) s).2 := by
        intro l
        induction l with
        | nil => exact fun s _ hs hplan => ⟨hs, hplan⟩
        | cons vm rest ih =>
          intro s hl hs hplan
          obtain ⟨hs', hplan'⟩ :=
            planned_assignStep p hΦ hs hplan (hl vm List.mem_cons_self)
          exact ih _ (fun w hw => hl w (List.mem_cons_of_mem _ hw)) hs' hplan'
      have hsorted := (Planned.start hids hhosts).perm (k.perm_sortHosts (destinationOrder p) hosts)
      obtain ⟨hs, hplan⟩ := hfold (candidates k p source) (.empty, _)
        (fun vm hvm => mem_candidates hvm) hsorted (MigrationPlan.arrives_empty _)
      exact ⟨_, hs, hplan⟩
  obtain ⟨copies, hplanned, harrives⟩ := hall
  refine ⟨copies, hplanned, ?_⟩
  unfold relocate
  dsimp only
  split
  · exact harrives
  · split
    · exact harrives
    · exact harrives

/-- Whatever the hosts are like, their copies have what the plan sends there. -/
theorem arrives_relocate (k : Ranking α) (p : RelocationPolicy) (source : Host α)
    (hids : (hosts.map Host.id).Nodup) : ∃ copies, Planned hosts (fun _ => True) copies ∧
      (relocate k p source hosts).1.Arrives copies :=
  planned_relocate k p hids (fun _ _ => trivial) fun _ _ _ _ _ => trivial

/-- Machines are moved to listed destinations only. -/
theorem exists_of_mem_destinations {k : Ranking α} {p : RelocationPolicy}
    (hids : (hosts.map Host.id).Nodup) {id : HostId}
    (hid : id ∈ (relocate k p source hosts).1.destinations) : ∃ h ∈ hosts, h.id = id := by
  obtain ⟨m, hm, rfl⟩ := MigrationPlan.mem_destinations_iff.1 hid
  obtain ⟨copies, hplanned, harrives⟩ := arrives_relocate k p source hids
  exact hplanned.exists_of_receives (harrives.mem_moves hm)

end Relocation

end ClusterControl
