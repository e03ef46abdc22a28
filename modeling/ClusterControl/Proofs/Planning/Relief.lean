import ClusterControl.Proofs.Planning.Filling
import ClusterControl.Proofs.Planning.Savings

/-!
# The relief of a host

A host that is too busy or too idle gives up machines.  Each candidate goes to a destination that is
not the host itself and has room, or is left out of the plan; where a candidate goes is recorded
once, so the plan says of each whether it moves and where.

* `Relocation.exists_choices_assignAll` is the decision for each candidate, with what the plan
  records of it and what the destinations gain by it.
* `Relocation.hostsReleased_eq_one_iff` says when the host counts as released.
* `Relocation.relieves` puts the plan and the destinations of a relocation together.
-/

namespace ClusterControl

variable {α : Type}

/-- The destinations of a plan are listed once each. -/
theorem MigrationPlan.length_destinations (p : MigrationPlan) :
    p.destinations.length = (p.moves.map Migration.destination).toFinset.card := by
  have hnodup : p.destinations.Nodup := SortedMap.nodup_keys _
  have hsame : p.destinations.toFinset = (p.moves.map Migration.destination).toFinset := by
    ext id
    rw [List.mem_toFinset, List.mem_toFinset, mem_destinations_iff, List.mem_map]
  rw [← hsame, List.toFinset_card_of_nodup hnodup]

namespace Relocation

/-! ## Decisions -/

/-- The plan records where each machine goes from the source, and nothing else. -/
structure Records (source : HostId) (choices : List (Vm α × Option HostId)) (p : MigrationPlan) :
    Prop where
  sent : ∀ x ∈ choices, p.migrations.get? x.1.id = x.2.map fun d => ⟨x.1.id, some source, d⟩
  others : ∀ v ∉ (choices.map Prod.fst).map Vm.id, p.migrations.get? v = none

namespace Records

variable {source : HostId} {choices : List (Vm α × Option HostId)} {p : MigrationPlan}

theorem destinationOf (h : Records source choices p) {x : Vm α × Option HostId}
    (hx : x ∈ choices) : p.destinationOf x.1.id = x.2 := by
  rw [MigrationPlan.destinationOf, h.sent x hx]
  cases x.2 <;> rfl

theorem congr {q : MigrationPlan} (h : Records source choices p)
    (hsame : q.migrations = p.migrations) : Records source choices q :=
  ⟨hsame ▸ h.sent, hsame ▸ h.others⟩

/-- Every move is that of a machine that was sent somewhere. -/
theorem exists_of_mem_moves (h : Records source choices p) {m : Migration} (hm : m ∈ p.moves) :
    ∃ vm, (vm, some m.destination) ∈ choices ∧ p.migrations.get? vm.id = some m ∧
      m = ⟨vm.id, some source, m.destination⟩ := by
  obtain ⟨v, hv⟩ := SortedMap.mem_values_iff.1 hm
  have hmem : v ∈ (choices.map Prod.fst).map Vm.id := by
    by_contra hnot
    exact absurd (hv.symm.trans (h.others v hnot)) (by simp)
  obtain ⟨vm, hvm, rfl⟩ := List.mem_map.1 hmem
  obtain ⟨⟨vm, choice⟩, hx, rfl⟩ := List.mem_map.1 hvm
  obtain ⟨d, rfl, rfl⟩ := Option.map_eq_some_iff.1 ((h.sent _ hx).symm.trans hv)
  exact ⟨vm, hx, hv, rfl⟩

/-- A machine of which the plan says nothing was sent nowhere. -/
theorem mem_of_get?_eq_none (h : Records source choices p) {vm : Vm α}
    (hvm : vm ∈ choices.map Prod.fst) (hnone : p.migrations.get? vm.id = none) :
    (vm, none) ∈ choices := by
  obtain ⟨⟨vm, choice⟩, hx, rfl⟩ := List.mem_map.1 hvm
  obtain rfl : choice = none := Option.map_eq_none_iff.1 ((h.sent _ hx).symm.trans hnone)
  exact hx

/-- A machine that the plan says nothing of is sent to another host. -/
theorem add (h : Records source choices p) {vm : Vm α}
    (hvm : vm.id ∉ (choices.map Prod.fst).map Vm.id) {d : HostId} (hd : d ≠ source) :
    Records source (choices ++ [(vm, some d)]) (p.add vm.id (some source) d) := by
  refine ⟨fun x hx => ?_, fun v hv => ?_⟩
  · rcases List.mem_append.1 hx with hx | hx
    · have hne : x.1.id ≠ vm.id := fun heq =>
        hvm (heq ▸ List.mem_map_of_mem (List.mem_map_of_mem hx))
      rw [p.get?_add_of_ne _ _ hne, h.sent x hx]
    · have hstart : p.startOf vm.id (some source) = some source := by
        rw [MigrationPlan.startOf, h.others vm.id hvm]
      have hne : p.startOf vm.id (some source) ≠ some d := by
        rw [hstart]
        exact fun heq => hd (Option.some.inj heq).symm
      rw [List.mem_singleton.1 hx, MigrationPlan.get?_add_self hne, hstart]
      rfl
  · rw [List.map_append, List.map_append, List.mem_append, not_or] at hv
    have hne : v ≠ vm.id := fun heq => hv.2 (heq ▸ List.mem_singleton_self _)
    rw [p.get?_add_of_ne _ _ hne, h.others v hv.1]

/-- A machine that the plan says nothing of is sent nowhere. -/
theorem leave (h : Records source choices p) {vm : Vm α}
    (hvm : vm.id ∉ (choices.map Prod.fst).map Vm.id) :
    Records source (choices ++ [(vm, none)]) p := by
  refine ⟨fun x hx => ?_, fun v hv => ?_⟩
  · rcases List.mem_append.1 hx with hx | hx
    · exact h.sent x hx
    · rw [List.mem_singleton.1 hx, h.others vm.id hvm]
      rfl
  · rw [List.map_append, List.map_append, List.mem_append, not_or] at hv
    exact h.others v hv.1

end Records

variable [Quantity α]

theorem nodup_candidates (k : Ranking α) (p : RelocationPolicy) {source : Host α}
    (hfiled : ∀ ⦃v w⦄, source.vms.get? v = some w → w.id = v) :
    ((candidates k p source).map Vm.id).Nodup := by
  have hsorted := (k.perm_sortVms .decreasing source.vms.values).map Vm.id
  exact (hsorted.nodup_iff.2 (Consolidation.nodup_ids hfiled)).sublist
    ((sublist_candidates k p source).map Vm.id)

/-- A relocation under way decides once for every candidate that is still to come, records what it
decides, and fills the destinations that are eligible. -/
theorem exists_choices_foldl (p : RelocationPolicy) (source : Host α) (vms : List (Vm α))
    (s : MigrationPlan × List (Host α)) (earlier : List (Vm α × Option HostId))
    (hids : ((earlier.map Prod.fst ++ vms).map Vm.id).Nodup)
    (hs : Records source.id earlier s.1) : ∃ choices, choices.map Prod.fst = vms ∧
      Records source.id (earlier ++ choices) (vms.foldl (assignStep p source) s).1 ∧
      Fills (fun h => eligible p source h = true) s.2 choices
        (vms.foldl (assignStep p source) s).2 := by
  induction vms generalizing s earlier with
  | nil => exact ⟨[], rfl, by rwa [List.append_nil], .stop s.2⟩
  | cons vm rest ih =>
    have hvm : vm.id ∉ (earlier.map Prod.fst).map Vm.id := by
      rw [List.map_append, List.nodup_append] at hids
      exact fun hmem => hids.2.2 _ hmem _ List.mem_cons_self rfl
    have hrest : ∀ choice, (((earlier ++ [(vm, choice)]).map Prod.fst ++ rest).map Vm.id).Nodup :=
      fun choice => by rwa [List.map_append (f := Prod.fst), List.append_assoc]
    rw [List.foldl_cons]
    obtain ⟨i, k, hk, heligible, htake, hstep⟩ | ⟨hfull, hstep⟩ := assignStep_cases p source s vm
    · rw [hstep]
      have hd : k.id ≠ source.id := (eligible_iff.1 heligible).1
      obtain ⟨choices, hchoices, hrecords, hfills⟩ := ih
        (s.1.add vm.id (some source.id) k.id, s.2.set i (k.assign vm)) _ (hrest _) (hs.add hvm hd)
      rw [← List.append_cons] at hrecords
      exact ⟨_, by rw [List.map_cons, hchoices], hrecords, .take hk heligible htake hfills⟩
    · rw [hstep]
      obtain ⟨choices, hchoices, hrecords, hfills⟩ := ih s _ (hrest _) (hs.leave hvm)
      rw [← List.append_cons] at hrecords
      exact ⟨_, by rw [List.map_cons, hchoices], hrecords, .leave hfull hfills⟩

omit [Quantity α] in
theorem records_empty (source : HostId) (vms : List (Vm α)) :
    Records source (vms.map fun vm => (vm, none)) .empty := by
  refine ⟨fun x hx => ?_, fun v _ => rfl⟩
  obtain ⟨vm, -, rfl⟩ := List.mem_map.1 hx
  rfl

/-- A relocation decides once for every candidate, records what it decides, and fills the eligible
destinations in some order. -/
theorem exists_choices_assignAll (k : Ranking α) (p : RelocationPolicy) (source : Host α)
    {vms : List (Vm α)} (destinations : List (Host α)) (hids : (vms.map Vm.id).Nodup) :
    ∃ choices order, choices.map Prod.fst = vms ∧ order.Perm destinations ∧
      Records source.id choices (assignAll k p source vms destinations).1 ∧
      Fills (fun h => eligible p source h = true) order choices
        (assignAll k p source vms destinations).2 := by
  unfold assignAll
  split
  · rename_i hnothing
    rcases Bool.or_eq_true_iff.1 hnothing with hvms | hdest
    · rw [List.isEmpty_iff.1 hvms]
      exact ⟨[], destinations, rfl, .refl _, records_empty source.id [], .stop destinations⟩
    · rw [List.isEmpty_iff.1 hdest]
      have hchoices : (vms.map fun vm => (vm, (none : Option HostId))).map Prod.fst = vms := by
        rw [List.map_map]
        exact List.map_id vms
      refine ⟨_, [], hchoices, .refl _, records_empty source.id vms, ?_⟩
      clear hids hnothing hchoices
      induction vms with
      | nil => exact .stop []
      | cons vm rest ih => exact .leave (fun h hh => absurd hh List.not_mem_nil) ih
  · obtain ⟨choices, hchoices, hrecords, hfills⟩ := exists_choices_foldl p source vms
      (.empty, k.sortHosts (destinationOrder p) destinations) [] hids (records_empty source.id [])
    exact ⟨choices, _, hchoices, k.perm_sortHosts (destinationOrder p) destinations,
      ⟨hrecords.sent, hrecords.others⟩, hfills⟩

/-! ## Released hosts -/

variable {source : Host α}

omit [Quantity α] in
/-- A plan that moves all machines of the source moves as many as it has. -/
theorem Leaves.size_of_all {p : MigrationPlan} (h : Leaves source p)
    (hall : ∀ v, source.Has v → ∃ m, p.migrations.get? v = some m) :
    p.size = source.vms.size := by
  have hperm : p.migrations.keys.Perm source.vms.keys := by
    refine (List.perm_ext_iff_of_nodup p.migrations.nodup_keys source.vms.nodup_keys).2 fun v => ?_
    rw [SortedMap.mem_keys_iff, SortedMap.mem_keys_iff]
    constructor
    · intro hv
      obtain ⟨m, hm⟩ := Option.isSome_iff_exists.1 hv
      exact (h hm).2
    · exact fun hv => Option.isSome_iff_exists.2 (hall v hv)
  have hlength := hperm.length_eq
  rwa [SortedMap.keys, SortedMap.keys, List.length_map, List.length_map] at hlength

theorem hostsReleased_le_one (k : Ranking α) (p : RelocationPolicy) (source : Host α)
    (destinations : List (Host α)) :
    (relocate k p source destinations).1.hostsReleased ≤ 1 := by
  have hzero : (assignAll k p source (candidates k p source) destinations).1.hostsReleased = 0 :=
    hostsReleased_assignAll k p _ destinations
  unfold relocate
  dsimp only
  split
  · exact hzero.le.trans (Nat.zero_le 1)
  · split
    · exact le_rfl
    · exact hzero.le.trans (Nat.zero_le 1)

/-- A host counts as released if and only if it was underloaded, has machines, and loses them
all. -/
theorem hostsReleased_eq_one_iff {k : Ranking α} {p : RelocationPolicy}
    {destinations : List (Host α)} (hleaves : Leaves source (relocate k p source destinations).1) :
    (relocate k p source destinations).1.hostsReleased = 1 ↔ p = .underload ∧
      source.hasVms = true ∧ ∀ v, source.Has v →
        ∃ m, (relocate k p source destinations).1.migrations.get? v = some m := by
  constructor
  · intro hone
    cases p with
    | overload q =>
      have hzero : (relocate k (.overload q) source destinations).1.hostsReleased = 0 :=
        hostsReleased_assignAll k (.overload q) _ destinations
      exact absurd (hzero.symm.trans hone) (by simp)
    | underload =>
      obtain ⟨-, hvms, hall⟩ := all_of_released hleaves (hone ▸ Nat.one_pos)
      exact ⟨rfl, hvms, hall⟩
  · rintro ⟨rfl, hvms, hall⟩
    obtain ⟨v, hv⟩ := Host.hasVms_iff.1 hvms
    obtain ⟨m, hm⟩ := hall v hv
    have hsize := hleaves.size_of_all hall
    rw [migrations_relocate] at hm
    rw [MigrationPlan.size, migrations_relocate] at hsize
    have hsome : (assignAll k .underload source (candidates k .underload source)
        destinations).1.isEmpty = false := by
      rw [MigrationPlan.isEmpty, ← Bool.not_eq_true, SortedMap.isEmpty_iff]
      exact fun hnone => absurd (hm.symm.trans (hnone v)) (by simp)
    unfold relocate
    dsimp only
    rw [if_pos]
    rw [hsome, MigrationPlan.size, hsize, beq_self_eq_true]
    rfl

/-! ## The plan and the destinations -/

/-- A relocation decides once for every candidate, records what it decides, and fills the eligible
destinations in some order. -/
theorem exists_choices_relocate (k : Ranking α) (p : RelocationPolicy)
    (hfiled : ∀ ⦃v w⦄, source.vms.get? v = some w → w.id = v) (destinations : List (Host α)) :
    ∃ choices order, choices.map Prod.fst = candidates k p source ∧ order.Perm destinations ∧
      Records source.id choices (relocate k p source destinations).1 ∧
      Fills (fun h => eligible p source h = true) order choices
        (relocate k p source destinations).2 := by
  obtain ⟨choices, order, hchoices, hperm, hrecords, hfills⟩ := exists_choices_assignAll k p source
    destinations (nodup_candidates k p hfiled)
  have hhosts : (relocate k p source destinations).2 =
      (assignAll k p source (candidates k p source) destinations).2 := by
    unfold relocate
    dsimp only
    split
    · rfl
    · split <;> rfl
  exact ⟨choices, order, hchoices, hperm,
    hrecords.congr (migrations_relocate k p source destinations), hhosts ▸ hfills⟩

theorem hostsUsed_relocate (k : Ranking α) (p : RelocationPolicy) (source : Host α)
    (destinations : List (Host α)) : (relocate k p source destinations).1.hostsUsed =
      (relocate k p source destinations).1.destinations.length := by
  have hused : (assignAll k p source (candidates k p source) destinations).1.hostsUsed =
      (assignAll k p source (candidates k p source) destinations).1.destinations.length := by
    unfold assignAll
    split <;> rfl
  rw [MigrationPlan.destinations, MigrationPlan.moves, migrations_relocate]
  refine Eq.trans ?_ hused
  unfold relocate
  dsimp only
  split
  · rfl
  · split <;> rfl

/-- A host is relieved by a plan, which leaves the destinations as they are `after`. -/
structure Relieves (k : Ranking α) (p : RelocationPolicy) (source : Host α)
    (destinations : List (Host α)) (plan : MigrationPlan) (after : List (Host α)) : Prop where
  /-- Every move is of a candidate, from the source to another destination that the policy
  admits. -/
  moves : ∀ m ∈ plan.moves, ∃ vm ∈ candidates k p source, ∃ h ∈ destinations,
    m = ⟨vm.id, some source.id, h.id⟩ ∧ plan.migrations.get? vm.id = some m ∧
      source.vms.get? vm.id = some vm ∧ h.id ≠ source.id ∧ (p = .underload → h.isPassive = false)
  /-- The destinations, in some order, have gained the candidates that are moved to them. -/
  gains : ∃ order, order.Perm destinations ∧ List.Forall₂ (fun h h' => h.Gains
    ((candidates k p source).filter fun vm => plan.destinationOf vm.id == some h.id) h') order after
  /-- A destination that received a machine is within its capacity. -/
  fits : ∀ h ∈ after, (∃ m ∈ plan.moves, m.destination = h.id) →
    h.requested.fitsWithin h.capacity = true
  /-- A candidate that is left out fits no destination that the policy admits. -/
  full : ∀ vm ∈ candidates k p source, plan.migrations.get? vm.id = none → ∀ h ∈ after,
    h.id ≠ source.id → (p = .underload → h.isPassive = false) → h.canTake vm = false
  /-- The destinations that receive a machine are counted. -/
  used : plan.hostsUsed = (plan.moves.map Migration.destination).toFinset.card
  /-- The source counts as released when it was underloaded, has machines, and loses them all. -/
  released : plan.hostsReleased ≤ 1 ∧ (plan.hostsReleased = 1 ↔ p = .underload ∧
    source.hasVms = true ∧ ∀ v, source.Has v → ∃ m, plan.migrations.get? v = some m)

section

variable [AddCommMonoid α] [LinearOrder α] [IsOrderedAddMonoid α] [Quantity.Exact α]

/-- Every relocation relieves its source, when no other destination has a machine of it. -/
theorem relieves (k : Ranking α) (p : RelocationPolicy) {source : Host α}
    {destinations : List (Host α)} (hids : (destinations.map Host.id).Nodup)
    (hfiled : ∀ ⦃v w⦄, source.vms.get? v = some w → w.id = v)
    (hothers : ∀ h ∈ destinations, h.id ≠ source.id → ∀ v, source.Has v → ¬h.Has v)
    (hsource : ∀ {v w}, source.vms.get? v = some w → w.requested.Nonneg)
    (hown : ∀ h ∈ destinations, ∀ {v w}, h.vms.get? v = some w → w.requested.Nonneg) :
    Relieves k p source destinations (relocate k p source destinations).1
      (relocate k p source destinations).2 := by
  have hvms : ∀ vm ∈ candidates k p source, source.vms.get? vm.id = some vm := by
    intro vm hvm
    obtain ⟨v, hv⟩ := SortedMap.mem_values_iff.1 (mem_candidates hvm)
    rwa [hfiled hv]
  obtain ⟨choices, order, hchoices, hperm, hrecords, hfills⟩ :=
    exists_choices_relocate k p hfiled destinations
  have horder : (order.map Host.id).Nodup := (hperm.map Host.id).nodup_iff.2 hids
  have hnew : Awaited (fun h => eligible p source h = true) order (choices.map Prod.fst) := by
    rw [hchoices]
    refine ⟨nodup_candidates k p hfiled, fun h hh heligible vm hvm => ?_,
      fun h hh => hown h (hperm.mem_iff.1 hh), fun vm hvm => hsource (hvms vm hvm)⟩
    refine hothers h (hperm.mem_iff.1 hh) (eligible_iff.1 heligible).1 vm.id ?_
    rw [Host.Has, hvms vm hvm]
    rfl
  refine ⟨fun m hm => ?_, ⟨order, hperm, ?_⟩, fun h hh hsome => ?_,
    fun vm hvm hnone h hh hid hp => ?_, ?_, hostsReleased_le_one k p source destinations,
    hostsReleased_eq_one_iff (leaves_relocate k p hfiled destinations)⟩
  · obtain ⟨vm, hchoice, hget, hmove⟩ := hrecords.exists_of_mem_moves hm
    obtain ⟨h, hh, hid, hopen⟩ := hfills.known hchoice
    obtain ⟨hother, hawake⟩ := eligible_iff.1 hopen
    have hvm : vm ∈ candidates k p source := hchoices ▸ List.mem_map_of_mem (f := Prod.fst) hchoice
    exact ⟨vm, hvm, h, hperm.mem_iff.1 hh, hid ▸ hmove, hget, hvms vm hvm, hother, hawake⟩
  · rw [← hchoices]
    simp only [← sentTo_eq_filter fun x hx => hrecords.destinationOf hx]
    exact hfills.gains hnew horder
  · obtain ⟨m, hm, hid⟩ := hsome
    obtain ⟨vm, hchoice, -⟩ := hrecords.exists_of_mem_moves hm
    exact hfills.fits hnew horder hh (List.ne_nil_of_mem (mem_sentTo (hid ▸ hchoice)))
  · have hleft := hrecords.mem_of_get?_eq_none (hchoices ▸ hvm) hnone
    exact hfills.refused hnew hleft hh (eligible_iff.2 ⟨hid, hp⟩)
  · rw [hostsUsed_relocate, MigrationPlan.length_destinations]

end

open Consolidation (byRequest holding idling)

/-- A host with three machines, of which the largest one is too large for the others. -/
def idle : Host ℚ :=
  (((Host.new "s" (.ofFn fun _ => 9) 1).assign (.new "u" (.ofFn fun _ => 4) 1)).assign
    (.new "v" (.ofFn fun _ => 2) 1)).assign (.new "w" (.ofFn fun _ => 1) 1)

/-- The host itself, one with some room, and one that is asleep. -/
def nearby : List (Host ℚ) :=
  [idle, holding "a" "x" 1, (idling "p").withStatus .passive]

theorem relieves_idle :
    (relocate byRequest .underload idle nearby).1.moves =
        [⟨"v", some "s", "a"⟩, ⟨"w", some "s", "a"⟩] ∧
      Relieves byRequest .underload idle nearby (relocate byRequest .underload idle nearby).1
        (relocate byRequest .underload idle nearby).2 := by
  have hfiled : ∀ e ∈ idle.vms.entries, e.2.id = e.1 := by decide +kernel
  have hothers : ∀ h ∈ nearby, h.id ≠ idle.id → ∀ v ∈ idle.vms.keys, v ∉ h.vms.keys := by
    decide +kernel
  have hnonneg : ∀ h ∈ nearby, ∀ e ∈ h.vms.entries, e.2.requested.Nonneg := by decide +kernel
  have hown : ∀ h ∈ nearby, ∀ {v w}, h.vms.get? v = some w → w.requested.Nonneg :=
    fun h hh v w hw => hnonneg h hh (v, w) (SortedMap.get?_eq_some_iff.1 hw)
  refine ⟨by cbv, relieves byRequest .underload (by decide) (fun v w hw => ?_)
    (fun h hh hid v hv hhas => ?_) (hown idle List.mem_cons_self) hown⟩
  · exact hfiled (v, w) (SortedMap.get?_eq_some_iff.1 hw)
  · exact hothers h hh hid v (SortedMap.mem_keys_iff.2 hv) (SortedMap.mem_keys_iff.2 hhas)

end Relocation

end ClusterControl
