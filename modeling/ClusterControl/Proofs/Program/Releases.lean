import ClusterControl.Proofs.Planning.Relief
import ClusterControl.Proofs.Planning.Savings
import ClusterControl.Proofs.Program.Outcomes
import ClusterControl.Proofs.Store.Power

/-!
# Hosts that lose all their machines

A plan says how many hosts it releases.  How many have indeed lost all their machines is seen when
the outcomes of its migrations are known: a machine whose migration failed is still where it was.

* `Carried.recordOn_isSome_iff` says which machines a host has once a plan was carried out.
* `Reconfiguration.released_account` compares the hosts that a consolidation releases with those
  that have lost all their machines.
* `Resolution.released_account` says that the two agree for an underloaded host, when those releases
  are passed over of which a migration failed.
-/

namespace ClusterControl

variable {α : Type} {s s' : Store α}

/-! ## Hosts with machines -/

namespace Store

/-- The host has machines. -/
def occupied (s : Store α) (id : HostId) : Bool := (s.hosts.get? id).any Host.hasVms

/-- The hosts that had machines and have none any more. -/
def vacated (s s' : Store α) : List HostId :=
  s.hosts.keys.filter fun id => s.occupied id && !s'.occupied id

theorem occupied_iff {id : HostId} :
    s.occupied id = true ↔ ∃ v, (s.recordOn id v).isSome = true := by
  rw [occupied]
  cases hget : s.hosts.get? id with
  | none => simp [recordOn_of_get?_none hget]
  | some h =>
    rw [Option.any_some, Host.hasVms_iff]
    simp only [recordOn_of_get? hget, Host.Has]

theorem occupied_eq_false_iff {id : HostId} : s.occupied id = false ↔ s.Empties id := by
  rw [← Bool.not_eq_true, occupied_iff, not_exists]
  exact forall_congr' fun v => Option.not_isSome_iff_eq_none

theorem Shows.occupied {h : Host α} (hh : s.Shows h) : s.occupied h.id = h.hasVms := by
  rw [Bool.eq_iff_iff, occupied_iff, Host.hasVms_iff]
  exact exists_congr fun v => (hh.has_iff v).symm

theorem mem_vacated {id : HostId} :
    id ∈ s.vacated s' ↔ s.occupied id = true ∧ s'.occupied id = false := by
  rw [vacated, List.mem_filter, Bool.and_eq_true, Bool.not_eq_true']
  refine and_iff_right_of_imp fun h => ?_
  obtain ⟨k, hget, -⟩ := (Option.any_eq_true _ _).1 h.1
  exact SortedMap.mem_keys_iff.2 (Option.isSome_iff_exists.2 ⟨k, hget⟩)

theorem nodup_vacated (s s' : Store α) : (s.vacated s').Nodup :=
  s.hosts.nodup_keys.sublist List.filter_sublist

/-- Where no machine has changed place, no host is vacated. -/
theorem vacated_of_sameOf (h : ∀ v, SameOf s s' v) : s.vacated s' = [] := by
  rw [List.eq_nil_iff_forall_not_mem]
  intro id hid
  obtain ⟨hbefore, hafter⟩ := mem_vacated.1 hid
  obtain ⟨v, hv⟩ := occupied_iff.1 hbefore
  rw [← (h v).recordOn id, occupied_eq_false_iff.1 hafter v] at hv
  exact absurd hv (by simp)

end Store

/-! ## Outcomes -/

namespace EnforcementReport

variable {r : EnforcementReport} {plan : MigrationPlan}

/-- A machine has not left the host, because its migration failed. -/
def holdsBack (r : EnforcementReport) (id : HostId) : Bool :=
  r.results.any fun x => !x.outcome.isRelocated && x.migration.source == some id

theorem holdsBack_iff {id : HostId} : r.holdsBack id = true ↔
    ∃ x ∈ r.results, x.outcome.isRelocated = false ∧ x.migration.source = some id := by
  simp [holdsBack]

theorem failed_eq_zero_iff :
    r.failed = 0 ↔ ∀ x ∈ r.results, x.outcome.isRelocated = true := by
  have hfailed : ∀ o : MigrationOutcome, o.isFailed = !o.isRelocated := by
    intro o
    cases o <;> rfl
  simp [failed, List.countP_eq_zero, hfailed]

theorem Covers.mem_moves (h : r.Covers plan) {x : MigrationResult} (hx : x ∈ r.results) :
    x.migration ∈ plan.moves := h ▸ List.mem_map_of_mem hx

theorem Covers.exists_result (h : r.Covers plan) {m : Migration} (hm : m ∈ plan.moves) :
    ∃ x ∈ r.results, x.migration = m := List.mem_map.1 (h.symm ▸ hm)

/-- There is one result for each machine. -/
theorem Covers.unique (h : r.Covers plan) (hplan : plan.Built) {x y : MigrationResult}
    (hx : x ∈ r.results) (hy : y ∈ r.results) (hvm : x.migration.vm = y.migration.vm) : x = y := by
  have hmap : r.results.map (fun x => x.migration.vm) = plan.moves.map Migration.vm := by
    rw [← h, List.map_map]
    rfl
  refine List.inj_on_of_nodup_map (f := fun x => x.migration.vm) ?_ hx hy hvm
  rw [hmap]
  exact (List.pairwise_map.2 hplan.sorted).imp String.ne_of_lt

end EnforcementReport

namespace Carried

variable {woken : List HostId} {plan : MigrationPlan} {r : EnforcementReport}

/-- A machine of the plan is at its destination if its migration succeeded, and else where it was. -/
theorem recordOn_isSome_of_mem (h : Carried s s' woken plan r) (hs : s.Consistent)
    {x : MigrationResult} (hx : x ∈ r.results) (id : HostId) :
    (s'.recordOn id x.migration.vm).isSome = true ↔
      if x.outcome.isRelocated then x.migration.destination = id
      else (s.recordOn id x.migration.vm).isSome = true := by
  cases hrelocated : x.outcome.isRelocated with
  | true =>
    obtain ⟨source, w, hdeparts, hfiles⟩ := h.relocated x hx hrelocated
    have hrecord := hfiles.recordOn id
    simp only [(hs.on_host hdeparts.recordOn).1, Option.some.injEq] at hrecord
    rw [if_pos rfl, hrecord]
    split <;> simp_all
  | false =>
    obtain ⟨source, w, hdeparts, hfiles⟩ := h.failed x hx hrelocated
    have hplace := hs.on_host hdeparts.recordOn
    have hrecord := hfiles.recordOn id
    simp only [hplace.1, hplace.2, Option.some.injEq] at hrecord
    rw [if_neg (by simp), hrecord]
    by_cases hsource : source = id
    · rw [if_pos hsource, ← hsource, hdeparts.recordOn]
      exact Iff.rfl
    · rw [if_neg hsource]
      refine iff_of_false (by simp) fun hsome => ?_
      obtain ⟨w', hw'⟩ := Option.isSome_iff_exists.1 hsome
      exact hsource (hs.placed.recordOn_unique hdeparts.recordOn hw')

/-- A host has the machines that were brought to it, and those of its own that were not taken
away. -/
theorem recordOn_isSome_iff (h : Carried s s' woken plan r) (hs : s.Consistent)
    (hplan : plan.Built) (id : HostId) (v : VmId) : (s'.recordOn id v).isSome = true ↔
      (∃ x ∈ r.results, x.outcome.isRelocated = true ∧ x.migration.vm = v ∧
        x.migration.destination = id) ∨
      ((s.recordOn id v).isSome = true ∧
        ∀ x ∈ r.results, x.migration.vm = v → x.outcome.isRelocated = false) := by
  by_cases hv : ∃ x ∈ r.results, x.migration.vm = v
  · obtain ⟨x, hx, rfl⟩ := hv
    rw [h.recordOn_isSome_of_mem hs hx]
    split
    · rename_i hrelocated
      constructor
      · exact fun hd => .inl ⟨x, hx, hrelocated, rfl, hd⟩
      · rintro (⟨y, hy, -, hvm, hd⟩ | ⟨-, hnone⟩)
        · rwa [h.covers.unique hplan hx hy hvm.symm]
        · exact absurd hrelocated (by simp [hnone x hx rfl])
    · rename_i hfailed
      rw [Bool.not_eq_true] at hfailed
      constructor
      · refine fun hsome => .inr ⟨hsome, fun y hy hvm => ?_⟩
        rwa [h.covers.unique hplan hy hx hvm]
      · rintro (⟨y, hy, hrelocated, hvm, -⟩ | ⟨hsome, -⟩)
        · rw [h.covers.unique hplan hy hx hvm, hfailed] at hrelocated
          exact absurd hrelocated (by simp)
        · exact hsome
  · have hnone : v ∉ plan.moves.map Migration.vm := by
      intro hmem
      obtain ⟨m, hm, rfl⟩ := List.mem_map.1 hmem
      obtain ⟨x, hx, rfl⟩ := h.covers.exists_result hm
      exact hv ⟨x, hx, rfl⟩
    rw [(h.others v hnone).recordOn id]
    constructor
    · exact fun hsome => .inr ⟨hsome, fun x hx hvm => absurd ⟨x, hx, hvm⟩ hv⟩
    · rintro (⟨x, hx, -, hvm, -⟩ | ⟨hsome, -⟩)
      · exact absurd ⟨x, hx, hvm⟩ hv
      · exact hsome

/-- A machine that has left its host was taken away by a migration of the plan. -/
theorem exists_result_of_left (h : Carried s s' woken plan r) (hs : s.Consistent)
    (hplan : plan.Built) {id : HostId} {v : VmId} (hbefore : (s.recordOn id v).isSome = true)
    (hafter : s'.recordOn id v = none) :
    ∃ x ∈ r.results, x.outcome.isRelocated = true ∧ x.migration.vm = v := by
  by_contra hnone
  have hstays : (s'.recordOn id v).isSome = true := by
    refine (h.recordOn_isSome_iff hs hplan id v).2 (.inr ⟨hbefore, fun x hx hvm => ?_⟩)
    rw [← Bool.not_eq_true]
    exact fun hrelocated => hnone ⟨x, hx, hrelocated, hvm⟩
  rw [hafter] at hstays
  exact absurd hstays (by simp)

end Carried

variable [Quantity α] {c : Settings α}

/-! ## Consolidations -/

namespace Reconfiguration

/-- The hosts that a consolidation releases. -/
def released (c : Settings α) (s : Store α) : List HostId :=
  let hosts := s.hostList c.estimator.window true true
  (hosts.filter (Consolidation.emptied c.ranking hosts)).map Host.id

/-- What a consolidation says about a host that it releases: all its machines are to leave, and none
is to come. -/
theorem releases (hs : s.Consistent) {id : HostId} (hid : id ∈ released c s) :
    (∀ v, (s.recordOn id v).isSome = true → ∃ m ∈ (plan c s).moves, m.vm = v) ∧
      ∀ m ∈ (plan c s).moves, m.destination ≠ id := by
  have hfiled := hs.filed_hostList c.estimator.window true true
  have hapart := hs.apart_hostList c.estimator.window true true
  obtain ⟨h, hmem, rfl⟩ := List.mem_map.1 hid
  obtain ⟨hh, hemptied⟩ := List.mem_filter.1 hmem
  obtain ⟨hawake, hreleased⟩ := Consolidation.emptied_iff.1 hemptied
  have hledger := Consolidation.ledger_finish c.ranking hfiled hapart
  have hsound := Consolidation.sound_finish c.ranking (Φ := fun _ => True) hfiled hapart
    (fun _ _ _ => trivial) (fun _ _ _ _ _ _ _ => trivial)
  constructor
  · intro v hv
    have hhas : h.Has v := ((hs.shows_of_mem_hostList hh).1.has_iff v).2 hv
    obtain ⟨m, hm⟩ := hledger.evacuated h (List.mem_filter.2 ⟨hh, by simp [hawake]⟩) hreleased v hhas
    exact ⟨m, SortedMap.mem_values_iff.2 ⟨v, hm⟩, (hsound.arrives hm).1⟩
  · intro m hm hd
    obtain ⟨k, hk, hkid, -⟩ := hsound.arrives.mem_moves hm
    exact hreleased k hk (hkid.trans hd)

/-- Machines leave released hosts only. -/
theorem mem_released_of_mem (hs : s.Consistent) {m : Migration} (hm : m ∈ (plan c s).moves)
    {id : HostId} (hid : (s.recordOn id m.vm).isSome = true) : id ∈ released c s := by
  have hfiled := hs.filed_hostList c.estimator.window true true
  have hapart := hs.apart_hostList c.estimator.window true true
  obtain ⟨v, hv⟩ := SortedMap.mem_values_iff.1 hm
  obtain ⟨h, hmem, hsource, hhas, hreleased⟩ :=
    (Consolidation.ledger_finish c.ranking hfiled hapart).leaves hv
  obtain ⟨hh, hawake⟩ := List.mem_filter.1 hmem
  rw [← (Consolidation.built_consolidate c.ranking _).vm_eq hv] at hhas
  obtain ⟨w, hw⟩ := Option.isSome_iff_exists.1
    (((hs.shows_of_mem_hostList hh).1.has_iff m.vm).1 hhas)
  obtain ⟨w', hw'⟩ := Option.isSome_iff_exists.1 hid
  rw [hs.placed.recordOn_unique hw' hw]
  exact List.mem_map_of_mem (List.mem_filter.2
    ⟨hh, Consolidation.emptied_iff.2 ⟨by simpa using hawake, hreleased⟩⟩)

theorem length_released (hs : s.Consistent) :
    (released c s).length = (plan c s).hostsReleased := by
  rw [released, List.length_map, ← List.countP_eq_length_filter]
  exact Consolidation.countP_emptied c.ranking (hs.filed_hostList c.estimator.window true true)
    (hs.apart_hostList c.estimator.window true true)

theorem nodup_released (hs : s.Consistent) : (released c s).Nodup :=
  (hs.nodup_hostList c.estimator.window true true).sublist (List.filter_sublist.map Host.id)

variable {r : EnforcementReport}

/-- A released host has machines in the end if and only if a migration off it has failed. -/
theorem occupied_released (hs : s.Consistent) (h : Carried s s' [] (plan c s) r) {id : HostId}
    (hid : id ∈ released c s) : s'.occupied id = r.holdsBack id := by
  have hbuilt : (plan c s).Built := Consolidation.built_consolidate c.ranking _
  have hstarts : (plan c s).StartsFrom s :=
    Consolidation.startsFrom_consolidate hs c.ranking _ _ _
  obtain ⟨hleave, hcome⟩ := releases hs hid
  rw [Bool.eq_iff_iff, Store.occupied_iff, EnforcementReport.holdsBack_iff]
  constructor
  · rintro ⟨v, hv⟩
    rcases (h.recordOn_isSome_iff hs hbuilt id v).1 hv with ⟨x, hx, -, -, hd⟩ | ⟨hthere, hfailed⟩
    · exact absurd hd (hcome x.migration (h.covers.mem_moves hx))
    · obtain ⟨m, hm, rfl⟩ := hleave v hthere
      obtain ⟨x, hx, rfl⟩ := h.covers.exists_result hm
      obtain ⟨source, w, hdeparts⟩ := hstarts x.migration hm
      obtain ⟨w', hw'⟩ := Option.isSome_iff_exists.1 hthere
      refine ⟨x, hx, hfailed x hx rfl, ?_⟩
      rw [hdeparts.starts, hs.placed.recordOn_unique hdeparts.recordOn hw']
  · rintro ⟨x, hx, hfailed, hsource⟩
    obtain ⟨source, w, hdeparts⟩ := hstarts x.migration (h.covers.mem_moves hx)
    rw [hdeparts.starts] at hsource
    obtain rfl := Option.some.inj hsource
    refine ⟨x.migration.vm, (h.recordOn_isSome_of_mem hs hx source).2 ?_⟩
    rw [hfailed, if_neg (by simp), hdeparts.recordOn]
    rfl

/-- The hosts that have lost all their machines are the released ones that had some and from which
no migration has failed. -/
theorem vacated_perm (hs : s.Consistent) (h : Carried s s' [] (plan c s) r) :
    (s.vacated s').Perm ((released c s).filter fun id => s.occupied id && !r.holdsBack id) := by
  have hbuilt : (plan c s).Built := Consolidation.built_consolidate c.ranking _
  refine (List.perm_ext_iff_of_nodup (s.nodup_vacated s')
    ((nodup_released hs).filter _)).2 fun id => ?_
  rw [Store.mem_vacated, List.mem_filter, Bool.and_eq_true, Bool.not_eq_true']
  constructor
  · rintro ⟨hbefore, hafter⟩
    obtain ⟨v, hv⟩ := Store.occupied_iff.1 hbefore
    obtain ⟨x, hx, -, rfl⟩ :=
      h.exists_result_of_left hs hbuilt hv (Store.occupied_eq_false_iff.1 hafter v)
    have hid : id ∈ released c s := mem_released_of_mem hs (h.covers.mem_moves hx) hv
    exact ⟨hid, hbefore, (occupied_released hs h hid).symm.trans hafter⟩
  · rintro ⟨hid, hbefore, hnone⟩
    exact ⟨hbefore, (occupied_released hs h hid).trans hnone⟩

/-- The hosts that a plan releases are those that have lost all their machines, those that a failed
migration has held back, and those that had no machines before: the run has filled and emptied
them. -/
theorem released_account (hs : s.Consistent) (h : Carried s s' [] (plan c s) r) :
    (plan c s).hostsReleased = (s.vacated s').length + (released c s).countP r.holdsBack +
      (released c s).countP fun id => !s.occupied id := by
  have hheld : ∀ id, r.holdsBack id = true → s.occupied id = true := by
    intro id hid
    obtain ⟨x, hx, -, hsource⟩ := EnforcementReport.holdsBack_iff.1 hid
    obtain ⟨source, w, hdeparts⟩ := Consolidation.startsFrom_consolidate hs c.ranking _ _ _
      x.migration (h.covers.mem_moves hx)
    rw [hdeparts.starts] at hsource
    obtain rfl := Option.some.inj hsource
    exact Store.occupied_iff.2 ⟨x.migration.vm, by rw [hdeparts.recordOn]; rfl⟩
  rw [← length_released hs, (vacated_perm hs h).length_eq, ← List.countP_eq_length_filter]
  induction released c s with
  | nil => rfl
  | cons id rest ih =>
    rw [List.length_cons, List.countP_cons, List.countP_cons, List.countP_cons, ih]
    have hid := hheld id
    cases hback : r.holdsBack id with
    | true =>
      rw [hback] at hid
      simp [hid rfl]
      omega
    | false => cases s.occupied id <;> simp <;> omega

end Reconfiguration

/-! ## Relief of an underloaded host -/

namespace Resolution

variable {host : HostId}

/-- The plan for an underloaded host takes machines off it. -/
theorem exists_of_plan? (hs : s.Consistent) {plan : MigrationPlan}
    (h : plan? c s host .underloaded = some plan) :
    ∃ source hosts, s.Shows source ∧ source.id = host ∧ plan.StartsFrom s ∧
      plan = (Relocation.relocate c.ranking .underload source hosts).1 := by
  obtain ⟨policy, hpolicy, hplan⟩ := Option.bind_eq_some_iff.1 h
  obtain ⟨source, hsource, rfl⟩ := Option.map_eq_some_iff.1 hplan
  obtain rfl : policy = .underload := (Option.some.inj hpolicy).symm
  obtain ⟨hid, hshown⟩ := hs.shows_of_host? hsource
  refine ⟨source, _, hshown, hid, ?_, rfl⟩
  refine Relocation.startsFrom_relocate hs hshown ?_ (fun k hk => ?_) c.ranking .underload
  · exact (hs.nodup_hostList _ _ _).sublist (List.filter_sublist.map Host.id)
  · obtain ⟨hlisted, hother⟩ := List.mem_filter.1 hk
    exact ⟨(hs.shows_of_mem_hostList hlisted).1, bne_iff_ne.1 hother⟩

variable {woken : List HostId} {plan : MigrationPlan} {r : EnforcementReport}

/-- An underloaded host has lost all its machines if and only if the plan releases it and no
migration has failed. -/
theorem mem_vacated_iff (hs : s.Consistent) (hplan : plan? c s host .underloaded = some plan)
    (h : Carried s s' woken plan r) (id : HostId) :
    id ∈ s.vacated s' ↔ id = host ∧ plan.hostsReleased = 1 ∧ r.failed = 0 := by
  obtain ⟨source, hosts, hshown, rfl, hstarts, rfl⟩ := exists_of_plan? hs hplan
  have hbuilt := Relocation.built_relocate c.ranking .underload source hosts
  have hleaves := Relocation.leaves_relocate c.ranking .underload
    (fun v w hw => by
      obtain ⟨w', hw', heq⟩ := hshown.record hw
      exact (congrArg Prod.fst heq).trans (hs.on_host hw').1) hosts
  have hoff : ∀ x ∈ r.results, (s.recordOn source.id x.migration.vm).isSome = true := by
    intro x hx
    obtain ⟨v, hv⟩ := SortedMap.mem_values_iff.1 (h.covers.mem_moves hx)
    rw [hbuilt.vm_eq hv]
    exact (hshown.has_iff v).1 (hleaves hv).2
  rw [Store.mem_vacated, Relocation.hostsReleased_eq_one_iff hleaves,
    EnforcementReport.failed_eq_zero_iff]
  constructor
  · rintro ⟨hbefore, hafter⟩
    have hempty := Store.occupied_eq_false_iff.1 hafter
    obtain ⟨v, hv⟩ := Store.occupied_iff.1 hbefore
    obtain ⟨x, hx, -, rfl⟩ := h.exists_result_of_left hs hbuilt hv (hempty v)
    obtain ⟨w, hw⟩ := Option.isSome_iff_exists.1 hv
    obtain ⟨w', hw'⟩ := Option.isSome_iff_exists.1 (hoff x hx)
    obtain rfl := hs.placed.recordOn_unique hw hw'
    refine ⟨rfl, ⟨rfl, hshown.occupied.symm.trans hbefore, fun v hhas => ?_⟩, fun y hy => ?_⟩
    · obtain ⟨y, hy, -, rfl⟩ :=
        h.exists_result_of_left hs hbuilt ((hshown.has_iff v).1 hhas) (hempty v)
      obtain ⟨u, hu⟩ := SortedMap.mem_values_iff.1 (h.covers.mem_moves hy)
      exact ⟨_, by rwa [hbuilt.vm_eq hu]⟩
    · by_contra hfailed
      have hstays := (h.recordOn_isSome_of_mem hs hy source.id).2 (by
        rw [if_neg hfailed]
        exact hoff y hy)
      rw [hempty y.migration.vm] at hstays
      exact absurd hstays (by simp)
  · rintro ⟨rfl, ⟨-, hvms, hall⟩, hdone⟩
    refine ⟨hshown.occupied.trans hvms, Store.occupied_eq_false_iff.2 fun v => ?_⟩
    rw [← Option.not_isSome_iff_eq_none, h.recordOn_isSome_iff hs hbuilt]
    rintro (⟨x, hx, -, -, hd⟩ | ⟨hthere, hnone⟩)
    · obtain ⟨p, w, hdeparts⟩ := hstarts x.migration (h.covers.mem_moves hx)
      obtain ⟨w', hw'⟩ := Option.isSome_iff_exists.1 (hoff x hx)
      exact hdeparts.elsewhere (hd.trans (hs.placed.recordOn_unique hw' hdeparts.recordOn))
    · obtain ⟨m, hm⟩ := hall v ((hshown.has_iff v).2 hthere)
      obtain ⟨x, hx, rfl⟩ := h.covers.exists_result (SortedMap.mem_values_iff.2 ⟨v, hm⟩)
      have hfailed := hnone x hx (hbuilt.vm_eq hm)
      rw [hdone x hx] at hfailed
      exact absurd hfailed (by simp)

/-- What a resolution counts as released are the hosts that have lost all their machines. -/
theorem released_account (hs : s.Consistent) {result : Except WorkflowError ResolutionReport} :
    Ends c s s' host .underloaded result →
      (match result with
        | .ok report => if report.enforcement.failed = 0 then report.plan.hostsReleased else 0
        | .error _ => 0) = (s.vacated s').length := by
  intro h
  cases result with
  | error e =>
    cases e with
    | resolution e =>
      obtain ⟨⟨woken, hwakes⟩, -⟩ := h
      rw [Store.vacated_of_sameOf hwakes.sameOf]
      rfl
    | _ => exact h.elim
  | ok report =>
    obtain ⟨hplan, -, hcarried⟩ := h
    have hmem := mem_vacated_iff hs hplan hcarried
    have hone : report.plan.hostsReleased ≤ 1 := by
      obtain ⟨source, hosts, -, -, -, heq⟩ := exists_of_plan? hs hplan
      rw [heq]
      exact Relocation.hostsReleased_le_one c.ranking .underload source hosts
    dsimp only
    by_cases hreleased : report.plan.hostsReleased = 1 ∧ report.enforcement.failed = 0
    · have hvacated : (s.vacated s').Perm [host] :=
        (List.perm_ext_iff_of_nodup (s.nodup_vacated s') (List.nodup_singleton host)).2 fun id => by
          rw [hmem, and_iff_left hreleased, List.mem_singleton]
      rw [hvacated.length_eq, if_pos hreleased.2, hreleased.1]
      rfl
    · have hvacated : s.vacated s' = [] :=
        List.eq_nil_iff_forall_not_mem.2 fun id hid => hreleased ((hmem id).1 hid).2
      rw [hvacated]
      split
      · rename_i hfailed
        have hne : report.plan.hostsReleased ≠ 1 := fun heq => hreleased ⟨heq, hfailed⟩
        rw [List.length_nil]
        omega
      · rfl

end Resolution

end ClusterControl
