import ClusterControl.Proofs.Planning.Departures
import ClusterControl.Proofs.Program.Enforced
import ClusterControl.Proofs.Store.Outcomes

/-!
# What plans leave in the store

A resolution or a reconfiguration that runs alone makes its plan from the store, wakes hosts, has the
plan carried out and commits the outcomes.

* `Commit.achieves_results` says that committing settles the record of each machine, in whatever mix
  of outcomes.
* `Resolution.plan?` and `Reconfiguration.plan` are the plans that are made, and
  `Resolution.achieves_run` and `Reconfiguration.achieves_run` say what comes of them.
-/

namespace ClusterControl

variable {α : Type} [Quantity α] {c : Settings α} {g : Scene α} {s : Store α}

/-! ## Committing outcomes -/

namespace Commit

/-- Committing one outcome settles the record of its machine. -/
theorem achieves_result (hs : g.store.Consistent) {r : MigrationResult} {source : HostId} {w : Vm α}
    (hr : g.store.Departs r.migration source w) :
    (result r).Achieves c g fun g' _ => ∃ u, g' = { g with store := u } ∧
      g.store.Relocates u r.migration.vm (r.settle w).hostId (some (r.settle w)) := by
  unfold result
  refine Program.achieves_bind.2 (Program.achieves_count.2 (Program.achieves_bind.2
    (Program.achieves_event.2 ?_)))
  cases hrelocated : r.outcome.isRelocated with
  | true =>
    obtain ⟨t, hmove, hmoved⟩ := hs.relocates_moveVm hr.recordOn hr.known hr.elsewhere.symm
    have ht : t.Consistent := by
      have hconsistent := hs.moveVm r.migration.vm r.migration.destination
      rwa [hmove] at hconsistent
    have hthere : t.recordOn r.migration.destination r.migration.vm =
        some (w.on r.migration.destination) := by
      rw [hmoved.recordOn, if_pos rfl, if_pos rfl]
    obtain ⟨u, hset, hstatus⟩ := ht.relocates_setVmStatus hthere .running none
    have hsettle : r.settle w = (w.on r.migration.destination).withStatus .running none := by
      rw [MigrationResult.settle, if_pos hrelocated]
    rw [if_pos rfl]
    refine Program.achieves_bind.2 (Program.achieves_store.2 ?_)
    simp only [StoreRequest.apply, hmove]
    refine Program.achieves_bind.2 (Program.achieves_store.2 (Program.achieves_pure.2 ?_))
    simp only [StoreRequest.apply, hset]
    refine ⟨u, rfl, ?_⟩
    rw [hsettle]
    exact hmoved.trans hstatus
  | false =>
    obtain ⟨u, hset, hstatus⟩ :=
      hs.relocates_setVmStatus hr.recordOn .error (some .migrationFailed)
    have hsettle : r.settle w = w.withStatus .error (some .migrationFailed) := by
      rw [MigrationResult.settle, hrelocated]
      rfl
    rw [if_neg (by simp)]
    refine Program.achieves_bind.2 (Program.achieves_store.2 (Program.achieves_pure.2 ?_))
    simp only [StoreRequest.apply, hset]
    refine ⟨u, rfl, ?_⟩
    have hplace : (w.withStatus .error (some .migrationFailed)).hostId = some source :=
      (hs.on_host hr.recordOn).2
    rw [hsettle, hplace]
    exact hstatus

/-- Committing outcomes one after the other settles the records of their machines, and nothing else
changes. -/
theorem achieves_results (hs : s.Consistent) {done rest : List MigrationResult}
    (hdeparts : ∀ r ∈ done ++ rest, ∃ source w, s.Departs r.migration source w)
    (hnodup : ((done ++ rest).map fun r => r.migration.vm).Nodup)
    (h : s.Enters g.store (s.settled done)) :
    (results rest).Achieves c g fun g' _ => ∃ u, g' = { g with store := u } ∧
      s.Enters u (s.settled (done ++ rest)) := by
  induction rest generalizing done g with
  | nil =>
    rw [List.append_nil]
    exact Program.achieves_pure.2 ⟨g.store, rfl, h⟩
  | cons r rest ih =>
    obtain ⟨source, w, hr⟩ := hdeparts r (by simp)
    have hids : (s.settled done).map Vm.id = done.map fun r => r.migration.vm :=
      Store.ids_settled hs fun x hx => hdeparts x (by simp [hx])
    have hnew : r.migration.vm ∉ (s.settled done).map Vm.id := by
      rw [hids]
      rw [List.map_append, List.map_cons, List.nodup_middle, List.nodup_cons] at hnodup
      intro hmem
      exact hnodup.1 (List.mem_append_left _ hmem)
    have happend : done ++ r :: rest = done ++ [r] ++ rest := by simp
    rw [happend] at hdeparts hnodup ⊢
    refine Program.achieves_bind.2 ((achieves_result h.consistent (h.departs hr hnew)).mono ?_)
    rintro _ _ ⟨u, rfl, hmoved⟩
    exact ih hdeparts hnodup (h.settle hs hr hnew hmoved)

end Commit

/-! ## Waking hosts -/

namespace Power

/-- A passive host is woken, or it is as it was. -/
theorem achieves_wakeOne {host : HostId} (h : g.store.status? host = some .passive) :
    (wakeOne host).Achieves c g fun g' awake => ∃ u calls,
      g' = { g with store := u, calls := calls } ∧
        g.store.Wakes u (if awake then [host] else []) := by
  obtain ⟨t, hclaim, hwakes, hback⟩ := Store.wakes_transition h
  unfold wakeOne
  refine Program.achieves_bind.2 (Program.achieves_store.2 ?_)
  simp only [StoreRequest.apply, hclaim]
  refine Program.achieves_bind.2 (Program.achieves_host.2 ?_)
  rintro (e | _)
  · refine Program.achieves_bind.2 (Program.achieves_store.2 ?_)
    simp only [StoreRequest.apply, hback]
    refine Program.achieves_bind.2 (Program.achieves_event.2 (Program.achieves_pure.2 ?_))
    exact ⟨g.store, _, rfl, .refl g.store⟩
  · refine Program.achieves_bind.2 (Program.achieves_count.2 (Program.achieves_bind.2
      (Program.achieves_event.2 (Program.achieves_pure.2 ?_))))
    exact ⟨t, _, rfl, hwakes⟩

/-- Passive hosts are woken, all but those that are given back. -/
theorem achieves_wakeAll {hosts : List HostId} (hnodup : hosts.Nodup)
    (h : ∀ host ∈ hosts, g.store.status? host = some .passive) :
    (wakeAll hosts).Achieves c g fun g' failed => ∃ u calls,
      g' = { g with store := u, calls := calls } ∧ failed ⊆ hosts ∧
        g.store.Wakes u (hosts.filter (· ∉ failed)) := by
  induction hosts generalizing g with
  | nil =>
    exact Program.achieves_pure.2 ⟨g.store, g.calls, rfl, List.Subset.refl [], .refl g.store⟩
  | cons host rest ih =>
    obtain ⟨hfirst, hrest⟩ := List.forall_mem_cons.1 h
    obtain ⟨hnot, hnodup⟩ := List.nodup_cons.1 hnodup
    refine Program.achieves_bind.2 ((achieves_wakeOne hfirst).mono ?_)
    rintro _ awake ⟨t, calls, rfl, hwoken⟩
    have hpassive : ∀ k ∈ rest, t.status? k = some .passive := by
      intro k hk
      have hne : k ∉ (if awake then [host] else []) := by
        cases awake with
        | true =>
          intro hmem
          exact hnot (List.mem_singleton.1 hmem ▸ hk)
        | false => exact List.not_mem_nil
      rw [hwoken.status, if_neg hne]
      exact hrest k hk
    refine Program.achieves_bind.2 ((ih hnodup hpassive).mono ?_)
    rintro _ failed ⟨u, calls', rfl, hsubset, hwakes⟩
    have hfailed : host ∉ failed := fun hmem => hnot (hsubset hmem)
    have hall := hwoken.trans hwakes
    cases awake with
    | true =>
      refine Program.achieves_pure.2 ⟨u, calls', rfl, List.subset_cons_of_subset host hsubset, ?_⟩
      simpa [List.filter_cons, hfailed] using hall
    | false =>
      refine Program.achieves_pure.2 ⟨u, calls', rfl, List.cons_subset_cons host hsubset, ?_⟩
      have hsame : (host :: rest).filter (· ∉ host :: failed) = rest.filter (· ∉ failed) := by
        rw [List.filter_cons]
        simp only [List.mem_cons, true_or, not_true_eq_false, decide_false, Bool.false_eq_true,
          if_false]
        refine List.filter_congr fun k hk => ?_
        have hne : k ≠ host := fun heq => hnot (heq ▸ hk)
        simp [hne]
      rw [show (if false = true then failed else host :: failed) = host :: failed from rfl, hsame]
      simpa using hall

end Power

/-! ## What is carried out -/

/-- What a workflow leaves that found the store `s`, woke hosts and had a plan carried out.  Each
machine of the plan is where its outcome says, with the record that it had but for place, status and
error code; no other machine has changed, and no host but for the power of the woken ones. -/
structure Carried (s s' : Store α) (woken : List HostId) (plan : MigrationPlan)
    (r : EnforcementReport) : Prop where
  consistent : s'.Consistent
  covers : r.Covers plan
  relocated : ∀ x ∈ r.results, x.outcome.isRelocated = true →
    ∃ source w, s.Departs x.migration source w ∧ s'.Files { w with
      hostId := some x.migration.destination, status := .running, errorCode := none }
  failed : ∀ x ∈ r.results, x.outcome.isRelocated = false →
    ∃ source w, s.Departs x.migration source w ∧
      s'.Files { w with status := .error, errorCode := some .migrationFailed }
  others : ∀ v, v ∉ plan.moves.map Migration.vm → s.SameOf s' v
  known : ∀ v, (s'.vm? v).isSome = (s.vm? v).isSome
  passive : ∀ id ∈ woken, s.status? id = some .passive
  hosts : ∀ id, (s'.hosts.get? id).map Host.bare = (s.hosts.get? id).map fun h =>
    if id ∈ woken then (h.withStatus .wokenUp).bare else h.bare

omit [Quantity α] in
/-- Waking hosts and settling the outcomes of a plan carries the plan out. -/
theorem carried_of_settled {t u : Store α} {woken : List HostId} {plan : MigrationPlan}
    {r : EnforcementReport} (hs : s.Consistent) (hwakes : s.Wakes t woken) (hcovers : r.Covers plan)
    (hstarts : plan.StartsFrom s) (henters : t.Enters u (t.settled r.results)) :
    Carried s u woken plan r := by
  have hmoves : ∀ x ∈ r.results, x.migration ∈ plan.moves := by
    intro x hx
    rw [← hcovers]
    exact List.mem_map_of_mem hx
  have hsettled : ∀ x ∈ r.results, ∃ source w, s.Departs x.migration source w ∧
      (x.settle w).id = x.migration.vm ∧ u.Files (x.settle w) := by
    intro x hx
    obtain ⟨source, w, hdeparts⟩ := hstarts x.migration (hmoves x hx)
    have hrecord := (hwakes.consistent hs).vm?_of_recordOn (hwakes.departs hdeparts).recordOn
    refine ⟨source, w, hdeparts, ?_, henters.files _ ?_⟩
    · rw [MigrationResult.id_settle]
      exact (hs.on_host hdeparts.recordOn).1
    · exact List.mem_filterMap.2 ⟨x, hx, by rw [hrecord, Option.map_some]⟩
  have hids : (t.settled r.results).map Vm.id = plan.moves.map Migration.vm := by
    rw [Store.ids_settled (hwakes.consistent hs), ← hcovers, List.map_map]
    · rfl
    · intro x hx
      obtain ⟨source, w, hdeparts⟩ := hstarts x.migration (hmoves x hx)
      exact ⟨source, w, hwakes.departs hdeparts⟩
  have hothers : ∀ v, v ∉ plan.moves.map Migration.vm → s.SameOf u v := by
    intro v hv
    rw [← hids] at hv
    exact (hwakes.sameOf v).trans (henters.others v hv)
  refine ⟨henters.consistent, hcovers, fun x hx hrelocated => ?_, fun x hx hfailed => ?_, hothers,
    fun v => ?_, hwakes.passive, fun id => ?_⟩
  · obtain ⟨source, w, hdeparts, -, hfiles⟩ := hsettled x hx
    rw [MigrationResult.settle, if_pos hrelocated] at hfiles
    exact ⟨source, w, hdeparts, hfiles⟩
  · obtain ⟨source, w, hdeparts, -, hfiles⟩ := hsettled x hx
    rw [MigrationResult.settle, hfailed] at hfiles
    exact ⟨source, w, hdeparts, hfiles⟩
  · by_cases hv : v ∈ plan.moves.map Migration.vm
    · rw [← hcovers, List.map_map] at hv
      obtain ⟨x, hx, rfl⟩ := List.mem_map.1 hv
      obtain ⟨source, w, hdeparts, hid, hfiles⟩ := hsettled x hx
      have hfound := hfiles.vm?_eq
      rw [hid] at hfound
      rw [Function.comp_apply, hfound, hs.vm?_of_recordOn hdeparts.recordOn]
      rfl
    · rw [(hothers v hv).vm?_eq]
  · rw [henters.hosts, hwakes.hosts]
    by_cases hid : id ∈ woken
    · simp only [hid, if_true, Option.map_map]
      rfl
    · simp only [hid, if_false]

/-- Committing a report on a plan that starts from the store carries the plan out. -/
theorem Commit.achieves_report {woken : List HostId} {plan : MigrationPlan} {r : EnforcementReport}
    (hs : s.Consistent) (hwakes : s.Wakes g.store woken) (hplan : plan.Built)
    (hcovers : r.Covers plan) (hstarts : plan.StartsFrom s) :
    (report r).Achieves c g fun g' _ => ∃ u, g' = { g with store := u } ∧
      Carried s u woken plan r := by
  have hmap : (r.results.map fun x => x.migration.vm) = plan.moves.map Migration.vm := by
    rw [← hcovers, List.map_map]
    rfl
  have hnodup : (([] ++ r.results).map fun x : MigrationResult => x.migration.vm).Nodup := by
    rw [List.nil_append, hmap]
    exact (List.pairwise_map.2 hplan.sorted).imp String.ne_of_lt
  have hdeparts : ∀ x ∈ [] ++ r.results, ∃ source w, g.store.Departs x.migration source w := by
    intro x hx
    rw [List.nil_append] at hx
    have hmem : x.migration ∈ plan.moves := by
      rw [← hcovers]
      exact List.mem_map_of_mem hx
    obtain ⟨source, w, hdeparts⟩ := hstarts x.migration hmem
    exact ⟨source, w, hwakes.departs hdeparts⟩
  have hgood := hwakes.consistent hs
  refine (achieves_results hgood hdeparts hnodup (.refl hgood)).mono ?_
  rintro _ _ ⟨u, rfl, henters⟩
  exact ⟨u, rfl, carried_of_settled hs hwakes hcovers hstarts henters⟩

/-! ## Resolutions -/

namespace Resolution

/-- Where the machines of a host may go, as the store lists the cluster. -/
def destinations (c : Settings α) (s : Store α) (p : RelocationPolicy) (source : Host α) :
    List (Host α) :=
  (s.hostList c.estimator.window (!p.includesPassive) true).filter fun h => h.id != source.id

/-- The plan that relieves a host, as the store lists the cluster; there is none for a stable host or
an unknown one. -/
def plan? (c : Settings α) (s : Store α) (host : HostId) (state : LoadState) :
    Option MigrationPlan :=
  (c.relocationPolicy state).bind fun p => (s.host? host c.estimator.window).map fun source =>
    (Relocation.relocate c.ranking p source (destinations c s p source)).1

/-- What an error says about the cluster. -/
def Excuses (c : Settings α) (s : Store α) (host : HostId) (state : LoadState) :
    ResolutionError → Prop
  | .hostStable .. => c.relocationPolicy state = none
  | .hostUnknown _ => s.host? host c.estimator.window = none
  | .noDestinationCandidates _ | .emptyPlan _ =>
    ∃ plan, plan? c s host state = some plan ∧ plan.isEmpty = true
  | .wakeupFailed hosts => hosts ≠ [] ∧ ∀ id ∈ hosts, s.status? id = some .passive
  | .store _ => False

/-- What is reported before the outcomes are committed. -/
structure Relieves (c : Settings α) (s s' : Store α) (host : HostId) (state : LoadState)
    (r : ResolutionReport) : Prop where
  planned : plan? c s host state = some r.plan
  nonempty : r.plan.isEmpty = false
  built : r.plan.Built
  starts : r.plan.StartsFrom s
  wakes : s.Wakes s' r.woken
  covers : r.enforcement.Covers r.plan

/-- Nothing is planned without destinations. -/
theorem isEmpty_relocate_nil (k : Ranking α) (p : RelocationPolicy) (source : Host α) :
    (Relocation.relocate k p source []).1.isEmpty = true := by
  have hmigrations := Relocation.migrations_relocate k p source []
  rw [Relocation.assignAll, List.isEmpty_nil, Bool.or_true, if_pos rfl] at hmigrations
  rw [MigrationPlan.isEmpty, hmigrations]
  rfl

omit [Quantity α] in
/-- The hosts to wake are passive, and each is listed once. -/
theorem toWake_spec {hosts : List (Host α)} (hshown : ∀ h ∈ hosts, s.Shows h)
    (plan : MigrationPlan) : (toWake plan hosts).Nodup ∧
      ∀ id ∈ toWake plan hosts, s.status? id = some .passive := by
  refine ⟨(SortedMap.nodup_keys _).sublist List.filter_sublist, fun id hid => ?_⟩
  obtain ⟨h, hh, hpassive⟩ := List.any_eq_true.1 (List.mem_filter.1 hid).2
  obtain ⟨hhid, hstatus⟩ := Bool.and_eq_true_iff.1 hpassive
  obtain ⟨k, n, hget, hk⟩ := hshown h hh
  rw [beq_iff_eq.1 hhid] at hget
  rw [Store.status?, hget, Option.map_some]
  rw [hk] at hstatus
  exact congrArg some (beq_iff_eq.1 hstatus)

/-- Passive hosts are woken, or the resolution ends with those that were not. -/
theorem attains_wakeOrAbandon {hosts : List HostId} (hnodup : hosts.Nodup)
    (h : ∀ id ∈ hosts, g.store.status? id = some .passive) :
    Program.Attains c (wakeOrAbandon hosts) g
      (fun g' _ => ∃ u calls, g' = { g with store := u, calls := calls } ∧ g.store.Wakes u hosts)
      fun g' e => ∃ u calls, g' = { g with store := u, calls := calls } ∧
        (∃ woken, g.store.Wakes u woken) ∧
          ∃ failed, e = .wakeupFailed failed ∧ failed ≠ [] ∧ failed ⊆ hosts := by
  unfold wakeOrAbandon
  split
  · rename_i hempty
    rw [List.isEmpty_iff.1 hempty]
    exact Program.attains_pure.2 ⟨g.store, g.calls, rfl, .refl g.store⟩
  · refine Program.attains_mk.2 (Program.achieves_bind.2 (Program.achieves_bind.2
      ((Power.achieves_wakeAll hnodup h).mono ?_)))
    rintro _ (_ | ⟨id, failed⟩) ⟨u, calls, rfl, hsubset, hwakes⟩
    · refine Program.achieves_pure.2 (Program.achieves_pure.2 ⟨u, calls, rfl, ?_⟩)
      simpa using hwakes
    · exact Program.achieves_pure.2 (Program.achieves_pure.2
        ⟨u, calls, rfl, ⟨_, hwakes⟩, id :: failed, rfl, by simp, hsubset⟩)

theorem attains_storeOrAbandon {q : StoreRequest α} {Q : Scene α → q.Answer → Prop}
    {E : Scene α → ResolutionError → Prop} : Program.Attains c (storeOrAbandon q) g Q E ↔
      match (q.apply g.store).1 with
      | .ok a => Q { g with store := (q.apply g.store).2 } a
      | .error e => E { g with store := (q.apply g.store).2 } (.store e) := by
  refine Program.attains_mk.trans (Program.achieves_bind.trans (Program.achieves_store.trans ?_))
  cases (q.apply g.store).1 <;> exact Program.achieves_pure

/-- Relieving a host carries out the plan that is made for it, or ends for a reason. -/
theorem attains_relieve (hs : g.store.Consistent) (host : HostId) (state : LoadState) :
    Program.Attains c (relieve c .own host state) g
      (fun g' r => ∃ u calls, g' = { g with store := u, calls := calls } ∧
        Relieves c g.store u host state r)
      fun g' e => ∃ u calls, g' = { g with store := u, calls := calls } ∧
        (∃ woken, g.store.Wakes u woken) ∧ Excuses c g.store host state e := by
  have hsame : ∃ woken, g.store.Wakes g.store woken := ⟨[], .refl g.store⟩
  unfold relieve
  split
  · rename_i hpolicy
    exact Program.attains_throw.2 ⟨g.store, g.calls, rfl, hsame, hpolicy⟩
  rename_i policy hpolicy
  refine Program.attains_bind.2 (attains_storeOrAbandon.2 ?_)
  simp only [StoreRequest.apply]
  cases hsource : g.store.host? host c.estimator.window with
  | none => exact Program.attains_throw.2 ⟨g.store, g.calls, rfl, hsame, hsource⟩
  | some source =>
    have hplanned : plan? c g.store host state = some (Relocation.relocate c.ranking policy source
        (destinations c g.store policy source)).1 := by
      rw [plan?, hpolicy, hsource]
      rfl
    have hshown : ∀ h ∈ destinations c g.store policy source,
        g.store.Shows h ∧ h.id ≠ source.id := by
      intro h hh
      obtain ⟨hlisted, hother⟩ := List.mem_filter.1 hh
      exact ⟨(hs.shows_of_mem_hostList hlisted).1, bne_iff_ne.1 hother⟩
    have hids : ((destinations c g.store policy source).map Host.id).Nodup :=
      (hs.nodup_hostList _ _ _).sublist (List.filter_sublist.map Host.id)
    refine Program.attains_bind.2 (Program.attains_lift.2 (Program.achieves_setPhase.2 ?_))
    refine Program.attains_bind.2 (attains_storeOrAbandon.2 ?_)
    simp only [StoreRequest.apply]
    rw [← destinations]
    split
    · rename_i hempty
      rw [List.isEmpty_iff.1 hempty] at hplanned
      exact Program.attains_bind.2 (Program.attains_throw.2 ⟨g.store, g.calls, rfl, hsame, _,
        hplanned, isEmpty_relocate_nil c.ranking policy source⟩)
    have hbuilt := Relocation.built_relocate c.ranking policy source
      (destinations c g.store policy source)
    have hstarts := Relocation.startsFrom_relocate hs (hs.shows_of_host? hsource).2 hids hshown
      c.ranking policy
    generalize (Relocation.relocate c.ranking policy source
      (destinations c g.store policy source)).1 = plan at hplanned hbuilt hstarts
    split
    · rename_i hempty
      exact Program.attains_bind.2
        (Program.attains_throw.2 ⟨g.store, g.calls, rfl, hsame, plan, hplanned, hempty⟩)
    rename_i hempty
    rw [Bool.not_eq_true] at hempty
    obtain ⟨hnodup, hpassive⟩ := toWake_spec (fun h hh => (hshown h hh).1) plan
    refine Program.attains_bind.2 ((attains_wakeOrAbandon hnodup hpassive).mono ?_ ?_)
    · rintro _ - ⟨u, calls, rfl, hwakes⟩
      refine Program.attains_bind.2 (Program.attains_lift.2 (Program.achieves_setPhase.2 ?_))
      refine Program.attains_bind.2 (Program.attains_lift.2 (Program.achieves_enforce.2
        ⟨hbuilt, fun calls' r hcovers => Program.attains_pure.2 ⟨u, calls', rfl, ?_⟩⟩))
      exact ⟨hplanned, hempty, hbuilt, hstarts, hwakes, hcovers⟩
    · rintro _ _ ⟨u, calls, rfl, hwoken, failed, rfl, hfailed, hsubset⟩
      exact ⟨u, calls, rfl, hwoken, hfailed, fun id hid => hpassive id (hsubset hid)⟩

/-- What a resolution that ran alone ends with: the plan made for the host, carried out, or a reason
why nothing was migrated. -/
def Ends (c : Settings α) (s s' : Store α) (host : HostId) (state : LoadState) :
    Except WorkflowError ResolutionReport → Prop
  | .ok r => plan? c s host state = some r.plan ∧ r.plan.isEmpty = false ∧
    Carried s s' r.woken r.plan r.enforcement
  | .error (.resolution e) => (∃ woken, s.Wakes s' woken) ∧ Excuses c s host state e
  | .error _ => False

theorem achieves_conclude (hs : s.Consistent) {host : HostId} {state : LoadState}
    {r : ResolutionReport} (h : Relieves c s g.store host state r) :
    (conclude r).Achieves c g fun g' _ => ∃ u, g' = { g with store := u } ∧
      Carried s u r.woken r.plan r.enforcement := by
  refine Program.achieves_bind.2
    ((Commit.achieves_report hs h.wakes h.built h.covers h.starts).mono ?_)
  rintro _ - ⟨u, rfl, hcarried⟩
  refine Program.achieves_bind.2 (Program.achieves_count.2 ?_)
  split
  · exact Program.achieves_bind.2 (Program.achieves_count.2 (Program.achieves_bind.2
      (Program.achieves_event.2 (Program.achieves_setPhase.2 ⟨u, rfl, hcarried⟩))))
  · exact Program.achieves_bind.2 (Program.achieves_event.2
      (Program.achieves_setPhase.2 ⟨u, rfl, hcarried⟩))

/-- A resolution that finds the gate open ends in one of these ways. -/
theorem achieves_run (hs : g.store.Consistent) (hbusy : g.busy = false) (host : HostId)
    (state : LoadState) : (run c host state).Achieves c g fun g' r => g'.busy = false ∧
      Ends c g.store g'.store host state r := by
  refine Program.achieves_gated.2 ?_
  rw [hbusy, if_neg (by simp)]
  refine Program.attains_mk.2 (Program.achieves_bind.2 ?_)
  refine Program.achieves_bind.2 (Program.achieves_setPhase.2 (Program.achieves_bind.2 ?_))
  have hrelieve := attains_relieve (c := c) (g := { g with busy := true }) hs host state
  refine Program.Achieves.mono hrelieve ?_
  rintro _ (e | r) ⟨u, calls, rfl, h⟩
  · obtain ⟨hwoken, hexcuses⟩ := h
    refine Program.achieves_bind.2 (Program.achieves_setPhase.2 (Program.achieves_pure.2 ?_))
    refine Program.achieves_bind.2 (Program.achieves_bind.2 (Program.achieves_count.2
      (Program.achieves_event.2 (Program.achieves_pure.2 ?_))))
    exact ⟨rfl, hwoken, hexcuses⟩
  · refine Program.achieves_bind.2 (Program.achieves_setPhase.2 (Program.achieves_pure.2 ?_))
    refine Program.achieves_bind.2 ((achieves_conclude hs h).mono ?_)
    rintro _ - ⟨t, rfl, hcarried⟩
    exact Program.achieves_pure.2 ⟨rfl, h.planned, h.nonempty, hcarried⟩

end Resolution

/-! ## Reconfigurations -/

namespace Reconfiguration

/-- The plan that consolidates the cluster, as the store lists it. -/
def plan (c : Settings α) (s : Store α) : MigrationPlan :=
  Consolidation.consolidate c.ranking (s.hostList c.estimator.window true true)

/-- What a reconfiguration that ran alone ends with: the plan made for the cluster, carried out. -/
def Ends (c : Settings α) (s s' : Store α) : Except WorkflowError ReconfigurationReport → Prop
  | .ok r => r.plan = plan c s ∧ Carried s s' [] r.plan r.enforcement
  | .error _ => False

/-- Whatever plan is carried out, the report covers it. -/
theorem achieves_enforce {p : MigrationPlan} (h : p.Built) :
    (enforce p).Achieves c g fun g' r => ∃ calls, g' = { g with calls := calls } ∧ r.Covers p := by
  unfold enforce
  split
  · rename_i hempty
    refine Program.achieves_pure.2 ⟨g.calls, rfl, ?_⟩
    have hnil : p.moves = [] := by
      rw [List.eq_nil_iff_forall_not_mem]
      intro m hm
      obtain ⟨v, hv⟩ := SortedMap.mem_values_iff.1 hm
      rw [SortedMap.isEmpty_iff.1 hempty v] at hv
      exact absurd hv (by simp)
    rw [EnforcementReport.Covers, hnil]
    rfl
  · exact Program.achieves_enforce.2 ⟨h, fun calls r hcovers => ⟨calls, rfl, hcovers⟩⟩

/-- A reconfiguration that finds the gate open carries its plan out. -/
theorem achieves_run (hs : g.store.Consistent) (hbusy : g.busy = false) :
    (run c).Achieves c g fun g' r => g'.busy = false ∧ Ends c g.store g'.store r := by
  refine Program.achieves_gated.2 ?_
  rw [hbusy, if_neg (by simp)]
  refine Program.attains_bind.2 (Program.attains_storeOrFail.2 ?_)
  have hbuilt : (plan c g.store).Built := Consolidation.built_consolidate c.ranking _
  have hstarts : (plan c g.store).StartsFrom g.store :=
    Consolidation.startsFrom_consolidate hs c.ranking _ _ _
  simp only [StoreRequest.apply]
  rw [← plan]
  refine Program.attains_bind.2 (Program.attains_lift.2 ((achieves_enforce hbuilt).mono ?_))
  rintro _ r ⟨calls, rfl, hcovers⟩
  refine Program.attains_bind.2 (Program.attains_lift.2 (Program.achieves_bind.2 ?_))
  refine (Commit.achieves_report (g := { g with busy := true, calls := calls }) hs (.refl g.store)
    hbuilt hcovers hstarts).mono ?_
  rintro _ - ⟨u, rfl, hcarried⟩
  refine Program.achieves_bind.2 (Program.achieves_count.2 (Program.achieves_bind.2
    (Program.achieves_count.2 (Program.achieves_event.2 (Program.attains_pure.2 ?_)))))
  exact ⟨trivial, rfl, hcarried⟩

end Reconfiguration

end ClusterControl
