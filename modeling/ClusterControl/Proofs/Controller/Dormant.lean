import ClusterControl.Proofs.Controller.Guarded
import ClusterControl.Proofs.Program.Deliveries
import ClusterControl.Proofs.Resource.Exact
import ClusterControl.Proofs.Store.Power

/-!
# Passive hosts hold no machines

A workflow sends machines only to hosts that it has seen awake, and powers down only hosts that it
has seen without machines.  Both stay true while it holds the gate, but for one thing: a wake-up
outside the gate may give its claim on a host up, and the host is passive again.

* `Contract.dormant` is what the tasks of a controller owe each other so that one host, while it is
  passive, holds no machine.
* `Controller.passive_holds_nothing` says that this holds in every state, if wake-ups outside the
  gate give a claim on the host up only while it holds nothing and no workflow runs.
-/

namespace ClusterControl

variable {α : Type}

/-- The store is consistent, and the host is awake if it holds a machine. -/
structure Store.Tends (host : HostId) (s : Store α) : Prop where
  consistent : s.Consistent
  awake : ∀ {v w}, s.recordOn host v = some w → s.Awake host

/-- Machines leave at most, and a host that is awake stays so. -/
structure Store.Minds (host : HostId) (s t : Store α) : Prop where
  sheds : s.Sheds t
  awake : s.Awake host → t.Awake host

namespace Store

variable {host : HostId} {s t u : Store α}

theorem Minds.refl (host : HostId) (s : Store α) : s.Minds host s := ⟨.refl s, id⟩

theorem Minds.trans (h : s.Minds host t) (k : t.Minds host u) : s.Minds host u :=
  ⟨h.sheds.trans k.sheds, fun hs => k.awake (h.awake hs)⟩

theorem Tends.minds (hs : s.Tends host) (ht : t.Consistent) (hst : s.Minds host t) :
    t.Tends host := by
  refine ⟨ht, fun hw' => ?_⟩
  obtain ⟨w, hw, -⟩ := hst.sheds.records hw'
  exact hst.awake (hs.awake hw)

/-- A host without machines may be in any state of power. -/
theorem Empties.tends (hs : s.Empties host) (hc : s.Consistent) : s.Tends host := by
  refine ⟨hc, fun hw => ?_⟩
  rw [hs] at hw
  exact absurd hw (by simp)

/-- A host that is not awake holds nothing. -/
theorem Tends.empties (hs : s.Tends host) (hasleep : s.status? host = some .passive) :
    s.Empties host := by
  intro v
  by_contra hne
  obtain ⟨w, hw⟩ := Option.ne_none_iff_exists'.1 hne
  obtain ⟨st, hst, hawake⟩ := hs.awake hw
  rw [hasleep] at hst
  exact hawake (Option.some.inj hst).symm

/-- Bringing machines to hosts that are awake keeps the host awake if it holds one. -/
theorem Tends.delivered (hs : s.Tends host) {expected : VmId → HostId → Prop}
    {fresh : VmId → Resources α → Prop} (hexpected : ∀ {v}, expected v host → s.Awake host)
    (hst : s.Delivered expected fresh t) : t.Tends host ∧ (s.Awake host → t.Awake host) := by
  have hawake : s.Awake host → t.Awake host :=
    fun h => h.of_status (status_of_bare (hst.hosts host))
  refine ⟨⟨hst.consistent, fun hw' => hawake ?_⟩, hawake⟩
  obtain ⟨w, hw, -⟩ | ⟨hhere, -⟩ := hst.records hw'
  · exact hs.awake hw
  · exact hexpected hhere

/-- A transition leaves every host awake that was, unless it makes its host passive. -/
theorem Tends.transition (hs : s.Tends host) (id : HostId) (expected next : HostStatus)
    (hnext : next = .passive → id = host → s.status? host ≠ some expected) :
    (s.transition id expected next).2.Tends host ∧
      s.Minds host (s.transition id expected next).2 := by
  obtain ⟨hc, hsheds⟩ := hs.consistent.sheds_transition id expected next
  have hminds : s.Minds host (s.transition id expected next).2 := by
    refine ⟨hsheds, fun hawake => ?_⟩
    have hstatus := status_transition s id expected next host
    split at hstatus
    · rename_i hdone
      obtain ⟨rfl, hexpected⟩ := hdone
      exact ⟨next, hstatus, fun hpassive => hnext hpassive rfl hexpected⟩
    · exact hawake.of_status hstatus
  exact ⟨hs.minds hc hminds, hminds⟩

/-- The power of a host that holds nothing may change in any way. -/
theorem Tends.transition_of_empties (hs : s.Tends host) {id : HostId}
    (hempty : id = host → s.Empties host) (expected next : HostStatus) :
    (s.transition id expected next).2.Tends host := by
  obtain ⟨hc, hsheds⟩ := hs.consistent.sheds_transition id expected next
  by_cases hid : id = host
  · exact ((hempty hid).sheds hsheds).tends hc
  · exact (hs.transition id expected next fun _ h => absurd h hid).1

end Store

/-! ## The contract -/

/-- The request gives a claim on the host up that is still there. -/
def StoreRequest.GivesUp (q : StoreRequest α) (host : HostId) (s : Store α) : Prop :=
  q = .transition host .wokenUp .passive ∧ s.status? host = some .wokenUp

instance (q : StoreRequest α) (host : HostId) (s : Store α) : Decidable (q.GivesUp host s) :=
  match q with
  | .transition id expected next =>
    decidable_of_iff ((id = host ∧ expected = .wokenUp ∧ next = .passive) ∧
      s.status? host = some .wokenUp) (by simp [StoreRequest.GivesUp])
  | .listHosts .. | .findHost .. | .hostStatus _ | .findVm _ | .addHost _ | .setHostStatus ..
  | .addVm _ | .setVmStatus .. | .moveVm .. | .removeVm _ | .addHostSample .. | .addVmSample .. =>
    .isFalse (by simp [StoreRequest.GivesUp])

/-- The host is awake if it holds a machine, and while a task holds the gate the others take
machines off hosts at most and let the host stay awake.  A claim on the host that was made outside
the gate is given up only while the gate is free and the host holds nothing. -/
def Contract.dormant (α : Type) (host : HostId) : Contract α where
  good := Store.Tends host
  rely := Store.Minds host
  admits j busy s q := j.WakesFreely → q.GivesUp host s → busy = false ∧ s.Empties host
  accepts _ := True
  wakes hosts s t := s.Minds host t ∧ (host ∈ hosts → t.Awake host)
  gated := True
  lax := False
  refl := Store.Minds.refl host
  trans := Store.Minds.trans
  good_of_lax := by simp
  rely_of_lax := by simp
  wakes_nil s := ⟨.refl host s, by simp⟩

/-- What jobs ask outside the gate keeps a host awake, unless it gives a claim up. -/
theorem Casual.minds {j : Job α} {q : StoreRequest α} (hq : Casual j q) {host : HostId}
    {s : Store α} (hs : s.Tends host) :
    s.Minds host (q.apply s).2 ∨ j.WakesFreely ∧ q.GivesUp host s := by
  have hsheds := (hq.sheds hs.consistent).2
  have hkept : (q.apply s).2.status? host = s.status? host → s.Minds host (q.apply s).2 :=
    fun h => ⟨hsheds, fun hawake => hawake.of_status h⟩
  cases hq with
  | listHosts | findHost | findVm => exact .inl (.refl host s)
  | setVmStatus vm status code =>
    exact .inl (hkept (Store.status_of_bare (Store.bare_setVmStatus s vm status code host)))
  | removeVm vm =>
    exact .inl (hkept (Store.status_of_bare ((hs.consistent.removeVm_relocates vm).hosts host)))
  | addHostSample id sample => exact .inl (hkept (Store.status_addHostSample s id sample host))
  | addVmSample vm sample =>
    exact .inl (hkept (Store.status_of_bare (Store.bare_addVmSample s vm sample host)))
  | activate id => exact .inl (hs.transition id .wokenUp .active (by simp)).2
  | claim id => exact .inl (hs.transition id .passive .wokenUp (by simp)).2
  | giveUp hj id =>
    by_cases hgives : id = host ∧ s.status? host = some .wokenUp
    · obtain ⟨rfl, hstatus⟩ := hgives
      exact .inr ⟨hj, rfl, hstatus⟩
    · exact .inl (hs.transition id .wokenUp .passive fun _ hid hstatus => hgives ⟨hid, hstatus⟩).2

namespace Contract

variable {host : HostId}

/-- The contract supports bringing machines to some hosts, if the host is awake in case it is one of
them. -/
theorem dormant_supports {s : Store α} (dest : HostId → Prop) (hs : dest host → s.Awake host)
    {W : StoreRequest α → Prop}
    (hW : ∀ {q}, W q → q.Delivers (fun _ d => dest d) fun _ _ => True) :
    (dormant α host).Supports s W := by
  refine supports_of_delivers (fun t => dest host → t.Awake host) hs hW Store.Tends.consistent
    (fun ht _ htu h => htu.awake (ht h)) fun ht hstays htu => ?_
  obtain ⟨hgood, hawake⟩ := ht.delivered hstays htu
  exact ⟨hgood, fun h => hawake (hstays h)⟩

/-! ## Power behind the gate -/

/-- Hosts that were seen without machines are powered down, and up again. -/
theorem dormant_powerDown {s : Store α} (hs : s.Tends host) (reserved : Nat) :
    (dormant α host).Supports s (PowersDown
      ((((s.hostList 0 true false).filter Power.isIdle).drop reserved).map Host.id)) := by
  refine ⟨fun t => host ∈ (((s.hostList 0 true false).filter Power.isIdle).drop reserved).map
    Host.id → t.Empties host, fun hmem => ?_, fun ht _ htu h => (ht h).sheds htu.sheds, ?_⟩
  · obtain ⟨h, hh, rfl⟩ := List.mem_map.1 hmem
    obtain ⟨hlisted, hidle⟩ := List.mem_filter.1 (List.mem_of_mem_drop hh)
    refine (hs.consistent.shows_of_mem_hostList hlisted).1.empties ?_
    simpa using (Bool.and_eq_true_iff.1 hidle).2
  · intro q t hq ht hstays
    have hkept : ∀ {id expected next}, id ∈ (((s.hostList 0 true false).filter
        Power.isIdle).drop reserved).map Host.id → (t.transition id expected next).2.Tends host ∧
          t.Sheds (t.transition id expected next).2 := by
      intro id expected next hid
      refine ⟨ht.transition_of_empties (fun heq => hstays (heq ▸ hid)) expected next, ?_⟩
      exact (ht.consistent.sheds_transition id expected next).2
    cases hq with
    | down hid | undo hid => exact ⟨(hkept hid).1, fun h => (hstays h).sheds (hkept hid).2⟩

variable [Quantity α] {c : Settings α} {j : Job α} {a : Activity} {p : ResolutionPhase}

/-- A host that is woken behind the gate is awake from then on, unless that fails. -/
theorem dormant_wakeOne (last : Store α) (id : HostId) :
    (dormant α host).Meets c j (Power.wakeOne id) (.inside a p last) fun g awake =>
      ∃ s, g = .inside a p s ∧ (awake = true → (dormant α host).wakes [id] last s) := by
  refine meets_bind.2 (meets_store.2 ⟨fun s hs hls => ?_, by simp⟩)
  obtain ⟨hclaimed, hminds⟩ := hs.transition id .passive .wokenUp (by simp)
  have hawake : ∀ t, s.Minds host t → (id = host → t.Awake host) →
      (dormant α host).wakes [id] last t := fun t hst h =>
    ⟨Store.Minds.trans hls hst, fun hmem => h (List.mem_singleton.1 hmem).symm⟩
  refine ⟨hclaimed, ?_⟩
  simp only [StoreRequest.apply]
  rcases hanswer : (s.transition id .passive .wokenUp).1 with e | _ | _
  · exact ⟨_, rfl, by simp⟩
  · -- the host was awake already
    obtain ⟨st, hstatus, hexpected⟩ := Store.answer_transition hanswer
    refine ⟨_, rfl, fun _ => hawake _ hminds fun hid => hminds.awake ?_⟩
    exact ⟨st, hid ▸ hstatus, fun hpassive => absurd (hexpected.2 hpassive) (by simp)⟩
  · obtain ⟨st, hstatus, hexpected⟩ := Store.answer_transition hanswer
    obtain rfl := hexpected.1 rfl
    refine meets_bind.2 (meets_host.2 ?_)
    rintro (e | r)
    · refine meets_bind.2 (meets_store.2 ⟨fun u hu hsu => ⟨?_, ?_⟩, by simp⟩)
      · -- nothing has come to the host since it was claimed
        refine hu.transition_of_empties (fun hid => ?_) .wokenUp .passive
        exact ((hs.empties (hid ▸ hstatus)).sheds hminds.sheds).sheds hsu.sheds
      · rcases ((StoreRequest.transition id .wokenUp .passive).apply u).1 with e | _
        · exact ⟨_, rfl, by simp⟩
        · exact ⟨_, rfl, by simp⟩
    · refine ⟨_, rfl, fun _ => hawake _ hminds fun hid => ⟨.wokenUp, ?_, by simp⟩⟩
      rw [Store.status_transition, if_pos ⟨hid.symm, hstatus⟩]

theorem dormant_wakeAll (last : Store α) (hosts : List HostId) :
    (dormant α host).Meets c j (Power.wakeAll hosts) (.inside a p last) fun g failed =>
      ∃ s, g = .inside a p s ∧ (failed = [] → (dormant α host).wakes hosts last s) := by
  induction hosts generalizing last with
  | nil => exact ⟨last, rfl, fun _ => (dormant α host).wakes_nil last⟩
  | cons id rest ih =>
    refine meets_bind.2 ((dormant_wakeOne last id).mono ?_)
    rintro g awake ⟨s, rfl, hs⟩
    refine meets_bind.2 ((ih s).mono ?_)
    rintro g failed ⟨t, rfl, ht⟩
    refine ⟨t, rfl, fun hnone => ?_⟩
    cases awake with
    | false => exact absurd hnone (by simp)
    | true =>
      obtain ⟨hls, hfirst⟩ := hs rfl
      obtain ⟨hst, hothers⟩ := ht hnone
      refine ⟨hls.trans hst, fun hmem => ?_⟩
      rcases List.mem_cons.1 hmem with hid | hmem
      · exact hst.awake (hfirst (List.mem_singleton.2 hid))
      · exact hothers hmem

/-! ## Plans -/

theorem dormant_place {s : Store α} (hs : s.Tends host) (chosen : List (Vm α)) (cursor : Nat) :
    (dormant α host).Supports s (Records (Placement.place c.placementPolicy cursor chosen
      (s.hostList c.estimator.window true false)).plan) := by
  have hsound : Placement.Sound (s.hostList c.estimator.window true false) chosen (fun _ => True)
      (Placement.place c.placementPolicy cursor chosen
        (s.hostList c.estimator.window true false)) :=
    Placement.sound_place c.placementPolicy cursor (hs.consistent.nodup_hostList ..)
      (fun _ _ => trivial) fun _ _ _ _ _ => trivial
  refine dormant_supports (fun d => ∃ h ∈ s.hostList c.estimator.window true false, h.id = d) ?_
    fun hq => hq.delivers fun a ha => ⟨?_, trivial⟩
  · rintro ⟨h, hh, rfl⟩
    obtain ⟨hshows, hawake⟩ := hs.consistent.shows_of_mem_hostList hh
    exact hshows.awake (hawake rfl)
  · exact hsound.planned.exists_of_receives (hsound.assigned a ha).2

theorem dormant_migrate {t : Store α} {vm : VmId} {found : Vm α} {source d : HostId}
    {target : Host α} (ht : t.Tends host) (htarget : t.host? d 0 = some target)
    (haccepts : Control.accepts target source found = true) :
    (dormant α host).Supports t (Commits [⟨vm, some source, d⟩]) := by
  obtain ⟨rfl, hshows⟩ := ht.consistent.shows_of_host? htarget
  refine dormant_supports (fun d => d = target.id) ?_ fun hq => hq.delivers fun m hm => ?_
  · rintro rfl
    refine hshows.awake ?_
    have hstatus := (Bool.and_eq_true_iff.1 (Bool.and_eq_true_iff.1 haccepts).1).1
    simpa [Host.isPassive] using hstatus
  · rw [List.mem_singleton.1 hm]

/-- A passive destination has been woken before machines are moved to it. -/
theorem dormant_relocate {t u : Store α} {policy : RelocationPolicy} {source : Host α}
    {destinations : List (Host α)} (ht : t.Tends host)
    (hdestinations : ∀ h ∈ destinations, t.Shows h) (hids : (destinations.map Host.id).Nodup)
    (htu : (dormant α host).wakes (Resolution.toWake
      (Relocation.relocate c.ranking policy source destinations).1 destinations) t u) :
    (dormant α host).Supports u
      (Commits (Relocation.relocate c.ranking policy source destinations).1.moves) := by
  refine dormant_supports (· ∈ (Relocation.relocate c.ranking policy source
    destinations).1.destinations) (fun hd => ?_) fun hq => hq.delivers fun m hm => ?_
  · obtain ⟨h, hh, rfl⟩ := Relocation.exists_of_mem_destinations hids hd
    cases hpassive : h.isPassive with
    | false => exact htu.1.awake ((hdestinations h hh).awake hpassive)
    | true =>
      refine htu.2 (List.mem_filter.2 ⟨hd, List.any_eq_true.2 ⟨h, hh, ?_⟩⟩)
      rw [hpassive, beq_self_eq_true, Bool.and_true]
  · exact MigrationPlan.mem_destinations_iff.2 ⟨m, hm, rfl⟩

theorem dormant_consolidate {s : Store α} (hs : s.Tends host) :
    (dormant α host).Supports s (Commits
      (Consolidation.consolidate c.ranking (s.hostList c.estimator.window true true)).moves) := by
  obtain ⟨copies, hplanned, harrives⟩ : ∃ copies, Planned ((s.hostList c.estimator.window true
      true).filter fun h => !h.isPassive) (fun _ => True) copies ∧ (Consolidation.consolidate
        c.ranking (s.hostList c.estimator.window true true)).Arrives copies :=
    Consolidation.planned_consolidate c.ranking
      (hs.consistent.filed_hostList c.estimator.window true true)
      (hs.consistent.apart_hostList c.estimator.window true true)
      (fun _ _ _ => trivial) fun _ _ _ _ _ _ _ => trivial
  refine dormant_supports (fun d => ∃ h ∈ s.hostList c.estimator.window true true, h.id = d) ?_
    fun hq => hq.delivers fun m hm => ?_
  · rintro ⟨h, hh, rfl⟩
    obtain ⟨hshows, hawake⟩ := hs.consistent.shows_of_mem_hostList hh
    exact hshows.awake (hawake rfl)
  · obtain ⟨h, hh, hid⟩ := hplanned.exists_of_receives (harrives.mem_moves hm)
    exact ⟨h, List.mem_of_mem_filter hh, hid⟩

/-- The contract supports everything that workflows do. -/
theorem dormant_serves (host : HostId) (c : Settings α) : (dormant α host).Serves c where
  casual {j busy s q} hq hs hadmitted := by
    obtain ⟨hc, hsheds⟩ := hq.sheds hs.consistent
    obtain hminds | ⟨hj, hgives⟩ := hq.minds hs
    · exact ⟨hs.minds hc hminds, fun _ => hminds⟩
    · obtain ⟨hfree, hempty⟩ := hadmitted hj hgives
      exact ⟨(hempty.sheds hsheds).tends hc, fun hbusy => absurd hbusy (by simp [hfree])⟩
  wake hosts := dormant_wakeAll _ hosts
  powerDown reserved hs := dormant_powerDown hs reserved
  place cursor hs _ _ _ _ := dormant_place hs _ cursor
  migrate _ _ _ ht _ htarget haccepts := dormant_migrate ht htarget haccepts
  relocate _ _ ht _ hdestinations htu := by
    subst hdestinations
    refine dormant_relocate ht (fun h hh => ?_) ?_ htu
    · exact (ht.consistent.shows_of_mem_hostList (List.mem_of_mem_filter hh)).1
    · exact (ht.consistent.nodup_hostList ..).sublist (List.filter_sublist.map _)
  consolidate hs := dormant_consolidate hs

end Contract

/-! ## Every state that can be reached -/

/-- What the task asks of the store next, if that is what it does next. -/
def Task.asks? (task : Task α) : Option (StoreRequest α) :=
  match task.program with
  | .call (.store q) _ => some q
  | _ => none

theorem Task.asks_eq_some_iff {task : Task α} {q : StoreRequest α} :
    task.asks? = some q ↔ ∃ next, task.program = .call (.store q) next := by
  unfold asks?
  split
  · rename_i q' next hprogram
    rw [hprogram]
    constructor
    · rintro ⟨⟩
      exact ⟨next, rfl⟩
    · rintro ⟨next', heq⟩
      cases heq
      rfl
  · rename_i hother
    exact iff_of_false (by simp) fun ⟨next, heq⟩ => hother q next heq

namespace Controller

/-- Only tasks use the store, the store keeps its backend, and a claim on the host that was made
outside the gate is given up only while the gate is free and the host holds nothing. -/
def Careful (host : HostId) (s : Controller α) : Move α → Prop
  | .run t => ∀ {task q next}, s.tasks[t]? = some task → task.program = .call (.store q) next →
    task.job.WakesFreely → q.GivesUp host s.store → s.busy = false ∧ s.store.Empties host
  | m => m.Undisturbed

instance (host : HostId) (s : Controller α) (m : Move α) : Decidable (s.Careful host m) :=
  match m with
  | .run t =>
    decidable_of_iff (∀ task ∈ s.tasks[t]?, ∀ q ∈ task.asks?, task.job.WakesFreely →
      q.GivesUp host s.store → s.busy = false ∧ s.store.Empties host) <| by
        constructor
        · intro h task q next hget hprogram
          exact h task hget q (Task.asks_eq_some_iff.2 ⟨next, hprogram⟩)
        · intro h task hget q hq
          obtain ⟨next, hprogram⟩ := Task.asks_eq_some_iff.1 hq
          exact h hget hprogram
  | .fault .. | .amend _ => .isFalse id
  | .submit .. | .begin _ | .answer .. | .poll .. | .answerMigrate .. | .answerSuspend ..
  | .signal .. | .collect _ | .finish _ | .note _ | .setReady _ | .elapse _ => .isTrue trivial

theorem Careful.permits {host : HostId} {s : Controller α} {m : Move α} (hm : s.Careful host m) :
    Permits (Contract.dormant α host) s m := by
  cases m <;> exact hm

variable [Quantity α]

/-- A host that holds no machine while it is passive at first holds none in any state in which
careful moves leave it passive: in whichever order hosts are claimed, answer, are given up, report
samples and are powered down, and plans are committed. -/
theorem passive_holds_nothing (c : Settings α) {s₀ : Store α} (hconsistent : s₀.Consistent)
    (host : HostId)
    (hempty : ∀ h, s₀.hosts.get? host = some h → h.status = .passive → h.hasVms = false)
    {s : Controller α} (hs : Runs (Careful host) (start c s₀) s) :
    ∀ h, s.store.hosts.get? host = some h → h.status = .passive → h.hasVms = false := by
  have hstart : s₀.Tends host := by
    refine ⟨hconsistent, fun {v w} hw => ?_⟩
    obtain ⟨h, hget, hv⟩ := Option.bind_eq_some_iff.1 hw
    refine ⟨h.status, by rw [Store.status?, hget, Option.map_some], fun hpassive => ?_⟩
    rw [(Store.empties_iff hget).2 (hempty h hget hpassive)] at hw
    exact absurd hw (by simp)
  obtain ⟨o, hguarded⟩ := Guarded.run (Contract.dormant_serves host c) trivial
    (guarded_start hstart) Careful.permits hs
  intro h hget hpassive
  refine (Store.empties_iff hget).1 (hguarded.good.empties ?_)
  rw [Store.status?, hget, Option.map_some, hpassive]

/-- A cluster of one passive host without machines. -/
def cold : Store ℚ :=
  Store.empty.addHost
    { id := "p", address := "", status := .passive, capacity := ⟨4, 4, 4, 4⟩, vms := .empty
      history := .empty 1, thresholds := .standard }

theorem consistent_cold : cold.Consistent :=
  Store.consistent_empty.addHost
    ⟨fun h => absurd h (by simp), fun h => absurd h (by simp), fun h => absurd h (by simp)⟩

theorem hasVms_cold {id : HostId} {h : Host ℚ} (hget : cold.hosts.get? id = some h) :
    h.hasVms = false := by
  rw [cold, Store.hosts_addHost] at hget
  split at hget
  · rw [← Option.some.inj hget]
    rfl
  · cases hget

/-- The host does not get up. -/
def refusal : HostAnswer := .done (.error (.rejected "p" "no power"))

/-- The passive host, next to a busy one with a machine that has to leave. -/
def strained : Store ℚ :=
  ((cold.addHost (.new "b" ⟨8, 8, 8, 8⟩ 1)).addVm
    (((Vm.new "v" ⟨2, 2, 2, 2⟩ 1).observe ⟨0, ⟨8, 8, 8, 8⟩⟩).on "b")).2

theorem consistent_strained : strained.Consistent :=
  (consistent_cold.addHost (Store.admits_of_no_vms rfl)).addVm _

/-- A claim on the host is given up while nothing else goes on.  Then a resolution claims the host
for a machine of the busy one, and the host does not get up again. -/
def givenUpTwice : List (Move ℚ) :=
  [.begin (.wake ["p"]), .run 0, .run 0, .answer 0 refusal, .run 0] ++
    .begin (.resolve "b" .overloaded) :: List.replicate 7 (.run 1) ++ [.answer 1 refusal, .run 1]

/-- The host is passive again while the resolution goes on, and the machine has not come. -/
theorem passive_holds_nothing_of_refusal : ∃ s : Controller ℚ,
    Runs (Careful "p") (start .standard strained) s ∧ s.phase = .resolving ∧
      (s.store.recordOn "b" "v").isSome = true ∧ s.store.status? "p" = some .passive ∧
        ∀ h, s.store.hosts.get? "p" = some h → h.status = .passive → h.hasVms = false := by
  have hseen : ((start .standard strained).replayWithin (Careful "p") givenUpTwice).map
      (fun s => (s.phase, (s.store.recordOn "b" "v").isSome, s.store.status? "p")) =
        some (.resolving, true, some .passive) := by
    decide +kernel
  obtain ⟨s, hs, hseen⟩ := Option.map_eq_some_iff.1 hseen
  simp only [Prod.mk.injEq] at hseen
  have hempty : ((strained.hosts.get? "p").all fun h => !h.hasVms) = true := by decide +kernel
  have hrun := runs_replayWithin hs
  refine ⟨s, hrun, hseen.1, hseen.2.1, hseen.2.2, passive_holds_nothing .standard
    consistent_strained "p" (fun h hget _ => ?_) hrun⟩
  rw [hget] at hempty
  simpa using hempty

/-- A machine is submitted to a host that has been claimed, and the claim is given up when the
submission is through: the gate is free, but the host holds the machine. -/
def givenUpLater : List (Move ℚ) :=
  [.begin (.wake ["p"]), .run 0, .run 0, .submit "task" [Vm.new "v" ⟨1, 1, 1, 1⟩ 1],
    .run 1, .run 1, .run 1, .run 1, .answer 1 (.started (.ok ["v"])), .run 1,
    .run 1, .run 1, .run 1, .run 1, .run 1, .answer 0 refusal, .run 0]

/-- The claim is given up while the host starts the machine: it holds nothing yet, but the gate is
taken. -/
def givenUpMeanwhile : List (Move ℚ) :=
  [.begin (.wake ["p"]), .run 0, .run 0, .submit "task" [Vm.new "v" ⟨1, 1, 1, 1⟩ 1],
    .run 1, .run 1, .run 1, .run 1, .answer 0 refusal, .run 0,
    .answer 1 (.started (.ok ["v"])), .run 1]

/-- Without that care a passive host may hold a machine, either way. -/
theorem passive_holds_machine : cold.Consistent ∧
    (∀ id h, cold.hosts.get? id = some h → h.hasVms = false) ∧
      ∀ moves ∈ [givenUpLater, givenUpMeanwhile], ∃ s h,
        (start .standard cold).replay moves = some s ∧
          Runs (fun _ m => m.Undisturbed) (start .standard cold) s ∧
            s.store.hosts.get? "p" = some h ∧ h.status = .passive ∧ h.hasVms = true := by
  refine ⟨consistent_cold, fun _ _ => hasVms_cold, fun moves hmoves => ?_⟩
  have hundisturbed : ∀ m ∈ moves, m.Undisturbed := by
    simp only [List.mem_cons, List.not_mem_nil, or_false] at hmoves
    rcases hmoves with rfl | rfl <;>
      simp [givenUpLater, givenUpMeanwhile, Move.Undisturbed]
  have hend : ∀ moves ∈ [givenUpLater, givenUpMeanwhile],
      (((start .standard cold).replay moves).bind fun s => s.store.hosts.get? "p").any
        (fun h => h.isPassive && h.hasVms) = true := by
    decide +kernel
  obtain ⟨h, hfound, hh⟩ := (Option.any_eq_true _ _).1 (hend moves hmoves)
  obtain ⟨s, hs, hget⟩ := Option.bind_eq_some_iff.1 hfound
  obtain ⟨hpassive, hvms⟩ := Bool.and_eq_true_iff.1 hh
  exact ⟨s, h, hs, runs_replay (fun _ => hundisturbed) hs, hget, beq_iff_eq.1 hpassive, hvms⟩

end Controller

end ClusterControl
