import ClusterControl.Proofs.Program.Chronicle
import ClusterControl.Proofs.Program.Outcomes
import ClusterControl.Proofs.Store.Keyed

/-!
# What resolutions ask of hosts

Before a resolution hands its plan over, it asks hosts to wake up, one after the other, and asks
nothing else of anybody.

* `Waking` is a wake-up with the answer to it; `Power.yields_wakeAll` says what a series of them
  leaves in the store.
* `MigrationPlan.asleep` are the hosts that a plan needs woken, as the store has them.
* `Resolution.yields_resolve` says what a resolution does up to the plan it hands over
  (`Resolution.Launches`) or the reason why it is given up (`Resolution.Abandons`), on a store that
  files every host under its id.
-/

namespace ClusterControl

variable {α : Type} {e : Engine} {g : Chronicle α} {s : Store α}

/-! ## Wake-ups -/

/-- A host was asked to wake up, and this is its answer. -/
structure Waking where
  host : HostId
  answer : Except ControlError Unit

namespace Waking

/-- A host that wakes up as it was asked to. -/
def granted (host : HostId) : Waking := ⟨host, .ok ()⟩

/-- The request, and the answer behind it. -/
def exchanges (w : Waking) : List Exchange :=
  [.asked (.wakeUp w.host), .answered (.done w.answer)]

def succeeded (w : Waking) : Bool := w.answer.isOk

/-- The hosts that woke up. -/
def woken (l : List Waking) : List HostId := (l.filter succeeded).map host

/-- The hosts that did not wake up. -/
def failed (l : List Waking) : List HostId := (l.filter fun w => !w.succeeded).map host

theorem woken_append (l k : List Waking) : woken (l ++ k) = woken l ++ woken k := by
  simp [woken]

theorem failed_cons (w : Waking) (l : List Waking) :
    failed (w :: l) = if w.succeeded then failed l else w.host :: failed l := by
  rw [failed, List.filter_cons]
  cases w.succeeded <;> rfl

theorem woken_subset (l : List Waking) : woken l ⊆ l.map host :=
  (List.filter_sublist.map host).subset

/-- A series of wake-ups without a failure woke all its hosts. -/
theorem eq_granted {l : List Waking} (h : failed l = []) : l = (l.map host).map granted := by
  induction l with
  | nil => rfl
  | cons w l ih =>
    obtain ⟨id, answer⟩ := w
    rw [failed_cons] at h
    cases answer with
    | error err => exact absurd h (List.cons_ne_nil id (failed l))
    | ok a =>
      rw [List.map_cons, List.map_cons, ← ih h]
      rfl

theorem woken_granted (hosts : List HostId) : woken (hosts.map granted) = hosts := by
  have hall : (hosts.map granted).filter succeeded = hosts.map granted := by
    rw [List.filter_eq_self]
    intro w hw
    obtain ⟨id, -, rfl⟩ := List.mem_map.1 hw
    rfl
  rw [woken, hall, List.map_map]
  exact List.map_id hosts

/-- Where every host is asked once, a host that did not wake up is not among those that did. -/
theorem not_mem_woken {l : List Waking} (hnodup : (l.map host).Nodup) {id : HostId}
    (hid : id ∈ failed l) : id ∉ woken l := by
  obtain ⟨w, hw, rfl⟩ := List.mem_map.1 hid
  obtain ⟨hmem, hfailed⟩ := List.mem_filter.1 hw
  intro hwoken
  obtain ⟨w', hw', hhost⟩ := List.mem_map.1 hwoken
  obtain ⟨hmem', hsucceeded⟩ := List.mem_filter.1 hw'
  rw [List.inj_on_of_nodup_map hnodup hmem' hmem hhost] at hsucceeded
  rw [hsucceeded] at hfailed
  exact absurd hfailed (by simp)

end Waking

/-- What a chronicle is after a series of wake-ups that left the store `u`. -/
def Chronicle.woke (g : Chronicle α) (l : List Waking) (u : Store α) : Chronicle α :=
  { g with store := u, log := g.log ++ l.flatMap Waking.exchanges }

theorem Chronicle.woke_nil (g : Chronicle α) : g.woke [] g.store = g := by
  rw [woke, List.flatMap_nil, List.append_nil]

theorem Chronicle.woke_woke (g : Chronicle α) (l k : List Waking) (t u : Store α) :
    (g.woke l t).woke k u = g.woke (l ++ k) u := by
  simp only [woke, List.flatMap_append, List.append_assoc]

namespace Power

/-- A passive host is woken, or it is as it was. -/
theorem yields_wakeOne {host : HostId} (hbefore : g.launched = false)
    (h : g.store.status? host = some .passive) :
    (wakeOne host).Yields e g fun g' awake => ∃ (w : Waking) (u : Store α), g' = g.woke [w] u ∧
      w.host = host ∧ awake = w.succeeded ∧ g.store.Wakes u (Waking.woken [w]) := by
  obtain ⟨t, hclaim, hwakes, hback⟩ := Store.wakes_transition h
  unfold wakeOne
  refine Program.yields_bind.2 (Program.yields_store.2 ?_)
  simp only [StoreRequest.apply, hclaim]
  refine Program.yields_bind.2 (Program.yields_wakeUp hbefore ?_)
  rintro (err | _)
  · refine Program.yields_bind.2 (Program.yields_store.2 ?_)
    simp only [StoreRequest.apply, hback]
    refine Program.yields_bind.2 (Program.yields_event.2 (Program.yields_pure.2 ?_))
    exact ⟨⟨host, .error err⟩, g.store, rfl, rfl, rfl, .refl g.store⟩
  · refine Program.yields_bind.2 (Program.yields_count.2 (Program.yields_bind.2
      (Program.yields_event.2 (Program.yields_pure.2 ?_))))
    exact ⟨.granted host, t, rfl, rfl, rfl, hwakes⟩

/-- Passive hosts are asked to wake up one after the other, each once. -/
theorem yields_wakeAll {hosts : List HostId} (hbefore : g.launched = false) (hnodup : hosts.Nodup)
    (h : ∀ host ∈ hosts, g.store.status? host = some .passive) :
    (wakeAll hosts).Yields e g fun g' failed => ∃ (l : List Waking) (u : Store α), g' = g.woke l u ∧
      l.map Waking.host = hosts ∧ failed = Waking.failed l ∧ g.store.Wakes u (Waking.woken l) := by
  induction hosts generalizing g with
  | nil => exact Program.yields_pure.2 ⟨[], g.store, g.woke_nil.symm, rfl, rfl, .refl g.store⟩
  | cons host rest ih =>
    obtain ⟨hfirst, hrest⟩ := List.forall_mem_cons.1 h
    obtain ⟨hnot, hdistinct⟩ := List.nodup_cons.1 hnodup
    refine Program.yields_bind.2 ((yields_wakeOne hbefore hfirst).mono ?_)
    rintro _ awake ⟨w, t, rfl, rfl, rfl, hwoken⟩
    -- no host is asked twice, so those that are still to come are as passive as before
    have hpassive : ∀ k ∈ rest, t.status? k = some .passive := by
      intro k hk
      have hne : k ∉ Waking.woken [w] := by
        intro hmem
        exact hnot (List.mem_singleton.1 (Waking.woken_subset [w] hmem) ▸ hk)
      rw [hwoken.status, if_neg hne]
      exact hrest k hk
    have hmore := ih (g := g.woke [w] t) hbefore hdistinct hpassive
    refine Program.yields_bind.2 (hmore.mono ?_)
    rintro _ failed ⟨l, u, rfl, rfl, rfl, hwakes⟩
    have hall := hwoken.trans hwakes
    rw [← Waking.woken_append] at hall
    exact Program.yields_pure.2 ⟨w :: l, u, g.woke_woke [w] l t u, rfl,
      (Waking.failed_cons w l).symm, hall⟩

end Power

/-! ## Plans and the hosts they need -/

/-- The hosts that are passive among those that a plan moves machines to. -/
def MigrationPlan.asleep (p : MigrationPlan) (s : Store α) : List HostId :=
  p.destinations.filter fun id => s.status? id == some .passive

theorem MigrationPlan.mem_asleep {p : MigrationPlan} {id : HostId} :
    id ∈ p.asleep s ↔ id ∈ p.destinations ∧ s.status? id = some .passive := by
  rw [asleep, List.mem_filter, beq_iff_eq]

theorem MigrationPlan.nodup_asleep (p : MigrationPlan) (s : Store α) : (p.asleep s).Nodup :=
  (SortedMap.nodup_keys _).sublist List.filter_sublist

namespace Store

/-- A host that is shown is passive if it is so in the store. -/
theorem Shows.isPassive_iff {h : Host α} (hh : s.Shows h) :
    h.isPassive = true ↔ s.status? h.id = some .passive := by
  obtain ⟨k, n, hget, hk⟩ := hh
  have hstatus : h.status = k.status := by
    rw [hk]
    rfl
  rw [status?, hget, Option.map_some, Host.isPassive, hstatus, beq_iff_eq, Option.some.injEq]

end Store

variable [Quantity α] {c : Settings α}

namespace Resolution

/-- The hosts to wake are those that are passive in the store among the planned destinations. -/
theorem toWake_relocate (k : Ranking α) (p : RelocationPolicy) (source : Host α)
    {hosts : List (Host α)} (hids : (hosts.map Host.id).Nodup) (hshown : ∀ h ∈ hosts, s.Shows h) :
    toWake (Relocation.relocate k p source hosts).1 hosts =
      (Relocation.relocate k p source hosts).1.asleep s := by
  refine List.filter_congr fun id hid => Bool.eq_iff_iff.2 ?_
  rw [List.any_eq_true, beq_iff_eq]
  constructor
  · rintro ⟨h, hh, htest⟩
    obtain ⟨hhid, hpassive⟩ := Bool.and_eq_true_iff.1 htest
    rw [← beq_iff_eq.1 hhid]
    exact (hshown h hh).isPassive_iff.1 hpassive
  · intro hpassive
    obtain ⟨h, hh, rfl⟩ := Relocation.exists_of_mem_destinations hids hid
    exact ⟨h, hh, Bool.and_eq_true_iff.2
      ⟨beq_self_eq_true h.id, (hshown h hh).isPassive_iff.2 hpassive⟩⟩

/-! ## How far a resolution comes -/

/-- The wake-ups of a resolution that is given up: one for each host that the plan needs woken, if
it comes that far. -/
def Tried (c : Settings α) (s : Store α) (host : HostId) (state : LoadState)
    (wakings : List Waking) : ResolutionError → Prop
  | .wakeupFailed failed => failed = Waking.failed wakings ∧
    ∃ plan, plan? c s host state = some plan ∧ wakings.map Waking.host = plan.asleep s
  | _ => wakings = []

/-- A resolution that found the store `s` is given up after some wake-ups. -/
structure Abandons (c : Settings α) (s : Store α) (host : HostId) (state : LoadState)
    (g : Chronicle α) (err : ResolutionError) (wakings : List Waking) : Prop where
  launched : g.launched = false
  log : g.log = wakings.flatMap Waking.exchanges
  wakes : s.Wakes g.store (Waking.woken wakings)
  excuse : Excuses c s host state err
  tried : Tried c s host state wakings err

/-- A resolution that found the store `s` has handed its plan over, after every passive destination
was woken. -/
structure Launches (c : Settings α) (s : Store α) (host : HostId) (state : LoadState)
    (g : Chronicle α) (r : ResolutionReport) : Prop where
  launched : g.launched = true
  log : g.log = (r.woken.map Waking.granted).flatMap Waking.exchanges
  power : ∀ id, g.store.status? id = if id ∈ r.woken then some .wokenUp else s.status? id
  planned : plan? c s host state = some r.plan
  woken : r.woken = r.plan.asleep s

/-- How far a resolution that found the store `s` has come. -/
def Comes (c : Settings α) (s : Store α) (host : HostId) (state : LoadState) (g : Chronicle α) :
    Except ResolutionError ResolutionReport → Prop
  | .error err => ∃ wakings, Abandons c s host state g err wakings
  | .ok r => Launches c s host state g r

/-- Neither the phase nor the gate matters for how far a resolution has come. -/
theorem Comes.congr {host : HostId} {state : LoadState} {g' : Chronicle α}
    {r : Except ResolutionError ResolutionReport} (h : Comes c s host state g r)
    (hstore : g'.store = g.store) (hlog : g'.log = g.log) (hlaunched : g'.launched = g.launched) :
    Comes c s host state g' r := by
  cases r with
  | error err =>
    obtain ⟨wakings, hgiven⟩ := h
    exact ⟨wakings, hlaunched.trans hgiven.launched, hlog.trans hgiven.log,
      hstore.symm ▸ hgiven.wakes, hgiven.excuse, hgiven.tried⟩
  | ok r =>
    exact ⟨hlaunched.trans h.launched, hlog.trans h.log, hstore.symm ▸ h.power, h.planned, h.woken⟩

omit [Quantity α] in
/-- Passive hosts are asked to wake up, and all of them do, or the resolution is given up. -/
theorem yields_wakeOrAbandon {hosts : List HostId} (hbefore : g.launched = false)
    (hnodup : hosts.Nodup) (h : ∀ id ∈ hosts, g.store.status? id = some .passive) :
    ((wakeOrAbandon hosts).run : Program α (Except ResolutionError Unit)).Yields e g fun g' r =>
      ∃ (l : List Waking) (u : Store α), g' = g.woke l u ∧ l.map Waking.host = hosts ∧
        g.store.Wakes u (Waking.woken l) ∧
          (r = .ok () ∧ Waking.failed l = [] ∨ r = .error (.wakeupFailed (Waking.failed l)) ∧
            Waking.failed l ≠ []) := by
  unfold wakeOrAbandon
  split
  · rename_i hempty
    rw [List.isEmpty_iff.1 hempty]
    exact Program.yields_pure.2
      ⟨[], g.store, g.woke_nil.symm, rfl, .refl g.store, .inl ⟨rfl, rfl⟩⟩
  · refine Program.yields_bind.2 (Program.yields_bind.2
      ((Power.yields_wakeAll hbefore hnodup h).mono ?_))
    rintro _ failed ⟨l, u, rfl, hhosts, hfailed, hwakes⟩
    cases failed with
    | nil =>
      exact Program.yields_pure.2 (Program.yields_pure.2
        ⟨l, u, rfl, hhosts, hwakes, .inl ⟨rfl, hfailed.symm⟩⟩)
    | cons id rest =>
      refine Program.yields_pure.2 (Program.yields_pure.2 ⟨l, u, rfl, hhosts, hwakes, .inr ?_⟩)
      rw [← hfailed]
      exact ⟨rfl, List.cons_ne_nil id rest⟩

omit [Quantity α] in
/-- A resolution goes on with what the store tells. -/
theorem yields_storeOrAbandon {ρ : Type} {q : StoreRequest α} {a : q.Answer}
    {f : q.Answer → ExceptT ResolutionError (Program α) ρ}
    {Q : Chronicle α → Except ResolutionError ρ → Prop} (ha : q.apply g.store = (.ok a, g.store))
    (h : ((f a).run : Program α (Except ResolutionError ρ)).Yields e g Q) :
    ((storeOrAbandon q >>= f).run : Program α (Except ResolutionError ρ)).Yields e g Q := by
  refine Program.yields_run_bind (Program.yields_bind.2 (Program.yields_store.2 ?_))
  simp only [ha]
  refine Program.yields_pure.2 ⟨fun b hb => ?_, fun err herr => absurd herr (by simp)⟩
  rwa [← Except.ok.inj hb]

omit [Quantity α] in
theorem yields_phase {ρ : Type} {p : ResolutionPhase}
    {f : Unit → ExceptT ResolutionError (Program α) ρ}
    {Q : Chronicle α → Except ResolutionError ρ → Prop}
    (h : ((f ()).run : Program α (Except ResolutionError ρ)).Yields e { g with phase := p } Q) :
    ((setPhase e p >>= f).run : Program α (Except ResolutionError ρ)).Yields e g Q :=
  Program.yields_run_bind (Program.yields_bind.2 (Program.yields_setPhase.2
    (Program.yields_pure.2 ⟨fun _ _ => h, fun err herr => absurd herr (by simp)⟩)))

/-- Once there is a plan, its passive destinations are woken, and it is handed over. -/
theorem yields_handOver {plan : MigrationPlan} {report : EnforcementReport → ResolutionReport}
    (hbefore : g.launched = false) (hlog : g.log = []) (host : HostId) (state : LoadState)
    (hplanned : plan? c g.store host state = some plan)
    (hreport : ∀ r, (report r).plan = plan ∧ (report r).woken = plan.asleep g.store) :
    ((do
        wakeOrAbandon (plan.asleep g.store)
        setPhase e .enforcing
        let enforcement ← (Program.ask (.enforce e plan) : Program α _)
        return report enforcement : ExceptT ResolutionError (Program α) ResolutionReport).run :
      Program α (Except ResolutionError ResolutionReport)).Yields e g
        fun g' r => g'.busy = g.busy ∧ Comes c g.store host state g' r := by
  have hpassive : ∀ id ∈ plan.asleep g.store, g.store.status? id = some .passive := fun id hid =>
    (MigrationPlan.mem_asleep.1 hid).2
  refine Program.yields_run_bind
    ((yields_wakeOrAbandon hbefore (plan.nodup_asleep g.store) hpassive).mono ?_)
  rintro _ _ ⟨l, u, rfl, hhosts, hwakes, hend⟩
  have hwoke : (g.woke l u).log = l.flatMap Waking.exchanges := by
    rw [Chronicle.woke, hlog, List.nil_append]
  rcases hend with ⟨rfl, hnone⟩ | ⟨rfl, hsome⟩
  · refine ⟨fun _ _ => ?_, fun err herr => absurd herr (by simp)⟩
    refine yields_phase (Program.yields_run_bind (Program.yields_bind.2 ?_))
    refine Program.yields_ask.2 ⟨rfl, fun r => Program.yields_pure.2 ⟨fun b hb => ?_, ?_⟩⟩
    · obtain ⟨hplan, hwoken⟩ := hreport b
      have hgranted : l = (plan.asleep g.store).map Waking.granted := by
        rw [← hhosts]
        exact Waking.eq_granted hnone
      rw [hgranted, Waking.woken_granted] at hwakes
      refine Program.yields_pure.2 ⟨rfl, rfl, ?_, fun id => ?_, ?_, ?_⟩
      · rw [hwoken, ← hgranted]
        exact hwoke
      · rw [hwoken]
        exact hwakes.status id
      · rw [hplan]
        exact hplanned
      · rw [hplan, hwoken]
    · exact fun err herr => absurd herr (by simp)
  · refine ⟨fun a ha => absurd ha (by simp), fun err herr => ?_⟩
    rw [← Except.error.inj herr]
    refine ⟨rfl, l, hbefore, hwoke, hwakes, ⟨hsome, fun id hid => hpassive id ?_⟩, rfl, plan,
      hplanned, hhosts⟩
    rw [← hhosts]
    exact (List.filter_sublist.map Waking.host).subset hid

/-- Relieving a host comes to a plan that is handed over once its passive destinations are awake, or
to a reason why it is given up. -/
theorem yields_relieve (hs : g.store.Keyed) (hbefore : g.launched = false) (hlog : g.log = [])
    (host : HostId) (state : LoadState) :
    ((relieve c e host state).run : Program α (Except ResolutionError ResolutionReport)).Yields e g
      fun g' r => g'.busy = g.busy ∧ Comes c g.store host state g' r := by
  have hgiven : ∀ {p : ResolutionPhase} {err : ResolutionError}, Excuses c g.store host state err →
      Tried c g.store host state [] err →
        Comes c g.store host state { g with phase := p } (.error err) := fun hexcuse htried =>
    ⟨[], hbefore, hlog, .refl g.store, hexcuse, htried⟩
  unfold relieve
  split
  · rename_i hpolicy
    exact Program.yields_pure.2 ⟨rfl, hgiven hpolicy rfl⟩
  rename_i policy hpolicy
  refine yields_storeOrAbandon rfl ?_
  cases hsource : g.store.host? host c.estimator.window with
  | none => exact Program.yields_pure.2 ⟨rfl, hgiven hsource rfl⟩
  | some source =>
    have hplanned : plan? c g.store host state = some (Relocation.relocate c.ranking policy source
        (destinations c g.store policy source)).1 := by
      rw [plan?, hpolicy, hsource]
      rfl
    have hshown : ∀ h ∈ destinations c g.store policy source, g.store.Shows h := fun h hh =>
      (hs.shows_of_mem_hostList (List.mem_filter.1 hh).1).1
    have hids : ((destinations c g.store policy source).map Host.id).Nodup :=
      (hs.nodup_hostList _ _ _).sublist (List.filter_sublist.map Host.id)
    refine yields_phase (yields_storeOrAbandon rfl ?_)
    -- the destinations are shown as they are in the store, where nothing has changed so far
    have hwoken := toWake_relocate c.ranking policy source hids hshown
    dsimp only
    rw [← destinations]
    split
    · rename_i hempty
      rw [List.isEmpty_iff.1 hempty] at hplanned
      exact Program.yields_pure.2 ⟨rfl, hgiven ⟨_, hplanned,
        isEmpty_relocate_nil c.ranking policy source⟩ rfl⟩
    rw [hwoken]
    generalize (Relocation.relocate c.ranking policy source
      (destinations c g.store policy source)).1 = plan at hplanned
    split
    · rename_i hempty
      exact Program.yields_pure.2 ⟨rfl, hgiven ⟨plan, hplanned, hempty⟩ rfl⟩
    · exact yields_handOver (g := { g with phase := .resolving }) hbefore hlog host state hplanned
        fun _ => ⟨rfl, rfl⟩

/-- Every call to resolve an anomaly comes to one of these ends, in the phase that goes with it. -/
theorem yields_resolve (hs : g.store.Keyed) (hbefore : g.launched = false) (hlog : g.log = [])
    (host : HostId) (state : LoadState) :
    (resolve c e host state).Yields e g fun g' r => g'.busy = g.busy ∧
      Comes c g.store host state g' r ∧ ∀ err, r = .error err → g'.phase = .idle := by
  refine Program.yields_bind.2 (Program.yields_setPhase.2 (Program.yields_bind.2 ?_))
  refine (yields_relieve (g := { g with phase := .readyToResolve }) hs hbefore hlog host
    state).mono ?_
  rintro g' r ⟨hbusy, hcomes⟩
  refine Program.yields_bind.2 (Program.yields_setPhase.2 (Program.yields_pure.2 ?_))
  refine ⟨hbusy, hcomes.congr rfl rfl rfl, ?_⟩
  rintro err rfl
  rfl

end Resolution

/-! ## Committing -/

namespace Commit

omit [Quantity α] in
/-- Committing an outcome leaves the power of every host. -/
theorem yields_result (r : MigrationResult) : (result r).Yields e g fun g' _ =>
    ∃ u, g' = { g with store := u } ∧ ∀ id, u.status? id = g.store.status? id := by
  unfold result
  refine Program.yields_bind.2 (Program.yields_count.2 (Program.yields_bind.2
    (Program.yields_event.2 ?_)))
  split
  · refine Program.yields_bind.2 (Program.yields_store.2 ?_)
    have hmoved : ∀ id, (g.store.moveVm r.migration.vm r.migration.destination).2.status? id =
        g.store.status? id := fun id => Store.status_of_bare (Store.bare_moveVm _ _ _ id)
    split
    · refine Program.yields_bind.2 (Program.yields_store.2 (Program.yields_pure.2 ⟨_, rfl, ?_⟩))
      intro id
      exact (Store.status_of_bare (Store.bare_setVmStatus _ _ _ _ id)).trans (hmoved id)
    · exact Program.yields_pure.2 ⟨_, rfl, hmoved⟩
  · refine Program.yields_bind.2 (Program.yields_store.2 (Program.yields_pure.2 ⟨_, rfl, ?_⟩))
    exact fun id => Store.status_of_bare (Store.bare_setVmStatus _ _ _ _ id)

omit [Quantity α] in
theorem yields_results (l : List MigrationResult) : (results l).Yields e g fun g' _ =>
    ∃ u, g' = { g with store := u } ∧ ∀ id, u.status? id = g.store.status? id := by
  induction l generalizing g with
  | nil => exact Program.yields_pure.2 ⟨g.store, rfl, fun _ => rfl⟩
  | cons r rest ih =>
    refine Program.yields_bind.2 ((yields_result r).mono ?_)
    rintro _ - ⟨t, rfl, ht⟩
    refine (ih (g := { g with store := t })).mono ?_
    rintro _ - ⟨u, rfl, hu⟩
    exact ⟨u, rfl, fun id => (hu id).trans (ht id)⟩

end Commit

namespace Resolution

/-- Committing a resolution does not undo how far it has come. -/
theorem yields_conclude {host : HostId} {state : LoadState} {r : ResolutionReport}
    (h : Comes c s host state g (.ok r)) :
    (conclude r).Yields e g fun g' _ => Comes c s host state g' (.ok r) := by
  refine Program.yields_bind.2 ((Commit.yields_results r.enforcement.results).mono ?_)
  rintro _ - ⟨u, rfl, hu⟩
  have hcomes : ∀ p, Comes c s host state { g with store := u, phase := p } (.ok r) := fun _ =>
    ⟨h.launched, h.log, fun id => (hu id).trans (h.power id), h.planned, h.woken⟩
  have hend : (Program.event (.anomalyResolved r.host r.state r.enforcement.size
      r.enforcement.failed) >>= fun _ => Program.ask (.setPhase .own .idle) :
        Program α Unit).Yields e { g with store := u } fun g' _ =>
          Comes c s host state g' (.ok r) :=
    Program.yields_bind.2 (Program.yields_event.2 (Program.yields_ask.2 (hcomes _)))
  refine Program.yields_bind.2 (Program.yields_count.2 ?_)
  split
  · exact Program.yields_bind.2 (Program.yields_count.2 hend)
  · exact hend

/-- A resolution with the cluster to itself that finds the gate open resolves the anomaly. -/
theorem yields_run (hs : g.store.Keyed) (hopen : g.busy = false) (hbefore : g.launched = false)
    (hlog : g.log = []) (host : HostId) (state : LoadState) :
    (run c host state).Yields .own g fun g' r => ∃ x, r = x.mapError .resolution ∧
      Comes c g.store host state g' x ∧ ∀ err, x = .error err → g'.phase = .idle := by
  refine Program.yields_gated hopen (Program.yields_bind.2 ?_)
  refine (yields_resolve (g := { g with busy := true }) hs hbefore hlog host state).mono ?_
  rintro g' (err | r) ⟨-, hcomes, hidle⟩
  · refine Program.yields_bind.2 (Program.yields_bind.2 (Program.yields_count.2
      (Program.yields_event.2 (Program.yields_pure.2 ⟨.error err, rfl, ?_, hidle⟩))))
    exact hcomes.congr rfl rfl rfl
  · refine Program.yields_bind.2 ((yields_conclude hcomes).mono ?_)
    intro g'' _ hcomes
    exact Program.yields_pure.2
      ⟨.ok r, rfl, hcomes.congr rfl rfl rfl, fun err herr => absurd herr (by simp)⟩

end Resolution

/-! ## Jobs that resolve anomalies -/

namespace Job

/-- The engine that serves a job which resolves an anomaly, and what it resolves. -/
def resolution? : Job α → Option (Engine × HostId × LoadState)
  | resolve host state => some (.own, host, state)
  | tryResolve host state => some (.trial, host, state)
  | _ => none

/-- What a job answers when its resolution has come to `x`. -/
def Answers : (j : Job α) → j.Result → Except ResolutionError ResolutionReport → Prop
  | resolve .., r, x => r = x.mapError .resolution
  | tryResolve .., r, x => r.1 = x
  | _, _, _ => False

/-- Every job that resolves an anomaly comes to one of the ends of a resolution. -/
theorem yields_program {j : Job α} {host : HostId} {state : LoadState}
    (hj : j.resolution? = some (e, host, state)) (hs : g.store.Keyed) (hopen : g.busy = false)
    (hbefore : g.launched = false) (hlog : g.log = []) :
    (j.program c).Yields e g fun g' r => ∃ x, j.Answers r x ∧
      Resolution.Comes c g.store host state g' x ∧ ∀ err, x = .error err → g'.phase = .idle := by
  cases j with
  | resolve host' state' =>
    obtain ⟨rfl, rfl, rfl⟩ : Engine.own = e ∧ host' = host ∧ state' = state := by
      simpa [resolution?] using hj
    exact Resolution.yields_run hs hopen hbefore hlog _ _
  | tryResolve host' state' =>
    obtain ⟨rfl, rfl, rfl⟩ : Engine.trial = e ∧ host' = host ∧ state' = state := by
      simpa [resolution?] using hj
    refine Program.yields_bind.2 ((Resolution.yields_resolve hs hbefore hlog _ _).mono ?_)
    rintro g' x ⟨-, hcomes, hidle⟩
    exact Program.yields_bind.2 (Program.yields_ask.2 fun p _ =>
      Program.yields_pure.2 ⟨x, rfl, hcomes, hidle⟩)
  | _ => exact absurd hj (by simp [resolution?])

end Job

end ClusterControl
