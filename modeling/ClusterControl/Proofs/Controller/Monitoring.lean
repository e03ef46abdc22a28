import ClusterControl.Proofs.Controller.Outcomes
import ClusterControl.Proofs.Store.Registration
import ClusterControl.Proofs.Store.Samples

/-!
# Monitoring while the cluster is rearranged

Samples come in while machines move and statuses change.  Taking one sample in is one step, and so
is each request to the store.

* `Controller.carryOut` is what comes of a program that needs nobody else and is carried out in one
  go; `Controller.replay_of_carryOut` says that a task comes to the same.
* `Controller.Observes` is such a step with a sample, and `Controller.Observes.spec` says what it
  does.
* `Controller.Feeds` is any interleaving of samples and requests, and
  `Controller.histories_keep_samples` says what the histories are after it.
-/

namespace ClusterControl

variable {α : Type} [Quantity α]

namespace Controller

variable {ρ σ : Type} {s s' u : Controller α} {t : Nat}

/-! ## Programs in one go -/

/-- What comes of a program that needs nobody else; `none` for one that does. -/
def carryOut : Program α ρ → Controller α → Option (ρ × Controller α)
  | .done r, s => some (r, s)
  | .call q next, s => (s.perform q).bind fun x => carryOut (next x.1) x.2

theorem carryOut_bind (p : Program α ρ) (f : ρ → Program α σ) (s : Controller α) :
    carryOut (p >>= f) s = (carryOut p s).bind fun x => carryOut (f x.1) x.2 := by
  induction p generalizing s with
  | done r => rfl
  | call q next ih =>
    simp only [carryOut, Option.bind_assoc, ← ih]
    rfl

theorem carryOut_store (q : StoreRequest α) (s : Controller α) :
    carryOut (Program.store q) s = some ((q.apply s.store).1, { s with store := (q.apply s.store).2 }) :=
  rfl

/-- A request that needs nobody else has nothing to do with the tasks. -/
theorem perform_setTask (s : Controller α) (t : Nat) (task : Task α) (q : Request α) :
    (s.setTask t task).perform q = (s.perform q).map fun x => (x.1, x.2.setTask t task) := by
  cases q with
  | acquire a => by_cases hbusy : s.busy = true <;> simp [perform, acquire, setTask, hbusy]
  | setPhase e p => cases e <;> rfl
  | note n => cases n <;> rfl
  | _ => rfl

theorem carryOut_setTask (p : Program α ρ) (s : Controller α) (t : Nat) (task : Task α) :
    carryOut p (s.setTask t task) = (carryOut p s).map fun x => (x.1, x.2.setTask t task) := by
  induction p generalizing s with
  | done r => rfl
  | call q next ih =>
    rw [carryOut, carryOut, perform_setTask]
    cases s.perform q with
    | none => rfl
    | some x => exact ih x.1 x.2

theorem tasks_carryOut {p : Program α ρ} {r : ρ} (h : carryOut p s = some (r, s')) :
    s'.tasks = s.tasks := by
  induction p generalizing s with
  | done r' =>
    obtain ⟨-, rfl⟩ := Prod.mk.inj (Option.some.inj h)
    rfl
  | call q next ih =>
    obtain ⟨⟨a, s₁⟩, hperform, hrest⟩ := Option.bind_eq_some_iff.1 h
    exact (ih a hrest).trans (perform_spec hperform).1

/-- A task comes to what its program comes to in one go. -/
theorem replay_of_carryOut {j : Job α} {p : Program α j.Result} {batch : Nat}
    (hget : s.tasks[t]? = some ⟨j, p, false, batch⟩) {r : j.Result}
    (h : carryOut p s = some (r, s')) :
    ∃ n, s.replay (.replicate n (.run t)) = some (s'.setTask t ⟨j, .done r, false, batch⟩) := by
  induction p generalizing s s' with
  | done r' =>
    obtain ⟨rfl, rfl⟩ := Prod.mk.inj (Option.some.inj h)
    have hsame : s.setTask t ⟨j, .done r', false, batch⟩ = s := by
      obtain ⟨hlt, heq⟩ := List.getElem?_eq_some_iff.1 hget
      rw [setTask, ← heq, List.set_getElem_self]
    exact ⟨0, by rw [hsame]; rfl⟩
  | call q next ih =>
    obtain ⟨⟨a, s₁⟩, hperform, hrest⟩ := Option.bind_eq_some_iff.1 h
    have hstep : s.step (.run t) = some (s₁.setTask t ⟨j, next a, false, batch⟩) := by
      rw [step, hget, Option.bind_some]
      cases q with
      | host | enforce => cases hperform
      | _ => simp only [runTask, hperform, Option.map_some, proceed]
    have hlt : t < s₁.tasks.length := by
      rw [(perform_spec hperform).1]
      exact (List.getElem?_eq_some_iff.1 hget).1
    have hcarried : carryOut (next a) (s₁.setTask t ⟨j, next a, false, batch⟩) =
        some (r, s'.setTask t ⟨j, next a, false, batch⟩) := by
      rw [carryOut_setTask, hrest, Option.map_some]
    obtain ⟨n, hn⟩ := ih a (List.getElem?_set_self hlt) hcarried
    refine ⟨n + 1, ?_⟩
    rw [List.replicate_succ, replay, hstep, Option.bind_some, hn]
    simp only [setTask, List.set_set]

omit [Quantity α] in
theorem Returns.unique {j : Job α} {r r' : j.Result} (h : s.Returns t j r) (h' : s.Returns t j r') :
    r = r' := by
  obtain ⟨_, _, hget⟩ := h
  obtain ⟨_, _, hget'⟩ := h'
  rw [hget] at hget'
  cases hget'
  rfl

/-- A task that has come to its end does not go on. -/
theorem Returns.not_run {j : Job α} {r : j.Result} (h : s.Returns t j r) :
    s.step (.run t) = none := by
  obtain ⟨_, _, hget⟩ := h
  rw [step, hget]
  rfl

/-- A task that is run to its end comes to one end only. -/
theorem replay_unique {j : Job α} {r r' : j.Result} {n m : Nat} {u u' : Controller α}
    (h : s.replay (.replicate n (.run t)) = some u) (hu : u.Returns t j r)
    (h' : s.replay (.replicate m (.run t)) = some u') (hu' : u'.Returns t j r') : u = u' := by
  have hover : ∀ {v w : Controller α} {k : Nat} {x : j.Result}, v.Returns t j x →
      v.replay (.replicate k (.run t)) = some w → v = w := by
    intro v w k x hv hw
    cases k with
    | zero => exact Option.some.inj hw
    | succ k =>
      rw [List.replicate_succ, replay, hv.not_run] at hw
      exact absurd hw (by simp)
  induction n generalizing s m with
  | zero =>
    obtain rfl := Option.some.inj h
    exact hover hu h'
  | succ n ih =>
    cases m with
    | zero =>
      obtain rfl := Option.some.inj h'
      exact (hover hu' h).symm
    | succ m =>
      obtain ⟨v, hv, hrest⟩ := Option.bind_eq_some_iff.1 h
      obtain ⟨v', hv', hrest'⟩ := Option.bind_eq_some_iff.1 h'
      rw [hv] at hv'
      obtain rfl := Option.some.inj hv'
      exact ih hrest hrest'

/-! ## One sample -/

/-- The controller takes a sample in, in one step: the job begins and is run to its end while nothing
else happens.  It answers whether the sample was kept. -/
def Observes (s : Controller α) (o : Observation α) (kept : Bool) (s' : Controller α) : Prop :=
  ∃ s₁ n, s.begin (.observe o) = some s₁ ∧
    s₁.replay (.replicate n (.run s.tasks.length)) = some s' ∧
      s'.Returns s.tasks.length (.observe o) kept

/-- What a sample does that is kept. -/
def keepSample (s : Controller α) (o : Observation α) : Controller α :=
  ({ s with store := s.store.take o }.note (.count .monitoringSamples 1)).note
    (.health Health.monitoring .healthy none)

/-- A sample of what is there is kept. -/
theorem carryOut_handle {o : Observation α} (hs : s.store.Filed) (h : s.store.Knows o) :
    carryOut (Monitoring.handle o) s = some (true, s.keepSample o) := by
  have hkeep : carryOut (Monitoring.keep o) s =
      some (.ok (), { s with store := s.store.take o }) := by
    cases o with
    | host id sample =>
      obtain ⟨k, hget⟩ := Option.isSome_iff_exists.1 h
      have hsample : (s.store.addHostSample id sample).1 = .ok () := by
        simp only [Store.addHostSample, hget]
      have hknown : ∃ b, ((s.store.addHostSample id sample).2.transition id .wokenUp .active).1 =
          .ok b := by
        simp only [Store.addHostSample, hget, Store.transition, SortedMap.get?_insert, if_true]
        split <;> exact ⟨_, rfl⟩
      obtain ⟨b, hb⟩ := hknown
      rw [Monitoring.keep, carryOut_bind, carryOut_store, Option.bind_some]
      simp only [StoreRequest.apply, hsample, Power.markActive, carryOut_bind]
      rw [carryOut_store, Option.bind_some]
      simp only [StoreRequest.apply, hb]
      rfl
    | vm v sample =>
      obtain ⟨p, w, hw⟩ := h
      have hsample : (s.store.addVmSample v sample).1 = .ok () := by
        obtain ⟨k, hget, hvm⟩ := Option.bind_eq_some_iff.1 hw
        simp only [Store.addVmSample, Store.hostOf, hs.index_of_recordOn hw, Store.modifyVmOn, hget,
          hvm]
      rw [Monitoring.keep, carryOut_store]
      simp only [StoreRequest.apply, hsample, Store.take]
  rw [Monitoring.handle, carryOut_bind, hkeep, Option.bind_some]
  rfl

/-- A sample of what is not there changes nothing. -/
theorem carryOut_handle_of_not {o : Observation α} (hs : s.store.Filed)
    (h : ¬s.store.Knows o) : carryOut (Monitoring.handle o) s = some (false, s) := by
  have hkeep : ∃ e, carryOut (Monitoring.keep o) s = some (.error e, s) := by
    cases o with
    | host id sample =>
      have hnone : s.store.hosts.get? id = none := Option.not_isSome_iff_eq_none.1 h
      refine ⟨.hostNotFound id, ?_⟩
      rw [Monitoring.keep, carryOut_bind, carryOut_store, Option.bind_some]
      simp only [StoreRequest.apply, Store.addHostSample, hnone]
      rfl
    | vm v sample =>
      have hnone : s.store.hostOf v = none := by
        rw [Option.eq_none_iff_forall_ne_some]
        intro p hp
        exact h ⟨p, hs.recordOn_of_index hp⟩
      refine ⟨.vmNotFound v, ?_⟩
      rw [Monitoring.keep, carryOut_store]
      simp only [StoreRequest.apply, Store.addVmSample, hnone]
  obtain ⟨e, hkeep⟩ := hkeep
  rw [Monitoring.handle, carryOut_bind, hkeep, Option.bind_some]
  rfl

/-- The controller with a task left behind that has taken a sample in. -/
def left (s : Controller α) (o : Observation α) (kept : Bool) : Controller α :=
  { s with tasks := s.tasks ++ [⟨.observe o, .done kept, false, 0⟩] }

theorem observes_of_carryOut {o : Observation α} {kept : Bool}
    (h : carryOut (Monitoring.handle o)
      { s with tasks := s.tasks ++ [.create s.settings (.observe o)] } = some (kept, s')) :
    s.Observes o kept (s'.setTask s.tasks.length ⟨.observe o, .done kept, false, 0⟩) := by
  have hget : (s.tasks ++ [Task.create s.settings (.observe o)])[s.tasks.length]? =
      some ⟨.observe o, Monitoring.handle o, false, 0⟩ := List.getElem?_concat_length
  obtain ⟨n, hn⟩ := replay_of_carryOut (j := .observe o)
    (s := { s with tasks := s.tasks ++ [.create s.settings (.observe o)] }) hget h
  have hlt : s.tasks.length < s'.tasks.length := by simp [tasks_carryOut h]
  exact ⟨_, n, rfl, hn, _, _, List.getElem?_set_self hlt⟩

/-- A sample of what is there is kept. -/
theorem observes_kept (hs : s.store.Filed) {o : Observation α} (h : s.store.Knows o) :
    s.Observes o true ((s.keepSample o).left o true) := by
  have hobserves := observes_of_carryOut (s := s) (carryOut_handle hs h)
  have hleft : ((keepSample { s with tasks := s.tasks ++ [.create s.settings (.observe o)] } o).setTask
      s.tasks.length ⟨.observe o, .done true, false, 0⟩) = (s.keepSample o).left o true := by
    simp [keepSample, note, report, left, setTask]
  rwa [hleft] at hobserves

/-- A sample of what is not there changes nothing. -/
theorem observes_dropped (hs : s.store.Filed) {o : Observation α} (h : ¬s.store.Knows o) :
    s.Observes o false (s.left o false) := by
  have hobserves := observes_of_carryOut (s := s) (carryOut_handle_of_not hs h)
  have hleft : (setTask { s with tasks := s.tasks ++ [.create s.settings (.observe o)] }
      s.tasks.length ⟨.observe o, .done false, false, 0⟩) = s.left o false := by
    simp [left, setTask]
  rwa [hleft] at hobserves

/-- Taking a sample in comes to one end only. -/
theorem Observes.unique {o : Observation α} {kept kept' : Bool} {u u' : Controller α}
    (h : s.Observes o kept u) (h' : s.Observes o kept' u') : kept = kept' ∧ u = u' := by
  obtain ⟨s₁, n, hbegin, hreplay, hreturns⟩ := h
  obtain ⟨s₁', n', hbegin', hreplay', hreturns'⟩ := h'
  rw [hbegin] at hbegin'
  obtain rfl := Option.some.inj hbegin'
  obtain rfl := replay_unique hreplay hreturns hreplay' hreturns'
  exact ⟨hreturns.unique hreturns', rfl⟩

/-- Whether a sample is kept, and what comes of it. -/
theorem Observes.spec (hs : s.store.Filed) {o : Observation α} {kept : Bool}
    (h : s.Observes o kept s') : (kept = true ↔ s.store.Knows o) ∧
      s' = (if kept then s.keepSample o else s).left o kept := by
  by_cases hknows : s.store.Knows o
  · obtain ⟨rfl, rfl⟩ := h.unique (observes_kept hs hknows)
    exact ⟨iff_of_true rfl hknows, rfl⟩
  · obtain ⟨rfl, rfl⟩ := h.unique (observes_dropped hs hknows)
    exact ⟨iff_of_false (by simp) hknows, rfl⟩

/-- What taking in one sample does to the controller `s`. -/
structure TakesIn (s : Controller α) (o : Observation α) (kept : Bool) (s' : Controller α) :
    Prop where
  /-- It is kept if its host is registered, or its machine is on a host. -/
  answer : kept = true ↔ s.store.Knows o
  /-- Otherwise nothing changes but that there was a task. -/
  dropped : kept = false → s' = s.left o false
  /-- A woken host is active once it reports a sample, and no other host changes its status. -/
  hosts : ∀ id, s'.store.status? id =
    if (o.ofHost? id).isSome = true ∧ s.store.status? id = some .wokenUp then some .active
    else s.store.status? id
  /-- The records of machines on hosts are as they were but for their histories. -/
  machines : ∀ id v, (s'.store.recordOn id v).map (fun w => (w.status, w.errorCode, w.hostId)) =
    (s.store.recordOn id v).map fun w => (w.status, w.errorCode, w.hostId)
  /-- The unassigned machines are as they were. -/
  unassigned : s'.store.unassigned = s.store.unassigned

theorem Observes.takesIn (hs : s.store.Filed) {o : Observation α} {kept : Bool}
    (h : s.Observes o kept s') : s.TakesIn o kept s' := by
  obtain ⟨hkept, rfl⟩ := h.spec hs
  cases kept with
  | true =>
    refine ⟨hkept, by simp, s.store.status_take o, fun id v => ?_, s.store.unassigned_take o⟩
    have hrecord : ((s.keepSample o).left o true).store.recordOn id v = _ :=
      hs.recordOn_take o id v
    simp only [if_true]
    rw [hrecord, Option.map_map]
    rfl
  | false =>
    refine ⟨hkept, fun _ => rfl, fun id => ?_, fun _ _ => rfl, rfl⟩
    have hunknown : ¬s.store.Knows o := fun h => absurd (hkept.2 h) (by simp)
    have hnot : ¬((o.ofHost? id).isSome = true ∧ s.store.status? id = some .wokenUp) := by
      rintro ⟨hhost, hwoken⟩
      cases o with
      | vm => exact absurd hhost (by simp [Observation.ofHost?])
      | host k sample =>
        obtain ⟨x, hget, -⟩ := Option.map_eq_some_iff.1 hwoken
        have hk : k = id := by
          by_contra hne
          simp [Observation.ofHost?, hne] at hhost
        exact hunknown (by rw [Store.Knows, hk, hget]; rfl)
    rw [if_neg hnot]
    rfl

/-! ## Samples and requests in any order -/

/-- Samples were taken in, and requests rearranged the cluster in between, one step at a time. -/
inductive Feeds (s : Controller α) : List (Observation α) → Controller α → Prop
  | refl : Feeds s [] s
  | handle {l : List (Observation α)} {t u : Controller α} {o : Observation α} {kept : Bool} :
    Feeds s l t → t.Observes o kept u → Feeds s (l ++ [o]) u
  | amend {l : List (Observation α)} {t u : Controller α} {q : StoreRequest α} :
    Feeds s l t → q.Rearranges → t.step (.amend q) = some u → Feeds s l u

/-- From `s` to `s'` every history has kept the last of what it had and what was observed. -/
structure Retains (s s' : Controller α) (l : List (Observation α)) : Prop where
  hosts : ∀ {id h}, s.store.hosts.get? id = some h → ∃ h', s'.store.hosts.get? id = some h' ∧
    h'.history.capacity = h.history.capacity ∧ h'.history.entries =
      lastEntries h.history.capacity (h.history.entries ++ l.filterMap (Observation.ofHost? id))
  /-- A machine may be on another host by now. -/
  machines : ∀ {p v w}, s.store.recordOn p v = some w → ∃ q w', s'.store.recordOn q v = some w' ∧
    w'.history.capacity = w.history.capacity ∧ w'.history.entries =
      lastEntries w.history.capacity (w.history.entries ++ l.filterMap (Observation.ofVm? v))

theorem Feeds.gathers {l : List (Observation α)} (hs : s.store.Filed) (h : s.Feeds l u) :
    u.store.Filed ∧ s.store.Gathers u.store l := by
  induction h with
  | refl => exact ⟨hs, .refl s.store⟩
  | @handle l t u o kept _ hobserves ih =>
    obtain ⟨ht, hgathers⟩ := ih
    obtain ⟨hkept, rfl⟩ := hobserves.spec ht
    cases kept with
    | true => exact ⟨ht.take o, hgathers.trans (Store.gathers_take ht.toPlaced o)⟩
    | false =>
      have hunknown : ¬t.store.Knows o := fun h => absurd (hkept.2 h) (by simp)
      exact ⟨ht, hgathers.trans (Store.gathers_of_not_knows hunknown)⟩
  | @amend l t u q _ hq hstep ih =>
    obtain ⟨ht, hgathers⟩ := ih
    rw [← Option.some.inj hstep]
    have hboth := hgathers.trans (Store.gathers_apply ht hq)
    rw [List.append_nil] at hboth
    exact ⟨ht.rearrange hq, hboth⟩

/-- The store files every machine in one place, under its own id.  While samples come in and the
cluster is rearranged in any order, every history keeps the last of what it had and what was
observed, in the order in which the samples came in.  In whatever state that leads to, a sample can
be taken in, and it does what it should. -/
theorem histories_keep_samples (hs : s.store.Filed) {l : List (Observation α)}
    (h : s.Feeds l u) : s.Retains u l ∧ ∀ o, (∃ kept u', u.Observes o kept u') ∧
      ∀ kept u', u.Observes o kept u' → u.TakesIn o kept u' := by
  obtain ⟨hu, hgathers⟩ := h.gathers hs
  refine ⟨⟨fun hget => ?_, fun hw => ?_⟩, fun o => ⟨?_, fun kept u' => Observes.takesIn hu⟩⟩
  · obtain ⟨h', hget', hgrown⟩ := hgathers.hosts hget
    exact ⟨h', hget', by rw [hgrown, History.capacity_foldl_push],
      by rw [hgrown, History.entries_foldl_push_eq]⟩
  · obtain ⟨q, w', hw', hgrown⟩ := hgathers.machines hw
    exact ⟨q, w', hw', by rw [hgrown, History.capacity_foldl_push],
      by rw [hgrown, History.entries_foldl_push_eq]⟩
  · by_cases hknows : u.store.Knows o
    · exact ⟨true, _, observes_kept hu hknows⟩
    · exact ⟨false, _, observes_dropped hu hknows⟩

/-- A sample of an idle host or machine. -/
def quiet (timestamp : Int) : Sample ℚ := ⟨timestamp, ⟨0, 0, 0, 0⟩⟩

/-- A host with a machine that keeps two samples and has one, and a host that is waking up.  The
record of the machine names no host. -/
def waking : List (Host ℚ) :=
  [{ Host.new "a" ⟨4, 4, 4, 4⟩ 1 with
      vms := SortedMap.empty.insert "v" ((Vm.new "v" ⟨1, 1, 1, 1⟩ 2).observe (quiet 0)) },
    (Host.new "b" ⟨4, 4, 4, 4⟩ 1).withStatus .wokenUp]

theorem distinct_waking : Host.Distinct waking := by
  have hhas : ∀ {h}, h ∈ waking → ∀ {v w}, h.vms.get? v = some w →
      h.id = "a" ∧ v = "v" ∧ w.id = "v" := by
    intro h hh v w hw
    rcases List.mem_cons.1 hh with rfl | hh
    · rw [SortedMap.get?_insert, SortedMap.get?_empty] at hw
      obtain ⟨rfl, hw⟩ := Option.ite_none_right_eq_some.1 hw
      rw [← Option.some.inj hw]
      exact ⟨rfl, rfl, rfl⟩
    · rw [List.mem_singleton.1 hh] at hw
      exact absurd hw (by simp [Host.new, Host.withStatus])
  refine ⟨by decide, fun hh v w hw => ?_, fun hh hk v hv hu => ?_⟩
  · obtain ⟨-, rfl, hid⟩ := hhas hh hw
    exact hid
  · obtain ⟨w, hw⟩ := Option.isSome_iff_exists.1 hv
    obtain ⟨u, hu⟩ := Option.isSome_iff_exists.1 hu
    rw [(hhas hh hw).1, (hhas hk hu).1]

theorem histories_keep_samples_of_waking :
    (∃ t, (start .standard (.ofHosts waking)).Observes (.host "b" (quiet 1)) true t ∧
      t.store.status? "b" = some .active) ∧
    ∃ u, (start .standard (.ofHosts waking)).Feeds
        [.host "b" (quiet 1), .vm "v" (quiet 2), .vm "v" (quiet 3)] u ∧
      ∃ p w, u.store.recordOn p "v" = some w ∧ w.history.entries = [quiet 2, quiet 3] := by
  have hs : (start .standard (.ofHosts waking)).store.Filed := Store.filed_ofHosts distinct_waking
  obtain ⟨-, hsteps⟩ := histories_keep_samples (s := start .standard (.ofHosts waking)) hs .refl
  obtain ⟨⟨kept, t, ht⟩, htakes⟩ := hsteps (.host "b" (quiet 1))
  have hfirst := htakes kept t ht
  have hknown : ((Store.ofHosts waking).hosts.get? "b").isSome = true := by decide +kernel
  obtain rfl : kept = true := hfirst.answer.2 hknown
  have hactive : t.store.status? "b" = some .active := by
    rw [hfirst.hosts]
    decide +kernel
  refine ⟨⟨t, ht, hactive⟩, ?_⟩
  have hfed : (start .standard (.ofHosts waking)).Feeds [.host "b" (quiet 1)] t := .handle .refl ht
  obtain ⟨⟨kept₂, t₂, ht₂⟩, -⟩ := (histories_keep_samples hs hfed).2 (.vm "v" (quiet 2))
  -- the machine changes place between its samples
  have hmoved := (hfed.handle ht₂).amend (q := .moveVm "v" "b") trivial rfl
  obtain ⟨⟨kept₃, u, hu⟩, -⟩ := (histories_keep_samples hs hmoved).2 (.vm "v" (quiet 3))
  have hend := hmoved.handle hu
  have hw : (Store.ofHosts waking).recordOn "a" "v" =
      some ((Vm.new "v" ⟨1, 1, 1, 1⟩ 2).observe (quiet 0)) := by
    rfl
  obtain ⟨p, w, hrecord, -, hentries⟩ := (histories_keep_samples hs hend).1.machines hw
  exact ⟨u, hend, p, w, hrecord, hentries.trans (by decide +kernel)⟩

end Controller

end ClusterControl
