import ClusterControl.Proofs.Controller.Endings
import ClusterControl.Proofs.Controller.Outcomes
import ClusterControl.Proofs.Program.Detection

/-!
# A look at all hosts

While no other operation runs, a look at all hosts reports what it found on one listing, and tries
the anomalies in turn until a plan is handed over.  What was listed may be out of date by then, but
not where a machine is or what it asks for: the attempts before have failed, and left all machines
alone.

* `Controller.Unmoved` says that no plan was handed over, nothing migrated and no machine changed.
* `Controller.Looks.run` says that wherever the moves have led, the task does to the controller what
  its program does to a diary.
* `Detection.Account` is the account of a look, and `Controller.look_accounted` says that every look
  keeps to it.
-/

namespace ClusterControl

variable {α : Type}

/-- A move of one task, of the engine that carries out its plans, of the hosts that either has
asked, of a completion signal or of time; if the store is lossy, it may also lose its backend for
the task. -/
def Move.Attends (lossy : Bool) (t : Nat) : Move α → Prop
  | .fault u _ => lossy = true ∧ u = t
  | m => m.Serves .own t

theorem Move.Serves.attends {m : Move α} {t : Nat} (h : m.Serves .own t) (lossy : Bool) :
    m.Attends lossy t := by
  cases m with
  | fault => exact h.elim
  | _ => exact h

theorem Move.Alone.attends {m : Move α} {t : Nat} (h : m.Alone t) (lossy : Bool) :
    m.Attends lossy t := by
  cases m with
  | run | answer | elapse => exact h
  | _ => exact h.elim

namespace Controller

/-! ## What is on record -/

/-- The attempts to resolve an anomaly that have come to their ends on the way from `s` to `s'`. -/
def attempts (s s' : Controller α) : List Attempt :=
  (s'.events.drop s.events.length).filterMap Event.attempt?

/-- What a task finds at `s'` that has begun at `s`. -/
def diary (s s' : Controller α) (launched : Option (List Attempt)) : Diary α :=
  ⟨s'.store, s'.busy, s.attempts s', launched⟩

/-- From `s` to `s'` no plan was handed over, no host was asked to take a machine on, and the
records of all machines are as they were. -/
structure Unmoved (s s' : Controller α) : Prop where
  plans : s'.own.enforcement.batches = s.own.enforcement.batches
  calls : ∃ calls, s'.calls = s.calls ++ calls ∧ ∀ r ∈ calls, ∀ m, r.call ≠ .migrate m
  machines : ∀ v, s.store.SameOf s'.store v

/-- How things stand at `s'` for a task that has begun at `s`: nothing was moved, or one plan was
handed over. -/
structure Stands (s s' : Controller α) (launched : Option (List Attempt)) : Prop where
  events : s.events <+: s'.events
  before : launched = none → s'.own.enforcement.Over ∧ s.Unmoved s'
  after : launched ≠ none → s'.own.enforcement.batches = s.own.enforcement.batches + 1

variable {lossy : Bool} {s s' u : Controller α} {t : Nat} {launched : Option (List Attempt)}

/-- One more event puts the attempt on record whose end it tells. -/
theorem attempts_event (h : s.events <+: s'.events) (e : Event α) :
    s.attempts (s'.note (.event e)) = s.attempts s' ++ e.attempt?.toList := by
  rw [attempts, attempts, note, List.drop_append_of_le_length h.length_le, List.filterMap_append]
  cases he : e.attempt? <;> simp [he]

/-- Something has changed that is not on record. -/
theorem Stands.same (h : s.Stands s' launched) (hevents : u.events = s'.events)
    (hengine : u.own.enforcement = s'.own.enforcement) (hcalls : u.calls = s'.calls)
    (hmachines : launched = none → ∀ v, s'.store.SameOf u.store v) : s.Stands u launched := by
  refine ⟨hevents ▸ h.events, fun hnone => ?_, fun hlaunched => hengine ▸ h.after hlaunched⟩
  obtain ⟨hover, hunmoved⟩ := h.before hnone
  refine ⟨hengine ▸ hover, by rw [hengine, hunmoved.plans], ?_, fun v => ?_⟩
  · rw [hcalls]
    exact hunmoved.calls
  · exact (hunmoved.machines v).trans (hmachines hnone v)

/-- A host was asked for something, but not to take a machine on before there was a plan. -/
theorem Stands.record (h : s.Stands s' launched) {c : HostCall}
    (hc : launched = none → ∀ m, c ≠ .migrate m) : s.Stands (s'.recordCall c) launched := by
  refine ⟨h.events, fun hnone => ?_, h.after⟩
  obtain ⟨hover, hplans, ⟨calls, hcalls, hothers⟩, hmachines⟩ := h.before hnone
  refine ⟨hover, hplans, ⟨calls ++ [⟨s'.now, s'.activity, s'.phase, c⟩], ?_, ?_⟩, hmachines⟩
  · rw [recordCall, hcalls, List.append_assoc]
  · intro r hr
    rcases List.mem_append.1 hr with hr | hr
    · exact hothers r hr
    · rw [List.mem_singleton.1 hr]
      exact hc hnone

/-- The engine has changed, and started no plan. -/
theorem Stands.engine (h : s.Stands s' launched) {f : Enforcement}
    (hover : s'.own.enforcement.Over → f.Over)
    (hplans : f.batches = s'.own.enforcement.batches) :
    s.Stands (s'.setEnforcement .own f) launched := by
  refine ⟨h.events, fun hnone => ?_, fun hlaunched => hplans.trans (h.after hlaunched)⟩
  obtain ⟨hrest, hunmoved⟩ := h.before hnone
  exact ⟨hover hrest, hplans.trans hunmoved.plans, hunmoved.calls, hunmoved.machines⟩

/-- An event was put on record. -/
theorem Stands.event (h : s.Stands s' launched) (e : Event α) :
    s.Stands (s'.note (.event e)) launched := by
  refine ⟨h.events.trans (List.prefix_append _ _), fun hnone => ?_, h.after⟩
  obtain ⟨hover, hunmoved⟩ := h.before hnone
  exact ⟨hover, hunmoved.plans, hunmoved.calls, hunmoved.machines⟩

/-- A plan is handed over to the engine. -/
theorem Stands.launch (h : s.Stands s' none) (plan : MigrationPlan) :
    s.Stands (s'.setEnforcement .own (s'.own.enforcement.start plan)) (some (s.attempts s')) :=
  ⟨h.events, by simp, fun _ => congrArg (· + 1) (h.before rfl).2.plans⟩

/-! ## The task at work -/

variable {j : Job α} {Q : Diary α → j.Result → Prop}

end Controller

/-- From a diary a program that may have handed over a request to a host or a plan ends with `Q`. -/
def Program.Continues {ρ : Type} (lossy : Bool) (p : Program α ρ) (issued : Bool) (g : Diary α)
    (Q : Diary α → ρ → Prop) : Prop :=
  match p, issued with
  | .call (.host _) next, true => ∀ r, (next r).Recounts lossy g Q
  | .call (.enforce e _) next, true =>
    e = .own ∧ g.launched ≠ none ∧ ∀ r, (next r).Recounts lossy g Q
  | p, issued => issued = false ∧ p.Recounts lossy g Q

theorem Program.continues_of_not_issued {ρ : Type} {lossy : Bool} {p : Program α ρ} {g : Diary α}
    {Q : Diary α → ρ → Prop} : p.Continues lossy false g Q ↔ p.Recounts lossy g Q := by
  unfold Continues
  split
  · rename_i heq
    exact absurd heq (by simp)
  · rename_i heq
    exact absurd heq (by simp)
  · exact and_iff_right rfl

namespace Controller

variable {lossy : Bool} {s s' u : Controller α} {t : Nat} {launched : Option (List Attempt)}
  {j : Job α} {Q : Diary α → j.Result → Prop} {p : Program α j.Result} {issued : Bool} {batch : Nat}

/-- A task that has begun at `s` is at work at `s'`, on its way to `Q`. -/
def Looks (lossy : Bool) (s s' : Controller α) (t : Nat) (j : Job α) (Q : Diary α → j.Result → Prop)
    (launched : Option (List Attempt)) : Prop :=
  s.Stands s' launched ∧ ∃ p issued batch, s'.tasks[t]? = some ⟨j, p, issued, batch⟩ ∧
    p.Continues lossy issued (s.diary s' launched) Q

/-- The task goes on with an answer. -/
theorem Looks.proceed {p' : Program α j.Result} (hstands : s.Stands u launched)
    (hget : u.tasks[t]? = some ⟨j, p', issued, batch⟩)
    (h : p.Recounts lossy (s.diary u launched) Q) :
    Looks lossy s (u.proceed t ⟨j, p', issued, batch⟩ p) t j Q launched :=
  ⟨hstands.same rfl rfl rfl fun _ v => .refl _ v, p, false, batch,
    List.getElem?_set_self (List.getElem?_eq_some_iff.1 hget).1,
    Program.continues_of_not_issued.2 h⟩

/-- Something has changed that the task does not notice. -/
theorem Looks.same (h : Looks lossy s s' t j Q launched) (hstands : s.Stands u launched)
    (htasks : u.tasks = s'.tasks) (hdiary : s.diary u launched = s.diary s' launched) :
    Looks lossy s u t j Q launched := by
  obtain ⟨-, p, issued, batch, hget, hgoes⟩ := h
  exact ⟨hstands, p, issued, batch, by rwa [htasks], by rwa [hdiary]⟩

variable [Quantity α]

/-- The controller answers a request as the diary does. -/
theorem perform_diary {q : Request α} {r : q.Answer} (hs : s'.perform q = some (r, u))
    (hstands : s.Stands s' launched) {R : Diary α → q.Answer → Prop}
    (h : (s.diary s' launched).Hears lossy q R) :
    s.Stands u launched ∧ R (s.diary u launched) r := by
  cases q with
  | host | enforce => cases hs
  | store q =>
    obtain ⟨rfl, rfl⟩ := Prod.mk.inj (Option.some.inj hs)
    exact ⟨hstands.same rfl rfl rfl h.1, h.2.1⟩
  | acquire a =>
    have hsame : ∀ {v : Controller α}, v.events = s'.events → v.own = s'.own → v.calls = s'.calls →
        v.store = s'.store → s.Stands v launched := by
      intro v hevents hown hcalls hstore
      refine hstands.same hevents (by rw [hown]) hcalls fun _ w => ?_
      rw [hstore]
      exact .refl _ w
    cases hbusy : s'.busy with
    | true =>
      simp only [perform, acquire, hbusy, if_true, Option.some.injEq, Prod.mk.injEq] at hs
      obtain ⟨rfl, rfl⟩ := hs
      simp only [Diary.Hears, diary, hbusy, Bool.not_true] at h
      exact ⟨hstands, by rwa [diary, hbusy]⟩
    | false =>
      simp only [perform, acquire, hbusy, Bool.false_eq_true, if_false, Option.some.injEq,
        Prod.mk.injEq] at hs
      obtain ⟨rfl, rfl⟩ := hs
      simp only [Diary.Hears, diary, hbusy, Bool.not_false] at h
      exact ⟨hsame rfl rfl rfl rfl, h⟩
  | note n =>
    obtain ⟨rfl, rfl⟩ := Prod.mk.inj (Option.some.inj hs)
    cases n with
    | event e =>
      refine ⟨hstands.event e, ?_⟩
      rw [diary, attempts_event hstands.events]
      exact h
    | count | health =>
      have hnone : (s.diary s' launched).attempts ++ [] = (s.diary s' launched).attempts :=
        List.append_nil _
      simp only [Diary.Hears, Note.attempt?, Option.toList_none, hnone] at h
      exact ⟨hstands.same rfl rfl rfl fun _ v => .refl _ v, h⟩
  | setPhase e phase =>
    obtain ⟨rfl, rfl⟩ := Prod.mk.inj (Option.some.inj hs)
    cases e <;> exact ⟨hstands.same rfl rfl rfl fun _ v => .refl _ v, h⟩
  | phase | inFlight | place =>
    obtain ⟨rfl, rfl⟩ := Prod.mk.inj (Option.some.inj hs)
    exact ⟨hstands.same rfl rfl rfl fun _ v => .refl _ v, h _⟩
  | _ =>
    obtain ⟨rfl, rfl⟩ := Prod.mk.inj (Option.some.inj hs)
    exact ⟨hstands.same rfl rfl rfl fun _ v => .refl _ v, h⟩

omit [Quantity α] in
/-- What programs ask of hosts is not a migration. -/
theorem call_ne_migrate (q : HostRequest α) (m : Migration) : q.call ≠ .migrate m := by
  cases q <;> simp [HostRequest.call]

/-- What the task does next keeps it on its way, and it hands over one plan at most. -/
theorem Looks.runTask (hstands : s.Stands s' launched)
    (hget : s'.tasks[t]? = some ⟨j, p, issued, batch⟩)
    (h : p.Continues lossy issued (s.diary s' launched) Q)
    (hs : s'.runTask t ⟨j, p, issued, batch⟩ = some u) :
    ∃ launched', Looks lossy s u t j Q launched' ∧
      (launched' = launched ∨ launched = none ∧ launched' = some (s.attempts s')) := by
  have hlt : t < s'.tasks.length := (List.getElem?_eq_some_iff.1 hget).1
  cases p with
  | done r => exact absurd hs (by simp [Controller.runTask])
  | call q next =>
    cases q with
    | host q =>
      simp only [Controller.runTask] at hs
      split at hs
      · exact absurd hs (by simp)
      · rename_i hissued
        obtain rfl : issued = false := by simpa using hissued
        rw [Program.continues_of_not_issued, Program.recounts_call] at h
        rw [← Option.some.inj hs]
        have htask : s.Stands (s'.setTask t ⟨j, .call (.host q) next, true, batch⟩) launched :=
          hstands.same rfl rfl rfl fun _ v => .refl _ v
        exact ⟨launched, ⟨htask.record fun _ => call_ne_migrate q, _, _, _,
          List.getElem?_set_self hlt, h⟩, .inl rfl⟩
    | enforce e plan =>
      simp only [Controller.runTask] at hs
      split at hs
      · rename_i hissued
        obtain rfl : issued = true := hissued
        obtain ⟨r, -, rfl⟩ := Option.map_eq_some_iff.1 hs
        exact ⟨launched, .proceed hstands hget (h.2.2 r), .inl rfl⟩
      · rename_i hissued
        obtain rfl : issued = false := by simpa using hissued
        rw [Program.continues_of_not_issued, Program.recounts_call] at h
        obtain ⟨rfl, hbefore, hnext⟩ := h
        obtain rfl : launched = none := hbefore
        rw [← Option.some.inj hs]
        exact ⟨some (s.attempts s'), ⟨(hstands.launch plan).same rfl rfl rfl fun _ v => .refl _ v,
          _, _, _, List.getElem?_set_self hlt, rfl, Option.some_ne_none _, hnext⟩, .inr ⟨rfl, rfl⟩⟩
    | _ =>
      simp only [Controller.runTask] at hs
      obtain ⟨⟨r, s₁⟩, hperform, rfl⟩ := Option.map_eq_some_iff.1 hs
      obtain ⟨hnew, hnext⟩ := perform_diary hperform hstands (Program.recounts_call.1 h.2)
      refine ⟨launched, .proceed hnew ?_ hnext, .inl rfl⟩
      rwa [(perform_spec hperform).1]

omit [Quantity α] in
/-- The engine acts on its own, and the task does not notice. -/
theorem Looks.engine (h : Looks lossy s s' t j Q launched) {f : Enforcement}
    (hover : s'.own.enforcement.Over → f.Over) (hwork : f.work = s'.own.enforcement.work) :
    Looks lossy s (s'.setEnforcement .own f) t j Q launched :=
  h.same (h.1.engine hover (congrArg Prod.snd hwork)) rfl rfl

omit [Quantity α] in
theorem Looks.poll (h : Looks lossy s s' t j Q launched) (i : Nat) (order : List Branch) :
    Looks lossy s (s'.pollWatch .own i order) t j Q launched := by
  have hover : s'.own.enforcement.Over → s'.own.enforcement.poll s'.now i order =
      Enforcement.quiet s'.own.enforcement := fun hover => hover.poll s'.now i order
  have hwork := Enforcement.work_poll s'.own.enforcement s'.now i order
  unfold pollWatch
  dsimp only
  rw [show s'.enforcement .own = s'.own.enforcement from rfl]
  generalize s'.own.enforcement.poll s'.now i order = p at hover hwork
  have hengine := h.engine (f := p.engine) (fun hrest => by rwa [hover hrest]) hwork
  split
  · rename_i c hcall
    -- an engine that is at rest asks for nothing, so there is a plan
    refine hengine.same (hengine.1.record fun hnone => ?_) rfl rfl
    rw [hover (h.1.before hnone).1] at hcall
    exact absurd hcall (by simp [Enforcement.quiet])
  · exact hengine

/-- Every move keeps the task on its way, and it hands over one plan at most. -/
theorem Looks.step (h : Looks lossy s s' t j Q launched) {m : Move α} (hm : m.Attends lossy t)
    (hs : s'.step m = some u) : ∃ launched', Looks lossy s u t j Q launched' ∧
      (launched' = launched ∨ launched = none ∧ launched' = some (s.attempts s')) := by
  cases m with
  | run v =>
    obtain rfl : v = t := hm
    obtain ⟨hstands, p, issued, batch, hget, hgoes⟩ := h
    obtain ⟨task', hget', hrun⟩ := Option.bind_eq_some_iff.1 hs
    rw [hget] at hget'
    obtain rfl := Option.some.inj hget'
    exact Looks.runTask hstands hget hgoes hrun
  | answer v a =>
    obtain rfl : v = t := hm
    obtain ⟨hstands, p, issued, batch, hget, hgoes⟩ := h
    obtain ⟨task', hget', hanswer⟩ := Option.bind_eq_some_iff.1 hs
    rw [hget] at hget'
    obtain rfl := Option.some.inj hget'
    unfold answerTask at hanswer
    split at hanswer
    · rename_i q next hprogram
      split at hanswer
      · rename_i hissued
        rw [show p = .call (.host q) next from hprogram, show issued = true from hissued] at hgoes
        obtain ⟨r, -, rfl⟩ := Option.map_eq_some_iff.1 hanswer
        exact ⟨launched, .proceed hstands hget (hgoes r), .inl rfl⟩
      · exact absurd hanswer (by simp)
    · exact absurd hanswer (by simp)
  | fault v reason =>
    obtain ⟨hlossy, rfl⟩ := hm
    obtain ⟨hstands, p, issued, batch, hget, hgoes⟩ := h
    obtain ⟨task', hget', hfault⟩ := Option.bind_eq_some_iff.1 hs
    rw [hget] at hget'
    obtain rfl := Option.some.inj hget'
    unfold faultTask at hfault
    split at hfault
    · rename_i q next hprogram
      rw [show p = .call (.store q) next from hprogram] at hgoes
      rw [← Option.some.inj hfault]
      exact ⟨launched, .proceed hstands hget
        ((Program.recounts_call.1 hgoes.2).2.2 hlossy reason), .inl rfl⟩
    · exact absurd hfault (by simp)
  | poll e i order =>
    obtain rfl : e = .own := hm
    rw [← Option.some.inj hs]
    exact ⟨launched, h.poll i order, .inl rfl⟩
  | answerMigrate e i r =>
    obtain rfl : e = .own := hm
    obtain ⟨f, hf, rfl⟩ := Option.map_eq_some_iff.1 hs
    refine ⟨launched, h.engine (fun hover => ?_) (Enforcement.work_answerMigrate hf), .inl rfl⟩
    rw [show s'.enforcement .own = s'.own.enforcement from rfl, hover.answerMigrate i r] at hf
    exact absurd hf (by simp)
  | answerSuspend e i r =>
    obtain rfl : e = .own := hm
    obtain ⟨f, hf, rfl⟩ := Option.map_eq_some_iff.1 hs
    refine ⟨launched, h.engine (fun hover => ?_) (Enforcement.work_answerSuspend hf), .inl rfl⟩
    rw [show s'.enforcement .own = s'.own.enforcement from rfl, hover.answerSuspend i r] at hf
    exact absurd hf (by simp)
  | signal e vm success =>
    obtain rfl : e = .own := hm
    rw [← Option.some.inj hs]
    exact ⟨launched, h.engine (fun hover => hover.signal vm success)
      (Enforcement.work_signal _ vm success), .inl rfl⟩
  | elapse ms =>
    simp only [Controller.step] at hs
    split at hs
    · rw [← Option.some.inj hs]
      exact ⟨launched, h.same (h.1.same rfl rfl rfl fun _ v => .refl _ v) rfl rfl, .inl rfl⟩
    · exact absurd hs (by simp)
  | _ => exact hm.elim

/-- So do the moves of a whole run.  When the plan is handed over, nothing has moved yet. -/
theorem Looks.run (h : Looks lossy s s' t j Q launched)
    (hs : Runs (fun _ m => m.Attends lossy t) s' u) :
    ∃ launched', Looks lossy s u t j Q launched' ∧ (launched' = launched ∨
      launched = none ∧ ∃ v, Runs (fun _ m => m.Attends lossy t) s' v ∧
        Runs (fun _ m => m.Attends lossy t) v u ∧ s.Unmoved v ∧
          launched' = some (s.attempts v)) := by
  induction hs with
  | refl => exact ⟨launched, h, .inl rfl⟩
  | @step v u m hrun hm moved ih =>
    obtain ⟨launched', h', hsame⟩ := ih
    obtain ⟨launched'', h'', hnext⟩ := h'.step hm moved
    have hmove : Runs (fun _ m => m.Attends lossy t) v u := .step m .refl hm moved
    refine ⟨launched'', h'', ?_⟩
    obtain rfl | ⟨hnone, w, hsw, hwv, hunmoved, hw⟩ := hsame
    · obtain rfl | ⟨hnone, hv⟩ := hnext
      · exact .inl rfl
      · exact .inr ⟨hnone, v, hrun, hmove, (h'.1.before hnone).2, hv⟩
    · obtain rfl | ⟨hnone', -⟩ := hnext
      · exact .inr ⟨hnone, w, hsw, hwv.trans hmove, hunmoved, hw⟩
      · rw [hw] at hnone'
        exact absurd hnone' (by simp)

theorem looks_of_begin (hbegin : s.begin j = some s') (hover : s.own.enforcement.Over)
    (h : (j.program s.settings).Recounts lossy ⟨s.store, s.busy, [], none⟩ Q) :
    Looks lossy s s' s.tasks.length j Q none := by
  rw [begin_eq hbegin]
  have hnone : s.attempts { s with tasks := s.tasks ++ [.create s.settings j] } = [] := by
    simp [attempts]
  refine ⟨⟨List.prefix_rfl, fun _ => ⟨hover, rfl, ⟨[], by simp⟩, fun v => .refl _ v⟩, by simp⟩,
    _, _, _, List.getElem?_concat_length, Program.continues_of_not_issued.2 ?_⟩
  rw [diary, hnone]
  exact h

omit [Quantity α] in
/-- A task that has returned has come to `Q`. -/
theorem Looks.returned (h : Looks lossy s s' t j Q launched) {r : j.Result}
    (hreturns : s'.Returns t j r) : Q (s.diary s' launched) r := by
  obtain ⟨-, p, issued, batch, hget, hgoes⟩ := h
  obtain ⟨issued', batch', hget'⟩ := hreturns
  rw [hget] at hget'
  obtain ⟨rfl, rfl, -⟩ : p = .done r ∧ issued = issued' ∧ batch = batch' := by simpa using hget'
  exact Program.recounts_done.1 hgoes.2

/-- From wherever it is, the task can go on to its end. -/
theorem Looks.exists_returned (h : Looks lossy s s' t j Q launched)
    (halive : (s'.enforcement .own).Alive) :
    ∃ u r, Runs (fun _ m => m.Attends lossy t) s' u ∧ u.Returns t j r := by
  obtain ⟨hstands, p, issued, batch, hget, hgoes⟩ := h
  -- the induction is on what the program has still to ask for
  induction p generalizing s' launched issued batch with
  | done r => exact ⟨s', r, .refl, issued, batch, hget⟩
  | call q next ih =>
    have hanswered : ∃ r batch' u, Runs (fun _ m => m.Attends lossy t) s' u ∧
        u.tasks[t]? = some ⟨j, next r, false, batch'⟩ := by
      by_cases henforce : ∃ e plan, q = .enforce e plan
      · obtain ⟨e, plan, rfl⟩ := henforce
        obtain rfl : e = .own := by
          cases issued with
          | true => exact hgoes.1
          | false => exact (Program.recounts_call.1 hgoes.2).1
        obtain ⟨r, batch', u, hrun, hgot⟩ := exists_reported halive hget
        exact ⟨r, batch', u, hrun.mono fun _ _ hm => hm.attends lossy, hgot⟩
      · obtain ⟨r, u, hrun, hgot⟩ := exists_answered hget
          fun e plan heq => henforce ⟨e, plan, heq⟩
        exact ⟨r, batch, u, hrun.mono fun _ _ hm => hm.attends lossy, hgot⟩
    obtain ⟨r, batch', u, hrun, hgot⟩ := hanswered
    obtain ⟨launched', ⟨hstands', p', issued', batch'', hget', hgoes'⟩, -⟩ :=
      Looks.run ⟨hstands, _, issued, batch, hget, hgoes⟩ hrun
    rw [hgot] at hget'
    obtain ⟨rfl, rfl, rfl⟩ : next r = p' ∧ false = issued' ∧ batch' = batch'' := by
      simpa using hget'
    obtain ⟨v, x, hrest, hreturns⟩ := ih r (alive_run halive hrun) hstands' _ _ hgot hgoes'
    exact ⟨v, x, hrun.trans hrest, hreturns⟩

end Controller

/-! ## A whole look -/

variable [Quantity α]

/-- A look that was asked for at `s` and began at `s₁` has returned `r` at `s₂`.  If the store is
lossy, it may have found nothing. -/
structure Detection.Account (lossy : Bool) (s s₁ s₂ : Controller α)
    (r : List (HostId × LoadState)) : Prop where
  /-- It returns the active hosts that are overloaded on the listing, and then those with machines
  that are underloaded. -/
  found : r = found s.settings s.store ∨ lossy = true ∧ r = []
  /-- It lists both by their ids. -/
  sorted : (overloaded s.settings s.store).Pairwise (· < ·) ∧
    (underloaded s.settings s.store).Pairwise (· < ·)
  /-- Anomalies are tried in this order. -/
  tried : (s.attempts s₂).map Attempt.anomaly <+: r
  /-- All are, unless one is resolved. -/
  exhausted : (∀ a ∈ s.attempts s₂, a.resolved = false) → (s.attempts s₂).map Attempt.anomaly = r
  /-- An attempt that resolves an anomaly is the last one. -/
  failed : ∀ a ∈ (s.attempts s₂).dropLast, a.resolved = false
  /-- When an underloaded host is tried, all overloaded ones have been. -/
  overloadedFirst : ∀ before a after, s.attempts s₂ = before ++ a :: after →
    a.state = .underloaded → ∀ id, (id, .overloaded) ∈ r →
      (id, .overloaded) ∈ before.map Attempt.anomaly
  /-- Nothing is moved but by the last attempt: when its plan was handed over at `v`, all others had
  failed, and nothing was moved before. -/
  moved : ∀ u, Controller.Runs (fun _ m => m.Attends lossy s.tasks.length) s₁ u →
    Controller.Runs (fun _ m => m.Attends lossy s.tasks.length) u s₂ → s.Unmoved u ∨
      u.own.enforcement.batches = s.own.enforcement.batches + 1 ∧
        ∃ v a, Controller.Runs (fun _ m => m.Attends lossy s.tasks.length) s₁ v ∧
          Controller.Runs (fun _ m => m.Attends lossy s.tasks.length) v u ∧ s.Unmoved v ∧
            s.attempts s₂ = s.attempts v ++ [a] ∧ a.resolved = true

/-- Where all that was found overloaded stands first, it was tried before anything underloaded. -/
theorem Detection.tried_before {hosts rest : List HostId} {before after : List Attempt}
    {a : Attempt} (hstarts : (before ++ a :: after).map Attempt.anomaly <+:
      hosts.map (·, LoadState.overloaded) ++ rest.map (·, LoadState.underloaded))
    (ha : a.state = .underloaded) {id : HostId}
    (hid : (id, LoadState.overloaded) ∈
      hosts.map (·, LoadState.overloaded) ++ rest.map (·, LoadState.underloaded)) :
    (id, .overloaded) ∈ before.map Attempt.anomaly := by
  have hother : a.anomaly ∉ hosts.map (·, LoadState.overloaded) := by
    intro hmem
    obtain ⟨_, -, heq⟩ := List.mem_map.1 hmem
    exact absurd ((congrArg Prod.snd heq).trans ha) (by simp)
  have hid : (id, LoadState.overloaded) ∈ hosts.map (·, LoadState.overloaded) := by simpa using hid
  have hstart : before.map Attempt.anomaly ++ [a.anomaly] <+:
      hosts.map (·, LoadState.overloaded) ++ rest.map (·, LoadState.underloaded) := by
    refine List.IsPrefix.trans ⟨after.map Attempt.anomaly, ?_⟩ hstarts
    rw [List.map_append, List.map_cons, List.append_assoc, List.singleton_append]
  -- the overloaded hosts and the attempts up to this one both stand first in what was found
  rcases List.prefix_or_prefix_of_prefix (List.prefix_append _ _) hstart with h | h
  · rcases List.prefix_concat_iff.1 h with h | h
    · exact absurd (h ▸ List.mem_concat_self) hother
    · exact h.subset hid
  · exact absurd (h.subset List.mem_concat_self) hother

namespace Controller

/-- While no other operation runs, a look at all hosts can always come to its end, and then it has
kept to its account: it returns what it found when it began, it tries the anomalies in this order
until one is resolved, and all attempts before that have left every machine alone. -/
theorem look_accounted (lossy : Bool) {s s₁ : Controller α} (hkeyed : s.store.Keyed)
    (hopen : s.busy = false) (hover : s.own.enforcement.Over) (hbegin : s.begin .detect = some s₁) :
    (∀ s₂, Runs (fun _ m => m.Attends lossy s.tasks.length) s₁ s₂ →
      ∃ s₃ r, Runs (fun _ m => m.Attends lossy s.tasks.length) s₂ s₃ ∧
        s₃.Returns s.tasks.length .detect r) ∧
    ∀ s₂ r, Runs (fun _ m => m.Attends lossy s.tasks.length) s₁ s₂ →
      s₂.Returns s.tasks.length .detect r → Detection.Account lossy s s₁ s₂ r := by
  have hcycle : (Detection.cycle s.settings).Recounts lossy ⟨s.store, s.busy, [], none⟩ _ :=
    Detection.recounts_cycle s.settings hopen rfl
  have hlooks := looks_of_begin hbegin hover hcycle
  refine ⟨fun s₂ hrun => ?_, fun s₂ r hrun hreturns => ?_⟩
  · have halive : (s₁.enforcement .own).Alive := by
      rw [begin_eq hbegin]
      exact hover.alive
    obtain ⟨launched, hlooks₂, -⟩ := hlooks.run hrun
    exact hlooks₂.exists_returned (alive_run halive hrun)
  · obtain ⟨launched, hlooks₂, -⟩ := hlooks.run hrun
    obtain ⟨l, hl, hr, htries⟩ := hlooks₂.returned hreturns
    have hfound : r = Detection.found s.settings s.store ∨ lossy = true ∧ r = [] := by
      rw [hr, ← Detection.map_found_anomalies]
      exact hl.imp (congrArg _) fun ⟨hlossy, hnone⟩ => ⟨hlossy, by rw [hnone, List.map_nil]⟩
    refine ⟨hfound, ⟨Detection.sorted_overloaded _ hkeyed, Detection.sorted_underloaded _ hkeyed⟩,
      hr ▸ htries.tried, fun h => hr ▸ htries.all_tried h, htries.failed, ?_, ?_⟩
    · intro before a after hattempts ha id hid
      have hstarts := hr ▸ htries.tried
      rw [show (s.diary s₂ launched).attempts = _ from hattempts] at hstarts
      obtain rfl | ⟨-, rfl⟩ := hfound
      · exact Detection.tried_before hstarts ha hid
      · exact absurd hid List.not_mem_nil
    · intro u hru hrest
      obtain ⟨launched', hlooks', hsame⟩ := hlooks.run hru
      obtain rfl | ⟨-, v, hrv, hvu, hunmoved, rfl⟩ := hsame
      · exact .inl (hlooks'.1.before rfl).2
      -- a plan that was handed over by then is the one of the last attempt
      obtain ⟨launched'', hlooks'', hsame⟩ := hlooks'.run hrest
      obtain rfl | ⟨hnone, -⟩ := hsame
      · obtain ⟨l, -, -, htries⟩ := hlooks''.returned hreturns
        obtain ⟨a, hlast, hresolved⟩ := htries.last rfl
        exact .inr ⟨hlooks'.1.after (by simp), v, a, hrv, hvu, hunmoved, hlast, hresolved⟩
      · exact absurd hnone (by simp)

/-- The passive host wakes up and takes the machine of the busy host on. -/
def busyResolved : List (Move ℚ) :=
  let woken : List (Move ℚ) := List.replicate 13 (.run 0) ++ [.answer 0 (.done (.ok ()))]
  let acts : List (Move ℚ) :=
    [.poll .own 0 [], .poll .own 0 Branch.all, .answerMigrate .own 0 (.ok .completed),
      .poll .own 0 Branch.all, .poll .own 0 Branch.all]
  woken ++ List.replicate 4 (.run 0) ++ acts ++ List.replicate 10 (.run 0)

theorem attends_busyResolved : ∀ m ∈ busyResolved, m.Attends false 0 := by
  simp [busyResolved, Move.Attends, Move.Serves]

/-- What a look that has come to its end returns. -/
def looked : Task ℚ → Option (List (HostId × LoadState))
  | ⟨.detect, .done r, _, _⟩ => some r
  | _ => none

theorem returns_of_looked {s : Controller ℚ} {t : Nat} {task : Task ℚ}
    (hget : s.tasks[t]? = some task) {r : List (HostId × LoadState)} (h : looked task = some r) :
    s.Returns t .detect r := by
  unfold looked at h
  split at h
  · cases h
    exact ⟨_, _, hget⟩
  · exact absurd h (by simp)

/-- What a look returns after some moves, and what it has tried by then. -/
def lookedUp (s : Controller ℚ) (moves : List (Move ℚ)) :
    Option (List (HostId × LoadState) × List Attempt) :=
  (s.begin .detect).bind fun s₁ => (s₁.replay moves).bind fun s₂ =>
    (s₂.tasks[0]?.bind looked).map fun r => (r, s.attempts s₂)

theorem look_accounted_of_crowded : ∃ s₁ s₂ r, (start .standard crowded).begin .detect = some s₁ ∧
    Runs (fun _ m => m.Attends false 0) s₁ s₂ ∧ s₂.Returns 0 .detect r ∧
      r = [("b", .overloaded), ("a", .underloaded)] ∧
        (start .standard crowded).attempts s₂ = [⟨"b", .overloaded, true⟩] ∧
          Detection.Account false (start .standard crowded) s₁ s₂ r := by
  have hend : (start .standard crowded).lookedUp busyResolved =
      some ([("b", .overloaded), ("a", .underloaded)], [⟨"b", .overloaded, true⟩]) := by
    cbv
  obtain ⟨s₁, hbegin, hend⟩ := Option.bind_eq_some_iff.1 hend
  obtain ⟨s₂, hreplay, hend⟩ := Option.bind_eq_some_iff.1 hend
  obtain ⟨r, hread, hend⟩ := Option.map_eq_some_iff.1 hend
  obtain ⟨hr, hattempts⟩ := Prod.mk.inj hend
  obtain ⟨task, hget, hlooked⟩ := Option.bind_eq_some_iff.1 hread
  have hrun : Runs (fun _ m => m.Attends false 0) s₁ s₂ :=
    runs_replay (fun _ => attends_busyResolved) hreplay
  have hreturns := returns_of_looked hget hlooked
  have hrest : (start .standard crowded).own.enforcement.Over := Enforcement.over_idle _
  have haccount := look_accounted false (s := start .standard crowded) consistent_crowded.keyed rfl
    hrest hbegin
  exact ⟨s₁, s₂, r, hbegin, hrun, hreturns, hr, hattempts, haccount.2 s₂ r hrun hreturns⟩

end Controller

end ClusterControl
