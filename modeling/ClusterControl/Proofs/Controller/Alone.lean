import ClusterControl.Proofs.Controller.Guarded
import ClusterControl.Proofs.Controller.Tasks
import ClusterControl.Proofs.Program.Alone

/-!
# A task that runs alone

When the only moves are those of one task, of the hosts that it asks, and of time, the task does to
the controller what its program does to the scene.

* `Controller.Leads.run` says that wherever such moves have led, the task is still on its way to
  what its program leads to.
* `Controller.Leads.exists_finished` says that it can get there from wherever it is, and
  `Controller.exists_finished_of_ends` says so of every program that comes to an end.
-/

namespace ClusterControl

variable {α : Type}

/-- A move of one task, of a host that the task has asked, or of time. -/
def Move.Alone (t : Nat) : Move α → Prop
  | .run u => u = t
  | .answer u _ => u = t
  | .elapse _ => True
  | _ => False

/-- Every request to a host has an answer. -/
theorem HostAnswer.exists_to? (q : HostRequest α) :
    ∃ (a : HostAnswer) (r : _), a.to? q = some r := by
  cases q with
  | start => exact ⟨.started (.ok []), _, rfl⟩
  | control | powerDown | wakeUp => exact ⟨.done (.ok ()), _, rfl⟩

variable [Quantity α]

/-- From a scene a task ends with `Q`, whatever the hosts answer.  A request that it has handed over
is on record already. -/
def Task.Leads (c : Settings α) (task : Task α) (g : Scene α)
    (Q : Scene α → (j : Job α) → j.Result → Prop) : Prop :=
  match task.program, task.issued with
  | .call (.host _) next, true => ∀ r, (next r).Leads c g fun g' r => Q g' task.job r
  | p, _ => p.Leads c g fun g' r => Q g' task.job r

/-- A task that has handed nothing over ends with what its program leads to. -/
theorem Task.leads_of_not_issued {c : Settings α} {task : Task α} {g : Scene α}
    {Q : Scene α → (j : Job α) → j.Result → Prop} (h : task.issued = false) :
    task.Leads c g Q ↔ task.program.Leads c g fun g' r => Q g' task.job r := by
  rw [Task.Leads, h]
  split
  · rename_i heq
    exact absurd heq (by simp)
  · exact Iff.rfl

namespace Controller

/-- What the controller is to a task that runs alone. -/
def scene (s : Controller α) : Scene α :=
  ⟨s.store, s.cursor, s.submissions, s.busy, s.calls.map CallRecord.call⟩

/-- A task is on its way to `Q`. -/
def Leads (s : Controller α) (t : Nat) (Q : Scene α → (j : Job α) → j.Result → Prop) : Prop :=
  ∃ task, s.tasks[t]? = some task ∧ task.Leads s.settings s.scene Q

variable {s s' : Controller α} {t : Nat} {Q : Scene α → (j : Job α) → j.Result → Prop}

/-- The controller answers a request as the scene does. -/
theorem perform_scene {q : Request α} {r : q.Answer} (hs : s.perform q = some (r, s'))
    {R : Scene α → q.Answer → Prop} (h : s.scene.Asks s.settings q R) :
    s'.settings = s.settings ∧ R s'.scene r := by
  cases q with
  | host | enforce => cases hs
  | acquire a =>
    simp only [perform, acquire] at hs
    cases hbusy : s.busy with
    | true =>
      have hscene : { s.scene with busy := true } = s.scene := by rw [scene, hbusy]
      have hanswer : (!s.scene.busy) = false := by rw [scene, hbusy, Bool.not_true]
      simp only [Scene.Asks, hscene, hanswer] at h
      simp only [hbusy, if_true, Option.some.injEq, Prod.mk.injEq] at hs
      obtain ⟨rfl, rfl⟩ := hs
      exact ⟨rfl, h⟩
    | false =>
      have hanswer : (!s.scene.busy) = true := by rw [scene, hbusy, Bool.not_false]
      simp only [Scene.Asks, hanswer] at h
      simp only [hbusy, Bool.false_eq_true, if_false, Option.some.injEq, Prod.mk.injEq] at hs
      obtain ⟨rfl, rfl⟩ := hs
      exact ⟨rfl, h⟩
  | phase | inFlight =>
    obtain ⟨rfl, rfl⟩ := Prod.mk.inj (Option.some.inj hs)
    exact ⟨rfl, h _⟩
  | setPhase e p =>
    obtain ⟨rfl, rfl⟩ := Prod.mk.inj (Option.some.inj hs)
    cases e <;> exact ⟨rfl, h⟩
  | note n =>
    obtain ⟨rfl, rfl⟩ := Prod.mk.inj (Option.some.inj hs)
    cases n <;> exact ⟨rfl, h⟩
  | _ =>
    obtain ⟨rfl, rfl⟩ := Prod.mk.inj (Option.some.inj hs)
    exact ⟨rfl, h⟩

/-- The task goes on with an answer. -/
theorem Leads.proceed {task : Task α} {p : Program α task.job.Result} (hlt : t < s.tasks.length)
    (h : p.Leads s.settings s.scene fun g r => Q g task.job r) : (s.proceed t task p).Leads t Q :=
  ⟨{ task with program := p, issued := false }, List.getElem?_set_self hlt,
    (Task.leads_of_not_issued rfl).2 h⟩

/-- Handing a request over puts it on record. -/
theorem Leads.issue {task : Task α} {q : HostRequest α}
    {next : Except ControlError q.Answer → Program α task.job.Result} (hlt : t < s.tasks.length)
    (hprogram : task.program = .call (.host q) next)
    (h : task.program.Leads s.settings s.scene fun g r => Q g task.job r) :
    ((s.setTask t { task with issued := true }).recordCall q.call).Leads t Q := by
  refine ⟨{ task with issued := true }, List.getElem?_set_self hlt, ?_⟩
  have hscene : ((s.setTask t { task with issued := true }).recordCall q.call).scene =
      { s.scene with calls := s.scene.calls ++ [q.call] } := by
    simp only [scene, recordCall, setTask, List.map_append, List.map_cons, List.map_nil]
  rw [hscene]
  simp only [Task.Leads, hprogram]
  rw [hprogram, Program.leads_call] at h
  exact h

/-- What the task does next keeps it on its way. -/
theorem Leads.runTask {task : Task α} (hget : s.tasks[t]? = some task)
    (h : task.Leads s.settings s.scene Q) (hs : s.runTask t task = some s') : s'.Leads t Q := by
  have hlt : t < s.tasks.length := (List.getElem?_eq_some_iff.1 hget).1
  cases hprogram : task.program with
  | done r =>
    simp only [Controller.runTask, hprogram] at hs
    exact absurd hs (by simp)
  | call q next =>
    cases q with
    | host q =>
      simp only [Controller.runTask, hprogram] at hs
      split at hs
      · exact absurd hs (by simp)
      · rename_i hissued
        rw [Bool.not_eq_true] at hissued
        have hleads := Leads.issue hlt hprogram ((Task.leads_of_not_issued hissued).1 h)
        simp only [hprogram] at hleads
        rwa [← Option.some.inj hs]
    | enforce e plan =>
      simp only [Task.Leads, hprogram, Program.leads_call] at h
      exact h.elim
    | _ =>
      simp only [Controller.runTask, hprogram] at hs
      simp only [Task.Leads, hprogram, Program.leads_call] at h
      obtain ⟨⟨r, s₁⟩, hperform, rfl⟩ := Option.map_eq_some_iff.1 hs
      obtain ⟨hsettings, hnext⟩ := perform_scene hperform h
      refine .proceed ?_ (by rwa [hsettings])
      rwa [(perform_spec hperform).1]

/-- A move of the task, of its hosts or of time keeps the task on its way. -/
theorem Leads.step (h : s.Leads t Q) {m : Move α} (hm : m.Alone t) (hs : s.step m = some s') :
    s'.Leads t Q := by
  obtain ⟨task, hget, hleads⟩ := h
  cases m with
  | run u =>
    obtain rfl : u = t := hm
    obtain ⟨task', hget', hrun⟩ := Option.bind_eq_some_iff.1 hs
    rw [hget] at hget'
    obtain rfl := Option.some.inj hget'
    exact .runTask hget hleads hrun
  | answer u a =>
    obtain rfl : u = t := hm
    obtain ⟨task', hget', hanswer⟩ := Option.bind_eq_some_iff.1 hs
    rw [hget] at hget'
    obtain rfl := Option.some.inj hget'
    unfold answerTask at hanswer
    split at hanswer
    · rename_i q next hprogram
      split at hanswer
      · rename_i hissued
        obtain ⟨r, -, rfl⟩ := Option.map_eq_some_iff.1 hanswer
        simp only [Task.Leads, hprogram, hissued] at hleads
        exact .proceed (List.getElem?_eq_some_iff.1 hget).1 (hleads r)
      · exact absurd hanswer (by simp)
    · exact absurd hanswer (by simp)
  | elapse ms =>
    simp only [Controller.step] at hs
    split at hs
    · rw [← Option.some.inj hs]
      exact ⟨task, hget, hleads⟩
    · exact absurd hs (by simp)
  | _ => exact hm.elim

/-- Wherever moves of the task, of its hosts and of time have led, the task is on its way. -/
theorem Leads.run (h : s.Leads t Q) (hs : Runs (fun _ m => m.Alone t) s s') : s'.Leads t Q := by
  induction hs with
  | refl => exact h
  | step m _ hm moved ih => exact ih.step hm moved

/-- Where the task has ended, it has led to `Q`. -/
theorem Leads.finished (h : s.Leads t Q) {task : Task α} (hget : s.tasks[t]? = some task)
    {r : task.job.Result} (hdone : task.program = .done r) : Q s.scene task.job r := by
  obtain ⟨task', hget', hleads⟩ := h
  rw [hget] at hget'
  obtain rfl := Option.some.inj hget'
  simp only [Task.Leads, hdone] at hleads
  exact Program.leads_done.1 hleads

/-- The task has come to its end. -/
def Finished (s : Controller α) (t : Nat) : Prop :=
  ∃ task, s.tasks[t]? = some task ∧ task.isFinished = true

/-- A task carries out at once what needs neither a host nor an engine. -/
theorem exists_runTask {task : Task α} {q : Request α}
    {next : q.Answer → Program α task.job.Result} (hprogram : task.program = .call q next)
    (hhost : ∀ r, q ≠ .host r) (henforce : ∀ e p, q ≠ .enforce e p) :
    ∃ (r : q.Answer) (s₁ : Controller α), s₁.tasks = s.tasks ∧
      s.runTask t task = some (s₁.proceed t task (next r)) := by
  have hperform : ∃ r s₁, s.perform q = some (r, s₁) := by
    cases q with
    | host r => exact absurd rfl (hhost r)
    | enforce e p => exact absurd rfl (henforce e p)
    | acquire a =>
      simp only [perform]
      split
      · exact ⟨_, _, rfl⟩
      · exact ⟨_, _, rfl⟩
    | _ => exact ⟨_, _, rfl⟩
  obtain ⟨r, s₁, hperform⟩ := hperform
  refine ⟨r, s₁, (perform_spec hperform).1, ?_⟩
  cases q with
  | host q => exact absurd rfl (hhost q)
  | enforce e p => exact absurd rfl (henforce e p)
  | _ => simp only [Controller.runTask, hprogram, hperform, Option.map_some]

/-- A request that needs no engine is answered in the end. -/
theorem exists_answered {j : Job α} {q : Request α} {next : q.Answer → Program α j.Result}
    {issued : Bool} {batch : Nat} (hget : s.tasks[t]? = some ⟨j, .call q next, issued, batch⟩)
    (henforce : ∀ e p, q ≠ .enforce e p) : ∃ r s', Runs (fun _ m => m.Alone t) s s' ∧
      s'.tasks[t]? = some ⟨j, next r, false, batch⟩ := by
  have hlt : t < s.tasks.length := (List.getElem?_eq_some_iff.1 hget).1
  by_cases hhost : ∃ r, q = .host r
  · obtain ⟨q, rfl⟩ := hhost
    obtain ⟨a, r, ha⟩ := HostAnswer.exists_to? q
    have hanswer : ∀ {u : Controller α},
        u.tasks[t]? = some ⟨j, .call (.host q) next, true, batch⟩ →
          u.step (.answer t a) =
            some (u.proceed t ⟨j, .call (.host q) next, true, batch⟩ (next r)) := by
      intro u hu
      simp only [Controller.step, hu, Option.bind_some, answerTask, if_true, ha, Option.map_some]
    cases issued with
    | true => exact ⟨r, _, .step (.answer t a) .refl rfl (hanswer hget), List.getElem?_set_self hlt⟩
    | false =>
      have hissue : s.step (.run t) = some ((s.setTask t
          ⟨j, .call (.host q) next, true, batch⟩).recordCall q.call) := by
        simp only [Controller.step, hget, Option.bind_some, Controller.runTask, Bool.false_eq_true,
          if_false]
      have hissued : ((s.setTask t ⟨j, .call (.host q) next, true, batch⟩).recordCall
          q.call).tasks[t]? = some ⟨j, .call (.host q) next, true, batch⟩ :=
        List.getElem?_set_self hlt
      refine ⟨r, _, .step (.answer t a) (.step (.run t) .refl rfl hissue) rfl (hanswer hissued), ?_⟩
      exact List.getElem?_set_self (List.getElem?_eq_some_iff.1 hissued).1
  · have hprogram : (⟨j, .call q next, issued, batch⟩ : Task α).program = .call q next := rfl
    obtain ⟨r, s₁, htasks, hrun⟩ := exists_runTask (s := s) (t := t) hprogram
      (fun r hr => hhost ⟨r, hr⟩) henforce
    have hmove : s.step (.run t) =
        some (s₁.proceed t ⟨j, .call q next, issued, batch⟩ (next r)) := by
      rw [Controller.step, hget, Option.bind_some, hrun]
    exact ⟨r, _, .step (.run t) .refl rfl hmove, List.getElem?_set_self (htasks.symm ▸ hlt)⟩

/-- From wherever it is, the task can go on to its end. -/
theorem Leads.exists_finished (h : s.Leads t Q) :
    ∃ s', Runs (fun _ m => m.Alone t) s s' ∧ s'.Finished t := by
  obtain ⟨⟨j, p, issued, batch⟩, hget, hleads⟩ := h
  induction p generalizing s issued with
  | done r => exact ⟨s, .refl, _, hget, rfl⟩
  | call q next ih =>
    have henforce : ∀ e plan, q ≠ .enforce e plan := by
      rintro e plan rfl
      exact Program.leads_call.1 hleads
    obtain ⟨r, u, hrun, hgot⟩ := exists_answered hget henforce
    obtain ⟨task, hget', hleads'⟩ := Leads.run ⟨_, hget, hleads⟩ hrun
    rw [hgot] at hget'
    obtain rfl := Option.some.inj hget'
    obtain ⟨s', hrest, hend⟩ := ih r false hgot hleads'
    exact ⟨s', hrun.trans hrest, hend⟩

/-- A job that was accepted and whose program comes to an end can do so from wherever it is. -/
theorem exists_finished_of_ends {s₁ s₂ : Controller α} {j : Job α} (hbegin : s.begin j = some s₁)
    (hends : (j.program s.settings).Ends s.settings)
    (hrun : Runs (fun _ m => m.Alone s.tasks.length) s₁ s₂) :
    ∃ s₃, Runs (fun _ m => m.Alone s.tasks.length) s₂ s₃ ∧ s₃.Finished s.tasks.length := by
  have hleads : s₁.Leads s.tasks.length fun _ _ _ => True := by
    rw [begin_eq hbegin]
    exact ⟨_, List.getElem?_concat_length, (Task.leads_of_not_issued rfl).2 (hends _)⟩
  exact (hleads.run hrun).exists_finished

end Controller

end ClusterControl
