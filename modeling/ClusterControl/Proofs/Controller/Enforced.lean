import ClusterControl.Proofs.Controller.Alone
import ClusterControl.Proofs.Controller.Engines
import ClusterControl.Proofs.Enforcement.Reports
import ClusterControl.Proofs.Program.Enforced

/-!
# A task that runs alone and has plans carried out

When the only moves are those of one task, of the hosts, of completion signals, of the controller's
own engine and of time, the task does to the controller what its program does to the scene.

* `Controller.Course` is where a task can be on its way: at work of its own while the engine is at
  rest, or waiting for the report on a plan.
* `Controller.Course.run` says that wherever such moves have led, the task is still on its way.
-/

namespace ClusterControl

variable {α : Type}

/-- A move of one task, of the engine that carries out its plans, of the hosts that either has asked,
of a completion signal, or of time. -/
def Move.Enforced (t : Nat) : Move α → Prop
  | .run u => u = t
  | .answer u _ => u = t
  | .poll e _ _ => e = .own
  | .answerMigrate e _ _ => e = .own
  | .answerSuspend e _ _ => e = .own
  | .signal e _ _ => e = .own
  | .elapse _ => True
  | _ => False

namespace Enforcement

/-! ## Engines at rest stay at rest -/

variable {e : Enforcement} {timeout : Nat}

/-- A watch of an engine at rest takes no turn. -/
theorem Quiet.not_turned (h : e.Quiet timeout) {e' : Enforcement} {now i : Nat} {w w' : Watch}
    {ds : List Deed} : ¬Turned e e' now i w w' ds := by
  intro hturned
  have hfinished := h.finished hturned.get
  rw [hturned.unfinished] at hfinished
  exact absurd hfinished (by simp)

theorem Quiet.poll (h : e.Quiet timeout) (now i : Nat) (order : List Branch) :
    e.poll now i order = quiet e := by
  cases hw : e.watches[i]? with
  | none => rw [Enforcement.poll, hw]
  | some w =>
    rcases h.orderly.turns_poll hw order with hquiet | ⟨w', hturned⟩
    · exact hquiet
    · exact absurd hturned h.not_turned

theorem Quiet.answerMigrate (h : e.Quiet timeout) (i : Nat)
    (r : Except ControlError MigrationStart) : e.answerMigrate i r = none := by
  by_contra hsome
  obtain ⟨e', he'⟩ := Option.ne_none_iff_exists'.1 hsome
  obtain ⟨w, w', hturned⟩ := h.orderly.answerMigrate 0 he'
  exact h.not_turned hturned

theorem Quiet.answerSuspend (h : e.Quiet timeout) (i : Nat) (r : Except ControlError Unit) :
    e.answerSuspend i r = none := by
  by_contra hsome
  obtain ⟨e', he'⟩ := Option.ne_none_iff_exists'.1 hsome
  obtain ⟨w, w', hturned⟩ := h.orderly.answerSuspend 0 he'
  exact h.not_turned hturned

theorem Quiet.signal (h : e.Quiet timeout) (vm : VmId) (success : Bool) :
    e.signal vm success = (false, e) :=
  signal_eq_of_none (h.orderly.table_eq_none h.finished vm) success

end Enforcement

/-! ## What a poll of the engine leaves -/

namespace Controller

theorem scene_pollWatch (s : Controller α) (i : Nat) (order : List Branch)
    (calls : List HostCall) :
    { (s.pollWatch .own i order).scene with calls := calls } = { s.scene with calls := calls } := by
  unfold pollWatch
  dsimp only
  split <;> rfl

/-- A poll goes on with the engine and changes nothing else but the record of calls. -/
theorem pollWatch_spec (s : Controller α) (i : Nat) (order : List Branch) :
    (s.pollWatch .own i order).tasks = s.tasks ∧ (s.pollWatch .own i order).settings = s.settings ∧
      (s.pollWatch .own i order).own.enforcement =
        (s.own.enforcement.poll s.now i order).engine ∧ (s.pollWatch .own i order).now = s.now := by
  unfold pollWatch
  dsimp only
  split <;> exact ⟨rfl, rfl, rfl, rfl⟩

end Controller

variable [Quantity α]

/-- From a scene a task ends with `Q`, whatever the hosts answer and the reports on its plans say.
It has handed over a request to a host at most. -/
def Task.Achieves (c : Settings α) (task : Task α) (g : Scene α)
    (Q : Scene α → (j : Job α) → j.Result → Prop) : Prop :=
  match task.program, task.issued with
  | .call (.host _) next, true => ∀ r, (next r).Achieves c g fun g' r => Q g' task.job r
  | p, issued => issued = false ∧ p.Achieves c g fun g' r => Q g' task.job r

/-- A task that has handed nothing over ends with what its program achieves. -/
theorem Task.achieves_of_not_issued {c : Settings α} {task : Task α} {g : Scene α}
    {Q : Scene α → (j : Job α) → j.Result → Prop} (h : task.issued = false) :
    task.Achieves c g Q ↔ task.program.Achieves c g fun g' r => Q g' task.job r := by
  rw [Task.Achieves, h]
  split
  · rename_i heq
    exact absurd heq (by simp)
  · exact and_iff_right rfl

namespace Controller

/-- Where a task can be that runs alone with the controller's own engine, on its way to `Q`. -/
inductive Course (s : Controller α) (t timeout : Nat)
    (Q : Scene α → (j : Job α) → j.Result → Prop) : Prop
  /-- The engine is at rest, and the task is at work or waits for a host. -/
  | working {task : Task α} (hget : s.tasks[t]? = some task)
    (hquiet : s.own.enforcement.Quiet timeout) (h : task.Achieves s.settings s.scene Q) :
    Course s t timeout Q
  /-- The engine carries out a plan, and the task waits for the report. -/
  | waiting {task : Task α} {plan : MigrationPlan}
    {next : EnforcementReport → Program α task.job.Result} {log : Enforcement.Log}
    (hget : s.tasks[t]? = some task) (hprogram : task.program = .call (.enforce .own plan) next)
    (hissued : task.issued = true) (hplan : plan.Built)
    (hsound : Enforcement.Session.Sound timeout task.batch plan
      ⟨s.own.enforcement, s.now, log⟩)
    (hnext : ∀ calls r, r.Covers plan →
      (next r).Achieves s.settings { s.scene with calls := calls } fun g r => Q g task.job r) :
    Course s t timeout Q

variable {s s' : Controller α} {t timeout : Nat} {Q : Scene α → (j : Job α) → j.Result → Prop}

/-- The task goes on with an answer, while the engine is at rest. -/
theorem Course.proceed {task : Task α} {p : Program α task.job.Result} (hlt : t < s.tasks.length)
    (hquiet : s.own.enforcement.Quiet timeout)
    (h : p.Achieves s.settings s.scene fun g r => Q g task.job r) :
    (s.proceed t task p).Course t timeout Q := by
  have hget : (s.proceed t task p).tasks[t]? = some { task with program := p, issued := false } :=
    List.getElem?_set_self hlt
  exact .working hget hquiet ((Task.achieves_of_not_issued rfl).2 h)

/-- A job that begins while the engine is at rest is on its way to what its program achieves. -/
theorem course_of_begin {j : Job α} (hbegin : s.begin j = some s')
    (hrest : Enforcement.AtRest timeout s.own.enforcement)
    (h : (j.program s.settings).Achieves s.settings s.scene fun g r => Q g j r) :
    s'.Course s.tasks.length timeout Q := by
  rw [begin_eq hbegin]
  have hget : (s.tasks ++ [Task.create s.settings j])[s.tasks.length]? =
      some (.create s.settings j) := List.getElem?_concat_length
  exact .working hget hrest.quiet ((Task.achieves_of_not_issued rfl).2 h)

/-- What the task does next keeps it on its way, while the engine is at rest. -/
theorem Course.runTask_working {task : Task α} (hget : s.tasks[t]? = some task)
    (hquiet : s.own.enforcement.Quiet timeout) (h : task.Achieves s.settings s.scene Q)
    (hs : s.runTask t task = some s') : s'.Course t timeout Q := by
  have hlt : t < s.tasks.length := (List.getElem?_eq_some_iff.1 hget).1
  cases hprogram : task.program with
  | done r =>
    simp only [Controller.runTask, hprogram] at hs
    exact absurd hs (by simp)
  | call q next =>
    cases q with
    | host q =>
      simp only [Controller.runTask, hprogram] at hs
      split at hs
      · exact absurd hs (by simp)
      · rename_i hissued
        rw [Bool.not_eq_true] at hissued
        rw [Task.achieves_of_not_issued hissued, hprogram, Program.achieves_call] at h
        rw [← Option.some.inj hs]
        have hget' : ((s.setTask t ⟨task.job, .call (.host q) next, true, task.batch⟩).recordCall
            q.call).tasks[t]? = some ⟨task.job, .call (.host q) next, true, task.batch⟩ :=
          List.getElem?_set_self hlt
        have hscene : ((s.setTask t ⟨task.job, .call (.host q) next, true, task.batch⟩).recordCall
            q.call).scene = { s.scene with calls := s.scene.calls ++ [q.call] } := by
          simp only [scene, recordCall, setTask, List.map_append, List.map_cons, List.map_nil]
        refine .working hget' hquiet ?_
        show Task.Achieves s.settings ⟨task.job, .call (.host q) next, true, task.batch⟩ _ Q
        rw [hscene]
        exact h
    | enforce e plan =>
      simp only [Controller.runTask, hprogram] at hs
      split at hs
      · rename_i hissued
        rw [Task.Achieves, hprogram, hissued] at h
        exact absurd h.1 (by simp)
      · rename_i hissued
        rw [Bool.not_eq_true] at hissued
        rw [Task.achieves_of_not_issued hissued, hprogram, Program.achieves_call] at h
        cases e with
        | trial => exact False.elim h
        | own =>
          obtain ⟨hplan, hnext⟩ := h
          rw [← Option.some.inj hs]
          exact .waiting (List.getElem?_set_self hlt) rfl rfl hplan
            (hquiet.begin hplan s.now) hnext
    | _ =>
      simp only [Controller.runTask, hprogram] at hs
      simp only [Task.Achieves, hprogram, Program.achieves_call] at h
      obtain ⟨⟨r, s₁⟩, hperform, rfl⟩ := Option.map_eq_some_iff.1 hs
      obtain ⟨hsettings, hnext⟩ := perform_scene hperform
        ((Scene.obtains_iff_asks (fun _ => by simp)).1 h.2)
      refine .proceed ?_ ?_ (by rwa [hsettings])
      · rwa [(perform_spec hperform).1]
      · have hengine : s₁.own.enforcement = s.own.enforcement := (perform_engines hperform).1 .own
        rwa [hengine]

/-- The engine has gone on, and the task waits. -/
theorem Course.waiting_step {task : Task α} {plan : MigrationPlan}
    {next : EnforcementReport → Program α task.job.Result} {log : Enforcement.Log}
    (hget : s.tasks[t]? = some task) (hprogram : task.program = .call (.enforce .own plan) next)
    (hissued : task.issued = true) (hplan : plan.Built)
    (hsound : Enforcement.Session.Sound timeout task.batch plan ⟨s.own.enforcement, s.now, log⟩)
    (hnext : ∀ calls r, r.Covers plan →
      (next r).Achieves s.settings { s.scene with calls := calls } fun g r => Q g task.job r)
    {a : Enforcement.Act} {u : Enforcement.Session}
    (ha : Enforcement.Session.step ⟨s.own.enforcement, s.now, log⟩ a = some u)
    (htasks : s'.tasks = s.tasks) (hsettings : s'.settings = s.settings)
    (hscene : ∀ calls, { s'.scene with calls := calls } = { s.scene with calls := calls })
    (hengine : s'.own.enforcement = u.engine) (hnow : s'.now = u.now) :
    s'.Course t timeout Q := by
  have hsound' : Enforcement.Session.Sound timeout task.batch plan
      ⟨s'.own.enforcement, s'.now, u.log⟩ := by
    rw [hengine, hnow]
    exact hsound.step hplan ha
  have hget' : s'.tasks[t]? = some task := by rwa [htasks]
  exact .waiting hget' hprogram hissued hplan hsound' fun calls r hr => by
    rw [hsettings, hscene]
    exact hnext calls r hr

/-- A move of the task, of its engine, of hosts or of time keeps the task on its way. -/
theorem Course.step (h : s.Course t timeout Q) {m : Move α} (hm : m.Enforced t)
    (hs : s.step m = some s') : s'.Course t timeout Q := by
  cases h with
  | working hget hquiet h =>
    rename_i task
    have hlt : t < s.tasks.length := (List.getElem?_eq_some_iff.1 hget).1
    cases m with
    | run u =>
      obtain rfl : u = t := hm
      obtain ⟨task', hget', hrun⟩ := Option.bind_eq_some_iff.1 hs
      rw [hget] at hget'
      obtain rfl := Option.some.inj hget'
      exact .runTask_working hget hquiet h hrun
    | answer u a =>
      obtain rfl : u = t := hm
      obtain ⟨task', hget', hanswer⟩ := Option.bind_eq_some_iff.1 hs
      rw [hget] at hget'
      obtain rfl := Option.some.inj hget'
      unfold answerTask at hanswer
      split at hanswer
      · rename_i q next hprogram
        split at hanswer
        · rename_i hissued
          obtain ⟨r, -, rfl⟩ := Option.map_eq_some_iff.1 hanswer
          simp only [Task.Achieves, hprogram, hissued] at h
          exact .proceed hlt hquiet (h r)
        · exact absurd hanswer (by simp)
      · exact absurd hanswer (by simp)
    | poll e i order =>
      obtain rfl : e = .own := hm
      have hpoll := hquiet.poll s.now i order
      have hsame : s.pollWatch .own i order = s := by
        rw [pollWatch, show s.enforcement .own = s.own.enforcement from rfl, hpoll]
        rfl
      rw [← Option.some.inj hs, hsame]
      exact .working hget hquiet h
    | answerMigrate e i r =>
      obtain rfl : e = .own := hm
      obtain ⟨f, hf, -⟩ := Option.map_eq_some_iff.1 hs
      have hnone := hquiet.answerMigrate i r
      rw [show s.own.enforcement = s.enforcement .own from rfl, hf] at hnone
      exact absurd hnone (by simp)
    | answerSuspend e i r =>
      obtain rfl : e = .own := hm
      obtain ⟨f, hf, -⟩ := Option.map_eq_some_iff.1 hs
      have hnone := hquiet.answerSuspend i r
      rw [show s.own.enforcement = s.enforcement .own from rfl, hf] at hnone
      exact absurd hnone (by simp)
    | signal e vm success =>
      obtain rfl : e = .own := hm
      have hsame : (s.signal .own vm success).2 = s := by
        rw [Controller.signal, show s.enforcement .own = s.own.enforcement from rfl,
          hquiet.signal vm success]
        rfl
      rw [← Option.some.inj hs, hsame]
      exact .working hget hquiet h
    | elapse ms =>
      simp only [Controller.step] at hs
      split at hs
      · rw [← Option.some.inj hs]
        exact .working hget hquiet h
      · exact absurd hs (by simp)
    | _ => exact hm.elim
  | waiting hget hprogram hissued hplan hsound hnext =>
    rename_i task plan next log
    have hlt : t < s.tasks.length := (List.getElem?_eq_some_iff.1 hget).1
    cases m with
    | run u =>
      obtain rfl : u = t := hm
      obtain ⟨task', hget', hrun⟩ := Option.bind_eq_some_iff.1 hs
      rw [hget] at hget'
      obtain rfl := Option.some.inj hget'
      simp only [Controller.runTask, hprogram, hissued, if_true] at hrun
      obtain ⟨r, hr, rfl⟩ := Option.map_eq_some_iff.1 hrun
      refine .proceed hlt (hsound.quiet hplan hr) ?_
      exact hnext _ r (hsound.reported hplan hr).complete
    | answer u a =>
      obtain rfl : u = t := hm
      obtain ⟨task', hget', hanswer⟩ := Option.bind_eq_some_iff.1 hs
      rw [hget] at hget'
      obtain rfl := Option.some.inj hget'
      unfold answerTask at hanswer
      rw [hprogram] at hanswer
      exact absurd hanswer (by simp)
    | poll e i order =>
      obtain rfl : e = .own := hm
      rw [← Option.some.inj hs]
      obtain ⟨htasks, hsettings, hengine, hnow⟩ := pollWatch_spec s i order
      exact .waiting_step hget hprogram hissued hplan hsound hnext (a := .poll i order) rfl htasks
        hsettings (scene_pollWatch s i order) hengine hnow
    | answerMigrate e i r =>
      obtain rfl : e = .own := hm
      obtain ⟨f, hf, rfl⟩ := Option.map_eq_some_iff.1 hs
      exact .waiting_step hget hprogram hissued hplan hsound hnext (a := .answerMigrate i r)
        (Option.map_eq_some_iff.2 ⟨f, hf, rfl⟩) rfl rfl (fun _ => rfl) rfl rfl
    | answerSuspend e i r =>
      obtain rfl : e = .own := hm
      obtain ⟨f, hf, rfl⟩ := Option.map_eq_some_iff.1 hs
      exact .waiting_step hget hprogram hissued hplan hsound hnext (a := .answerSuspend i r)
        (Option.map_eq_some_iff.2 ⟨f, hf, rfl⟩) rfl rfl (fun _ => rfl) rfl rfl
    | signal e vm success =>
      obtain rfl : e = .own := hm
      rw [← Option.some.inj hs]
      exact .waiting_step hget hprogram hissued hplan hsound hnext (a := .signal vm success) rfl rfl
        rfl (fun _ => rfl) rfl rfl
    | elapse ms =>
      simp only [Controller.step] at hs
      split at hs
      · rw [← Option.some.inj hs]
        exact .waiting_step hget hprogram hissued hplan hsound hnext (a := .elapse ms) rfl rfl rfl
          (fun _ => rfl) rfl rfl
      · exact absurd hs (by simp)
    | _ => exact hm.elim

/-- Wherever moves of the task, of its engine, of hosts and of time have led, the task is on its
way. -/
theorem Course.run (h : s.Course t timeout Q) (hs : Runs (fun _ m => m.Enforced t) s s') :
    s'.Course t timeout Q := by
  induction hs with
  | refl => exact h
  | step m _ hm moved ih => exact ih.step hm moved

/-- Where the task has ended, it has achieved `Q`. -/
theorem Course.finished (h : s.Course t timeout Q) {task : Task α} (hget : s.tasks[t]? = some task)
    {r : task.job.Result} (hdone : task.program = .done r) : Q s.scene task.job r := by
  cases h with
  | working hget' hquiet h =>
    rw [hget] at hget'
    obtain rfl := Option.some.inj hget'
    simp only [Task.Achieves, hdone] at h
    exact Program.achieves_done.1 h.2
  | waiting hget' hprogram =>
    rw [hget] at hget'
    obtain rfl := Option.some.inj hget'
    rw [hdone] at hprogram
    exact absurd hprogram (by simp)

end Controller

end ClusterControl
