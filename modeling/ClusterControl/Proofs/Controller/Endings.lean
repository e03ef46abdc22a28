import ClusterControl.Proofs.Controller.Alone
import ClusterControl.Proofs.Controller.Chronicle
import ClusterControl.Proofs.Controller.Engines
import ClusterControl.Proofs.Enforcement.Endings

/-!
# An engine can carry its plans to their ends

Whatever has happened to a controller, polls, answers of sources and time bring the watches of an
engine to their ends, and then there is a report on every plan.

* `Controller.alive_step` says that no move takes from a watch what it waits for.
* `Controller.exists_over` says that all watches of an engine can come to their ends, while the
  tasks wait, and `Controller.exists_reported` that a task gets its report then.
-/

namespace ClusterControl.Controller

variable {α : Type} [Quantity α] {s s' : Controller α} {e : Engine} {t : Nat}

/-- The watches of an engine can go on whatever happens. -/
theorem alive_step (h : (s.enforcement e).Alive) {m : Move α} (hs : s.step m = some s') :
    (s'.enforcement e).Alive := by
  cases (step_engine hs e).1 with
  | rests hsame => rwa [hsame]
  | polls i order _ hpoll =>
    rw [hpoll]
    exact h.poll s.now i order
  | starts plan hstart =>
    rw [hstart]
    exact h.start plan
  | answersMigrate hanswer => exact h.answerMigrate hanswer
  | answersSuspend hanswer => exact h.answerSuspend hanswer
  | signals vm success hsignal =>
    rw [hsignal]
    exact h.signal vm success

theorem alive_run {allowed : Controller α → Move α → Prop} (h : (s.enforcement e).Alive)
    (hrun : Runs allowed s s') : (s'.enforcement e).Alive := by
  induction hrun with
  | refl => exact h
  | step m _ _ moved ih => exact alive_step ih moved

omit [Quantity α] in
theorem tasks_pollWatch (s : Controller α) (e : Engine) (i : Nat) (order : List Branch) :
    (s.pollWatch e i order).tasks = s.tasks := by
  unfold pollWatch
  dsimp only
  split <;> simp [recordCall]

/-- An unfinished watch can go on, while the tasks wait. -/
theorem exists_turn (h : (s.enforcement e).Alive) {i : Nat} {w : Watch}
    (hw : (s.enforcement e).watches[i]? = some w) (hunfinished : w.isFinished = false) (t : Nat) :
    ∃ s', Runs (fun _ m => m.Serves e t) s s' ∧ s'.tasks = s.tasks ∧
      (s'.enforcement e).remaining < (s.enforcement e).remaining := by
  obtain ⟨stage, hlt, hpoll | ⟨f, hf, hstages⟩⟩ := h.exists_turn hw hunfinished
  · -- the deadline passes first
    let later : Controller α := { s with now := s.now + (w.deadline + 1) }
    have helapse : s.step (.elapse (w.deadline + 1)) = some later := by
      rw [Controller.step, if_pos (Nat.succ_pos w.deadline)]
    have hstages := hpoll later.now (Nat.le_trans (Nat.le_succ _) (Nat.le_add_left _ _))
    refine ⟨later.pollWatch e i [.deadline], .step (.poll e i [.deadline])
      (.step (.elapse _) .refl trivial helapse) rfl rfl, tasks_pollWatch later e i _, ?_⟩
    rw [(later.pollWatch_engine e i [.deadline]).1]
    exact Enforcement.remaining_lt hw hlt hstages
  · have hanswer : s.step (.answerSuspend e i (.ok ())) = some (s.setEnforcement e f) := by
      rw [Controller.step, hf, Option.map_some]
    refine ⟨_, .step (.answerSuspend e i (.ok ())) .refl rfl hanswer,
      tasks_setEnforcement s e f, ?_⟩
    rw [enforcement_setEnforcement]
    exact Enforcement.remaining_lt hw hlt hstages

/-- All watches of an engine can come to their ends, while the tasks wait. -/
theorem exists_over (h : (s.enforcement e).Alive) (t : Nat) :
    ∃ s', Runs (fun _ m => m.Serves e t) s s' ∧ s'.tasks = s.tasks ∧ (s'.enforcement e).Over := by
  -- every turn leaves less to go on for
  induction hn : (s.enforcement e).remaining using Nat.strong_induction_on generalizing s with
  | h n ih =>
    obtain hover | ⟨i, w, hw, hunfinished⟩ := (s.enforcement e).over_or_exists
    · exact ⟨s, .refl, rfl, hover⟩
    · obtain ⟨u, hrun, htasks, hlt⟩ := exists_turn h hw hunfinished t
      obtain ⟨s', hrest, htasks', hover⟩ := ih _ (hn ▸ hlt) (alive_run h hrun) rfl
      exact ⟨s', hrun.trans hrest, htasks'.trans htasks, hover⟩

/-- A plan that a task hands over is reported on in the end. -/
theorem exists_reported (h : (s.enforcement e).Alive) {j : Job α} {plan : MigrationPlan}
    {next : EnforcementReport → Program α j.Result} {issued : Bool} {batch : Nat}
    (hget : s.tasks[t]? = some ⟨j, .call (.enforce e plan) next, issued, batch⟩) :
    ∃ r batch' s', Runs (fun _ m => m.Serves e t) s s' ∧
      s'.tasks[t]? = some ⟨j, next r, false, batch'⟩ := by
  have hlt : t < s.tasks.length := (List.getElem?_eq_some_iff.1 hget).1
  -- a plan that was handed over before is reported on when all watches are over
  have hissued : ∀ {u : Controller α} {batch : Nat}, (u.enforcement e).Alive →
      u.tasks[t]? = some ⟨j, .call (.enforce e plan) next, true, batch⟩ →
        ∃ r s', Runs (fun _ m => m.Serves e t) u s' ∧
          s'.tasks[t]? = some ⟨j, next r, false, batch⟩ := by
    intro u batch hu hgot
    obtain ⟨v, hrun, htasks, hover⟩ := exists_over hu t
    obtain ⟨r, hr⟩ := hover.exists_report batch
    rw [← htasks] at hgot
    have hstep : v.step (.run t) =
        some (v.proceed t ⟨j, .call (.enforce e plan) next, true, batch⟩ (next r)) := by
      simp only [Controller.step, hgot, Option.bind_some, runTask, if_true, hr, Option.map_some]
    exact ⟨r, _, .step (.run t) hrun rfl hstep,
      List.getElem?_set_self (List.getElem?_eq_some_iff.1 hgot).1⟩
  cases issued with
  | true =>
    obtain ⟨r, s', hrun, hgot⟩ := hissued h hget
    exact ⟨r, batch, s', hrun, hgot⟩
  | false =>
    have hstep : s.step (.run t) = some ((s.setEnforcement e ((s.enforcement e).start plan)).setTask
        t ⟨j, .call (.enforce e plan) next, true, (s.enforcement e).batches⟩) := by
      simp only [Controller.step, hget, Option.bind_some, runTask, Bool.false_eq_true, if_false]
    obtain ⟨r, s', hrun, hgot⟩ := hissued (alive_step h hstep)
      (List.getElem?_set_self ((tasks_setEnforcement s e _).symm ▸ hlt))
    exact ⟨r, _, s', hrun.prepend (m := .run t) rfl hstep, hgot⟩

end ClusterControl.Controller
