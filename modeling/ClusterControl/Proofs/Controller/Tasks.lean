import ClusterControl.Controller.Step

/-!
# What a step does to a task

Of all the tasks of a controller a step touches at most one: it hands over the next request of that
task, or goes on with one answer to it, or it adds the task.  `Controller.step_task` is this case
distinction; statements about the life of a single task are proved from it alone.
-/

namespace ClusterControl

variable {α : Type}

/-- The answer is one that the request may get. -/
def Request.MayGet : (q : Request α) → q.Answer → Prop
  | .store q, r => (∃ s, r = (q.apply s).1) ∨ ∃ e, r = .error e
  | _, _ => True

namespace Controller

variable [Quantity α] {s s' : Controller α}

/-- What the controller has to do with an answer: the gate is taken without touching the store or the
record of calls, and a report is an engine's report on some plan. -/
def Grants (s s' : Controller α) : (q : Request α) → q.Answer → Prop
  | .acquire _, _ => s'.store = s.store ∧ s'.calls = s.calls
  | .enforce e _, r => ∃ batch, (s.enforcement e).report? batch = some r
  | _, _ => True

/-- How a task came to be what it is after a step. -/
inductive Turn (s s' : Controller α) (t : Nat) (task' : Task α) : Prop
  /-- It was there already, with the same program; a request may have been handed over. -/
  | kept {task : Task α} (issued : Bool) (batch : Nat) (hget : s.tasks[t]? = some task)
    (htask : task' = { task with issued, batch })
  /-- It went on with an answer to its request. -/
  | answered {task : Task α} {q : Request α} {next : q.Answer → Program α task.job.Result}
    {r : q.Answer} (hget : s.tasks[t]? = some task) (hprogram : task.program = .call q next)
    (hanswer : q.MayGet r) (hgrants : s.Grants s' q r)
    (htask : task' = { task with program := next r, issued := false })
  /-- It has just come in. -/
  | created {j : Job α} (hget : s.tasks[t]? = none) (htask : task' = .create s.settings j)

/-- A task that a step does not touch. -/
theorem Turn.untouched {t : Nat} {task' : Task α} (hget : s.tasks[t]? = some task') :
    Turn s s' t task' :=
  .kept task'.issued task'.batch hget rfl

/-- One task goes on with an answer, and the others stay. -/
theorem Turn.proceed {s₁ : Controller α} (htasks : s₁.tasks = s.tasks) {u : Nat} {task : Task α}
    {q : Request α} {next : q.Answer → Program α task.job.Result} {r : q.Answer}
    (hget : s.tasks[u]? = some task) (hprogram : task.program = .call q next)
    (hanswer : q.MayGet r) (hgrants : s.Grants s₁ q r) {t : Nat}
    {task' : Task α} (hget' : (s₁.proceed u task (next r)).tasks[t]? = some task') :
    Turn s (s₁.proceed u task (next r)) t task' := by
  have hlt : u < s.tasks.length := (List.getElem?_eq_some_iff.1 hget).1
  have hset : (s₁.proceed u task (next r)).tasks =
      s.tasks.set u { task with program := next r, issued := false } := by
    rw [Controller.proceed, setTask, htasks]
  rw [hset] at hget'
  by_cases htu : t = u
  · subst htu
    rw [List.getElem?_set_self hlt] at hget'
    refine .answered hget hprogram hanswer ?_ (Option.some.inj hget').symm
    cases q <;> exact hgrants
  · rw [List.getElem?_set_ne fun e => htu e.symm] at hget'
    exact .kept task'.issued task'.batch hget' rfl

/-- One task hands a request over, and the others stay. -/
theorem Turn.issue {s₁ : Controller α} {u : Nat} {task : Task α} (batch : Nat)
    (hset : s₁.tasks = s.tasks.set u { task with issued := true, batch })
    (hget : s.tasks[u]? = some task) {t : Nat} {task' : Task α}
    (hget' : s₁.tasks[t]? = some task') : Turn s s₁ t task' := by
  have hlt : u < s.tasks.length := (List.getElem?_eq_some_iff.1 hget).1
  rw [hset] at hget'
  by_cases htu : t = u
  · subst htu
    rw [List.getElem?_set_self hlt] at hget'
    exact .kept true batch hget (Option.some.inj hget').symm
  · rw [List.getElem?_set_ne fun e => htu e.symm] at hget'
    exact .kept task'.issued task'.batch hget' rfl

/-- A task comes in behind the others. -/
theorem Turn.join {j : Job α} (htasks : s'.tasks = s.tasks ++ [.create s.settings j]) {t : Nat}
    {task' : Task α} (hget : s'.tasks[t]? = some task') : Turn s s' t task' := by
  rw [htasks] at hget
  rcases Nat.lt_trichotomy t s.tasks.length with hlt | rfl | hgt
  · rw [List.getElem?_append_left hlt] at hget
    exact .kept task'.issued task'.batch hget rfl
  · rw [List.getElem?_concat_length] at hget
    exact .created (List.getElem?_eq_none (Nat.le_refl _)) (Option.some.inj hget).symm
  · rw [List.getElem?_eq_none (by simpa using Nat.succ_le_of_lt hgt)] at hget
    exact absurd hget (by simp)

/-- A request that needs nobody else gets an answer that it may get, and leaves the tasks. -/
theorem perform_spec {q : Request α} {r : q.Answer} {s₁ : Controller α}
    (hs : s.perform q = some (r, s₁)) : s₁.tasks = s.tasks ∧ q.MayGet r ∧ s.Grants s₁ q r := by
  cases q with
  | store q =>
    obtain ⟨rfl, rfl⟩ := Prod.mk.inj (Option.some.inj hs)
    exact ⟨rfl, .inl ⟨s.store, rfl⟩, trivial⟩
  | host | enforce => cases hs
  | acquire a =>
    simp only [perform] at hs
    split at hs
    · rename_i s₂ hacquire
      obtain ⟨rfl, rfl⟩ := Prod.mk.inj (Option.some.inj hs)
      unfold acquire at hacquire
      split at hacquire
      · exact absurd hacquire (by simp)
      · rw [← Option.some.inj hacquire]
        exact ⟨rfl, trivial, rfl, rfl⟩
    · obtain ⟨rfl, rfl⟩ := Prod.mk.inj (Option.some.inj hs)
      exact ⟨rfl, trivial, rfl, rfl⟩
  | note n =>
    obtain ⟨rfl, rfl⟩ := Prod.mk.inj (Option.some.inj hs)
    cases n <;> exact ⟨rfl, trivial, trivial⟩
  | setPhase e p =>
    obtain ⟨rfl, rfl⟩ := Prod.mk.inj (Option.some.inj hs)
    cases e <;> exact ⟨rfl, trivial, trivial⟩
  | release | isBusy | phase | inFlight | place | file =>
    obtain ⟨rfl, rfl⟩ := Prod.mk.inj (Option.some.inj hs)
    exact ⟨rfl, trivial, trivial⟩

theorem runTask_task {u : Nat} {task : Task α} (hget : s.tasks[u]? = some task)
    (hs : s.runTask u task = some s') {t : Nat} {task' : Task α}
    (hget' : s'.tasks[t]? = some task') : Turn s s' t task' := by
  cases hprogram : task.program with
  | done r =>
    simp only [runTask, hprogram] at hs
    exact absurd hs (by simp)
  | call q next =>
    have hother : ∀ {r s₁}, s.perform q = some (r, s₁) → s₁.proceed u task (next r) = s' →
        Turn s s' t task' := by
      rintro r s₁ hperform rfl
      obtain ⟨htasks, hanswer, hgrants⟩ := perform_spec hperform
      exact .proceed htasks hget hprogram hanswer hgrants hget'
    cases q with
    | host q =>
      simp only [runTask, hprogram] at hs
      split at hs
      · exact absurd hs (by simp)
      · rw [← Option.some.inj hs] at hget' ⊢
        exact .issue task.batch (by simp only [hprogram]; rfl) hget hget'
    | enforce e plan =>
      simp only [runTask, hprogram] at hs
      split at hs
      · obtain ⟨r, hr, rfl⟩ := Option.map_eq_some_iff.1 hs
        exact .proceed rfl hget hprogram trivial ⟨task.batch, hr⟩ hget'
      · rw [← Option.some.inj hs] at hget' ⊢
        refine .issue (s.enforcement e).batches ?_ hget hget'
        simp only [hprogram]
        cases e <;> rfl
    | _ =>
      simp only [runTask, hprogram] at hs
      obtain ⟨⟨r, s₁⟩, hperform, rfl⟩ := Option.map_eq_some_iff.1 hs
      exact hother hperform rfl

/-- A job that begins comes in as a task behind the others. -/
theorem begin_eq {j : Job α} (hs : s.begin j = some s') :
    s' = { s with tasks := s.tasks ++ [.create s.settings j] } := by
  cases j with
  | submission => cases hs
  | _ => exact (Option.some.inj hs).symm

/-- What a step does to a task. -/
theorem step_task {m : Move α} (hs : s.step m = some s') {t : Nat} {task' : Task α}
    (hget' : s'.tasks[t]? = some task') : Turn s s' t task' := by
  cases m with
  | submit task vms =>
    obtain ⟨s₁, hacquire, rfl⟩ := Option.map_eq_some_iff.1 hs
    unfold acquire at hacquire
    split at hacquire
    · exact absurd hacquire (by simp)
    · obtain rfl := Option.some.inj hacquire
      exact .join (j := .submission task vms) rfl hget'
  | begin j =>
    obtain rfl := begin_eq hs
    exact .join rfl hget'
  | run u =>
    obtain ⟨task, hget, hrun⟩ := Option.bind_eq_some_iff.1 hs
    exact runTask_task hget hrun hget'
  | fault u reason =>
    obtain ⟨task, hget, hfault⟩ := Option.bind_eq_some_iff.1 hs
    unfold faultTask at hfault
    split at hfault
    · rename_i q next hprogram
      rw [← Option.some.inj hfault] at hget' ⊢
      exact .proceed rfl hget hprogram (.inr ⟨_, rfl⟩) trivial hget'
    · exact absurd hfault (by simp)
  | answer u a =>
    obtain ⟨task, hget, hanswer⟩ := Option.bind_eq_some_iff.1 hs
    unfold answerTask at hanswer
    split at hanswer
    · rename_i q next hprogram
      split at hanswer
      · obtain ⟨r, -, rfl⟩ := Option.map_eq_some_iff.1 hanswer
        exact .proceed rfl hget hprogram trivial trivial hget'
      · exact absurd hanswer (by simp)
    · exact absurd hanswer (by simp)
  | poll e i order =>
    obtain rfl := Option.some.inj hs
    refine .untouched ?_
    unfold pollWatch at hget'
    dsimp only at hget'
    split at hget' <;> cases e <;> exact hget'
  | answerMigrate e i r =>
    obtain ⟨f, -, rfl⟩ := Option.map_eq_some_iff.1 hs
    exact .untouched (by cases e <;> exact hget')
  | answerSuspend e i r =>
    obtain ⟨f, -, rfl⟩ := Option.map_eq_some_iff.1 hs
    exact .untouched (by cases e <;> exact hget')
  | signal e vm success =>
    obtain rfl := Option.some.inj hs
    exact .untouched (by cases e <;> exact hget')
  | finish e =>
    obtain rfl := Option.some.inj hs
    exact .untouched (by cases e <;> exact hget')
  | note n =>
    obtain rfl := Option.some.inj hs
    exact .untouched (by cases n <;> exact hget')
  | collect | amend | setReady =>
    obtain rfl := Option.some.inj hs
    exact .untouched hget'
  | elapse ms =>
    simp only [step] at hs
    split at hs
    · obtain rfl := Option.some.inj hs
      exact .untouched hget'
    · exact absurd hs (by simp)

end Controller

end ClusterControl
