import ClusterControl.Controller.Step

/-!
# What a step does to an engine

A step makes one engine act or start a plan, or it leaves the engines alone, and it only ever adds to
the record of calls.  `Controller.step_engine` is this case distinction; statements about an engine
that runs beside the tasks are proved from it alone.
-/

namespace ClusterControl.Controller

variable {α : Type}

/-! ## Changes of the engine -/

section

variable (s : Controller α) (e : Engine) (f : Enforcement)

@[simp]
theorem tasks_setEnforcement : (s.setEnforcement e f).tasks = s.tasks := by cases e <;> rfl

@[simp]
theorem calls_setEnforcement : (s.setEnforcement e f).calls = s.calls := by cases e <;> rfl

@[simp]
theorem enforcement_setEnforcement : (s.setEnforcement e f).enforcement e = f := by cases e <;> rfl

theorem enforcement_setEnforcement_of_ne {e' : Engine} (h : e' ≠ e) :
    (s.setEnforcement e f).enforcement e' = s.enforcement e' := by
  cases e <;> cases e' <;> first | rfl | exact absurd rfl h

end

/-! ## Polls -/

/-- A poll changes its engine and puts what it asks for on record. -/
theorem pollWatch_engine (s : Controller α) (e : Engine) (i : Nat) (order : List Branch) :
    (s.pollWatch e i order).enforcement e = ((s.enforcement e).poll s.now i order).engine ∧
      (∀ e', e' ≠ e → (s.pollWatch e i order).enforcement e' = s.enforcement e') ∧
        (s.pollWatch e i order).calls = s.calls ++
          ((s.enforcement e).poll s.now i order).call.toList.map
            (⟨s.now, s.activity, s.phase, ·⟩) := by
  unfold pollWatch
  dsimp only
  generalize (s.enforcement e).poll s.now i order = p
  split
  · rename_i c hcall
    refine ⟨enforcement_setEnforcement s e p.engine,
      fun _ => enforcement_setEnforcement_of_ne s e p.engine, ?_⟩
    rw [hcall]
    cases e <;> rfl
  · rename_i hcall
    refine ⟨enforcement_setEnforcement s e p.engine,
      fun _ => enforcement_setEnforcement_of_ne s e p.engine, ?_⟩
    rw [hcall, calls_setEnforcement]
    exact (List.append_nil s.calls).symm

variable [Quantity α] {s s' : Controller α} {m : Move α}

/-! ## Steps -/

/-- How an engine came to be what it is after a step. -/
inductive Works (s : Controller α) (m : Move α) (s' : Controller α) (e : Engine) : Prop
  | rests (h : s'.enforcement e = s.enforcement e)
  | polls (i : Nat) (order : List Branch) (hm : m = .poll e i order)
    (h : s'.enforcement e = ((s.enforcement e).poll s.now i order).engine)
  | starts (plan : MigrationPlan) (h : s'.enforcement e = (s.enforcement e).start plan)
  | answersMigrate {i : Nat} {r : Except ControlError MigrationStart}
    (h : (s.enforcement e).answerMigrate i r = some (s'.enforcement e))
  | answersSuspend {i : Nat} {r : Except ControlError Unit}
    (h : (s.enforcement e).answerSuspend i r = some (s'.enforcement e))
  | signals (vm : VmId) (success : Bool)
    (h : s'.enforcement e = ((s.enforcement e).signal vm success).2)

/-- Carrying out a request that needs nobody else leaves the engines and the calls alone. -/
theorem perform_engines {q : Request α} {r : q.Answer} (hs : s.perform q = some (r, s')) :
    (∀ e, s'.enforcement e = s.enforcement e) ∧ s'.calls = s.calls := by
  cases q with
  | host | enforce => cases hs
  | acquire a =>
    simp only [perform, acquire] at hs
    split at hs
    · rename_i hacquired
      obtain ⟨rfl, rfl⟩ := Prod.mk.inj (Option.some.inj hs)
      split at hacquired
      · exact absurd hacquired (by simp)
      · rw [← Option.some.inj hacquired]
        exact ⟨fun e => by cases e <;> rfl, rfl⟩
    · obtain ⟨rfl, rfl⟩ := Prod.mk.inj (Option.some.inj hs)
      exact ⟨fun _ => rfl, rfl⟩
  | setPhase f p =>
    obtain ⟨rfl, rfl⟩ := Prod.mk.inj (Option.some.inj hs)
    exact ⟨fun e => by cases f <;> cases e <;> rfl, by cases f <;> rfl⟩
  | note n =>
    obtain ⟨rfl, rfl⟩ := Prod.mk.inj (Option.some.inj hs)
    exact ⟨fun e => by cases n <;> cases e <;> rfl, by cases n <;> rfl⟩
  | _ =>
    obtain ⟨rfl, rfl⟩ := Prod.mk.inj (Option.some.inj hs)
    exact ⟨fun e => by cases e <;> rfl, rfl⟩

theorem runTask_engine {u : Nat} {task : Task α} (hs : s.runTask u task = some s') (e : Engine) :
    Works s m s' e ∧ s.calls <+: s'.calls := by
  cases hprogram : task.program with
  | done r =>
    simp only [runTask, hprogram] at hs
    exact absurd hs (by simp)
  | call q next =>
    cases q with
    | host q =>
      simp only [runTask, hprogram] at hs
      split at hs
      · exact absurd hs (by simp)
      · rw [← Option.some.inj hs]
        exact ⟨.rests (by cases e <;> rfl), List.prefix_append _ _⟩
    | enforce f plan =>
      simp only [runTask, hprogram] at hs
      split at hs
      · obtain ⟨r, -, rfl⟩ := Option.map_eq_some_iff.1 hs
        exact ⟨.rests (by cases e <;> rfl), List.prefix_rfl⟩
      · rw [← Option.some.inj hs]
        refine ⟨?_, ?_⟩
        · by_cases hf : e = f
          · subst hf
            exact .starts plan (by cases e <;> rfl)
          · have hother := enforcement_setEnforcement_of_ne s f ((s.enforcement f).start plan) hf
            exact .rests (Eq.trans (by cases e <;> rfl) hother)
        · exact (calls_setEnforcement s f _).symm ▸ List.prefix_rfl
    | _ =>
      simp only [runTask, hprogram] at hs
      obtain ⟨⟨r, s₁⟩, hperform, rfl⟩ := Option.map_eq_some_iff.1 hs
      obtain ⟨hengines, hcalls⟩ := perform_engines hperform
      refine ⟨.rests (Eq.trans (by cases e <;> rfl) (hengines e)), ?_⟩
      rw [← hcalls]
      exact List.prefix_rfl

/-- What a step does to an engine, and that it forgets no call. -/
theorem step_engine (hs : s.step m = some s') (e : Engine) :
    Works s m s' e ∧ s.calls <+: s'.calls := by
  -- an act of one engine leaves the other one as it was
  have hact : ∀ {f : Engine} {g : Enforcement},
      (e = f → (s.setEnforcement f g).enforcement f = g → Works s m (s.setEnforcement f g) e) →
        Works s m (s.setEnforcement f g) e ∧ s.calls <+: (s.setEnforcement f g).calls := by
    intro f g hself
    refine ⟨?_, (calls_setEnforcement s f g).symm ▸ List.prefix_rfl⟩
    by_cases hf : e = f
    · exact hself hf (enforcement_setEnforcement s f g)
    · exact .rests (enforcement_setEnforcement_of_ne s f g hf)
  cases m with
  | run u =>
    obtain ⟨task, -, hrun⟩ := Option.bind_eq_some_iff.1 hs
    exact runTask_engine hrun e
  | poll f i order =>
    rw [← Option.some.inj hs]
    obtain ⟨hself, hothers, hcalls⟩ := s.pollWatch_engine f i order
    refine ⟨?_, hcalls ▸ List.prefix_append _ _⟩
    by_cases hf : e = f
    · subst hf
      exact .polls i order rfl hself
    · exact .rests (hothers e hf)
  | answerMigrate f i r =>
    obtain ⟨g, hg, rfl⟩ := Option.map_eq_some_iff.1 hs
    refine hact ?_
    rintro rfl hself
    exact .answersMigrate (by rw [hself]; exact hg)
  | answerSuspend f i r =>
    obtain ⟨g, hg, rfl⟩ := Option.map_eq_some_iff.1 hs
    refine hact ?_
    rintro rfl hself
    exact .answersSuspend (by rw [hself]; exact hg)
  | signal f vm success =>
    rw [← Option.some.inj hs]
    refine hact ?_
    rintro rfl hself
    exact .signals vm success hself
  | submit task vms =>
    obtain ⟨s₁, hacquire, rfl⟩ := Option.map_eq_some_iff.1 hs
    unfold acquire at hacquire
    split at hacquire
    · exact absurd hacquire (by simp)
    · rw [← Option.some.inj hacquire]
      exact ⟨.rests (by cases e <;> rfl), List.prefix_rfl⟩
  | begin j =>
    cases j with
    | submission => cases hs
    | _ =>
      rw [← Option.some.inj hs]
      exact ⟨.rests (by cases e <;> rfl), List.prefix_rfl⟩
  | fault u reason =>
    obtain ⟨task, -, hfault⟩ := Option.bind_eq_some_iff.1 hs
    unfold faultTask at hfault
    split at hfault
    · rw [← Option.some.inj hfault]
      exact ⟨.rests (by cases e <;> rfl), List.prefix_rfl⟩
    · exact absurd hfault (by simp)
  | answer u a =>
    obtain ⟨task, -, hanswer⟩ := Option.bind_eq_some_iff.1 hs
    unfold answerTask at hanswer
    split at hanswer
    · split at hanswer
      · obtain ⟨r, -, rfl⟩ := Option.map_eq_some_iff.1 hanswer
        exact ⟨.rests (by cases e <;> rfl), List.prefix_rfl⟩
      · exact absurd hanswer (by simp)
    · exact absurd hanswer (by simp)
  | finish f =>
    rw [← Option.some.inj hs]
    exact ⟨.rests (by cases f <;> cases e <;> rfl), by cases f <;> exact List.prefix_rfl⟩
  | note n =>
    rw [← Option.some.inj hs]
    exact ⟨.rests (by cases n <;> cases e <;> rfl), by cases n <;> exact List.prefix_rfl⟩
  | collect | amend | setReady =>
    rw [← Option.some.inj hs]
    exact ⟨.rests (by cases e <;> rfl), List.prefix_rfl⟩
  | elapse ms =>
    simp only [step] at hs
    split at hs
    · rw [← Option.some.inj hs]
      exact ⟨.rests (by cases e <;> rfl), List.prefix_rfl⟩
    · exact absurd hs (by simp)

end ClusterControl.Controller
