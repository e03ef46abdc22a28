import ClusterControl.Controller.Step
import ClusterControl.Proofs.Enforcement.Batches
import ClusterControl.Proofs.Program.Contract

/-!
# The gate and its holder

In every state of a controller the gate is either free or held by one task.  `Controller.Guarded`
names the holder, says that the flag, the activity and the phase agree with it, and says of each
task that the rest of its program keeps the contract.  It outlasts changes that leave tasks and gate
alone (`Controller.Guarded.idles`), a task that goes on (`Controller.Guarded.goOn`) and a task that
comes in (`Controller.Guarded.join`).
-/

namespace ClusterControl

variable {α : Type}

/-- The task that holds the gate, what it holds it for, the phase of its resolution, and the store
as the task left it. -/
structure Holder (α : Type) where
  task : Nat
  activity : Activity
  phase : ResolutionPhase
  last : Store α

/-- The standing of a task, given who holds the gate. -/
def Holder.standing (o : Option (Holder α)) (t : Nat) : Standing α :=
  match o with
  | some k => if t = k.task then .inside k.activity k.phase k.last else .outside
  | none => .outside

theorem Holder.standing_self (k : Holder α) :
    standing (some k) k.task = .inside k.activity k.phase k.last := by
  rw [standing, if_pos rfl]

theorem Holder.standing_of_ne {k : Holder α} {t : Nat} (h : t ≠ k.task) :
    standing (some k) t = .outside := by
  rw [standing, if_neg h]

/-- What the holder does leaves the standing of the others. -/
theorem Holder.standing_others {k k' : Holder α} {t : Nat} (hk : k'.task = k.task)
    (h : t ≠ k.task) : standing (some k') t = standing (some k) t := by
  rw [standing_of_ne h, standing_of_ne (hk.symm ▸ h)]

/-- A task stands outside the gate, or it is the holder. -/
theorem Holder.standing_cases (o : Option (Holder α)) (t : Nat) :
    standing o t = .outside ∨ ∃ k, o = some k ∧ k.task = t := by
  cases o with
  | none => exact .inl rfl
  | some k =>
    by_cases h : t = k.task
    · exact .inr ⟨k, rfl, h.symm⟩
    · exact .inl (standing_of_ne h)

/-- Only tasks use the store, and the store keeps its backend. -/
def Move.Undisturbed : Move α → Prop
  | .fault _ _ => False
  | .amend _ => False
  | _ => True

namespace Controller

/-- The flag, the activity, the phase and the store agree with who holds the gate. -/
structure Gate (C : Contract α) (s : Controller α) (o : Option (Holder α)) : Prop where
  good : C.good s.store
  rely : ∀ {k}, o = some k → C.rely k.last s.store
  busy : s.busy = o.isSome
  activity : s.activity = (o.map Holder.activity).getD .idle
  phase : s.phase ≠ .idle → ∃ k, o = some k ∧ s.phase = k.phase ∧ k.activity = .resolvingAnomaly

/-- The engine that carries out the plan a task waits for works on that plan. -/
def Tracks (s : Controller α) (task : Task α) : Prop :=
  match task.program with
  | .call (.enforce e plan) _ => task.issued = true → (s.enforcement e).Serves task.batch plan
  | _ => True

/-- A task stays tracked while the engines work on whatever they worked on. -/
theorem Tracks.mono {s s' : Controller α} {task : Task α} (h : s.Tracks task)
    (hserves : ∀ e batch plan, (s.enforcement e).Serves batch plan →
      (s'.enforcement e).Serves batch plan) : s'.Tracks task := by
  unfold Tracks at h ⊢
  split
  · rename_i e plan next hprogram
    rw [hprogram] at h
    exact fun hissued => hserves e _ _ (h hissued)
  · trivial

/-- Nobody holds a gate that is free, and no resolution is under way then. -/
theorem Gate.free {C : Contract α} {s : Controller α} {o : Option (Holder α)} (h : Gate C s o)
    (hbusy : ¬s.busy = true) : o = none ∧ s.phase = .idle := by
  have hnone : o = none := by
    rw [← Option.not_isSome_iff_eq_none, ← h.busy]
    exact hbusy
  refine ⟨hnone, ?_⟩
  by_cases hp : s.phase = .idle
  · exact hp
  · obtain ⟨k, hk, -⟩ := h.phase hp
    rw [hnone] at hk
    exact absurd hk (by simp)

section

variable [Quantity α]

/-- The gate is as its holder says, every task keeps the contract from its standing on, and the
engines work on the plans that tasks wait for. -/
structure Guarded (C : Contract α) (c : Settings α) (s : Controller α) (o : Option (Holder α)) :
    Prop extends Gate C s o where
  settings : s.settings = c
  present : ∀ {k}, o = some k → k.task < s.tasks.length
  tasks : ∀ {t : Nat} {task}, s.tasks[t]? = some task →
    C.Meets c task.job task.program (Holder.standing o t) fun g _ => g = .outside
  numbered : ∀ e, (s.enforcement e).Numbered
  tracks : ∀ {t : Nat} {task}, s.tasks[t]? = some task → s.Tracks task

/-- A move that the contract leaves room for. -/
def Permits (C : Contract α) (s : Controller α) : Move α → Prop
  | .submit _ vms => C.accepts vms
  | .run t => ∀ {task q next}, s.tasks[t]? = some task → task.program = .call (.store q) next →
    C.admits task.job s.busy s.store q
  | .fault .. => C.lax
  | .amend _ => C.lax
  | _ => True

end

/-! ## Changes that leave tasks and gate alone -/

/-- From `s` to `s'` tasks, gate and store stay, and the engines are told nothing new. -/
structure Idles (s s' : Controller α) : Prop where
  settings : s'.settings = s.settings
  store : s'.store = s.store
  busy : s'.busy = s.busy
  activity : s'.activity = s.activity
  phase : s'.phase = s.phase
  tasks : s'.tasks = s.tasks
  work : ∀ e, (s'.enforcement e).work = (s.enforcement e).work

theorem Idles.refl (s : Controller α) : Idles s s := ⟨rfl, rfl, rfl, rfl, rfl, rfl, fun _ => rfl⟩

theorem Idles.trans {s t u : Controller α} (h : Idles s t) (k : Idles t u) : Idles s u :=
  ⟨k.settings.trans h.settings, k.store.trans h.store, k.busy.trans h.busy,
    k.activity.trans h.activity, k.phase.trans h.phase, k.tasks.trans h.tasks,
    fun e => (k.work e).trans (h.work e)⟩

theorem idles_note (s : Controller α) (n : Note α) : Idles s (s.note n) := by
  cases n with
  | event e => exact ⟨rfl, rfl, rfl, rfl, rfl, rfl, fun e => by cases e <;> rfl⟩
  | count series n => exact ⟨rfl, rfl, rfl, rfl, rfl, rfl, fun e => by cases e <;> rfl⟩
  | health part status message => exact ⟨rfl, rfl, rfl, rfl, rfl, rfl, fun e => by cases e <;> rfl⟩

theorem idles_recordCall (s : Controller α) (c : HostCall) : Idles s (s.recordCall c) :=
  ⟨rfl, rfl, rfl, rfl, rfl, rfl, fun e => by cases e <;> rfl⟩

theorem idles_setPhase_trial (s : Controller α) (p : ResolutionPhase) :
    Idles s (s.setPhase .trial p) :=
  ⟨rfl, rfl, rfl, rfl, rfl, rfl, fun e => by cases e <;> rfl⟩

/-- An engine may go on with what it was told to do. -/
theorem idles_setEnforcement (s : Controller α) {e : Engine} {f : Enforcement}
    (hf : f.work = (s.enforcement e).work) : Idles s (s.setEnforcement e f) := by
  cases e with
  | own => exact ⟨rfl, rfl, rfl, rfl, rfl, rfl, fun e => by cases e <;> first | exact hf | rfl⟩
  | trial => exact ⟨rfl, rfl, rfl, rfl, rfl, rfl, fun e => by cases e <;> first | exact hf | rfl⟩

theorem Gate.idles {C : Contract α} {s s' : Controller α} {o : Option (Holder α)}
    (h : Gate C s o) (hs : Idles s s') : Gate C s' o := by
  refine ⟨?_, ?_, ?_, ?_, ?_⟩
  · rw [hs.store]
    exact h.good
  · intro k hk
    rw [hs.store]
    exact h.rely hk
  · rw [hs.busy, h.busy]
  · rw [hs.activity, h.activity]
  · rw [hs.phase]
    exact h.phase

theorem enforcement_setTask (s : Controller α) (t : Nat) (task : Task α) (e : Engine) :
    (s.setTask t task).enforcement e = s.enforcement e := by
  cases e <;> rfl

variable [Quantity α] {C : Contract α} {c : Settings α} {s : Controller α} {o : Option (Holder α)}

theorem Guarded.idles {s' : Controller α} (h : Guarded C c s o) (hs : Idles s s') :
    Guarded C c s' o := by
  refine ⟨h.toGate.idles hs, hs.settings.trans h.settings, ?_, ?_, ?_, ?_⟩
  · rw [hs.tasks]
    exact h.present
  · rw [hs.tasks]
    exact h.tasks
  · exact fun e => (h.numbered e).of_work (hs.work e)
  · intro t task hget
    rw [hs.tasks] at hget
    exact (h.tracks hget).mono fun e _ _ hserves => hserves.of_work (hs.work e)

/-! ## A task goes on -/

/-- One task has gone on, and everything else that it changed is in order: the controller stays
guarded, with the holder there is now. -/
theorem Guarded.goOn {s₁ : Controller α} {o' : Option (Holder α)} {t : Nat} {task task' : Task α}
    (h : Guarded C c s o) (hget : s.tasks[t]? = some task) (hgate : Gate C s₁ o')
    (htasks : s₁.tasks = s.tasks) (hsettings : s₁.settings = s.settings)
    (hwork : ∀ e batch plan, (s.enforcement e).Serves batch plan →
      (s₁.enforcement e).Serves batch plan)
    (hnumbered : ∀ e, (s₁.enforcement e).Numbered)
    (hothers : ∀ u, u ≠ t → Holder.standing o' u = Holder.standing o u)
    (hpresent : ∀ {k}, o' = some k → k.task = t ∨ k.task < s.tasks.length)
    (hmeets : C.Meets c task'.job task'.program (Holder.standing o' t)
      fun g _ => g = .outside)
    (htracks : s₁.Tracks task') : Guarded C c (s₁.setTask t task') o' := by
  have hlt : t < s.tasks.length := (List.getElem?_eq_some_iff.1 hget).1
  have hset : (s₁.setTask t task').tasks = s.tasks.set t task' := by rw [setTask, htasks]
  refine ⟨⟨hgate.good, hgate.rely, hgate.busy, hgate.activity, hgate.phase⟩,
    hsettings.trans h.settings, ?_, ?_, ?_, ?_⟩
  · intro k hk
    rw [hset, List.length_set]
    rcases hpresent hk with hk | hk
    · rwa [hk]
    · exact hk
  · intro u other hu
    rw [hset] at hu
    by_cases hut : u = t
    · subst hut
      rw [List.getElem?_set_self hlt] at hu
      rw [← Option.some.inj hu]
      exact hmeets
    · rw [List.getElem?_set_ne (fun e => hut e.symm)] at hu
      rw [hothers u hut]
      exact h.tasks hu
  · intro e
    rw [enforcement_setTask]
    exact hnumbered e
  · intro u other hu
    rw [hset] at hu
    have hsame : ∀ e batch plan, (s₁.enforcement e).Serves batch plan →
        ((s₁.setTask t task').enforcement e).Serves batch plan := by
      intro e batch plan hserves
      rwa [enforcement_setTask]
    by_cases hut : u = t
    · subst hut
      rw [List.getElem?_set_self hlt] at hu
      rw [← Option.some.inj hu]
      exact htracks.mono hsame
    · rw [List.getElem?_set_ne (fun e => hut e.symm)] at hu
      exact ((h.tracks hu).mono hwork).mono hsame

/-- A task goes on with the next part of its program. -/
theorem Guarded.proceed {s₁ : Controller α} {o' : Option (Holder α)} {t : Nat} {task : Task α}
    {p : Program α task.job.Result} (h : Guarded C c s o) (hget : s.tasks[t]? = some task)
    (hgate : Gate C s₁ o') (htasks : s₁.tasks = s.tasks) (hsettings : s₁.settings = s.settings)
    (hwork : ∀ e, (s₁.enforcement e).work = (s.enforcement e).work)
    (hothers : ∀ u, u ≠ t → Holder.standing o' u = Holder.standing o u)
    (hpresent : ∀ {k}, o' = some k → k.task = t ∨ k.task < s.tasks.length)
    (hmeets : C.Meets c task.job p (Holder.standing o' t) fun g _ => g = .outside) :
    Guarded C c (s₁.proceed t task p) o' := by
  refine h.goOn hget hgate htasks hsettings (fun e _ _ hserves => hserves.of_work (hwork e))
    (fun e => (h.numbered e).of_work (hwork e)) hothers hpresent hmeets ?_
  unfold Tracks
  cases p with
  | done r => trivial
  | call q next =>
    cases q with
    | enforce e plan => simp
    | _ => trivial

/-- As `proceed`, when the gate stays as it is. -/
theorem Guarded.proceed_idles {s₁ : Controller α} {t : Nat} {task : Task α}
    {p : Program α task.job.Result} (h : Guarded C c s o) (hget : s.tasks[t]? = some task)
    (hs : Idles s s₁)
    (hmeets : C.Meets c task.job p (Holder.standing o t) fun g _ => g = .outside) :
    Guarded C c (s₁.proceed t task p) o :=
  h.proceed hget (h.toGate.idles hs) hs.tasks hs.settings hs.work (fun _ _ => rfl)
    (fun hk => .inr (h.present hk)) hmeets

/-! ## A task comes in -/

/-- A task has come in, and the gate is in order for whoever holds it now. -/
theorem Guarded.join {s₁ : Controller α} {o' : Option (Holder α)} {task : Task α}
    (h : Guarded C c s o) (hgate : Gate C s₁ o') (htasks : s₁.tasks = s.tasks ++ [task])
    (hsettings : s₁.settings = s.settings)
    (hwork : ∀ e, (s₁.enforcement e).work = (s.enforcement e).work)
    (hothers : ∀ u, u < s.tasks.length → Holder.standing o' u = Holder.standing o u)
    (hpresent : ∀ {k}, o' = some k → k.task ≤ s.tasks.length)
    (hmeets : C.Meets c task.job task.program (Holder.standing o' s.tasks.length)
      fun g _ => g = .outside)
    (hissued : task.issued = false) : Guarded C c s₁ o' := by
  have hcases : ∀ {t : Nat} {other : Task α}, s₁.tasks[t]? = some other →
      s.tasks[t]? = some other ∨ t = s.tasks.length ∧ other = task := by
    intro t other hget
    rw [htasks] at hget
    rcases Nat.lt_trichotomy t s.tasks.length with hlt | heq | hgt
    · exact .inl (by rwa [List.getElem?_append_left hlt] at hget)
    · rw [heq, List.getElem?_concat_length] at hget
      exact .inr ⟨heq, (Option.some.inj hget).symm⟩
    · rw [List.getElem?_eq_none (by simpa using Nat.succ_le_of_lt hgt)] at hget
      exact absurd hget (by simp)
  refine ⟨hgate, hsettings.trans h.settings, ?_, ?_, ?_, ?_⟩
  · intro k hk
    rw [htasks, List.length_append]
    exact Nat.lt_succ_of_le (hpresent hk)
  · intro t other hget
    obtain hold | ⟨rfl, rfl⟩ := hcases hget
    · rw [hothers t (List.getElem?_eq_some_iff.1 hold).1]
      exact h.tasks hold
    · exact hmeets
  · exact fun e => (h.numbered e).of_work (hwork e)
  · intro t other hget
    obtain hold | ⟨rfl, rfl⟩ := hcases hget
    · exact (h.tracks hold).mono fun e _ _ hserves => hserves.of_work (hwork e)
    · unfold Tracks
      split
      · rw [hissued]
        simp
      · trivial

end Controller

end ClusterControl
