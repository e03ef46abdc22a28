import ClusterControl.Proofs.Controller.Guarded
import ClusterControl.Proofs.Controller.Tasks
import ClusterControl.Proofs.Resource.Exact

/-!
# One workflow at a time

A workflow runs from the moment it takes the gate until it gives it back.  That a task is between
the two is read off the rest of its program alone (`Program.Owes`), without looking at the flag of
the controller; so the flag, the activity and the phase can be compared with it.

* `Task.Life` follows a call of a workflow from its first request to its end.
* `Controller.single_flight` says that in every state a controller can reach at most one workflow
  runs, that the controller says so, and that a call which is refused for being busy has done
  nothing.
-/

namespace ClusterControl

variable {α ρ σ : Type}

/-- The request neither takes the gate nor gives it back. -/
def Request.LeavesGate : Request α → Prop
  | .acquire _ => False
  | .release _ => False
  | _ => True

/-- Whatever answers the program gets, the next thing it does to the gate is to give it back after
an activity. -/
def Program.Owes (a : Activity) : Program α ρ → Prop
  | .done _ => False
  | .call q next => q = .release a ∨ q.LeavesGate ∧ ∀ r, q.MayGet r → (next r).Owes a

/-- Whatever answers the program gets, it gives the gate back after an activity with its very last
request, and its result satisfies `P`. -/
def Program.Closes (a : Activity) (P : ρ → Prop) : Program α ρ → Prop
  | .done _ => False
  | .call q next => (q = .release a ∧ ∀ r, ∃ x, next r = .done x ∧ P x) ∨
    q.LeavesGate ∧ ∀ r, q.MayGet r → (next r).Closes a P

theorem Program.Closes.owes {a : Activity} {P : ρ → Prop} {p : Program α ρ} (h : p.Closes a P) :
    p.Owes a := by
  induction p with
  | done r => exact h
  | call q next ih =>
    rcases h with ⟨hq, -⟩ | ⟨hq, hnext⟩
    · exact .inl hq
    · exact .inr ⟨hq, fun r hr => ih r (hnext r hr)⟩

namespace Job

/-- The activity of a job that is a call of a workflow. -/
def workflow? : Job α → Option Activity
  | .submission .. => some .submitting
  | .control _ (.migrate _) => some .migrating
  | .resolve .. => some .resolvingAnomaly
  | .reconfigure => some .reconfiguring
  | .powerDown .. => some .powerManagement
  | _ => none

/-- The result says that the call was refused because another workflow is running. -/
def Refused : (j : Job α) → j.Result → Prop
  | .control .., r => r = .error .busy
  | .resolve .., r => r = .error .busy
  | .reconfigure, r => r = .error .busy
  | .powerDown .., r => r = .error .busy
  | _, _ => False

end Job

/-! ## A contract that asks for nothing but the order of gate requests -/

/-- Nothing is known of stores and answers; programs may use the gate, or they may not. -/
def Contract.bare (α : Type) (gated : Prop) : Contract α where
  good _ := True
  rely _ _ := True
  admits _ _ _ _ := True
  accepts _ := True
  wakes _ _ _ := True
  gated := gated
  lax := True
  refl _ := trivial
  trans _ _ := trivial
  good_of_lax _ _ := trivial
  rely_of_lax _ _ _ := trivial
  wakes_nil _ := trivial

/-- Every request may get some answer. -/
theorem Request.exists_mayGet (q : Request α) : ∃ r, q.MayGet r := by
  cases q with
  | store q => exact ⟨_, .inl ⟨.empty, rfl⟩⟩
  | host q => exact ⟨.error (.unreachable "" ""), trivial⟩
  | acquire | isBusy => exact ⟨true, trivial⟩
  | phase => exact ⟨.idle, trivial⟩
  | inFlight => exact ⟨0, trivial⟩
  | place => exact ⟨.empty, trivial⟩
  | enforce => exact ⟨.empty, trivial⟩
  | release | setPhase | note | file => exact ⟨(), trivial⟩

section

variable [Quantity α] {c : Settings α} {j : Job α} {gated : Prop}

theorem Contract.bare_serves (gated : Prop) (c : Settings α) :
    (Contract.bare α gated).Serves c where
  casual _ _ _ := ⟨trivial, fun _ => trivial⟩
  wake hosts := by
    refine (meets_wakeAll_of_rely _ hosts fun _ => ⟨trivial, trivial⟩).mono ?_
    rintro g failed ⟨s, hg, -⟩
    exact ⟨s, hg, fun _ => trivial⟩
  powerDown _ _ := supports_of_lax trivial _ _
  place _ _ _ _ _ _ := supports_of_lax trivial _ _
  migrate _ _ _ _ _ _ _ := supports_of_lax trivial _ _
  relocate _ _ _ _ _ _ := supports_of_lax trivial _ _
  consolidate _ := supports_of_lax trivial _ _

/-- The activity that a task holds the gate for. -/
def Standing.activity? : Standing α → Option Activity
  | .outside => none
  | .inside a _ _ => some a

/-- A request that leaves the gate may be answered by anything that it may get, and leaves the task
where it stands. -/
theorem Contract.Asks.answered {g : Standing α} {q : Request α} (hq : q.LeavesGate)
    {R : Standing α → q.Answer → Prop} (h : (bare α gated).Asks c j g q R) {r : q.Answer}
    (hr : q.MayGet r) : ∃ g', R g' r ∧ g'.activity? = g.activity? := by
  cases q with
  | acquire | release => exact hq.elim
  | store q =>
    cases g with
    | outside =>
      obtain ⟨s, rfl⟩ | ⟨e, rfl⟩ := hr
      · exact ⟨_, (h.1 false s trivial trivial).2.2, rfl⟩
      · exact ⟨_, h.2 trivial e, rfl⟩
    | inside a p last =>
      obtain ⟨s, rfl⟩ | ⟨e, rfl⟩ := hr
      · exact ⟨_, (h.1 s trivial trivial).2, rfl⟩
      · exact ⟨_, h.2 trivial e, rfl⟩
  | host | isBusy | phase | inFlight => exact ⟨g, h r, rfl⟩
  | setPhase e p =>
    cases e with
    | trial => exact ⟨g, h, rfl⟩
    | own =>
      cases g with
      | outside => exact h.elim
      | inside => exact ⟨_, h.2, rfl⟩
  | place | enforce => exact ⟨g, h r (.inl trivial), rfl⟩
  | note | file => exact ⟨g, h, rfl⟩

/-- A program that never touches the gate closes once what follows it does. -/
theorem Contract.Meets.closes_bind {p : Program α ρ} {k : ρ → Program α σ} {g : Standing α}
    {Q : Standing α → ρ → Prop} {a : Activity} {P : σ → Prop}
    (h : (bare α False).Meets c j p g Q) (hk : ∀ g r, Q g r → (k r).Closes a P) :
    (p >>= k).Closes a P := by
  induction p generalizing g with
  | done r => exact hk g r h
  | call q next ih =>
    have hq : q.LeavesGate := by
      cases q with
      | acquire b =>
        cases g with
        | outside => exact h.1
        | inside => exact h
      | release b =>
        cases g with
        | outside => exact h
        | inside => exact h.1
      | _ => trivial
    refine .inr ⟨hq, fun r hr => ?_⟩
    obtain ⟨g', hnext, -⟩ := h.answered hq hr
    exact ih r hnext

/-- A task owes the gate exactly when it stands inside. -/
theorem Contract.Meets.owes_iff {p : Program α ρ} {g : Standing α} {a : Activity}
    (h : (bare α True).Meets c j p g fun g _ => g = .outside) :
    p.Owes a ↔ g.activity? = some a := by
  induction p generalizing g with
  | done r =>
    rw [show g = .outside from h]
    exact ⟨False.elim, fun hg => by cases hg⟩
  | call q next ih =>
    by_cases hq : q.LeavesGate
    · have hne : q ≠ .release a := fun e => by rw [e] at hq; exact hq
      have hnext : ∀ {r}, q.MayGet r → ((next r).Owes a ↔ g.activity? = some a) := by
        intro r hr
        obtain ⟨g', hnext, hg'⟩ := h.answered hq hr
        rw [ih r hnext, hg']
      constructor
      · intro howes
        obtain ⟨r, hr⟩ := q.exists_mayGet
        exact (hnext hr).1 ((howes.resolve_left hne).2 r hr)
      · exact fun hg => .inr ⟨hq, fun r hr => (hnext hr).2 hg⟩
    · cases q with
      | acquire b =>
        cases g with
        | outside =>
          refine ⟨fun howes => ?_, fun hg => by cases hg⟩
          exact howes.elim (by simp) fun h => h.1.elim
        | inside => exact h.elim
      | release b =>
        cases g with
        | outside => exact h.elim
        | inside b' ph last =>
          obtain ⟨-, rfl, -⟩ := h
          constructor
          · intro howes
            rcases howes with heq | ⟨hleaves, -⟩
            · exact congrArg some (Request.release.inj heq)
            · exact hleaves.elim
          · exact fun hg => .inl (congrArg Request.release (Option.some.inj hg))
      | _ => exact absurd trivial hq

/-! ## The life of a call -/

/-- Where a call of a workflow stands: it waits for the gate and has done nothing yet, it runs and
will give the gate back with its last request, or it is over. -/
inductive Task.Life (c : Settings α) (a : Activity) (task : Task α) : Prop
  | waits {next : Bool → Program α task.job.Result}
    (hprogram : task.program = .call (.acquire a) next)
    (hfirst : task.program = task.job.program c) (hrefused : ∃ r, next false = .done r)
    (hruns : (next true).Closes a fun r => ¬task.job.Refused r)
  | runs (h : task.program.Closes a fun r => ¬task.job.Refused r)
  | ended (r : task.job.Result) (h : task.program = .done r)

/-- What a workflow does behind the gate ends with giving the gate back. -/
theorem Contract.Body.closes {a : Activity} {x : ExceptT WorkflowError (Program α) ρ}
    (hx : (bare α False).Body c j a x) :
    (x.run >>= fun r => Program.ask (.release a) >>= fun _ => pure r).Closes a
      fun r => r ≠ .error .busy := by
  refine Meets.closes_bind (hx .empty trivial) ?_
  rintro g (e | r) h
  · exact .inl ⟨rfl, fun _ => ⟨_, rfl, fun heq => h.2 (Except.error.inj heq)⟩⟩
  · exact .inl ⟨rfl, fun _ => ⟨_, rfl, by simp⟩⟩

/-- A call of a workflow starts out waiting for the gate; an accepted submission runs at once. -/
theorem Task.life_create {a : Activity} (hj : j.workflow? = some a) :
    (Task.create c j).Life c a := by
  have hC : (Contract.bare α False).Serves c := Contract.bare_serves False c
  cases j with
  | submission task vms =>
    obtain rfl := Option.some.inj hj
    refine .runs (Contract.Meets.closes_bind
      (hC.meets_submission_run (j := .submission task vms) task trivial .empty) ?_)
    exact fun g r _ => .inr ⟨trivial, fun _ _ => .inl ⟨rfl, fun u => ⟨u, rfl, id⟩⟩⟩
  | control vm action =>
    cases action with
    | migrate d =>
      obtain rfl := Option.some.inj hj
      exact .waits rfl rfl ⟨_, rfl⟩ (hC.body_migrate (j := .control vm (.migrate d)) vm d).closes
    | _ => cases hj
  | resolve host state =>
    obtain rfl := Option.some.inj hj
    exact .waits rfl rfl ⟨_, rfl⟩ (hC.body_resolve (j := .resolve host state) host state).closes
  | reconfigure =>
    obtain rfl := Option.some.inj hj
    exact .waits rfl rfl ⟨_, rfl⟩ (hC.body_reconfigure (j := .reconfigure)).closes
  | powerDown reserved action =>
    obtain rfl := Option.some.inj hj
    exact .waits rfl rfl ⟨_, rfl⟩
      (hC.body_powerDown (j := .powerDown reserved action) reserved action).closes
  | _ => cases hj

/-- A call owes the gate unless it waits for it or is over. -/
theorem Task.Life.owes_iff {a : Activity} {task : Task α} (h : task.Life c a) :
    task.program.Owes a ↔ task.isFinished = false ∧
      ∀ b next, task.program ≠ .call (.acquire b) next := by
  rw [isFinished, result?]
  cases h with
  | waits hprogram =>
    rw [hprogram]
    exact ⟨fun howes => howes.elim (by simp) fun h => h.1.elim, fun h => absurd rfl (h.2 _ _)⟩
  | runs h =>
    refine ⟨fun _ => ⟨?_, fun b next hb => ?_⟩, fun _ => h.owes⟩
    · cases hprogram : task.program with
      | done r =>
        rw [hprogram] at h
        exact h.elim
      | call q next => rfl
    · rw [hb] at h
      rcases h with ⟨hq, -⟩ | ⟨hq, -⟩
      · exact absurd hq (by simp)
      · exact hq
  | ended r h =>
    rw [h]
    exact ⟨False.elim, fun h => absurd h.1 (by simp)⟩

namespace Controller

variable {s s' : Controller α}

/-- Steps take a call from waiting to running and from there to its end. -/
theorem Turn.life {t : Nat} {task' : Task α} {a : Activity} (h : Turn s s' t task')
    (hs : s.settings = c)
    (hlife : ∀ {task}, s.tasks[t]? = some task → task.job.workflow? = some a → task.Life c a)
    (hjob : task'.job.workflow? = some a) : task'.Life c a := by
  cases h with
  | kept issued batch hget htask =>
    subst htask
    cases hlife hget hjob with
    | waits hprogram hfirst hrefused hruns => exact .waits hprogram hfirst hrefused hruns
    | runs h => exact .runs h
    | ended r h => exact .ended r h
  | @answered task q next r hget hprogram hanswer _ htask =>
    subst htask
    cases hlife hget hjob with
    | @waits next' hprogram' _ hrefused hruns =>
      rw [hprogram] at hprogram'
      cases hprogram'
      cases r with
      | true => exact .runs hruns
      | false =>
        obtain ⟨x, hx⟩ := hrefused
        exact .ended x hx
    | runs h =>
      rw [hprogram] at h
      rcases h with ⟨-, hdone⟩ | ⟨-, hnext⟩
      · obtain ⟨x, hx, -⟩ := hdone r
        exact .ended x hx
      · exact .runs (hnext r hanswer)
    | ended x h =>
      rw [hprogram] at h
      exact absurd h (by simp)
  | created _ htask =>
    subst htask
    rw [hs]
    exact Task.life_create hjob

/-- A call that ends with a refusal has done nothing before, and the step that refuses it leaves the
store and the record of calls alone. -/
theorem Turn.refused {t : Nat} {task task' : Task α} {a : Activity} (h : Turn s s' t task')
    (hget : s.tasks[t]? = some task) (hunfinished : task.isFinished = false)
    (hlife : task.Life c a) {r : task'.job.Result} (hdone : task'.program = .done r)
    (hrefused : task'.job.Refused r) :
    task.program = task.job.program c ∧ s'.store = s.store ∧ s'.calls = s.calls := by
  have hopen : ∀ {x}, task.program ≠ .done x := by
    intro x hx
    rw [Task.isFinished, Task.result?, hx] at hunfinished
    exact absurd hunfinished (by simp)
  cases h with
  | kept issued batch hget' htask =>
    rw [hget] at hget'
    obtain rfl := Option.some.inj hget'
    subst htask
    exact absurd hdone hopen
  | @answered task₁ q next x hget' hprogram hanswer hgrants htask =>
    rw [hget] at hget'
    obtain rfl := Option.some.inj hget'
    subst htask
    cases hlife with
    | waits hprogram' hfirst _ _ =>
      rw [hprogram] at hprogram'
      cases hprogram'
      exact ⟨hfirst, hgrants⟩
    | runs h =>
      rw [hprogram] at h
      rcases h with ⟨-, hend⟩ | ⟨-, hnext⟩
      · obtain ⟨y, hy, hnot⟩ := hend x
        have hxr : Program.done y = Program.done r := hy.symm.trans hdone
        cases hxr
        exact absurd hrefused hnot
      · have hclosed := hnext x hanswer
        rw [show next x = .done r from hdone] at hclosed
        exact hclosed.elim
    | ended y h => exact absurd h hopen
  | created hget' _ =>
    rw [hget] at hget'
    exact absurd hget' (by simp)

/-! ## Every state that can be reached -/

/-- The task is between taking the gate for an activity and giving it back. -/
def Running (s : Controller α) (t : Nat) (a : Activity) : Prop :=
  ∃ task, s.tasks[t]? = some task ∧ task.program.Owes a

/-- The task that runs is the one that holds the gate. -/
theorem Guarded.running_iff {o : Option (Holder α)} (h : Guarded (.bare α True) c s o) {t : Nat}
    {a : Activity} : s.Running t a ↔ ∃ k, o = some k ∧ k.task = t ∧ k.activity = a := by
  constructor
  · rintro ⟨task, hget, howes⟩
    rw [(h.tasks hget).owes_iff] at howes
    obtain hout | ⟨k, rfl, rfl⟩ := Holder.standing_cases o t
    · rw [hout] at howes
      cases howes
    · rw [Holder.standing_self] at howes
      exact ⟨k, rfl, rfl, Option.some.inj howes⟩
  · rintro ⟨k, rfl, rfl, rfl⟩
    have hget := List.getElem?_eq_getElem (h.present rfl)
    refine ⟨_, hget, (h.tasks hget).owes_iff.2 ?_⟩
    rw [Holder.standing_self]
    rfl

/-- In every state that can be reached the gate has a holder or is free, and every call of a
workflow waits, runs or is over. -/
theorem Reachable.guarded {s₀ : Store α} (h : Reachable (start c s₀) s) :
    (∃ o, Guarded (.bare α True) c s o) ∧ ∀ {t : Nat} {task a}, s.tasks[t]? = some task →
      task.job.workflow? = some a → task.Life c a := by
  refine h.invariant (P := fun s => (∃ o, Guarded (.bare α True) c s o) ∧
    ∀ {t : Nat} {task a}, s.tasks[t]? = some task → task.job.workflow? = some a → task.Life c a)
    ⟨⟨none, guarded_start trivial⟩, fun hget => absurd hget (by simp [start])⟩ ?_
  rintro u v m ⟨⟨o, hu⟩, hlife⟩ hstep
  have hpermit : Permits (.bare α True) u m := by
    cases m with
    | run t => exact fun _ _ => trivial
    | _ => trivial
  refine ⟨hu.step (Contract.bare_serves True c) trivial hpermit hstep, fun hget hjob => ?_⟩
  exact (step_task hstep hget).life hu.settings hlife hjob

/-- Whatever calls come in and however their steps interleave: at most one workflow runs; the flag
is up exactly while one does; the activity names it, and is idle when none runs; a resolution is
under way only while one that resolves an anomaly runs.  A call of a workflow runs from the time it
has taken the gate to its end.  While the flag is up no submission is accepted, and a call that is
refused has asked for nothing but the gate. -/
theorem single_flight (c : Settings α) {s₀ : Store α} {s : Controller α}
    (h : Reachable (start c s₀) s) :
    (∀ t u a b, s.Running t a → s.Running u b → t = u ∧ a = b) ∧
    (s.busy = true ↔ ∃ t a, s.Running t a) ∧
    (∀ t a, s.Running t a → s.activity = a) ∧
    ((∀ t a, ¬s.Running t a) → s.activity = .idle) ∧
    (s.phase ≠ .idle → ∃ t, s.Running t .resolvingAnomaly) ∧
    (∀ (t : Nat) task a, s.tasks[t]? = some task → task.job.workflow? = some a →
      (s.Running t a ↔ task.isFinished = false ∧
        ∀ b next, task.program ≠ .call (.acquire b) next)) ∧
    (∀ id vms, s.submit id vms = none ↔ s.busy = true) ∧
    ∀ m s' (t : Nat) task task' a (r : task'.job.Result), s.step m = some s' →
      s.tasks[t]? = some task → task.isFinished = false → task.job.workflow? = some a →
      s'.tasks[t]? = some task' → task'.program = .done r → task'.job.Refused r →
      task.program = task.job.program c ∧ s'.store = s.store ∧ s'.calls = s.calls := by
  obtain ⟨⟨o, hg⟩, hlife⟩ := h.guarded
  refine ⟨?_, ?_, ?_, ?_, ?_, ?_, ?_, ?_⟩
  · intro t u a b ht hu
    obtain ⟨k, rfl, rfl, rfl⟩ := hg.running_iff.1 ht
    obtain ⟨k', hk', rfl, rfl⟩ := hg.running_iff.1 hu
    rw [Option.some.inj hk']
    exact ⟨rfl, rfl⟩
  · rw [hg.busy]
    constructor
    · intro hsome
      obtain ⟨k, rfl⟩ := Option.isSome_iff_exists.1 hsome
      exact ⟨k.task, k.activity, hg.running_iff.2 ⟨k, rfl, rfl, rfl⟩⟩
    · rintro ⟨t, a, hrun⟩
      obtain ⟨k, rfl, -⟩ := hg.running_iff.1 hrun
      rfl
  · intro t a hrun
    obtain ⟨k, rfl, -, rfl⟩ := hg.running_iff.1 hrun
    exact hg.activity
  · intro hnone
    cases o with
    | none => exact hg.activity
    | some k => exact absurd (hg.running_iff.2 ⟨k, rfl, rfl, rfl⟩) (hnone k.task k.activity)
  · intro hphase
    obtain ⟨k, rfl, -, hactivity⟩ := hg.phase hphase
    exact ⟨k.task, hg.running_iff.2 ⟨k, rfl, rfl, hactivity⟩⟩
  · intro t task a hget hjob
    have hrunning : s.Running t a ↔ task.program.Owes a := by
      refine ⟨?_, fun howes => ⟨task, hget, howes⟩⟩
      rintro ⟨other, hother, howes⟩
      rw [hget] at hother
      rwa [← Option.some.inj hother] at howes
    exact hrunning.trans (hlife hget hjob).owes_iff
  · intro id vms
    rw [submit, Option.map_eq_none_iff, acquire]
    cases s.busy <;> simp
  · intro m s' t task task' a r hstep hget hunfinished hjob hget' hdone hrefused
    exact (step_task hstep hget').refused hget hunfinished (hlife hget hjob) hdone hrefused

/-- A busy host with a machine that has to leave, and a passive host with room for it. -/
def halfAsleep : Store ℚ :=
  let busy : Store ℚ := Store.empty.addHost (.new "b" ⟨8, 8, 8, 8⟩ 1)
  let both := busy.addHost ((Host.new "p" ⟨8, 8, 8, 8⟩ 1).withStatus .passive)
  (both.addVm (((Vm.new "v" ⟨2, 2, 2, 2⟩ 1).observe ⟨0, ⟨8, 8, 8, 8⟩⟩).on "b")).2

/-- A resolution comes as far as waking the passive host, and a reconfiguration is called for. -/
def contested : List (Move ℚ) :=
  .begin (.resolve "b" .overloaded) :: List.replicate 7 (.run 0) ++ [.begin .reconfigure]

/-- The task is a reconfiguration that was refused. -/
def turnedAway : Task ℚ → Bool
  | ⟨.reconfigure, .done (.error .busy), _, _⟩ => true
  | _ => false

/-- What is seen of the two tasks before and after the second one goes on. -/
theorem replay_contested :
    (((start .standard halfAsleep).replay contested).bind fun s =>
      (s.step (.run 1)).bind fun s' => s.tasks[1]?.bind fun task => s'.tasks[1]?.map fun task' =>
        ((s.phase, s.calls.map CallRecord.call), task.isFinished, task.job.workflow?,
          turnedAway task')) =
      some ((.resolving, [.wakeUp "p"]), false, some .reconfiguring, true) := by
  decide +kernel

/-- While a resolution waits for a host to wake up, a reconfiguration is refused. -/
theorem single_flight_of_contested : ∃ s s', Reachable (start .standard halfAsleep) s ∧
    s.phase = .resolving ∧ s.calls.map CallRecord.call = [.wakeUp "p"] ∧
      (∃ t, s.Running t .resolvingAnomaly ∧ s.activity = .resolvingAnomaly) ∧ s.busy = true ∧
        s.submit "task" [] = none ∧ s.step (.run 1) = some s' ∧
          (∃ task, s'.tasks[1]? = some task ∧ turnedAway task = true) ∧
            s'.store = s.store ∧ s'.calls = s.calls := by
  obtain ⟨s, hs, hseen⟩ := Option.bind_eq_some_iff.1 replay_contested
  obtain ⟨s', hstep, hseen⟩ := Option.bind_eq_some_iff.1 hseen
  obtain ⟨task, hget, hseen⟩ := Option.bind_eq_some_iff.1 hseen
  obtain ⟨task', hget', hseen⟩ := Option.map_eq_some_iff.1 hseen
  simp only [Prod.mk.injEq] at hseen
  obtain ⟨hbefore, hunfinished, hjob, haway⟩ := hseen
  have hreach := reachable_of_replay hs
  obtain ⟨-, hbusy, hactivity, -, hphase, -, hsubmit, hrefused⟩ :=
    single_flight .standard hreach
  obtain ⟨t, hrunning⟩ := hphase (by rw [hbefore.1]; decide)
  have hflag : s.busy = true := hbusy.2 ⟨t, _, hrunning⟩
  refine ⟨s, s', hreach, hbefore.1, hbefore.2, ⟨t, hrunning, hactivity t _ hrunning⟩, hflag,
    (hsubmit "task" []).2 hflag, hstep, ⟨task', hget', haway⟩, ?_⟩
  unfold turnedAway at haway
  split at haway
  · obtain ⟨-, hsame⟩ := hrefused (.run 1) s' 1 task _ .reconfiguring _ hstep hget hunfinished hjob
      hget' rfl rfl
    exact hsame
  · exact absurd haway (by simp)

end Controller

end

end ClusterControl
