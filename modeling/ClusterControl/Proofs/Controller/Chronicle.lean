import ClusterControl.Proofs.Controller.Engines
import ClusterControl.Proofs.Controller.Guarded
import ClusterControl.Proofs.Controller.Tasks
import ClusterControl.Proofs.Enforcement.Calls
import ClusterControl.Proofs.Program.Chronicle

/-!
# What passes between a controller and the hosts

Moves leave a transcript: the requests that went out, and the answers that came in for tasks.  When
the only moves are those of one task, of the engine that serves it, of the hosts and of time, the
transcript begins with the log of the task's program, and what follows are requests of the engine.

* `Controller.transcript` reads the transcript off a list of moves.
* `Controller.Tells.replay` says that the task does to the controller what its program does to a
  chronicle, and `Controller.Tells.finished` what the transcript of a finished task is.
-/

namespace ClusterControl

variable {α : Type}

/-! ## Moves and their transcript -/

/-- A move of one task, of the engine `e` that serves it, of the hosts that either has asked, of a
completion signal, or of time. -/
def Move.Serves (e : Engine) (t : Nat) : Move α → Prop
  | .run u => u = t
  | .answer u _ => u = t
  | .poll f _ _ => f = e
  | .answerMigrate f _ _ => f = e
  | .answerSuspend f _ _ => f = e
  | .signal f _ _ => f = e
  | .elapse _ => True
  | _ => False

/-- The answer that a move brings to a task. -/
def Move.answer? : Move α → Option HostAnswer
  | .answer _ a => some a
  | _ => none

namespace Controller

/-- What passes between the controller and the hosts by a move: the requests that went out, and the
answer that came in for a task. -/
def exchanges (s : Controller α) (m : Move α) (s' : Controller α) : List Exchange :=
  (s'.calls.drop s.calls.length).map (fun r => .asked r.call) ++ m.answer?.toList.map .answered

/-- What the program of a task finds, with what has passed between it and the hosts. -/
def chronicle (s : Controller α) (e : Engine) (log : List Exchange) (launched : Bool) :
    Chronicle α := ⟨s.store, s.busy, (s.bench e).phase, log, launched⟩

theorem exchanges_of_calls {s s' : Controller α} {m : Move α} {calls : List CallRecord}
    (h : s'.calls = s.calls ++ calls) : s.exchanges m s' =
      (calls.map CallRecord.call).map .asked ++ m.answer?.toList.map .answered := by
  rw [exchanges, h, List.drop_left, List.map_map]
  rfl

/-- A move that asks nothing of a host and brings no answer leaves nothing on the transcript. -/
theorem exchanges_eq_nil {s s' : Controller α} {m : Move α} (h : s'.calls = s.calls)
    (hm : m.answer? = none) : s.exchanges m s' = [] := by
  have hcalls : s'.calls = s.calls ++ [] := by rw [h, List.append_nil]
  rw [exchanges_of_calls hcalls, hm]
  rfl

@[simp]
theorem chronicle_setEnforcement (s : Controller α) (e : Engine) (f : Enforcement)
    (log : List Exchange) (launched : Bool) :
    (s.setEnforcement e f).chronicle e log launched = s.chronicle e log launched := by
  cases e <;> rfl

end Controller

/-! ## Tasks -/

/-- From a chronicle a task ends with `Q`, whatever the hosts answer and the reports on its plans
say.  It may have handed over a request to a host or a plan. -/
def Task.Yields (e : Engine) (task : Task α) (g : Chronicle α)
    (Q : Chronicle α → (j : Job α) → j.Result → Prop) : Prop :=
  match task.program, task.issued with
  | .call (.host q) next, true => g.launched = false ∧ ∀ a r, a.to? q = some r →
    (next r).Yields e { g with log := g.log ++ [.answered a] } fun g' r => Q g' task.job r
  | .call (.enforce f _) next, true => f = e ∧ g.launched = true ∧
    ∀ r, (next r).Yields e g fun g' r => Q g' task.job r
  | p, issued => issued = false ∧ p.Yields e g fun g' r => Q g' task.job r

/-- A task that has handed nothing over ends with what its program yields. -/
theorem Task.yields_of_not_issued {e : Engine} {task : Task α} {g : Chronicle α}
    {Q : Chronicle α → (j : Job α) → j.Result → Prop} (h : task.issued = false) :
    task.Yields e g Q ↔ task.program.Yields e g fun g' r => Q g' task.job r := by
  rw [Task.Yields, h]
  split
  · rename_i heq
    exact absurd heq (by simp)
  · rename_i heq
    exact absurd heq (by simp)
  · exact and_iff_right rfl

namespace Controller

variable [Quantity α]

/-- What passes between the controller and the hosts while the moves are made. -/
def transcript (s : Controller α) : List (Move α) → List Exchange
  | [] => []
  | m :: rest =>
    match s.step m with
    | some s' => s.exchanges m s' ++ s'.transcript rest
    | none => []

/-- Where a task is that runs alone with the engine `e`, on its way to `Q`: the transcript so far is
the log of its program, and after that come requests of the engine, once it has a plan. -/
structure Telling (s : Controller α) (e : Engine) (t : Nat)
    (Q : Chronicle α → (j : Job α) → j.Result → Prop) (log : List Exchange) (task : Task α)
    (base : List Exchange) (calls : List HostCall) (launched : Bool) : Prop where
  get : s.tasks[t]? = some task
  log : log = base ++ calls.map .asked
  enforces : ∀ c ∈ calls, c.Enforces
  before : launched = false → calls = [] ∧ (s.enforcement e).Over
  yields : task.Yields e (s.chronicle e base launched) Q

def Tells (s : Controller α) (e : Engine) (t : Nat)
    (Q : Chronicle α → (j : Job α) → j.Result → Prop) (log : List Exchange) : Prop :=
  ∃ task base calls launched, s.Telling e t Q log task base calls launched

variable {s s' : Controller α} {e : Engine} {t : Nat}
  {Q : Chronicle α → (j : Job α) → j.Result → Prop} {log base : List Exchange} {task : Task α}
  {calls : List HostCall} {launched : Bool}

/-- A job that begins has nothing on its log, and is on its way to what its program yields. -/
theorem tells_of_begin {j : Job α} (hbegin : s.begin j = some s')
    (hover : (s.enforcement e).Over)
    (h : (j.program s.settings).Yields e (s.chronicle e [] false) fun g r => Q g j r) :
    s'.Tells e s.tasks.length Q [] := by
  rw [begin_eq hbegin]
  have hget : (s.tasks ++ [Task.create s.settings j])[s.tasks.length]? =
      some (.create s.settings j) := List.getElem?_concat_length
  refine ⟨_, [], [], false, hget, rfl, by simp, fun _ => ⟨rfl, ?_⟩, ?_⟩
  · cases e <;> exact hover
  · refine (Task.yields_of_not_issued rfl).2 ?_
    cases e <;> exact h

/-- The controller answers a request as the chronicle does. -/
theorem perform_chronicle {q : Request α} {r : q.Answer} (hs : s.perform q = some (r, s'))
    {R : Chronicle α → q.Answer → Prop} (h : (s.chronicle e base launched).Hears e q R) :
    s'.calls = s.calls ∧ (s'.enforcement e) = s.enforcement e ∧
      R (s'.chronicle e base launched) r := by
  cases q with
  | host | enforce => cases hs
  | acquire a =>
    cases hbusy : s.busy with
    | true =>
      simp only [perform, acquire, hbusy, if_true, Option.some.injEq, Prod.mk.injEq] at hs
      obtain ⟨rfl, rfl⟩ := hs
      simp only [Chronicle.Hears, chronicle, hbusy, Bool.not_true] at h
      exact ⟨rfl, rfl, by rwa [chronicle, hbusy]⟩
    | false =>
      simp only [perform, acquire, hbusy, Bool.false_eq_true, if_false, Option.some.injEq,
        Prod.mk.injEq] at hs
      obtain ⟨rfl, rfl⟩ := hs
      simp only [Chronicle.Hears, chronicle, hbusy, Bool.not_false] at h
      refine ⟨rfl, by cases e <;> rfl, ?_⟩
      cases e <;> exact h
  | setPhase f p =>
    obtain ⟨rfl, rfl⟩ := Prod.mk.inj (Option.some.inj hs)
    cases e <;> cases f <;> exact ⟨rfl, rfl, h⟩
  | phase f =>
    obtain ⟨rfl, rfl⟩ := Prod.mk.inj (Option.some.inj hs)
    refine ⟨rfl, rfl, h _ ?_⟩
    rintro rfl
    rfl
  | inFlight | place =>
    obtain ⟨rfl, rfl⟩ := Prod.mk.inj (Option.some.inj hs)
    exact ⟨rfl, by cases e <;> rfl, h _⟩
  | note n =>
    obtain ⟨rfl, rfl⟩ := Prod.mk.inj (Option.some.inj hs)
    cases n <;> exact ⟨rfl, by cases e <;> rfl, h⟩
  | _ =>
    obtain ⟨rfl, rfl⟩ := Prod.mk.inj (Option.some.inj hs)
    exact ⟨rfl, by cases e <;> rfl, h⟩

omit [Quantity α] in
/-- The task goes on with an answer. -/
theorem Tells.proceed {s₁ : Controller α} {p : Program α task.job.Result}
    (hget : s₁.tasks[t]? = some task) (hlog : log = base ++ calls.map .asked)
    (henforces : ∀ c ∈ calls, c.Enforces)
    (hbefore : launched = false → calls = [] ∧ (s₁.enforcement e).Over)
    (h : p.Yields e (s₁.chronicle e base launched) fun g r => Q g task.job r) :
    (s₁.proceed t task p).Tells e t Q log := by
  have hlt : t < s₁.tasks.length := (List.getElem?_eq_some_iff.1 hget).1
  refine ⟨_, base, calls, launched, List.getElem?_set_self hlt, hlog, henforces, hbefore, ?_⟩
  exact (Task.yields_of_not_issued rfl).2 h

omit [Quantity α] in
/-- A request to a host is handed over, and it is the next thing on the transcript. -/
theorem Telling.issue_host (h : s.Telling e t Q log task base calls launched)
    {q : HostRequest α} {next : Except ControlError q.Answer → Program α task.job.Result}
    (hprogram : task.program = .call (.host q) next) (hissued : task.issued = false) :
    ((s.setTask t { task with issued := true }).recordCall q.call).Tells e t Q
      (log ++ [.asked q.call]) := by
  have hlt : t < s.tasks.length := (List.getElem?_eq_some_iff.1 h.get).1
  have hyields := h.yields
  rw [Task.yields_of_not_issued hissued, hprogram, Program.yields_call] at hyields
  obtain ⟨hlaunched, hnext⟩ := hyields
  obtain ⟨rfl, hover⟩ := h.before hlaunched
  refine ⟨{ task with issued := true }, base ++ [.asked q.call], [], launched,
    List.getElem?_set_self hlt, ?_, by simp, fun _ => ⟨rfl, hover⟩, ?_⟩
  · rw [h.log, List.map_nil, List.append_nil, List.append_nil]
  · simp only [Task.Yields, hprogram]
    refine ⟨hlaunched, fun a r ha => ?_⟩
    show (next r).Yields e
      { s.chronicle e base launched with log := base ++ [.asked q.call] ++ [.answered a] } _
    rw [List.append_assoc]
    exact hnext a r ha

omit [Quantity α] in
/-- A plan is handed over to the engine. -/
theorem Telling.issue_enforce (h : s.Telling e t Q log task base calls launched) {f : Engine}
    {plan : MigrationPlan} {next : EnforcementReport → Program α task.job.Result}
    (hprogram : task.program = .call (.enforce f plan) next) (hissued : task.issued = false)
    (engine : Enforcement) (batch : Nat) :
    ((s.setEnforcement f engine).setTask t { task with issued := true, batch }).Tells e t Q log := by
  have hlt : t < s.tasks.length := (List.getElem?_eq_some_iff.1 h.get).1
  have hyields := h.yields
  rw [Task.yields_of_not_issued hissued, hprogram, Program.yields_call] at hyields
  obtain ⟨rfl, hnext⟩ := hyields
  refine ⟨{ task with issued := true, batch }, base, calls, true, ?_, h.log, h.enforces, by simp, ?_⟩
  · refine List.getElem?_set_self ?_
    rwa [tasks_setEnforcement]
  · simp only [Task.Yields, hprogram]
    refine ⟨trivial, rfl, fun r => ?_⟩
    have hreported := hnext r
    have hsame : ((s.setEnforcement f engine).setTask t
        { task with issued := true, batch }).chronicle f base true =
          { s.chronicle f base launched with launched := true } :=
      chronicle_setEnforcement s f engine base true
    simp only [hprogram] at hsame
    rwa [hsame]

/-- What the task does next keeps the transcript in step with its program. -/
theorem Telling.runTask (h : s.Telling e t Q log task base calls launched)
    (hs : s.runTask t task = some s') : s'.Tells e t Q (log ++ s.exchanges (.run t) s') := by
  have hyields := h.yields
  cases hprogram : task.program with
  | done r =>
    simp only [Controller.runTask, hprogram] at hs
    exact absurd hs (by simp)
  | call q next =>
    cases q with
    | host q =>
      simp only [Controller.runTask, hprogram] at hs
      split at hs
      · exact absurd hs (by simp)
      · rename_i hissued
        rw [Bool.not_eq_true] at hissued
        have hissue := h.issue_host hprogram hissued
        simp only [hprogram] at hissue
        rw [← Option.some.inj hs]
        rwa [exchanges_of_calls rfl]
    | enforce f plan =>
      simp only [Controller.runTask, hprogram] at hs
      split at hs
      · rename_i hissued
        simp only [Task.Yields, hprogram, hissued] at hyields
        obtain ⟨r, -, rfl⟩ := Option.map_eq_some_iff.1 hs
        have hnone : s.exchanges (.run t) (s.proceed t task (next r)) = [] :=
          exchanges_eq_nil rfl rfl
        rw [hnone, List.append_nil]
        exact .proceed h.get h.log h.enforces h.before (hyields.2.2 r)
      · rename_i hissued
        rw [Bool.not_eq_true] at hissued
        have hissue := h.issue_enforce hprogram hissued ((s.enforcement f).start plan)
          (s.enforcement f).batches
        simp only [hprogram] at hissue
        have hcalls : s'.calls = s.calls := by
          rw [← Option.some.inj hs]
          exact calls_setEnforcement ..
        rw [exchanges_eq_nil hcalls rfl, List.append_nil, ← Option.some.inj hs]
        exact hissue
    | _ =>
      simp only [Controller.runTask, hprogram] at hs
      simp only [Task.Yields, hprogram, Program.yields_call] at hyields
      obtain ⟨⟨r, s₁⟩, hperform, rfl⟩ := Option.map_eq_some_iff.1 hs
      obtain ⟨hcalls, hengine, hnext⟩ := perform_chronicle hperform hyields.2
      have hget : s₁.tasks[t]? = some task := by
        rw [(perform_spec hperform).1]
        exact h.get
      have hnone : s.exchanges (.run t) (s₁.proceed t task (next r)) = [] :=
        exchanges_eq_nil hcalls rfl
      rw [hnone, List.append_nil]
      refine .proceed hget h.log h.enforces (fun hlaunched => ?_) hnext
      rw [hengine]
      exact h.before hlaunched

omit [Quantity α] in
/-- A host's answer is the next thing on the transcript. -/
theorem Telling.answer (h : s.Telling e t Q log task base calls launched) {a : HostAnswer}
    (hs : s.answerTask t task a = some s') : s'.Tells e t Q (log ++ s.exchanges (.answer t a) s') := by
  have hyields := h.yields
  unfold answerTask at hs
  split at hs
  · rename_i q next hprogram
    split at hs
    · rename_i hissued
      obtain ⟨r, hr, rfl⟩ := Option.map_eq_some_iff.1 hs
      simp only [Task.Yields, hprogram, hissued] at hyields
      obtain ⟨hlaunched, hnext⟩ := hyields
      obtain ⟨rfl, hover⟩ := h.before hlaunched
      have hcalls : (s.proceed t task (next r)).calls = s.calls ++ [] :=
        (List.append_nil s.calls).symm
      have hanswered : s.exchanges (.answer t a) (s.proceed t task (next r)) = [.answered a] :=
        exchanges_of_calls hcalls
      have hlog : log ++ [.answered a] = base ++ [.answered a] ++ [].map .asked := by
        rw [h.log, List.map_nil, List.append_nil, List.append_nil]
      rw [hanswered]
      exact .proceed h.get hlog (by simp) (fun _ => ⟨rfl, hover⟩) (hnext a r hr)
    · exact absurd hs (by simp)
  · exact absurd hs (by simp)

omit [Quantity α] in
/-- The engine has changed, and nothing else. -/
theorem Telling.engine (h : s.Telling e t Q log task base calls launched) {f : Enforcement}
    (hover : (s.enforcement e).Over → f.Over) :
    (s.setEnforcement e f).Telling e t Q log task base calls launched := by
  refine ⟨?_, h.log, h.enforces, fun hlaunched => ?_, ?_⟩
  · rw [tasks_setEnforcement]
    exact h.get
  · rw [enforcement_setEnforcement]
    exact ⟨(h.before hlaunched).1, hover (h.before hlaunched).2⟩
  · rw [chronicle_setEnforcement]
    exact h.yields

omit [Quantity α] in
/-- The engine has a plan and asks a host for something. -/
theorem Telling.record (h : s.Telling e t Q log task base calls true) {c : HostCall}
    (hc : c.Enforces) :
    (s.recordCall c).Telling e t Q (log ++ [.asked c]) task base (calls ++ [c]) true := by
  refine ⟨h.get, ?_, ?_, by simp, h.yields⟩
  · rw [h.log, List.map_append, List.append_assoc]
    rfl
  · intro d hd
    rcases List.mem_append.1 hd with hd | hd
    · exact h.enforces d hd
    · rwa [List.mem_singleton.1 hd]

omit [Quantity α] in
/-- A poll of the engine puts at most a request of the engine on the transcript. -/
theorem Telling.poll (h : s.Telling e t Q log task base calls launched) (i : Nat)
    (order : List Branch) : (s.pollWatch e i order).Tells e t Q
      (log ++ s.exchanges (.poll e i order) (s.pollWatch e i order)) := by
  have henforces := Enforcement.enforces_poll (s.enforcement e) s.now i order
  have hover : (s.enforcement e).Over → (s.enforcement e).poll s.now i order =
      Enforcement.quiet (s.enforcement e) := fun hover => hover.poll s.now i order
  unfold pollWatch
  dsimp only
  generalize (s.enforcement e).poll s.now i order = p at henforces hover
  have hengine := h.engine (f := p.engine) fun h => by rwa [hover h]
  split
  · rename_i c hcall
    cases launched with
    | false =>
      rw [hover (h.before rfl).2] at hcall
      exact absurd hcall (by simp [Enforcement.quiet])
    | true =>
      -- the request goes behind the log of the program, which asks no host from here on
      have hcalls : ((s.setEnforcement e p.engine).recordCall c).calls =
          s.calls ++ [⟨(s.setEnforcement e p.engine).now, (s.setEnforcement e p.engine).activity,
            (s.setEnforcement e p.engine).phase, c⟩] := by
        rw [recordCall, calls_setEnforcement]
      rw [exchanges_of_calls hcalls]
      exact ⟨task, base, calls ++ [c], true, hengine.record (henforces c hcall)⟩
  · rw [exchanges_eq_nil (calls_setEnforcement s e p.engine) rfl, List.append_nil]
    exact ⟨task, base, calls, launched, hengine⟩

/-- A move of the task, of its engine, of hosts or of time keeps the transcript in step with the
program of the task. -/
theorem Tells.step (h : s.Tells e t Q log) {m : Move α} (hm : m.Serves e t)
    (hs : s.step m = some s') : s'.Tells e t Q (log ++ s.exchanges m s') := by
  obtain ⟨task, base, calls, launched, h⟩ := h
  cases m with
  | run u =>
    obtain rfl : u = t := hm
    obtain ⟨task', hget', hrun⟩ := Option.bind_eq_some_iff.1 hs
    rw [h.get] at hget'
    obtain rfl := Option.some.inj hget'
    exact h.runTask hrun
  | answer u a =>
    obtain rfl : u = t := hm
    obtain ⟨task', hget', hanswer⟩ := Option.bind_eq_some_iff.1 hs
    rw [h.get] at hget'
    obtain rfl := Option.some.inj hget'
    exact h.answer hanswer
  | poll f i order =>
    obtain rfl : f = e := hm
    rw [← Option.some.inj hs]
    exact h.poll i order
  | answerMigrate f i r =>
    obtain rfl : f = e := hm
    obtain ⟨engine, hengine, rfl⟩ := Option.map_eq_some_iff.1 hs
    rw [exchanges_eq_nil (calls_setEnforcement ..) rfl, List.append_nil]
    refine ⟨task, base, calls, launched, h.engine fun hover => ?_⟩
    rw [hover.answerMigrate i r] at hengine
    exact absurd hengine (by simp)
  | answerSuspend f i r =>
    obtain rfl : f = e := hm
    obtain ⟨engine, hengine, rfl⟩ := Option.map_eq_some_iff.1 hs
    rw [exchanges_eq_nil (calls_setEnforcement ..) rfl, List.append_nil]
    refine ⟨task, base, calls, launched, h.engine fun hover => ?_⟩
    rw [hover.answerSuspend i r] at hengine
    exact absurd hengine (by simp)
  | signal f vm success =>
    obtain rfl : f = e := hm
    rw [← Option.some.inj hs]
    have hcalls : (s.signal f vm success).2.calls = s.calls := calls_setEnforcement ..
    rw [exchanges_eq_nil hcalls rfl, List.append_nil]
    exact ⟨task, base, calls, launched, h.engine fun hover => hover.signal vm success⟩
  | elapse ms =>
    simp only [Controller.step] at hs
    split at hs
    · have hcalls : s'.calls = s.calls := by rw [← Option.some.inj hs]
      rw [exchanges_eq_nil hcalls rfl, List.append_nil, ← Option.some.inj hs]
      exact ⟨task, base, calls, launched, h.get, h.log, h.enforces, h.before, h.yields⟩
    · exact absurd hs (by simp)
  | _ => exact hm.elim

/-- Wherever such moves have led, the transcript is in step with the program of the task. -/
theorem Tells.replay (h : s.Tells e t Q log) {moves : List (Move α)}
    (hmoves : ∀ m ∈ moves, m.Serves e t) (hs : s.replay moves = some s') :
    s'.Tells e t Q (log ++ s.transcript moves) := by
  induction moves generalizing s log with
  | nil =>
    rw [transcript, List.append_nil, ← Option.some.inj hs]
    exact h
  | cons m rest ih =>
    obtain ⟨u, hu, hrest⟩ := Option.bind_eq_some_iff.1 hs
    have hmoved := h.step (hmoves m List.mem_cons_self) hu
    have hend := ih hmoved (fun m' hm' => hmoves m' (List.mem_cons_of_mem m hm')) hrest
    rw [transcript, hu, ← List.append_assoc]
    exact hend

omit [Quantity α] in
/-- Where the task has ended, it has come to `Q` with a log that the transcript begins with; if it
has handed no plan over, the log is all of the transcript. -/
theorem Tells.finished (h : s.Tells e t Q log) (hget : s.tasks[t]? = some task)
    {r : task.job.Result} (hdone : task.program = .done r) :
    ∃ base calls launched, Q (s.chronicle e base launched) task.job r ∧
      log = base ++ calls.map .asked ∧ (∀ c ∈ calls, c.Enforces) ∧
        (launched = false → calls = []) := by
  obtain ⟨task', base, calls, launched, h⟩ := h
  have hget' := h.get
  rw [hget] at hget'
  obtain rfl := Option.some.inj hget'
  have hyields := h.yields
  simp only [Task.Yields, hdone] at hyields
  exact ⟨base, calls, launched, Program.yields_done.1 hyields.2, h.log, h.enforces,
    fun hlaunched => (h.before hlaunched).1⟩

end Controller

end ClusterControl
