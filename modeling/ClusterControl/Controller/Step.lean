import ClusterControl.Controller.State

/-!
# Steps of a controller

Everything that can happen to a controller, as small steps: a task does the next thing its program
asks for, a host answers, a watch looks around, a signal comes in, time passes.  Which step is next
is left open, so a statement about every sequence of steps is a statement about every interleaving.
What outlasts every single move holds in every state that can be reached.
-/

namespace ClusterControl

/-- A host's answer to a request of a workflow. -/
inductive HostAnswer
  | started (r : Except ControlError (List VmId))
  | done (r : Except ControlError Unit)

/-- The answer as the request expects it; `none` when it is an answer to something else. -/
def HostAnswer.to? {α : Type} (a : HostAnswer) :
    (q : HostRequest α) → Option (Except ControlError q.Answer)
  | .start .. =>
    match a with
    | .started r => some r
    | .done _ => none
  | .control .. =>
    match a with
    | .done r => some r
    | .started _ => none
  | .powerDown .. =>
    match a with
    | .done r => some r
    | .started _ => none
  | .wakeUp .. =>
    match a with
    | .done r => some r
    | .started _ => none

/-- A step. -/
inductive Move (α : Type)
  /-- A submission comes in. -/
  | submit (task : TaskId) (vms : List (Vm α))
  /-- A job other than the rest of a submission begins. -/
  | begin (j : Job α)
  /-- A task does the next thing its program asks for. -/
  | run (task : Nat)
  /-- The store loses its backend for the next request of a task. -/
  | fault (task : Nat) (reason : String)
  | answer (task : Nat) (a : HostAnswer)
  | poll (e : Engine) (watch : Nat) (order : List Branch)
  | answerMigrate (e : Engine) (watch : Nat) (r : Except ControlError MigrationStart)
  | answerSuspend (e : Engine) (watch : Nat) (r : Except ControlError Unit)
  /-- A completion signal comes in. -/
  | signal (e : Engine) (vm : VmId) (success : Bool)
  /-- A finished submission is asked for. -/
  | collect (task : TaskId)
  /-- A request to the store that does not come from a task. -/
  | amend (q : StoreRequest α)
  /-- A resolution is declared committed. -/
  | finish (e : Engine)
  | note (n : Note α)
  | setReady (ready : Bool)
  /-- A millisecond or more passes. -/
  | elapse (ms : Nat)

namespace Controller

variable {α : Type} [Quantity α]

/-- Carries out a request that needs nobody else; `none` for one that does. -/
def perform (s : Controller α) : (q : Request α) → Option (q.Answer × Controller α)
  | .store q =>
    let (r, store) := q.apply s.store
    some (r, { s with store })
  | .host _ => none
  | .acquire a =>
    match s.acquire a with
    | some s => some (true, s)
    | none => some (false, s)
  | .release a => some ((), s.release a)
  | .isBusy => some (s.busy, s)
  | .phase e => some ((s.bench e).phase, s)
  | .inFlight e => some ((s.enforcement e).inFlight, s)
  | .setPhase e p => some ((), s.setPhase e p)
  | .place vms hosts =>
    let done := Placement.place s.settings.placementPolicy s.cursor vms hosts
    some (done.plan, { s with cursor := done.position })
  | .enforce _ _ => none
  | .note n => some ((), s.note n)
  | .file r => some ((), { s with submissions := s.submissions.insert r.task r })

def setTask (s : Controller α) (t : Nat) (task : Task α) : Controller α :=
  { s with tasks := s.tasks.set t task }

/-- Goes on with a program under the same job. -/
def proceed (s : Controller α) (t : Nat) (task : Task α) (p : Program α task.job.Result) : Controller α :=
  s.setTask t { task with program := p, issued := false }

/-- Does the next thing that a task's program asks for. -/
def runTask (s : Controller α) (t : Nat) (task : Task α) : Option (Controller α) :=
  match task.program with
  | .done _ => none
  | .call (.host q) _ =>
    if task.issued then none
    else some ((s.setTask t { task with issued := true }).recordCall q.call)
  | .call (.enforce e plan) next =>
    if task.issued then
      ((s.enforcement e).report? task.batch).map fun r => s.proceed t task (next r)
    else
      let f := s.enforcement e
      some ((s.setEnforcement e (f.start plan)).setTask t
        { task with issued := true, batch := f.batches })
  | .call q next => (s.perform q).map fun r => r.2.proceed t task (next r.1)

/-- The next request of a task goes to a store without a backend. -/
def faultTask (s : Controller α) (t : Nat) (task : Task α) (reason : String) : Option (Controller α) :=
  match task.program with
  | .call (.store _) next => some (s.proceed t task (next (.error (.backend reason))))
  | _ => none

/-- A host answers the request that a task has handed over. -/
def answerTask (s : Controller α) (t : Nat) (task : Task α) (a : HostAnswer) : Option (Controller α) :=
  match task.program with
  | .call (.host q) next =>
    if task.issued then (a.to? q).map fun r => s.proceed t task (next r) else none
  | _ => none

def pollWatch (s : Controller α) (e : Engine) (i : Nat) (order : List Branch) : Controller α :=
  let p := (s.enforcement e).poll s.now i order
  let s := s.setEnforcement e p.engine
  match p.call with
  | some c => s.recordCall c
  | none => s

/-- Accepts a submission, unless the gate is taken. -/
def submit (s : Controller α) (task : TaskId) (vms : List (Vm α)) : Option (Controller α) :=
  (s.acquire .submitting).map fun s =>
    let s := s.note (.count .submissions 1)
    { s with tasks := s.tasks ++ [.create s.settings (.submission task vms)] }

/-- Begins a job; the rest of a submission only begins with the submission itself. -/
def begin (s : Controller α) (j : Job α) : Option (Controller α) :=
  match j with
  | .submission .. => none
  | j => some { s with tasks := s.tasks ++ [.create s.settings j] }

/-- Delivers a completion signal; says whether it was accepted. -/
def signal (s : Controller α) (e : Engine) (vm : VmId) (success : Bool) : Bool × Controller α :=
  let (accepted, f) := (s.enforcement e).signal vm success
  (accepted, s.setEnforcement e f)

/-- The controller after a move; `none` when the move is not possible. -/
def step (s : Controller α) : Move α → Option (Controller α)
  | .submit task vms => s.submit task vms
  | .begin j => s.begin j
  | .run t => s.tasks[t]?.bind fun task => s.runTask t task
  | .fault t reason => s.tasks[t]?.bind fun task => s.faultTask t task reason
  | .answer t a => s.tasks[t]?.bind fun task => s.answerTask t task a
  | .poll e i order => some (s.pollWatch e i order)
  | .answerMigrate e i r => ((s.enforcement e).answerMigrate i r).map (s.setEnforcement e)
  | .answerSuspend e i r => ((s.enforcement e).answerSuspend i r).map (s.setEnforcement e)
  | .signal e vm success => some (s.signal e vm success).2
  | .collect task => some (s.collect task).2
  | .amend q => some { s with store := (q.apply s.store).2 }
  | .finish e => some (s.setPhase e .idle)
  | .note n => some (s.note n)
  | .setReady ready => some { s with health := s.health.setReady ready }
  | .elapse ms => if 0 < ms then some { s with now := s.now + ms } else none

/-- The states that a sequence of moves can lead to. -/
inductive Reachable (s : Controller α) : Controller α → Prop
  | refl : Reachable s s
  | step {t u : Controller α} (m : Move α) : Reachable s t → t.step m = some u → Reachable s u

namespace Reachable

/-- A sequence of moves may go on from where another has led. -/
theorem trans {s t u : Controller α} (h : Reachable s t) (k : Reachable t u) : Reachable s u := by
  induction k with
  | refl => exact h
  | step m _ moved ih => exact .step m ih moved

/-- What holds at first and outlasts every single move holds in every state that is reached. -/
theorem invariant {P : Controller α → Prop} {s t : Controller α} (h : Reachable s t) (first : P s)
    (kept : ∀ {u v : Controller α} (m : Move α), P u → u.step m = some v → P v) : P t := by
  induction h with
  | refl => exact first
  | step m _ moved ih => exact kept m ih moved

end Reachable

end Controller

end ClusterControl
