import ClusterControl.Rehearsal.State

/-!
# The course of a rehearsal

Tasks, watches and routines act in turns: whoever acts goes on until it has to wait.  When everybody
waits, the clock moves to the next instant at which something is due.
-/

namespace ClusterControl.Rehearsal

/-- Who can act. -/
inductive Agent
  | task (t : Nat)
  | watch (e : Engine) (i : Nat)
  | routine (k : Nat)
  deriving DecidableEq, Repr

variable {α : Type}

/-- The places in a list whose items are of a kind. -/
def places {β : Type} (p : β → Bool) (l : List β) : List Nat :=
  (l.zipIdx.filter fun e => p e.1).map (·.2)

/-- Everybody who is not done, in the order of their turns. -/
def agents (r : Rehearsal α) : List Agent :=
  let watches := fun (e : Engine) =>
    (places (!·.isFinished) (r.controller.enforcement e).watches).map (Agent.watch e)
  (places (!·.isFinished) r.controller.tasks).map .task ++ watches .own ++ watches .trial
    ++ (places (!·.isFinished) r.routines).map .routine

variable [Quantity α]

/-- Lets the controller make a move, if it can. -/
def move (r : Rehearsal α) (m : Move α) : Option (Rehearsal α) :=
  (r.controller.step m).map fun controller => { r with controller }

/-! ## Acting -/

/-- A task takes its next step; its requests to the store and to hosts go by the script. -/
def actTask (r : Rehearsal α) (t : Nat) : Option (Rehearsal α) := do
  let task ← r.controller.tasks[t]?
  match task.program with
  | .done _ => none
  | .call (.store q) _ =>
    match r.script.nextFault q.operation with
    | (some reason, script) => ({ r with script } : Rehearsal α).move (.fault t reason)
    | (none, script) => ({ r with script } : Rehearsal α).move (.run t)
  | .call (.host q) _ =>
    if task.issued then
      let (_, r) ← r.receive? fun reply => match reply with
        | .host u => u == t
        | _ => false
      r.move (.answer t (r.script.answer q))
    else return (← r.move (.run t)).expect (r.script.delay q) (.host t)
  | .call _ _ => r.move (.run t)

/-- The reply to what a watch has asked for, if one ever comes. -/
def expectCall (r : Rehearsal α) (e : Engine) (i : Nat) : HostCall → Rehearsal α
  | .migrate m =>
    match r.script.migrate m with
    | some (delay, answer) => r.expect delay (.migrate e i answer)
    | none => r
  | .suspend source vm => r.expect 0 (.suspend e i (r.script.suspend source vm))
  | _ => r

/-- The order in which watches look around.  It matters only when several things come at one instant,
and then any order may be taken. -/
def outlook : List Branch := [.deadline, .request, .mail]

/-- A watch takes a reply, or looks around. -/
def actWatch (r : Rehearsal α) (e : Engine) (i : Nat) : Option (Rehearsal α) :=
  let mine := fun (reply : Reply) => match reply with
    | .migrate f j _ => f == e && j == i
    | .suspend f j _ => f == e && j == i
    | .host _ => false
  match r.receive? mine with
  | some (.migrate _ _ answer, rest) => some ((rest.move (.answerMigrate e i answer)).getD rest)
  | some (.suspend _ _ answer, rest) => some ((rest.move (.answerSuspend e i answer)).getD rest)
  | some (.host _, rest) => some rest
  | none => do
    let f := r.controller.enforcement e
    let w ← f.watches[i]?
    if w.isReady r.now then
      let rest ← r.move (.poll e i outlook)
      return match (f.poll r.now i outlook).call with
        | some c => rest.expectCall e i c
        | none => rest
    else none

def setStage (r : Rehearsal α) (k : Nat) (s : RoutineStage) : Rehearsal α :=
  { r with routines := r.routines.modify k fun run => { run with stage := s, notified := false } }

/-- A routine begins a job. -/
def work (r : Rehearsal α) (k : Nat) (due : Nat) (j : Job α) : Option (Rehearsal α) := do
  let task := r.controller.tasks.length
  return (← r.move (.begin j)).setStage k (.working task due)

/-- A routine stops, begins the job that is due, or sees that its job is done. -/
def actRoutine (r : Rehearsal α) (k : Nat) : Option (Rehearsal α) := do
  let run ← r.routines[k]?
  match run.stage with
  | .finished => none
  | .working task due =>
    if r.isFinished task then
      match run.routine, run.routine.nextDue r.settings r.clock due r.now with
      | .monitoring, _ => return r.setStage k (.waiting none)
      | _, some next =>
        return { r with routines := r.routines.modify k fun run =>
          { run with stage := .waiting (some next) } }
      | _, none => return r.setStage k .finished
    else none
  | .waiting due =>
    if run.stopping then
      let r := if run.routine == .monitoring then { r with intake := r.intake.close } else r
      return r.setStage k .finished
    else
      match run.routine.job? with
      | none =>
        let (o, intake) ← r.intake.take?
        ({ r with intake } : Rehearsal α).work k r.now (.observe o)
      | some job =>
        if run.notified || due.any (· ≤ r.now) then r.work k (due.getD r.now) job else none

def act (r : Rehearsal α) : Agent → Option (Rehearsal α)
  | .task t => r.actTask t
  | .watch e i => r.actWatch e i
  | .routine k => r.actRoutine k

/-! ## Settling -/

/-- Who can act next, and what comes of it: the one that acted last, one that goes first, or the
next in turn. -/
def next? (r : Rehearsal α) (last first : Option Agent) : Option (Agent × Rehearsal α) :=
  let attempt := fun a => (r.act a).map (a, ·)
  last.bind attempt <|> first.bind attempt <|> r.agents.findSome? attempt

/-- Lets everybody act until all wait; the number bounds the steps. -/
def settleWithin : Nat → Option Agent → Option Agent → Rehearsal α → Rehearsal α
  | 0, _, _, r => r
  | steps + 1, last, first, r =>
    match r.next? last first with
    | some (a, r) => settleWithin steps (some a) first r
    | none => r

/-- More steps than a rehearsal takes at one instant. -/
def patience : Nat := 1000000000

/-- Lets everybody act until all wait. -/
def settle (r : Rehearsal α) (first : Option Agent) : Rehearsal α :=
  settleWithin patience none first r

/-! ## Time -/

/-- Every instant that somebody waits for. -/
def alarms (r : Rehearsal α) : List Nat :=
  let watches := fun (e : Engine) =>
    (r.controller.enforcement e).watches.filterMap Watch.alarm?
  let routines := r.routines.filterMap fun run =>
    match run.stage with
    | .waiting due => due
    | _ => none
  r.deliveries.map (·.due) ++ watches .own ++ watches .trial ++ routines

/-- The next instant at which something is due. -/
def nextAlarm? (r : Rehearsal α) : Option Nat := (r.alarms.filter (r.now < ·)).min?

/-- Moves the clock to an instant. -/
def elapseTo (r : Rehearsal α) (t : Nat) : Rehearsal α :=
  (r.move (.elapse (t - r.now))).getD r

/-- Lets time pass until a task is done; the number bounds the instants. -/
def awaitWithin : Nat → Nat → Rehearsal α → Rehearsal α
  | 0, _, r => r
  | instants + 1, t, r =>
    let r := r.settle (some (.task t))
    if r.isFinished t then r
    else
      match r.nextAlarm? with
      | some due => awaitWithin instants t (r.elapseTo due)
      | none => r

/-- Lets time pass until a task is done, or nothing can happen any more. -/
def await (r : Rehearsal α) (t : Nat) : Rehearsal α := awaitWithin patience t r

/-- Lets time pass up to an instant; what is due then still waits.  The number bounds the instants on
the way. -/
def advanceWithin : Nat → Nat → Rehearsal α → Rehearsal α
  | 0, _, r => r
  | instants + 1, target, r =>
    let r := r.settle none
    match r.nextAlarm? with
    | some due =>
      if due < target then advanceWithin instants target (r.elapseTo due) else r.elapseTo target
    | none => r.elapseTo target

/-- Lets milliseconds pass. -/
def advance (r : Rehearsal α) (ms : Nat) : Rehearsal α :=
  advanceWithin patience (r.now + ms) r

end ClusterControl.Rehearsal
