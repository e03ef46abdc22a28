import ClusterControl.Rehearsal.Timeline

/-!
# Cues

What a rehearsal can be told to do, and what it can be asked.
-/

namespace ClusterControl.Rehearsal

variable {α : Type} [Quantity α]

/-- Makes a move that is always possible. -/
def make (r : Rehearsal α) (m : Move α) : Rehearsal α := (r.move m).getD r

/-! ## Work -/

/-- Hands new machines in.  Accepted submissions are named by their number. -/
def submit (r : Rehearsal α) (vms : List (Vm α)) : Except WorkflowError TaskId × Rehearsal α :=
  let task : TaskId := "task-" ++ toString r.accepted
  match r.move (.submit task vms) with
  | some next => (.ok task, { next with accepted := r.accepted + 1 })
  | none => (.error .busy, r)

/-- Asks for the response of a finished submission, which is handed out once. -/
def collect (r : Rehearsal α) (task : TaskId) : Option SubmissionResponse × Rehearsal α :=
  ((r.controller.collect task).1, r.make (.collect task))

/-- Begins a job in the background, and gives the number of its task. -/
def begin (r : Rehearsal α) (j : Job α) : Nat × Rehearsal α :=
  (r.controller.tasks.length, r.make (.begin j))

/-- Does a job and waits for its result. -/
def perform (r : Rehearsal α) (j : Job α) : Option ((j : Job α) × j.Result) × Rehearsal α :=
  let (task, r) := r.begin j
  let r := r.await task
  (r.result? task, r)

/-- Delivers a completion signal; says whether it was accepted. -/
def signal (r : Rehearsal α) (e : Engine) (vm : VmId) (success : Bool) : Bool × Rehearsal α :=
  ((r.controller.signal e vm success).1, r.make (.signal e vm success))

/-- Carries a request out on the store, past every task. -/
def amend (r : Rehearsal α) (q : StoreRequest α) : Except StoreError q.Answer × Rehearsal α :=
  ((q.apply r.controller.store).1, r.make (.amend q))

/-- Says whether the activity was set since the last look, and what it is. -/
def look (r : Rehearsal α) : (Bool × Activity) × Rehearsal α :=
  let c := r.controller
  ((c.changes != r.seen, c.activity), { r with seen := c.changes })

/-- Offers an observation to the intake; says whether there was room. -/
def publish (r : Rehearsal α) (o : Observation α) : Bool × Rehearsal α :=
  let (taken, intake) := r.intake.offer o
  (taken, { r with intake })

/-! ## Routines -/

/-- The observations are stored by a routine already, or have been. -/
def isIngesting (r : Rehearsal α) : Bool := r.routines.any (·.routine == .monitoring)

/-- Starts a routine; one that is never due is finished at once. -/
def launch (r : Rehearsal α) (routine : Routine) : Rehearsal α :=
  let due := routine.firstDue r.settings r.clock r.now
  let stage : RoutineStage :=
    if due.isNone && routine != .monitoring then .finished else .waiting due
  { r with routines := r.routines ++ [⟨routine, stage, false, false⟩] }

/-- Tells the energy saver that was started last not to wait. -/
def notify (r : Rehearsal α) : Rehearsal α :=
  let mark := fun (l : List RoutineRun) =>
    match l.findIdx? (·.routine == .energySaver) with
    | some k => l.modify k fun run => { run with notified := true }
    | none => l
  { r with routines := (mark r.routines.reverse).reverse }

/-- Asks every routine to stop once its job is done. -/
def shutdown (r : Rehearsal α) : Rehearsal α :=
  { r with routines := r.routines.map fun run => { run with stopping := true } }

end ClusterControl.Rehearsal
