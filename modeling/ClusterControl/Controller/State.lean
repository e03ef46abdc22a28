import ClusterControl.Enforcement.Engine
import ClusterControl.Workflow.Job

/-!
# The state of a controller

The store, the gate in front of workflows that change the cluster, the engines that carry plans out,
the tasks under way, and the records of what was done.
-/

namespace ClusterControl

/-- A job on its way. -/
structure Task (α : Type) where
  job : Job α
  program : Program α job.Result
  /-- The first request of the program is handed over and not answered yet. -/
  issued : Bool
  /-- The number of the plan that the task waits for. -/
  batch : Nat

namespace Task

variable {α : Type}

def result? (t : Task α) : Option t.job.Result :=
  match t.program with
  | .done r => some r
  | .call _ _ => none

def isFinished (t : Task α) : Bool := t.result?.isSome

variable [Quantity α]

/-- A job that has not begun. -/
def create (c : Settings α) (j : Job α) : Task α := ⟨j, j.program c, false, 0⟩

end Task

/-- An engine with the phase of the resolution it serves. -/
structure Bench where
  phase : ResolutionPhase
  enforcement : Enforcement

/-- A request to a host on record: when it was made and what the controller was doing. -/
structure CallRecord where
  time : Nat
  activity : Activity
  phase : ResolutionPhase
  call : HostCall
  deriving DecidableEq

structure Controller (α : Type) where
  settings : Settings α
  store : Store α
  /-- The gate is taken. -/
  busy : Bool
  activity : Activity
  /-- How often the activity was set. -/
  changes : Nat
  own : Bench
  trial : Bench
  /-- Where the next cyclic placement starts. -/
  cursor : Nat
  submissions : SortedMap SubmissionResponse
  tasks : List (Task α)
  /-- Milliseconds since the start. -/
  now : Nat
  health : Health.Registry
  metrics : Metrics
  /-- What was put on record, in order. -/
  events : List (Event α)
  calls : List CallRecord

namespace Controller

variable {α : Type}

/-- A controller that has just started. -/
def start (c : Settings α) (s : Store α) : Controller α :=
  let bench : Bench := ⟨.idle, .idle (c.enforcement.migrationTimeoutSecs * 1000)⟩
  { settings := c, store := s, busy := false, activity := .idle, changes := 0, own := bench
    trial := bench, cursor := 0, submissions := .empty, tasks := [], now := 0
    health := Health.Registry.empty.registerAll 0 Health.allParts, metrics := .empty, events := []
    calls := [] }

def bench (s : Controller α) : Engine → Bench
  | .own => s.own
  | .trial => s.trial

def setBench (s : Controller α) : Engine → Bench → Controller α
  | .own, b => { s with own := b }
  | .trial, b => { s with trial := b }

def enforcement (s : Controller α) (e : Engine) : Enforcement := (s.bench e).enforcement

def setEnforcement (s : Controller α) (e : Engine) (f : Enforcement) : Controller α :=
  s.setBench e { s.bench e with enforcement := f }

def phase (s : Controller α) : ResolutionPhase := s.own.phase

def setPhase (s : Controller α) (e : Engine) (p : ResolutionPhase) : Controller α :=
  s.setBench e { s.bench e with phase := p }

/-- Puts a request to a host on record. -/
def recordCall (s : Controller α) (c : HostCall) : Controller α :=
  { s with calls := s.calls ++ [⟨s.now, s.activity, s.phase, c⟩] }

def report (s : Controller α) (part : String) (status : Health.Status) (message : Option String) :
    Controller α :=
  { s with health := s.health.report (s.now / 1000) part status message }

def note (s : Controller α) : Note α → Controller α
  | .event e => { s with events := s.events ++ [e] }
  | .count series n => { s with metrics := s.metrics.add series n }
  | .health part status message => s.report part status message

/-! ## The gate -/

/-- Takes the gate for an activity; `none` when it is taken. -/
def acquire (s : Controller α) (a : Activity) : Option (Controller α) :=
  if s.busy then none
  else some { s with busy := true, activity := a, changes := s.changes + 1
                     metrics := s.metrics.set .busy 1 }

/-- Gives the gate back after an activity. -/
def release (s : Controller α) (a : Activity) : Controller α :=
  { s with busy := false, activity := .idle, changes := s.changes + 1
           metrics := (s.metrics.add (.workflowDuration a) 1).set .busy 0 }

/-! ## Submissions -/

/-- The response of a finished submission is handed out once. -/
def collect (s : Controller α) (task : TaskId) : Option SubmissionResponse × Controller α :=
  (s.submissions.get? task, { s with submissions := s.submissions.erase task })

/-- The machines of all hosts, and the controller's activity. -/
def status (s : Controller α) (hosts : HostCounts) : ControllerStatus :=
  ⟨s.busy, s.activity, s.phase, hosts⟩

end Controller

end ClusterControl
