import ClusterControl.Health.Registry
import ClusterControl.Inventory.Request
import ClusterControl.Planning.Placement
import ClusterControl.Telemetry.Event
import ClusterControl.Telemetry.Metric
import ClusterControl.Workflow.Remote

/-!
# Programs

A workflow is a program: a tree of requests, each with what follows its answer.  A program decides
what to ask for; who answers, when, and what happens in between is left to the system that runs it.
-/

namespace ClusterControl

/-- Where plans are carried out: by the controller itself, or on trial beside it. -/
inductive Engine
  | own
  | trial
  deriving DecidableEq, Repr

/-- Something to be put on record. -/
inductive Note (α : Type)
  | event (e : Event α)
  | count (series : Series) (n : Nat)
  | health (part : String) (status : Health.Status) (message : Option String)

/-- What a program may ask for. -/
inductive Request (α : Type)
  | store (q : StoreRequest α)
  | host (q : HostRequest α)
  /-- Takes the gate for an activity, unless it is taken. -/
  | acquire (a : Activity)
  /-- Gives the gate back after an activity. -/
  | release (a : Activity)
  | isBusy
  | phase (e : Engine)
  | inFlight (e : Engine)
  | setPhase (e : Engine) (p : ResolutionPhase)
  /-- Chooses hosts for new machines. -/
  | place (vms : List (Vm α)) (hosts : List (Host α))
  /-- Carries out every migration of a plan to its end. -/
  | enforce (e : Engine) (plan : MigrationPlan)
  | note (n : Note α)
  /-- Keeps what became of a submission until it is asked for. -/
  | file (r : SubmissionResponse)

/-- What a request is answered with. -/
@[reducible] def Request.Answer {α : Type} : Request α → Type
  | store q => Except StoreError q.Answer
  | host q => Except ControlError q.Answer
  | acquire _ => Bool
  | release _ => Unit
  | isBusy => Bool
  | phase _ => ResolutionPhase
  | inFlight _ => Nat
  | setPhase _ _ => Unit
  | place _ _ => PlacementPlan α
  | enforce _ _ => EnforcementReport
  | note _ => Unit
  | file _ => Unit

/-- A result, or a request and what follows each answer to it. -/
inductive Program (α ρ : Type)
  | done (r : ρ)
  | call (q : Request α) (next : q.Answer → Program α ρ)

namespace Program

variable {α ρ σ : Type}

/-- Goes on with the result of a program. -/
def bind : Program α ρ → (ρ → Program α σ) → Program α σ
  | done r, f => f r
  | call q next, f => call q fun a => bind (next a) f

instance : Monad (Program α) where
  pure := done
  bind := bind

/-- Asks one request. -/
def ask (q : Request α) : Program α q.Answer := call q done

def store (q : StoreRequest α) : Program α (Except StoreError q.Answer) := ask (.store q)

def host (q : HostRequest α) : Program α (Except ControlError q.Answer) := ask (.host q)

def event (e : Event α) : Program α Unit := ask (.note (.event e))

def count (s : Series) (n : Nat) : Program α Unit := ask (.note (.count s n))

/-- Reports a part of the controller as healthy. -/
def healthy (part : String) : Program α Unit := ask (.note (.health part .healthy none))

/-- Reports a part of the controller as degraded. -/
def degraded (part message : String) : Program α Unit :=
  ask (.note (.health part .degraded (some message)))

/-- Asks the store; its errors end the workflow. -/
def storeOrFail (q : StoreRequest α) : ExceptT WorkflowError (Program α) q.Answer :=
  ExceptT.mk do
    match ← store q with
    | .ok a => return .ok a
    | .error e => return .error (.store e)

/-- Asks a host; its errors end the workflow. -/
def hostOrFail (q : HostRequest α) : ExceptT WorkflowError (Program α) q.Answer :=
  ExceptT.mk do
    match ← host q with
    | .ok a => return .ok a
    | .error e => return .error (.control e)

/-- Runs a workflow that needs the cluster to itself: it is refused while the gate is taken, and
gives the gate back however it ends. -/
def gated (a : Activity) (body : ExceptT WorkflowError (Program α) ρ) :
    Program α (Except WorkflowError ρ) := do
  if ← ask (.acquire a) then
    let r ← body.run
    ask (.release a)
    return r
  else return .error .busy

end Program

end ClusterControl
