import ClusterControl.Workflow.Outcome
import ClusterControl.Workflow.Remote

/-!
# Watches

Every migration of a plan is carried out under a watch of its own.  A watch registers its machine,
hands the migration to the destination, and waits for the first of three things: a completion
signal, an answer that settles the matter, or the deadline.  A watch that reaches its deadline first
suspends the copy on the source.  The termination flag decides between signal and deadline: whoever
sets it has won.
-/

namespace ClusterControl

/-- What has come through the channel of a watch. -/
inductive Mailbox
  | empty
  | sent (success : Bool)
  /-- The sending side is gone, and nothing was sent. -/
  | closed
  deriving DecidableEq, Repr

/-- How far a watch has come. -/
inductive Stage
  | created
  /-- Registered; the request may have been handed over, and the host may have answered. -/
  | starting (asked : Bool) (answer : Option (Except ControlError MigrationStart))
  /-- Under way on the hosts; only a signal or the deadline can end it. -/
  | running
  /-- Past the deadline, but a signal was accepted before: its value is on the way. -/
  | yielding
  /-- Past the deadline; the source was asked to suspend its copy. -/
  | suspending (answer : Option (Except ControlError Unit))
  | finished (outcome : MigrationOutcome)

/-- One migration on its way. -/
structure Watch where
  /-- The number of the plan that the migration belongs to. -/
  batch : Nat
  migration : Migration
  stage : Stage
  mailbox : Mailbox
  /-- The matter is decided, by a signal or by the deadline. -/
  terminated : Bool
  /-- The instant after which the migration counts as stuck. -/
  deadline : Nat

namespace Watch

def create (batch : Nat) (m : Migration) : Watch :=
  { batch, migration := m, stage := .created, mailbox := .empty, terminated := false, deadline := 0 }

def isFinished (w : Watch) : Bool :=
  match w.stage with
  | .finished _ => true
  | _ => false

/-- The result of a finished watch. -/
def result? (w : Watch) : Option MigrationResult :=
  match w.stage with
  | .finished outcome => some ⟨w.migration, outcome⟩
  | _ => none

/-- The sending side goes away; what was sent before still arrives. -/
def close (w : Watch) : Watch :=
  match w.mailbox with
  | .empty => { w with mailbox := .closed }
  | _ => w

end Watch

/-- The outcome that a mailbox tells of, once something has come through. -/
def Mailbox.outcome? : Mailbox → Option MigrationOutcome
  | empty => none
  | sent true => some .migrated
  | sent false => some (.failed "migration reported failure")
  | closed => some (.failed "completion channel closed")

/-- The watch has something to act on. -/
def Watch.isReady (w : Watch) (now : Nat) : Bool :=
  match w.migration.source with
  | none => !w.isFinished
  | some _ =>
    match w.stage with
    | .created => true
    | .starting asked answer =>
      w.mailbox.outcome?.isSome || answer.isSome || !asked || w.deadline ≤ now
    | .running => w.mailbox.outcome?.isSome || w.deadline ≤ now
    | .yielding => w.mailbox.outcome?.isSome
    | .suspending answer => answer.isSome
    | .finished _ => false

/-- The instant at which the watch goes on whatever happens. -/
def Watch.alarm? (w : Watch) : Option Nat :=
  match w.stage with
  | .starting .. => some w.deadline
  | .running => some w.deadline
  | _ => none

/-- What a watch can wait for at the same time. -/
inductive Branch
  | mail
  | request
  | deadline
  deriving DecidableEq, Repr

/-- Every branch, in the order a watch looks at them unless told otherwise. -/
def Branch.all : List Branch := [mail, request, deadline]

end ClusterControl
