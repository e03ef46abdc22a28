import ClusterControl.Schedule.Cron
import ClusterControl.Workflow.Job

/-!
# Routines

What the controller does over and over in the background: looking for anomalies, saving energy,
consolidating on schedule and storing observations.  A routine does one job at a time, and says when
the next one is due.
-/

namespace ClusterControl

inductive Routine
  /-- Looks for anomalies at fixed intervals, from its start on. -/
  | detector
  /-- Looks for idle hosts some time after the last look, or when it is notified. -/
  | energySaver
  /-- Consolidates the cluster on schedule. -/
  | trigger (schedule : Schedule)
  /-- Stores observations as they come in. -/
  | monitoring
  deriving DecidableEq, Repr

namespace Routine

variable {α : Type}

/-- What the routine does when it is due; observations are stored as they come instead. -/
def job? : Routine → Option (Job α)
  | detector => some .detect
  | energySaver => some .saveEnergy
  | trigger _ => some .fire
  | monitoring => none

/-- Milliseconds until the next firing of a schedule, by a wall clock in seconds. -/
def waitFor (s : Schedule) (clock : Int) : Option Nat :=
  (s.nextAfter clock).map fun next => ((next - clock) * 1000).toNat

variable [Quantity α]

/-- When a routine that starts now is due first; `none` when it never is. -/
def firstDue (r : Routine) (c : Settings α) (clock : Int) (now : Nat) : Option Nat :=
  match r with
  | detector => some now
  | energySaver => some (now + c.idleCheckInterval * 1000)
  | trigger s => (waitFor s clock).map (now + ·)
  | monitoring => none

/-- When a routine that was due at an instant, and is done now, is due next.  Looks for anomalies
that were missed are made up for. -/
def nextDue (r : Routine) (c : Settings α) (clock : Int) (due now : Nat) : Option Nat :=
  match r with
  | detector => some (due + c.anomalyCheckInterval * 1000)
  | energySaver => some (now + c.idleCheckInterval * 1000)
  | trigger s => (waitFor s clock).map (now + ·)
  | monitoring => none

end Routine

end ClusterControl
