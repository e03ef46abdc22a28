import ClusterControl.Controller.Intake
import ClusterControl.Controller.Routine
import ClusterControl.Rehearsal.Script

/-!
# Rehearsals

A rehearsal is a controller with everything around it: hosts that answer by a script, a queue of
observations, routines in the background, and a clock that only moves when nothing else can.
-/

namespace ClusterControl

namespace Rehearsal

/-- What comes back from a host. -/
inductive Reply
  /-- The answer to the request of a task; what it says is up to the script when it arrives. -/
  | host (task : Nat)
  | migrate (e : Engine) (watch : Nat) (r : Except ControlError MigrationStart)
  | suspend (e : Engine) (watch : Nat) (r : Except ControlError Unit)

/-- A reply on its way. -/
structure Delivery where
  due : Nat
  reply : Reply

/-- How far a routine has come. -/
inductive RoutineStage
  /-- Waits until it is due; `none` waits for something other than time. -/
  | waiting (due : Option Nat)
  /-- Works on a job that was due at an instant. -/
  | working (task due : Nat)
  | finished
  deriving DecidableEq, Repr

/-- A routine on its way. -/
structure RoutineRun where
  routine : Routine
  stage : RoutineStage
  /-- It has been asked to stop. -/
  stopping : Bool
  /-- It has been asked not to wait. -/
  notified : Bool
  deriving DecidableEq, Repr

def RoutineRun.isFinished (r : RoutineRun) : Bool := r.stage == .finished

end Rehearsal

open Rehearsal in
structure Rehearsal (α : Type) where
  controller : Controller α
  script : Script
  /-- Seconds since 1970 that the wall clock shows; it stands still. -/
  clock : Int
  deliveries : List Delivery
  routines : List RoutineRun
  intake : Intake α
  /-- How many submissions were accepted. -/
  accepted : Nat
  /-- The changes of activity that were looked at. -/
  seen : Nat

namespace Rehearsal

variable {α : Type}

/-- Midnight of 1 January 2025. -/
def standardClock : Int := Date.dayNumber ⟨2025, 1, 1⟩ * 86400

/-- A controller that has just started among the given hosts. -/
def start (c : Settings α) (hosts : List (Host α)) (script : Script) : Rehearsal α :=
  { controller := .start c (Store.ofHosts hosts), script, clock := standardClock, deliveries := []
    routines := [], intake := .empty c.monitoring.queueSize, accepted := 0, seen := 0 }

def now (r : Rehearsal α) : Nat := r.controller.now

def settings (r : Rehearsal α) : Settings α := r.controller.settings

/-- Lets a reply arrive some time from now. -/
def expect (r : Rehearsal α) (delay : Nat) (reply : Reply) : Rehearsal α :=
  { r with deliveries := r.deliveries ++ [⟨r.now + delay, reply⟩] }

/-- Takes the first reply out that has arrived and is of a kind. -/
def receive? (r : Rehearsal α) (p : Reply → Bool) : Option (Reply × Rehearsal α) :=
  let arrived := fun (d : Delivery) => d.due ≤ r.now && p d.reply
  (r.deliveries.find? arrived).map fun d =>
    (d.reply, { r with deliveries := r.deliveries.eraseP arrived })

/-- The job of a task and its result, once it is done. -/
def result? (r : Rehearsal α) (task : Nat) : Option ((j : Job α) × j.Result) :=
  r.controller.tasks[task]?.bind fun t => t.result?.map fun result => ⟨t.job, result⟩

def isFinished (r : Rehearsal α) (task : Nat) : Bool := (r.result? task).isSome

end Rehearsal

end ClusterControl
