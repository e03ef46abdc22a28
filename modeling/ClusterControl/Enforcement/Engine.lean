import ClusterControl.Enforcement.Watch

/-!
# Enforcement

An engine carries out plans: it keeps every watch it has ever started, and a table that names the
watch of each machine under way.  Watches act in small steps, and a watch that finds several things
ready may look at them in any order.  A plan is done when all its watches are; its report lists
their outcomes by machine.
-/

namespace ClusterControl

/-- The watches of an engine, and what it needs to run them. -/
structure Enforcement where
  /-- Milliseconds from registration to the deadline. -/
  timeout : Nat
  watches : List Watch
  /-- The watch that a signal for a machine reaches. -/
  table : SortedMap Nat
  /-- Finished watches, in the order they finished. -/
  completed : List Nat
  /-- How many plans were started. -/
  batches : Nat

namespace Enforcement

def idle (timeout : Nat) : Enforcement := ⟨timeout, [], .empty, [], 0⟩

/-- How many machines are under way. -/
def inFlight (e : Enforcement) : Nat := e.table.size

def modify (e : Enforcement) (i : Nat) (f : Watch → Watch) : Enforcement :=
  { e with watches := e.watches.modify i f }

def setStage (e : Enforcement) (i : Nat) (s : Stage) : Enforcement :=
  e.modify i fun w => { w with stage := s }

/-! ## The table -/

/-- Takes a machine out of the table; the watch it named can no longer be reached. -/
def drop (e : Enforcement) (vm : VmId) : Enforcement :=
  match e.table.get? vm with
  | some j => { e with table := e.table.erase vm }.modify j Watch.close
  | none => e

/-- Enters a watch for its machine in place of any other. -/
def register (e : Enforcement) (now i : Nat) (w : Watch) : Enforcement :=
  let e := e.drop w.migration.vm
  { e with table := e.table.insert w.migration.vm i }.modify i fun w =>
    { w with stage := .starting false none, deadline := now + e.timeout }

/-- Ends a watch, and takes its machine out of the table. -/
def finish (e : Enforcement) (i : Nat) (w : Watch) (o : MigrationOutcome) : Enforcement :=
  let e := (e.setStage i (.finished o)).drop w.migration.vm
  { e with completed := e.completed ++ [i] }

/-- Delivers the completion of a machine's migration; says whether it was accepted. -/
def signal (e : Enforcement) (vm : VmId) (success : Bool) : Bool × Enforcement :=
  match e.table.get? vm with
  | none => (false, e)
  | some j =>
    let taken : Enforcement := { e with table := e.table.erase vm }
    match e.watches[j]? with
    | none => (false, taken)
    | some w =>
      if w.terminated then (false, taken.modify j Watch.close)
      else (true, taken.modify j fun w => { w with terminated := true, mailbox := .sent success })

/-! ## Steps of a watch -/

/-- What a step of a watch leaves behind: the engine, and what it asked a host for. -/
structure Progress where
  engine : Enforcement
  call : Option HostCall

/-- Nothing was asked for. -/
def quiet (e : Enforcement) : Progress := ⟨e, none⟩

/-- The deadline has passed: unless a signal was accepted before, the source is asked to suspend its
copy. -/
def force (e : Enforcement) (i : Nat) (w : Watch) (source : HostId) : Progress :=
  if w.terminated then quiet (e.setStage i .yielding)
  else
    ⟨(e.modify i fun w => { w with terminated := true, stage := .suspending none }).drop
      w.migration.vm, some (.suspend source w.migration.vm)⟩

/-- The destination has answered the request. -/
def settle (e : Enforcement) (i : Nat) (w : Watch) (r : Except ControlError MigrationStart) :
    Enforcement :=
  match r with
  | .ok .completed => (e.setStage i .running).signal w.migration.vm true |>.2
  | .ok .started => e.setStage i .running
  | .error err => e.finish i w (.failed err.message)

/-- Looks at what a registered watch waits for, in the given order, and acts on the first thing that
is ready.  Handing the request over counts as an act. -/
def select (e : Enforcement) (now i : Nat) (w : Watch) (source : HostId) (asked : Bool)
    (answer : Option (Except ControlError MigrationStart)) : List Branch → Progress
  | [] => quiet e
  | .mail :: rest =>
    match w.mailbox.outcome? with
    | some o => quiet (e.finish i w o)
    | none => select e now i w source asked answer rest
  | .request :: rest =>
    match answer with
    | some r => quiet (e.settle i w r)
    | none =>
      if asked then select e now i w source asked answer rest
      else ⟨e.setStage i (.starting true none), some (.migrate w.migration)⟩
  | .deadline :: rest =>
    if w.deadline ≤ now then e.force i w source
    else select e now i w source asked answer rest

/-- As `select`, once the request is settled: only mail and the deadline are looked at. -/
def await (e : Enforcement) (now i : Nat) (w : Watch) (source : HostId) : List Branch → Progress
  | [] => quiet e
  | .mail :: rest =>
    match w.mailbox.outcome? with
    | some o => quiet (e.finish i w o)
    | none => await e now i w source rest
  | .request :: rest => await e now i w source rest
  | .deadline :: rest =>
    if w.deadline ≤ now then e.force i w source else await e now i w source rest

/-- One step of a watch that looks at its branches in the given order. -/
def poll (e : Enforcement) (now i : Nat) (order : List Branch) : Progress :=
  match e.watches[i]? with
  | none => quiet e
  | some w =>
    match w.migration.source with
    | none =>
      if w.isFinished then quiet e
      else quiet (e.finish i w (.failed "virtual machine has no source host"))
    | some source =>
      match w.stage with
      | .created => quiet (e.register now i w)
      | .starting asked answer => e.select now i w source asked answer order
      | .running => e.await now i w source order
      | .yielding =>
        match w.mailbox.outcome? with
        | some o => quiet (e.finish i w o)
        | none => quiet e
      | .suspending (some (.ok ())) => quiet (e.finish i w .forcedSuspend)
      | .suspending (some (.error err)) =>
        quiet (e.finish i w (.failed ("forced suspend failed: " ++ err.message)))
      | .suspending none => quiet e
      | .finished _ => quiet e

/-! ## Answers of hosts -/

/-- The destination answers the request of a watch. -/
def answerMigrate (e : Enforcement) (i : Nat) (r : Except ControlError MigrationStart) :
    Option Enforcement :=
  match e.watches[i]? with
  | some w =>
    match w.stage with
    | .starting true none => some (e.setStage i (.starting true (some r)))
    | _ => none
  | none => none

/-- The source answers a watch that asked it to suspend its copy. -/
def answerSuspend (e : Enforcement) (i : Nat) (r : Except ControlError Unit) :
    Option Enforcement :=
  match e.watches[i]? with
  | some w =>
    match w.stage with
    | .suspending none => some (e.setStage i (.suspending (some r)))
    | _ => none
  | none => none

/-! ## Plans -/

/-- Starts a watch for every migration of a plan.  The number of plans started before names it. -/
def start (e : Enforcement) (plan : MigrationPlan) : Enforcement :=
  { e with watches := e.watches ++ plan.moves.map (Watch.create e.batches)
           batches := e.batches + 1 }

/-- The report on a plan, once all its watches are finished. -/
def report? (e : Enforcement) (batch : Nat) : Option EnforcementReport :=
  if (e.watches.filter (·.batch == batch)).all Watch.isFinished then
    let finished := e.completed.filterMap fun i => e.watches[i]?
    some (.ofResults ((finished.filter (·.batch == batch)).filterMap Watch.result?))
  else none

end Enforcement

end ClusterControl
