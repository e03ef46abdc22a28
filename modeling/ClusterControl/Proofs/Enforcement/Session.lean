import ClusterControl.Enforcement.Engine

/-!
# Sessions of an engine

A session carries out one plan after another and keeps a log of what could be seen of it from
outside: which machines were registered, what hosts were asked for, which completion signals came
and whether they were accepted.  What happens next is left open: a watch looks around in any order,
a host answers or stays silent, a signal comes for any machine, time passes.

* `Enforcement.Session.Runs` are the sessions that any sequence of acts leads to.
* `Enforcement.AtRest` are the engines that plans leave behind which are carried out one at a time.
-/

namespace ClusterControl

/-- What moves come to that are recorded one after the other. -/
def MigrationPlan.recorded (moves : List Migration) : MigrationPlan :=
  moves.foldl (fun (p : MigrationPlan) m => p.add m.vm m.source m.destination) .empty

/-- The moves of the plan are the net effect of some moves that were recorded. -/
def MigrationPlan.Built (p : MigrationPlan) : Prop :=
  ∃ moves, p.migrations = (recorded moves).migrations

namespace Enforcement

/-! ## The log -/

/-- Something that an engine did, or that was done to it. -/
inductive Deed
  /-- A machine was entered in the table. -/
  | registered (vm : VmId)
  | called (c : HostCall)
  /-- A completion signal came in, and was accepted or not. -/
  | signalled (vm : VmId) (success accepted : Bool)
  deriving DecidableEq

/-- Deeds with the time of each, in order. -/
abbrev Log := List (Nat × Deed)

namespace Log

/-- When a machine was registered. -/
def registrations (l : Log) (v : VmId) : List Nat :=
  l.filterMap fun x =>
    match x.2 with
    | .registered u => if u = v then some x.1 else none
    | _ => none

/-- When hosts were asked to take a machine on. -/
def requests (l : Log) (v : VmId) : List Nat :=
  l.filterMap fun x =>
    match x.2 with
    | .called (.migrate m) => if m.vm = v then some x.1 else none
    | _ => none

/-- When hosts were asked to suspend their copy of a machine. -/
def suspensions (l : Log) (v : VmId) : List Nat :=
  l.filterMap fun x =>
    match x.2 with
    | .called (.suspend _ u) => if u = v then some x.1 else none
    | _ => none

/-- The signals for a machine that were accepted. -/
def acceptances (l : Log) (v : VmId) : List Bool :=
  l.filterMap fun x =>
    match x.2 with
    | .signalled u success true => if u = v then some success else none
    | _ => none

variable (l k : Log) (v : VmId)

@[simp]
theorem registrations_append :
    Log.registrations (l ++ k) v = l.registrations v ++ k.registrations v :=
  List.filterMap_append

@[simp]
theorem requests_append : Log.requests (l ++ k) v = l.requests v ++ k.requests v :=
  List.filterMap_append

@[simp]
theorem suspensions_append : Log.suspensions (l ++ k) v = l.suspensions v ++ k.suspensions v :=
  List.filterMap_append

@[simp]
theorem acceptances_append : Log.acceptances (l ++ k) v = l.acceptances v ++ k.acceptances v :=
  List.filterMap_append

end Log

/-- What a watch did that is no request to a host, read off its stage before and after a poll: it
registered its machine, or it passed on that the migration was over at once, which counts as a
signal. -/
def deeds (accepted : Bool) (w w' : Watch) : List Deed :=
  match w.stage, w'.stage with
  | .created, .starting .. => [.registered w.migration.vm]
  | .starting _ (some (.ok .completed)), .running => [.signalled w.migration.vm true accepted]
  | _, _ => []

/-- Everything that a poll did. -/
def pollDeeds (e : Enforcement) (now i : Nat) (order : List Branch) : List Deed :=
  let p := e.poll now i order
  match e.watches[i]?, p.engine.watches[i]? with
  | some w, some w' =>
    deeds ((e.setStage i .running).signal w.migration.vm true).1 w w' ++
      p.call.toList.map .called
  | _, _ => []

/-! ## Acts -/

/-- An engine at some time, with its log. -/
structure Session where
  engine : Enforcement
  now : Nat
  log : Log

/-- Something that happens to a session. -/
inductive Act
  | poll (watch : Nat) (order : List Branch)
  | answerMigrate (watch : Nat) (r : Except ControlError MigrationStart)
  | answerSuspend (watch : Nat) (r : Except ControlError Unit)
  | signal (vm : VmId) (success : Bool)
  | elapse (ms : Nat)

namespace Session

/-- A plan is about to be carried out. -/
def begin (e : Enforcement) (plan : MigrationPlan) (now : Nat) : Session := ⟨e.start plan, now, []⟩

/-- The engine has changed, and the deeds are put on the log. -/
def goOn (s : Session) (e : Enforcement) (ds : List Deed) : Session :=
  { s with engine := e, log := s.log ++ ds.map (s.now, ·) }

/-- The session after an act; `none` when the act is not possible. -/
def step (s : Session) : Act → Option Session
  | .poll i order =>
    some (s.goOn (s.engine.poll s.now i order).engine (s.engine.pollDeeds s.now i order))
  | .answerMigrate i r => (s.engine.answerMigrate i r).map fun e => s.goOn e []
  | .answerSuspend i r => (s.engine.answerSuspend i r).map fun e => s.goOn e []
  | .signal vm success =>
    let r := s.engine.signal vm success
    some (s.goOn r.2 [.signalled vm success r.1])
  | .elapse ms => some { s with now := s.now + ms }

/-- The sessions that a sequence of acts can lead to. -/
inductive Runs (s : Session) : Session → Prop
  | refl : Runs s s
  | step {t u : Session} (a : Act) : Runs s t → t.step a = some u → Runs s u

end Session

/-- The engines that have carried out plans one at a time, each to its report. -/
inductive AtRest (timeout : Nat) : Enforcement → Prop
  | idle : AtRest timeout (idle timeout)
  | served {e : Enforcement} {plan : MigrationPlan} {now : Nat} {s : Session}
    {r : EnforcementReport} : AtRest timeout e → plan.Built → Session.Runs (.begin e plan now) s →
    s.engine.report? e.batches = some r → AtRest timeout s.engine

end Enforcement

end ClusterControl
