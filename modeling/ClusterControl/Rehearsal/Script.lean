import ClusterControl.Controller.Step

/-!
# Scripts

A script says how the hosts of a rehearsal answer, and when the store loses its backend.  By default
every host agrees at once.
-/

namespace ClusterControl.Rehearsal

/-- How the destination of a migration behaves. -/
inductive Manner
  | complete
  /-- The migration is under way; its completion has to be signalled. -/
  | pending
  /-- The request is never answered. -/
  | hang
  | reject
  /-- Behaves in another manner some milliseconds later. -/
  | slow (ms : Nat) (manner : Manner)
  deriving DecidableEq, Repr

namespace Manner

/-- The manner that words separated by colons describe; unknown words mean agreement. -/
def ofWords : List String → Manner
  | "pending" :: [] => pending
  | "hang" :: [] => hang
  | "reject" :: [] => reject
  | "slow" :: ms :: rest =>
    match ms.toNat? with
    | some n => slow n (ofWords rest)
    | none => complete
  | _ => complete

def ofText (text : String) : Manner := ofWords (text.splitOn ":")

/-- When the answer comes, if ever, and what it is. -/
def answer (destination : HostId) : Manner → Option (Nat × Except ControlError MigrationStart)
  | complete => some (0, .ok .completed)
  | pending => some (0, .ok .started)
  | hang => none
  | reject => some (0, .error (.rejected destination "scripted rejection"))
  | slow ms m => (answer destination m).map fun a => (ms + a.1, a.2)

end Manner

/-- Requests of one kind to the store first pass some times, and then fail some times. -/
structure Fault where
  operation : StoreOperation
  skip : Nat
  count : Nat
  reason : String
  deriving DecidableEq, Repr

structure Script where
  /-- How a machine without a manner of its own migrates. -/
  standard : Manner
  migrations : SortedMap Manner
  unreachable : List HostId
  rejecting : List HostId
  suspendFails : List VmId
  /-- Machines that a host leaves out when it is asked to start them. -/
  notStarted : List VmId
  /-- Machines that a host claims to have started without being asked. -/
  extraStarted : List VmId
  startDelay : Nat
  powerDelay : Nat
  faults : List Fault

namespace Script

/-- Everybody agrees at once. -/
def agreeable : Script :=
  { standard := .complete, migrations := .empty, unreachable := [], rejecting := []
    suspendFails := [], notStarted := [], extraStarted := [], startDelay := 0, powerDelay := 0
    faults := [] }

instance : Inhabited Script := ⟨agreeable⟩

/-- Why a host does nothing at all, if it does nothing. -/
def refusal (s : Script) (host : HostId) : Option ControlError :=
  if s.unreachable.contains host then some (.unreachable host "scripted failure")
  else if s.rejecting.contains host then some (.rejected host "scripted rejection")
  else none

/-- When a migration is answered, if ever, and how. -/
def migrate (s : Script) (m : Migration) : Option (Nat × Except ControlError MigrationStart) :=
  match s.refusal m.destination with
  | some e => some (0, .error e)
  | none => ((s.migrations.get? m.vm).getD s.standard).answer m.destination

/-- How a source answers when it is asked to suspend its copy. -/
def suspend (s : Script) (source : HostId) (vm : VmId) : Except ControlError Unit :=
  if s.suspendFails.contains vm then .error (.rejected source "suspend refused") else .ok ()

/-- How long a request to a host takes. -/
def delay {α : Type} (s : Script) : HostRequest α → Nat
  | .start .. => s.startDelay
  | .control .. => 0
  | .powerDown .. => s.powerDelay
  | .wakeUp .. => s.powerDelay

/-- How a request to a host is answered. -/
def answer {α : Type} (s : Script) (q : HostRequest α) : HostAnswer :=
  let plain := fun (host : HostId) => HostAnswer.done (match s.refusal host with
    | some e => .error e
    | none => .ok ())
  match q with
  | .start host vms => .started (match s.refusal host with
    | some e => .error e
    | none => .ok ((vms.map Vm.id).filter (fun v => !s.notStarted.contains v) ++ s.extraStarted))
  | .control host _ _ => plain host
  | .powerDown host _ => plain host
  | .wakeUp host => plain host

/-- The next request of a kind: why it fails, if it does, and the script after it. -/
def nextFault (s : Script) (o : StoreOperation) : Option String × Script :=
  match s.faults.find? fun f => f.operation == o with
  | none => (none, s)
  | some f =>
    let put := fun (g : Fault) =>
      { s with faults := s.faults.map fun h => if h.operation == o then g else h }
    if 0 < f.skip then (none, put { f with skip := f.skip - 1 })
    else if 0 < f.count then (some f.reason, put { f with count := f.count - 1 })
    else (none, s)

end Script

end ClusterControl.Rehearsal
