import ClusterControl.Workflow.Program

/-!
# Submission of new machines

A batch is sifted for ids that are placed already or repeated, the rest is placed on hosts that are
not passive, each chosen host is asked once to start its share, and what came of every machine is
recorded.  A machine that could not be started or placed is kept as unassigned, marked with the
reason.
-/

namespace ClusterControl.Submission

variable {α : Type}

/-- What became of the machines looked at so far. -/
structure Tally where
  placed : List PlacedVm
  failed : List FailedVm
  deriving DecidableEq, Repr

namespace Tally

def empty : Tally := ⟨[], []⟩

def place (t : Tally) (vm : VmId) (host : HostId) : Tally := { t with placed := t.placed ++ [⟨vm, host⟩] }

def fail (t : Tally) (vm : VmId) (code : VmErrorCode) : Tally :=
  { t with failed := t.failed ++ [⟨vm, code⟩] }

end Tally

/-- The machine is on a host already; a store that cannot tell counts as no. -/
def isPlaced (vm : VmId) : Program α Bool := do
  match ← Program.store (.findVm vm) with
  | .ok (some found) => return found.hostId.isSome
  | _ => return false

/-- A machine as it enters the cluster. -/
def fresh (vm : Vm α) : Vm α := { vm with hostId := none, status := .pending, errorCode := none }

/-- Splits a batch into the machines to place and the refused ones: ids that are placed already or
that came before. -/
def sift (seen : List VmId) (t : Tally) : List (Vm α) → Program α (List (Vm α) × Tally)
  | [] => return ([], t)
  | vm :: rest => do
    let known ← if seen.contains vm.id then pure true else isPlaced vm.id
    if known then
      Program.event (.vmUnplaced vm.id .duplicateId)
      sift (vm.id :: seen) (t.fail vm.id .duplicateId) rest
    else
      let (chosen, t) ← sift (vm.id :: seen) t rest
      return (fresh vm :: chosen, t)

/-- Keeps a machine that could not be brought up. -/
def recordFailure (t : Tally) (vm : Vm α) (code : VmErrorCode) : Program α Tally := do
  let _ ← Program.store (.addVm ((Vm.new vm.id vm.requested 0).failed code))
  Program.event (.vmUnplaced vm.id code)
  return t.fail vm.id code

/-- Records a machine that its host has started. -/
def recordStart (t : Tally) (host : HostId) (vm : Vm α) : Program α Tally := do
  match ← Program.store (.addVm { vm with hostId := some host, status := .running }) with
  | .ok true =>
    Program.event (.vmPlaced vm.id host vm.requested)
    return t.place vm.id host
  | _ => recordFailure t vm .startFailed

/-- Records each machine of a host, given the ids that the host started. -/
def recordShare (host : HostId) (started : List VmId) (t : Tally) : List (Vm α) → Program α Tally
  | [] => return t
  | vm :: rest => do
    let t ← if started.contains vm.id then recordStart t host vm else recordFailure t vm .startFailed
    recordShare host started t rest

/-- Asks each host to start its share; one that fails started none. -/
def startShares (t : Tally) : List (HostId × List (Vm α)) → Program α Tally
  | [] => return t
  | (host, vms) :: rest => do
    let started ← match ← Program.host (.start host vms) with
      | .ok ids => pure ids
      | .error _ => pure []
    startShares (← recordShare host started t vms) rest

/-- Records the machines that fitted nowhere. -/
def recordUnassigned (t : Tally) : List (Vm α) → Program α Tally
  | [] => return t
  | vm :: rest => do recordUnassigned (← recordFailure t vm .notEnoughResources) rest

/-- The hosts that new machines may go to; a store that cannot tell offers none. -/
def candidates (entries : Nat) : Program α (List (Host α)) := do
  match ← Program.store (.listHosts entries true false) with
  | .ok hosts => return hosts
  | .error _ => return []

/-- Places and starts a batch. -/
def run (entries : Nat) (task : TaskId) (vms : List (Vm α)) : Program α SubmissionResponse := do
  let (chosen, t) ← sift [] .empty vms
  let hosts ← candidates entries
  let plan ← Program.ask (.place chosen hosts)
  let t ← startShares t plan.byHost.entries
  let t ← recordUnassigned t plan.unassigned
  Program.count .vmsPlaced t.placed.length
  Program.count .vmsUnplaced t.failed.length
  return ⟨task, t.placed, t.failed⟩

/-- Runs a submission that holds the gate already, files its response and gives the gate back. -/
def finish (entries : Nat) (task : TaskId) (vms : List (Vm α)) : Program α Unit := do
  let r ← run entries task vms
  Program.ask (.file r)
  Program.ask (.release .submitting)

end ClusterControl.Submission
