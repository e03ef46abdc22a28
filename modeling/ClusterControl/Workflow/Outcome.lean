import ClusterControl.Inventory.Store
import ClusterControl.Planning.Migration

/-!
# What workflows report

One workflow at a time changes the cluster.  This module holds what they answer: the outcome of
each migration, the fate of each submitted machine, and the reasons a workflow is refused or
abandoned.
-/

namespace ClusterControl

/-- What the controller is doing. -/
inductive Activity
  | idle
  | submitting
  | resolvingAnomaly
  | reconfiguring
  | migrating
  | powerManagement
  deriving DecidableEq, Repr

namespace Activity

def all : List Activity :=
  [idle, submitting, resolvingAnomaly, reconfiguring, migrating, powerManagement]

def key : Activity → String
  | idle => "idle"
  | submitting => "submitting"
  | resolvingAnomaly => "resolving_anomaly"
  | reconfiguring => "reconfiguring"
  | migrating => "migrating"
  | powerManagement => "power_management"

end Activity

/-- How far the resolution of an anomaly has come. -/
inductive ResolutionPhase
  | idle
  | readyToResolve
  | resolving
  | enforcing
  | resolved
  deriving DecidableEq, Repr

namespace ResolutionPhase

def all : List ResolutionPhase := [idle, readyToResolve, resolving, enforcing, resolved]

def key : ResolutionPhase → String
  | idle => "idle"
  | readyToResolve => "ready_to_resolve"
  | resolving => "resolving"
  | enforcing => "enforcing"
  | resolved => "resolved"

end ResolutionPhase

/-! ## Migrations -/

/-- Where a migration ended. -/
inductive MigrationOutcome
  /-- Completed before its deadline. -/
  | migrated
  /-- Past its deadline, and brought to an end by suspending the copy on the source. -/
  | forcedSuspend
  | failed (reason : String)
  deriving DecidableEq, Repr

namespace MigrationOutcome

/-- The machine ended up on its destination. -/
def isRelocated : MigrationOutcome → Bool
  | failed _ => false
  | _ => true

def isFailed : MigrationOutcome → Bool
  | failed _ => true
  | _ => false

def label : MigrationOutcome → String
  | migrated => "migrated"
  | forcedSuspend => "forced_suspend"
  | failed _ => "failed"

/-- The label, with the reason of a failure. -/
def message : MigrationOutcome → String
  | failed reason => "failed: " ++ reason
  | o => o.label

end MigrationOutcome

structure MigrationResult where
  migration : Migration
  outcome : MigrationOutcome
  deriving DecidableEq, Repr

/-- The outcomes of one plan. -/
structure EnforcementReport where
  results : List MigrationResult
  deriving DecidableEq, Repr

namespace EnforcementReport

def empty : EnforcementReport := ⟨[]⟩

instance : Inhabited EnforcementReport := ⟨empty⟩

def size (r : EnforcementReport) : Nat := r.results.length

def migrated (r : EnforcementReport) : Nat := r.results.countP (·.outcome == .migrated)

def forced (r : EnforcementReport) : Nat := r.results.countP (·.outcome == .forcedSuspend)

def failed (r : EnforcementReport) : Nat := r.results.countP (·.outcome.isFailed)

def outcomeOf (r : EnforcementReport) (vm : VmId) : Option MigrationOutcome :=
  (r.results.find? (·.migration.vm == vm)).map MigrationResult.outcome

/-- The report over results in any order: they are listed by machine. -/
def ofResults (l : List MigrationResult) : EnforcementReport :=
  ⟨l.mergeSort fun a b => a.migration.vm ≤ b.migration.vm⟩

end EnforcementReport

/-! ## Submissions -/

/-- Names an accepted submission. -/
abbrev TaskId := String

structure PlacedVm where
  vm : VmId
  host : HostId
  deriving DecidableEq, Repr

structure FailedVm where
  vm : VmId
  code : VmErrorCode
  deriving DecidableEq, Repr

/-- What became of the machines of a submission. -/
structure SubmissionResponse where
  task : TaskId
  placed : List PlacedVm
  failed : List FailedVm
  deriving DecidableEq, Repr

/-! ## Reports of workflows -/

/-- A consolidation run: its plan and what came of it. -/
structure ReconfigurationReport where
  plan : MigrationPlan
  enforcement : EnforcementReport
  deriving DecidableEq

/-- A resolved anomaly: the plan, the passive destinations woken for it, and what came of it. -/
structure ResolutionReport where
  host : HostId
  state : LoadState
  plan : MigrationPlan
  woken : List HostId
  enforcement : EnforcementReport
  deriving DecidableEq

end ClusterControl
