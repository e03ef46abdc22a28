import ClusterControl.Settings
import ClusterControl.Planning.Consolidation
import ClusterControl.Workflow.Commit

/-!
# Reconfiguration of the cluster

The whole cluster is consolidated in one plan, which is carried out and committed.
-/

namespace ClusterControl.Reconfiguration

variable {α : Type} [Quantity α]

/-- Carries a plan out; an empty one needs nothing. -/
def enforce (plan : MigrationPlan) : Program α EnforcementReport :=
  if plan.isEmpty then return .empty else Program.ask (.enforce .own plan)

/-- Commits a consolidation and puts it on record. -/
def conclude (plan : MigrationPlan) (r : EnforcementReport) : Program α Unit := do
  Commit.report r
  Program.count .reconfigurations 1
  Program.count .hostsReleased plan.hostsReleased
  Program.event (.reconfigurationFinished plan.size plan.hostsUsed plan.hostsReleased)

/-- Consolidates the cluster. -/
def run (c : Settings α) : Program α (Except WorkflowError ReconfigurationReport) :=
  Program.gated .reconfiguring do
    let hosts ← Program.storeOrFail (.listHosts c.estimator.window true true)
    let plan := Consolidation.consolidate c.ranking hosts
    let r ← (enforce plan : Program α _)
    (conclude plan r : Program α Unit)
    return ⟨plan, r⟩

/-- One firing of the schedule; it is skipped while another workflow runs. -/
def fire (c : Settings α) : Program α (Option ReconfigurationReport) := do
  match ← run c with
  | .ok r =>
    Program.healthy Health.reconfiguration
    return some r
  | .error .busy =>
    Program.count (.skippedTriggers Health.reconfiguration) 1
    return none
  | .error e =>
    Program.degraded Health.reconfiguration e.message
    return none

end ClusterControl.Reconfiguration
