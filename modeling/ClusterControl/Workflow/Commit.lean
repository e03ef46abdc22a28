import ClusterControl.Workflow.Program

/-!
# Committing outcomes

After a plan was carried out, the store learns where each machine ended: a relocated one moves to
its destination and runs, and a failed one stays and is marked.  An outcome that the store refuses
is passed over.
-/

namespace ClusterControl.Commit

variable {α : Type}

/-- Puts one outcome on record and into the store. -/
def result (r : MigrationResult) : Program α Unit := do
  let m := r.migration
  Program.count (.migrations r.outcome.label) 1
  Program.event (.migrationFinished m.vm m.source m.destination r.outcome)
  if r.outcome.isRelocated then
    match ← Program.store (.moveVm m.vm m.destination) with
    | .ok () =>
      let _ ← Program.store (.setVmStatus m.vm .running none)
    | .error _ => return ()
  else
    let _ ← Program.store (.setVmStatus m.vm .error (some .migrationFailed))

def results : List MigrationResult → Program α Unit
  | [] => return ()
  | r :: rest => do
    result r
    results rest

/-- Commits every outcome of a report, one after the other. -/
def report (r : EnforcementReport) : Program α Unit := results r.results

end ClusterControl.Commit
