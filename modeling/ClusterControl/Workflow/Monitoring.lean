import ClusterControl.Inventory.Observation
import ClusterControl.Workflow.Power

/-!
# Monitoring

Samples are stored as they come in.  The first sample of a woken host makes it active.  A sample of
a host or machine that is not there is dropped.
-/

namespace ClusterControl.Monitoring

variable {α : Type}

/-- Stores the sample of an observation. -/
def keep : Observation α → Program α (Except StoreError Unit)
  | .host host sample => do
    match ← Program.store (.addHostSample host sample) with
    | .ok () =>
      match ← Power.markActive host with
      | .ok _ => return .ok ()
      | .error e => return .error e
    | .error e => return .error e
  | .vm vm sample => Program.store (.addVmSample vm sample)

/-- Stores an observation, and says whether it was kept. -/
def handle (o : Observation α) : Program α Bool := do
  match ← keep o with
  | .ok () =>
    Program.count .monitoringSamples 1
    Program.healthy Health.monitoring
    return true
  | .error _ => return false

/-- Stores observations in order, and says which were kept. -/
def handleAll : List (Observation α) → Program α (List Bool)
  | [] => return []
  | o :: rest => do
    let kept ← handle o
    let others ← handleAll rest
    return kept :: others

end ClusterControl.Monitoring
