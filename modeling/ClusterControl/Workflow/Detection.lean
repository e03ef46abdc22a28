import ClusterControl.Demand.Classification
import ClusterControl.Workflow.Resolution

/-!
# Detection of anomalies

One look at all hosts: every active host is measured, and the anomalies are resolved in turn, the
overloaded hosts first, until one resolution succeeds.  Idle hosts without machines are left to the
energy saver.
-/

namespace ClusterControl.Detection

variable {α : Type}

/-- A host and the state that was found. -/
structure Anomaly (α : Type) where
  host : HostId
  state : LoadState
  utilization : Resources α

variable [Quantity α]

/-- The anomaly of an active host, if it shows one. -/
def inspect (e : Estimator α) (h : Host α) : Option (Anomaly α) :=
  let utilization := e.normalized h
  let state := LoadState.classify utilization h.thresholds
  if h.status != .active || !state.isAnomaly || (state == .underloaded && !h.hasVms) then none
  else some ⟨h.id, state, utilization⟩

/-- Puts each anomaly on record. -/
def announce : List (Anomaly α) → Program α Unit
  | [] => return ()
  | a :: rest => do
    Program.count (.anomaliesDetected a.state) 1
    Program.event (.anomalyDetected a.host a.state a.utilization)
    announce rest

/-- The anomalies in the order they are tried: overloaded hosts first. -/
def inOrder (l : List (Anomaly α)) : List (Anomaly α) :=
  l.filter (·.state == .overloaded) ++ l.filter (·.state != .overloaded)

/-- Tries to resolve anomalies until one resolution succeeds or the gate is found taken. -/
def resolveFirst (c : Settings α) : List (Anomaly α) → Program α Unit
  | [] => return ()
  | a :: rest => do
    match ← Resolution.run c a.host a.state with
    | .ok _ => return ()
    | .error .busy => Program.count (.skippedTriggers Health.anomalyDetector) 1
    | .error _ => resolveFirst c rest

/-- One look at all hosts. -/
def cycle (c : Settings α) : Program α (List (HostId × LoadState)) := do
  match ← Program.store (.listHosts c.estimator.window true true) with
  | .error e =>
    Program.degraded Health.anomalyDetector e.message
    return []
  | .ok hosts =>
    let found := hosts.filterMap (inspect c.demandEstimator)
    announce found
    Program.healthy Health.anomalyDetector
    let ordered := inOrder found
    resolveFirst c ordered
    return ordered.map fun a => (a.host, a.state)

end ClusterControl.Detection
