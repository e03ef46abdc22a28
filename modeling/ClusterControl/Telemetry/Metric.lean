import ClusterControl.Workflow.Outcome

/-!
# Metrics

Counters of what the controller did, a gauge that is one while a workflow runs, and the number of
finished workflows by kind.
-/

namespace ClusterControl

/-- A measured series. -/
inductive Series
  | submissions
  | vmsPlaced
  | vmsUnplaced
  | anomaliesDetected (state : LoadState)
  | resolutionsSucceeded
  | resolutionsFailed
  | migrations (outcome : String)
  | reconfigurations
  | hostsReleased
  | hostsPoweredDown
  | hostsWoken
  | skippedTriggers (trigger : String)
  | monitoringSamples
  | busy
  | workflowDuration (workflow : Activity)
  deriving DecidableEq, Repr

namespace Series

/-- The measure that a series belongs to. -/
def measure : Series → String
  | submissions => "submissions_total"
  | vmsPlaced => "vms_placed_total"
  | vmsUnplaced => "vms_unplaced_total"
  | anomaliesDetected _ => "anomalies_detected_total"
  | resolutionsSucceeded => "anomaly_resolutions_total"
  | resolutionsFailed => "anomaly_resolutions_total"
  | migrations _ => "migrations_total"
  | reconfigurations => "reconfigurations_total"
  | hostsReleased => "hosts_released_total"
  | hostsPoweredDown => "hosts_powered_down_total"
  | hostsWoken => "hosts_woken_total"
  | skippedTriggers _ => "skipped_triggers_total"
  | monitoringSamples => "monitoring_samples_total"
  | busy => "busy"
  | workflowDuration _ => "workflow_duration_seconds"

/-- The label that tells a series from others of its measure, and its value. -/
def label? : Series → Option (String × String)
  | anomaliesDetected state => some ("kind", state.key)
  | resolutionsSucceeded => some ("result", "resolved")
  | resolutionsFailed => some ("result", "failed")
  | migrations outcome => some ("outcome", outcome)
  | skippedTriggers trigger => some ("trigger", trigger)
  | workflowDuration workflow => some ("workflow", workflow.key)
  | _ => none

/-- The measure, with the label in braces if there is one. -/
def name (s : Series) : String :=
  match s.label? with
  | some (label, value) => s.measure ++ "\x7b" ++ label ++ "=" ++ value ++ "\x7d"
  | none => s.measure

/-- The series without a label, which are shown even before anything is counted. -/
def unlabelled : List Series :=
  [busy, hostsPoweredDown, hostsReleased, hostsWoken, monitoringSamples, reconfigurations,
    submissions, vmsPlaced, vmsUnplaced]

/-- How a series is named on the page of metrics; of durations only the number is shown. -/
def sampleName (s : Series) : String :=
  let measure := match s with
    | workflowDuration _ => s.measure ++ "_count"
    | _ => s.measure
  "group_controller_" ++ measure ++
    match s.label? with
    | some (label, value) => "\x7b" ++ label ++ "=\"" ++ value ++ "\"\x7d"
    | none => ""

end Series

/-- The value of each series that was ever changed. -/
structure Metrics where
  values : List (Series × Nat)

namespace Metrics

def empty : Metrics := ⟨[]⟩

instance : Inhabited Metrics := ⟨empty⟩

def get (m : Metrics) (s : Series) : Nat := (m.values.lookup s).getD 0

def set (m : Metrics) (s : Series) (n : Nat) : Metrics := ⟨(s, n) :: m.values.filter (·.1 != s)⟩

def add (m : Metrics) (s : Series) (n : Nat) : Metrics := m.set s (m.get s + n)

/-- The series that are not zero, with their values. -/
def nonzero (m : Metrics) : List (Series × Nat) := m.values.filter (·.2 != 0)

/-- All series as text, one sample a line, ordered by name. -/
def page (m : Metrics) : String :=
  let others := (m.values.map (·.1)).filter fun s => !Series.unlabelled.contains s
  let samples := (Series.unlabelled ++ others).map fun s =>
    s.sampleName ++ " " ++ toString (m.get s) ++ "\n"
  String.join (samples.mergeSort (· ≤ ·))

end Metrics

end ClusterControl
