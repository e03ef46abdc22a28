import ClusterControl.SortedMap

/-!
# Health of the controller's parts

Every long-running part reports under its name.  The overall status is the worst of all; readiness
is lost only when a critical part is unhealthy, or before the controller has started.
-/

namespace ClusterControl.Health

/-! ## Parts -/

def monitoring : String := "monitoring"
def anomalyDetector : String := "anomaly_detector"
def stateMachine : String := "state_machine"
def energySaver : String := "energy_saver"
def reconfiguration : String := "reconfiguration"

/-- Every part the controller registers at startup. -/
def allParts : List String :=
  [monitoring, anomalyDetector, stateMachine, energySaver, reconfiguration]

/-- Parts without which the controller cannot accept work. -/
def criticalParts : List String := [stateMachine, monitoring]

def isCritical (name : String) : Bool := criticalParts.contains name

/-! ## Reports -/

/-- How a part is doing, from best to worst. -/
inductive Status
  | healthy
  | degraded
  | unhealthy
  deriving DecidableEq, Repr

namespace Status

def all : List Status := [healthy, degraded, unhealthy]

def key : Status → String
  | healthy => "healthy"
  | degraded => "degraded"
  | unhealthy => "unhealthy"

/-- The worse of two. -/
def worse : Status → Status → Status
  | unhealthy, _ => unhealthy
  | _, unhealthy => unhealthy
  | degraded, _ => degraded
  | _, degraded => degraded
  | healthy, healthy => healthy

end Status

/-- The last report of a part. -/
structure Component where
  status : Status
  message : Option String
  lastCheck : Int
  /-- Reports in a row that were not healthy. -/
  failures : Nat
  deriving DecidableEq, Repr

/-- The largest count of failures that is kept. -/
def maxFailures : Nat := 4294967295

/-- The record of a report, given the record before it. -/
def Component.report (status : Status) (message : Option String) (now : Int)
    (previous : Option Component) : Component :=
  { status, message, lastCheck := now
    failures := match status, previous with
      | .healthy, _ => 0
      | _, some p => min maxFailures (p.failures + 1)
      | _, none => 1 }

/-- Every part's last report, and whether startup has finished. -/
structure Registry where
  components : SortedMap Component
  ready : Bool

namespace Registry

def empty : Registry := ⟨.empty, false⟩

instance : Inhabited Registry := ⟨empty⟩

/-- Starts a part afresh as healthy. -/
def register (g : Registry) (now : Int) (name : String) : Registry :=
  { g with components := g.components.insert name (.report .healthy none now none) }

def registerAll (g : Registry) (now : Int) (names : List String) : Registry :=
  names.foldl (fun g name => g.register now name) g

/-- Files a report; a part that was not registered appears by it. -/
def report (g : Registry) (now : Int) (name : String) (status : Status)
    (message : Option String) : Registry :=
  { g with components :=
      g.components.insert name (.report status message now (g.components.get? name)) }

def setReady (g : Registry) (ready : Bool) : Registry := { g with ready }

/-- The worst status of any part; healthy when there is none. -/
def overall (g : Registry) : Status :=
  (g.components.values.map Component.status).foldl Status.worse .healthy

end Registry

/-- The overall status and every part's report. -/
structure Summary where
  status : Status
  components : SortedMap Component

/-- Whether work can be accepted, and why not. -/
structure Readiness where
  ready : Bool
  reason : Option String
  deriving DecidableEq, Repr

namespace Registry

def summary (g : Registry) : Summary := ⟨g.overall, g.components⟩

/-- The first unhealthy critical part in name order, with its report. -/
def blocker (g : Registry) : Option (String × Component) :=
  g.components.entries.find? fun e => isCritical e.1 && e.2.status == .unhealthy

def readiness (g : Registry) : Readiness :=
  if !g.ready then ⟨false, some "Group controller is still starting"⟩
  else
    match g.blocker with
    | some (name, c) =>
      ⟨false, some (name ++ " is unhealthy: " ++ c.message.getD "no details")⟩
    | none => ⟨true, none⟩

end Registry

end ClusterControl.Health
