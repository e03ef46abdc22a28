import ClusterControl.Workflow.Outcome
import ClusterControl.Json.Value
import ClusterControl.Decimal.Fixed
import ClusterControl.Text.Quoted

/-!
# Events

One event for each decision worth telling an operator about, tagged with the name of the
controller that took it.
-/

namespace ClusterControl

/-- A decision or observation. -/
inductive Event (α : Type)
  | vmPlaced (vm : VmId) (host : HostId) (requested : Resources α)
  | vmUnplaced (vm : VmId) (code : VmErrorCode)
  | anomalyDetected (host : HostId) (state : LoadState) (utilization : Resources α)
  | anomalyResolved (host : HostId) (state : LoadState) (migrations failed : Nat)
  | resolutionFailed (host : HostId) (state : LoadState) (error : String)
  | migrationFinished (vm : VmId) (source : Option HostId) (destination : HostId)
      (outcome : MigrationOutcome)
  | reconfigurationFinished (migrations hostsUsed hostsReleased : Nat)
  /-- A host was powered down, or woken up when there is no action. -/
  | powerTransition (host : HostId) (action : Option PowerAction) (success : Bool)
  | started (version : String) (hosts : Nat)
  | stopped (reason : String)

/-- How urgent an event is. -/
inductive Level
  | info
  | warn
  deriving DecidableEq, Repr

def Level.label : Level → String
  | info => "INFO"
  | warn => "WARN"

/-- A vector with two decimal places, in brackets. -/
def Resources.text (v : Resources Float) : String :=
  "[" ++ ", ".intercalate (v.toList.map (Decimal.fixed 2)) ++ "]"

namespace Event

def level {α : Type} : Event α → Level
  | vmUnplaced .. => .warn
  | anomalyDetected .. => .warn
  | resolutionFailed .. => .warn
  | powerTransition _ _ success => if success then .info else .warn
  | _ => .info

/-- The kind of an event; two events of one kind may tell success and failure apart. -/
def kind {α : Type} : Event α → String
  | vmPlaced .. => "vm_placed"
  | vmUnplaced .. => "vm_placed"
  | anomalyDetected .. => "anomaly_detected"
  | anomalyResolved .. => "anomaly_resolved"
  | resolutionFailed .. => "anomaly_resolved"
  | migrationFinished .. => "migration_finished"
  | reconfigurationFinished .. => "reconfiguration_finished"
  | powerTransition .. => "host_power_transition"
  | started .. => "controller_started"
  | stopped .. => "controller_shutdown"

/-- The members that depend on the kind. -/
def details : Event Float → List (String × Json)
  | vmPlaced vm host requested =>
    [("vm_id", .string vm), ("host_id", .string host), ("requested", .string requested.text)]
  | vmUnplaced vm code =>
    [("vm_id", .string vm), ("placed", .bool false), ("reason", .string code.key)]
  | anomalyDetected host state utilization =>
    [("host_id", .string host), ("state", .string state.label),
      ("utilization", .string utilization.text)]
  | anomalyResolved host state migrations failed =>
    [("host_id", .string host), ("state", .string state.label), ("migrations", .nat migrations),
      ("failed", .nat failed)]
  | resolutionFailed host state error =>
    [("host_id", .string host), ("state", .string state.label), ("resolved", .bool false),
      ("error", .string error)]
  | migrationFinished vm source destination outcome =>
    [("vm_id", .string vm), ("source", .string (Text.quotedOption source)),
      ("destination", .string destination), ("outcome", .string outcome.label)]
  | reconfigurationFinished migrations used released =>
    [("migrations", .nat migrations), ("hosts_used", .nat used), ("hosts_released", .nat released)]
  | powerTransition host action success =>
    [("host_id", .string host),
      ("action", .string ((action.map PowerAction.key).getD "wake_up"))]
      ++ (if success then [] else [("success", .bool false)])
  | started version hosts => [("controller_version", .string version), ("hosts", .nat hosts)]
  | stopped reason => [("reason", .string reason)]

/-- The event as a record under a controller's name. -/
def encode (node : String) (e : Event Float) : Json :=
  .object ([("event", .string e.kind), ("level", .string e.level.label), ("node", .string node)]
    ++ e.details)

end Event

end ClusterControl
