import ClusterControl.Codec.Planning
import ClusterControl.Health.Registry
import ClusterControl.Inventory.Observation
import ClusterControl.Workflow.Status

/-!
# JSON form of reports and messages

What the controller answers and what it is sent: outcomes, submissions, observations, health and
status.
-/

namespace ClusterControl

def Activity.decode : Decoder Activity := .choice Activity.all Activity.key

def ResolutionPhase.decode : Decoder ResolutionPhase :=
  .choice ResolutionPhase.all ResolutionPhase.key

/-! ## Migrations -/

namespace MigrationOutcome

def decode : Decoder MigrationOutcome := fun j => do
  let (tag, rest) ← Decoder.tagged "outcome" j
  match tag with
  | "migrated" =>
    Decoder.nothing rest
    return .migrated
  | "forced_suspend" =>
    Decoder.nothing rest
    return .forcedSuspend
  | "failed" =>
    let r ← Decoder.record ["reason"] rest
    return .failed (← r.required "reason" Decoder.string)
  | other => .error (.unknownName other)

def encode : MigrationOutcome → Json
  | migrated => .object [("outcome", .string "migrated")]
  | forcedSuspend => .object [("outcome", .string "forced_suspend")]
  | failed reason => .object [("outcome", .string "failed"), ("reason", .string reason)]

end MigrationOutcome

namespace MigrationResult

def decode : Decoder MigrationResult := fun j => do
  let r ← Decoder.record ["migration", "outcome"] j
  return { migration := ← r.required "migration" Migration.decode
           outcome := ← r.required "outcome" MigrationOutcome.decode }

def encode (r : MigrationResult) : Json :=
  .object [("migration", r.migration.encode), ("outcome", r.outcome.encode)]

end MigrationResult

namespace EnforcementReport

def decode : Decoder EnforcementReport := fun j => do
  let r ← Decoder.record ["results"] j
  return ⟨← r.required "results" (Decoder.list MigrationResult.decode)⟩

def encode (r : EnforcementReport) : Json :=
  .object [("results", .array (r.results.map MigrationResult.encode))]

end EnforcementReport

def ReconfigurationReport.encode (r : ReconfigurationReport) : Json :=
  .object [("plan", r.plan.encode), ("enforcement", r.enforcement.encode)]

def ResolutionReport.encode (r : ResolutionReport) : Json :=
  .object [("host_id", .string r.host), ("state", .string r.state.key), ("plan", r.plan.encode),
    ("woken", .strings r.woken), ("enforcement", r.enforcement.encode)]

/-! ## Submissions -/

/-- The machines of a submission. -/
structure SubmissionRequest (α : Type) where
  vms : List (Vm α)

namespace SubmissionRequest

def decode : Decoder (SubmissionRequest Float) := fun j => do
  let r ← Decoder.record ["virtual_machines"] j
  return ⟨← r.required "virtual_machines" (Decoder.list Vm.decode)⟩

def encode (r : SubmissionRequest Float) : Json :=
  .object [("virtual_machines", .array (r.vms.map Vm.encode))]

end SubmissionRequest

namespace PlacedVm

def decode : Decoder PlacedVm := fun j => do
  let r ← Decoder.record ["vm_id", "host_id"] j
  return { vm := ← r.required "vm_id" Decoder.string, host := ← r.required "host_id" Decoder.string }

def encode (p : PlacedVm) : Json := .object [("vm_id", .string p.vm), ("host_id", .string p.host)]

end PlacedVm

namespace FailedVm

def decode : Decoder FailedVm := fun j => do
  let r ← Decoder.record ["vm_id", "error_code"] j
  return { vm := ← r.required "vm_id" Decoder.string
           code := ← r.required "error_code" VmErrorCode.decode }

def encode (f : FailedVm) : Json :=
  .object [("vm_id", .string f.vm), ("error_code", .string f.code.key)]

end FailedVm

namespace SubmissionResponse

def decode : Decoder SubmissionResponse := fun j => do
  let r ← Decoder.record ["task_id", "placed", "failed"] j
  return { task := ← r.required "task_id" Decoder.string
           placed := ← r.required "placed" (Decoder.list PlacedVm.decode)
           failed := ← r.required "failed" (Decoder.list FailedVm.decode) }

def encode (r : SubmissionResponse) : Json :=
  .object [("task_id", .string r.task), ("placed", .array (r.placed.map PlacedVm.encode)),
    ("failed", .array (r.failed.map FailedVm.encode))]

end SubmissionResponse

/-! ## Observations -/

namespace Observation

def decode : Decoder (Observation Float) := fun j => do
  let (tag, rest) ← Decoder.tagged "kind" j
  match tag with
  | "host" =>
    let r ← Decoder.record ["host_id", "sample"] rest
    return .host (← r.required "host_id" Decoder.string) (← r.required "sample" Sample.decode)
  | "virtual_machine" =>
    let r ← Decoder.record ["vm_id", "sample"] rest
    return .vm (← r.required "vm_id" Decoder.string) (← r.required "sample" Sample.decode)
  | other => .error (.unknownName other)

def encode : Observation Float → Json
  | host id sample =>
    .object [("kind", .string "host"), ("host_id", .string id), ("sample", sample.encode)]
  | vm id sample =>
    .object [("kind", .string "virtual_machine"), ("vm_id", .string id), ("sample", sample.encode)]

end Observation

/-! ## Health -/

namespace Health

def Status.decode : Decoder Status := .choice Status.all Status.key

namespace Component

def decode : Decoder Component := fun j => do
  let r ← Decoder.record ["status", "message", "last_check_timestamp", "consecutive_failures"] j
  return { status := ← r.required "status" Status.decode
           message := ← r.optional "message" Decoder.string
           lastCheck := ← r.required "last_check_timestamp" Decoder.int64
           failures := ← r.withDefault "consecutive_failures" Decoder.nat32 0 }

def encode (c : Component) : Json :=
  .object <|
    [("status", .string c.status.key)] ++ Json.memberIfSome "message" .string c.message
      ++ [("last_check_timestamp", .int c.lastCheck), ("consecutive_failures", .nat c.failures)]

end Component

namespace Summary

def decode : Decoder Summary := fun j => do
  let r ← Decoder.record ["status", "components"] j
  return { status := ← r.required "status" Status.decode
           components := ← r.required "components" (Decoder.map Component.decode) }

def encode (s : Summary) : Json :=
  .object [("status", .string s.status.key),
    ("components", .object (s.components.entries.map fun e => (e.1, e.2.encode)))]

end Summary

namespace Readiness

def decode : Decoder Readiness := fun j => do
  let r ← Decoder.record ["ready", "reason"] j
  return { ready := ← r.required "ready" Decoder.bool
           reason := ← r.optional "reason" Decoder.string }

def encode (r : Readiness) : Json :=
  .object (("ready", .bool r.ready) :: Json.memberIfSome "reason" .string r.reason)

end Readiness

end Health

/-! ## Status -/

namespace HostCounts

def decode : Decoder HostCounts := fun j => do
  let r ← Decoder.record ["active", "woken_up", "passive", "virtual_machines"] j
  return { active := ← r.required "active" Decoder.nat64
           wokenUp := ← r.required "woken_up" Decoder.nat64
           passive := ← r.required "passive" Decoder.nat64
           vms := ← r.required "virtual_machines" Decoder.nat64 }

def encode (c : HostCounts) : Json :=
  .object [("active", .nat c.active), ("woken_up", .nat c.wokenUp), ("passive", .nat c.passive),
    ("virtual_machines", .nat c.vms)]

end HostCounts

namespace ControllerStatus

def decode : Decoder ControllerStatus := fun j => do
  let r ← Decoder.record ["busy", "state", "resolver_phase", "hosts"] j
  return { busy := ← r.required "busy" Decoder.bool
           activity := ← r.required "state" Activity.decode
           phase := ← r.required "resolver_phase" ResolutionPhase.decode
           hosts := ← r.required "hosts" HostCounts.decode }

def encode (s : ControllerStatus) : Json :=
  .object [("busy", .bool s.busy), ("state", .string s.activity.key),
    ("resolver_phase", .string s.phase.key), ("hosts", s.hosts.encode)]

end ControllerStatus

end ClusterControl
