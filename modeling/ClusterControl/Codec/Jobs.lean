import ClusterControl.Codec.Reports
import ClusterControl.Workflow.Job

/-!
# JSON form of jobs

A job or a request to the store is an object whose member `do` says what to do.  What comes of it is
written as a value, or as an object that tells the kind of an error and its message.
-/

namespace ClusterControl

/-! ## Errors -/

/-- An error without a message. -/
def Json.errorKind (kind : String) : Json := .object [("error", .string kind)]

def Json.error (kind message : String) : Json :=
  .object [("error", .string kind), ("message", .string message)]

/-- A value, or the error in its place. -/
def Json.ofExcept {ε β : Type} (g : ε → Json) (f : β → Json) : Except ε β → Json
  | .ok b => f b
  | .error e => g e

def Json.ok : Json := .string "ok"

def StoreError.encode (e : StoreError) : Json := .error e.kind e.message

def ResolutionError.encode (e : ResolutionError) : Json := .error e.kind e.message

def WorkflowError.encode (e : WorkflowError) : Json := .error e.kind e.message

def UnreadableSchedule.encode (e : UnreadableSchedule) : Json := .error "Schedule" e.message

/-! ## Requests to the store -/

/-- A request; `none` when what it says to do is not known. -/
def StoreRequest.decode : Decoder (Option (StoreRequest Float)) := fun j => do
  let host := Decoder.member "host" Decoder.string j
  let vm := Decoder.member "vm" Decoder.string j
  let entries := Decoder.member "entries" Decoder.nat64 j
  let flag := fun (name : String) => Decoder.member name Decoder.bool j
  let status := fun (name : String) => Decoder.member name HostStatus.decode j
  let sample := Decoder.member "sample" Sample.decode j
  match ← Decoder.member "do" Decoder.string j with
  | "descriptions" =>
    return some (.listHosts (← entries) (← flag "exclude_passive") (← flag "monitoring"))
  | "description" => return some (.findHost (← host) (← entries))
  | "add_host" => return some (.addHost (← Decoder.member "host" Host.decode j))
  | "status" => return some (.hostStatus (← host))
  | "change_status" => return some (.setHostStatus (← host) (← status "to"))
  | "cas" => return some (.transition (← host) (← status "from") (← status "to"))
  | "add_vm" => return some (.addVm (← Decoder.member "vm" Vm.decode j))
  | "get_vm" => return some (.findVm (← vm))
  | "vm_status" =>
    return some (.setVmStatus (← vm) (← Decoder.member "status" VmStatus.decode j)
      (← Decoder.optionalMember "code" VmErrorCode.decode j))
  | "move" => return some (.moveVm (← vm) (← Decoder.member "to" Decoder.string j))
  | "remove_vm" => return some (.removeVm (← vm))
  | "host_sample" => return some (.addHostSample (← host) (← sample))
  | "vm_sample" => return some (.addVmSample (← vm) (← sample))
  | _ => return none

/-! ## Jobs -/

namespace Job

/-- A job; `none` when what it says to do is not known. -/
def decode : Decoder (Option (Job Float)) := fun j => do
  let host := Decoder.member "host" Decoder.string j
  let vm := Decoder.member "vm" Decoder.string j
  let state := Decoder.member "state" LoadState.decode j
  match ← Decoder.member "do" Decoder.string j with
  | "control" => return some (.control (← vm) (← Decoder.member "action" VmAction.decode j))
  | "resolve" => return some (.resolve (← host) (← state))
  | "reconfigure" => return some .reconfigure
  | "power_down" =>
    return some (.powerDown (← Decoder.member "reserved" Decoder.nat64 j)
      (← Decoder.memberOr "action" PowerAction.decode .shutdown j))
  | "wake" => return some (.wake (← Decoder.member "hosts" (Decoder.list Decoder.string) j))
  | "mark_active" => return some (.markActive (← host))
  | "detect_cycle" => return some .detect
  | "energy_cycle" => return some .saveEnergy
  | "trigger_fire" => return some .fire
  | "monitor" => return some (.observe (← Decoder.member "event" Observation.decode j))
  | "enforce" => return some (.tryPlan (← Decoder.member "plan" MigrationPlan.decode j))
  | "direct_resolve" => return some (.tryResolve (← host) (← state))
  | _ => return none

def encodeStates (l : List (HostId × LoadState)) : Json :=
  .array (l.map fun e => .array [.string e.1, .string e.2.key])

def encodeTrial (report : EnforcementReport) (inFlight : Nat) : Json :=
  .object [("report", report.encode),
    ("counts", .array ([report.size, report.migrated, report.forced, report.failed].map .nat)),
    ("in_flight", .nat inFlight)]

/-- What comes of a job. -/
def encodeResult : (j : Job Float) → j.Result → Json
  | submission .., () => .null
  | control .., r => .ofExcept WorkflowError.encode (fun _ => .ok) r
  | resolve .., r => .ofExcept WorkflowError.encode ResolutionReport.encode r
  | reconfigure, r => .ofExcept WorkflowError.encode ReconfigurationReport.encode r
  | powerDown .., r => .ofExcept WorkflowError.encode .strings r
  | wake _, r => .bool r.isOk
  | markActive _, r => .ofExcept StoreError.encode .bool r
  | observe _, r => .bool r
  | observeAll _, r => .array (r.map .bool)
  | detect, r => encodeStates r
  | saveEnergy, r => .strings r
  | fire, r => .ofExcept UnreadableSchedule.encode (.orNull ReconfigurationReport.encode) r
  | countHosts, r => .ofExcept StoreError.encode HostCounts.encode r
  | tryPlan _, (report, inFlight) => encodeTrial report inFlight
  | tryResolve .., (r, phase) =>
    .object [("phase", .string phase.key), ("seen", .string phase.key),
      ("r", .ofExcept ResolutionError.encode ResolutionReport.encode r)]

end Job

end ClusterControl
