import ClusterControl.Json.Dialect
import ClusterControl.Inventory.Host

/-!
# JSON form of the inventory

Hosts, machines, histories and thresholds as JSON.  Reading cleans what it reads: vectors are
clamped, histories are cut to their capacity, and a field with a default may be absent.  An absent
error code or host is left out when a machine is written.
-/

namespace ClusterControl

/-! ## Vectors and histories -/

def Resource.decode : Decoder Resource := .choice Resource.all Resource.name

namespace Resources

/-- Four numbers, read as they are. -/
def decodeRaw (d : Dialect) : Decoder (Resources Float) := fun j => do
  match ← d.tuple 4 j with
  | [a, b, c, e] => return ⟨← d.float a, ← d.float b, ← d.float c, ← d.float e⟩
  | _ => .error (.tooShort 4)

/-- An array of exactly four numbers, clamped. -/
def decode : Decoder (Resources Float) := fun j => clamped <$> decodeRaw .strict j

def encode (v : Resources Float) : Json := .array (v.toList.map .float)

end Resources

namespace Sample

def decode : Decoder (Sample Float) := fun j => do
  let r ← Decoder.record ["timestamp", "usage"] j
  return { timestamp := ← r.required "timestamp" Decoder.int64
           usage := ← r.required "usage" Resources.decode }

def encode (s : Sample Float) : Json :=
  .object [("timestamp", .int s.timestamp), ("usage", s.usage.encode)]

end Sample

namespace History

variable {β : Type}

/-- Reads entries by pushing them one after the other, so only the latest stay. -/
def decode (entry : Decoder β) : Decoder (History β) := fun j => do
  let r ← Decoder.record ["capacity", "entries"] j
  let capacity ← r.required "capacity" Decoder.nat64
  let entries ← r.withDefault "entries" (Decoder.list entry) []
  return ofList capacity entries

def encode (entry : β → Json) (h : History β) : Json :=
  .object [("capacity", .nat h.capacity), ("entries", .array (h.entries.map entry))]

end History

/-! ## Machines -/

def VmStatus.decode : Decoder VmStatus := .choice VmStatus.all VmStatus.key

def VmErrorCode.decode : Decoder VmErrorCode := .choice VmErrorCode.all VmErrorCode.key

/-- A member that is left out when there is no value. -/
def Json.memberIfSome {β : Type} (name : String) (f : β → Json) : Option β → List (String × Json)
  | some b => [(name, f b)]
  | none => []

namespace Vm

def fields : List String := ["id", "status", "error_code", "host_id", "requested", "history"]

def decode : Decoder (Vm Float) := fun j => do
  let r ← Decoder.record fields j
  return { id := ← r.required "id" Decoder.string
           status := ← r.withDefault "status" VmStatus.decode .pending
           errorCode := ← r.withDefault "error_code" (Decoder.nullable VmErrorCode.decode) none
           hostId := ← r.withDefault "host_id" (Decoder.nullable Decoder.string) none
           requested := ← r.required "requested" Resources.decode
           history := ← r.withDefault "history" (History.decode Sample.decode)
             (.empty History.defaultCapacity) }

def encode (vm : Vm Float) : Json :=
  .object <|
    [("id", .string vm.id), ("status", .string vm.status.key)]
      ++ Json.memberIfSome "error_code" (fun c => .string c.key) vm.errorCode
      ++ Json.memberIfSome "host_id" .string vm.hostId
      ++ [("requested", vm.requested.encode), ("history", vm.history.encode Sample.encode)]

end Vm

namespace VmAction

def decode : Decoder VmAction := fun j => do
  let (tag, rest) ← Decoder.tagged "action" j
  let plain (a : VmAction) : Except DecodeError VmAction := do
    Decoder.nothing rest
    return a
  match tag with
  | "suspend" => plain .suspend
  | "resume" => plain .resume
  | "shutdown" => plain .shutdown
  | "reboot" => plain .reboot
  | "destroy" => plain .destroy
  | "migrate" =>
    let r ← Decoder.record ["destination"] rest
    return .migrate (← r.required "destination" Decoder.string)
  | other => .error (.unknownName other)

def encode : VmAction → Json
  | suspend => .object [("action", .string "suspend")]
  | resume => .object [("action", .string "resume")]
  | shutdown => .object [("action", .string "shutdown")]
  | reboot => .object [("action", .string "reboot")]
  | destroy => .object [("action", .string "destroy")]
  | migrate destination =>
    .object [("action", .string "migrate"), ("destination", .string destination)]

end VmAction

/-! ## Hosts -/

def HostStatus.decode : Decoder HostStatus := .choice HostStatus.all HostStatus.key

def PowerAction.decode : Decoder PowerAction := .choice PowerAction.all PowerAction.key

def LoadState.decode : Decoder LoadState := .choice LoadState.all LoadState.key

namespace Band

def decodeIn (d : Dialect) : Decoder (Band Float) := fun j => do
  let r ← d.record ["min", "max"] j
  return { min := ← r.required "min" d.float, max := ← r.required "max" d.float }

def decode : Decoder (Band Float) := decodeIn .strict

def encode (b : Band Float) : Json := .object [("min", .float b.min), ("max", .float b.max)]

end Band

namespace Thresholds

/-- A dimension that is left out has its standard band. -/
def decodeIn (d : Dialect) : Decoder (Thresholds Float) := fun j => do
  let r ← d.record (Resource.all.map Resource.name) j
  let band (x : Resource) := r.withDefault x.name (Band.decodeIn d) (Thresholds.standard.get x)
  return ⟨← band .cpu, ← band .memory, ← band .networkRx, ← band .networkTx⟩

def decode : Decoder (Thresholds Float) := decodeIn .strict

def encode (t : Thresholds Float) : Json :=
  .object (Resource.all.map fun d => (d.name, (t.get d).encode))

end Thresholds

namespace Host

def fields : List String :=
  ["id", "address", "status", "total_capacity", "virtual_machines", "history", "thresholds"]

/-- Reads a host; the machines listed under it keep the host ids they were written with. -/
def decode : Decoder (Host Float) := fun j => do
  let r ← Decoder.record fields j
  return { id := ← r.required "id" Decoder.string
           address := ← r.withDefault "address" Decoder.string ""
           status := ← r.withDefault "status" HostStatus.decode .active
           capacity := ← r.required "total_capacity" Resources.decode
           vms := ← r.withDefault "virtual_machines" (Decoder.map Vm.decode) .empty
           history := ← r.withDefault "history" (History.decode Sample.decode)
             (.empty History.defaultCapacity)
           thresholds := ← r.withDefault "thresholds" Thresholds.decode .standard }

def encode (h : Host Float) : Json :=
  .object
    [("id", .string h.id), ("address", .string h.address), ("status", .string h.status.key),
      ("total_capacity", h.capacity.encode),
      ("virtual_machines", .object (h.vms.entries.map fun e => (e.1, e.2.encode))),
      ("history", h.history.encode Sample.encode), ("thresholds", h.thresholds.encode)]

end Host

end ClusterControl
