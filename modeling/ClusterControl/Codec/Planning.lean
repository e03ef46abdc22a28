import ClusterControl.Codec.Inventory
import ClusterControl.Planning.Migration
import ClusterControl.Planning.Placement
import ClusterControl.Resource.Norm

/-!
# JSON form of plans

Migration plans, placement plans and their parts as JSON.
-/

namespace ClusterControl

def Norm.decode : Decoder Norm := .choice [.l1, .euclid, .max] Norm.label

namespace Migration

def decode : Decoder Migration := fun j => do
  let r ← Decoder.record ["vm_id", "source", "destination"] j
  return { vm := ← r.required "vm_id" Decoder.string
           source := ← r.optional "source" Decoder.string
           destination := ← r.required "destination" Decoder.string }

def encode (m : Migration) : Json :=
  .object [("vm_id", .string m.vm), ("source", .orNull .string m.source),
    ("destination", .string m.destination)]

end Migration

namespace MigrationPlan

def decode : Decoder MigrationPlan := fun j => do
  let r ← Decoder.record ["migrations", "hosts_used", "hosts_released"] j
  return { migrations := ← r.required "migrations" (Decoder.map Migration.decode)
           hostsUsed := ← r.required "hosts_used" Decoder.nat64
           hostsReleased := ← r.required "hosts_released" Decoder.nat64 }

def encode (p : MigrationPlan) : Json :=
  .object [("migrations", .object (p.migrations.entries.map fun e => (e.1, e.2.encode))),
    ("hosts_used", .nat p.hostsUsed), ("hosts_released", .nat p.hostsReleased)]

end MigrationPlan

namespace Assignment

def decode : Decoder (Assignment Float) := fun j => do
  let r ← Decoder.record ["vm", "host_id"] j
  return { vm := ← r.required "vm" Vm.decode, host := ← r.required "host_id" Decoder.string }

def encode (a : Assignment Float) : Json :=
  .object [("vm", a.vm.encode), ("host_id", .string a.host)]

end Assignment

namespace PlacementPlan

def decode : Decoder (PlacementPlan Float) := fun j => do
  let r ← Decoder.record ["assignments", "unassigned"] j
  return { assignments := ← r.required "assignments" (Decoder.list Assignment.decode)
           unassigned := ← r.required "unassigned" (Decoder.list Vm.decode) }

def encode (p : PlacementPlan Float) : Json :=
  .object [("assignments", .array (p.assignments.map Assignment.encode)),
    ("unassigned", .array (p.unassigned.map Vm.encode))]

end PlacementPlan

end ClusterControl
