import ClusterControl.Codec.Planning
import ClusterControl.Codec.Settings
import ClusterControl.Planning.Preview

/-!
# JSON form of snapshots and previews
-/

namespace ClusterControl

def Snapshot.decode : Decoder (Snapshot Float) := fun j => do
  let r ← Decoder.record ["hosts", "settings"] j
  return { hosts := ← r.required "hosts" (Decoder.list Host.decode)
           settings := ← r.withDefault "settings" Settings.decode .standard }

def Assessment.encode (a : Assessment Float) : Json :=
  .object [("host_id", .string a.host.id), ("status", .string a.host.status.key),
    ("utilization", a.utilization.encode), ("state", .string a.state.key)]

def Relief.encode (r : Relief) : Json :=
  .object [("host_id", .string r.host), ("state", .string r.state.key),
    ("policy", .string r.policy.name), ("plan", r.plan.encode)]

end ClusterControl
