import ClusterControl.Codec.Settings

/-!
# Configuration of a controller

A controller is told its name, the port it serves on, the hosts it starts with and its settings.
Each of them may be left out.
-/

namespace ClusterControl

/-- A host as the configuration describes it. -/
structure HostEntry where
  id : HostId
  address : String
  capacity : Resources Float

structure Configuration where
  /-- The name attached to every event. -/
  nodeName : String
  port : Nat
  hosts : List HostEntry
  settings : Settings Float

namespace Configuration

/-- The name of a controller that is not given one. -/
def standardName : String := "group-manager"

/-- A controller of the given name with nothing else configured. -/
def standard (nodeName : String) : Configuration :=
  { nodeName, port := 8080, hosts := [], settings := .standard }

end Configuration

def HostEntry.decodeIn (d : Dialect) : Decoder HostEntry := fun j => do
  let r ← d.record ["id", "address", "capacity"] j
  return { id := ← r.required "id" d.string
           address := ← r.withDefault "address" d.string ""
           capacity := ← r.required "capacity" (Resources.decodeRaw d) }

namespace Configuration

/-- Reads a configuration; `name` is the controller's name when none is given. -/
def decodeIn (d : Dialect) (name : String) : Decoder Configuration := fun j => do
  let r ← d.record ["node_name", "api_port", "hosts", "settings"] j
  let base := standard name
  return { nodeName := ← r.withDefault "node_name" d.string base.nodeName
           port := ← r.withDefault "api_port" d.nat16 base.port
           hosts := ← r.withDefault "hosts" (Decoder.list (HostEntry.decodeIn d)) []
           settings := ← r.withDefault "settings" (Settings.decodeIn d) base.settings }

/-- The configured hosts, under the configured thresholds and with histories of the configured
capacity. -/
def inventory (c : Configuration) : List (Host Float) :=
  c.hosts.map fun e =>
    { Host.new e.id e.capacity.clamped c.settings.estimator.historyCapacity with
      address := e.address, thresholds := c.settings.thresholds }

end Configuration

end ClusterControl
