import ClusterControl.Codec.Inventory
import ClusterControl.Settings

/-!
# JSON form of settings

Every member may be left out; what is left out has its default.
-/

namespace ClusterControl

namespace EstimatorSettings

def decodeIn (d : Dialect) : Decoder EstimatorSettings := fun j => do
  let r ← d.record ["name", "window_size", "history_capacity"] j
  return { name := ← r.withDefault "name" d.string standard.name
           window := ← r.withDefault "window_size" d.nat64 standard.window
           historyCapacity :=
             ← r.withDefault "history_capacity" d.nat64 standard.historyCapacity }

def encode (s : EstimatorSettings) : Json :=
  .object [("name", .string s.name), ("window_size", .nat s.window),
    ("history_capacity", .nat s.historyCapacity)]

end EstimatorSettings

namespace PolicySettings

def decodeIn (d : Dialect) : Decoder PolicySettings := fun j => do
  let r ← d.record
    ["placement", "overload_relocation", "underload_relocation", "reconfiguration", "sort_norm"] j
  return { placement := ← r.withDefault "placement" d.string standard.placement
           overload := ← r.withDefault "overload_relocation" d.string standard.overload
           underload := ← r.withDefault "underload_relocation" d.string standard.underload
           consolidation :=
             ← r.withDefault "reconfiguration" d.string standard.consolidation
           norm := ← r.withDefault "sort_norm" d.string standard.norm }

def encode (s : PolicySettings) : Json :=
  .object [("placement", .string s.placement), ("overload_relocation", .string s.overload),
    ("underload_relocation", .string s.underload), ("reconfiguration", .string s.consolidation),
    ("sort_norm", .string s.norm)]

end PolicySettings

namespace ConsolidationSettings

def decodeIn (d : Dialect) : Decoder ConsolidationSettings := fun j => do
  let r ← d.record ["enabled", "cron"] j
  return { enabled := ← r.withDefault "enabled" d.bool standard.enabled
           schedule := ← r.withDefault "cron" d.string standard.schedule }

def encode (s : ConsolidationSettings) : Json :=
  .object [("enabled", .bool s.enabled), ("cron", .string s.schedule)]

end ConsolidationSettings

namespace EnforcementSettings

def decodeIn (d : Dialect) : Decoder EnforcementSettings := fun j => do
  let r ← d.record ["migration_timeout_secs"] j
  return ⟨← r.withDefault "migration_timeout_secs" d.nat64 standard.migrationTimeoutSecs⟩

def encode (s : EnforcementSettings) : Json :=
  .object [("migration_timeout_secs", .nat s.migrationTimeoutSecs)]

end EnforcementSettings

namespace EnergySettings

def decodeIn (d : Dialect) : Decoder EnergySettings := fun j => do
  let r ← d.record
    ["enabled", "idle_check_interval_secs", "reserved_hosts", "power_action"] j
  return { enabled := ← r.withDefault "enabled" d.bool standard.enabled
           idleCheckSecs :=
             ← r.withDefault "idle_check_interval_secs" d.nat64 standard.idleCheckSecs
           reservedHosts := ← r.withDefault "reserved_hosts" d.nat64 standard.reservedHosts
           powerAction := ← r.withDefault "power_action" (d.choice PowerAction.all PowerAction.key) .shutdown }

def encode (s : EnergySettings) : Json :=
  .object [("enabled", .bool s.enabled), ("idle_check_interval_secs", .nat s.idleCheckSecs),
    ("reserved_hosts", .nat s.reservedHosts), ("power_action", .string s.powerAction.key)]

end EnergySettings

namespace MonitoringSettings

def decodeIn (d : Dialect) : Decoder MonitoringSettings := fun j => do
  let r ← d.record ["anomaly_check_interval_secs", "queue_size"] j
  return { anomalyCheckSecs :=
             ← r.withDefault "anomaly_check_interval_secs" d.nat64 standard.anomalyCheckSecs
           queueSize := ← r.withDefault "queue_size" d.nat64 standard.queueSize }

def encode (s : MonitoringSettings) : Json :=
  .object [("anomaly_check_interval_secs", .nat s.anomalyCheckSecs),
    ("queue_size", .nat s.queueSize)]

end MonitoringSettings

namespace Settings

def fields : List String :=
  ["estimator", "thresholds", "policies", "reconfiguration", "enforcement", "energy", "monitoring"]

def decodeIn (d : Dialect) : Decoder (Settings Float) := fun j => do
  let r ← d.record fields j
  return { estimator := ← r.withDefault "estimator" (EstimatorSettings.decodeIn d) .standard
           thresholds := ← r.withDefault "thresholds" (Thresholds.decodeIn d) .standard
           policies := ← r.withDefault "policies" (PolicySettings.decodeIn d) .standard
           consolidation :=
             ← r.withDefault "reconfiguration" (ConsolidationSettings.decodeIn d) .standard
           enforcement := ← r.withDefault "enforcement" (EnforcementSettings.decodeIn d) .standard
           energy := ← r.withDefault "energy" (EnergySettings.decodeIn d) .standard
           monitoring := ← r.withDefault "monitoring" (MonitoringSettings.decodeIn d) .standard }

def decode : Decoder (Settings Float) := decodeIn .strict

def encode (s : Settings Float) : Json :=
  .object [("estimator", s.estimator.encode), ("thresholds", s.thresholds.encode),
    ("policies", s.policies.encode), ("reconfiguration", s.consolidation.encode),
    ("enforcement", s.enforcement.encode), ("energy", s.energy.encode),
    ("monitoring", s.monitoring.encode)]

end Settings

end ClusterControl
