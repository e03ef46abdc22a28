import ClusterControl.Demand.Ranking
import ClusterControl.Planning.Placement
import ClusterControl.Planning.Relocation

/-!
# Settings of a controller

Every setting has a default, so an empty description is a working one.  Names are resolved when
they are used, and an unknown name means the default of its kind.
-/

namespace ClusterControl

structure EstimatorSettings where
  name : String
  /-- Number of most recent samples the estimator aggregates. -/
  window : Nat
  /-- Samples kept per machine and per host. -/
  historyCapacity : Nat
  deriving DecidableEq, Repr

/-- The policy of each kind, by name. -/
structure PolicySettings where
  placement : String
  overload : String
  underload : String
  consolidation : String
  norm : String
  deriving DecidableEq, Repr

structure ConsolidationSettings where
  enabled : Bool
  /-- When to consolidate: a schedule with seconds, in universal time. -/
  schedule : String
  deriving DecidableEq, Repr

structure EnforcementSettings where
  migrationTimeoutSecs : Nat
  deriving DecidableEq, Repr

structure EnergySettings where
  enabled : Bool
  idleCheckSecs : Nat
  /-- Idle hosts that are never powered down. -/
  reservedHosts : Nat
  powerAction : PowerAction
  deriving DecidableEq, Repr

structure MonitoringSettings where
  anomalyCheckSecs : Nat
  /-- Capacity of the queue of incoming samples. -/
  queueSize : Nat
  deriving DecidableEq, Repr

structure Settings (α : Type) where
  estimator : EstimatorSettings
  thresholds : Thresholds α
  policies : PolicySettings
  consolidation : ConsolidationSettings
  enforcement : EnforcementSettings
  energy : EnergySettings
  monitoring : MonitoringSettings
  deriving DecidableEq

/-! ## Defaults -/

def EstimatorSettings.standard : EstimatorSettings := ⟨"average", 10, History.defaultCapacity⟩

def PolicySettings.standard : PolicySettings :=
  ⟨"FirstFit", "GreedyOverload", "GreedyUnderload", "Sercon", "L1"⟩

def ConsolidationSettings.standard : ConsolidationSettings := ⟨false, "0 0 3 * * *"⟩

def EnforcementSettings.standard : EnforcementSettings := ⟨300⟩

def EnergySettings.standard : EnergySettings := ⟨false, 60, 1, .shutdown⟩

def MonitoringSettings.standard : MonitoringSettings := ⟨30, 1024⟩

namespace Settings

variable {α : Type} [Quantity α]

def standard : Settings α :=
  { estimator := .standard, thresholds := .standard, policies := .standard
    consolidation := .standard, enforcement := .standard, energy := .standard
    monitoring := .standard }

instance : Inhabited (Settings α) := ⟨standard⟩

/-! ## What settings choose -/

/-- The estimator that the settings name. -/
def demandEstimator (s : Settings α) : Estimator α :=
  .ofName s.estimator.name s.estimator.window s.estimator.historyCapacity

def norm (s : Settings α) : Norm := .ofName s.policies.norm

def ranking (s : Settings α) : Ranking α := ⟨s.norm, s.demandEstimator⟩

def placementPolicy (s : Settings α) : PlacementPolicy := .ofName s.policies.placement

def overloadPolicy (s : Settings α) : OverloadPolicy := .ofName s.policies.overload

/-- The policy that relieves a host in a state. -/
def relocationPolicy (s : Settings α) (state : LoadState) : Option RelocationPolicy :=
  RelocationPolicy.forState s.overloadPolicy state

/-- Seconds between two looks for idle hosts; never none. -/
def idleCheckInterval (s : Settings α) : Nat := max 1 s.energy.idleCheckSecs

/-- Seconds between two looks for anomalies; never none. -/
def anomalyCheckInterval (s : Settings α) : Nat := max 1 s.monitoring.anomalyCheckSecs

end Settings

end ClusterControl
