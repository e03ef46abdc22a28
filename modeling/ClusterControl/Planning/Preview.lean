import ClusterControl.Demand.Classification
import ClusterControl.Planning.Consolidation
import ClusterControl.Planning.Placement
import ClusterControl.Settings

/-!
# Previews

A snapshot is the state of a cluster together with the settings to plan with.  A preview is what the
controller would decide in that state; it changes nothing.
-/

namespace ClusterControl

/-- Hosts with their machines, and the settings to plan with. -/
structure Snapshot (α : Type) where
  hosts : List (Host α)
  settings : Settings α

/-- How one host stands against its thresholds. -/
structure Assessment (α : Type) where
  host : Host α
  utilization : Resources α
  state : LoadState

/-- The plan that relieves one host, and why it is made. -/
structure Relief where
  host : HostId
  state : LoadState
  policy : RelocationPolicy
  plan : MigrationPlan

namespace Snapshot

variable {α : Type}

/-- Every machine is on the host that lists it. -/
def settle (s : Snapshot α) : Snapshot α :=
  { s with hosts := s.hosts.map fun h => { h with vms := h.vms.mapValues fun _ vm => vm.on h.id } }

/-- The first host of an id. -/
def host? (s : Snapshot α) (id : HostId) : Option (Host α) := s.hosts.find? fun h => h.id == id

variable [Quantity α]

/-- Places machines on the hosts that are not passive, under the given policy. -/
def placement (s : Snapshot α) (policy : PlacementPolicy) (vms : List (Vm α)) : PlacementPlan α :=
  (Placement.place policy 0 vms (s.hosts.filter fun h => !h.isPassive)).plan

/-- Measures every host. -/
def assessments (s : Snapshot α) : List (Assessment α) :=
  let e := s.settings.demandEstimator
  s.hosts.map fun h =>
    let u := e.normalized h
    ⟨h, u, .classify u h.thresholds⟩

/-- The hosts that may take machines from a source. -/
def destinationsFor (s : Snapshot α) (source : HostId) (policy : RelocationPolicy) :
    List (Host α) :=
  (s.hosts.filter fun h => h.id != source).filter fun h => policy.includesPassive || !h.isPassive

/-- Relieves a host; nothing is planned for a stable one. -/
def relief (s : Snapshot α) (source : Host α) : Option Relief :=
  let state := s.settings.demandEstimator.classify source
  (s.settings.relocationPolicy state).map fun policy =>
    { host := source.id, state, policy
      plan := (Relocation.relocate s.settings.ranking policy source
        (s.destinationsFor source.id policy)).1 }

/-- Empties as many hosts as possible. -/
def consolidation (s : Snapshot α) : MigrationPlan :=
  Consolidation.consolidate s.settings.ranking s.hosts

end Snapshot

end ClusterControl
