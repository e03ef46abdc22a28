import ClusterControl.Codec.Preview
import ClusterControl.Codec.Reports
import ClusterControl.CommandLine.Arguments
import ClusterControl.Decimal.Fixed
import ClusterControl.Json.Printer
import ClusterControl.Terminal.Paint
import ClusterControl.Terminal.Table

/-!
# Rendering

What commands print: tables and remarks for people, or one JSON value for programs.
-/

namespace ClusterControl

open Terminal

/-! ## Tones -/

def HostStatus.tone : HostStatus → Tone
  | active => .good
  | wokenUp => .attention
  | passive => .asleep

def LoadState.tone : LoadState → Tone
  | stable => .good
  | underloaded => .attention
  | overloaded => .critical

def Health.Status.tone : Health.Status → Tone
  | healthy => .good
  | degraded => .attention
  | unhealthy => .critical

def Activity.tone : Activity → Tone
  | idle => .good
  | _ => .attention

def ResolutionPhase.tone : ResolutionPhase → Tone
  | idle | resolved => .good
  | _ => .attention

namespace CommandLine

/-- Lines of output. -/
abbrev Lines := List String

/-! ## Remarks -/

def info (colours : Bool) (message : String) : String :=
  paint colours (.boldColoured .blue) "ℹ" ++ " " ++ message

def success (colours : Bool) (message : String) : String :=
  paint colours (.boldColoured .green) "✓" ++ " " ++ message

def warning (colours : Bool) (message : String) : String :=
  paint colours (.boldColoured .yellow) "⚠" ++ " " ++ message

/-- A table, or a message when it has no rows. -/
def tableOr (colours : Bool) (t : Table) (emptyMessage : String) : Lines :=
  if t.rows.isEmpty then [paint colours (.coloured .yellow) emptyMessage] else t.render

/-! ## Amounts -/

def Resource.shortName : Resource → String
  | .cpu => "cpu"
  | .memory => "mem"
  | .networkRx => "rx"
  | .networkTx => "tx"

/-- Amounts with two decimal places, each under its name. -/
def amounts (v : Resources Float) : String :=
  ", ".intercalate (Resource.all.map fun r => Resource.shortName r ++ " " ++ Decimal.fixed 2 (v.get r))

/-- Fractions as percentages; what is beyond the whole is critical. -/
def percentages (colours : Bool) (v : Resources Float) : String :=
  " / ".intercalate (Resource.all.map fun r =>
    let x := v.get r
    let text := Decimal.fixed 0 (x * 100) ++ "%"
    if 1 < x then paint colours Tone.critical.style text else text)

/-! ## Previews -/

def placementTable (colours : Bool) (plan : PlacementPlan Float) : Table :=
  { header := ["VM", "Requested", "Host"]
    rows := (plan.assignments.map fun a => [a.vm.id, amounts a.vm.requested, a.host])
      ++ plan.unassigned.map fun vm =>
        [vm.id, amounts vm.requested, paint colours Tone.critical.style "unplaced"] }

def placementLines (colours : Bool) (policy : PlacementPolicy) (plan : PlacementPlan Float) :
    Lines :=
  let remark := if plan.unassigned.isEmpty then
      success colours (toString plan.assignments.length ++ " virtual machines placed")
    else
      warning colours (toString plan.unassigned.length ++ " virtual machines could not be placed")
  [info colours ("Placement policy: " ++ policy.name)]
    ++ tableOr colours (placementTable colours plan) "No virtual machines to place" ++ [remark]

def assessmentLines (colours : Bool) (l : List (Assessment Float)) : Lines :=
  let table : Table :=
    { header := ["Host", "Status", "VMs", "Utilization (cpu/mem/rx/tx)", "State"]
      rows := l.map fun a =>
        [a.host.id, paint colours a.host.status.tone.style a.host.status.label,
          toString a.host.vms.size, percentages colours a.utilization,
          paint colours a.state.tone.style a.state.label] }
  let anomalies := l.countP fun a => a.host.status == .active && a.state.isAnomaly
  tableOr colours table "Snapshot has no hosts"
    ++ if anomalies = 0 then []
      else [warning colours (toString anomalies ++ " active hosts need relocation")]

def migrationLines (colours : Bool) (plan : MigrationPlan) : Lines :=
  let table : Table :=
    { header := ["VM", "From", "To"]
      rows := plan.moves.map fun m => [m.vm, m.source.getD "-", m.destination] }
  tableOr colours table "No migrations"

def reliefLines (colours : Bool) (r : Relief) : Lines :=
  let title := paint colours .inBold "Host" ++ " " ++ paint colours (.coloured .cyan) r.host
    ++ " is " ++ paint colours r.state.tone.style r.state.label ++ " (" ++ r.policy.name ++ ")"
  [title] ++ migrationLines colours r.plan
    ++ if r.plan.hostsReleased = 0 then []
      else [success colours ("Host " ++ r.host ++ " would be released")]

/-- The remark on a host that needs no relief. -/
def stableLine (colours : Bool) (host : HostId) : String :=
  info colours ("Host " ++ host ++ " is " ++ LoadState.stable.label ++ ", nothing to relocate")

def consolidationLines (colours : Bool) (plan : MigrationPlan) : Lines :=
  [info colours ("Consolidation policy: " ++ Consolidation.policyName)]
    ++ migrationLines colours plan
    ++ ["Hosts used:             " ++ toString plan.hostsUsed,
      "Hosts released:         " ++ toString plan.hostsReleased]

/-! ## The running controller -/

def statusLines (colours : Bool) (s : ControllerStatus) (h : Health.Summary) : Lines :=
  let tinted := fun (t : Tone) (text : String) => paint colours t.style text
  let components : Table :=
    { header := ["Component", "Status", "Message"]
      rows := h.components.entries.map fun e =>
        [e.1, tinted e.2.status.tone e.2.status.key, e.2.message.getD ""] }
  [paint colours .inBold "Group Controller",
    String.ofList (List.replicate 50 '='),
    "Health:                 " ++ tinted h.status.tone h.status.key,
    "State:                  " ++ tinted s.activity.tone s.activity.key,
    "Resolver phase:         " ++ tinted s.phase.tone s.phase.key,
    "Busy:                   " ++ (if s.busy then tinted .attention "yes" else tinted .good "no"),
    "",
    paint colours .inBold "Hosts",
    String.ofList (List.replicate 50 '-'),
    "Active:                 " ++ toString s.hosts.active,
    "Woken up:               " ++ toString s.hosts.wokenUp,
    "Passive:                " ++ toString s.hosts.passive,
    "Virtual machines:       " ++ toString s.hosts.vms,
    ""]
    ++ tableOr colours components "No components registered"

/-- The status and health of a controller as one value. -/
def statusJson (s : ControllerStatus) (h : Health.Summary) : Json :=
  .object [("status", s.encode), ("health", h.encode)]

end CommandLine

end ClusterControl
