import ClusterControl.CommandLine.Arguments

/-!
# Help

The texts that explain the command line.
-/

namespace ClusterControl.CommandLine

def versionLine : String := "clusterctl 0.1.0"

/-- The remark on arguments that do not follow the grammar. -/
def misuseMessage : String := "the arguments are not understood; try 'clusterctl --help'"

/-- What a command is for. -/
def purpose : List String → String
  | [] => "CLI for the Group Controller"
  | ["status"] => "Show controller status and component health"
  | ["plan"] => "Preview policy decisions against a cluster snapshot"
  | ["plan", "place"] => "Place new virtual machines"
  | ["plan", "detect"] => "Classify every host against its thresholds"
  | ["plan", "relocate"] => "Relocate virtual machines away from an anomalous host"
  | ["plan", "consolidate"] => "Consolidate the cluster onto fewer hosts"
  | _ => "Print this message or the help of the given subcommand(s)"

/-- How a command is written. -/
def usage : List String → String
  | [] => "clusterctl [OPTIONS] <COMMAND>"
  | ["plan"] => "clusterctl plan <COMMAND>"
  | ["plan", "place"] => "clusterctl plan place [OPTIONS] --vms <VMS>"
  | ["plan", "detect"] => "clusterctl plan detect [OPTIONS]"
  | ["plan", "relocate"] => "clusterctl plan relocate [OPTIONS] --host <HOST>"
  | ["plan", "consolidate"] => "clusterctl plan consolidate [OPTIONS]"
  | ["help"] => "clusterctl help [COMMAND]..."
  | ["plan", "help"] => "clusterctl plan help [COMMAND]"
  | path => " ".intercalate ("clusterctl" :: path)

def subcommandsOf : List String → List String
  | [] => programLevel.subcommands
  | ["plan"] => planLevel.subcommands
  | _ => []

def snapshotHelp : String × String :=
  ("-s, --snapshot <SNAPSHOT>", "Cluster snapshot (JSON); defaults to the configured one")

/-- The options of a command, with what they are for. -/
def optionsOf (path : List String) : List (String × String) :=
  (match path with
    | [] => [("    --api-url <API_URL>",
          "Controller API URL (can also be set via CLUSTERCTL_API_URL env var)"),
        ("-f, --format <FORMAT>", "Output format [possible values: table, json]"),
        ("-v, --verbose", "Enable verbose output")]
    | ["plan", "place"] => [snapshotHelp,
        ("    --vms <VMS>", "Virtual machines to place (JSON array)"),
        ("    --policy <POLICY>", "Placement policy overriding the snapshot settings")]
    | ["plan", "detect"] | ["plan", "consolidate"] => [snapshotHelp]
    | ["plan", "relocate"] => [snapshotHelp, ("    --host <HOST>", "Host to relieve")]
    | _ => [])
    ++ [("-h, --help", "Print help")]
    ++ if path.isEmpty then [("-V, --version", "Print version")] else []

/-- Names with explanations, in two columns. -/
def twoColumns (l : List (String × String)) : List String :=
  let width := (l.map fun e => e.1.length).foldl max 0
  l.map fun e =>
    "  " ++ e.1 ++ String.ofList (List.replicate (width - e.1.length) ' ') ++ "  " ++ e.2

/-- The help on the command of a path. -/
def helpLines (path : List String) : List String :=
  let commands := subcommandsOf path
  [purpose path, "", "Usage: " ++ usage path, ""]
    ++ (if commands.isEmpty then []
      else ["Commands:"] ++ twoColumns (commands.map fun c => (c, purpose (path ++ [c]))) ++ [""])
    ++ ["Options:"] ++ twoColumns (optionsOf path)

end ClusterControl.CommandLine
