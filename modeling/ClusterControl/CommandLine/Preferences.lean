import ClusterControl.CommandLine.Arguments
import ClusterControl.Json.Decode

/-!
# Preferences

A file may hold the controller's address, the format and the snapshot to use when the arguments name
none.  It is found by a variable, or at a fixed place under the home directory.
-/

namespace ClusterControl.CommandLine

structure Preferences where
  apiUrl : Option String
  defaultFormat : Option String
  snapshot : Option String
  deriving DecidableEq, Repr

namespace Preferences

def empty : Preferences := ⟨none, none, none⟩

/-- Members of other names are refused. -/
def decode : Decoder Preferences := fun j => do
  let r ← Decoder.closedRecord ["api_url", "default_format", "snapshot"] j
  return { apiUrl := ← r.optional "api_url" Decoder.string
           defaultFormat := ← r.optional "default_format" Decoder.string
           snapshot := ← r.optional "snapshot" Decoder.string }

/-- The preferred format; a name that is none counts as no preference. -/
def format (p : Preferences) : Option Format := p.defaultFormat.bind Format.ofAnyCase?

/-- Where the preferences are kept, given the variables of the environment. -/
def path (setting? : String → Option String) : Option String :=
  match setting? "CLUSTERCTL_CONFIG" with
  | some p => some p
  | none =>
    match setting? "HOME" with
    | none | some "" => none
    | some home => some (home ++ "/.config/clusterctl/config.json")

end Preferences

end ClusterControl.CommandLine
