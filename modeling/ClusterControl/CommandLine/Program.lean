import ClusterControl.CommandLine.Failure
import ClusterControl.CommandLine.Help
import ClusterControl.CommandLine.Preferences
import ClusterControl.CommandLine.Rendering
import ClusterControl.Json.Reader

/-!
# The program

A run reads the preferences, then what its command needs, and prints one result.  What it reads comes
from its surroundings, so that the same run serves any monad.
-/

namespace ClusterControl.CommandLine

/-- What is found under a path. -/
inductive FileState
  | absent
  | unreadable
  | text (content : String)
  deriving DecidableEq, Repr

/-- What a run can see of the world. -/
structure Surroundings (m : Type → Type) where
  setting? : String → Option String
  read : String → m FileState
  fetch : Network.Fetch m

/-- What a run leaves behind: its exit code and what it printed. -/
structure Outcome where
  code : Nat
  out : String
  err : String
  deriving DecidableEq, Repr

namespace Outcome

def ofLines (lines : Lines) : Outcome := ⟨0, String.join (lines.map (· ++ "\n")), ""⟩

def ofFailure (f : Failure) : Outcome := ⟨1, "", "Error: " ++ f.message ++ "\n"⟩

def ofDetour : Detour → Outcome
  | .help path => ofLines (helpLines path)
  | .version => ofLines [versionLine]
  | .misuse => ⟨2, "", "error: " ++ misuseMessage ++ "\n"⟩

end Outcome

variable {m : Type → Type} [Monad m]

/-! ## Reading -/

/-- The value that a text in JSON stands for. -/
def parse {β : Type} (d : Decoder β) (text : String) (failure : Failure) : Except Failure β :=
  match (Json.read? text).map d with
  | some (.ok b) => .ok b
  | _ => .error failure

/-- Reads a file of a given form. -/
def load {β : Type} (w : Surroundings m) (d : Decoder β) (path : String)
    (unreadable unparsable : Failure) : ExceptT Failure m β := do
  match ← w.read path with
  | .text content => ExceptT.mk (pure (parse d content unparsable))
  | _ => throw unreadable

/-- The preferences; a file that is not there holds none. -/
def loadPreferences (w : Surroundings m) : ExceptT Failure m Preferences := do
  match Preferences.path w.setting? with
  | none => return .empty
  | some path =>
    match ← w.read path with
    | .absent => return .empty
    | .unreadable => throw (.unreadable path)
    | .text content => ExceptT.mk (pure (parse Preferences.decode content (.unparsable path)))

/-- The named snapshot, or else the preferred one. -/
def loadSnapshot (w : Surroundings m) (p : Preferences) (named : Option String) :
    ExceptT Failure m (Snapshot Float) := do
  match named.or p.snapshot with
  | some path =>
    return (← load w Snapshot.decode path (.snapshotUnreadable path) (.snapshotUnparsable path)).settle
  | none => throw (.noSnapshot (Preferences.path w.setting?))

/-! ## Previews -/

/-- One value for programs, or lines for people. -/
def present (f : Format) (j : Json) (lines : Lines) : Lines :=
  match f with
  | .json => [j.pretty]
  | .table => lines

def runPlan (w : Surroundings m) (p : Preferences) (f : Format) (colours : Bool) :
    PlanCommand → ExceptT Failure m Lines
  | .place snapshot vms policy => do
    let s ← loadSnapshot w p snapshot
    let batch ← load w (Decoder.list Vm.decode) vms (.unreadable vms) (.unparsable vms)
    let chosen := PlacementPolicy.ofName (policy.getD s.settings.policies.placement)
    let plan := s.placement chosen batch
    return present f plan.encode (placementLines colours chosen plan)
  | .detect snapshot => do
    let found := (← loadSnapshot w p snapshot).assessments
    return present f (.array (found.map Assessment.encode)) (assessmentLines colours found)
  | .relocate snapshot host => do
    let s ← loadSnapshot w p snapshot
    match s.host? host with
    | none => throw (.unknownHost host)
    | some source =>
      match s.relief source with
      | none => return [stableLine colours host]
      | some r => return present f r.encode (reliefLines colours r)
  | .consolidate snapshot => do
    let plan := (← loadSnapshot w p snapshot).consolidation
    return present f plan.encode (consolidationLines colours plan)

/-! ## The running controller -/

/-- Where a controller is looked for when nothing names its address. -/
def standardUrl : String := "http://localhost:8080"

/-- Fetches what stands under a name beside the base address. -/
def fetchJson {β : Type} (w : Surroundings m) (base : Network.Url) (name : String)
    (accepted : List Nat) (d : Decoder β) : ExceptT Failure m β := do
  match base.join? name with
  | none => throw .invalidPath
  | some url =>
    match ← w.fetch url with
    | none => throw (.unreachable url.text)
    | some answer =>
      if accepted.contains answer.code then
        ExceptT.mk (pure (parse d answer.body (.unexpected url.text)))
      else throw (.refused url.text answer)

def runStatus (w : Surroundings m) (f : Format) (colours verbose : Bool) (address : String) :
    ExceptT Failure m Lines := do
  match Network.Url.parse? address with
  | none => throw (.invalidUrl address)
  | some base =>
    let status ← fetchJson w base "status" [200] ControllerStatus.decode
    let health ← fetchJson w base "healthz" [200, 503] Health.Summary.decode
    return (if verbose then [info colours ("Querying " ++ address)] else [])
      ++ present f (statusJson status health) (statusLines colours status health)

/-! ## A run -/

def runInvocation (w : Surroundings m) (i : Invocation) : ExceptT Failure m Lines := do
  let p ← loadPreferences w
  let f := (i.format.or p.format).getD .table
  let colours := Terminal.coloursForced (w.setting? "CLICOLOR_FORCE")
  match i.command with
  | .status => runStatus w f colours i.verbose ((i.apiUrl.or p.apiUrl).getD standardUrl)
  | .plan command => runPlan w p f colours command

/-- Runs the program on its arguments. -/
def run (w : Surroundings m) (args : List String) : m Outcome := do
  match Invocation.ofArguments (w.setting? "CLUSTERCTL_API_URL") args with
  | .error d => return .ofDetour d
  | .ok i =>
    match ← (runInvocation w i).run with
    | .ok lines => return .ofLines lines
    | .error f => return .ofFailure f

end ClusterControl.CommandLine
