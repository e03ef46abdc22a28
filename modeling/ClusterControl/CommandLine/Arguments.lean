import ClusterControl.Json.Dialect

/-!
# Arguments

The grammar of the command line.  Options of the program stand before the first command word;
options of a command follow it.  Every option is given at most once, as `--name value`,
`--name=value`, `-n value`, `-nvalue` or `-n=value`, and single letters may be run together.
-/

namespace ClusterControl.CommandLine

/-- How results are written. -/
inductive Format
  | table
  | json
  deriving DecidableEq, Repr

namespace Format

/-- The format of a name, in lower case. -/
def ofName? : String → Option Format
  | "table" => some table
  | "json" => some json
  | _ => none

/-- The format of a name in any letter case. -/
def ofAnyCase? (name : String) : Option Format := ofName? (Dialect.lower name)

end Format

/-! ## What is asked for -/

/-- A preview; the snapshot is read from the preferred file when none is named. -/
inductive PlanCommand
  | place (snapshot : Option String) (vms : String) (policy : Option String)
  | detect (snapshot : Option String)
  | relocate (snapshot : Option String) (host : String)
  | consolidate (snapshot : Option String)
  deriving DecidableEq, Repr

inductive Command
  | status
  | plan (p : PlanCommand)
  deriving DecidableEq, Repr

structure Invocation where
  apiUrl : Option String
  format : Option Format
  verbose : Bool
  command : Command
  deriving DecidableEq, Repr

/-- What the arguments come to, when it is not an invocation. -/
inductive Detour
  /-- Help on the command of that path. -/
  | help (path : List String)
  | version
  /-- The arguments do not follow the grammar. -/
  | misuse
  deriving DecidableEq, Repr

/-! ## Options -/

/-- What the value of an option has to be. -/
inductive ValueKind
  | flag
  | text
  | path
  | format
  deriving DecidableEq, Repr

/-- The value is one the option takes. -/
def ValueKind.accepts (k : ValueKind) (value : String) : Bool :=
  match k with
  | flag => false
  | text => true
  | path => !value.isEmpty
  | format => (Format.ofName? value).isSome

/-- An option of a command. -/
structure OptionRule where
  name : String
  letter : Option Char
  kind : ValueKind
  deriving DecidableEq, Repr

/-- The options and subcommands of a command. -/
structure Level where
  path : List String
  options : List OptionRule
  subcommands : List String
  hasVersion : Bool
  deriving DecidableEq, Repr

/-- Options and their values, in the order they were given. -/
abbrev Values := List (String × String)

def Values.get? (vs : Values) (name : String) : Option String :=
  (vs.find? (·.1 == name)).map (·.2)

/-- What a level made of its arguments: its options, and the command word with what follows it. -/
structure Scan where
  values : Values
  rest : Option (String × List String)

/-- Files a value under an option that was not given before. -/
def record (vs : Values) (o : OptionRule) (value : String) : Except Detour Values :=
  if (vs.get? o.name).isSome || !(o.kind == .flag || o.kind.accepts value) then .error .misuse
  else .ok (vs ++ [(o.name, value)])

/-- An argument that may stand as the value of the option before it. -/
def isValue (arg : String) : Bool := arg == "-" || !arg.startsWith "-"

/-- The text without a leading equals sign. -/
def afterEquals : List Char → List Char
  | '=' :: rest => rest
  | rest => rest

/-- What an argument asks of a level. -/
inductive Demand
  /-- Options that are complete. -/
  | done (values : Values)
  /-- An option whose value is the next argument. -/
  | awaiting (values : Values) (o : OptionRule)

/-- Reads a run of single letters. -/
def letters (level : Level) (vs : Values) : List Char → Except Detour Demand
  | [] => .ok (.done vs)
  | c :: rest =>
    match level.options.find? fun o => o.letter == some c with
    | some o =>
      if o.kind = .flag then do letters level (← record vs o "") rest
      else if rest.isEmpty then .ok (.awaiting vs o)
      else do return .done (← record vs o (String.ofList (afterEquals rest)))
    | none =>
      if c = 'h' then .error (.help level.path)
      else if c = 'V' ∧ level.hasVersion then .error .version
      else .error .misuse

/-- Reads an option by its name. -/
def named (level : Level) (vs : Values) (text : List Char) : Except Detour Demand :=
  let name := String.ofList (text.takeWhile (· != '='))
  let attached := (text.dropWhile (· != '=')).head?.map fun _ =>
    String.ofList ((text.dropWhile (· != '=')).drop 1)
  match level.options.find? fun o => o.name == name with
  | some o =>
    match o.kind == .flag, attached with
    | true, none => do return .done (← record vs o "")
    | true, some _ => .error .misuse
    | false, some value => do return .done (← record vs o value)
    | false, none => .ok (.awaiting vs o)
  | none =>
    match attached with
    | some _ => .error .misuse
    | none =>
      if name == "help" then .error (.help level.path)
      else if name == "version" && level.hasVersion then .error .version
      else .error .misuse

/-- Reads the options of a level up to the command word. -/
def scan (level : Level) (vs : Values) : List String → Except Detour Scan
  | [] => .ok ⟨vs, none⟩
  | arg :: rest =>
    if isValue arg then
      if level.subcommands.contains arg then .ok ⟨vs, some (arg, rest)⟩ else .error .misuse
    else if arg == "--" then if rest.isEmpty then .ok ⟨vs, none⟩ else .error .misuse
    else
      let demand := match arg.toList with
        | '-' :: '-' :: text => named level vs text
        | _ :: text => letters level vs text
        | [] => .error .misuse
      match demand, rest with
      | .error d, _ => .error d
      | .ok (.done vs), rest => scan level vs rest
      | .ok (.awaiting vs o), value :: rest =>
        if isValue value then do scan level (← record vs o value) rest else .error .misuse
      | .ok (.awaiting _ _), [] => .error .misuse

/-! ## The commands -/

def formatOption : OptionRule := ⟨"format", some 'f', .format⟩

def snapshotOption : OptionRule := ⟨"snapshot", some 's', .path⟩

def programLevel : Level :=
  { path := []
    options := [⟨"api-url", none, .text⟩, formatOption, ⟨"verbose", some 'v', .flag⟩]
    subcommands := ["status", "plan", "help"], hasVersion := true }

def planLevel : Level :=
  { path := ["plan"], options := []
    subcommands := ["place", "detect", "relocate", "consolidate", "help"], hasVersion := false }

/-- A command without subcommands. -/
def leaf (path : List String) (options : List OptionRule) : Level :=
  { path, options, subcommands := [], hasVersion := false }

/-- The value of an option that has to be given. -/
def Values.required (vs : Values) (name : String) : Except Detour String :=
  match vs.get? name with
  | some v => .ok v
  | none => .error .misuse

/-- The options of a command that has no subcommands. -/
def options (path : List String) (rules : List OptionRule) (args : List String) :
    Except Detour Values := do
  return (← scan (leaf path rules) [] args).values

/-- Help on the command that the words name. -/
def helpOn (path : List String) (words : List String) : Detour :=
  let known := match path, words with
    | _, [] => true
    | [], ["status"] => true
    | [], ["plan"] => true
    | [], ["help"] => true
    | [], ["plan", w] => planLevel.subcommands.contains w
    | ["plan"], [w] => planLevel.subcommands.contains w
    | _, _ => false
  if known then .help (path ++ words) else .misuse

def planCommand (args : List String) : Except Detour PlanCommand := do
  match (← scan planLevel [] args).rest with
  | some ("place", rest) =>
    let vs ← options ["plan", "place"]
      [snapshotOption, ⟨"vms", none, .path⟩, ⟨"policy", none, .text⟩] rest
    return .place (vs.get? "snapshot") (← vs.required "vms") (vs.get? "policy")
  | some ("detect", rest) =>
    return .detect ((← options ["plan", "detect"] [snapshotOption] rest).get? "snapshot")
  | some ("relocate", rest) =>
    let vs ← options ["plan", "relocate"] [snapshotOption, ⟨"host", none, .text⟩] rest
    return .relocate (vs.get? "snapshot") (← vs.required "host")
  | some ("consolidate", rest) =>
    return .consolidate ((← options ["plan", "consolidate"] [snapshotOption] rest).get? "snapshot")
  | some (_, words) => .error (helpOn ["plan"] words)
  | none => .error .misuse

/-- The invocation that the arguments and the variable for the controller's address describe. -/
def Invocation.ofArguments (apiUrl : Option String) (args : List String) :
    Except Detour Invocation := do
  let top ← scan programLevel [] args
  let command ← match top.rest with
    | some ("status", rest) => do
      let _ ← options ["status"] [] rest
      pure Command.status
    | some ("plan", rest) => Command.plan <$> planCommand rest
    | some (_, words) => .error (helpOn [] words)
    | none => .error .misuse
  return { apiUrl := (top.values.get? "api-url").or apiUrl
           format := (top.values.get? "format").bind Format.ofName?
           verbose := (top.values.get? "verbose").isSome
           command }

end ClusterControl.CommandLine
