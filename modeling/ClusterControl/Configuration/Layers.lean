import ClusterControl.Configuration.Controller
import ClusterControl.Json.Reader

/-!
# Layered configuration

A configuration is read from an optional file and then from environment variables.  A variable
whose name starts with `CONTROLLER__` sets one value; further double underscores in its name
separate the keys on the way to it.  Keys are compared in lower case, and a later layer replaces
single values of an earlier one.
-/

namespace ClusterControl.Configuration

/-- Why no configuration could be made. -/
inductive LoadError
  | unreadable
  | invalid
  deriving DecidableEq, Repr

def LoadError.message : LoadError → String
  | unreadable => "Failed to read controller configuration"
  | invalid => "Invalid controller configuration"

/-! ## Tables -/

/-- The members of a table; anything else has none. -/
def tableOf : Json → List (String × Json)
  | .object ms => ms
  | _ => []

/-- Files a member under a key, in place of one with the same key. -/
def putMember (ms : List (String × Json)) (k : String) (j : Json) : List (String × Json) :=
  if ms.any (·.1 == k) then ms.map fun m => if m.1 == k then (k, j) else m else ms ++ [(k, j)]

/-- Sets the value at the end of a path of keys, making a table of whatever is on the way. -/
def putPath (root : Json) : List String → Json → Json
  | [], j => j
  | k :: path, j =>
    let below := ((tableOf root).find? (·.1 == k)).map (·.2) |>.getD .null
    .object (putMember (tableOf root) k (putPath below path j))

mutual

/-- Lays a value over another: tables are merged key by key in lower case, and anything else
replaces what was there. -/
def overlay (under : Json) : Json → Json
  | .object ms => overlayMembers (.object (tableOf under)) ms
  | j => j

def overlayMembers (under : Json) : List (String × Json) → Json
  | [] => under
  | (k, j) :: rest =>
    let key := Dialect.lower k
    let below := ((tableOf under).find? (·.1 == key)).map (·.2) |>.getD .null
    overlayMembers (.object (putMember (tableOf under) key (overlay below j))) rest

end

/-! ## Keys -/

def isKeyChar (c : Char) : Bool :=
  c.isAlphanum || c == '_' || c == '-' || c == ' '

/-- The keys that a dotted name lists; a name with an empty key or an unusual character is one key
as a whole. -/
def keyPath (name : String) : List String :=
  let keys := name.splitOn "."
  if keys.all fun k => !k.isEmpty && k.all isKeyChar then keys else [name]

/-- Lays the members of a document over a table; the names of its members may be paths. -/
def overlayDocument (under : Json) (ms : List (String × Json)) : Json :=
  ms.foldl
    (fun root m =>
      let path := (keyPath m.1).map Dialect.lower
      let below := path.foldl (fun j k => ((tableOf j).find? (·.1 == k)).map (·.2) |>.getD .null) root
      putPath root path (overlay below m.2))
    under

/-! ## The environment -/

/-- The value that a variable's text stands for: a boolean, a number or the text itself. -/
def typedValue (s : String) : Json :=
  match Dialect.lower s with
  | "true" => .bool true
  | "false" => .bool false
  | _ =>
    match Dialect.integer? s, Dialect.real? s with
    | some i, _ => .int i
    | none, some x => .float x
    | none, none => .string s

/-- Replaces every occurrence of one text by another. -/
def replaceAll (s old new : String) : String := new.intercalate (s.splitOn old)

/-- The path that a variable's name gives, if it is one of the controller's. -/
def variablePath? (name : String) : Option (List String) :=
  let lower := Dialect.lower name
  let mark := "controller__"
  if lower.startsWith mark then
    some (keyPath (replaceAll (String.ofList (lower.toList.drop mark.length)) "__" "."))
  else none

/-- Lays the controller's variables over a table. -/
def overlayVariables (under : Json) (env : List (String × String)) : Json :=
  env.foldl
    (fun root v =>
      match variablePath? v.1 with
      | some path => putPath root path (typedValue v.2)
      | none => root)
    under

/-- The configuration that an optional document and the environment give.  The variable
`NODE_NAME` supplies the name of a controller that is not given one. -/
def load (document : Option String) (env : List (String × String)) :
    Except LoadError Configuration := do
  let base ← match document with
    | none => pure (Json.object [])
    | some text =>
      match (Json.read? text).map Json.lastWins with
      | some (.object ms) => pure (overlayDocument (.object []) ms)
      | _ => .error .unreadable
  let name := ((env.find? (·.1 == "NODE_NAME")).map (·.2)).getD standardName
  match decodeIn .lenient name (overlayVariables base env) with
  | .ok c => .ok c
  | .error _ => .error .invalid

end ClusterControl.Configuration
