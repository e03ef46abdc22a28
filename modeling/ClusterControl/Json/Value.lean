/-!
# JSON values

A JSON value, with whole numbers and doubles kept apart and the members of an object in the order
they were written, repeated names included.
-/

namespace ClusterControl

/-- A JSON number as it was written: a whole number that fits 64 bits, or a double. -/
inductive JsonNumber
  | whole (i : Int)
  | double (x : Float)

/-! ## Bounds of whole numbers -/

def minInt64 : Int := -9223372036854775808

def maxInt64 : Int := 9223372036854775807

def maxNat64 : Nat := 18446744073709551615

def maxNat32 : Nat := 4294967295

def maxNat16 : Nat := 65535

/-! ## Values -/

inductive Json
  | null
  | bool (b : Bool)
  | number (n : JsonNumber)
  | string (s : String)
  | array (items : List Json)
  | object (members : List (String × Json))

instance : Inhabited Json := ⟨.null⟩

namespace Json

/-- A whole number. -/
def int (i : Int) : Json := .number (.whole i)

def nat (n : Nat) : Json := int n

/-- A double. -/
def float (x : Float) : Json := .number (.double x)

/-- An array of texts. -/
def strings (l : List String) : Json := .array (l.map .string)

/-- A value that may be absent, written as null when it is. -/
def orNull {β : Type} (f : β → Json) : Option β → Json
  | some b => f b
  | none => .null

/-- The last member of an object under a name. -/
def member? : Json → String → Option Json
  | .object ms, k => (ms.reverse.find? (·.1 == k)).map (·.2)
  | _, _ => none

mutual

/-- Keeps the last of several members of one name, in every object of the value. -/
def lastWins : Json → Json
  | .array items => .array (lastWinsAll items)
  | .object ms => .object (lastWinsMembers ms)
  | j => j

def lastWinsAll : List Json → List Json
  | [] => []
  | j :: rest => lastWins j :: lastWinsAll rest

def lastWinsMembers : List (String × Json) → List (String × Json)
  | [] => []
  | (k, j) :: rest =>
    if rest.any (·.1 == k) then lastWinsMembers rest
    else (k, lastWins j) :: lastWinsMembers rest

end

mutual

/-- How many arrays and objects stand inside one another. -/
def depth : Json → Nat
  | .array items => depthAll items + 1
  | .object ms => depthMembers ms + 1
  | _ => 0

def depthAll : List Json → Nat
  | [] => 0
  | j :: rest => max (depth j) (depthAll rest)

def depthMembers : List (String × Json) → Nat
  | [] => 0
  | (_, j) :: rest => max (depth j) (depthMembers rest)

end

mutual

/-- The value with something else in place of each double. -/
def mapDoubles (f : Float → Json) : Json → Json
  | .number (.double x) => f x
  | .array items => .array (mapDoublesAll f items)
  | .object ms => .object (mapDoublesMembers f ms)
  | j => j

def mapDoublesAll (f : Float → Json) : List Json → List Json
  | [] => []
  | j :: rest => mapDoubles f j :: mapDoublesAll f rest

def mapDoublesMembers (f : Float → Json) : List (String × Json) → List (String × Json)
  | [] => []
  | (k, j) :: rest => (k, mapDoubles f j) :: mapDoublesMembers f rest

end

end Json

end ClusterControl
