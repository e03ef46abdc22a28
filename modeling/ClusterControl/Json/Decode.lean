import ClusterControl.Json.Value
import ClusterControl.SortedMap

/-!
# Decoding JSON values

Records are read from objects, where members of other names are ignored and a repeated member is
refused, or from arrays of their fields in order, where only fields with a default may be left out
at the end.  Choices without data are their names; choices with data carry a tag.
-/

namespace ClusterControl

/-- Why a value does not have the shape that is asked for. -/
inductive DecodeError
  | wrongKind (expected : String)
  | outOfRange
  | missingField (name : String)
  | repeatedField (name : String)
  | unknownField (name : String)
  | unknownName (name : String)
  | tooShort (expected : Nat)
  | tooLong (expected : Nat)
  | notAName
  | tooDeep
  deriving DecidableEq, Repr

/-- A reader that knows the shape it reads for takes the error for one of syntax: it stops where it
expects a name or a closing bracket. -/
def DecodeError.isSyntactic : DecodeError → Bool
  | tooLong _ => true
  | notAName => true
  | tooDeep => true
  | _ => false

/-- A way to read a value of a type. -/
abbrev Decoder (β : Type) := Json → Except DecodeError β

namespace Decoder

def string : Decoder String
  | .string s => .ok s
  | _ => .error (.wrongKind "string")

def bool : Decoder Bool
  | .bool b => .ok b
  | _ => .error (.wrongKind "boolean")

/-- A whole number within bounds; a double is refused even when it is whole. -/
def intIn (lo hi : Int) : Decoder Int
  | .number (.whole i) => if lo ≤ i ∧ i ≤ hi then .ok i else .error .outOfRange
  | _ => .error (.wrongKind "whole number")

/-- A whole number from zero to a bound. -/
def natUpTo (hi : Nat) : Decoder Nat := fun j => Int.toNat <$> intIn 0 hi j

/-- A signed number of 64 bits. -/
def int64 : Decoder Int := intIn minInt64 maxInt64

/-- A count of 64 bits. -/
def nat64 : Decoder Nat := natUpTo maxNat64

/-- A count of 32 bits. -/
def nat32 : Decoder Nat := natUpTo maxNat32

/-- A count of 16 bits. -/
def nat16 : Decoder Nat := natUpTo maxNat16

/-- Any number that is finite as a double. -/
def float : Decoder Float
  | .number n =>
    let x := match n with
      | .whole i => Float.ofInt i
      | .double x => x
    if x.isFinite then .ok x else .error .outOfRange
  | _ => .error (.wrongKind "number")

/-- Null, or a value. -/
def nullable {β : Type} (d : Decoder β) : Decoder (Option β)
  | .null => .ok none
  | j => some <$> d j

/-- Every item of a list, in order. -/
def items {β : Type} (d : Decoder β) : List Json → Except DecodeError (List β)
  | [] => .ok []
  | j :: rest => do return (← d j) :: (← items d rest)

def list {β : Type} (d : Decoder β) : Decoder (List β)
  | .array js => items d js
  | _ => .error (.wrongKind "array")

/-- Every member's value, in order. -/
def members {β : Type} (d : Decoder β) :
    List (String × Json) → Except DecodeError (List (String × β))
  | [] => .ok []
  | (k, j) :: rest => do return (k, ← d j) :: (← members d rest)

/-- An object as a map; of repeated names the last one counts. -/
def map {β : Type} (d : Decoder β) : Decoder (SortedMap β)
  | .object ms => SortedMap.ofList <$> members d ms
  | _ => .error (.wrongKind "object")

/-- One of the given choices, by its name; an object with that one name and null says the same. -/
def choice {β : Type} (all : List β) (key : β → String) : Decoder β := fun j =>
  let named := fun (s : String) => match all.find? fun b => key b == s with
    | some b => .ok b
    | none => .error (.unknownName s)
  match j with
  | .string s => named s
  | .object ((s, value) :: rest) => do
    let b ← named s
    match value, rest with
    | .null, [] => return b
    | .null, _ => .error .notAName
    | _, _ => .error (.wrongKind "null")
  | _ => .error .notAName

/-! ## Records -/

/-- The fields of a record, by name. -/
structure Fields where
  /-- The record was written as an array. -/
  positional : Bool
  slots : List (String × Json)

/-- The members of an object that a record has; of each at most one. -/
def pick (ms : List (String × Json)) : List String → Except DecodeError (List (String × Json))
  | [] => .ok []
  | f :: rest => do
    match ms.filter (·.1 == f) with
    | [] => pick ms rest
    | [m] => return m :: (← pick ms rest)
    | _ => .error (.repeatedField f)

/-- A record with the given fields. -/
def record (fields : List String) : Decoder Fields
  | .object ms => do return ⟨false, ← pick ms fields⟩
  | .array js =>
    if fields.length < js.length then .error (.tooLong fields.length)
    else .ok ⟨true, fields.zip js⟩
  | _ => .error (.wrongKind "record")

/-- A record that refuses members of other names. -/
def closedRecord (fields : List String) : Decoder Fields := fun j =>
  match j with
  | .object ms =>
    match ms.find? fun m => !fields.contains m.1 with
    | some m => .error (.unknownField m.1)
    | none => record fields j
  | _ => record fields j

namespace Fields

variable {β : Type}

def slot (r : Fields) (f : String) : Option Json := (r.slots.find? (·.1 == f)).map (·.2)

/-- A field that has to be there. -/
def required (r : Fields) (f : String) (d : Decoder β) : Except DecodeError β :=
  match r.slot f with
  | some j => d j
  | none => .error (.missingField f)

/-- A field that may be left out. -/
def withDefault (r : Fields) (f : String) (d : Decoder β) (default : β) : Except DecodeError β :=
  match r.slot f with
  | some j => d j
  | none => .ok default

/-- A field that may be null or, in an object, left out. -/
def optional (r : Fields) (f : String) (d : Decoder β) : Except DecodeError (Option β) :=
  match r.slot f with
  | some j => nullable d j
  | none => if r.positional then .error (.missingField f) else .ok none

end Fields

/-! ## Members -/

section Members

variable {β : Type}

/-- A member that has to be there; others are passed over. -/
def member (name : String) (d : Decoder β) : Decoder β := fun j =>
  match j.member? name with
  | some value => d value
  | none => .error (.missingField name)

/-- A member that may be null or absent. -/
def optionalMember (name : String) (d : Decoder β) : Decoder (Option β) := fun j =>
  match j.member? name with
  | some value => nullable d value
  | none => .ok none

/-- A member with a value that stands for null and absence. -/
def memberOr (name : String) (d : Decoder β) (default : β) : Decoder β := fun j =>
  return (← optionalMember name d j).getD default

end Members

/-! ## Tagged choices -/

/-- How many arrays and objects may stand inside one another in a tagged value. -/
def depthLimit : Nat := 127

/-- The tag of a choice and the value that carries the rest. -/
def tagged (tag : String) : Decoder (String × Json) := fun j =>
  if depthLimit < j.depth then .error .tooDeep
  else
    match j with
    | .object ms =>
      match ms.filter (·.1 == tag) with
      | [] => .error (.missingField tag)
      | [m] => do return (← string m.2, .object (ms.filter (·.1 != tag)))
      | _ => .error (.repeatedField tag)
    | .array (t :: rest) => do return (← string t, .array rest)
    | _ => .error (.wrongKind "tagged value")

/-- The rest of a choice that carries nothing: any members, or an empty array. -/
def nothing : Decoder Unit
  | .object _ => .ok ()
  | .array [] => .ok ()
  | _ => .error (.tooLong 0)

end Decoder

end ClusterControl
