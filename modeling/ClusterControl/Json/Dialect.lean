import ClusterControl.Decimal.Reading
import ClusterControl.Decimal.Shortest
import ClusterControl.Json.Decode

/-!
# Strict and lenient values

Settings are read from JSON documents, where every value has to be of its type, and from layered
sources such as environment variables, where a value may be written as another type: a switch as
`on`, a count as a text, a name as a number.  A dialect says how scalars and records are read, so
that the shape of the settings is described once.
-/

namespace ClusterControl

/-- How scalars and records are read. -/
structure Dialect where
  string : Decoder String
  bool : Decoder Bool
  natUpTo : Nat → Decoder Nat
  float : Decoder Float
  choice : {β : Type} → List β → (β → String) → Decoder β
  record : List String → Decoder Decoder.Fields
  /-- The items of an array that stands for a vector of some length. -/
  tuple : Nat → Decoder (List Json)

namespace Dialect

def nat64 (d : Dialect) : Decoder Nat := d.natUpTo maxNat64

def nat16 (d : Dialect) : Decoder Nat := d.natUpTo maxNat16

/-- Every value is of its own type. -/
def strict : Dialect :=
  { string := Decoder.string, bool := Decoder.bool, natUpTo := Decoder.natUpTo
    float := Decoder.float, choice := Decoder.choice, record := Decoder.record
    tuple := fun n j => match j with
      | .array js =>
        if n < js.length then .error (.tooLong n)
        else if js.length < n then .error (.tooShort n)
        else .ok js
      | _ => .error (.wrongKind "array") }

/-! ## Lenient scalars -/

def lower (s : String) : String := String.ofList (s.toList.map Char.toLower)

/-- The words for switches. -/
def switch? (s : String) : Option Bool :=
  match lower s with
  | "true" | "on" | "yes" => some true
  | "false" | "off" | "no" => some false
  | _ => none

/-- Digits with an optional plus sign. -/
def count? (s : String) : Option Nat :=
  let ds := match s.toList with
    | '+' :: ds => ds
    | ds => ds
  if ds.isEmpty || !ds.all Char.isDigit then none
  else some (Decimal.ofDigits ds)

/-- Digits with an optional sign, within 64 bits. -/
def integer? (s : String) : Option Int :=
  let i : Option Int := match s.toList with
    | '-' :: ds => (count? ("+" ++ String.ofList ds)).map fun n => -(n : Int)
    | _ => (count? s).map fun n => (n : Int)
  i.filter fun i => minInt64 ≤ i && i ≤ maxInt64

/-- A decimal number: digits with a point anywhere among them and an optional exponent, or the
name of an infinity or of no number. -/
def real? (s : String) : Option Float :=
  let (negative, cs) := match s.toList with
    | '-' :: cs => (true, cs)
    | '+' :: cs => (false, cs)
    | cs => (false, cs)
  let signed := fun (x : Float) => if negative then -x else x
  match lower (String.ofList cs) with
  | "inf" | "infinity" => some (signed (1 / 0))
  | "nan" => some (0 / 0)
  | _ =>
    let (whole, rest) := cs.span Char.isDigit
    let (fraction, rest) := match rest with
      | '.' :: rest => rest.span Char.isDigit
      | rest => ([], rest)
    if whole.isEmpty && fraction.isEmpty then none
    else
      let exponent : Option Int := match rest with
        | [] => some 0
        | c :: ds => if c == 'e' || c == 'E' then integer? (String.ofList ds) else none
      exponent.map fun e =>
        signed (Decimal.scientific (Decimal.ofDigits (whole ++ fraction)) (e - fraction.length))

/-- A number nearest to a double, a half away from zero, from zero to the largest count. -/
def nearestCount (x : Float) : Nat := if x.isNaN then 0 else x.round.toUInt64.toNat

/-- A whole number that no signed count holds is known only as a double. -/
def doubleOf : JsonNumber → Float
  | .whole i => Float.ofInt i
  | .double x => x

def lenientCount (hi : Nat) : Decoder Nat := fun j =>
  let bounded := fun (n : Nat) =>
    if n ≤ hi then Except.ok n else .error DecodeError.outOfRange
  match j with
  | .bool b => bounded (if b then 1 else 0)
  | .number (.whole i) =>
    if maxInt64 < i then bounded (nearestCount (Float.ofInt i))
    else if 0 ≤ i then bounded i.toNat
    else .error .outOfRange
  | .number (.double x) => bounded (nearestCount x)
  | .string s =>
    match switch? s with
    | some b => bounded (if b then 1 else 0)
    | none =>
      match count? s with
      | some n => bounded n
      | none => .error (.wrongKind "whole number")
  | _ => .error (.wrongKind "whole number")

def lenientBool : Decoder Bool
  | .bool b => .ok b
  | .number n => .ok (!(doubleOf n == 0))
  | .string s =>
    match lower s, switch? s with
    | "1", _ => .ok true
    | "0", _ => .ok false
    | _, some b => .ok b
    | _, none => .error (.wrongKind "boolean")
  | _ => .error (.wrongKind "boolean")

def lenientFloat : Decoder Float
  | .bool b => .ok (if b then 1 else 0)
  | .number n => .ok (doubleOf n)
  | .string s =>
    match switch? s, real? s with
    | some b, _ => .ok (if b then 1 else 0)
    | none, some x => .ok x
    | none, none => .error (.wrongKind "number")
  | _ => .error (.wrongKind "number")

def lenientString : Decoder String
  | .string s => .ok s
  | .bool b => .ok (if b then "true" else "false")
  | .number (.whole i) => .ok (if maxInt64 < i then Decimal.positional (Float.ofInt i) else toString i)
  | .number (.double x) => .ok (Decimal.positional x)
  | _ => .error (.wrongKind "string")

/-- A name in any letter case; an object with that one name says the same. -/
def lenientChoice {β : Type} (all : List β) (key : β → String) : Decoder β := fun j =>
  let named := fun (s : String) => match all.find? fun b => lower (key b) == lower s with
    | some b => Except.ok b
    | none => .error (DecodeError.unknownName s)
  match j with
  | .string s => named s
  | .object [(s, _)] => named s
  | _ => .error .notAName

/-- Scalars may be written as values of another type, and surplus items are passed over. -/
def lenient : Dialect :=
  { string := lenientString, bool := lenientBool, natUpTo := lenientCount, float := lenientFloat
    choice := lenientChoice
    record := fun fields j => match j with
      | .array js => Decoder.record fields (.array (js.take fields.length))
      | j => Decoder.record fields j
    tuple := fun n j => match j with
      | .array js => if n ≤ js.length then .ok (js.take n) else .error (.tooShort n)
      | _ => .error (.wrongKind "array") }

end Dialect

end ClusterControl
