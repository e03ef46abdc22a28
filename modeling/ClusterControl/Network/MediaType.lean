import ClusterControl.Network.Address

/-!
# Media types

The type of a body: a type, a subtype, and parameters that are checked but not kept.  A subtype may
end in a suffix that names the format it is written in.
-/

namespace ClusterControl.Network

structure MediaType where
  type : String
  /-- The subtype, up to its suffix if it has one. -/
  subtype : String
  suffix : Option String
  deriving DecidableEq, Repr

namespace MediaType

/-- The characters of names and of values without quotes. -/
def isTokenChar (c : Char) : Bool :=
  c.isAlphanum || "!#$%&'*+-.^_\x60|~".toList.contains c

/-- Where in a list of parameters a reader is. -/
inductive Place
  | start
  | name
  | valueStart
  | value
  /-- Right after an opening quote; another quote here is an ordinary character. -/
  | quoteStart
  | quoted
  | closed
  deriving DecidableEq, Repr

/-- A list of parameters from a place on is well formed. -/
def wellFormed : Place → List Char → Bool
  | .start, [] => true
  | .start, c :: rest =>
    if c = ' ' then wellFormed .start rest else isTokenChar c && wellFormed .name rest
  | .name, [] => false
  | .name, c :: rest =>
    if c = '=' then wellFormed .valueStart rest else isTokenChar c && wellFormed .name rest
  | .valueStart, [] => true
  | .valueStart, c :: rest =>
    if c = '"' then wellFormed .quoteStart rest else isTokenChar c && wellFormed .value rest
  | .value, [] => true
  | .value, c :: rest =>
    if c = ';' then wellFormed .start rest else isTokenChar c && wellFormed .value rest
  | .quoteStart, [] => false
  | .quoteStart, c :: rest => 0x20 ≤ c.toNat && c.toNat != 0x7f && wellFormed .quoted rest
  | .quoted, [] => false
  | .quoted, c :: rest =>
    if c = '"' then wellFormed .closed rest
    else 0x20 ≤ c.toNat && c.toNat != 0x7f && wellFormed .quoted rest
  | .closed, [] => true
  | .closed, c :: rest =>
    if c = ';' then wellFormed .start rest else c = ' ' && wellFormed .closed rest

/-- Splits a subtype at its last plus sign, unless that comes first. -/
def splitSuffix (subtype : List Char) : List Char × Option (List Char) :=
  let suffix := (subtype.reverse.takeWhile (· != '+')).reverse
  let front := (subtype.take (subtype.length - suffix.length)).dropLast
  if front.isEmpty then (subtype, none) else (front, some suffix)

/-- Reads a media type, in any letter case. -/
def parse? (text : String) : Option MediaType :=
  let chars := text.toLower.toList
  let (essence, parameters) := chars.span (· != ';')
  match splitAtChar '/' essence with
  | [type, subtype] =>
    if type.isEmpty || subtype.isEmpty || !(type ++ subtype).all isTokenChar
        || !wellFormed .start (parameters.drop 1) then none
    else
      let (front, suffix) := splitSuffix subtype
      some ⟨String.ofList type, String.ofList front, suffix.map String.ofList⟩
  | _ => none

/-- The body is JSON, or a format that is written as JSON. -/
def isJson (m : MediaType) : Bool :=
  m.type == "application" && (m.subtype == "json" || m.suffix == some "json")

end MediaType

end ClusterControl.Network
