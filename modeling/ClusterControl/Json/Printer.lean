import ClusterControl.Json.Value
import ClusterControl.Decimal.Shortest

/-!
# Writing JSON text

Compact text on one line, and indented text with one member to a line.  Doubles are written with
the fewest digits that read back; a double that is not finite is written as null.
-/

namespace ClusterControl.Json

/-- The lower-case hexadecimal digit of a number below sixteen. -/
def hexChar (n : Nat) : Char :=
  if n < 10 then Char.ofNat ('0'.toNat + n) else Char.ofNat ('a'.toNat + (n - 10))

/-- The text of one character inside a string. -/
def escapeChar (c : Char) : String :=
  match c with
  | '"' => "\\\""
  | '\\' => "\\\\"
  | '\n' => "\\n"
  | '\r' => "\\r"
  | '\t' => "\\t"
  | '\x08' => "\\b"
  | '\x0c' => "\\f"
  | c =>
    if c.toNat < 0x20 then
      "\\u00" ++ String.ofList [hexChar (c.toNat / 16), hexChar (c.toNat % 16)]
    else c.toString

def quote (s : String) : String :=
  "\"" ++ s.foldl (fun acc c => acc ++ escapeChar c) "" ++ "\""

def numberText : JsonNumber → String
  | .whole i => toString i
  | .double x => (Decimal.shortest x).getD "null"

mutual

/-- Text on one line, without blanks. -/
def compact : Json → String
  | .null => "null"
  | .bool b => if b then "true" else "false"
  | .number n => numberText n
  | .string s => quote s
  | .array items => "[" ++ ",".intercalate (compactAll items) ++ "]"
  | .object ms => "\x7b" ++ ",".intercalate (compactMembers ms) ++ "\x7d"

def compactAll : List Json → List String
  | [] => []
  | j :: rest => compact j :: compactAll rest

def compactMembers : List (String × Json) → List String
  | [] => []
  | (k, j) :: rest => (quote k ++ ":" ++ compact j) :: compactMembers rest

end

/-- A line end and the indentation of a level. -/
def newline (level : Nat) : String := "\n" ++ String.ofList (List.replicate (2 * level) ' ')

/-- The entries of an array or object, one to a line. -/
def block (level : Nat) (opening closing : String) (entries : List String) : String :=
  if entries.isEmpty then opening ++ closing
  else
    opening ++ newline (level + 1) ++ ("," ++ newline (level + 1)).intercalate entries
      ++ newline level ++ closing

mutual

/-- Indented text, two blanks to a level. -/
def prettyAt (level : Nat) : Json → String
  | .array items => block level "[" "]" (prettyAll (level + 1) items)
  | .object ms => block level "\x7b" "\x7d" (prettyMembers (level + 1) ms)
  | .null => "null"
  | .bool b => if b then "true" else "false"
  | .number n => numberText n
  | .string s => quote s

def prettyAll (level : Nat) : List Json → List String
  | [] => []
  | j :: rest => prettyAt level j :: prettyAll level rest

def prettyMembers (level : Nat) : List (String × Json) → List String
  | [] => []
  | (k, j) :: rest => (quote k ++ ": " ++ prettyAt level j) :: prettyMembers level rest

end

/-- Indented text of a value. -/
def pretty (j : Json) : String := prettyAt 0 j

end ClusterControl.Json
