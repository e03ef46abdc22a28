import ClusterControl.Text.Glyph

/-!
# Quoted names

Names inside messages are put in quotes, so that blanks and line ends in them can be seen.  Quotes,
backslashes and characters that do not show are written as escapes.
-/

namespace ClusterControl.Text

/-- The digits of a number in lower-case hexadecimal. -/
def hex (n : Nat) : String := String.ofList (Nat.toDigits 16 n)

/-- The character shows as itself, on its own. -/
def isPlain (c : Char) : Bool := !isHidden c && !isMark c

def quotedChar (c : Char) : String :=
  match c with
  | '"' => "\\\""
  | '\\' => "\\\\"
  | '\n' => "\\n"
  | '\r' => "\\r"
  | '\t' => "\\t"
  | '\x00' => "\\0"
  | c => if isPlain c then c.toString else "\\u\x7b" ++ hex c.toNat ++ "\x7d"

/-- A name in quotes. -/
def quoted (s : String) : String :=
  "\"" ++ s.foldl (fun acc c => acc ++ quotedChar c) "" ++ "\""

/-- A list of names in quotes. -/
def quotedList (l : List String) : String := "[" ++ ", ".intercalate (l.map quoted) ++ "]"

/-- A name that may be missing. -/
def quotedOption : Option String → String
  | some s => "Some(" ++ quoted s ++ ")"
  | none => "None"

end ClusterControl.Text
