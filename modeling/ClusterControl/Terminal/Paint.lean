/-!
# Paint

Text on a terminal may be set in bold, dimmed or coloured.  Where colours are off, painting changes
nothing.
-/

namespace ClusterControl.Terminal

inductive Colour
  | red
  | green
  | yellow
  | blue
  | cyan
  deriving DecidableEq, Repr

def Colour.code : Colour → String
  | red => "31"
  | green => "32"
  | yellow => "33"
  | blue => "34"
  | cyan => "36"

/-- How a text is set. -/
structure Style where
  bold : Bool := false
  dimmed : Bool := false
  colour : Option Colour := none
  deriving DecidableEq, Repr

namespace Style

def plain : Style := {}

def inBold : Style := { bold := true }

def inDim : Style := { dimmed := true }

def coloured (c : Colour) : Style := { colour := some c }

def boldColoured (c : Colour) : Style := { bold := true, colour := some c }

/-- The codes of a style, weight before colour. -/
def codes (s : Style) : List String :=
  (if s.bold then ["1"] else []) ++ (if s.dimmed then ["2"] else [])
    ++ (s.colour.map Colour.code).toList

/-- What switches a style on. -/
def opening (s : Style) : String := "\x1b[" ++ ";".intercalate s.codes ++ "m"

end Style

/-- What switches every style off. -/
def closing : String := "\x1b[0m"

/-- Sets a text in a style, where colours are on; a switch-off inside the text is followed by the
style again. -/
def paint (colours : Bool) (s : Style) (text : String) : String :=
  if colours && !s.codes.isEmpty then
    s.opening ++ (closing ++ s.opening).intercalate (text.splitOn closing) ++ closing
  else text

/-- Colours are on when `CLICOLOR_FORCE` is set to anything but zero. -/
def coloursForced (force : Option String) : Bool :=
  match force with
  | some s => s != "0"
  | none => false

/-- How good the news is. -/
inductive Tone
  | good
  | attention
  | critical
  | asleep
  deriving DecidableEq, Repr

def Tone.style : Tone → Style
  | good => .coloured .green
  | attention => .coloured .yellow
  | critical => .coloured .red
  | asleep => .inDim

end ClusterControl.Terminal
