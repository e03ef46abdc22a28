/-!
# Numeric host addresses

An address of four bytes may be written in one to four parts, each decimal, octal or hexadecimal; it
is always shown as four decimal bytes.  An address of eight groups is written in brackets; it is
shown in lower case with its longest run of two or more zero groups left out.
-/

namespace ClusterControl.Network

/-- The value of a digit in any base up to sixteen. -/
def digitValue (c : Char) : Nat :=
  if c.isDigit then c.toNat - '0'.toNat
  else if 'a' ≤ c ∧ c ≤ 'f' then c.toNat - 'a'.toNat + 10
  else if 'A' ≤ c ∧ c ≤ 'F' then c.toNat - 'A'.toNat + 10
  else 16

/-- A number in a base; no digits at all stand for zero. -/
def numeral? (base : Nat) (digits : List Char) : Option Nat :=
  digits.foldlM
    (fun n c => if digitValue c < base then some (n * base + digitValue c) else none) 0

/-- Splits at every occurrence of a character. -/
def splitAtChar (sep : Char) : List Char → List (List Char)
  | [] => [[]]
  | c :: rest =>
    match splitAtChar sep rest with
    | [] => [[c]]
    | part :: parts => if c = sep then [] :: part :: parts else (c :: part) :: parts

/-! ## Four bytes -/

/-- One part of an address: hexadecimal after `0x`, octal after `0`, decimal otherwise. -/
def ipv4Part? : List Char → Option Nat
  | [] => none
  | '0' :: 'x' :: ds => numeral? 16 ds
  | '0' :: 'X' :: ds => numeral? 16 ds
  | '0' :: d :: ds => numeral? 8 (d :: ds)
  | ds => numeral? 10 ds

/-- The parts of a dotted name; one trailing dot does not count. -/
def dottedParts (host : List Char) : List (List Char) :=
  let parts := splitAtChar '.' host
  match parts.reverse with
  | [] :: rest => if rest.isEmpty then parts else rest.reverse
  | _ => parts

/-- A host name whose last part is a number has to be an address. -/
def looksNumeric (host : List Char) : Bool :=
  match (dottedParts host).getLast? with
  | some part => !part.isEmpty && (part.all Char.isDigit || (ipv4Part? part).isSome)
  | none => false

/-- The value of the parts of an address: each but the last is one byte, and the last fills the
rest. -/
def ipv4Value? : Nat → List Nat → Option Nat
  | _, [] => none
  | bytes, [last] => if last < Nat.pow 256 bytes then some last else none
  | bytes, part :: rest =>
    if part < 256 then (ipv4Value? (bytes - 1) rest).map (part * Nat.pow 256 (bytes - 1) + ·) else none

def ipv4? (host : List Char) : Option Nat := do
  let parts ← (dottedParts host).mapM ipv4Part?
  if parts.length ≤ 4 then ipv4Value? 4 parts else none

def ipv4Text (n : Nat) : String :=
  ".".intercalate ([n / 16777216, n / 65536 % 256, n / 256 % 256, n % 256].map toString)

/-! ## Eight groups -/

/-- A dotted tail of an address, as two groups. -/
def dottedTail? (text : List Char) : Option (List Nat) := do
  let parts := splitAtChar '.' text
  let plain := parts.all fun p => !p.isEmpty && (p.head? != some '0' || p.length == 1)
  if parts.length = 4 ∧ plain then
    match ← parts.mapM (numeral? 10) with
    | [a, b, c, d] => if a < 256 ∧ b < 256 ∧ c < 256 ∧ d < 256 then
        some [a * 256 + b, c * 256 + d] else none
    | _ => none
  else none

/-- The groups of a run without an abbreviation. -/
def groups? : List (List Char) → Option (List Nat)
  | [] => some []
  | [last] =>
    if last.contains '.' then dottedTail? last
    else if last.isEmpty ∨ 4 < last.length then none
    else (numeral? 16 last).map fun g => [g]
  | g :: rest =>
    if g.isEmpty ∨ 4 < g.length then none
    else do return (← numeral? 16 g) :: (← groups? rest)

/-- The groups of one side of an abbreviation. -/
def side? (text : List Char) : Option (List Nat) :=
  if text.isEmpty then some [] else groups? (splitAtChar ':' text)

/-- Splits at the first double colon. -/
def splitAtDoubleColon : List Char → Option (List Char × List Char)
  | ':' :: ':' :: rest => some ([], rest)
  | c :: rest => (splitAtDoubleColon rest).map fun s => (c :: s.1, s.2)
  | [] => none

def ipv6? (text : List Char) : Option (List Nat) := do
  match splitAtDoubleColon text with
  | none =>
    let gs ← groups? (splitAtChar ':' text)
    if gs.length = 8 then some gs else none
  | some (left, right) =>
    if left.contains '.' then none
    else
      let l ← side? left
      let r ← side? right
      if l.length + r.length ≤ 7 then
        some (l ++ List.replicate (8 - l.length - r.length) 0 ++ r)
      else none

/-- How many zero groups a list starts with. -/
def zeroRun (gs : List Nat) : Nat := (gs.takeWhile (· == 0)).length

/-- The first of the longest runs of zero groups, as its start and length. -/
def longestZeroRun (gs : List Nat) : Nat × Nat :=
  (List.range gs.length).foldl
    (fun best i =>
      let n := zeroRun (gs.drop i)
      if best.2 < n then (i, n) else best)
    (0, 0)

def ipv6Text (gs : List Nat) : String :=
  let write := fun (l : List Nat) => ":".intercalate (l.map fun g => String.ofList (Nat.toDigits 16 g))
  let (start, length) := longestZeroRun gs
  if length < 2 then "[" ++ write gs ++ "]"
  else "[" ++ write (gs.take start) ++ "::" ++ write (gs.drop (start + length)) ++ "]"

end ClusterControl.Network
