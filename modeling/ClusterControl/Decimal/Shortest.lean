import ClusterControl.Decimal.Binary64

/-!
# Shortest decimals

The text with the fewest digits that reads back as the same double, and of those the nearest one.
The digits come from exact arithmetic on the interval of numbers that round to the double; where
the point and the exponent go is a separate matter.
-/

namespace ClusterControl.Decimal

/-- Digits and scale of a positive decimal: the value is `digits · 10 ^ exponent`. -/
structure Digits where
  digits : Nat
  exponent : Int
  deriving DecidableEq, Repr

/-- `c · 10 ^ k` compared with `num / den`. -/
def compareScaled (c : Nat) (k : Int) (num den : Nat) : Ordering :=
  compare (c * Nat.pow 10 k.toNat * den) (num * Nat.pow 10 (-k).toNat)

/-- The largest whole number `c` with `c · 10 ^ k ≤ num / den`. -/
def floorScaled (k : Int) (num den : Nat) : Nat :=
  num * Nat.pow 10 (-k).toNat / (den * Nat.pow 10 k.toNat)

/-- How many times `num` has to be multiplied by ten to reach `den`, at most `fuel` times. -/
def tensUntil (den : Nat) : Nat → Nat → Nat
  | 0, _ => 0
  | fuel + 1, num => if den ≤ num then 0 else tensUntil den fuel (num * 10) + 1

/-- The exponent of the leading decimal digit of `num / den`. -/
def leadingExponent (num den : Nat) : Int :=
  if den ≤ num then ((Nat.toDigits 10 (num / den)).length : Int) - 1
  else -(tensUntil den 400 num : Int)

/-- The interval of numbers that round to a double, in quarters of its unit. -/
structure Rounding where
  low : Nat
  value : Nat
  high : Nat
  den : Nat
  /-- The two ends round to the double as well. -/
  closed : Bool

/-- The interval around `m · 2 ^ q`; below a power of two the unit is half as large. -/
def Rounding.of (m : Nat) (q : Int) : Rounding :=
  let up := Nat.pow 2 (q - 2).toNat
  let below := if m = hiddenBit ∧ -1074 < q then 1 else 2
  { low := (4 * m - below) * up, value := 4 * m * up, high := (4 * m + 2) * up
    den := Nat.pow 2 (2 - q).toNat, closed := m % 2 == 0 }

/-- The decimal rounds to the double. -/
def Rounding.contains (r : Rounding) (c : Nat) (k : Int) : Bool :=
  let l := compareScaled c k r.low r.den
  let h := compareScaled c k r.high r.den
  if r.closed then l.isGE && h.isLE else l.isGT && h.isLT

/-- Of the two neighbours of the value on a decimal grid, the one that rounds to the double; of
two, the nearer, and the even one when both are as near. -/
def Rounding.onGrid (r : Rounding) (k : Int) : Option Digits :=
  let c := floorScaled k r.value r.den
  match r.contains c k, r.contains (c + 1) k with
  | true, false => some ⟨c, k⟩
  | false, true => some ⟨c + 1, k⟩
  | false, false => none
  | true, true =>
    match compareScaled (2 * c + 1) k (2 * r.value) r.den with
    | .gt => some ⟨c, k⟩
    | .lt => some ⟨c + 1, k⟩
    | .eq => some ⟨if c % 2 = 0 then c else c + 1, k⟩

/-- The decimal with the fewest digits that reads back as `m · 2 ^ q`. -/
def shortestDigits (m : Nat) (q : Int) : Digits :=
  let r := Rounding.of m q
  let e := leadingExponent r.value r.den
  ((List.range 17).findSome? fun n : Nat => r.onGrid (e - (n : Int))).getD ⟨m * Nat.pow 2 q.toNat, 0⟩

/-- Writes digits with the point after the first `position` of them: in full for positions from
-4 to 16, with an exponent elsewhere. -/
def Digits.render (d : Digits) : String :=
  let text := (Nat.toDigits 10 d.digits)
  let position : Int := text.length + d.exponent
  let ofChars := fun (cs : List Char) => String.ofList cs
  if 0 ≤ d.exponent ∧ position ≤ 16 then
    ofChars (text ++ List.replicate d.exponent.toNat '0') ++ ".0"
  else if 0 < position ∧ position ≤ 16 then
    ofChars (text.take position.toNat) ++ "." ++ ofChars (text.drop position.toNat)
  else if -5 < position ∧ position ≤ 0 then
    "0." ++ ofChars (List.replicate (-position).toNat '0' ++ text)
  else
    let exponent := "e" ++ toString (position - 1)
    match text with
    | [] => "0.0"
    | [c] => ofChars [c] ++ exponent
    | c :: rest => ofChars [c] ++ "." ++ ofChars rest ++ exponent

/-- Drops trailing zeros into the exponent, at most `fuel` of them. -/
def Digits.trimZeros : Nat → Digits → Digits
  | 0, d => d
  | fuel + 1, d =>
    if d.digits ≠ 0 ∧ d.digits % 10 = 0 then trimZeros fuel ⟨d.digits / 10, d.exponent + 1⟩ else d

/-- The shortest text of a finite double; `none` for the others. -/
def shortest (x : Float) : Option String :=
  match Binary64.ofFloat x with
  | .finite negative m q =>
    let mark := if negative then "-" else ""
    some (mark ++ if m = 0 then "0.0" else ((shortestDigits m q).trimZeros 20).render)
  | _ => none

/-- Writes digits with their point and without an exponent, however long that gets. -/
def Digits.renderPositional (d : Digits) : String :=
  let text := Nat.toDigits 10 d.digits
  let position : Int := text.length + d.exponent
  if 0 ≤ d.exponent then String.ofList (text ++ List.replicate d.exponent.toNat '0')
  else if 0 < position then
    String.ofList (text.take position.toNat) ++ "." ++ String.ofList (text.drop position.toNat)
  else "0." ++ String.ofList (List.replicate (-position).toNat '0' ++ text)

/-- The shortest text of a double that uses no exponent. -/
def positional (x : Float) : String :=
  match Binary64.ofFloat x with
  | .nan => "NaN"
  | .infinite negative => if negative then "-inf" else "inf"
  | .finite negative m q =>
    let mark := if negative then "-" else ""
    mark ++ if m = 0 then "0" else ((shortestDigits m q).trimZeros 20).renderPositional

end ClusterControl.Decimal
