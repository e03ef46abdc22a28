/-!
# Doubles as exact numbers

A finite double is a whole number of units, each a power of two.  Decimal text is made from that
exact value, never from a rounded one.
-/

namespace ClusterControl.Decimal

/-- What the bits of a double say. -/
inductive Binary64
  /-- The number `± m · 2 ^ q`. -/
  | finite (negative : Bool) (m : Nat) (q : Int)
  | infinite (negative : Bool)
  | nan
  deriving DecidableEq, Repr

/-- The bit that stands before the fraction of all but the smallest doubles. -/
def hiddenBit : Nat := 4503599627370496

/-- Reads the sign, exponent and fraction fields. -/
def Binary64.ofFloat (x : Float) : Binary64 :=
  let bits := x.toBits.toNat
  let negative := bits / hiddenBit / 2048 == 1
  let exponent : Nat := bits / hiddenBit % 2048
  let fraction : Nat := bits % hiddenBit
  if exponent = 2047 then if fraction = 0 then infinite negative else nan
  else if exponent = 0 then finite negative fraction (-1074)
  else finite negative (fraction + hiddenBit) ((exponent : Int) - 1075)

/-- The sixteen hexadecimal digits of the bits; both zeros are written alike, and so is every value
that is no number. -/
def hexBits (x : Float) : String :=
  if x.isNaN then "nan"
  else
    let digits := Nat.toDigits 16 (if x == 0 then 0 else x.toBits.toNat)
    String.ofList (List.replicate (16 - digits.length) '0' ++ digits)

/-- `num / den` rounded to the nearest whole number, a half to the even neighbour. -/
def roundDiv (num den : Nat) : Nat :=
  let floor := num / den
  let twice := 2 * (num % den)
  if twice < den then floor
  else if den < twice then floor + 1
  else if floor % 2 = 0 then floor else floor + 1

/-- The decimal digits of a number, padded with zeros on the left to at least `width`. -/
def paddedDigits (width n : Nat) : String :=
  let digits := Nat.toDigits 10 n
  String.ofList (List.replicate (width - digits.length) '0' ++ digits)

end ClusterControl.Decimal
