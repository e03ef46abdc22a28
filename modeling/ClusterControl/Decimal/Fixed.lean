import ClusterControl.Decimal.Binary64

/-!
# Decimals with a fixed number of places

The exact value of a double, rounded to a given number of decimal places.  A half goes to the even
neighbour, and no exponent is ever written.
-/

namespace ClusterControl.Decimal

/-- The whole number nearest to `m · 2 ^ q · 10 ^ places`. -/
def scaledInteger (m : Nat) (q : Int) (places : Nat) : Nat :=
  roundDiv (m * Nat.pow 2 q.toNat * Nat.pow 10 places) (Nat.pow 2 (-q).toNat)

/-- Writes a scaled whole number with its decimal point. -/
def pointed (places n : Nat) : String :=
  let whole := toString (n / Nat.pow 10 places)
  if places = 0 then whole else whole ++ "." ++ paddedDigits places (n % Nat.pow 10 places)

/-- A double with a fixed number of places. -/
def fixed (places : Nat) (x : Float) : String :=
  match Binary64.ofFloat x with
  | .nan => "NaN"
  | .infinite negative => if negative then "-inf" else "inf"
  | .finite negative m q => (if negative then "-" else "") ++ pointed places (scaledInteger m q places)

end ClusterControl.Decimal
