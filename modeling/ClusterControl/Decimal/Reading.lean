/-!
# Reading decimals

The whole number that digits write, and the double nearest to a decimal.
-/

namespace ClusterControl.Decimal

/-- The number that decimal digits write. -/
def ofDigits (ds : List Char) : Nat := ds.foldl (fun n c => n * 10 + (c.toNat - '0'.toNat)) 0

/-- The double nearest to `m · 10 ^ e`; beyond the range of doubles it is zero or infinite. -/
def scientific (m : Nat) (e : Int) : Float :=
  let width := ((Nat.toDigits 10 m).length : Int) + e
  if m = 0 ∨ width < -400 then 0
  else if 400 < width then 1 / 0
  else if 0 ≤ e then OfScientific.ofScientific m false e.toNat
  else OfScientific.ofScientific m true (-e).toNat

end ClusterControl.Decimal
