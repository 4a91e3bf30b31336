import TurtleScript.Decimal.Rounding

/-!
A fixed number of decimal places: the exact binary value in units of the last place, rounded.
-/

namespace TurtleScript.Decimal

/-- The number `m · 2 ^ q` in units of `10 ^ -places`, rounded. -/
def roundedAt (m : Nat) (q : Int) (places : Nat) : Nat :=
  let scaled := (Ratio.scaled m q).shift places
  roundDiv scaled.num scaled.den

end TurtleScript.Decimal
