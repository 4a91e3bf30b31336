import TurtleScript.Decimal.Binary

/-!
Rounding to the nearest. A quotient becomes the nearest natural number and `m · 2 ^ q` the nearest
double; a half goes to the even neighbour.
-/

namespace TurtleScript.Decimal

/-- The quotient rounded to the nearest natural number, a half going to the even one. -/
def roundDiv (num den : Nat) : Nat :=
  let floor := num / den
  let twice := 2 * (num % den)
  if den < twice ∨ (twice = den ∧ floor % 2 = 1) then floor + 1 else floor

/-- The exponent of the last place of the doubles near `m · 2 ^ q`. -/
def lastPlace (m : Nat) (q : Int) : Int := max (q + Nat.log2 m - fractionBits) leastExponent

/-- The double nearest to `m · 2 ^ q`. In the bits of a double a carry out of the fraction goes into
the exponent, so rounding up to the next power of two needs no care; from the largest exponent on,
the number is infinite. -/
def nearest (m : Nat) (q : Int) : Float :=
  let last := lastPlace m q
  let units :=
    if last ≤ q then m * Nat.pow 2 (q - last).toNat
    else roundDiv m (Nat.pow 2 (last - q).toNat)
  let bits := (last - leastExponent).toNat * hiddenBit + units
  if m = 0 then 0.0
  else if greatestField * hiddenBit ≤ bits then 1.0 / 0.0
  else Float.ofBits bits.toUInt64

/-- The integer that a double is, if it is one. -/
def integer? (x : Float) : Option Int :=
  match Binary.ofFloat x with
  | .nan | .infinite _ => none
  | .finite negative m q =>
    let signed (n : Nat) : Int := if negative then -n else n
    match q with
    | .ofNat k => some (signed (m * Nat.pow 2 k))
    | .negSucc k =>
      if m % Nat.pow 2 (k + 1) = 0 then some (signed (m / Nat.pow 2 (k + 1))) else none

end TurtleScript.Decimal
