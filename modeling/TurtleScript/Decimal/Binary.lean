/-!
The exact value of a double: a sign and a natural number times a power of two. Everything that
writes a number works on this form in exact arithmetic.
-/

namespace TurtleScript.Decimal

/-- A double taken apart. A finite one is `± mantissa · 2 ^ exponent`. -/
inductive Binary where
  | nan
  | infinite (negative : Bool)
  | finite (negative : Bool) (mantissa : Nat) (exponent : Int)
deriving Repr, DecidableEq

def fractionBits : Nat := 52

/-- The bit in front of the fraction, which is not stored: `2 ^ fractionBits`. -/
def hiddenBit : Nat := Nat.pow 2 fractionBits

def greatestField : Nat := 2047

/-- The exponent of the last fraction bit in the smallest doubles. -/
def leastExponent : Int := -1074

/-- Takes a double apart. The sign is the top bit, eleven bits of biased exponent follow, and the
rest is the fraction; an exponent field of zero marks a subnormal number, one of all ones an
infinity or no number at all. -/
def Binary.ofFloat (x : Float) : Binary :=
  let bits := x.toBits.toNat
  let negative := bits / Nat.pow 2 63 == 1
  let field := bits / hiddenBit % (greatestField + 1)
  let fraction := bits % hiddenBit
  if field = greatestField then
    if fraction = 0 then .infinite negative else .nan
  else if field = 0 then .finite negative fraction leastExponent
  else .finite negative (hiddenBit + fraction) (leastExponent + (field - 1 : Nat))

/-- A positive rational number as a numerator over a positive denominator. -/
structure Ratio where
  num : Nat
  den : Nat
deriving Repr, DecidableEq

def Ratio.scaled (m : Nat) : Int → Ratio
  | .ofNat q => ⟨m * Nat.pow 2 q, 1⟩
  | .negSucc q => ⟨m, Nat.pow 2 (q + 1)⟩

def Ratio.shift (r : Ratio) : Int → Ratio
  | .ofNat k => ⟨r.num * Nat.pow 10 k, r.den⟩
  | .negSucc k => ⟨r.num, r.den * Nat.pow 10 (k + 1)⟩

/-- Whether the first ratio is below the second. -/
def Ratio.lt (a b : Ratio) : Bool := a.num * b.den < b.num * a.den

/-- Whether the first ratio is at most the second. -/
def Ratio.le (a b : Ratio) : Bool := a.num * b.den ≤ b.num * a.den

end TurtleScript.Decimal
