import TurtleScript.Decimal.Shortest
import TurtleScript.Decimal.Fixed

/-!
How numbers are written. Three notations share the digits of `Decimal.shortest` and
`Decimal.roundedAt`: the plain one of program output, the one with a fixed number of places, and
the one of a JSON document.
-/

namespace TurtleScript.Decimal

def digitText (n : Nat) : String := String.ofList (Nat.toDigits 10 n)

def zeros (n : Nat) : String := String.ofList (List.replicate n '0')

def signText (negative : Bool) : String := if negative then "-" else ""

/-- The texts of the values that are no finite numbers. An undefined number has no sign. -/
def infiniteText (negative : Bool) : String := signText negative ++ "inf"

/-- A number with its decimal point `places` digits from the right; no point without places. -/
def pointed (n places : Nat) : String :=
  let digits := digitText n
  if places = 0 then digits
  else
    let padded := zeros (places + 1 - digits.length) ++ digits
    let whole := padded.length - places
    String.ofList (padded.toList.take whole) ++ "." ++ String.ofList (padded.toList.drop whole)

/-- Digits written positionally: zeros fill the place between the digits and the point. -/
def Digits.positional (d : Digits) : String :=
  match d.exponent with
  | .ofNat k => digitText d.value ++ zeros k
  | .negSucc k => pointed d.value (k + 1)

/-- The plain notation: the fewest digits that read back, the upper ones on a tie, never an
exponent, and a point only in front of a fraction. Zero keeps its sign. -/
def plain (x : Float) : String :=
  match Binary.ofFloat x with
  | .nan => "NaN"
  | .infinite negative => infiniteText negative
  | .finite negative 0 _ => signText negative ++ "0"
  | .finite negative m q => signText negative ++ (shortest .upper m q).positional

/-- The exact value rounded to a fixed number of places. -/
def fixed (places : Nat) (x : Float) : String :=
  match Binary.ofFloat x with
  | .nan => "NaN"
  | .infinite negative => infiniteText negative
  | .finite negative m q => signText negative ++ pointed (roundedAt m q places) places

/-- Digits with an exponent: one digit in front of the point, and no point without a fraction. The
exponent always has a sign. -/
def Digits.scientific (d : Digits) : String :=
  let digits := digitText d.value
  let fraction := digits.length - 1
  let exponent := d.exponent + fraction
  let sign := if exponent < 0 then "-" else "+"
  pointed d.value fraction ++ "e" ++ sign ++ digitText exponent.natAbs

/-- Digits as a JSON document writes a floating-point number: positional between a hundred
thousandth and ten to the sixteenth, always with a point; with an exponent outside. -/
def Digits.json (d : Digits) : String :=
  let top := d.exponent + (digitText d.value).length
  if top ≤ -5 ∨ 16 < top then d.scientific
  else if d.exponent < 0 then d.positional
  else d.positional ++ ".0"

/-- A JSON number in its shortest form, with an even last digit on a tie; a value that JSON cannot
write becomes `null`. -/
def json (x : Float) : String :=
  match Binary.ofFloat x with
  | .nan | .infinite _ => "null"
  | .finite negative 0 _ => signText negative ++ "0.0"
  | .finite negative m q => signText negative ++ (shortest .even m q).json

end TurtleScript.Decimal
