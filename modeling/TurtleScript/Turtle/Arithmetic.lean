import TurtleScript.Decimal.Rounding

/-!
Arithmetic on doubles by exact rules: the length of a diagonal, the remainder of an angle, and the
lesser and greater of two numbers.
-/

namespace TurtleScript.Turtle

open Decimal (Binary nearest)

/-- The integer square root, by Newton's method from an upper bound. -/
def squareRootFrom (n x : Nat) : Nat :=
  let y := (x + n / x) / 2
  if y < x then squareRootFrom n y else x
termination_by x

def squareRoot (n : Nat) : Nat :=
  if n = 0 then 0 else squareRootFrom n (Nat.pow 2 (n.log2 / 2 + 1))

/-- The double nearest to the square root of `n · 4 ^ q`. The root is taken of a number of some 120
bits, so that it has more bits than a double, and a last bit tells whether anything is left over. -/
def rootOfScaled (n : Nat) (q : Int) : Float :=
  if n = 0 then 0.0
  else if n.log2 < 120 then
    let shift := (121 - n.log2) / 2
    let scaled := n * Nat.pow 4 shift
    let root := squareRoot scaled
    let left := if root * root = scaled then 0 else 1
    nearest (2 * root + left) (q - shift - 1)
  else
    let shift := (n.log2 - 119) / 2
    let root := squareRoot (n / Nat.pow 4 shift)
    let left := if root * root * Nat.pow 4 shift = n then 0 else 1
    nearest (2 * root + left) (q + shift - 1)

/-- The length of a diagonal with the given sides: the double nearest to the exact length. An
infinite side makes an infinite diagonal, whatever the other side. -/
def hypotenuse (x y : Float) : Float :=
  match Binary.ofFloat x, Binary.ofFloat y with
  | .infinite _, _ | _, .infinite _ => 1.0 / 0.0
  | .nan, _ | _, .nan => 0.0 / 0.0
  | .finite _ m p, .finite _ n q =>
    let low := min p q
    let a := m * Nat.pow 2 (p - low).toNat
    let b := n * Nat.pow 2 (q - low).toNat
    rootOfScaled (a * a + b * b) low

/-- The remainder of a number by a positive natural number, with the sign of the number; exact. -/
def remainder (x : Float) (n : Nat) : Float :=
  match Binary.ofFloat x with
  | .nan | .infinite _ => 0.0 / 0.0
  | .finite negative m q =>
    let rest :=
      match q with
      | .ofNat k => nearest (m * Nat.pow 2 k % n) 0
      | .negSucc k => nearest (m % (n * Nat.pow 2 (k + 1))) q
    if negative then -rest else rest

def withinTurn (degrees : Float) : Float :=
  let rest := remainder degrees 360
  if rest < 0.0 then rest + 360.0 else rest

def radiansPerDegree : Float := 3.14159265358979323846264338327950288 / 180.0

def radians (degrees : Float) : Float := degrees * radiansPerDegree

/-- The lesser of two numbers; the other one where one is undefined. -/
def lesser (a b : Float) : Float := if b < a || a.isNaN then b else a

/-- The greater of two numbers; the other one where one is undefined. -/
def greater (a b : Float) : Float := if a < b || a.isNaN then b else a

end TurtleScript.Turtle
