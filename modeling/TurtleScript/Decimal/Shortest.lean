import TurtleScript.Decimal.Binary

/-!
The shortest decimal that reads back to a given double. For one, two, ... seventeen digits the two
neighbours of the value on that decimal grid are tested against the interval of reals that round
to the double; the first grid with a hit wins, and of two hits the nearer one. Where both are
equally near, the notation decides.
-/

namespace TurtleScript.Decimal

/-- A positive decimal number: its digits, read as one natural number, times `10 ^ exponent`. -/
structure Digits where
  value : Nat
  exponent : Int
deriving Repr, DecidableEq

/-- The reals that round to a positive double, in quarters of its last place: from `low` to `high`,
both included when `closed`. -/
structure Interval where
  low : Ratio
  high : Ratio
  closed : Bool
deriving Repr

/-- The rounding interval of `m · 2 ^ q`. The gap below a power of two is half as wide as the gap
above it, except at the bottom of the range. The ends belong to it when `m` is even. -/
def Interval.around (m : Nat) (q : Int) : Interval :=
  let narrow := m = hiddenBit ∧ leastExponent < q
  { low := Ratio.scaled (4 * m - (if narrow then 1 else 2)) (q - 2)
    high := Ratio.scaled (4 * m + 2) (q - 2)
    closed := m % 2 = 0 }

/-- Whether `n · 10 ^ k` lies in the interval. -/
def Interval.contains (i : Interval) (n : Nat) (k : Int) : Bool :=
  let point := Ratio.shift ⟨n, 1⟩ k
  if i.closed then i.low.le point && point.le i.high else i.low.lt point && point.lt i.high

/-- The value rounded down to a multiple of `10 ^ k`, counted in such multiples. -/
def Ratio.onGrid (r : Ratio) (k : Int) : Nat :=
  let scaled := r.shift (-k)
  scaled.num / scaled.den

/-- Which of two neighbours stands for the value midway between them. -/
inductive Tie where
  /-- The greater one. -/
  | upper
  /-- The one whose last digit is even. -/
  | even
deriving Repr, DecidableEq

/-- The one of `n` and `n + 1` that stands for the value midway between them. -/
def Tie.choose : Tie → Nat → Nat
  | .upper, n => n + 1
  | .even, n => n + n % 2

/-- Of `n` and `n + 1` the one nearer to a ratio between them. -/
def Tie.nearer (tie : Tie) (r : Ratio) (n : Nat) : Nat :=
  let middle : Ratio := ⟨2 * n + 1, 2⟩
  if r.lt middle then n else if middle.lt r then n + 1 else tie.choose n

/-- Of the multiples `n` and `n + 1` of `10 ^ k` on both sides of the value, the one that lies in
the interval; of two the nearer. -/
def Interval.pick (i : Interval) (tie : Tie) (value : Ratio) (k : Int) : Option Nat :=
  let n := value.onGrid k
  match i.contains n k && 0 < n, i.contains (n + 1) k with
  | true, true => some (tie.nearer (value.shift (-k)) n)
  | true, false => some n
  | false, true => some (n + 1)
  | false, false => none

/-- The number of decimal digits in front of the point, or minus the number of zeros behind it
before the first digit: the least `e` with the value below `10 ^ e`, searched upwards from a lower
bound. -/
def Ratio.magnitudeFrom (r : Ratio) (start : Int) : Nat → Int
  | 0 => start
  | n + 1 => if r.lt (Ratio.shift ⟨1, 1⟩ start) then start else r.magnitudeFrom (start + 1) n

/-- The least `e` with `m · 2 ^ q < 10 ^ e`. The search starts from the binary logarithm times
0.30103, which is at most a few units off. -/
def magnitude (m : Nat) (q : Int) : Int :=
  let estimate := ((Nat.log2 m : Int) + q) * 30103 / 100000 - 1
  (Ratio.scaled m q).magnitudeFrom estimate 6

/-- Drops trailing zeros, at most `n` of them. -/
def Digits.trim (d : Digits) : Nat → Digits
  | 0 => d
  | n + 1 => if d.value % 10 = 0 then trim ⟨d.value / 10, d.exponent + 1⟩ n else d

def shortestFrom (tie : Tie) (i : Interval) (value : Ratio) (top : Int) : Nat → Digits
  | 0 => ⟨value.onGrid (top - 17), top - 17⟩
  | n + 1 =>
    let k := top - (17 - n : Nat)
    match i.pick tie value k with
    | some digits => ⟨digits, k⟩
    | none => shortestFrom tie i value top n

/-- The shortest decimal that rounds to `m · 2 ^ q`, for positive `m`. -/
def shortest (tie : Tie) (m : Nat) (q : Int) : Digits :=
  (shortestFrom tie (.around m q) (.scaled m q) (magnitude m q) 17).trim 17

end TurtleScript.Decimal
