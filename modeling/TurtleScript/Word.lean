/-!
The ranges of machine words of 64 bits.
-/

namespace TurtleScript.Word

def count : Nat := 18446744073709551616

/-- The greatest unsigned word. -/
def last : Nat := 18446744073709551615

def least : Int := -9223372036854775808

def greatest : Int := 9223372036854775807

/-- Whether an integer is a signed word. -/
def fits (n : Int) : Bool := least ≤ n && n ≤ greatest

def clamp (n : Int) : Int := max least (min n greatest)

theorem fits_clamp (n : Int) : fits (clamp n) = true := by
  rw [fits, Bool.and_eq_true, decide_eq_true_iff, decide_eq_true_iff]
  unfold clamp least greatest
  omega

theorem clamp_eq_self {n : Int} (inside : fits n = true) : clamp n = n := by
  rw [fits, Bool.and_eq_true, decide_eq_true_iff, decide_eq_true_iff] at inside
  unfold clamp
  omega

end TurtleScript.Word
