import TurtleScript.Proofs.Glide

/-!
Doubles that are integers. A double is taken apart by its bits as its definition says (`ofFloat_eq`), so the
integer that `integer?` finds is the real number that the double is, and where it finds none the double is no
integer at all (`integer?_eq_some_iff`).
-/

namespace TurtleScript.Decimal

open Float.Model UnpackedFloat
open Turtle (exact)

section
variable (bits : BitVec Format.binary64.numBits)

theorem toNat_unpackMantissa : (unpackMantissa bits).toNat = bits.toNat % hiddenBit := by
  unfold unpackMantissa
  rw [BitVec.toNat_cast,BitVec.extractLsb_toNat]
  rfl

theorem toNat_unpackExponent : (unpackExponent bits).toNat = bits.toNat / hiddenBit % (greatestField + 1) := by
  unfold unpackExponent
  rw [BitVec.toNat_cast,BitVec.extractLsb_toNat,Nat.shiftRight_eq_div_pow]
  rfl

theorem toNat_unpackSign : (unpackSign bits).toNat = bits.toNat / Nat.pow 2 63 := by
  have oneBit : bits.toNat / Nat.pow 2 63 < 2 := by
    rw [Nat.div_lt_iff_lt_mul (by decide)]
    exact bits.isLt
  unfold unpackSign
  rw [BitVec.toNat_cast,BitVec.extractLsb_toNat,Nat.shiftRight_eq_div_pow]
  exact Nat.mod_eq_of_lt oneBit

end

theorem toNat_hidden (fraction : BitVec 52) : (1#1 ++ fraction).toNat = hiddenBit + fraction.toNat := by
  rw [BitVec.toNat_append,← Nat.shiftLeft_add_eq_or_of_lt fraction.isLt]
  rfl

def isNegative : Sign → Bool
  | .positive => false
  | .negative => true

theorem isNegative_ofBitVec (sign : BitVec 1) : isNegative (.ofBitVec sign) = (sign.toNat == 1) := by
  revert sign
  decide

/-- The double that is taken apart into a sign, a mantissa and an exponent. -/
def Binary.ofUnpacked : UnpackedFloat → Binary
  | .notANumber => .nan
  | .infinity sign => .infinite (isNegative sign)
  | .zero sign => .finite (isNegative sign) 0 leastExponent
  | .finite sign mantissa exponent _ => .finite (isNegative sign) mantissa exponent

theorem ofFloat_eq (x : Float) : Binary.ofFloat x = .ofUnpacked x.toModel.unpack := by
  have same : x.toBits.toNat = x.toModel.toBits.toBitVec.toNat := rfl
  unfold Binary.ofFloat Float.Model.unpack UnpackedFloat.unpack
  rw [same]
  generalize (x.toModel.toBits.toBitVec : BitVec Format.binary64.numBits) = bits
  dsimp only
  rw [← toNat_unpackMantissa,← toNat_unpackExponent,← toNat_unpackSign,← isNegative_ofBitVec]
  -- The definition compares words, and the reading of bits compares their values.
  have ones : @unpackExponent Format.binary64 bits = -1#_ ↔
      (@unpackExponent Format.binary64 bits).toNat = greatestField := BitVec.toNat_inj.symm
  have low : @unpackExponent Format.binary64 bits = 0#_ ↔
      (@unpackExponent Format.binary64 bits).toNat = 0 := BitVec.toNat_inj.symm
  have bare : @unpackMantissa Format.binary64 bits = 0#_ ↔
      (@unpackMantissa Format.binary64 bits).toNat = 0 := BitVec.toNat_inj.symm
  by_cases special : (@unpackExponent Format.binary64 bits).toNat = greatestField
  · rw [if_pos special,if_pos (ones.mpr special)]
    by_cases empty : (@unpackMantissa Format.binary64 bits).toNat = 0
    · rw [if_pos empty,if_pos (bare.mpr empty)]
      rfl
    · rw [if_neg empty,if_neg (mt bare.mp empty)]
      rfl
  rw [if_neg special,if_neg (mt ones.mp special)]
  by_cases subnormal : (@unpackExponent Format.binary64 bits).toNat = 0
  · rw [if_pos subnormal,if_pos (low.mpr subnormal)]
    by_cases empty : (@unpackMantissa Format.binary64 bits).toNat = 0
    · rw [dif_pos (bare.mpr empty),empty]
      rfl
    · rw [dif_neg (mt bare.mp empty),subnormal]
      rfl
  · rw [if_neg subnormal,if_neg (mt low.mp subnormal)]
    have exponent : leastExponent + ((@unpackExponent Format.binary64 bits).toNat - 1 : Nat) =
        ((@unpackExponent Format.binary64 bits).toNat : Int) - (Format.binary64.exponentBias + 52 : Nat) := by
      have bias : Format.binary64.exponentBias = 1023 := rfl
      unfold leastExponent
      omega
    rw [exponent,← toNat_hidden]
    rfl

def signed (negative : Bool) (n : Nat) : Int := if negative then -n else n

theorem signed_mul (negative : Bool) (a b : Nat) : signed negative (a * b) = signed negative a * b := by
  cases negative <;> simp [signed]

/-- The integer that `± m · 2 ^ q` is, if it is one. -/
def whole? (negative : Bool) (m : Nat) : Int → Option Int
  | .ofNat q => some (signed negative (m * Nat.pow 2 q))
  | .negSucc q =>
    if m % Nat.pow 2 (q + 1) = 0 then some (signed negative (m / Nat.pow 2 (q + 1))) else none

theorem integer?_eq (x : Float) : integer? x =
    match Binary.ofFloat x with
    | .finite negative m q => whole? negative m q
    | _ => none := by
  unfold integer?
  cases Binary.ofFloat x with
  | finite negative m q => cases q <;> rfl
  | _ => rfl

/-- A quotient by a power of two is an integer if and only if nothing is left over. -/
theorem whole?_eq_some_iff {negative : Bool} {m : Nat} {q k : Int} :
    whole? negative m q = some k ↔ (signed negative m : ℝ) * (2 : ℝ) ^ q = k := by
  cases q with
  | ofNat q =>
    have power : (2 : ℝ) ^ (Int.ofNat q) = ((Nat.pow 2 q : Nat) : ℝ) := by simp
    rw [whole?,Option.some_inj,signed_mul,power]
    exact_mod_cast Iff.rfl
  | negSucc q =>
    have positive : 0 < Nat.pow 2 (q + 1) := Nat.pow_pos (by decide)
    have power : (2 : ℝ) ^ (Int.negSucc q) = ((Nat.pow 2 (q + 1) : Nat) : ℝ)⁻¹ := by simp [zpow_negSucc]
    rw [whole?,power]
    generalize Nat.pow 2 (q + 1) = d at positive
    have nonzero : (d : ℝ) ≠ 0 := by exact_mod_cast positive.ne'
    -- In either case the number is the integer `k` just if `± m` is `k` times the divisor.
    rw [← div_eq_mul_inv,div_eq_iff nonzero]
    have cast : (signed negative m : ℝ) = k * d ↔ signed negative m = k * d := by exact_mod_cast Iff.rfl
    rw [cast]
    by_cases divides : m % d = 0
    · obtain ⟨n,rfl⟩ := Nat.dvd_of_mod_eq_zero divides
      rw [if_pos divides,Nat.mul_div_cancel_left n positive,Option.some_inj,Nat.mul_comm d n,signed_mul]
      have apart : (d : Int) ≠ 0 := by omega
      exact (Int.mul_eq_mul_right_iff apart).symm
    · rw [if_neg divides]
      refine iff_of_false (by simp) fun same => divides (Nat.mod_eq_zero_of_dvd ?_)
      have divisor : (d : Int) ∣ signed negative m := Dvd.intro_left k same.symm
      cases negative <;> simpa [signed,Int.natCast_dvd_natCast] using divisor

/-- A double is an integer if it is finite and the real number that it is is one. -/
def IsInteger (x : Float) (k : Int) : Prop := x.isFinite = true ∧ exact x = k

theorem exact_finite {x : Float} {sign : Sign} {mantissa : Nat} {exponent : Int} {positive : 0 < mantissa}
    (parts : x.toModel.unpack = .finite sign mantissa exponent positive) :
    exact x = (signed (isNegative sign) mantissa : ℝ) * (2 : ℝ) ^ exponent := by
  unfold exact
  rw [parts]
  cases sign with
  | positive =>
    change (mantissa : ℝ) * (2 : ℝ) ^ exponent = ((mantissa : Int) : ℝ) * (2 : ℝ) ^ exponent
    rw [Int.cast_natCast]
  | negative =>
    change -(mantissa * (2 : ℝ) ^ exponent) = ((-mantissa : Int) : ℝ) * (2 : ℝ) ^ exponent
    rw [Int.cast_neg,Int.cast_natCast,neg_mul]

theorem integer?_eq_some_iff {x : Float} {k : Int} : integer? x = some k ↔ IsInteger x k := by
  have finite : x.isFinite = x.toModel.unpack.isFinite := rfl
  rw [integer?_eq,ofFloat_eq,IsInteger,finite]
  -- What is not finite is no integer, and neither side finds one.
  have neither : (none : Option Int) = some k ↔ false = true ∧ exact x = k := by simp
  cases parts : x.toModel.unpack with
  | notANumber => exact neither
  | infinity sign => exact neither
  | zero sign =>
    have zero : exact x = 0 := by
      unfold exact
      rw [parts]
    have vanishes : (signed (isNegative sign) 0 : ℝ) * (2 : ℝ) ^ leastExponent = 0 := by
      cases sign <;> simp [signed,isNegative]
    rw [zero,← vanishes]
    exact whole?_eq_some_iff.trans (and_iff_right rfl).symm
  | finite sign mantissa exponent positive =>
    rw [exact_finite parts]
    exact whole?_eq_some_iff.trans (and_iff_right rfl).symm

theorem IsInteger.unique {x : Float} {k l : Int} (first : IsInteger x k) (second : IsInteger x l) : k = l := by
  have same := (integer?_eq_some_iff.mpr first).symm.trans (integer?_eq_some_iff.mpr second)
  simpa using same

end TurtleScript.Decimal
