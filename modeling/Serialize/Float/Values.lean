import Serialize.Float.Arithmetic
import Mathlib.Algebra.Order.Ring.Nat

/-!
# The values of single precision patterns

Every finite pattern stands for a whole number of the smallest steps `2^-149`, with a sign. Patterns
in the order of their magnitudes have their values in the same order.
-/

namespace Binary32

/-- The number of smallest steps in one unit. -/
def unit : Nat := 2 ^ 149

def infinity : Nat := 0x7F800000

/-- The steps a pattern without its sign bit stands for: the significand at its exponent. -/
def steps (magnitude : Nat) : Nat :=
  if magnitude < 2 ^ 23 then magnitude
  else (2 ^ 23 + magnitude % 2 ^ 23) * 2 ^ (magnitude / 2 ^ 23 - 1)

/-- The value of a finite pattern, in steps. -/
def value (x : BitVec 32) : Int :=
  if x.msb then -(steps (magnitude x) : Int) else steps (magnitude x)

def isInfinite (x : BitVec 32) : Bool := !isFinite x && !isNaN x

/-! ### Patterns by magnitude -/

theorem magnitude_eq (x : BitVec 32) : magnitude x = x.toNat % 2 ^ 31 := by
  rw [magnitude, BitVec.toNat_setWidth]

theorem isFinite_iff (x : BitVec 32) : isFinite x = true ↔ magnitude x < infinity := by
  rw [isFinite, decide_eq_true_iff, magnitude_eq, infinity, ne_eq, ← BitVec.toNat_inj,
    BitVec.extractLsb'_toNat, BitVec.toNat_allOnes, Nat.shiftRight_eq_div_pow]
  have hlt := x.isLt
  omega

theorem isNaN_iff (x : BitVec 32) : isNaN x = true ↔ infinity < magnitude x := by
  have hfinite := isFinite_iff x
  have hfraction : fraction x = magnitude x % 2 ^ 23 := by
    rw [fraction, BitVec.extractLsb'_toNat, Nat.shiftRight_zero, magnitude_eq]
    omega
  have hlt : magnitude x < 2 ^ 31 := (x.setWidth 31).isLt
  rw [isNaN, Bool.and_eq_true, Bool.not_eq_true', decide_eq_true_iff, ← Bool.not_eq_true, hfinite,
    hfraction, infinity]
  omega

theorem isInfinite_iff (x : BitVec 32) : isInfinite x = true ↔ magnitude x = infinity := by
  rw [isInfinite, Bool.and_eq_true, Bool.not_eq_true', Bool.not_eq_true', ← Bool.not_eq_true,
    ← Bool.not_eq_true, isFinite_iff, isNaN_iff]
  omega

theorem isNaN_of_isFinite {x : BitVec 32} (h : isFinite x = true) : isNaN x = false := by
  rw [isNaN, h]
  rfl

theorem isInfinite_of_isFinite {x : BitVec 32} (h : isFinite x = true) : isInfinite x = false := by
  rw [isInfinite, h]
  rfl

/-! ### Values in order -/

theorem steps_lt_steps {m n : Nat} (h : m < n) : steps m < steps n := by
  rw [steps, steps]
  split
  · split
    · exact h
    · refine lt_of_lt_of_le (show m < 2 ^ 23 by assumption) ?_
      exact (Nat.le_add_right _ _).trans (Nat.le_mul_of_pos_right _ (Nat.two_pow_pos _))
  · rw [if_neg (by omega)]
    obtain ⟨hexponent, hfraction⟩ | hexponent : m / 2 ^ 23 = n / 2 ^ 23 ∧ m % 2 ^ 23 < n % 2 ^ 23 ∨
        m / 2 ^ 23 < n / 2 ^ 23 := by omega
    · rw [hexponent]
      exact Nat.mul_lt_mul_of_pos_right (by omega) (Nat.two_pow_pos _)
    · -- a carry out of the significand doubles the exponent's weight
      calc (2 ^ 23 + m % 2 ^ 23) * 2 ^ (m / 2 ^ 23 - 1)
          < 2 ^ 24 * 2 ^ (m / 2 ^ 23 - 1) :=
            Nat.mul_lt_mul_of_pos_right (by omega) (Nat.two_pow_pos _)
        _ = 2 ^ 23 * 2 ^ (m / 2 ^ 23 - 1 + 1) := by
            rw [show 2 ^ 24 = 2 ^ 23 * 2 from rfl, Nat.mul_assoc, ← Nat.pow_succ']
        _ ≤ 2 ^ 23 * 2 ^ (n / 2 ^ 23 - 1) :=
            Nat.mul_le_mul_left _ (Nat.pow_le_pow_right (by decide) (by omega))
        _ ≤ (2 ^ 23 + n % 2 ^ 23) * 2 ^ (n / 2 ^ 23 - 1) :=
            Nat.mul_le_mul_right _ (Nat.le_add_right _ _)

theorem steps_le_steps {m n : Nat} (h : m ≤ n) : steps m ≤ steps n := by
  rcases Nat.eq_or_lt_of_le h with heq | hlt
  · rw [heq]
  · exact (steps_lt_steps hlt).le

theorem value_lt_value {x y : BitVec 32} (h : orderKey x < orderKey y) : value x < value y := by
  have hzero : steps 0 = 0 := rfl
  have hx := steps_le_steps (Nat.zero_le (magnitude x))
  have hy := steps_le_steps (Nat.zero_le (magnitude y))
  rw [orderKey, orderKey] at h
  rw [value, value]
  rcases hxs : x.msb with - | - <;> rcases hys : y.msb with - | - <;>
    simp only [hxs, hys, Bool.false_eq_true, if_false, if_true] at h ⊢
  · exact_mod_cast steps_lt_steps (by omega)
  · omega
  · rcases Nat.eq_zero_or_pos (magnitude x) with hxzero | hxpos
    · have hlt := steps_lt_steps (show 0 < magnitude y by omega)
      omega
    · have hlt := steps_lt_steps hxpos
      omega
  · have hlt := steps_lt_steps (show magnitude y < magnitude x by omega)
    omega

/-- The value is read off the order key. -/
theorem value_eq_sign_mul (x : BitVec 32) :
    value x = (orderKey x).sign * steps (orderKey x).natAbs := by
  have hmagnitude : ((magnitude x : Int)).sign * steps (magnitude x) = steps (magnitude x) := by
    rcases Nat.eq_zero_or_pos (magnitude x) with hzero | hpos
    · rw [hzero]
      rfl
    · rw [Int.sign_eq_one_of_pos (Int.natCast_pos.mpr hpos), one_mul]
  rw [value, orderKey]
  split
  · rw [Int.sign_neg, Int.natAbs_neg, Int.natAbs_natCast, Int.neg_mul, hmagnitude]
  · rw [Int.natAbs_natCast, hmagnitude]

theorem value_le_iff (x y : BitVec 32) : value x ≤ value y ↔ orderKey x ≤ orderKey y := by
  constructor
  · intro h
    by_contra hlt
    exact absurd (value_lt_value (Int.not_le.mp hlt)) (Int.not_lt.mpr h)
  · intro h
    rcases Int.lt_or_eq_of_le h with hlt | heq
    · exact (value_lt_value hlt).le
    · rw [value_eq_sign_mul x, value_eq_sign_mul y, heq]

theorem lt_iff (x y : BitVec 32) : lt x y = true ↔
    ¬infinity < magnitude x ∧ ¬infinity < magnitude y ∧ orderKey x < orderKey y := by
  rw [lt, Bool.and_eq_true, Bool.and_eq_true, decide_eq_true_iff, Bool.not_eq_true',
    Bool.not_eq_true', ← Bool.not_eq_true, ← Bool.not_eq_true, isNaN_iff, isNaN_iff, and_assoc]

theorem steps_one : steps 0x3F800000 = unit := by decide

theorem steps_largest : steps 0x4F7FFFFF = 4294967040 * unit := by decide

theorem steps_whole : steps 0x4B000000 = 2 ^ 23 * unit := by decide

end Binary32
