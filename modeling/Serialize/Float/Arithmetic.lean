import Mathlib.Data.BitVec

/-!
# Single precision arithmetic on bit patterns

A binary32 value is its bit pattern. Whether a pattern is finite, whether it is a NaN and how two
patterns compare are read off the bits. The operations that round are those of an `Arithmetic`, of
which only what holds whatever the rounding does is assumed.
-/

/-! ### Fields of a pattern -/

namespace BitField

/-- The mask that covers `width` bits from bit `start` of a word. -/
def mask (w start width : Nat) : BitVec w := (BitVec.allOnes width).setWidth w <<< start

theorem and_mask {w : Nat} (x : BitVec w) (start width : Nat) :
    x &&& mask w start width = (x.extractLsb' start width).setWidth w <<< start := by
  apply BitVec.eq_of_getLsbD_eq
  intro i hi
  simp only [mask, BitVec.getLsbD_and, BitVec.getLsbD_shiftLeft, BitVec.getLsbD_setWidth,
    BitVec.getLsbD_extractLsb', BitVec.getLsbD_allOnes]
  by_cases hstart : i < start
  · simp [hstart]
  · have hindex : start + (i - start) = i := by omega
    rw [hindex]
    cases x.getLsbD i <;> simp

theorem and_mask_eq_iff {w start width : Nat} (h : start + width ≤ w) (x : BitVec w) :
    x &&& mask w start width = mask w start width
      ↔ x.extractLsb' start width = BitVec.allOnes width := by
  rw [and_mask]
  constructor
  · intro heq
    apply BitVec.eq_of_getLsbD_eq
    intro i hi
    have hbit := congrArg (fun y : BitVec w => y.getLsbD (start + i)) heq
    have hword : start + i < w := by omega
    have hnot : ¬start + i < start := by omega
    have hindex : start + i - start = i := by omega
    have hiw : i < w := by omega
    simp only [mask, BitVec.getLsbD_shiftLeft, BitVec.getLsbD_setWidth, hword, hnot, hindex, hiw,
      decide_true, decide_false, Bool.not_false, Bool.true_and] at hbit
    exact hbit
  · intro heq
    rw [heq, mask]

end BitField

namespace Binary64

/-- Neither an infinity nor a NaN. -/
def isFinite (x : BitVec 64) : Bool := x.extractLsb' 52 11 ≠ BitVec.allOnes 11

end Binary64

namespace Binary32

/-- The trailing significand field. -/
def fraction (x : BitVec 32) : Nat := (x.extractLsb' 0 23).toNat

/-- Neither an infinity nor a NaN. -/
def isFinite (x : BitVec 32) : Bool := x.extractLsb' 23 8 ≠ BitVec.allOnes 8

def isNaN (x : BitVec 32) : Bool := !isFinite x && decide (fraction x ≠ 0)

/-- The pattern without its sign bit, which orders the magnitudes. -/
def magnitude (x : BitVec 32) : Nat := (x.setWidth 31).toNat

/-- Patterns other than NaN in the order of their values, the two zeros equal. -/
def orderKey (x : BitVec 32) : Int := if x.msb then -(magnitude x : Int) else magnitude x

/-- `<` on floats: false as soon as one side is a NaN. -/
def lt (x y : BitVec 32) : Bool := !isNaN x && !isNaN y && decide (orderKey x < orderKey y)

def zero : BitVec 32 := 0x00000000
def half : BitVec 32 := 0x3F000000
def one : BitVec 32 := 0x3F800000

/-- `4294967040.0`, the largest float below `2^32`. -/
def largestBelowU32 : BitVec 32 := 0x4F7FFFFF

/-- The operations of a float unit, and what is assumed of them: a difference of ordered operands is
positive, and rounding up inside `[1, 4294967040]` stays inside it. -/
class Arithmetic where
  add : BitVec 32 → BitVec 32 → BitVec 32
  sub : BitVec 32 → BitVec 32 → BitVec 32
  mul : BitVec 32 → BitVec 32 → BitVec 32
  div : BitVec 32 → BitVec 32 → BitVec 32
  floor : BitVec 32 → BitVec 32
  ceil : BitVec 32 → BitVec 32
  ofU32 : BitVec 32 → BitVec 32
  /-- The saturating conversion, a NaN giving zero. -/
  toU32 : BitVec 32 → BitVec 32
  sub_pos : ∀ min max, lt min max = true → isFinite (sub max min) = true →
    lt zero (sub max min) = true
  ceil_range : ∀ x, isNaN x = false → lt x one = false → lt largestBelowU32 x = false →
    1 ≤ (toU32 (ceil x)).toNat ∧ (toU32 (ceil x)).toNat ≤ 4294967040

end Binary32
