import Serialize.Float.Values
import Mathlib.Data.Rat.Floor

/-!
# Arithmetic that rounds once

A unit computes the exact rational result and rounds it once. Of the rounding only this is assumed:
it keeps the order of the rationals, and it leaves the value of a finite pattern where it is. What is
rounded between two finite patterns is then finite and between them.
-/

namespace Binary32

/-! ### Values as rationals -/

/-- The value of a finite pattern. -/
def toRat (x : BitVec 32) : ℚ := value x / unit

theorem unit_pos : (0 : ℚ) < unit := Nat.cast_pos.mpr (Nat.two_pow_pos 149)

theorem toRat_le_iff (x y : BitVec 32) : toRat x ≤ toRat y ↔ orderKey x ≤ orderKey y := by
  rw [toRat, toRat, div_le_div_iff_of_pos_right unit_pos, Int.cast_le, value_le_iff]

theorem isFinite_iff_orderKey (x : BitVec 32) :
    isFinite x = true ↔ -(infinity : Int) < orderKey x ∧ orderKey x < infinity := by
  rw [isFinite_iff, orderKey]
  split <;> omega

theorem isFinite_of_between {x low high : BitVec 32} (hlow : isFinite low = true)
    (hhigh : isFinite high = true) (hle : toRat low ≤ toRat x) (hge : toRat x ≤ toRat high) :
    isFinite x = true := by
  rw [toRat_le_iff] at hle hge
  rw [isFinite_iff_orderKey] at hlow hhigh ⊢
  omega

theorem not_lt_of_toRat_le {x y : BitVec 32} (h : toRat y ≤ toRat x) : lt x y = false := by
  rw [← Bool.not_eq_true, lt_iff]
  rintro ⟨-, -, hlt⟩
  exact absurd ((toRat_le_iff y x).mp h) (Int.not_le.mpr hlt)

theorem toRat_zero : toRat zero = 0 := by
  rw [toRat, show value zero = 0 from rfl, Int.cast_zero, zero_div]

theorem toRat_lt_of_lt {x y : BitVec 32} (h : lt x y = true) : toRat x < toRat y := by
  rw [← not_le]
  intro hle
  rw [not_lt_of_toRat_le hle] at h
  cases h

theorem toRat_one : toRat one = 1 := by
  rw [toRat, show value one = unit by decide, Int.cast_natCast, div_self unit_pos.ne']

theorem toRat_half : toRat half = 1 / 2 := by
  have hvalue : value half = (2 ^ 148 : Nat) := by decide
  have hunit : (unit : ℚ) = 2 ^ 148 * 2 := by
    rw [unit, Nat.cast_pow, pow_succ, Nat.cast_ofNat]
  rw [toRat, hvalue, hunit, Int.cast_natCast, Nat.cast_pow, Nat.cast_ofNat,
    div_mul_cancel_left₀ (pow_ne_zero _ two_ne_zero), one_div]

theorem toRat_two_pow_32 : toRat 0x4F800000 = 2 ^ 32 := by
  have hvalue : value 0x4F800000 = (2 ^ 32 * unit : Nat) := by decide
  rw [toRat, hvalue, Int.cast_natCast, Nat.cast_mul, mul_div_cancel_right₀ _ unit_pos.ne',
    Nat.cast_pow, Nat.cast_ofNat]

/-- A finite pattern with a value. -/
structure Exact (x : BitVec 32) (q : ℚ) : Prop where
  isFinite : isFinite x = true
  toRat_eq : toRat x = q

theorem exact_zero : Exact zero 0 := ⟨rfl, toRat_zero⟩

theorem exact_one : Exact one 1 := ⟨rfl, toRat_one⟩

theorem exact_half : Exact half (1 / 2) := ⟨rfl, toRat_half⟩

theorem exact_self {x : BitVec 32} (h : isFinite x = true) : Exact x (toRat x) := ⟨h, rfl⟩

/-! ### Roundings -/

/-- A rounding of the rationals to patterns other than NaN, the infinities among them. -/
structure Rounding where
  round : ℚ → BitVec 32
  isNumber : ∀ q, isNaN (round q) = false
  mono : ∀ q r, q ≤ r → orderKey (round q) ≤ orderKey (round r)
  fixes : ∀ x, isFinite x = true → orderKey (round (toRat x)) = orderKey x

/-- The pattern is what the rational rounds to, the sign of a zero aside. -/
structure Rounding.Rounds (rounding : Rounding) (x : BitVec 32) (q : ℚ) : Prop where
  isNumber : isNaN x = false
  orderKey_eq : orderKey x = orderKey (rounding.round q)

namespace Rounding

variable {rounding : Rounding} {x y low high : BitVec 32} {q r : ℚ}

theorem rounds_toRat (h : isFinite x = true) : rounding.Rounds x (toRat x) :=
  ⟨isNaN_of_isFinite h, (rounding.fixes x h).symm⟩

theorem Rounds.toRat_le (hx : rounding.Rounds x q) (hy : rounding.Rounds y r) (h : q ≤ r) :
    toRat x ≤ toRat y := by
  rw [toRat_le_iff, hx.orderKey_eq, hy.orderKey_eq]
  exact rounding.mono q r h

/-- Two patterns one rational rounds to have one value. -/
theorem Rounds.same (hx : rounding.Rounds x q) (hy : rounding.Rounds y q) (h : isFinite y = true) :
    Exact x (toRat y) :=
  have hle := hx.toRat_le hy (le_refl q)
  have hge := hy.toRat_le hx (le_refl q)
  ⟨isFinite_of_between h h hge hle, le_antisymm hle hge⟩

/-- What is representable is not rounded. -/
theorem Rounds.exact (hx : rounding.Rounds x q) (hy : Exact y q) : Exact x q := by
  obtain ⟨hfinite, rfl⟩ := hy
  exact hx.same (rounds_toRat hfinite) hfinite

theorem Rounds.isFinite (hx : rounding.Rounds x q) (hlow : isFinite low = true)
    (hhigh : isFinite high = true) (hle : toRat low ≤ q) (hge : q ≤ toRat high) :
    isFinite x = true :=
  isFinite_of_between hlow hhigh ((rounds_toRat hlow).toRat_le hx hle)
    (hx.toRat_le (rounds_toRat hhigh) hge)

end Rounding

/-- A unit that computes exactly and rounds once. -/
class RoundedArithmetic extends Arithmetic where
  rounding : Rounding
  add_rounds : ∀ x y, isFinite x = true → isFinite y = true →
    rounding.Rounds (add x y) (toRat x + toRat y)
  sub_rounds : ∀ x y, isFinite x = true → isFinite y = true →
    rounding.Rounds (sub x y) (toRat x - toRat y)
  mul_rounds : ∀ x y, isFinite x = true → isFinite y = true →
    rounding.Rounds (mul x y) (toRat x * toRat y)
  div_rounds : ∀ x y, isFinite x = true → isFinite y = true → toRat y ≠ 0 →
    rounding.Rounds (div x y) (toRat x / toRat y)
  ofU32_rounds : ∀ n, rounding.Rounds (ofU32 n) n.toNat
  /-- Only finite operands have a finite difference. -/
  finite_of_sub : ∀ x y, isFinite (sub x y) = true → isFinite x = true ∧ isFinite y = true
  floor_exact : ∀ x, isFinite x = true → Exact (floor x) ⌊toRat x⌋
  ceil_exact : ∀ x, isFinite x = true → Exact (ceil x) ⌈toRat x⌉
  toU32_exact : ∀ x, isFinite x = true → (toU32 x).toNat = min ⌊toRat x⌋₊ (2 ^ 32 - 1)

namespace Exact

variable [RoundedArithmetic] {x y : BitVec 32} {q r : ℚ}

open RoundedArithmetic

theorem add (hx : Exact x q) (hy : Exact y r) : rounding.Rounds (Arithmetic.add x y) (q + r) := by
  obtain ⟨hx, rfl⟩ := hx
  obtain ⟨hy, rfl⟩ := hy
  exact add_rounds x y hx hy

theorem sub (hx : Exact x q) (hy : Exact y r) : rounding.Rounds (Arithmetic.sub x y) (q - r) := by
  obtain ⟨hx, rfl⟩ := hx
  obtain ⟨hy, rfl⟩ := hy
  exact sub_rounds x y hx hy

theorem mul (hx : Exact x q) (hy : Exact y r) : rounding.Rounds (Arithmetic.mul x y) (q * r) := by
  obtain ⟨hx, rfl⟩ := hx
  obtain ⟨hy, rfl⟩ := hy
  exact mul_rounds x y hx hy

theorem div (hx : Exact x q) (hy : Exact y r) (hne : r ≠ 0) :
    rounding.Rounds (Arithmetic.div x y) (q / r) := by
  obtain ⟨hx, rfl⟩ := hx
  obtain ⟨hy, rfl⟩ := hy
  exact div_rounds x y hx hy hne

/-! What zero and one do, and a pattern to itself, is not rounded. -/

theorem of_zero_add (hx : Exact x 0) (hy : Exact y r) : Exact (Arithmetic.add x y) r := by
  have hsum := hx.add hy
  rw [zero_add] at hsum
  exact hsum.exact hy

theorem of_sub_self (hx : Exact x q) : Exact (Arithmetic.sub x x) 0 := by
  have hdifference := hx.sub hx
  rw [sub_self] at hdifference
  exact hdifference.exact exact_zero

theorem of_zero_mul (hx : Exact x 0) (hy : Exact y r) : Exact (Arithmetic.mul x y) 0 := by
  have hproduct := hx.mul hy
  rw [zero_mul] at hproduct
  exact hproduct.exact exact_zero

theorem of_one_mul (hx : Exact x 1) (hy : Exact y r) : Exact (Arithmetic.mul x y) r := by
  have hproduct := hx.mul hy
  rw [one_mul] at hproduct
  exact hproduct.exact hy

theorem of_zero_div (hx : Exact x 0) (hy : Exact y r) (hne : r ≠ 0) :
    Exact (Arithmetic.div x y) 0 := by
  have hquotient := hx.div hy hne
  rw [zero_div] at hquotient
  exact hquotient.exact exact_zero

theorem of_div_self (hx : Exact x q) (hne : q ≠ 0) : Exact (Arithmetic.div x x) 1 := by
  have hquotient := hx.div hx hne
  rw [div_self hne] at hquotient
  exact hquotient.exact exact_one

end Exact

/-! ### What keeps an order

Patterns in order between two finite ones stay in order through every operation that leaves the two
ends finite. -/

/-- Two patterns in order, and a finite one on either side. -/
structure Ordered (low x y high : BitVec 32) : Prop where
  low_finite : isFinite low = true
  high_finite : isFinite high = true
  low_le : toRat low ≤ toRat x
  le : toRat x ≤ toRat y
  le_high : toRat y ≤ toRat high

namespace Ordered

variable {low x y high z : BitVec 32}

theorem left_finite (h : Ordered low x y high) : isFinite x = true :=
  isFinite_of_between h.low_finite h.high_finite h.low_le (h.le.trans h.le_high)

theorem right_finite (h : Ordered low x y high) : isFinite y = true :=
  isFinite_of_between h.low_finite h.high_finite (h.low_le.trans h.le) h.le_high

theorem left_self (h : Ordered low x y high) : Ordered low x x high :=
  ⟨h.low_finite, h.high_finite, h.low_le, le_refl _, h.le.trans h.le_high⟩

theorem right_self (h : Ordered low x y high) : Ordered low y y high :=
  ⟨h.low_finite, h.high_finite, h.low_le.trans h.le, le_refl _, h.le_high⟩

/-- An operation that rounds a function of the value, and the function keeps the order. -/
theorem map {rounding : Rounding} (op : BitVec 32 → BitVec 32) (f : ℚ → ℚ)
    (hop : ∀ x, isFinite x = true → rounding.Rounds (op x) (f (toRat x)))
    (hf : ∀ q r, q ≤ r → f q ≤ f r) (h : Ordered low x y high) (hlow : isFinite (op low) = true)
    (hhigh : isFinite (op high) = true) : Ordered (op low) (op x) (op y) (op high) where
  low_finite := hlow
  high_finite := hhigh
  low_le := (hop low h.low_finite).toRat_le (hop x h.left_finite) (hf _ _ h.low_le)
  le := (hop x h.left_finite).toRat_le (hop y h.right_finite) (hf _ _ h.le)
  le_high := (hop y h.right_finite).toRat_le (hop high h.high_finite) (hf _ _ h.le_high)

section Operations

variable [RoundedArithmetic]

open RoundedArithmetic

theorem add (h : Ordered low x y high) (hz : isFinite z = true)
    (hlow : isFinite (Arithmetic.add low z) = true)
    (hhigh : isFinite (Arithmetic.add high z) = true) :
    Ordered (Arithmetic.add low z) (Arithmetic.add x z) (Arithmetic.add y z)
      (Arithmetic.add high z) :=
  map (Arithmetic.add · z) (· + toRat z) (fun x hx => add_rounds x z hx hz)
    (fun _ _ hle => add_le_add_left hle _) h hlow hhigh

theorem sub (h : Ordered low x y high) (hz : isFinite z = true)
    (hlow : isFinite (Arithmetic.sub low z) = true)
    (hhigh : isFinite (Arithmetic.sub high z) = true) :
    Ordered (Arithmetic.sub low z) (Arithmetic.sub x z) (Arithmetic.sub y z)
      (Arithmetic.sub high z) :=
  map (Arithmetic.sub · z) (· - toRat z) (fun x hx => sub_rounds x z hx hz)
    (fun _ _ hle => sub_le_sub_right hle _) h hlow hhigh

theorem mul (h : Ordered low x y high) (hz : isFinite z = true) (hnonneg : 0 ≤ toRat z)
    (hlow : isFinite (Arithmetic.mul low z) = true)
    (hhigh : isFinite (Arithmetic.mul high z) = true) :
    Ordered (Arithmetic.mul low z) (Arithmetic.mul x z) (Arithmetic.mul y z)
      (Arithmetic.mul high z) :=
  map (Arithmetic.mul · z) (· * toRat z) (fun x hx => mul_rounds x z hx hz)
    (fun _ _ hle => mul_le_mul_of_nonneg_right hle hnonneg) h hlow hhigh

theorem div (h : Ordered low x y high) (hz : isFinite z = true) (hpos : 0 < toRat z)
    (hlow : isFinite (Arithmetic.div low z) = true)
    (hhigh : isFinite (Arithmetic.div high z) = true) :
    Ordered (Arithmetic.div low z) (Arithmetic.div x z) (Arithmetic.div y z)
      (Arithmetic.div high z) :=
  map (Arithmetic.div · z) (· / toRat z) (fun x hx => div_rounds x z hx hz hpos.ne')
    (fun _ _ hle => div_le_div_of_nonneg_right hle hpos.le) h hlow hhigh

theorem ofU32 {first i j last : BitVec 32} (hfirst : first ≤ i) (hle : i ≤ j) (hlast : j ≤ last)
    (hlow : isFinite (Arithmetic.ofU32 first) = true)
    (hhigh : isFinite (Arithmetic.ofU32 last) = true) :
    Ordered (Arithmetic.ofU32 first) (Arithmetic.ofU32 i) (Arithmetic.ofU32 j)
      (Arithmetic.ofU32 last) where
  low_finite := hlow
  high_finite := hhigh
  low_le := (ofU32_rounds first).toRat_le (ofU32_rounds i) (Nat.cast_le.mpr hfirst)
  le := (ofU32_rounds i).toRat_le (ofU32_rounds j) (Nat.cast_le.mpr hle)
  le_high := (ofU32_rounds j).toRat_le (ofU32_rounds last) (Nat.cast_le.mpr hlast)

theorem toU32_floor (h : Ordered low x y high) :
    (Arithmetic.toU32 (Arithmetic.floor x)).toNat ≤ (Arithmetic.toU32 (Arithmetic.floor y)).toNat := by
  obtain ⟨hxFinite, hx⟩ := floor_exact x h.left_finite
  obtain ⟨hyFinite, hy⟩ := floor_exact y h.right_finite
  rw [toU32_exact _ hxFinite, toU32_exact _ hyFinite, hx, hy]
  have hfloor : (⌊toRat x⌋ : ℚ) ≤ ⌊toRat y⌋ := Int.cast_le.mpr (Int.floor_le_floor h.le)
  exact min_le_min_right _ (Nat.floor_le_floor hfloor)

end Operations

end Ordered

end Binary32
