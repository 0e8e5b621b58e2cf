import Serialize.Float.Nearest
import Mathlib.Data.Nat.Cast.Order.Field

/-!
# How far a rounding is off

A rounding to nearest is off by at most half a unit in the last place: a `2^24`th of the magnitude,
or half a smallest step where the magnitude is below them all. A unit that computes exactly and
rounds so has every operation that close to the exact result.
-/

namespace Binary32

/-- Half a unit in the last place, in proportion to the magnitude. -/
def roundoff : ℚ := 1 / 2 ^ 24

/-- Half of the smallest step. -/
def tiny : ℚ := 1 / 2 ^ 150

theorem roundoff_pos : 0 < roundoff := by norm_num [roundoff]

theorem tiny_pos : 0 < tiny := by norm_num [tiny]

/-- How far off a rounding to a finite pattern may be. -/
def roundError (q : ℚ) : ℚ := |q| * roundoff + tiny

/-- A unit that rounds to within half a unit in the last place. -/
class AccurateArithmetic extends RoundedArithmetic where
  accurate : ∀ q, isFinite (rounding.round q) = true → |toRat (rounding.round q) - q| ≤ roundError q

open RoundedArithmetic

/-- What a rational rounds to is as close to it as the unit rounds. -/
theorem Rounding.Rounds.near [AccurateArithmetic] {x : BitVec 32} {q : ℚ} (h : rounding.Rounds x q)
    (hfinite : Binary32.isFinite x = true) : |toRat x - q| ≤ roundError q := by
  have hround : Binary32.isFinite (rounding.round q) = true := by
    rw [isFinite_iff_orderKey, ← h.orderKey_eq, ← isFinite_iff_orderKey]
    exact hfinite
  have hvalue : toRat x = toRat (rounding.round q) :=
    le_antisymm ((toRat_le_iff _ _).mpr h.orderKey_eq.le) ((toRat_le_iff _ _).mpr h.orderKey_eq.ge)
  rw [hvalue]
  exact AccurateArithmetic.accurate q hround

/-! ### The nearest pattern -/

theorem abs_nearest_sub_le (n : Nat) {d : Nat} (hd : 0 < d) :
    |(nearest n d : ℚ) - n / d| ≤ 1 / 2 := by
  have hpos : (0 : ℚ) < d := Nat.cast_pos.mpr hd
  have hsplit := Nat.div_add_mod n d
  have hmod := Nat.mod_lt n hd
  have hlow : 2 * n ≤ 2 * (d * nearest n d) + d := by
    rw [nearest]
    split
    next => omega
    next =>
      rw [Nat.mul_add]
      omega
  have hhigh : 2 * (d * nearest n d) ≤ 2 * n + d := by
    rw [nearest]
    split
    next => omega
    next =>
      rw [Nat.mul_add]
      omega
  have hlow' : 2 * (n : ℚ) ≤ 2 * (d * nearest n d) + d := by exact_mod_cast hlow
  have hhigh' : 2 * (d * (nearest n d : ℚ)) ≤ 2 * n + d := by exact_mod_cast hhigh
  have hdifference : (nearest n d : ℚ) - n / d = (d * nearest n d - n) / d := by
    rw [sub_div, mul_div_cancel_left₀ _ hpos.ne']
  rw [hdifference, abs_div, abs_of_pos hpos, div_le_iff₀ hpos, abs_le]
  constructor
  · linarith
  · linarith

/-- A significand of at most 24 bits at an exponent, a carry included. -/
theorem steps_of_significand {m e : Nat} (hm : m ≤ 2 ^ 24) (he : 0 < e → 2 ^ 23 ≤ m) :
    steps (e * 2 ^ 23 + m) = m * 2 ^ e := by
  rw [steps]
  split
  next hsmall =>
    have hzero : e = 0 := by omega
    rw [hzero, Nat.zero_mul, Nat.zero_add, Nat.pow_zero, Nat.mul_one]
  next hlarge =>
    have hnormal : 2 ^ 23 ≤ m := by
      rcases Nat.eq_zero_or_pos e with rfl | hpos
      · omega
      · exact he hpos
    rcases Nat.lt_or_eq_of_le hm with hlt | rfl
    · have hexponent : (e * 2 ^ 23 + m) / 2 ^ 23 - 1 = e := by omega
      have hsignificand : 2 ^ 23 + (e * 2 ^ 23 + m) % 2 ^ 23 = m := by omega
      rw [hexponent, hsignificand]
    · -- the carry is one exponent further
      have hexponent : (e * 2 ^ 23 + 2 ^ 24) / 2 ^ 23 - 1 = e + 1 := by omega
      have hsignificand : 2 ^ 23 + (e * 2 ^ 23 + 2 ^ 24) % 2 ^ 23 = 2 ^ 23 := by omega
      rw [hexponent, hsignificand, Nat.pow_succ]
      ring

theorem abs_steps_sub_le (n : Nat) {d : Nat} (hd : 0 < d) (h : roundMagnitude n d < infinity) :
    |(steps (roundMagnitude n d) : ℚ) - n / d| ≤ n / d * roundoff + 1 / 2 := by
  obtain ⟨dropped, hdropped⟩ : ∃ dropped, Nat.size (n / d) - 24 = dropped := ⟨_, rfl⟩
  obtain ⟨hle, hnormal⟩ := nearest_bounds n d
  have hpow : (0 : ℚ) < 2 ^ dropped := by positivity
  have hdpos : (0 : ℚ) < d := Nat.cast_pos.mpr hd
  rw [hdropped] at hle hnormal
  have hround : roundMagnitude n d = dropped * 2 ^ 23 + nearest n (d * 2 ^ dropped) := by
    rw [roundMagnitude, hdropped] at h ⊢
    omega
  have hnear := abs_nearest_sub_le n (Nat.mul_pos hd (Nat.two_pow_pos dropped))
  have hscaled : (steps (roundMagnitude n d) : ℚ) - n / d
      = ((nearest n (d * 2 ^ dropped) : ℚ) - n / ((d * 2 ^ dropped : Nat) : ℚ)) * 2 ^ dropped := by
    rw [hround, steps_of_significand hle hnormal]
    push_cast
    field_simp
  have hbelow : (2 : ℚ) ^ dropped / 2 ≤ n / d * roundoff + 1 / 2 := by
    have hnonneg : (0 : ℚ) ≤ n / d * roundoff := by
      have := roundoff_pos
      positivity
    rcases Nat.eq_zero_or_pos dropped with hzero | hpos
    · rw [hzero, pow_zero]
      linarith
    · have hsize : 2 ^ (23 + dropped) ≤ n / d := Nat.lt_size.mp (by omega)
      have hquotient : (2 : ℚ) ^ (23 + dropped) ≤ n / d :=
        calc (2 : ℚ) ^ (23 + dropped) = ((2 ^ (23 + dropped) : Nat) : ℚ) := by push_cast; rfl
          _ ≤ ((n / d : Nat) : ℚ) := Nat.cast_le.mpr hsize
          _ ≤ n / d := Nat.cast_div_le
      rw [pow_add] at hquotient
      rw [roundoff]
      linarith
  calc |(steps (roundMagnitude n d) : ℚ) - n / d|
      = |(nearest n (d * 2 ^ dropped) : ℚ) - n / ((d * 2 ^ dropped : Nat) : ℚ)| * 2 ^ dropped := by
        rw [hscaled, abs_mul, abs_of_pos hpow]
    _ ≤ 1 / 2 * 2 ^ dropped := mul_le_mul_of_nonneg_right hnear hpow.le
    _ = 2 ^ dropped / 2 := by ring
    _ ≤ n / d * roundoff + 1 / 2 := hbelow

/-! ### The rounding of the unit -/

theorem abs_roundRat_sub_le {q : ℚ} (h : isFinite (roundRat q) = true) :
    |toRat (roundRat q) - q| ≤ roundError q := by
  have hden : (0 : ℚ) < q.den := Nat.cast_pos.mpr q.den_pos
  have hword := roundMagnitude_lt (q.num.natAbs * unit) q.den
  have hround : roundMagnitude (q.num.natAbs * unit) q.den < infinity := by
    rw [isFinite_iff, roundRat, magnitude_ofMagnitude hword] at h
    exact h
  have hsteps := abs_steps_sub_le (q.num.natAbs * unit) q.den_pos hround
  have habs : ((q.num.natAbs * unit : Nat) : ℚ) / q.den = |q| * unit := by
    rw [abs_eq_natAbs_div, Nat.cast_mul]
    ring
  rw [habs] at hsteps
  have hvalue : toRat (roundRat q) - q
      = (if q < 0 then -1 else 1)
        * ((steps (roundMagnitude (q.num.natAbs * unit) q.den) - |q| * unit) / unit) := by
    have hne := unit_pos.ne'
    rw [toRat, value, roundRat, msb_ofMagnitude hword, magnitude_ofMagnitude hword]
    simp only [decide_eq_true_iff]
    split
    next hneg =>
      rw [abs_of_neg hneg]
      push_cast
      field_simp
      ring
    next hpos =>
      rw [abs_of_nonneg (not_lt.mp hpos)]
      push_cast
      field_simp
  have hsign : |(if q < 0 then -1 else 1 : ℚ)| = 1 := by
    split
    next => rw [abs_neg, abs_one]
    next => exact abs_one
  have htiny : tiny = 1 / 2 / unit := by norm_num [tiny, unit]
  rw [hvalue, abs_mul, hsign, one_mul, abs_div, abs_of_pos unit_pos, div_le_iff₀ unit_pos,
    roundError, htiny]
  have hne := unit_pos.ne'
  calc |(steps (roundMagnitude (q.num.natAbs * unit) q.den) : ℚ) - |q| * unit|
      ≤ |q| * unit * roundoff + 1 / 2 := hsteps
    _ = (|q| * roundoff + 1 / 2 / unit) * unit := by field_simp

/-- **The binary32 unit rounds to within half a unit in the last place.** -/
@[reducible]
def accurateArithmetic : AccurateArithmetic where
  toRoundedArithmetic := roundedArithmetic
  accurate _ := abs_roundRat_sub_le

end Binary32
