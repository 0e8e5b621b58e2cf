import Serialize.Contracts.Ordered
import Serialize.Float.Accuracy

/-!
# How close a compressed float comes back

Over a unit that rounds to within half a unit in the last place, a value of the range comes back
within half a quantum of itself and the drift of the roundings on the way. Where that drift is less
than half a quantum, what was read is written as the integer it was read from.
-/

namespace Serialize

open Machine
open Binary32 (AccurateArithmetic Rounding Exact toRat isFinite roundoff tiny roundError)
open Binary32.Arithmetic (add sub mul div floor ceil ofU32 toU32)
open Binary32.RoundedArithmetic

section Accuracy

variable [AccurateArithmetic] {min delta : F32} {count : U32}

/-- What the roundings of a round trip may add up to. -/
def drift (min delta : F32) : ℚ := (2 * |toRat min| + 11 * toRat delta) * roundoff + 5 * tiny

omit [AccurateArithmetic] in
theorem roundError_le {q bound : ℚ} (h : |q| ≤ bound) : roundError q ≤ bound * roundoff + tiny :=
  add_le_add_left (mul_le_mul_of_nonneg_right h Binary32.roundoff_pos.le) tiny

/-- A rounding of something between zero and a bound is off by no more than at the bound. -/
theorem near_of_le {x : F32} {q bound : ℚ} (h : rounding.Rounds x q) (hfinite : isFinite x = true)
    (hnonneg : 0 ≤ q) (hle : q ≤ bound) : |toRat x - q| ≤ bound * roundoff + tiny :=
  (h.near hfinite).trans (roundError_le (by rwa [abs_of_nonneg hnonneg]))

/-! ### Decoding -/

/-- An integer decodes to close by its place in the range. -/
theorem Grid.decode_near (grid : Grid min delta count) {i : U32} (hi : i ≤ count) :
    |toRat (decodeCompressed i count delta min)
        - (toRat min + i.toNat / count.toNat * toRat delta)|
      ≤ (|toRat min| + 4 * toRat delta) * roundoff + (2 + 2 * toRat delta) * tiny := by
  obtain ⟨hfraction, hscaled, hdecoded⟩ := grid.decode_zero
  obtain ⟨hfraction', hscaled', hdecoded'⟩ := grid.decode_count
  have hwhole := Binary32.Ordered.ofU32 (Nat.zero_le i.toNat) (BitVec.le_refl i) hi ofU32_zero.isFinite
    grid.count_exact.isFinite
  have hfractions := hwhole.div grid.count_exact.isFinite grid.toRat_ofU32_pos
    hfraction.isFinite hfraction'.isFinite
  have hproducts := hfractions.mul grid.delta_finite grid.delta_pos.le hscaled.isFinite
    hscaled'.isFinite
  have hsums := hproducts.add grid.min_finite hdecoded.isFinite hdecoded'.isFinite
  have hcount := grid.toRat_count_pos
  have hdelta := grid.delta_pos
  -- the integer, its fraction, what that makes of the range, and the sum with its foot
  set y := ofU32 i
  set k := div y (ofU32 count)
  set r := mul k delta
  set t : ℚ := i.toNat / count.toNat with ht
  have hone : (1 : ℚ) ≤ count.toNat := by exact_mod_cast grid.count_pos
  have hiNonneg : (0 : ℚ) ≤ i.toNat := Nat.cast_nonneg _
  have hiLe : (i.toNat : ℚ) ≤ count.toNat := Nat.cast_le.mpr hi
  have hyLow : 0 ≤ toRat y := by
    have hle := hwhole.low_le
    rwa [ofU32_zero.toRat_eq] at hle
  have hyHigh : toRat y ≤ count.toNat := by
    have hle := hwhole.le_high
    rwa [grid.count_exact.toRat_eq] at hle
  have hkLow : 0 ≤ toRat k := by
    have hle := hfractions.low_le
    rwa [hfraction.toRat_eq] at hle
  have hkHigh : toRat k ≤ 1 := by
    have hle := hfractions.le_high
    rwa [hfraction'.toRat_eq] at hle
  have hrLow : 0 ≤ toRat r := by
    have hle := hproducts.low_le
    rwa [hscaled.toRat_eq] at hle
  have hrHigh : toRat r ≤ toRat delta := by
    have hle := hproducts.le_high
    rwa [hscaled'.toRat_eq] at hle
  have hy := near_of_le (ofU32_rounds i) hwhole.left_finite hiNonneg hiLe
  have hk := near_of_le ((Binary32.exact_self hwhole.left_finite).div grid.count_exact hcount.ne')
    hfractions.left_finite (div_nonneg hyLow hcount.le) ((div_le_one hcount).mpr hyHigh)
  have hr := near_of_le (mul_rounds k delta hfractions.left_finite grid.delta_finite)
    hproducts.left_finite (mul_nonneg hkLow hdelta.le) (mul_le_of_le_one_left hdelta.le hkHigh)
  have hw := (add_rounds r min hproducts.left_finite grid.min_finite).near hsums.left_finite
  have hsum : |toRat r + toRat min| ≤ toRat delta + |toRat min| :=
    (abs_add_le _ _).trans (add_le_add_left (by rwa [abs_of_nonneg hrLow]) _)
  have hw' := hw.trans (roundError_le hsum)
  have htiny := Binary32.tiny_pos
  have hplace : |toRat y / count.toNat - t| ≤ roundoff + tiny := by
    rw [ht, ← sub_div, abs_div, abs_of_pos hcount, div_le_iff₀ hcount]
    nlinarith
  have hk' : |toRat k - t| ≤ 2 * roundoff + 2 * tiny := by
    have htriangle := abs_sub_le (toRat k) (toRat y / count.toNat) t
    linarith
  have hscale : |toRat k * toRat delta - t * toRat delta|
      ≤ (2 * roundoff + 2 * tiny) * toRat delta := by
    rw [← sub_mul, abs_mul, abs_of_pos hdelta]
    exact mul_le_mul_of_nonneg_right hk' hdelta.le
  have hr' := abs_sub_le (toRat r) (toRat k * toRat delta) (t * toRat delta)
  have hshift : |(toRat r + toRat min) - (toRat min + t * toRat delta)|
      = |toRat r - t * toRat delta| := by
    congr 1
    ring
  have hall := abs_sub_le (toRat (add r min)) (toRat r + toRat min) (toRat min + t * toRat delta)
  calc |toRat (add r min) - (toRat min + t * toRat delta)|
      ≤ |toRat (add r min) - (toRat r + toRat min)| + |toRat r - t * toRat delta| := by
        rw [← hshift]
        exact hall
    _ ≤ (|toRat min| + 4 * toRat delta) * roundoff + (2 + 2 * toRat delta) * tiny := by linarith

/-! ### Quantizing -/

/-- The clamp of a normalized value. -/
def clampUnit (x : F32) : F32 :=
  if Binary32.isNaN x || Binary32.lt x Binary32.zero then Binary32.zero
  else if Binary32.lt Binary32.one x then Binary32.one
  else x

theorem quantize_eq_scaleUp (value : F32) : (quantize value count delta min).toNat
    = Nat.min count.toNat (scaleUp (clampUnit (div (sub value min) delta)) count).toNat := by
  rw [quantize]
  show (if count < scaleUp (clampUnit (div (sub value min) delta)) count then count
    else scaleUp (clampUnit (div (sub value min) delta)) count : U32).toNat = _
  split
  next hpast => exact (Nat.min_eq_left (BitVec.lt_def.mp hpast).le).symm
  next hinside => exact (Nat.min_eq_right (BitVec.not_lt.mp hinside)).symm

omit [AccurateArithmetic] in
theorem toRat_le_of_not_lt {x y : F32} (hx : isFinite x = true) (hy : isFinite y = true)
    (h : Binary32.lt x y = false) : toRat y ≤ toRat x := by
  rw [← Bool.not_eq_true, Binary32.lt_iff, ← Binary32.isNaN_iff, ← Binary32.isNaN_iff,
    Binary32.isNaN_of_isFinite hx, Binary32.isNaN_of_isFinite hy] at h
  rw [Binary32.toRat_le_iff]
  simpa using h

omit [AccurateArithmetic] in
/-- The clamp brings a value no further from anything between zero and one. -/
theorem clampUnit_near {x : F32} (hx : isFinite x = true) {t : ℚ} (hlow : 0 ≤ t) (hhigh : t ≤ 1) :
    isFinite (clampUnit x) = true ∧ (0 ≤ toRat (clampUnit x) ∧ toRat (clampUnit x) ≤ 1)
      ∧ |toRat (clampUnit x) - t| ≤ |toRat x - t| := by
  rw [clampUnit, Binary32.isNaN_of_isFinite hx, Bool.false_or]
  split
  next hbelow =>
    have hneg := Binary32.toRat_lt_of_lt hbelow
    rw [Binary32.toRat_zero] at hneg ⊢
    refine ⟨rfl, ⟨le_refl _, zero_le_one⟩, ?_⟩
    rw [abs_of_nonpos (by linarith), abs_of_nonpos (by linarith)]
    linarith
  next habove =>
    have hnonneg := toRat_le_of_not_lt hx Binary32.exact_zero.isFinite (Bool.not_eq_true _ ▸ habove)
    rw [Binary32.toRat_zero] at hnonneg
    split
    next hpast =>
      have hgt := Binary32.toRat_lt_of_lt hpast
      rw [Binary32.toRat_one] at hgt ⊢
      refine ⟨rfl, ⟨zero_le_one, le_refl _⟩, ?_⟩
      rw [abs_of_nonneg (by linarith), abs_of_nonneg (by linarith)]
      linarith
    next hinside =>
      have hle := toRat_le_of_not_lt Binary32.exact_one.isFinite hx (Bool.not_eq_true _ ▸ hinside)
      rw [Binary32.toRat_one] at hle
      exact ⟨hx, ⟨hnonneg, hle⟩, le_refl _⟩

/-- What is rounded between two representable values is finite and stays between them. -/
theorem rounds_between {x low high : F32} {q l h : ℚ} (hx : rounding.Rounds x q)
    (hlow : Exact low l) (hhigh : Exact high h) (hle : l ≤ q) (hge : q ≤ h) :
    isFinite x = true ∧ l ≤ toRat x ∧ toRat x ≤ h := by
  obtain ⟨hlow, rfl⟩ := hlow
  obtain ⟨hhigh, rfl⟩ := hhigh
  exact ⟨hx.isFinite hlow hhigh hle hge, (Rounding.rounds_toRat hlow).toRat_le hx hle,
    hx.toRat_le (Rounding.rounds_toRat hhigh) hge⟩

/-- What is floored is close by the normalized value's place among the integers, and half. -/
theorem Grid.scaleUp_near (grid : Grid min delta count) {n : F32} (hn : isFinite n = true)
    (hlow : 0 ≤ toRat n) (hhigh : toRat n ≤ 1) :
    ∃ s : ℚ, 0 ≤ s ∧ Nat.min count.toNat (scaleUp n count).toNat = Nat.min count.toNat ⌊s⌋₊
      ∧ |s - (toRat n * count.toNat + 1 / 2)| ≤ (2 * count.toNat + 1 / 2) * roundoff + 2 * tiny := by
  have hcount := grid.toRat_count_pos
  have hcountLe : (count.toNat : ℚ) ≤ 4294967040 := by exact_mod_cast grid.count_le
  have hplace : toRat n * count.toNat ≤ count.toNat := mul_le_of_le_one_left hcount.le hhigh
  have hplaceLow : 0 ≤ toRat n * count.toNat := mul_nonneg hlow hcount.le
  -- the place, between zero and the quantum count
  have hproduct := (Binary32.exact_self hn).mul grid.count_exact
  obtain ⟨hproductFinite, hproductLow, hproductHigh⟩ := rounds_between hproduct
    Binary32.exact_zero grid.count_exact hplaceLow hplace
  -- and half, between a half and the least power of two past them all
  have hsum := (Binary32.exact_self hproductFinite).add Binary32.exact_half
  have hpast : Exact (0x4F800000 : F32) (2 ^ 32) := ⟨rfl, Binary32.toRat_two_pow_32⟩
  obtain ⟨hsumFinite, hsumLow, -⟩ := rounds_between hsum Binary32.exact_half hpast
    (by linarith) (by linarith)
  obtain ⟨hfloorFinite, hfloor⟩ := floor_exact _ hsumFinite
  refine ⟨toRat (add (mul n (ofU32 count)) Binary32.half), by linarith, ?_, ?_⟩
  · have hlast := Nat.le_sub_one_of_lt count.isLt
    rw [scaleUp, toU32_exact _ hfloorFinite, hfloor, ← Int.floor_toNat, Int.floor_intCast,
      Int.floor_toNat]
    exact (min_left_comm _ _ _).trans ((congrArg _ (min_eq_left hlast)).trans (min_comm _ _))
  · have hscaled := near_of_le hproduct hproductFinite hplaceLow hplace
    have hrounded := near_of_le hsum hsumFinite (by linarith) (add_le_add_left hproductHigh _)
    have htriangle := abs_sub_le
      (toRat (add (mul n (ofU32 count)) Binary32.half)) (toRat (mul n (ofU32 count)) + 1 / 2)
      (toRat n * count.toNat + 1 / 2)
    rw [add_sub_add_right_eq_sub] at htriangle
    linarith

/-- A value at most twice the range from its foot is written close by any place its offset is
close to. -/
theorem Grid.quantize_near (grid : Grid min delta count) {value : F32} {place error : ℚ}
    (hoffset : isFinite (sub value min) = true) (hnonneg : 0 ≤ toRat (sub value min))
    (htwice : toRat (sub value min) ≤ 2 * toRat delta) (hlow : 0 ≤ place) (hhigh : place ≤ 1)
    (hnear : |toRat (sub value min) / toRat delta - place| ≤ error) :
    ∃ s : ℚ, 0 ≤ s
      ∧ (quantize value count delta min).toNat = Nat.min count.toNat ⌊s⌋₊
      ∧ |s - (place * count.toNat + 1 / 2)|
        ≤ count.toNat * error + (4 * count.toNat + 1 / 2) * roundoff + (count.toNat + 2) * tiny := by
  have hdelta := grid.delta_pos
  have hcount := grid.toRat_count_pos
  have hquotientLow := div_nonneg hnonneg hdelta.le
  have hquotientHigh := (div_le_iff₀ hdelta).mpr htwice
  have hquotient := (Binary32.exact_self hoffset).div (Binary32.exact_self grid.delta_finite)
    hdelta.ne'
  have hpast : Exact (0x4F800000 : F32) (2 ^ 32) := ⟨rfl, Binary32.toRat_two_pow_32⟩
  obtain ⟨hfinite, -, -⟩ := rounds_between hquotient Binary32.exact_zero hpast hquotientLow
    (by linarith)
  have hrounded := near_of_le hquotient hfinite hquotientLow hquotientHigh
  obtain ⟨hclampFinite, ⟨hclampLow, hclampHigh⟩, hclamp⟩ := clampUnit_near hfinite hlow hhigh
  obtain ⟨s, hs, hfloor, hsum⟩ := grid.scaleUp_near hclampFinite hclampLow hclampHigh
  rw [← quantize_eq_scaleUp] at hfloor
  refine ⟨s, hs, hfloor, ?_⟩
  set n := toRat (clampUnit (div (sub value min) delta))
  have hplace : |n - place| ≤ error + 2 * roundoff + tiny := by
    have htriangle := abs_sub_le (toRat (div (sub value min) delta))
      (toRat (sub value min) / toRat delta) place
    linarith
  have hscaled : |(n * count.toNat + 1 / 2) - (place * count.toNat + 1 / 2)|
      ≤ (error + 2 * roundoff + tiny) * count.toNat := by
    rw [add_sub_add_right_eq_sub, ← sub_mul, abs_mul, abs_of_pos hcount]
    exact mul_le_mul_of_nonneg_right hplace hcount.le
  have hall := abs_sub_le s (n * count.toNat + 1 / 2) (place * count.toNat + 1 / 2)
  linarith

/-! ### The round trip -/

omit [AccurateArithmetic] in
/-- What is floored after adding a half is within a half of the place, and what the sum is off by. -/
theorem abs_min_floor_sub_le {s place error : ℚ} {count : Nat} (hs : 0 ≤ s) (hplace : place ≤ count)
    (h : |s - (place + 1 / 2)| ≤ error) :
    |((Nat.min count ⌊s⌋₊ : Nat) : ℚ) - place| ≤ 1 / 2 + error := by
  obtain ⟨hbelow, habove⟩ := abs_le.mp h
  have hfloor := Nat.floor_le hs
  have hnext := Nat.lt_floor_add_one s
  rw [abs_le]
  rcases Nat.le_total count ⌊s⌋₊ with hle | hle
  · rw [show Nat.min count ⌊s⌋₊ = count from Nat.min_eq_left hle]
    have hcast : (count : ℚ) ≤ ⌊s⌋₊ := Nat.cast_le.mpr hle
    exact ⟨by linarith, by linarith⟩
  · rw [show Nat.min count ⌊s⌋₊ = ⌊s⌋₊ from Nat.min_eq_right hle]
    exact ⟨by linarith, by linarith⟩

omit [AccurateArithmetic] in
/-- An integer whose place is less than a half off is the one written. -/
theorem min_floor_eq {s : ℚ} {count i : Nat} (hs : 0 ≤ s) (hi : i ≤ count)
    (h : |s - (i + 1 / 2)| < 1 / 2) :
    Nat.min count ⌊s⌋₊ = i := by
  obtain ⟨hbelow, habove⟩ := abs_lt.mp h
  have hfloor : ⌊s⌋₊ = i := (Nat.floor_eq_iff hs).mpr ⟨by linarith, by linarith⟩
  rw [hfloor]
  exact Nat.min_eq_right hi

/-- The width of the range is rounded once. -/
theorem Grid.range_error {max : F32} (grid : Grid min (sub max min) count)
    (hmax : isFinite max = true) (hle : toRat min ≤ toRat max) :
    (toRat max - toRat min) * roundoff + tiny
      ≤ 9 / 8 * (toRat (sub max min) * roundoff + tiny) := by
  have hnear := near_of_le (sub_rounds max min hmax grid.min_finite) grid.delta_finite
    (sub_nonneg.mpr hle) (le_refl _)
  obtain ⟨hbelow, -⟩ := abs_le.mp hnear
  have hroundoff : roundoff ≤ 1 / 9 := by norm_num [roundoff]
  have hwidth : (toRat max - toRat min) * roundoff ≤ (toRat max - toRat min) * (1 / 9) :=
    mul_le_mul_of_nonneg_left hroundoff (sub_nonneg.mpr hle)
  have htiny : tiny * roundoff ≤ tiny * (1 / 9) :=
    mul_le_mul_of_nonneg_left hroundoff Binary32.tiny_pos.le
  have hbound : toRat max - toRat min ≤ 9 / 8 * (toRat (sub max min) + tiny) := by linarith
  have hscaled := mul_le_mul_of_nonneg_right hbound Binary32.roundoff_pos.le
  linarith

omit [AccurateArithmetic] in
/-- The error terms of a round trip, against the drift. -/
theorem drift_bound {foot range : ℚ} (hrange : 0 ≤ range) :
    (|foot| + 43 / 4 * range) * roundoff + (17 / 4 + 5 * range) * tiny
      ≤ (2 * |foot| + 11 * range) * roundoff + 5 * tiny := by
  have htiny : tiny ≤ roundoff / 20 := by norm_num [tiny, roundoff]
  have hscaled := mul_le_mul_of_nonneg_left htiny hrange
  have hfoot := mul_nonneg (abs_nonneg foot) Binary32.roundoff_pos.le
  have hrangeNonneg := mul_nonneg hrange Binary32.roundoff_pos.le
  have hpos := Binary32.tiny_pos
  linarith

/-- A value of the range comes back within half a quantum and the drift. -/
theorem Grid.round_trip_near {max value : F32} (grid : Grid min (sub max min) count)
    (h : Binary32.Ordered min value value max) :
    |toRat (decodeCompressed (quantize value count (sub max min) min) count (sub max min) min)
        - toRat value|
      ≤ toRat (sub max min) / (2 * count.toNat) + drift min (sub max min) := by
  have hdelta := grid.delta_pos
  have hcount := grid.toRat_count_pos
  have hoffsets := h.sub grid.min_finite grid.normalize_min.1.isFinite grid.delta_finite
  have hoffsetLow := hoffsets.low_le
  rw [grid.normalize_min.1.toRat_eq] at hoffsetLow
  have hoffsetHigh := hoffsets.le_high
  have hbase : 0 ≤ toRat value - toRat min := sub_nonneg.mpr h.low_le
  have hoffset := near_of_le (sub_rounds value min h.left_finite grid.min_finite)
    hoffsets.left_finite hbase (sub_le_sub_right h.le_high _)
  have hrange := grid.range_error h.high_finite (h.low_le.trans h.le_high)
  have hwidth := near_of_le (sub_rounds max min h.high_finite grid.min_finite) grid.delta_finite
    (sub_nonneg.mpr (h.low_le.trans h.le_high)) (le_refl _)
  set delta := sub max min
  set error := (toRat max - toRat min) * roundoff + tiny
  -- the place of the value, or the top for a value the rounded width falls short of
  obtain ⟨place, hplaceLow, hplaceHigh, hplace, hnear⟩ : ∃ place : ℚ, 0 ≤ place ∧ place ≤ 1
      ∧ |toRat min + place * toRat delta - toRat value| ≤ error
      ∧ |toRat (sub value min) / toRat delta - place| ≤ error / toRat delta := by
    rcases le_total (toRat value - toRat min) (toRat delta) with hinside | hpast
    · refine ⟨(toRat value - toRat min) / toRat delta, div_nonneg hbase hdelta.le,
        (div_le_one hdelta).mpr hinside, ?_, ?_⟩
      · rw [div_mul_cancel₀ _ hdelta.ne', add_sub_cancel, sub_self, abs_zero]
        exact (abs_nonneg _).trans hoffset
      · rw [← sub_div, abs_div, abs_of_pos hdelta]
        exact div_le_div_of_nonneg_right hoffset hdelta.le
    · obtain ⟨hwidthLow, -⟩ := abs_le.mp hwidth
      obtain ⟨hoffsetNear, -⟩ := abs_le.mp hoffset
      have hmax := h.le_high
      refine ⟨1, zero_le_one, le_refl _, ?_, ?_⟩
      · rw [one_mul, abs_of_nonpos (by linarith)]
        linarith
      · rw [abs_of_nonpos (by rw [sub_nonpos, div_le_one hdelta]; exact hoffsetHigh), neg_sub,
          sub_le_iff_le_add, ← add_div, one_le_div hdelta]
        linarith
  obtain ⟨s, hs, hinteger, hfloored⟩ := grid.quantize_near hoffsets.left_finite hoffsetLow
    (hoffsetHigh.trans (by linarith)) hplaceLow hplaceHigh hnear
  have hplaced := abs_min_floor_sub_le hs (mul_le_of_le_one_left hcount.le hplaceHigh) hfloored
  rw [← hinteger] at hplaced
  have hdecoded := grid.decode_near (quantize_inside value count delta min)
  set integer := quantize value count delta min
  have hmoved : |(toRat min + integer.toNat / count.toNat * toRat delta)
      - (toRat min + place * toRat delta)|
      ≤ (1 / 2 + (count.toNat * (error / toRat delta) + (4 * count.toNat + 1 / 2) * roundoff
          + (count.toNat + 2) * tiny)) * (toRat delta / count.toNat) := by
    have hshift : (toRat min + integer.toNat / count.toNat * toRat delta)
        - (toRat min + place * toRat delta)
        = (integer.toNat - place * count.toNat) * (toRat delta / count.toNat) := by
      field_simp
      ring
    rw [hshift, abs_mul, abs_of_pos (div_pos hdelta hcount)]
    exact mul_le_mul_of_nonneg_right hplaced (div_pos hdelta hcount).le
  have hquantum : (1 / 2 + (count.toNat * (error / toRat delta)
      + (4 * count.toNat + 1 / 2) * roundoff + (count.toNat + 2) * tiny))
      * (toRat delta / count.toNat)
      = toRat delta / (2 * count.toNat) + error
        + (4 * toRat delta + toRat delta / count.toNat / 2) * roundoff
        + (toRat delta + 2 * (toRat delta / count.toNat)) * tiny := by
    field_simp
    ring
  have hquantumLe : toRat delta / count.toNat ≤ toRat delta :=
    div_le_self hdelta.le (by exact_mod_cast grid.count_pos)
  have hquantumRoundoff := mul_le_mul_of_nonneg_right hquantumLe Binary32.roundoff_pos.le
  have hquantumTiny := mul_le_mul_of_nonneg_right hquantumLe Binary32.tiny_pos.le
  have hdrift := @drift_bound (toRat min) _ hdelta.le
  have hread := abs_sub_le (toRat (decodeCompressed integer count delta min))
    (toRat min + integer.toNat / count.toNat * toRat delta) (toRat value)
  have hwritten := abs_sub_le (toRat min + integer.toNat / count.toNat * toRat delta)
    (toRat min + place * toRat delta) (toRat value)
  rw [drift]
  linarith

/-- Where the drift is less than half a quantum, what an integer decodes to is written as it. -/
theorem Grid.quantize_decode (grid : Grid min delta count) {i : U32} (hi : i ≤ count)
    (hfinite : isFinite (sub (decodeCompressed count count delta min) min) = true)
    (hdrift : drift min delta < toRat delta / (2 * count.toNat)) :
    quantize (decodeCompressed i count delta min) count delta min = i := by
  have hdelta := grid.delta_pos
  have hcount := grid.toRat_count_pos
  have hone : (1 : ℚ) ≤ count.toNat := by exact_mod_cast grid.count_pos
  have hbottom := grid.decode_zero.2.2.sub (Binary32.exact_self grid.min_finite)
  rw [sub_self] at hbottom
  have hbottom := hbottom.exact Binary32.exact_zero
  have hordered := grid.decode_ordered (BitVec.le_refl i) hi
  have hoffsets := hordered.sub grid.min_finite hbottom.isFinite hfinite
  have hoffsetLow := hoffsets.low_le
  rw [hbottom.toRat_eq] at hoffsetLow
  have hbase := hordered.low_le
  rw [grid.decode_zero.2.2.toRat_eq] at hbase
  have hdecoded := grid.decode_near hi
  set value := decodeCompressed i count delta min
  have hplaceLow : (0 : ℚ) ≤ i.toNat / count.toNat := div_nonneg (Nat.cast_nonneg _) hcount.le
  have hplaceHigh : (i.toNat / count.toNat : ℚ) ≤ 1 :=
    (div_le_one hcount).mpr (Nat.cast_le.mpr hi)
  have hquantum : toRat delta / (2 * count.toNat) ≤ toRat delta / 2 :=
    div_le_div_of_nonneg_left hdelta.le zero_lt_two (by linarith)
  have hbound := (@drift_bound (toRat min) _ hdelta.le).trans_eq (drift.eq_1 min delta).symm
  have hfoot := mul_nonneg (abs_nonneg (toRat min)) Binary32.roundoff_pos.le
  have hrange := mul_nonneg hdelta.le Binary32.roundoff_pos.le
  have hsmall := mul_nonneg hdelta.le Binary32.tiny_pos.le
  have htiny := Binary32.tiny_pos
  obtain ⟨-, habove⟩ := abs_le.mp hdecoded
  have hfar : toRat value - toRat min ≤ 3 / 2 * toRat delta := by
    have hscaled := mul_le_mul_of_nonneg_right hplaceHigh hdelta.le
    linarith
  have hoffset := near_of_le (sub_rounds value min hordered.left_finite grid.min_finite)
    hoffsets.left_finite (sub_nonneg.mpr hbase) hfar
  obtain ⟨error, herror⟩ : ∃ error, (|toRat min| + 11 / 2 * toRat delta) * roundoff
      + (3 + 2 * toRat delta) * tiny = error := ⟨_, rfl⟩
  have hnear : |toRat (sub value min) / toRat delta - i.toNat / count.toNat|
      ≤ error / toRat delta := by
    have hplace : toRat (sub value min) / toRat delta - i.toNat / count.toNat
        = (toRat (sub value min) - i.toNat / count.toNat * toRat delta) / toRat delta := by
      field_simp
    have htriangle := abs_sub_le (toRat (sub value min)) (toRat value - toRat min)
      (i.toNat / count.toNat * toRat delta)
    rw [sub_sub] at htriangle
    rw [hplace, abs_div, abs_of_pos hdelta]
    exact div_le_div_of_nonneg_right (by linarith) hdelta.le
  obtain ⟨-, hoffsetHigh⟩ := abs_le.mp hoffset
  obtain ⟨s, hs, hinteger, hfloored⟩ := grid.quantize_near hoffsets.left_finite hoffsetLow
    (by linarith) hplaceLow hplaceHigh hnear
  rw [div_mul_cancel₀ _ hcount.ne'] at hfloored
  have hhalf : count.toNat * (error / toRat delta) + (4 * count.toNat + 1 / 2) * roundoff
      + (count.toNat + 2) * tiny < 1 / 2 := by
    have hsteps : count.toNat * (error / toRat delta) + (4 * count.toNat + 1 / 2) * roundoff
        + (count.toNat + 2) * tiny
        = (error + (4 * toRat delta + toRat delta / count.toNat / 2) * roundoff
          + (toRat delta + 2 * (toRat delta / count.toNat)) * tiny) / (toRat delta / count.toNat) := by
      field_simp
    have hquantumLe : toRat delta / count.toNat ≤ toRat delta := div_le_self hdelta.le hone
    have hquantumRoundoff := mul_le_mul_of_nonneg_right hquantumLe Binary32.roundoff_pos.le
    have hquantumTiny := mul_le_mul_of_nonneg_right hquantumLe Binary32.tiny_pos.le
    rw [mul_comm 2, ← div_div] at hdrift
    rw [hsteps, div_lt_iff₀ (div_pos hdelta hcount)]
    linarith
  rw [← BitVec.toNat_inj, hinteger]
  exact min_floor_eq hs hi (hfloored.trans_lt hhalf)

/-! ### On the stream -/

/-- The step between the integers of a declaration. -/
def CompressedFloatParams.quantum (params : CompressedFloatParams) : ℚ :=
  toRat params.delta / params.maxIntegerValue.toNat

/-- A value is written, and a reader with the same declaration takes its bits for something within
half a quantum and the drift. -/
structure ComesBackNear (min max resolution value : F32) : Prop where
  writes : WritesItsCode min max resolution value
  reads : ∀ (reader : ReadStream) (profile : Profile) (prior : F32), reader.Reachable →
    reader.failure = none → compressedCode min max resolution value <+: reader.cursor.remaining →
    ∃ decoded : F32, reader.Accepts (compressedFloatParams min max resolution).bits.toNat decoded
        (serializeCompressedFloat min max resolution profile (reader, prior))
      ∧ |toRat decoded - toRat value| ≤ (compressedFloatParams min max resolution).quantum / 2
        + drift min (compressedFloatParams min max resolution).delta

/-- What a reader takes the bits of a value for is written as the same bits. -/
def Settles (min max resolution value : F32) : Prop :=
  ∀ (reader : ReadStream) (profile : Profile) (prior : F32), reader.Reachable →
    reader.failure = none → compressedCode min max resolution value <+: reader.cursor.remaining →
    ∃ decoded : F32, reader.Accepts (compressedFloatParams min max resolution).bits.toNat decoded
        (serializeCompressedFloat min max resolution profile (reader, prior))
      ∧ compressedCode min max resolution decoded = compressedCode min max resolution value
      ∧ WritesItsCode min max resolution decoded

variable {max resolution : F32}

/-- The greatest integer decodes to something whose offset does not overflow. -/
def TopNormalizes (min max resolution : F32) : Prop :=
  let params := compressedFloatParams min max resolution
  isFinite (sub (decodeCompressed params.maxIntegerValue params.maxIntegerValue params.delta min) min)
    = true

instance : Decidable (TopNormalizes min max resolution) := inferInstanceAs (Decidable (_ = true))

section Conforming

theorem acceptsEveryInteger_of_legal
    (hlegal : (Operation.compressedFloat min max resolution).Legal)
    (htop : (Operation.compressedFloat min max resolution).TopDecodes) :
    AcceptsEveryInteger min max resolution := by
  intro integerValue hinside reader profile prior hreader hlive hahead
  have hread := serializeCompressedFloat_read profile prior hlegal hinside hreader hlive hahead
  have hdecodes := (grid_of_legal hlegal htop).decodesInOrder
  rw [DecodesOrNonFinite, if_pos (hdecodes.inside integerValue hinside).1] at hread
  exact hread

/-- **A compressed float comes back within half a quantum** and the drift of the roundings. -/
theorem compressed_float_accuracy
    (hlegal : (Operation.compressedFloat min max resolution).Legal)
    (htop : (Operation.compressedFloat min max resolution).TopDecodes) :
    ∀ value : F32, isFinite value = true → toRat min ≤ toRat value → toRat value ≤ toRat max →
      ComesBackNear min max resolution value := by
  intro value _ hlow hhigh
  have grid := grid_of_legal hlegal htop
  have hmax := (finite_of_sub max min hlegal.2.2.1).1
  have hinside := quantize_inside value (compressedFloatParams min max resolution).maxIntegerValue
    (compressedFloatParams min max resolution).delta min
  refine ⟨writesItsCode_of_legal hlegal, fun reader profile prior hreader hlive hahead => ⟨_,
    acceptsEveryInteger_of_legal hlegal htop _ hinside reader profile prior hreader hlive hahead, ?_⟩⟩
  have hnear := grid.round_trip_near ⟨grid.min_finite, hmax, hlow, le_refl _, hhigh⟩
  rw [CompressedFloatParams.quantum, div_div, mul_comm _ (2 : ℚ)]
  exact hnear

/-- **What was read is written as it was**, where the drift is less than half a quantum. -/
theorem compressed_float_stable
    (hlegal : (Operation.compressedFloat min max resolution).Legal)
    (htop : (Operation.compressedFloat min max resolution).TopDecodes)
    (hreturns : TopNormalizes min max resolution)
    (hdrift : drift min (compressedFloatParams min max resolution).delta
      < (compressedFloatParams min max resolution).quantum / 2) :
    ∀ value : F32, Settles min max resolution value := by
  intro value reader profile prior hreader hlive hahead
  have grid := grid_of_legal hlegal htop
  have hinside := quantize_inside value (compressedFloatParams min max resolution).maxIntegerValue
    (compressedFloatParams min max resolution).delta min
  rw [CompressedFloatParams.quantum, div_div, mul_comm _ (2 : ℚ)] at hdrift
  refine ⟨_, acceptsEveryInteger_of_legal hlegal htop _ hinside reader profile prior hreader hlive
    hahead, ?_, writesItsCode_of_legal hlegal⟩
  rw [compressedCode, grid.quantize_decode hinside hreturns hdrift]
  rfl

end Conforming

end Accuracy

/-- `800.5` in the whole numbers up to `1024`, on the binary32 unit. -/
theorem compressed_float_accuracy_nearest :
    letI := Binary32.accurateArithmetic
    ComesBackNear 0 0x44800000 Binary32.one 0x44482000 :=
  letI := Binary32.accurateArithmetic
  compressed_float_accuracy ⟨by decide, by decide, by decide, by decide⟩
    (show isFinite (add 0 (sub 0x44800000 0)) = true by decide)
    0x44482000 (by decide) ((Binary32.toRat_le_iff _ _).mpr (by decide))
    ((Binary32.toRat_le_iff _ _).mpr (by decide))

theorem compressed_float_stable_nearest :
    letI := Binary32.accurateArithmetic
    Settles 0 0x44800000 Binary32.one 0x44482000 :=
  letI := Binary32.accurateArithmetic
  compressed_float_stable ⟨by decide, by decide, by decide, by decide⟩
    (show isFinite (add 0 (sub 0x44800000 0)) = true by decide)
    (by decide +kernel) (by
      have hparams : compressedFloatParams 0 0x44800000 Binary32.one = ⟨1024, 11, 0x44800000⟩ := by
        decide +kernel
      have hvalue : Binary32.value 0x44800000 = 1024 * Binary32.unit := by decide
      have hdelta : toRat 0x44800000 = 1024 := by
        rw [toRat, hvalue, Int.cast_mul, Int.cast_natCast, mul_div_cancel_right₀ _ Binary32.unit_pos.ne']
        rfl
      have hmin : toRat 0 = 0 := Binary32.toRat_zero
      rw [hparams, CompressedFloatParams.quantum, drift, hdelta, hmin,
        show ((1024 : U32).toNat : ℚ) = 1024 from rfl]
      norm_num [roundoff, tiny])
    0x44482000

end Serialize
