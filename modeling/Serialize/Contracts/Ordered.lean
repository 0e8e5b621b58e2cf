import Serialize.Contracts.Compressed
import Serialize.Float.Nearest

/-!
# Compressed floats keep the order

Over arithmetic that rounds once, the integers of a conforming declaration decode in order, from its
least value to where its greatest rounds to, and the values of its range are written in order, the two
ends as the two ends. Every step of both directions keeps the order and stays between two
representable bounds.
-/

namespace Serialize

open Machine BitString Decode
open Binary32 (RoundedArithmetic Rounding Exact toRat isFinite toRat_le_iff)
open Binary32.Arithmetic (add sub mul div floor ceil ofU32 toU32)
open Binary32.RoundedArithmetic

section Arithmetic

variable [RoundedArithmetic]

/-- The constants of a conforming declaration as the rationals they stand for. -/
structure Grid (min delta : F32) (count : U32) : Prop where
  min_finite : isFinite min = true
  delta_finite : isFinite delta = true
  delta_pos : 0 < toRat delta
  count_pos : 1 ≤ count.toNat
  count_le : count.toNat ≤ 4294967040
  count_exact : Exact (ofU32 count) count.toNat
  top_finite : isFinite (add min delta) = true

section Derived

variable {min max resolution : F32}

omit [RoundedArithmetic] in
theorem clampQuantumCount_finite {values : F32} (h : isFinite values = true) :
    isFinite (clampQuantumCount values) = true := by
  unfold clampQuantumCount
  split
  · rfl
  · split
    · rfl
    · exact h

/-- The quantum count is representable: it is where a rounding up ended. -/
theorem count_exact {values : F32} (h : isFinite values = true) :
    Exact (ofU32 (toU32 (ceil (clampQuantumCount values))))
      (toU32 (ceil (clampQuantumCount values))).toNat := by
  obtain ⟨hnan, hlow, hhigh⟩ := clampQuantumCount_range values
  obtain ⟨hfinite, hceil⟩ :=
    ceil_exact _ (clampQuantumCount_finite h)
  have hrange := Binary32.Arithmetic.ceil_range _ hnan hlow hhigh
  have hcount := toU32_exact _ hfinite
  have hrounds := ofU32_rounds (toU32 (ceil (clampQuantumCount values)))
  set count := toU32 (ceil (clampQuantumCount values))
  have hvalue : toRat (ceil (clampQuantumCount values)) = count.toNat := by
    rw [hceil, ← Int.floor_toNat, Int.floor_intCast] at hcount
    rw [hceil, ← Int.cast_natCast, Int.cast_inj]
    omega
  exact hrounds.exact ⟨hfinite, hvalue⟩

theorem grid_of_legal (hlegal : (Operation.compressedFloat min max resolution).Legal)
    (htop : (Operation.compressedFloat min max resolution).TopDecodes) :
    Grid min (compressedFloatParams min max resolution).delta
      (compressedFloatParams min max resolution).maxIntegerValue := by
  obtain ⟨horder, -, hdelta, hcount⟩ := hlegal
  obtain ⟨hrange, -, hpositive, -⟩ := @compressedFloatParams_legal _ min max resolution horder hdelta
  exact {
    min_finite := (finite_of_sub max min hdelta).2
    delta_finite := hdelta
    delta_pos := Binary32.toRat_zero.symm.trans_lt (Binary32.toRat_lt_of_lt hpositive)
    count_pos := hrange.1
    count_le := hrange.2
    count_exact := count_exact hcount
    top_finite := htop }

end Derived

/-! ### Decoding -/

section Decode

variable {min delta : F32} {count i j : U32}

theorem ofU32_zero : Exact (ofU32 0) 0 := by
  have hrounds := ofU32_rounds 0
  rw [show (0 : U32).toNat = 0 from rfl, Nat.cast_zero] at hrounds
  exact hrounds.exact Binary32.exact_zero

theorem Grid.toRat_count_pos (grid : Grid min delta count) : (0 : ℚ) < count.toNat :=
  Nat.cast_pos.mpr grid.count_pos

theorem Grid.toRat_ofU32_pos (grid : Grid min delta count) : 0 < toRat (ofU32 count) := by
  rw [grid.count_exact.toRat_eq]
  exact grid.toRat_count_pos

theorem Grid.decode_zero (grid : Grid min delta count) :
    Exact (div (ofU32 0) (ofU32 count)) 0
      ∧ Exact (mul (div (ofU32 0) (ofU32 count)) delta) 0
      ∧ Exact (decodeCompressed 0 count delta min) (toRat min) :=
  have hfraction := ofU32_zero.of_zero_div grid.count_exact grid.toRat_count_pos.ne'
  have hscaled := hfraction.of_zero_mul (Binary32.exact_self grid.delta_finite)
  ⟨hfraction, hscaled, hscaled.of_zero_add (Binary32.exact_self grid.min_finite)⟩

theorem Grid.decode_count (grid : Grid min delta count) :
    Exact (div (ofU32 count) (ofU32 count)) 1
      ∧ Exact (mul (div (ofU32 count) (ofU32 count)) delta) (toRat delta)
      ∧ Exact (decodeCompressed count count delta min) (toRat (add min delta)) := by
  have hfraction := grid.count_exact.of_div_self grid.toRat_count_pos.ne'
  have hscaled := hfraction.of_one_mul (Binary32.exact_self grid.delta_finite)
  have hdecoded := hscaled.add (Binary32.exact_self grid.min_finite)
  rw [add_comm] at hdecoded
  exact ⟨hfraction, hscaled, hdecoded.same
    (add_rounds min delta grid.min_finite grid.delta_finite) grid.top_finite⟩

/-- Integers in order are decoded in order, between what zero and the greatest are decoded to. -/
theorem Grid.decode_ordered (grid : Grid min delta count) (hle : i ≤ j) (hlast : j ≤ count) :
    Binary32.Ordered (decodeCompressed 0 count delta min) (decodeCompressed i count delta min)
      (decodeCompressed j count delta min) (decodeCompressed count count delta min) := by
  obtain ⟨hfraction, hscaled, hdecoded⟩ := grid.decode_zero
  obtain ⟨hfraction', hscaled', hdecoded'⟩ := grid.decode_count
  have hwhole := Binary32.Ordered.ofU32 (Nat.zero_le i.toNat) hle hlast ofU32_zero.isFinite
    grid.count_exact.isFinite
  have hfractions := hwhole.div grid.count_exact.isFinite grid.toRat_ofU32_pos
    hfraction.isFinite hfraction'.isFinite
  have hproducts := hfractions.mul grid.delta_finite grid.delta_pos.le hscaled.isFinite
    hscaled'.isFinite
  exact hproducts.add grid.min_finite hdecoded.isFinite hdecoded'.isFinite

end Decode

/-! ### Quantizing -/

section Quantize

variable {min max resolution value value' : F32} {count : U32}

/-- The integer a normalized value is rounded to, before the last clamp. -/
def scaleUp (normalized : F32) (count : U32) : U32 :=
  toU32 (floor (add (mul normalized (ofU32 count)) Binary32.half))

/-- Between zero and one the clamp of the normalized value does nothing. -/
theorem quantize_of_normalized {normalized delta : F32}
    (hnormalized : div (sub value min) delta = normalized)
    (hordered : Binary32.Ordered Binary32.zero normalized normalized Binary32.one) :
    (quantize value count delta min).toNat = Nat.min count.toNat (scaleUp normalized count).toNat := by
  have hlow := Binary32.not_lt_of_toRat_le hordered.low_le
  have hhigh := Binary32.not_lt_of_toRat_le hordered.le_high
  have hnan := Binary32.isNaN_of_isFinite hordered.left_finite
  rw [quantize, hnormalized, hnan, hlow, hhigh, Bool.or_false, if_neg Bool.false_ne_true,
    if_neg Bool.false_ne_true, scaleUp]
  split
  next hpast => exact (Nat.min_eq_left (BitVec.lt_def.mp hpast).le).symm
  next hinside => exact (Nat.min_eq_right (BitVec.not_lt.mp hinside)).symm

theorem Grid.normalize_min (grid : Grid min (sub max min) count) :
    Exact (sub min min) 0 ∧ Exact (div (sub min min) (sub max min)) 0 :=
  have hoffset := (Binary32.exact_self grid.min_finite).of_sub_self
  ⟨hoffset, hoffset.of_zero_div (Binary32.exact_self grid.delta_finite) grid.delta_pos.ne'⟩

theorem Grid.normalize_max (grid : Grid min (sub max min) count) :
    Exact (div (sub max min) (sub max min)) 1 :=
  (Binary32.exact_self grid.delta_finite).of_div_self grid.delta_pos.ne'

theorem scaleUp_zero {normalized delta : F32} (grid : Grid min delta count)
    (h : Exact normalized 0) : Exact (mul normalized (ofU32 count)) 0
      ∧ Exact (add (mul normalized (ofU32 count)) Binary32.half) (1 / 2)
      ∧ (scaleUp normalized count).toNat = 0 := by
  have hscaled := h.of_zero_mul grid.count_exact
  have hsum := hscaled.of_zero_add Binary32.exact_half
  obtain ⟨hfinite, hfloor⟩ := floor_exact _ hsum.isFinite
  have hhalf : ⌊(1 / 2 : ℚ)⌋ = 0 := by norm_num
  refine ⟨hscaled, hsum, ?_⟩
  rw [scaleUp, toU32_exact _ hfinite, hfloor, hsum.toRat_eq, hhalf, Int.cast_zero, Nat.floor_zero,
    Nat.zero_min]

/-- Scaled up by the quantum count, one is rounded to the quantum count or past it. -/
theorem scaleUp_one {normalized delta : F32} (grid : Grid min delta count)
    (h : Exact normalized 1) : Exact (mul normalized (ofU32 count)) count.toNat
      ∧ isFinite (add (mul normalized (ofU32 count)) Binary32.half) = true
      ∧ count.toNat ≤ (scaleUp normalized count).toNat := by
  have hscaled := h.of_one_mul grid.count_exact
  have hsum := hscaled.add Binary32.exact_half
  have hcountLe : (count.toNat : ℚ) ≤ 4294967040 := by exact_mod_cast grid.count_le
  have hcountPos := grid.toRat_count_pos
  have hsumFinite : isFinite (add (mul normalized (ofU32 count)) Binary32.half) = true := by
    have hlow : isFinite Binary32.half = true := rfl
    have hhigh : isFinite (0x4F800000 : F32) = true := rfl
    refine hsum.isFinite hlow hhigh ?_ ?_
    · rw [Binary32.toRat_half]
      linarith
    · rw [Binary32.toRat_two_pow_32]
      linarith
  obtain ⟨hfinite, hfloor⟩ := floor_exact _ hsumFinite
  have hvalue : (count.toNat : ℚ) ≤ toRat (add (mul normalized (ofU32 count)) Binary32.half) := by
    rw [← grid.count_exact.toRat_eq]
    exact (Rounding.rounds_toRat grid.count_exact.isFinite).toRat_le hsum
      (by rw [grid.count_exact.toRat_eq]; linarith)
  have hwhole : (count.toNat : ℤ) ≤ ⌊toRat (add (mul normalized (ofU32 count)) Binary32.half)⌋ :=
    Int.le_floor.mpr (by exact_mod_cast hvalue)
  refine ⟨hscaled, hsumFinite, ?_⟩
  rw [scaleUp, toU32_exact _ hfinite, hfloor]
  refine Nat.le_min.mpr ⟨Nat.le_floor ?_, Nat.le_sub_one_of_lt count.isLt⟩
  exact_mod_cast hwhole

theorem Grid.normalize_ordered (grid : Grid min (sub max min) count)
    (h : Binary32.Ordered min value value' max) :
    Binary32.Ordered (div (sub min min) (sub max min)) (div (sub value min) (sub max min))
      (div (sub value' min) (sub max min)) (div (sub max min) (sub max min)) := by
  obtain ⟨hoffset, hnormalized⟩ := grid.normalize_min
  have hoffsets := h.sub grid.min_finite hoffset.isFinite grid.delta_finite
  exact hoffsets.div grid.delta_finite grid.delta_pos hnormalized.isFinite
    grid.normalize_max.isFinite

theorem Grid.quantize_eq (grid : Grid min (sub max min) count)
    (h : Binary32.Ordered min value value max) : (quantize value count (sub max min) min).toNat
      = Nat.min count.toNat (scaleUp (div (sub value min) (sub max min)) count).toNat := by
  have hnormalized := grid.normalize_ordered h
  have hlow := hnormalized.low_le
  have hhigh := hnormalized.le_high
  rw [grid.normalize_min.2.toRat_eq, ← Binary32.toRat_zero] at hlow
  rw [grid.normalize_max.toRat_eq, ← Binary32.toRat_one] at hhigh
  exact quantize_of_normalized rfl ⟨rfl, rfl, hlow, le_refl _, hhigh⟩

theorem Grid.quantize_le_quantize (grid : Grid min (sub max min) count)
    (h : Binary32.Ordered min value value' max) :
    quantize value count (sub max min) min ≤ quantize value' count (sub max min) min := by
  have hnormalized := grid.normalize_ordered h
  obtain ⟨hscaledZero, hsumZero, -⟩ := scaleUp_zero grid grid.normalize_min.2
  obtain ⟨hscaledOne, hsumOne, -⟩ := scaleUp_one grid grid.normalize_max
  have hscaled := hnormalized.mul grid.count_exact.isFinite grid.toRat_ofU32_pos.le
    hscaledZero.isFinite hscaledOne.isFinite
  have hsums := hscaled.add Binary32.exact_half.isFinite hsumZero.isFinite hsumOne
  rw [BitVec.le_def, grid.quantize_eq h.left_self, grid.quantize_eq h.right_self]
  exact min_le_min_left _ hsums.toU32_floor

end Quantize

/-! ### The two directions -/

/-- The integers the constants admit are decoded in order, to finite values from the least value of
the range to where its top rounds to, and the two ends to the two ends. -/
structure DecodesInOrder (params : CompressedFloatParams) (min : F32) : Prop where
  mono : ∀ i j : U32, i ≤ j → j ≤ params.maxIntegerValue →
    toRat (decodeCompressed i params.maxIntegerValue params.delta min)
      ≤ toRat (decodeCompressed j params.maxIntegerValue params.delta min)
  bottom : toRat (decodeCompressed 0 params.maxIntegerValue params.delta min) = toRat min
  top : toRat (decodeCompressed params.maxIntegerValue params.maxIntegerValue params.delta min)
    = toRat (rounding.round (toRat min + toRat params.delta))
  inside : ∀ i : U32, i ≤ params.maxIntegerValue →
    isFinite (decodeCompressed i params.maxIntegerValue params.delta min) = true
      ∧ toRat min ≤ toRat (decodeCompressed i params.maxIntegerValue params.delta min)
      ∧ toRat (decodeCompressed i params.maxIntegerValue params.delta min)
        ≤ toRat (rounding.round (toRat min + toRat params.delta))

/-- The values of the range are written as integers in order, and the two ends as the two ends. -/
structure QuantizesInOrder (params : CompressedFloatParams) (min max : F32) : Prop where
  mono : ∀ value value' : F32, isFinite value = true → isFinite value' = true →
    toRat min ≤ toRat value → toRat value ≤ toRat value' → toRat value' ≤ toRat max →
    quantize value params.maxIntegerValue params.delta min
      ≤ quantize value' params.maxIntegerValue params.delta min
  bottom : quantize min params.maxIntegerValue params.delta min = 0
  top : quantize max params.maxIntegerValue params.delta min = params.maxIntegerValue

/-- A read of an integer the declaration admits is accepted with what the integer decodes to. -/
def AcceptsEveryInteger (min max resolution : F32) : Prop :=
  ∀ integerValue ≤ (compressedFloatParams min max resolution).maxIntegerValue,
    ∀ (reader : ReadStream) (profile : Profile) (prior : F32), reader.Reachable →
      reader.failure = none →
      toBits (compressedFloatParams min max resolution).bits.toNat integerValue.toNat
        <+: reader.cursor.remaining →
      reader.Accepts (compressedFloatParams min max resolution).bits.toNat
        (decodeCompressed integerValue (compressedFloatParams min max resolution).maxIntegerValue
          (compressedFloatParams min max resolution).delta min)
        (serializeCompressedFloat min max resolution profile (reader, prior))

section Conforming

variable {min max resolution : F32}

theorem Grid.decodesInOrder {params : CompressedFloatParams}
    (grid : Grid min params.delta params.maxIntegerValue) : DecodesInOrder params min := by
  obtain ⟨-, -, hbottom⟩ := grid.decode_zero
  obtain ⟨-, -, htop⟩ := grid.decode_count
  have hround : toRat (add min params.delta)
      = toRat (rounding.round (toRat min + toRat params.delta)) := by
    have hkey := (add_rounds min params.delta grid.min_finite grid.delta_finite).orderKey_eq
    exact le_antisymm ((toRat_le_iff _ _).mpr hkey.le) ((toRat_le_iff _ _).mpr hkey.ge)
  refine ⟨fun i j hle hlast => (grid.decode_ordered hle hlast).le, hbottom.toRat_eq,
    htop.toRat_eq.trans hround, fun i hi => ?_⟩
  have hordered := grid.decode_ordered (BitVec.le_refl i) hi
  refine ⟨hordered.left_finite, ?_, ?_⟩
  · rw [← hbottom.toRat_eq]
    exact hordered.low_le
  · rw [← hround, ← htop.toRat_eq]
    exact hordered.le_high

theorem Grid.quantizesInOrder {params : CompressedFloatParams} (hdelta : params.delta = sub max min)
    (hmax : isFinite max = true) (hle : toRat min ≤ toRat max)
    (grid : Grid min params.delta params.maxIntegerValue) : QuantizesInOrder params min max := by
  rw [hdelta] at grid
  refine ⟨fun value value' _ _ hlow hvalues hhigh => ?_, ?_, ?_⟩
  · rw [hdelta]
    exact grid.quantize_le_quantize ⟨grid.min_finite, hmax, hlow, hvalues, hhigh⟩
  · rw [hdelta, ← BitVec.toNat_inj,
      grid.quantize_eq ⟨grid.min_finite, hmax, le_refl _, le_refl _, hle⟩,
      (scaleUp_zero grid grid.normalize_min.2).2.2]
    exact Nat.min_zero _
  · rw [hdelta, ← BitVec.toNat_inj,
      grid.quantize_eq ⟨grid.min_finite, hmax, hle, le_refl _, le_refl _⟩]
    exact Nat.min_eq_left (scaleUp_one grid grid.normalize_max).2.2

/-- **Compressed floats keep the order**, both ways, between the ends of the range. -/
theorem compressed_float_ordered
    (hlegal : (Operation.compressedFloat min max resolution).Legal)
    (htop : (Operation.compressedFloat min max resolution).TopDecodes) :
    DecodesInOrder (compressedFloatParams min max resolution) min
      ∧ AcceptsEveryInteger min max resolution
      ∧ QuantizesInOrder (compressedFloatParams min max resolution) min max := by
  have grid := grid_of_legal hlegal htop
  have hdecodes := grid.decodesInOrder
  have hmax := (finite_of_sub max min hlegal.2.2.1).1
  refine ⟨hdecodes, ?_, grid.quantizesInOrder rfl hmax (Binary32.toRat_lt_of_lt hlegal.1).le⟩
  intro integerValue hinside reader profile prior hreader hlive hahead
  have hread := serializeCompressedFloat_read profile prior hlegal hinside hreader hlive hahead
  rw [DecodesOrNonFinite, if_pos (hdecodes.inside integerValue hinside).1] at hread
  exact hread

end Conforming

end Arithmetic

/-- The range of `2^24 - 1` steps on the binary32 unit. -/
theorem compressed_float_ordered_nearest :
    letI := Binary32.roundedArithmetic
    DecodesInOrder (compressedFloatParams 0 0x4B7FFFFF Binary32.one) 0
      ∧ AcceptsEveryInteger 0 0x4B7FFFFF Binary32.one
      ∧ QuantizesInOrder (compressedFloatParams 0 0x4B7FFFFF Binary32.one) 0 0x4B7FFFFF :=
  letI := Binary32.roundedArithmetic
  compressed_float_ordered ⟨by decide, by decide, by decide, by decide⟩
    (show isFinite (add 0 (sub 0x4B7FFFFF 0)) = true by decide)

end Serialize
