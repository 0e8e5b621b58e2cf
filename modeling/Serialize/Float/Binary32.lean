import Serialize.Float.Values
import Mathlib.Data.Nat.Size

/-!
# Single precision arithmetic, rounded to nearest even

The operations of a binary32 unit on bit patterns, exactly: every finite value is a whole number of
the smallest steps `2^-149`, an operation computes its result as a fraction of such steps, and the
result is rounded once, to the nearest pattern, ties going to the even one. A NaN result is the
quiet NaN.
-/

namespace Binary32

/-! ### Rounding -/

def quietNaN : BitVec 32 := 0x7FC00000

/-- The nearest whole number to `n / d`, the even one of two. -/
def nearest (n d : Nat) : Nat :=
  if 2 * (n % d) < d ∨ 2 * (n % d) = d ∧ n / d % 2 = 0 then n / d else n / d + 1

/-- The pattern nearest to `n / d` steps: as many low bits are dropped as leave 24, and a carry out
of the significand is a carry into the exponent. -/
def roundMagnitude (n d : Nat) : Nat :=
  let dropped := Nat.size (n / d) - 24
  min (dropped * 2 ^ 23 + nearest n (d * 2 ^ dropped)) infinity

/-- A pattern from its sign and magnitude. -/
def ofMagnitude (negative : Bool) (magnitude : Nat) : BitVec 32 :=
  BitVec.ofNat 32 (if negative then 2 ^ 31 + magnitude else magnitude)

/-- A whole number of steps as a pattern; `zeroNegative` is the sign of a zero. -/
def ofSteps (n : Int) (zeroNegative : Bool) : BitVec 32 :=
  if n = 0 then ofMagnitude zeroNegative 0
  else ofMagnitude (decide (n < 0)) (roundMagnitude n.natAbs 1)

/-! ### The operations -/

def neg (x : BitVec 32) : BitVec 32 := x ^^^ 0x80000000

def add (x y : BitVec 32) : BitVec 32 :=
  if isNaN x || isNaN y then quietNaN
  else if isInfinite x then
    if isInfinite y && (x.msb != y.msb) then quietNaN else x
  else if isInfinite y then y
  else ofSteps (value x + value y) (x.msb && y.msb)

def sub (x y : BitVec 32) : BitVec 32 := add x (neg y)

def mul (x y : BitVec 32) : BitVec 32 :=
  let negative := x.msb != y.msb
  if isNaN x || isNaN y then quietNaN
  else if isInfinite x || isInfinite y then
    if magnitude x = 0 ∨ magnitude y = 0 then quietNaN else ofMagnitude negative infinity
  else ofMagnitude negative (roundMagnitude (steps (magnitude x) * steps (magnitude y)) unit)

def div (x y : BitVec 32) : BitVec 32 :=
  let negative := x.msb != y.msb
  if isNaN x || isNaN y then quietNaN
  else if isInfinite x then
    if isInfinite y then quietNaN else ofMagnitude negative infinity
  else if isInfinite y then ofMagnitude negative 0
  else if magnitude y = 0 then
    if magnitude x = 0 then quietNaN else ofMagnitude negative infinity
  else ofMagnitude negative (roundMagnitude (steps (magnitude x) * unit) (steps (magnitude y)))

/-- The pattern of a whole number, with a sign. -/
def ofWhole (negative : Bool) (n : Nat) : BitVec 32 :=
  ofMagnitude negative (roundMagnitude (n * unit) 1)

/-- Past `2^23` every pattern is a whole number, an infinity or a NaN. -/
def isWhole (x : BitVec 32) : Bool := decide (0x4B000000 ≤ magnitude x)

/-- A magnitude rounded down or up to a whole number. -/
def wholeBelow (x : BitVec 32) : Nat := steps (magnitude x) / unit

def wholeAbove (x : BitVec 32) : Nat := (steps (magnitude x) + (unit - 1)) / unit

def floor (x : BitVec 32) : BitVec 32 :=
  if isWhole x then x else ofWhole x.msb (if x.msb then wholeAbove x else wholeBelow x)

def ceil (x : BitVec 32) : BitVec 32 :=
  if isWhole x then x else ofWhole x.msb (if x.msb then wholeBelow x else wholeAbove x)

def ofU32 (n : BitVec 32) : BitVec 32 := ofWhole false n.toNat

/-- The conversion truncates, saturates at both ends, and sends a NaN to zero. -/
def toU32 (x : BitVec 32) : BitVec 32 :=
  if isNaN x || x.msb then 0
  else if isInfinite x then BitVec.allOnes 32
  else BitVec.ofNat 32 (min (wholeBelow x) (2 ^ 32 - 1))

/-! ### Patterns by magnitude -/

theorem magnitude_neg (x : BitVec 32) : magnitude (neg x) = magnitude x := by
  rw [magnitude, magnitude, neg]
  congr 1
  rw [BitVec.setWidth_xor]
  exact BitVec.xor_zero

theorem msb_neg (x : BitVec 32) : (neg x).msb = !x.msb := by
  rw [neg, BitVec.msb_xor]
  exact Bool.xor_true _

theorem magnitude_ofMagnitude {m : Nat} (h : m < 2 ^ 31) (negative : Bool) :
    magnitude (ofMagnitude negative m) = m := by
  rw [magnitude_eq, ofMagnitude, BitVec.toNat_ofNat]
  split <;> omega

theorem msb_ofMagnitude {m : Nat} (h : m < 2 ^ 31) (negative : Bool) :
    (ofMagnitude negative m).msb = negative := by
  rw [ofMagnitude, BitVec.msb_eq_decide, BitVec.toNat_ofNat]
  cases negative with
  | true => exact decide_eq_true (by rw [if_pos rfl]; omega)
  | false => exact decide_eq_false (by rw [if_neg Bool.false_ne_true]; omega)

theorem value_neg (x : BitVec 32) : value (neg x) = -value x := by
  rw [value, value, msb_neg, magnitude_neg]
  cases x.msb with
  | false => rfl
  | true => exact (neg_neg _).symm

/-! ### What every operation relies on -/

theorem roundMagnitude_le (n d : Nat) : roundMagnitude n d ≤ infinity := Nat.min_le_right _ _

theorem roundMagnitude_lt (n d : Nat) : roundMagnitude n d < 2 ^ 31 :=
  (roundMagnitude_le n d).trans_lt (by decide)

theorem roundMagnitude_pos {n : Nat} (h : 0 < n) : 0 < roundMagnitude n 1 := by
  refine Nat.lt_min.mpr ⟨?_, by decide⟩
  rcases Nat.eq_zero_or_pos (Nat.size (n / 1) - 24) with hzero | hpos
  · rw [hzero, Nat.zero_mul, Nat.zero_add, nearest, Nat.pow_zero, Nat.mul_one, Nat.mod_one,
      if_pos (.inl (by decide)), Nat.div_one]
    exact h
  · exact Nat.add_pos_left (Nat.mul_pos hpos (by decide)) _

theorem zero_lt_ofMagnitude {m : Nat} (hpos : 0 < m) (h : m ≤ infinity) :
    lt zero (ofMagnitude false m) = true := by
  have hword : m < 2 ^ 31 := h.trans_lt (by decide)
  have hnan : isNaN (ofMagnitude false m) = false := by
    rw [← Bool.not_eq_true, isNaN_iff, magnitude_ofMagnitude hword]
    omega
  have hkey : orderKey (ofMagnitude false m) = m := by
    rw [orderKey, msb_ofMagnitude hword false, magnitude_ofMagnitude hword]
    rfl
  have hzero : isNaN zero = false := rfl
  rw [lt, hnan, hkey, hzero, show orderKey zero = 0 from rfl]
  simpa using hpos

theorem finite_of_add {x y : BitVec 32} (h : isFinite (add x y) = true) :
    isFinite x = true ∧ isFinite y = true := by
  rw [add] at h
  split at h
  next => cases h
  next hnumbers =>
    rw [Bool.or_eq_true, not_or, isNaN_iff, isNaN_iff] at hnumbers
    rw [isFinite_iff, isFinite_iff]
    split at h
    next hx =>
      -- an infinite operand would leave an infinity or a NaN
      rw [isInfinite_iff] at hx
      split at h
      · cases h
      · exact absurd hx ((isFinite_iff x).mp h).ne
    next hx =>
      rw [isInfinite_iff] at hx
      split at h
      next hy =>
        exact absurd ((isInfinite_iff y).mp hy) ((isFinite_iff y).mp h).ne
      next hy =>
        rw [isInfinite_iff] at hy
        omega

theorem isFinite_neg (x : BitVec 32) : isFinite (neg x) = isFinite x := by
  rw [Bool.eq_iff_iff, isFinite_iff, isFinite_iff, magnitude_neg]

theorem finite_of_sub {x y : BitVec 32} (h : isFinite (sub x y) = true) :
    isFinite x = true ∧ isFinite y = true := by
  obtain ⟨hx, hy⟩ := finite_of_add h
  exact ⟨hx, (isFinite_neg y).symm.trans hy⟩

theorem add_of_finite {x y : BitVec 32} (hx : isFinite x = true) (hy : isFinite y = true) :
    add x y = ofSteps (value x + value y) (x.msb && y.msb) := by
  rw [add, isNaN_of_isFinite hx, isNaN_of_isFinite hy, isInfinite_of_isFinite hx,
    isInfinite_of_isFinite hy, Bool.or_false, if_neg Bool.false_ne_true, if_neg Bool.false_ne_true,
    if_neg Bool.false_ne_true]

theorem sub_pos (min max : BitVec 32) (hlt : lt min max = true)
    (hfinite : isFinite (sub max min) = true) : lt zero (sub max min) = true := by
  obtain ⟨-, -, hkey⟩ := (lt_iff min max).mp hlt
  obtain ⟨hmax, hmin⟩ := finite_of_add hfinite
  have hvalue := value_lt_value hkey
  rw [sub, add_of_finite hmax hmin, value_neg, ofSteps, if_neg (by omega), decide_eq_false (by omega)]
  exact zero_lt_ofMagnitude (roundMagnitude_pos (by omega)) (roundMagnitude_le _ _)

theorem nearest_mul_right (n d : Nat) {k : Nat} (hk : 0 < k) :
    nearest (n * k) (d * k) = nearest n d := by
  have hdiv : n * k / (d * k) = n / d := Nat.mul_div_mul_right n d hk
  have hmod : n * k % (d * k) = n % d * k := Nat.mul_mod_mul_right k n d
  have hlt : 2 * (n % d * k) < d * k ↔ 2 * (n % d) < d := by
    rw [← Nat.mul_assoc, Nat.mul_lt_mul_right hk]
  have heq : 2 * (n % d * k) = d * k ↔ 2 * (n % d) = d := by
    rw [← Nat.mul_assoc, Nat.mul_left_inj hk.ne']
  rw [nearest, nearest, hdiv, hmod]
  exact if_congr (or_congr hlt (and_congr_left' heq)) rfl rfl

theorem nearest_one (n : Nat) : nearest n 1 = n := by
  rw [nearest, Nat.mod_one, Nat.div_one, if_pos (.inl Nat.one_pos)]

/-- A significand at an exponent is its own nearest pattern. -/
theorem roundMagnitude_mul_two_pow {s e : Nat} (hs : s < 2 ^ 24) (he : e = 0 ∨ 2 ^ 23 ≤ s) :
    roundMagnitude (s * 2 ^ e) 1 = min (e * 2 ^ 23 + s) infinity := by
  have hdropped : Nat.size (s * 2 ^ e) - 24 = e := by
    have hsize : Nat.size s ≤ 24 := Nat.size_le.mpr hs
    rcases he with rfl | hnormal
    · rw [Nat.pow_zero, Nat.mul_one]
      omega
    · have hfull : 23 < Nat.size s := Nat.lt_size.mpr hnormal
      rw [← Nat.shiftLeft_eq, Nat.size_shiftLeft (Nat.ne_of_gt (by omega))]
      omega
  have hnearest : nearest (s * 2 ^ e) (1 * 2 ^ e) = s := by
    rw [nearest_mul_right _ _ (Nat.two_pow_pos e), nearest_one]
  rw [roundMagnitude, Nat.div_one, hdropped, hnearest]

theorem steps_roundMagnitude {n : Nat} (hpos : 0 < n) (h : n < 2 ^ 24) :
    steps (roundMagnitude (n * unit) 1) = n * unit
      ∧ roundMagnitude (n * unit) 1 < infinity := by
  have hsizeLe : Nat.size n ≤ 24 := Nat.size_le.mpr h
  have hsizePos : 0 < Nat.size n := Nat.size_pos.mpr hpos
  obtain ⟨e, he⟩ : ∃ e, Nat.size n + 149 - 24 = e := ⟨_, rfl⟩
  have hsplit : n * unit = n * 2 ^ (149 - e) * 2 ^ e := by
    rw [unit, Nat.mul_assoc, ← pow_add, Nat.sub_add_cancel (by omega)]
  have hsize : Nat.size (n * 2 ^ (149 - e)) = 24 := by
    rw [← Nat.shiftLeft_eq, Nat.size_shiftLeft hpos.ne']
    omega
  have hlt : n * 2 ^ (149 - e) < 2 ^ 24 := Nat.size_le.mp hsize.le
  have hle : 2 ^ 23 ≤ n * 2 ^ (149 - e) := Nat.lt_size.mp (by omega)
  have hround : roundMagnitude (n * unit) 1 = e * 2 ^ 23 + n * 2 ^ (149 - e) := by
    rw [hsplit, roundMagnitude_mul_two_pow hlt (.inr hle), infinity]
    omega
  rw [hround]
  refine ⟨?_, by rw [infinity]; omega⟩
  have hquotient : (e * 2 ^ 23 + n * 2 ^ (149 - e)) / 2 ^ 23 - 1 = e := by omega
  have hremainder : 2 ^ 23 + (e * 2 ^ 23 + n * 2 ^ (149 - e)) % 2 ^ 23 = n * 2 ^ (149 - e) := by
    omega
  rw [steps, if_neg (by omega), hquotient, hremainder, hsplit]

theorem toU32_of_finite {x : BitVec 32} (hmsb : x.msb = false) (hfinite : magnitude x < infinity) :
    (toU32 x).toNat = min (wholeBelow x) (2 ^ 32 - 1) := by
  have hnan : isNaN x = false := by
    rw [← Bool.not_eq_true, isNaN_iff]
    omega
  have hinfinite : isInfinite x = false := by
    rw [← Bool.not_eq_true, isInfinite_iff]
    omega
  rw [toU32, hnan, hmsb, hinfinite, Bool.or_false, if_neg Bool.false_ne_true,
    if_neg Bool.false_ne_true, BitVec.toNat_ofNat]
  exact Nat.mod_eq_of_lt (by omega)

theorem ceil_range (x : BitVec 32) (hnan : isNaN x = false) (hlow : lt x one = false)
    (hhigh : lt largestBelowU32 x = false) :
    1 ≤ (toU32 (ceil x)).toNat ∧ (toU32 (ceil x)).toNat ≤ 4294967040 := by
  rw [← Bool.not_eq_true, isNaN_iff] at hnan
  rw [← Bool.not_eq_true, lt_iff] at hlow hhigh
  have hone : magnitude one = 0x3F800000 := rfl
  have hlargest : magnitude largestBelowU32 = 0x4F7FFFFF := rfl
  have honeKey : orderKey one = 0x3F800000 := rfl
  have hlargestKey : orderKey largestBelowU32 = 0x4F7FFFFF := rfl
  rw [hone, honeKey] at hlow
  rw [hlargest, hlargestKey] at hhigh
  have hinfinity : infinity = 0x7F800000 := rfl
  have hkeyLow : (0x3F800000 : Int) ≤ orderKey x := by omega
  have hkeyHigh : orderKey x ≤ 0x4F7FFFFF := by omega
  have hmsb : x.msb = false := by
    rw [← Bool.not_eq_true]
    intro hsign
    rw [orderKey, if_pos hsign] at hkeyLow
    omega
  rw [orderKey, hmsb, if_neg Bool.false_ne_true] at hkeyLow hkeyHigh
  have hstepsLow : unit ≤ steps (magnitude x) :=
    steps_one.symm.trans_le (steps_le_steps (by omega))
  have hunit : 0 < unit := Nat.two_pow_pos 149
  rw [ceil]
  split
  next =>
    have hstepsHigh : steps (magnitude x) ≤ 4294967040 * unit :=
      (steps_le_steps (by omega)).trans_eq steps_largest
    have hbelow : 1 ≤ wholeBelow x := Nat.div_pos hstepsLow hunit
    have habove : wholeBelow x ≤ 4294967040 :=
      Nat.div_le_of_le_mul (by rw [Nat.mul_comm]; exact hstepsHigh)
    rw [toU32_of_finite hmsb (by omega)]
    omega
  next hwhole =>
    rw [isWhole, decide_eq_true_iff] at hwhole
    have hstepsHigh : steps (magnitude x) < 2 ^ 23 * unit :=
      (steps_lt_steps (by omega)).trans_eq steps_whole
    have hpos : 0 < wholeAbove x := Nat.div_pos (by omega) hunit
    have hle : wholeAbove x < 2 ^ 23 + 1 := by
      refine (Nat.div_lt_iff_lt_mul hunit).mpr ?_
      rw [Nat.add_mul]
      omega
    obtain ⟨hsteps, hfinite⟩ := steps_roundMagnitude hpos (hle.trans (by decide))
    have hword : roundMagnitude (wholeAbove x * unit) 1 < 2 ^ 31 := roundMagnitude_lt _ _
    rw [hmsb, if_neg Bool.false_ne_true, ofWhole, toU32_of_finite (msb_ofMagnitude hword false)
      (by rw [magnitude_ofMagnitude hword]; exact hfinite), wholeBelow,
      magnitude_ofMagnitude hword, hsteps, Nat.mul_div_cancel _ hunit]
    exact ⟨Nat.le_min.mpr ⟨hpos, by decide⟩,
      (Nat.min_le_left _ _).trans ((Nat.le_of_lt_succ hle).trans (by decide))⟩

instance (priority := low) : Arithmetic where
  add := add
  sub := sub
  mul := mul
  div := div
  floor := floor
  ceil := ceil
  ofU32 := ofU32
  toU32 := toU32
  sub_pos := sub_pos
  ceil_range := ceil_range

end Binary32
