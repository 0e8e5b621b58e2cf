import Serialize.Float.Binary32
import Serialize.Float.Rounding

/-!
# Rounding to nearest keeps the order

The rounding of the binary32 unit depends on a fraction's value alone, keeps the order of fractions
and leaves representable ones where they are, so the unit computes exactly and rounds once.
-/

namespace Binary32

/-! ### The nearest whole number -/

theorem nearest_range (n d : Nat) : n / d ≤ nearest n d ∧ nearest n d ≤ n / d + 1 := by
  rw [nearest]
  split <;> omega

theorem nearest_le_nearest {m n : Nat} (d : Nat) (h : m ≤ n) : nearest m d ≤ nearest n d := by
  rcases Nat.lt_or_eq_of_le (Nat.div_le_div_right (c := d) h) with hlt | heq
  · exact (nearest_range m d).2.trans (hlt.trans_le (nearest_range n d).1)
  · -- one quotient, and the remainders in order
    have hmod : m % d ≤ n % d := by
      have hm := Nat.div_add_mod m d
      have hn := Nat.div_add_mod n d
      rw [heq] at hm
      omega
    rw [nearest, nearest, heq]
    split <;> split <;> omega

/-! ### The nearest pattern -/

theorem roundMagnitude_mul_right (n d : Nat) {k : Nat} (hk : 0 < k) :
    roundMagnitude (n * k) (d * k) = roundMagnitude n d := by
  have hnearest : ∀ e, nearest (n * k) (d * k * 2 ^ e) = nearest n (d * 2 ^ e) := by
    intro e
    rw [Nat.mul_right_comm, nearest_mul_right _ _ hk]
  rw [roundMagnitude, roundMagnitude, Nat.mul_div_mul_right n d hk]
  simp only [hnearest]

/-- The bits dropped leave 24, or none are dropped. -/
theorem nearest_bounds (n d : Nat) :
    nearest n (d * 2 ^ (Nat.size (n / d) - 24)) ≤ 2 ^ 24
      ∧ (0 < Nat.size (n / d) - 24 → 2 ^ 23 ≤ nearest n (d * 2 ^ (Nat.size (n / d) - 24))) := by
  obtain ⟨dropped, hdropped⟩ : ∃ dropped, Nat.size (n / d) - 24 = dropped := ⟨_, rfl⟩
  have hsize := Nat.lt_size_self (n / d)
  have hquotient : n / (d * 2 ^ dropped) = n / d / 2 ^ dropped := (Nat.div_div_eq_div_mul ..).symm
  have hrange := nearest_range n (d * 2 ^ dropped)
  rw [hdropped]
  constructor
  · have hlt : n / d < 2 ^ (24 + dropped) :=
      hsize.trans_le (Nat.pow_le_pow_right (by decide) (by omega))
    rw [Nat.pow_add] at hlt
    have hbelow : n / d / 2 ^ dropped < 2 ^ 24 := Nat.div_lt_of_lt_mul (by rwa [Nat.mul_comm])
    omega
  · intro hpos
    have hle : 2 ^ (23 + dropped) ≤ n / d := Nat.lt_size.mp (by omega)
    rw [Nat.pow_add] at hle
    have habove : 2 ^ 23 ≤ n / d / 2 ^ dropped :=
      (Nat.le_div_iff_mul_le (Nat.two_pow_pos _)).mpr hle
    omega

theorem roundMagnitude_le_roundMagnitude_left {m n : Nat} (d : Nat) (h : m ≤ n) :
    roundMagnitude m d ≤ roundMagnitude n d := by
  have hsize : Nat.size (m / d) - 24 ≤ Nat.size (n / d) - 24 :=
    Nat.sub_le_sub_right (Nat.size_le_size (Nat.div_le_div_right h)) 24
  rw [roundMagnitude, roundMagnitude]
  refine min_le_min_right _ ?_
  rcases Nat.lt_or_eq_of_le hsize with hlt | heq
  · have hm := (nearest_bounds m d).1
    have hn := (nearest_bounds n d).2 (Nat.zero_lt_of_lt hlt)
    omega
  · rw [heq]
    exact Nat.add_le_add_left (nearest_le_nearest _ h) _

/-- **Rounding keeps the order of fractions.** -/
theorem roundMagnitude_le_roundMagnitude {m n d e : Nat} (hd : 0 < d) (he : 0 < e)
    (h : m * e ≤ n * d) : roundMagnitude m d ≤ roundMagnitude n e := by
  rw [← roundMagnitude_mul_right m d he, ← roundMagnitude_mul_right n e hd, Nat.mul_comm e d]
  exact roundMagnitude_le_roundMagnitude_left (d * e) h

theorem roundMagnitude_congr {m n d e : Nat} (hd : 0 < d) (he : 0 < e) (h : m * e = n * d) :
    roundMagnitude m d = roundMagnitude n e :=
  le_antisymm (roundMagnitude_le_roundMagnitude hd he h.le)
    (roundMagnitude_le_roundMagnitude he hd h.ge)

theorem roundMagnitude_zero (d : Nat) : roundMagnitude 0 d = 0 := by
  have hnearest : ∀ d, nearest 0 d = 0 := by
    intro d
    rw [nearest, Nat.zero_mod, Nat.zero_div, if_pos (by omega)]
  rw [roundMagnitude, Nat.zero_div, hnearest]
  rfl

/-- **Rounding leaves a representable number of steps where it is.** -/
theorem roundMagnitude_steps {m : Nat} (h : m < infinity) : roundMagnitude (steps m) 1 = m := by
  rw [steps]
  split
  next hsubnormal =>
    rw [← Nat.mul_one m, ← Nat.pow_zero 2, roundMagnitude_mul_two_pow (by omega) (.inl rfl)]
    omega
  next hnormal =>
    rw [roundMagnitude_mul_two_pow (by omega) (.inr (Nat.le_add_right ..))]
    omega

/-! ### The nearest pattern of a rational -/

/-- A rational as the pattern nearest to it, an infinity past the greatest. -/
def roundRat (q : ℚ) : BitVec 32 :=
  ofMagnitude (decide (q < 0)) (roundMagnitude (q.num.natAbs * unit) q.den)

theorem abs_eq_natAbs_div (q : ℚ) : |q| = q.num.natAbs / q.den := by
  rw [Rat.abs_def, Rat.divInt_eq_div, Int.cast_natCast, Int.cast_natCast]

theorem roundMagnitude_of_abs_eq {q : ℚ} {n d : Nat} (hd : 0 < d) (h : |q| * unit = n / d) :
    roundMagnitude (q.num.natAbs * unit) q.den = roundMagnitude n d := by
  have hden : (0 : ℚ) < q.den := Nat.cast_pos.mpr q.den_pos
  have hd' : (0 : ℚ) < d := Nat.cast_pos.mpr hd
  rw [abs_eq_natAbs_div, div_mul_eq_mul_div, div_eq_div_iff hden.ne' hd'.ne'] at h
  exact roundMagnitude_congr q.den_pos hd (by exact_mod_cast h)

theorem roundMagnitude_of_abs_le {q r : ℚ} (h : |q| ≤ |r|) :
    roundMagnitude (q.num.natAbs * unit) q.den ≤ roundMagnitude (r.num.natAbs * unit) r.den := by
  have hq : (0 : ℚ) < q.den := Nat.cast_pos.mpr q.den_pos
  have hr : (0 : ℚ) < r.den := Nat.cast_pos.mpr r.den_pos
  rw [abs_eq_natAbs_div, abs_eq_natAbs_div, div_le_div_iff₀ hq hr] at h
  refine roundMagnitude_le_roundMagnitude q.den_pos r.den_pos ?_
  rw [Nat.mul_right_comm, Nat.mul_right_comm r.num.natAbs]
  exact Nat.mul_le_mul_right unit (by exact_mod_cast h)

theorem orderKey_ofMagnitude {m : Nat} (h : m < 2 ^ 31) (negative : Bool) :
    orderKey (ofMagnitude negative m) = if negative then -(m : Int) else m := by
  rw [orderKey, msb_ofMagnitude h, magnitude_ofMagnitude h]

theorem orderKey_roundRat (q : ℚ) : orderKey (roundRat q)
    = if q < 0 then -(roundMagnitude (q.num.natAbs * unit) q.den : Int)
      else roundMagnitude (q.num.natAbs * unit) q.den := by
  rw [roundRat, orderKey_ofMagnitude (roundMagnitude_lt _ _)]
  simp only [decide_eq_true_iff]

theorem orderKey_roundRat_le {q r : ℚ} (h : q ≤ r) :
    orderKey (roundRat q) ≤ orderKey (roundRat r) := by
  rw [orderKey_roundRat, orderKey_roundRat]
  split
  next hq =>
    split
    next hr =>
      have habs : |r| ≤ |q| := by
        rw [abs_of_neg hq, abs_of_neg hr]
        exact neg_le_neg h
      have hle := roundMagnitude_of_abs_le habs
      omega
    next => omega
  next hq =>
    have hq := not_lt.mp hq
    have hr := hq.trans h
    have habs : |q| ≤ |r| := by
      rw [abs_of_nonneg hq, abs_of_nonneg hr]
      exact h
    have hle := roundMagnitude_of_abs_le habs
    rw [if_neg (not_lt.mpr hr)]
    omega

/-- A magnitude rounded from a fraction of steps, under the sign of what it rounds. -/
theorem orderKey_of_abs_eq {q : ℚ} {n d : Nat} {negative : Bool} (hd : 0 < d)
    (h : |q| * unit = n / d) (hneg : q < 0 → negative = true) (hpos : 0 < q → negative = false) :
    orderKey (ofMagnitude negative (roundMagnitude n d)) = orderKey (roundRat q) := by
  rw [orderKey_ofMagnitude (roundMagnitude_lt _ _), orderKey_roundRat, roundMagnitude_of_abs_eq hd h]
  rcases lt_trichotomy q 0 with hlt | rfl | hgt
  · rw [hneg hlt, if_pos rfl, if_pos hlt]
  · have hzero : n = 0 := by
      rw [abs_zero, zero_mul, eq_comm, div_eq_zero_iff] at h
      exact_mod_cast h.resolve_right (Nat.cast_ne_zero.mpr hd.ne')
    rw [hzero, roundMagnitude_zero, if_neg (lt_irrefl _)]
    cases negative <;> rfl
  · rw [hpos hgt, if_neg Bool.false_ne_true, if_neg (not_lt.mpr hgt.le)]

theorem isNaN_ofMagnitude {m : Nat} (h : m ≤ infinity) (negative : Bool) :
    isNaN (ofMagnitude negative m) = false := by
  have hword : m < 2 ^ 31 := h.trans_lt (by decide)
  rw [← Bool.not_eq_true, isNaN_iff, magnitude_ofMagnitude hword]
  omega

/-! ### The rounding of the unit -/

section Values

variable {x y : BitVec 32}

theorem abs_toRat (x : BitVec 32) : |toRat x| = steps (magnitude x) / unit := by
  have habs : |(value x : ℚ)| = steps (magnitude x) := by
    rw [value]
    split
    · rw [Int.cast_neg, abs_neg, Int.cast_natCast, Nat.abs_cast]
    · rw [Int.cast_natCast, Nat.abs_cast]
  rw [toRat, abs_div, habs, abs_of_pos unit_pos]

theorem toRat_nonneg (h : x.msb = false) : 0 ≤ toRat x := by
  rw [toRat, value, h, if_neg Bool.false_ne_true, Int.cast_natCast]
  exact div_nonneg (Nat.cast_nonneg _) unit_pos.le

theorem toRat_nonpos (h : x.msb = true) : toRat x ≤ 0 := by
  rw [toRat, value, h, if_pos rfl, Int.cast_neg, Int.cast_natCast, neg_div]
  exact neg_nonpos.mpr (div_nonneg (Nat.cast_nonneg _) unit_pos.le)

theorem orderKey_roundRat_toRat (h : isFinite x = true) : orderKey (roundRat (toRat x)) = orderKey x := by
  have hmagnitude := (isFinite_iff x).mp h
  have habs : |toRat x| * unit = steps (magnitude x) / (1 : Nat) := by
    rw [abs_toRat, div_mul_cancel₀ _ unit_pos.ne', Nat.cast_one, div_one]
  have hneg : toRat x < 0 → x.msb = true := by
    intro hlt
    by_contra hmsb
    exact absurd (toRat_nonneg (Bool.not_eq_true _ ▸ hmsb)) (not_le.mpr hlt)
  have hpos : 0 < toRat x → x.msb = false := by
    intro hgt
    by_contra hmsb
    exact absurd (toRat_nonpos (Bool.not_eq_false _ ▸ hmsb)) (not_le.mpr hgt)
  rw [← orderKey_of_abs_eq Nat.one_pos habs hneg hpos, roundMagnitude_steps hmagnitude,
    orderKey_ofMagnitude (hmagnitude.trans (by decide)), orderKey]

def nearestRounding : Rounding where
  round := roundRat
  isNumber _ := isNaN_ofMagnitude (roundMagnitude_le _ _) _
  mono _ _ := orderKey_roundRat_le
  fixes _ := orderKey_roundRat_toRat

theorem rounds_of_abs_eq {q : ℚ} {n d : Nat} {negative : Bool} (hd : 0 < d)
    (h : |q| * unit = n / d) (hneg : q < 0 → negative = true) (hpos : 0 < q → negative = false) :
    nearestRounding.Rounds (ofMagnitude negative (roundMagnitude n d)) q :=
  ⟨isNaN_ofMagnitude (roundMagnitude_le _ _) _, orderKey_of_abs_eq hd h hneg hpos⟩

/-! ### The operations -/

theorem add_rounds (hx : isFinite x = true) (hy : isFinite y = true) :
    nearestRounding.Rounds (add x y) (toRat x + toRat y) := by
  have hsum : toRat x + toRat y = (value x + value y : Int) / unit := by
    rw [toRat, toRat, ← add_div, Int.cast_add]
  rw [add_of_finite hx hy, hsum, ofSteps]
  set n := value x + value y
  split
  next hzero =>
    rw [hzero, Int.cast_zero, zero_div, ← roundMagnitude_zero 1]
    refine rounds_of_abs_eq Nat.one_pos ?_ (fun h => absurd h (lt_irrefl _))
      (fun h => absurd h (lt_irrefl _))
    rw [abs_zero, zero_mul, Nat.cast_zero, zero_div]
  next hne =>
    refine rounds_of_abs_eq Nat.one_pos ?_ (fun h => ?_) (fun h => ?_)
    · rw [abs_div, abs_of_pos unit_pos, div_mul_cancel₀ _ unit_pos.ne', Nat.cast_one, div_one,
        ← Int.cast_abs, Int.abs_eq_natAbs, Int.cast_natCast]
    · rw [div_lt_iff₀ unit_pos, zero_mul] at h
      exact decide_eq_true (Int.cast_lt_zero.mp h)
    · rw [lt_div_iff₀ unit_pos, zero_mul] at h
      exact decide_eq_false (Int.not_lt.mpr (Int.cast_pos.mp h).le)

theorem toRat_neg (x : BitVec 32) : toRat (neg x) = -toRat x := by
  rw [toRat, toRat, value_neg, Int.cast_neg, neg_div]

theorem sub_rounds (hx : isFinite x = true) (hy : isFinite y = true) :
    nearestRounding.Rounds (sub x y) (toRat x - toRat y) := by
  rw [sub_eq_add_neg, ← toRat_neg]
  exact add_rounds hx ((isFinite_neg y).trans hy)

theorem sign_of_mul {q r : ℚ} {negative negative' : Bool} (hq : negative = false → 0 ≤ q)
    (hq' : negative = true → q ≤ 0) (hr : negative' = false → 0 ≤ r)
    (hr' : negative' = true → r ≤ 0) :
    (q * r < 0 → (negative != negative') = true) ∧ (0 < q * r → (negative != negative') = false) := by
  cases negative with
  | false =>
    cases negative' with
    | false => exact ⟨fun h => absurd (mul_nonneg (hq rfl) (hr rfl)) (not_le.mpr h), fun _ => rfl⟩
    | true =>
      exact ⟨fun _ => rfl, fun h => absurd (mul_nonpos_of_nonneg_of_nonpos (hq rfl) (hr' rfl))
        (not_le.mpr h)⟩
  | true =>
    cases negative' with
    | false =>
      exact ⟨fun _ => rfl, fun h => absurd (mul_nonpos_of_nonpos_of_nonneg (hq' rfl) (hr rfl))
        (not_le.mpr h)⟩
    | true =>
      exact ⟨fun h => absurd (mul_nonneg_of_nonpos_of_nonpos (hq' rfl) (hr' rfl)) (not_le.mpr h),
        fun _ => rfl⟩

theorem mul_rounds (hx : isFinite x = true) (hy : isFinite y = true) :
    nearestRounding.Rounds (mul x y) (toRat x * toRat y) := by
  obtain ⟨hneg, hpos⟩ := sign_of_mul (@toRat_nonneg x) toRat_nonpos (@toRat_nonneg y) toRat_nonpos
  have hunit : 0 < unit := Nat.two_pow_pos 149
  rw [mul, isNaN_of_isFinite hx, isNaN_of_isFinite hy, isInfinite_of_isFinite hx,
    isInfinite_of_isFinite hy, Bool.or_false, if_neg Bool.false_ne_true, if_neg Bool.false_ne_true]
  refine rounds_of_abs_eq hunit ?_ hneg hpos
  rw [abs_mul, abs_toRat, abs_toRat, Nat.cast_mul]
  have hne := unit_pos.ne'
  field_simp

theorem div_rounds (hx : isFinite x = true) (hy : isFinite y = true) (hne : toRat y ≠ 0) :
    nearestRounding.Rounds (div x y) (toRat x / toRat y) := by
  obtain ⟨hneg, hpos⟩ := sign_of_mul (@toRat_nonneg x) toRat_nonpos
    (fun h => inv_nonneg.mpr (@toRat_nonneg y h)) (fun h => inv_nonpos.mpr (toRat_nonpos h))
  have hmagnitude : magnitude y ≠ 0 := by
    intro hzero
    refine hne (abs_eq_zero.mp ?_)
    rw [abs_toRat, hzero, show steps 0 = 0 from rfl, Nat.cast_zero, zero_div]
  have hsteps : 0 < steps (magnitude y) := steps_lt_steps (Nat.pos_of_ne_zero hmagnitude)
  rw [div, isNaN_of_isFinite hx, isNaN_of_isFinite hy, isInfinite_of_isFinite hx,
    isInfinite_of_isFinite hy, Bool.or_false, if_neg Bool.false_ne_true, if_neg Bool.false_ne_true,
    if_neg Bool.false_ne_true, if_neg hmagnitude, div_eq_mul_inv]
  refine rounds_of_abs_eq hsteps ?_ hneg hpos
  have hstepsNe : (steps (magnitude y) : ℚ) ≠ 0 := Nat.cast_ne_zero.mpr hsteps.ne'
  have hunitNe := unit_pos.ne'
  rw [abs_mul, abs_inv, abs_toRat, abs_toRat, Nat.cast_mul]
  field_simp

theorem ofU32_rounds (n : BitVec 32) : nearestRounding.Rounds (ofU32 n) n.toNat := by
  have hnonneg : (0 : ℚ) ≤ n.toNat := Nat.cast_nonneg _
  refine rounds_of_abs_eq Nat.one_pos ?_ (fun h => absurd h (not_lt.mpr hnonneg)) (fun _ => rfl)
  rw [abs_of_nonneg hnonneg, Nat.cast_one, div_one, Nat.cast_mul]

/-! ### Whole numbers -/

theorem floor_toRat (x : BitVec 32) : ⌊toRat x⌋ = value x / unit := Rat.floor_intCast_div_natCast _ _

theorem ceil_toRat (x : BitVec 32) : ⌈toRat x⌉ = -(-value x / unit) :=
  Rat.ceil_intCast_div_natCast _ _

theorem neg_ediv_eq (s : Nat) {u : Nat} (hu : 0 < u) :
    -(s : ℤ) / u = -(((s + (u - 1)) / u : Nat) : ℤ) := by
  have hsplit := Nat.div_add_mod (s + (u - 1)) u
  have hmod := Nat.mod_lt (s + (u - 1)) hu
  have hunique := (Int.ediv_emod_unique (a := -(s : ℤ)) (q := -(((s + (u - 1)) / u : Nat) : ℤ))
    (r := (u - 1 : ℤ) - ((s + (u - 1)) % u : Nat)) (Int.natCast_pos.mpr hu)).mpr
  refine (hunique ⟨?_, by omega, by omega⟩).1
  rw [mul_neg, ← Nat.cast_mul]
  omega

/-- The whole numbers below and above a value, towards zero and away from it. -/
theorem value_ediv_unit (x : BitVec 32) :
    value x / unit = if x.msb then -(wholeAbove x : ℤ) else wholeBelow x := by
  rw [value]
  split
  · exact neg_ediv_eq _ (Nat.two_pow_pos 149)
  · exact (Int.natCast_ediv _ _).symm

theorem neg_value_ediv_unit (x : BitVec 32) :
    -(-value x / unit) = if x.msb then -(wholeBelow x : ℤ) else wholeAbove x := by
  rw [value]
  split
  · rw [neg_neg]
    exact congrArg Neg.neg (Int.natCast_ediv _ _).symm
  · exact (congrArg Neg.neg (neg_ediv_eq _ (Nat.two_pow_pos 149))).trans (neg_neg _)

theorem exact_ofWhole {n : Nat} (h : n < 2 ^ 24) (negative : Bool) :
    Exact (ofWhole negative n) ((if negative then -(n : ℤ) else n : ℤ) : ℚ) := by
  have hword := roundMagnitude_lt (n * unit) 1
  obtain ⟨hsteps, hfinite⟩ : steps (roundMagnitude (n * unit) 1) = n * unit
      ∧ roundMagnitude (n * unit) 1 < infinity := by
    rcases Nat.eq_zero_or_pos n with rfl | hpos
    · rw [Nat.zero_mul, roundMagnitude_zero]
      exact ⟨rfl, by decide⟩
    · exact steps_roundMagnitude hpos h
  refine ⟨?_, ?_⟩
  · rw [isFinite_iff, ofWhole, magnitude_ofMagnitude hword]
    exact hfinite
  · rw [toRat, value, ofWhole, magnitude_ofMagnitude hword, msb_ofMagnitude hword, hsteps]
    have hne := unit_pos.ne'
    split
    · rw [Int.cast_neg, Int.cast_neg, Int.cast_natCast, Int.cast_natCast, Nat.cast_mul, neg_div,
        mul_div_cancel_right₀ _ hne]
    · rw [Int.cast_natCast, Int.cast_natCast, Nat.cast_mul, mul_div_cancel_right₀ _ hne]

/-- Past `2^23` a value is whole. -/
theorem unit_dvd_value (h : isWhole x = true) : (unit : ℤ) ∣ value x := by
  rw [isWhole, decide_eq_true_iff] at h
  have hsteps : unit ∣ steps (magnitude x) := by
    rw [steps, if_neg (by omega)]
    exact Dvd.dvd.mul_left (pow_dvd_pow 2 (by omega)) _
  rw [value]
  split
  · exact (Int.natCast_dvd_natCast.mpr hsteps).neg_right
  · exact Int.natCast_dvd_natCast.mpr hsteps

theorem whole_lt (h : ¬isWhole x = true) : wholeBelow x < 2 ^ 24 ∧ wholeAbove x < 2 ^ 24 := by
  rw [isWhole, decide_eq_true_iff] at h
  have hsteps : steps (magnitude x) < 2 ^ 23 * unit :=
    (steps_lt_steps (by omega)).trans_eq steps_whole
  have hunit : 0 < unit := Nat.two_pow_pos 149
  rw [wholeBelow, wholeAbove, Nat.div_lt_iff_lt_mul hunit, Nat.div_lt_iff_lt_mul hunit]
  generalize unit = u at hsteps hunit ⊢
  omega

theorem exact_of_isWhole (h : isWhole x = true) (hx : isFinite x = true) :
    Exact x ((value x / unit : ℤ) : ℚ) := by
  have hne : ((unit : ℤ) : ℚ) ≠ 0 := by
    rw [Int.cast_natCast]
    exact unit_pos.ne'
  refine ⟨hx, ?_⟩
  rw [Int.cast_div (unit_dvd_value h) hne, toRat, Int.cast_natCast]

theorem floor_exact (h : isFinite x = true) : Exact (floor x) ⌊toRat x⌋ := by
  rw [floor, floor_toRat]
  split
  next hwhole => exact exact_of_isWhole hwhole h
  next hfraction =>
    obtain ⟨hbelow, habove⟩ := whole_lt hfraction
    rw [value_ediv_unit]
    cases x.msb with
    | false =>
      have hexact := exact_ofWhole hbelow false
      simp only [Bool.false_eq_true, if_false] at hexact ⊢
      exact hexact
    | true =>
      have hexact := exact_ofWhole habove true
      simp only [if_true] at hexact ⊢
      exact hexact

theorem ceil_exact (h : isFinite x = true) : Exact (ceil x) ⌈toRat x⌉ := by
  rw [ceil, ceil_toRat]
  split
  next hwhole =>
    rw [← Int.neg_ediv_of_dvd ((unit_dvd_value hwhole).neg_right), neg_neg]
    exact exact_of_isWhole hwhole h
  next hfraction =>
    obtain ⟨hbelow, habove⟩ := whole_lt hfraction
    rw [neg_value_ediv_unit]
    cases x.msb with
    | false =>
      have hexact := exact_ofWhole habove false
      simp only [Bool.false_eq_true, if_false] at hexact ⊢
      exact hexact
    | true =>
      have hexact := exact_ofWhole hbelow true
      simp only [if_true] at hexact ⊢
      exact hexact

theorem toU32_exact (h : isFinite x = true) : (toU32 x).toNat = min ⌊toRat x⌋₊ (2 ^ 32 - 1) := by
  have hwhole := value_ediv_unit x
  rw [← Int.floor_toNat, floor_toRat, hwhole]
  rcases hmsb : x.msb with - | -
  · exact toU32_of_finite hmsb ((isFinite_iff x).mp h)
  · rw [toU32, hmsb, Bool.or_true, if_pos rfl, if_pos rfl, Int.toNat_neg_natCast, Nat.zero_min]
    rfl

end Values

/-- **The binary32 unit computes exactly and rounds once**, to nearest. -/
@[reducible]
def roundedArithmetic : RoundedArithmetic where
  rounding := nearestRounding
  add_rounds _ _ := add_rounds
  sub_rounds _ _ := sub_rounds
  mul_rounds _ _ := mul_rounds
  div_rounds _ _ := div_rounds
  ofU32_rounds := ofU32_rounds
  finite_of_sub _ _ := finite_of_sub
  floor_exact _ := floor_exact
  ceil_exact _ := ceil_exact
  toU32_exact _ := toU32_exact

end Binary32
