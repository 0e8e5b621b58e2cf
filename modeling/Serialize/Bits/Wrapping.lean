import Mathlib.Data.BitVec
import Mathlib.Tactic.Ring

/-!
# Wrapping arithmetic as arithmetic of integers

A machine integer stands for every integer congruent to it, and a wrapping operation stands for the
operation on integers. So a wrapping computation is right as soon as its integer result is inside
the range its width can tell apart, whatever wrapped on the way.
-/

namespace Wrapping

variable {w : Nat}

theorem ofInt_sub (a b : Int) : BitVec.ofInt w (a - b) = BitVec.ofInt w a - BitVec.ofInt w b := by
  rw [Int.sub_eq_add_neg, BitVec.ofInt_add, BitVec.ofInt_neg, BitVec.sub_eq_add_neg]

theorem sub_eq_ofInt (a b : BitVec w) : a - b = BitVec.ofInt w (a.toInt - b.toInt) := by
  rw [ofInt_sub, BitVec.ofInt_toInt, BitVec.ofInt_toInt]

theorem toNat_ofInt {n : Int} (hnonneg : 0 ≤ n) (hlt : n < 2 ^ w) :
    (BitVec.ofInt w n).toNat = n.toNat := by
  rw [BitVec.toNat_ofInt, Int.emod_eq_of_lt hnonneg (by exact_mod_cast hlt)]

theorem toInt_ofInt {n : Int} (hw : 0 < w) (hlow : -2 ^ (w - 1) ≤ n) (hhigh : n < 2 ^ (w - 1)) :
    (BitVec.ofInt w n).toInt = n :=
  BitVec.toInt_ofInt_eq_self hw hlow hhigh

theorem toInt_sub_lt (a b : BitVec w) : a.toInt - b.toInt < 2 ^ w := by
  have ha := BitVec.two_mul_toInt_lt (x := a)
  have hb := BitVec.le_two_mul_toInt (x := b)
  omega

theorem toNat_sub {a b : BitVec w} (h : b.toInt ≤ a.toInt) :
    (a - b).toNat = (a.toInt - b.toInt).toNat := by
  rw [sub_eq_ofInt]
  exact toNat_ofInt (by omega) (toInt_sub_lt a b)

/-- Comparing wrapping offsets from the bottom of a range compares the values as signed integers. -/
theorem offset_le_iff (hw : 0 < w) {min max : BitVec w} (h : min.toInt ≤ max.toInt)
    (value : BitVec w) : (value - min).toNat ≤ (max - min).toNat ↔
      min.toInt ≤ value.toInt ∧ value.toInt ≤ max.toInt := by
  constructor
  · intro hle
    have hspan := toNat_sub h
    have hvalue : value = BitVec.ofInt w (min.toInt + (value - min).toNat) := by
      rw [BitVec.ofInt_add, BitVec.ofInt_toInt, BitVec.ofInt_natCast, BitVec.ofNat_toNat,
        BitVec.setWidth_eq, BitVec.add_comm, BitVec.sub_add_cancel]
    have hlow := BitVec.le_toInt min
    have hhigh := BitVec.toInt_lt (x := max)
    have hint : value.toInt = min.toInt + (value - min).toNat := by
      rw [hvalue]
      conv_rhs => rw [← hvalue]
      exact toInt_ofInt hw (by omega) (by omega)
    omega
  · rintro ⟨hlow, hhigh⟩
    rw [toNat_sub hlow, toNat_sub h]
    omega

theorem signExtend_eq_ofInt (a : BitVec w) (v : Nat) : a.signExtend v = BitVec.ofInt v a.toInt := rfl

theorem ofInt_shiftLeft (n : Int) (k : Nat) :
    BitVec.ofInt w n <<< k = BitVec.ofInt w (n * 2 ^ k) := by
  have hpow : BitVec.twoPow w k = BitVec.ofInt w (2 ^ k) := by
    apply BitVec.eq_of_toNat_eq
    rw [BitVec.toNat_twoPow, BitVec.toNat_ofInt]
    norm_cast
  rw [BitVec.shiftLeft_eq_mul_twoPow, BitVec.ofInt_mul, hpow]

/-- Narrowing forgets multiples of the narrower width, which the wider one had not forgotten. -/
theorem setWidth_ofInt {v : Nat} (h : v ≤ w) (n : Int) :
    (BitVec.ofInt w n).setWidth v = BitVec.ofInt v n := by
  apply BitVec.eq_of_toNat_eq
  have hdvd : ((2 ^ v : Nat) : Int) ∣ ((2 ^ w : Nat) : Int) := by
    exact_mod_cast Nat.pow_dvd_pow 2 h
  have hpos : (0 : Int) < ((2 ^ w : Nat) : Int) := by
    exact_mod_cast Nat.two_pow_pos w
  rw [BitVec.toNat_setWidth, BitVec.toNat_ofInt, BitVec.toNat_ofInt]
  have hnonneg := Int.emod_nonneg n hpos.ne'
  have hcast : (((n % ((2 ^ w : Nat) : Int)).toNat % 2 ^ v : Nat) : Int)
      = n % ((2 ^ v : Nat) : Int) := by
    rw [Int.natCast_emod, Int.toNat_of_nonneg hnonneg, Int.emod_emod_of_dvd n hdvd]
  omega

/-! ### Fields of a word -/

theorem ofNat_shiftLeft (n k : Nat) : BitVec.ofNat w n <<< k = BitVec.ofNat w (2 ^ k * n) := by
  apply BitVec.eq_of_toNat_eq
  rw [BitVec.toNat_shiftLeft, BitVec.toNat_ofNat, BitVec.toNat_ofNat, Nat.shiftLeft_eq,
    Nat.mod_mul_mod, Nat.mul_comm]

/-- A number put above a field of `k` bits joins it, whatever the word has no room for. -/
theorem ofNat_or {k low : Nat} (hlow : low < 2 ^ k) (high : Nat) :
    BitVec.ofNat w (2 ^ k * high) ||| BitVec.ofNat w low = BitVec.ofNat w (low + 2 ^ k * high) := by
  rw [← BitVec.ofNat_or, Nat.mul_comm, ← Nat.shiftLeft_eq, ← Nat.shiftLeft_add_eq_or_of_lt hlow,
    Nat.add_comm]

theorem setWidth_ofNat {v n : Nat} (h : v ≤ w) (hn : n < 2 ^ v) :
    (BitVec.ofNat v n).setWidth w = BitVec.ofNat w n :=
  BitVec.setWidth_ofNat_of_le_of_lt h hn

end Wrapping
