import Serialize.Float.Binary32
import Serialize.Format.Domain

/-!
# Zig-zag integers

A signed integer near zero as a small unsigned one: 0, -1, 1, -2, 2 become 0, 1, 2, 3, 4. A caller
that writes the unsigned form in a raw field of `k` bits carries the signed integers of `k` bits.
-/

namespace Serialize

open Binary32 (Arithmetic)

/-- Convert a signed integer to an unsigned integer with zig-zag encoding. -/
def signedToUnsigned (n : I32) : U32 := (n <<< 1) ^^^ (0#32 - (n >>> 31))

/-- Convert an unsigned integer to a signed integer with zig-zag encoding. -/
def unsignedToSigned (n : U32) : I32 := (n >>> 1) ^^^ (0#32 - (n &&& 1))

theorem toNat_signedToUnsigned (n : I32) : (signedToUnsigned n).toNat
    = if n.toNat < 2 ^ 31 then 2 * n.toNat else 2 * (2 ^ 32 - n.toNat) - 1 := by
  have hlt := n.isLt
  have hsign : (n >>> 31).toNat = n.toNat / 2 ^ 31 := by
    rw [BitVec.toNat_ushiftRight, Nat.shiftRight_eq_div_pow]
  have hshift : (n <<< 1).toNat = n.toNat * 2 % 2 ^ 32 := by
    rw [BitVec.toNat_shiftLeft, Nat.shiftLeft_eq, pow_one]
  split
  next hsmall =>
    have hzero : n >>> 31 = 0#32 := BitVec.eq_of_toNat_eq (by
      rw [hsign, Nat.div_eq_of_lt hsmall]
      rfl)
    have hnone : 0#32 - 0#32 = 0#32 := rfl
    rw [signedToUnsigned, hzero, hnone, BitVec.xor_zero, hshift]
    omega
  next hlarge =>
    have hone : n >>> 31 = 1#32 := BitVec.eq_of_toNat_eq (by
      rw [hsign]
      show _ = 1
      omega)
    have hall : 0#32 - 1#32 = BitVec.allOnes 32 := rfl
    rw [signedToUnsigned, hone, hall, BitVec.xor_allOnes, BitVec.toNat_not, hshift]
    omega

theorem toNat_unsignedToSigned (n : U32) : (unsignedToSigned n).toNat
    = if n.toNat % 2 = 0 then n.toNat / 2 else 2 ^ 32 - 1 - n.toNat / 2 := by
  have hlow : (n &&& 1).toNat = n.toNat % 2 := by
    rw [BitVec.toNat_and]
    exact Nat.and_one_is_mod n.toNat
  have hhalf : (n >>> 1).toNat = n.toNat / 2 := by
    rw [BitVec.toNat_ushiftRight, Nat.shiftRight_eq_div_pow, pow_one]
  split
  next heven =>
    have hzero : n &&& 1 = 0#32 := BitVec.eq_of_toNat_eq (hlow.trans heven)
    have hnone : 0#32 - 0#32 = 0#32 := rfl
    rw [unsignedToSigned, hzero, hnone, BitVec.xor_zero, hhalf]
  next hodd =>
    have hone : n &&& 1 = 1#32 := BitVec.eq_of_toNat_eq (by
      rw [hlow]
      show _ = 1
      omega)
    have hall : 0#32 - 1#32 = BitVec.allOnes 32 := rfl
    rw [unsignedToSigned, hone, hall, BitVec.xor_allOnes, BitVec.toNat_not, hhalf]

theorem unsignedToSigned_signedToUnsigned (n : I32) :
    unsignedToSigned (signedToUnsigned n) = n := by
  have hlt := n.isLt
  apply BitVec.eq_of_toNat_eq
  rw [toNat_unsignedToSigned, toNat_signedToUnsigned]
  split_ifs <;> omega

theorem signedToUnsigned_unsignedToSigned (n : U32) :
    signedToUnsigned (unsignedToSigned n) = n := by
  have hlt := n.isLt
  apply BitVec.eq_of_toNat_eq
  rw [toNat_signedToUnsigned, toNat_unsignedToSigned]
  split_ifs <;> omega

/-- The signed integers from zero outwards, the negative one of each pair first. -/
theorem signedToUnsigned_eq (n : I32) : ((signedToUnsigned n).toNat : Int)
    = if 0 ≤ n.toInt then 2 * n.toInt else -2 * n.toInt - 1 := by
  have hlt := n.isLt
  rw [toNat_signedToUnsigned, BitVec.toInt_eq_toNat_cond]
  split_ifs <;> omega

theorem signedToUnsigned_lt_iff (n : I32) {width : Nat} (hwidth : 1 ≤ width) :
    (signedToUnsigned n).toNat < 2 ^ width
      ↔ -2 ^ (width - 1) ≤ n.toInt ∧ n.toInt < 2 ^ (width - 1) := by
  obtain ⟨width, rfl⟩ := Nat.exists_eq_add_of_le' hwidth
  have hvalue := signedToUnsigned_eq n
  have hpow : (2 ^ (width + 1) : Nat) = 2 * 2 ^ width := Nat.pow_succ'
  have hcast : ((2 ^ width : Nat) : Int) = 2 ^ width := by
    push_cast
    rfl
  rw [hpow, Nat.add_sub_cancel, ← hcast]
  generalize 2 ^ width = bound
  split at hvalue
  next => omega
  next => omega

/-- **Zig-zag is a bijection that keeps small numbers small**: the two conversions undo each other,
and a raw field of `width` bits may be handed the code of exactly the signed integers of that
width. -/
theorem zigzag_exact [Arithmetic] (n : I32) (m width : U32)
    (hwidth : 1 ≤ width.toNat ∧ width.toNat ≤ 32) :
    unsignedToSigned (signedToUnsigned n) = n ∧ signedToUnsigned (unsignedToSigned m) = m
      ∧ ((signedToUnsigned n).toNat : Int) = (if 0 ≤ n.toInt then 2 * n.toInt else -2 * n.toInt - 1)
      ∧ ((Operation.bits width).Conforms (signedToUnsigned n)
        ↔ -2 ^ (width.toNat - 1) ≤ n.toInt ∧ n.toInt < 2 ^ (width.toNat - 1)) := by
  refine ⟨unsignedToSigned_signedToUnsigned n, signedToUnsigned_unsignedToSigned m,
    signedToUnsigned_eq n, ?_⟩
  rw [← signedToUnsigned_lt_iff n hwidth.1]
  exact ⟨fun h => h.inDomain, fun h => ⟨hwidth, h, trivial⟩⟩

/-- The least integer of four bits, and the greatest code of four bits. -/
theorem zigzag_exact_four_bits :
    unsignedToSigned (signedToUnsigned (-8)) = -8 ∧ signedToUnsigned (unsignedToSigned 15) = 15
      ∧ ((signedToUnsigned (-8)).toNat : Int)
        = (if 0 ≤ (-8 : I32).toInt then 2 * (-8 : I32).toInt else -2 * (-8 : I32).toInt - 1)
      ∧ ((Operation.bits 4).Conforms (signedToUnsigned (-8))
        ↔ -2 ^ ((4 : U32).toNat - 1) ≤ (-8 : I32).toInt ∧ (-8 : I32).toInt < 2 ^ ((4 : U32).toNat - 1)) :=
  zigzag_exact (-8) 15 4 (by decide)

end Serialize
