import Serialize.Machine.Computation
import Serialize.Bits.Octets
import Mathlib.Data.Nat.Size

/-!
# Machine integers, refusal reasons and width arithmetic

Unsigned and signed machine integers of one width are the same bit vectors; an operation says which
reading it takes by comparing with `toNat` order or with the signed order. A cast between them is
the identity, as `as` is between integer types of one width.
-/

namespace Serialize

open Machine BitString

abbrev U8 := BitVec 8
abbrev U16 := BitVec 16
abbrev U32 := BitVec 32
abbrev U64 := BitVec 64
abbrev U128 := BitVec 128
abbrev I32 := BitVec 32
abbrev I64 := BitVec 64
abbrev I128 := BitVec 128

/-- A single precision float, as its bit pattern. -/
abbrev F32 := BitVec 32

/-- A double precision float, as its bit pattern. -/
abbrev F64 := BitVec 64

/-- Why a read was refused: the closed list of refusal reasons. -/
inductive Error where
  | pastEnd
  | valueOutOfRange
  | nonzeroPadding
  | trailingData
  | nonFiniteFloat
  | invalidUtf8
  | embeddedNul
  | nonCanonical
  | rejected
  deriving DecidableEq, Repr

/-- What a serialize method returns: nothing, or the reason it refused. -/
abbrev Result := Except Error Unit

/-- A step on a stream or a bit packer. An operation on a stream `S` that is handed a caller's value
of type `δ` by reference is an `Action (S × δ) Unit`. -/
abbrev Action (S α : Type) := Comp Error S α

/-- The largest `i32`. -/
def i32Max : Nat := 2 ^ 31 - 1

/-- `u64::to_le_bytes`. -/
def toLeBytes (word : U64) : List U8 := leOctets 8 word.toNat

/-- `u64::from_le_bytes`. -/
def fromLeBytes (bytes : List U8) : U64 := BitVec.ofNat 64 (leNat bytes)

/-! ### Width arithmetic

The width of a ranged field is the bit length of its span, computed from the leading zeros of a
wrapping difference. -/

/-- The position above the highest set bit, from the count of leading zeros. -/
def bitLength {w : Nat} (x : BitVec w) : U32 := BitVec.ofNat 32 (w - x.clz.toNat)

def bitsRequired (min max : U32) : U32 :=
  if min = max then 0 else bitLength (max - min)

def bitsRequired64 (min max : U64) : U32 :=
  if min = max then 0 else bitLength (max - min)

def bitsRequired128 (min max : U128) : U32 :=
  if min = max then 0 else bitLength (max - min)

theorem sub_clz_eq_size {w : Nat} (x : BitVec w) : w - x.clz.toNat = Nat.size x.toNat := by
  apply Nat.le_antisymm
  · rcases Nat.eq_zero_or_pos w with hw | hw
    · omega
    by_cases hx : x = 0#w
    · have hclz : x.clz = BitVec.ofNat w w := BitVec.clz_eq_iff_eq_zero.mpr hx
      rw [hclz, BitVec.toNat_ofNat, Nat.mod_eq_of_lt Nat.lt_two_pow_self]
      omega
    · have hhigh := BitVec.two_pow_sub_clz_le_toNat_of_ne_zero hw hx
      have hlt := Nat.lt_size.mpr hhigh
      omega
  · exact Nat.size_le.mpr BitVec.toNat_lt_two_pow_sub_clz

theorem toNat_bitLength {w : Nat} (hw : w < 2 ^ 32) (x : BitVec w) :
    (bitLength x).toNat = Nat.size x.toNat := by
  rw [bitLength, BitVec.toNat_ofNat, sub_clz_eq_size, Nat.mod_eq_of_lt]
  exact (Nat.size_le.mpr x.isLt).trans_lt hw

theorem toNat_ite_bitLength {w : Nat} (hw : w < 2 ^ 32) (min max : BitVec w) :
    (if min = max then 0 else bitLength (max - min) : U32).toNat = Nat.size (max - min).toNat := by
  split
  · subst min
    simp
  · exact toNat_bitLength hw _

theorem toNat_bitsRequired (min max : U32) :
    (bitsRequired min max).toNat = Nat.size (max - min).toNat :=
  toNat_ite_bitLength (by decide) min max

theorem toNat_bitsRequired64 (min max : U64) :
    (bitsRequired64 min max).toNat = Nat.size (max - min).toNat :=
  toNat_ite_bitLength (by decide) min max

theorem toNat_bitsRequired128 (min max : U128) :
    (bitsRequired128 min max).toNat = Nat.size (max - min).toNat :=
  toNat_ite_bitLength (by decide) min max

theorem wrapping_pred_lt_iff (width : U32) :
    width - 1 < 32 ↔ 1 ≤ width.toNat ∧ width.toNat ≤ 32 := by
  have hlt := width.isLt
  rw [BitVec.lt_def, BitVec.toNat_sub, show (1 : U32).toNat = 1 from rfl,
    show (32 : U32).toNat = 32 from rfl]
  omega

theorem i32_toInt_bounds (value : I32) : -2 ^ 31 ≤ value.toInt ∧ value.toInt < 2 ^ 31 :=
  ⟨BitVec.le_toInt value, BitVec.toInt_lt⟩

end Serialize
