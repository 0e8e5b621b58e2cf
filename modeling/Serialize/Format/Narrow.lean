import Serialize.Format.Codes

/-!
# Operations ask for narrow fields

Whatever its declaration, an operation asks for its bits in groups of at most 32, and a declaration it
refuses it refuses before asking. The one exception is a plain group of bits, which asks how far it
would reach before it looks at its own width.
-/

namespace Serialize

open Machine BitString Decode
open Decode.Decoder (bind_eq accept_bind)
open Binary32 (Arithmetic)
open Utf8 (fromUtf8)

namespace Decoders

variable {α : Type}

theorem refuseWith_narrow (error : Error) : (refuseWith error : Decoder Error α).Narrow 32 :=
  Nat.zero_le 32

theorem declare_bind_narrow {declared : Prop} [Decidable declared] {next : Unit → Decoder Error α}
    (h : declared → (next ()).Narrow 32) : ((declare declared).bind next).Narrow 32 := by
  rw [declare]
  split
  next hdeclared => exact h hdeclared
  next => exact refuseWith_narrow _

theorem gate_narrow : gate.Narrow 32 := fun _ => trivial

theorem group_narrow {width : U32} (h : width.toNat ≤ 32) : (group width).Narrow 32 := by
  rw [group]
  split
  · exact ⟨h, fun _ _ => trivial⟩
  · exact h

theorem align_narrow : align.Narrow 32 := by
  intro position
  refine ⟨?_, fun taken _ => ?_⟩
  · rw [BitVec.toNat_ofNat, byteBoundary]
    omega
  · show (if ofBits taken = 0 then _ else _ : Decoder Error Unit).Narrow 32
    split
    · trivial
    · exact refuseWith_narrow _

theorem offset128_narrow {width : U32} (h : width.toNat ≤ 128) : (offset128 width).Narrow 32 := by
  by_cases hwidth : width ≤ 32
  · rw [offset128, if_pos hwidth]
    exact (group_narrow hwidth).bind fun _ => trivial
  · have hlong : 32 < width.toNat := Nat.not_le.mp hwidth
    exact (offset128_grouped ⟨by omega, h⟩).narrow

theorem bits64_narrow (width : U32) : (bits64 width).Narrow 32 :=
  declare_bind_narrow fun hwidth => (dwords_grouped hwidth).narrow

theorem ranged_narrow {w : Nat} {offset : Decoder Error (BitVec w)} {min max : BitVec w}
    (h : min ≠ max → offset.Narrow 32) : (ranged offset min max).Narrow 32 := by
  refine declare_bind_narrow fun _ => ?_
  split
  · exact gate_narrow.bind fun _ => trivial
  next hne =>
    refine (h hne).bind fun value => ?_
    split
    · exact refuseWith_narrow _
    · trivial

theorem int_narrow (min max : I32) : (int min max).Narrow 32 :=
  ranged_narrow fun hne => (int_offset hne).narrow

theorem fixed_narrow (T : FixedPointStorage) (integerBits fractionBits : U32) (minUnits maxUnits : I64) :
    (fixed T integerBits fractionBits minUnits maxUnits).Narrow 32 := by
  refine declare_bind_narrow fun _ => declare_bind_narrow fun _ => declare_bind_narrow fun _ =>
    declare_bind_narrow fun _ => ?_
  dsimp only
  split
  · exact gate_narrow.bind fun _ => trivial
  · refine (offset128_narrow ?_).bind fun offset => ?_
    · rw [toNat_bitLength (by decide)]
      exact Nat.size_le.mpr (BitVec.isLt _)
    · split
      · exact refuseWith_narrow _
      · trivial

theorem bool_narrow : bool.Narrow 32 := (group_narrow (by decide)).bind fun _ => trivial

theorem relative_narrow (previous : I32) (reconstructed : Int) :
    (relative previous reconstructed).Narrow 32 := by
  rw [relative]
  split
  · trivial
  · exact refuseWith_narrow _

theorem absolute_narrow (previous : I32) : (absolute previous).Narrow 32 := by
  refine (group_narrow (le_refl 32)).bind fun value => ?_
  split
  · exact refuseWith_narrow _
  · split
    · exact refuseWith_narrow _
    · trivial

theorem tiers_narrow (previous : I32) (rest : List (U32 × I32 × I32)) :
    (tiers previous rest).Narrow 32 := by
  induction rest with
  | nil => exact absolute_narrow previous
  | cons tier rest ih =>
      refine bool_narrow.bind fun inBucket => ?_
      split
      · exact (int_narrow _ _).bind fun difference => relative_narrow _ _
      · exact ih

theorem intRelative_narrow (previous : I32) : (intRelative previous).Narrow 32 := by
  refine declare_bind_narrow fun _ => bool_narrow.bind fun oneBit => ?_
  split
  · exact relative_narrow _ _
  · exact tiers_narrow previous buckets

theorem bytes_narrow (count : Nat) : (bytes count).Narrow 32 :=
  align_narrow.bind fun _ _ => trivial

theorem string_narrow (bufferSize : Nat) : (string bufferSize).Narrow 32 := by
  rw [string]
  split
  · exact refuseWith_narrow _
  refine (int_narrow _ _).bind fun length => (bytes_narrow _).bind fun payload => ?_
  rw [text]
  split
  · exact refuseWith_narrow _
  · cases fromUtf8 payload.toList with
    | none => exact refuseWith_narrow _
    | some value => trivial

variable [Arithmetic]

theorem compressedFloatPrecomputed_narrow (maxIntegerValue width : U32) (delta min : F32) :
    (compressedFloatPrecomputed maxIntegerValue width delta min).Narrow 32 := by
  refine declare_bind_narrow fun _ => declare_bind_narrow fun hwidth => declare_bind_narrow fun _ =>
    declare_bind_narrow fun _ => (group_narrow ?_).bind fun value => ?_
  · rw [hwidth, toNat_bitsRequired]
    exact Nat.size_le.mpr (BitVec.isLt _)
  · split
    · exact refuseWith_narrow _
    · dsimp only
      split
      · trivial
      · exact refuseWith_narrow _

theorem compressedFloat_narrow (min max resolution : F32) :
    (compressedFloat min max resolution).Narrow 32 :=
  declare_bind_narrow fun _ => declare_bind_narrow fun _ => declare_bind_narrow fun _ =>
    compressedFloatPrecomputed_narrow _ _ _ _

end Decoders

/-- **An operation asks for narrow fields,** but for a group of bits declared too wide. -/
theorem Operation.decoder_narrow [Arithmetic] (operation : Operation)
    (h : ∀ width, operation = .bits width → width.toNat ≤ 32) : operation.decoder.Narrow 32 := by
  cases operation with
  | bits width => exact Decoders.group_narrow (h width rfl)
  | bits64 width => exact Decoders.bits64_narrow width
  | bool => exact Decoders.bool_narrow
  | u8 => exact (Decoders.group_narrow (by decide)).bind fun _ => trivial
  | u16 => exact (Decoders.group_narrow (by decide)).bind fun _ => trivial
  | u32 => exact Decoders.group_narrow (le_refl 32)
  | u64 => exact Decoders.bits64_narrow 64
  | u128 =>
      exact (Decoders.bits64_narrow 64).bind fun _ => (Decoders.bits64_narrow 64).bind fun _ => trivial
  | int min max => exact Decoders.int_narrow min max
  | int64 min max => exact Decoders.ranged_narrow fun hne => (Decoders.int64_offset hne).narrow
  | int128 min max => exact Decoders.ranged_narrow fun hne => (Decoders.int128_offset hne).narrow
  | fixed T integerBits fractionBits minUnits maxUnits =>
      exact Decoders.fixed_narrow T integerBits fractionBits minUnits maxUnits
  | intRelative previous => exact Decoders.intRelative_narrow previous
  | f32 =>
      refine (Decoders.group_narrow (le_refl 32)).bind fun value => ?_
      split
      · trivial
      · exact Decoders.refuseWith_narrow _
  | f64 =>
      refine (Decoders.bits64_narrow 64).bind fun value => ?_
      split
      · trivial
      · exact Decoders.refuseWith_narrow _
  | bytes count => exact Decoders.bytes_narrow count
  | string bufferSize => exact Decoders.string_narrow bufferSize
  | align => exact Decoders.align_narrow
  | compressedFloat min max resolution => exact Decoders.compressedFloat_narrow min max resolution
  | compressedFloatPrecomputed maxIntegerValue width delta min =>
      exact Decoders.compressedFloatPrecomputed_narrow maxIntegerValue width delta min

end Serialize
