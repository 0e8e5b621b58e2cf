import Serialize.Model.Operation

/-!
# Declarations and the values they admit

Which declarations are legal and which values a conforming writer may be handed for one, in
mathematical integers. This says what the operations are for; the code's own checks are related to
it where the operations are proved correct.
-/

namespace Serialize

open Machine
open Binary32 (Arithmetic)

namespace FixedPointStorage

/-- The mathematical integer a raw value of the storage type stands for. -/
def toInt (T : FixedPointStorage) (raw : BitVec T.bits) : Int :=
  if T.signed then raw.toInt else raw.toNat

/-- The least raw value of the storage type. -/
def minRaw (T : FixedPointStorage) : Int := if T.signed then -2 ^ (T.bits - 1) else 0

/-- The greatest raw value of the storage type. -/
def maxRaw (T : FixedPointStorage) : Int := if T.signed then 2 ^ (T.bits - 1) - 1 else 2 ^ T.bits - 1

end FixedPointStorage

namespace Operation

/-- A bound in whole units as a raw bound. -/
def rawBound (units : I64) (fractionBits : U32) : Int := units.toInt * 2 ^ fractionBits.toNat

/-- The declaration of a fixed point field: a Q format of the storage width, bounds in order, both
representable in it. -/
structure FixedLegal (T : FixedPointStorage) (integerBits fractionBits : U32)
    (minUnits maxUnits : I64) : Prop where
  integerBits_pos : 1 ≤ integerBits.toNat
  width : integerBits.toNat + fractionBits.toNat = T.bits
  order : minUnits.toInt ≤ maxUnits.toInt
  minRaw_le : T.minRaw ≤ rawBound minUnits fractionBits
  le_maxRaw : rawBound maxUnits fractionBits ≤ T.maxRaw

/-- The declaration of the precomputed compressed float. -/
def PrecomputedLegal (maxIntegerValue width : U32) (delta : F32) : Prop :=
  (1 ≤ maxIntegerValue.toNat ∧ maxIntegerValue.toNat ≤ 4294967040)
    ∧ width.toNat = Nat.size maxIntegerValue.toNat
    ∧ Binary32.lt Binary32.zero delta = true ∧ Binary32.isFinite delta = true

/-- The declaration is one the format allows. -/
def Legal [Arithmetic] : Operation → Prop
  | .bits width => 1 ≤ width.toNat ∧ width.toNat ≤ 32
  | .bits64 width => 1 ≤ width.toNat ∧ width.toNat ≤ 64
  | .int min max => min.toInt ≤ max.toInt
  | .int64 min max => min.toInt ≤ max.toInt
  | .int128 min max => min.toInt ≤ max.toInt
  | .fixed T integerBits fractionBits minUnits maxUnits =>
      FixedLegal T integerBits fractionBits minUnits maxUnits
  | .intRelative previous => 0 ≤ previous.toInt
  | .string bufferSize => 1 ≤ bufferSize ∧ bufferSize ≤ i32Max
  | .compressedFloat min max resolution =>
      Binary32.lt min max = true ∧ Binary32.lt Binary32.zero resolution = true
        ∧ Binary32.isFinite (Arithmetic.sub max min) = true
        ∧ Binary32.isFinite (Arithmetic.div (Arithmetic.sub max min) resolution) = true
  | .compressedFloatPrecomputed maxIntegerValue width delta _ =>
      PrecomputedLegal maxIntegerValue width delta
  | _ => True

/-- The value lies inside the declared width, range or domain. -/
def InDomain : (operation : Operation) → operation.Value → Prop
  | .bits width, value => value.toNat < 2 ^ width.toNat
  | .bits64 width, value => value.toNat < 2 ^ width.toNat
  | .int min max, value => min.toInt ≤ value.toInt ∧ value.toInt ≤ max.toInt
  | .int64 min max, value => min.toInt ≤ value.toInt ∧ value.toInt ≤ max.toInt
  | .int128 min max, value => min.toInt ≤ value.toInt ∧ value.toInt ≤ max.toInt
  | .fixed T _ fractionBits minUnits maxUnits, value =>
      rawBound minUnits fractionBits ≤ T.toInt value ∧ T.toInt value ≤ rawBound maxUnits fractionBits
  | .intRelative previous, current => previous.toInt < current.toInt ∧ current.toInt ≤ i32Max
  | .f32, value => Binary32.isFinite value = true
  | .f64, value => Binary64.isFinite value = true
  | .string bufferSize, value => value.bytes.length < bufferSize ∧ 0 ∉ value.bytes
  | .compressedFloat _ _ _, value => Binary32.isFinite value = true
  | .compressedFloatPrecomputed _ _ _ _, value => Binary32.isFinite value = true
  | _, _ => True

/-- The top of a compressed range decodes to a finite value, as the writer asserts. -/
def TopDecodes [Arithmetic] : Operation → Prop
  | .compressedFloat min max _ =>
      Binary32.isFinite (Arithmetic.add min (Arithmetic.sub max min)) = true
  | .compressedFloatPrecomputed _ _ delta min => Binary32.isFinite (Arithmetic.add min delta) = true
  | _ => True

theorem topDecodes_of_exact [Arithmetic] {operation : Operation} (h : operation.Exact) :
    operation.TopDecodes := by
  cases operation with
  | compressedFloat min max resolution => exact h.elim
  | compressedFloatPrecomputed maxIntegerValue width delta min => exact h.elim
  | _ => trivial

/-- What a writer may be handed: a legal declaration and a value inside it. -/
structure Conforms [Arithmetic] (operation : Operation) (value : operation.Value) : Prop where
  legal : operation.Legal
  inDomain : operation.InDomain value
  topDecodes : operation.TopDecodes

end Operation

section Conforming

variable [Arithmetic]

/-- Every operation carries a value a writer may be handed. -/
def Conforming (carried : List Carried) : Prop :=
  ∀ entry ∈ carried, Operation.Conforms entry.1 entry.2

theorem Conforming.left {first second : List Carried} (h : Conforming (first ++ second)) :
    Conforming first :=
  fun entry hentry => h entry (List.mem_append_left _ hentry)

theorem Conforming.right {first second : List Carried} (h : Conforming (first ++ second)) :
    Conforming second :=
  fun entry hentry => h entry (List.mem_append_right _ hentry)

end Conforming

end Serialize
