import Mathlib.Data.BitVec

/-!
# Well-formed UTF-8

The byte sequences Unicode Table 3-7 calls well formed, one row of the table to a case.
-/

namespace Utf8

/-- A byte in a closed interval. -/
def inRange (low high byte : BitVec 8) : Bool := decide (low ≤ byte) && decide (byte ≤ high)

/-- A continuation byte, `80..BF`. -/
def isContinuation (byte : BitVec 8) : Bool := inRange 0x80 0xBF byte

/-- The row of two byte sequences. -/
def isPair (a b : BitVec 8) : Bool := inRange 0xC2 0xDF a && isContinuation b

/-- The rows of three byte sequences. -/
def isTriple (a b c : BitVec 8) : Bool :=
  ((a == 0xE0 && inRange 0xA0 0xBF b)
    || (inRange 0xE1 0xEC a && isContinuation b)
    || (a == 0xED && inRange 0x80 0x9F b)
    || (inRange 0xEE 0xEF a && isContinuation b)) && isContinuation c

/-- The rows of four byte sequences. -/
def isQuad (a b c d : BitVec 8) : Bool :=
  ((a == 0xF0 && inRange 0x90 0xBF b)
    || (inRange 0xF1 0xF3 a && isContinuation b)
    || (a == 0xF4 && inRange 0x80 0x8F b)) && isContinuation c && isContinuation d

/-- The whole sequence is well formed. -/
def wellFormed : List (BitVec 8) → Bool
  | [] => true
  | a :: rest =>
      if a ≤ 0x7F then wellFormed rest
      else match rest with
        | [] => false
        | b :: rest =>
            if isPair a b then wellFormed rest
            else match rest with
              | [] => false
              | c :: rest =>
                  if isTriple a b c then wellFormed rest
                  else match rest with
                    | [] => false
                    | d :: rest => isQuad a b c d && wellFormed rest

theorem wellFormed_nil : wellFormed [] = true := rfl

/-- Text: bytes that are well-formed UTF-8. -/
structure Text where
  bytes : List (BitVec 8)
  isWellFormed : wellFormed bytes = true
  deriving DecidableEq

/-- The text a byte sequence spells, if it spells one. -/
def fromUtf8 (bytes : List (BitVec 8)) : Option Text :=
  if h : wellFormed bytes = true then some ⟨bytes, h⟩ else none

theorem Text.ext_bytes {left right : Text} (h : left.bytes = right.bytes) : left = right := by
  cases left
  cases right
  cases h
  rfl

@[simp]
theorem fromUtf8_bytes (text : Text) : fromUtf8 text.bytes = some text := by
  rw [fromUtf8, dif_pos text.isWellFormed]

theorem fromUtf8_eq_some_iff {bytes : List (BitVec 8)} {text : Text} :
    fromUtf8 bytes = some text ↔ text.bytes = bytes := by
  constructor
  · intro h
    rw [fromUtf8] at h
    split at h
    · cases h
      rfl
    · cases h
  · rintro rfl
    exact fromUtf8_bytes text

end Utf8
