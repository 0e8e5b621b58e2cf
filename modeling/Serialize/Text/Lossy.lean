import Serialize.Text.Characters

/-!
# Lossy decoding

What is not a character is replaced: each stretch that begins one and breaks off, or a byte that
begins none, gives way to one replacement character. The result is always text.
-/

namespace Utf8

/-- `U+FFFD`. -/
def replacement : List (BitVec 8) := [0xEF, 0xBF, 0xBD]

/-- The first two bytes of a three byte character. -/
def startsTriple (a b : BitVec 8) : Bool :=
  (a == 0xE0 && inRange 0xA0 0xBF b) || (inRange 0xE1 0xEC a && isContinuation b)
    || (a == 0xED && inRange 0x80 0x9F b) || (inRange 0xEE 0xEF a && isContinuation b)

/-- The first two bytes of a four byte character. -/
def startsQuad (a b : BitVec 8) : Bool :=
  (a == 0xF0 && inRange 0x90 0xBF b) || (inRange 0xF1 0xF3 a && isContinuation b)
    || (a == 0xF4 && inRange 0x80 0x8F b)

/-- The bytes with each fault in them replaced. -/
def lossy : List (BitVec 8) → List (BitVec 8)
  | [] => []
  | [a] => if a ≤ 0x7F then [a] else replacement
  | a :: b :: rest =>
      if a ≤ 0x7F then a :: lossy (b :: rest)
      else if isPair a b then a :: b :: lossy rest
      else if startsTriple a b then match rest with
        | [] => replacement
        | c :: rest =>
            if isContinuation c then a :: b :: c :: lossy rest else replacement ++ lossy (c :: rest)
      else if startsQuad a b then match rest with
        | [] => replacement
        | [c] => if isContinuation c then replacement else replacement ++ lossy [c]
        | c :: d :: rest =>
            if isContinuation c then
              if isContinuation d then a :: b :: c :: d :: lossy rest
              else replacement ++ lossy (d :: rest)
            else replacement ++ lossy (c :: d :: rest)
      else replacement ++ lossy (b :: rest)

theorem isTriple_of_starts {a b c : BitVec 8} (h : startsTriple a b = true)
    (hc : isContinuation c = true) : isTripleWith belowSurrogates a b c = true := by
  rw [isTripleWith, hc, Bool.and_true]
  exact h

theorem isQuad_of_starts {a b c d : BitVec 8} (h : startsQuad a b = true)
    (hc : isContinuation c = true) (hd : isContinuation d = true) : isQuad a b c d = true := by
  rw [isQuad, hc, hd, Bool.and_true, Bool.and_true]
  exact h

theorem isCharacter_replacement (afterEd : BitVec 8 → Bool) :
    isCharacter afterEd replacement = true := by
  simp [replacement, isCharacter, isTripleWith]
  decide

theorem spells_replaced {rest : List (BitVec 8)} (h : Spells belowSurrogates rest) :
    Spells belowSurrogates (replacement ++ rest) :=
  .cons (isCharacter_replacement _) h

theorem spells_lossy (bytes : List (BitVec 8)) : Spells belowSurrogates (lossy bytes) := by
  fun_induction lossy bytes with
  | case1 => exact .nil
  | case2 a hascii => exact .character (isCharacter_singleton hascii)
  | case3 => exact .character (isCharacter_replacement _)
  | case4 a b rest hascii ih => exact .cons (isCharacter_singleton hascii) ih
  | case5 a b rest hascii hpair ih => exact @Spells.cons _ [a, b] _ hpair ih
  | case6 => exact .character (isCharacter_replacement _)
  | case7 a b hascii hpair hstarts c rest hc ih =>
      exact @Spells.cons _ [a, b, c] _ (isTriple_of_starts hstarts hc) ih
  | case8 _ _ _ _ _ _ _ _ ih => exact spells_replaced ih
  | case9 => exact .character (isCharacter_replacement _)
  | case10 => exact .character (isCharacter_replacement _)
  | case11 _ _ _ _ _ _ _ _ ih => exact spells_replaced ih
  | case12 a b hascii hpair htriple hstarts c d rest hc hd ih =>
      exact @Spells.cons _ [a, b, c, d] _ (isQuad_of_starts hstarts hc hd) ih
  | case13 _ _ _ _ _ _ _ _ _ _ _ ih => exact spells_replaced ih
  | case14 _ _ _ _ _ _ _ _ _ _ ih => exact spells_replaced ih
  | case15 _ _ _ _ _ _ _ ih => exact spells_replaced ih

/-- `String::from_utf8_lossy`. -/
def fromUtf8Lossy (bytes : List (BitVec 8)) : Text :=
  ⟨lossy bytes, wellFormed_iff.mpr (spells_lossy bytes)⟩

end Utf8
