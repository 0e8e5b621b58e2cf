import Serialize.Text.Utf8
import Mathlib.Data.List.Basic

/-!
# Characters

Well-formed text is one character after another. The table of characters is taken with the bytes
that may follow a lead `ED` left open: the rule against encoded surrogates is the one row they
decide, and a relaxed table differs from the real one there and nowhere else.
-/

namespace Utf8

/-- The rows of three byte sequences, where `afterEd` says what may follow a lead `ED`. -/
def isTripleWith (afterEd : BitVec 8 → Bool) (a b c : BitVec 8) : Bool :=
  ((a == 0xE0 && inRange 0xA0 0xBF b)
    || (inRange 0xE1 0xEC a && isContinuation b)
    || (a == 0xED && afterEd b)
    || (inRange 0xEE 0xEF a && isContinuation b)) && isContinuation c

/-- One character. -/
def isCharacter (afterEd : BitVec 8 → Bool) : List (BitVec 8) → Bool
  | [a] => decide (a ≤ 0x7F)
  | [a, b] => isPair a b
  | [a, b, c] => isTripleWith afterEd a b c
  | [a, b, c, d] => isQuad a b c d
  | _ => false

/-- Characters, one after another. -/
inductive Spells (afterEd : BitVec 8 → Bool) : List (BitVec 8) → Prop where
  | nil : Spells afterEd []
  | cons {character rest : List (BitVec 8)} : isCharacter afterEd character = true →
      Spells afterEd rest → Spells afterEd (character ++ rest)

/-- The whole sequence is well formed under the table with `afterEd`. -/
def wellFormedWith (afterEd : BitVec 8 → Bool) : List (BitVec 8) → Bool
  | [] => true
  | a :: rest =>
      if a ≤ 0x7F then wellFormedWith afterEd rest
      else match rest with
        | [] => false
        | b :: rest =>
            if isPair a b then wellFormedWith afterEd rest
            else match rest with
              | [] => false
              | c :: rest =>
                  if isTripleWith afterEd a b c then wellFormedWith afterEd rest
                  else match rest with
                    | [] => false
                    | d :: rest => isQuad a b c d && wellFormedWith afterEd rest

/-- What may follow a lead `ED` in well-formed text. -/
def belowSurrogates (b : BitVec 8) : Bool := inRange 0x80 0x9F b

/-! ### Leads -/

section Leads

variable {afterEd : BitVec 8 → Bool} {a b c d : BitVec 8}

theorem inRange_iff {low high byte : BitVec 8} :
    inRange low high byte = true ↔ low.toNat ≤ byte.toNat ∧ byte.toNat ≤ high.toNat := by
  rw [inRange, Bool.and_eq_true, decide_eq_true_iff, decide_eq_true_iff, BitVec.le_def,
    BitVec.le_def]

theorem isContinuation_iff : isContinuation b = true ↔ 0x80 ≤ b.toNat ∧ b.toNat ≤ 0xBF := inRange_iff

theorem lead_of_pair (h : isPair a b = true) :
    (0xC2 ≤ a.toNat ∧ a.toNat ≤ 0xDF) ∧ isContinuation b = true := by
  rw [isPair, Bool.and_eq_true, inRange_iff] at h
  exact h

theorem lead_of_triple (h : isTripleWith afterEd a b c = true) :
    (0xE0 ≤ a.toNat ∧ a.toNat ≤ 0xEF) ∧ (isContinuation b = true ∨ a = 0xED ∧ afterEd b = true)
      ∧ isContinuation c = true := by
  simp only [isTripleWith, Bool.and_eq_true, Bool.or_eq_true, beq_iff_eq, inRange_iff] at h
  obtain ⟨((⟨rfl, hb⟩ | ⟨ha, hb⟩) | ⟨rfl, hb⟩) | ⟨ha, hb⟩, hc⟩ := h
  · refine ⟨by decide, .inl ?_, hc⟩
    rw [isContinuation_iff]
    exact ⟨le_trans (by decide) hb.1, hb.2⟩
  · exact ⟨⟨le_trans (by decide) ha.1, ha.2.trans (by decide)⟩, .inl hb, hc⟩
  · exact ⟨by decide, .inr ⟨rfl, hb⟩, hc⟩
  · exact ⟨⟨le_trans (by decide) ha.1, ha.2⟩, .inl hb, hc⟩

theorem lead_of_quad (h : isQuad a b c d = true) : (0xF0 ≤ a.toNat ∧ a.toNat ≤ 0xF4)
    ∧ isContinuation b = true ∧ isContinuation c = true ∧ isContinuation d = true := by
  simp only [isQuad, Bool.and_eq_true, Bool.or_eq_true, beq_iff_eq, inRange_iff] at h
  obtain ⟨⟨(⟨rfl, hb⟩ | ⟨ha, hb⟩) | ⟨rfl, hb⟩, hc⟩, hd⟩ := h
  · refine ⟨by decide, ?_, hc, hd⟩
    rw [isContinuation_iff]
    exact ⟨le_trans (by decide) hb.1, hb.2⟩
  · exact ⟨⟨le_trans (by decide) ha.1, ha.2.trans (by decide)⟩, hb, hc, hd⟩
  · refine ⟨by decide, ?_, hc, hd⟩
    rw [isContinuation_iff]
    exact ⟨hb.1, hb.2.trans (by decide)⟩

theorem not_ascii_of_le {n : Nat} (hn : 0x80 ≤ n) (h : n ≤ a.toNat) : ¬a ≤ 0x7F := by
  rw [BitVec.le_def]
  have hascii : (0x7F : BitVec 8).toNat = 0x7F := rfl
  omega

theorem isTripleWith_ed (afterEd : BitVec 8 → Bool) (b c : BitVec 8) :
    isTripleWith afterEd 0xED b c = (afterEd b && isContinuation c) := by
  have hfirst : ((0xED : BitVec 8) == 0xE0) = false := by decide
  have hsecond : inRange 0xE1 0xEC (0xED : BitVec 8) = false := by decide
  have hfourth : inRange 0xEE 0xEF (0xED : BitVec 8) = false := by decide
  rw [isTripleWith, hfirst, hsecond, hfourth, beq_self_eq_true]
  simp only [Bool.false_and, Bool.true_and, Bool.false_or, Bool.or_false]

theorem isTripleWith_of_ne (afterEd afterEd' : BitVec 8 → Bool) (h : a ≠ 0xED) :
    isTripleWith afterEd a b c = isTripleWith afterEd' a b c := by
  rw [isTripleWith, isTripleWith, beq_false_of_ne h, Bool.false_and, Bool.false_and]

theorem isCharacter_singleton (h : a ≤ 0x7F) : isCharacter afterEd [a] = true := decide_eq_true h

end Leads

/-! ### Well-formed text is characters -/

variable {afterEd : BitVec 8 → Bool} {bytes : List (BitVec 8)}

theorem Spells.append {left right : List (BitVec 8)} (hleft : Spells afterEd left)
    (hright : Spells afterEd right) : Spells afterEd (left ++ right) := by
  induction hleft with
  | nil => exact hright
  | cons hcharacter _ ih =>
      rw [List.append_assoc]
      exact .cons hcharacter ih

theorem Spells.character {character : List (BitVec 8)} (h : isCharacter afterEd character = true) :
    Spells afterEd character := by
  have hspells := Spells.cons h .nil
  rwa [List.append_nil] at hspells

theorem spells_of_wellFormedWith (h : wellFormedWith afterEd bytes = true) :
    Spells afterEd bytes := by
  fun_induction wellFormedWith afterEd bytes with
  | case1 => exact .nil
  | case2 a rest hascii ih => exact .cons (isCharacter_singleton hascii) (ih h)
  | case3 => cases h
  | case4 a hascii b rest hpair ih => exact @Spells.cons _ [a, b] _ hpair (ih h)
  | case5 => cases h
  | case6 a hascii b hpair c rest htriple ih =>
      exact @Spells.cons _ [a, b, c] _ htriple (ih h)
  | case7 => cases h
  | case8 a hascii b hpair c htriple d rest ih =>
      rw [Bool.and_eq_true] at h
      exact @Spells.cons _ [a, b, c, d] _ h.1 (ih h.2)

theorem wellFormedWith_cons (afterEd : BitVec 8 → Bool) (a : BitVec 8) (rest : List (BitVec 8)) :
    wellFormedWith afterEd (a :: rest) = if a ≤ 0x7F then wellFormedWith afterEd rest
      else match rest with
        | [] => false
        | b :: rest =>
            if isPair a b then wellFormedWith afterEd rest
            else match rest with
              | [] => false
              | c :: rest =>
                  if isTripleWith afterEd a b c then wellFormedWith afterEd rest
                  else match rest with
                    | [] => false
                    | d :: rest => isQuad a b c d && wellFormedWith afterEd rest := by
  rw [wellFormedWith.eq_def]

theorem wellFormedWith_append {character : List (BitVec 8)}
    (h : isCharacter afterEd character = true) (rest : List (BitVec 8)) :
    wellFormedWith afterEd (character ++ rest) = wellFormedWith afterEd rest := by
  match character, h with
  | [a], h => rw [List.singleton_append, wellFormedWith_cons, if_pos (of_decide_eq_true h)]
  | [a, b], h =>
      obtain ⟨ha, -⟩ := lead_of_pair h
      rw [List.cons_append, wellFormedWith_cons, if_neg (not_ascii_of_le (by decide) ha.1)]
      exact if_pos h
  | [a, b, c], h =>
      obtain ⟨ha, -⟩ := lead_of_triple h
      have hpair : ¬isPair a b = true := fun hpair => by
        have hlead := (lead_of_pair hpair).1
        omega
      rw [List.cons_append, wellFormedWith_cons, if_neg (not_ascii_of_le (by decide) ha.1)]
      exact (if_neg hpair).trans (if_pos h)
  | [a, b, c, d], h =>
      obtain ⟨ha, -⟩ := lead_of_quad h
      have hpair : ¬isPair a b = true := fun hpair => by
        have hlead := (lead_of_pair hpair).1
        omega
      have htriple : ¬isTripleWith afterEd a b c = true := fun htriple => by
        have hlead := (lead_of_triple htriple).1
        omega
      have hquad : isQuad a b c d = true := h
      rw [List.cons_append, wellFormedWith_cons, if_neg (not_ascii_of_le (by decide) ha.1)]
      refine (if_neg hpair).trans ((if_neg htriple).trans ?_)
      show (isQuad a b c d && wellFormedWith afterEd rest) = _
      rw [hquad, Bool.true_and]

theorem wellFormedWith_iff : wellFormedWith afterEd bytes = true ↔ Spells afterEd bytes := by
  constructor
  · exact spells_of_wellFormedWith
  · intro h
    induction h with
    | nil => rfl
    | cons hcharacter _ ih =>
        rw [wellFormedWith_append hcharacter]
        exact ih

theorem wellFormed_cons (a : BitVec 8) (rest : List (BitVec 8)) :
    wellFormed (a :: rest) = if a ≤ 0x7F then wellFormed rest
      else match rest with
        | [] => false
        | b :: rest =>
            if isPair a b then wellFormed rest
            else match rest with
              | [] => false
              | c :: rest =>
                  if isTripleWith belowSurrogates a b c then wellFormed rest
                  else match rest with
                    | [] => false
                    | d :: rest => isQuad a b c d && wellFormed rest := by
  rw [wellFormed.eq_def]
  rfl

theorem wellFormed_eq (bytes : List (BitVec 8)) :
    wellFormed bytes = wellFormedWith belowSurrogates bytes := by
  fun_induction wellFormedWith belowSurrogates bytes with
  | case1 => rfl
  | case2 a rest hascii ih => rw [wellFormed_cons, if_pos hascii, ih]
  | case3 a hascii => rw [wellFormed_cons, if_neg hascii]
  | case4 a hascii b rest hpair ih =>
      rw [wellFormed_cons, if_neg hascii]
      exact (if_pos hpair).trans ih
  | case5 a hascii b hpair =>
      rw [wellFormed_cons, if_neg hascii]
      exact if_neg hpair
  | case6 a hascii b hpair c rest htriple ih =>
      rw [wellFormed_cons, if_neg hascii]
      exact (if_neg hpair).trans ((if_pos htriple).trans ih)
  | case7 a hascii b hpair c htriple =>
      rw [wellFormed_cons, if_neg hascii]
      exact (if_neg hpair).trans (if_neg htriple)
  | case8 a hascii b hpair c htriple d rest ih =>
      rw [wellFormed_cons, if_neg hascii]
      refine (if_neg hpair).trans ((if_neg htriple).trans ?_)
      show (isQuad a b c d && wellFormed rest) = _
      rw [ih]

theorem wellFormed_iff : wellFormed bytes = true ↔ Spells belowSurrogates bytes := by
  rw [wellFormed_eq, wellFormedWith_iff]

end Utf8
