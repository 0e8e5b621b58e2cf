import Serialize.Text.Characters

/-!
# Comparing tables

Two tables that differ in what may follow a lead `ED` accept the same bytes, except where an `ED` is
followed by a byte only one of them allows.
-/

namespace Utf8

/-- Somewhere an `ED` is followed by a byte with this property. -/
def followsEd (p : BitVec 8 → Bool) : List (BitVec 8) → Bool
  | a :: b :: rest => (a == 0xED && p b) || followsEd p (b :: rest)
  | _ => false

section FollowsEd

variable {p : BitVec 8 → Bool} {a b : BitVec 8} {rest : List (BitVec 8)}

theorem followsEd_cons_of_ne (h : a ≠ 0xED) : followsEd p (a :: rest) = followsEd p rest := by
  match rest with
  | [] => rfl
  | b :: rest => rw [followsEd, beq_false_of_ne h, Bool.false_and, Bool.false_or]

theorem followsEd_append_of_ne {left : List (BitVec 8)} (h : ∀ a ∈ left, a ≠ 0xED) :
    followsEd p (left ++ rest) = followsEd p rest := by
  induction left with
  | nil => rfl
  | cons a left ih =>
      obtain ⟨ha, hleft⟩ := List.forall_mem_cons.mp h
      rw [List.cons_append, followsEd_cons_of_ne ha, ih hleft]

theorem followsEd_ed_cons : followsEd p (0xED :: b :: rest) = (p b || followsEd p (b :: rest)) := by
  rw [followsEd, beq_self_eq_true, Bool.true_and]

theorem followsEd_of_append {left right : List (BitVec 8)}
    (h : followsEd p (left ++ right) = false) : followsEd p right = false := by
  induction left with
  | nil => exact h
  | cons a left ih =>
      apply ih
      match hcase : left ++ right, h with
      | [], _ => rfl
      | b :: rest, h =>
          rw [List.cons_append, hcase, followsEd, Bool.or_eq_false_iff] at h
          exact h.2

end FollowsEd

theorem ne_ed_of_lt {a : BitVec 8} (h : a.toNat < 0xED) : a ≠ 0xED := by
  rintro rfl
  exact absurd h (by decide)

theorem ne_ed_of_continuation {a : BitVec 8} (h : isContinuation a = true) : a ≠ 0xED :=
  ne_ed_of_lt (lt_of_le_of_lt (isContinuation_iff.mp h).2 (by decide))

/-- A character has no `ED` in it and is one in every table, or it is of the row that a table leaves
open. -/
theorem isCharacter_cases {afterEd : BitVec 8 → Bool} {character : List (BitVec 8)}
    (h : isCharacter afterEd character = true) :
    ((∀ a ∈ character, a ≠ 0xED) ∧ ∀ afterEd', isCharacter afterEd' character = true)
      ∨ ∃ b c, character = [0xED, b, c] ∧ afterEd b = true ∧ isContinuation c = true := by
  match character, h with
  | [a], h =>
      have ha : a.toNat ≤ 0x7F := of_decide_eq_true h
      have hlead : a ≠ 0xED := ne_ed_of_lt (lt_of_le_of_lt ha (by decide))
      refine .inl ⟨?_, fun _ => h⟩
      simp only [List.forall_mem_cons]
      exact ⟨hlead, List.forall_mem_nil _⟩
  | [a, b], h =>
      obtain ⟨ha, hb⟩ := lead_of_pair h
      refine .inl ⟨?_, fun _ => h⟩
      have hlead : a ≠ 0xED := ne_ed_of_lt (by omega)
      simp only [List.forall_mem_cons]
      exact ⟨hlead, ne_ed_of_continuation hb, List.forall_mem_nil _⟩
  | [a, b, c], h =>
      obtain ⟨-, hb, hc⟩ := lead_of_triple h
      by_cases ha : a = 0xED
      · subst ha
        rw [isCharacter, isTripleWith_ed, Bool.and_eq_true] at h
        exact .inr ⟨b, c, rfl, h.1, h.2⟩
      · have hcontinuation : isContinuation b = true := hb.resolve_right fun hed => ha hed.1
        refine .inl ⟨?_, fun afterEd' => (isTripleWith_of_ne afterEd' afterEd ha).trans h⟩
        simp only [List.forall_mem_cons]
        exact ⟨ha, ne_ed_of_continuation hcontinuation, ne_ed_of_continuation hc,
          List.forall_mem_nil _⟩
  | [a, b, c, d], h =>
      obtain ⟨ha, hb, hc, hd⟩ := lead_of_quad h
      refine .inl ⟨?_, fun _ => h⟩
      have hlead : a ≠ 0xED := by
        rintro rfl
        exact absurd ha (by decide)
      simp only [List.forall_mem_cons]
      exact ⟨hlead, ne_ed_of_continuation hb, ne_ed_of_continuation hc, ne_ed_of_continuation hd,
        List.forall_mem_nil _⟩

theorem isCharacter_ed {afterEd : BitVec 8 → Bool} {b c : BitVec 8} (hb : afterEd b = true)
    (hc : isContinuation c = true) : isCharacter afterEd [0xED, b, c] = true := by
  rw [isCharacter, isTripleWith_ed, hb, hc, Bool.and_true]

/-- What the stricter of two tables accepts: what the laxer one does, with nothing after an `ED` that
only the laxer one allows. -/
theorem wellFormedWith_strict_iff {strict lax : BitVec 8 → Bool} {bytes : List (BitVec 8)}
    (hle : ∀ b, strict b = true → lax b = true)
    (hcontinuation : ∀ b, strict b = true → isContinuation b = true) :
    wellFormedWith strict bytes = true ↔ wellFormedWith lax bytes = true
      ∧ followsEd (fun b => lax b && !strict b) bytes = false := by
  rw [wellFormedWith_iff, wellFormedWith_iff]
  constructor
  · intro h
    induction h with
    | nil => exact ⟨.nil, rfl⟩
    | cons hcharacter _ ih =>
        obtain ⟨hne, hevery⟩ | ⟨b, c, rfl, hb, hc⟩ := isCharacter_cases hcharacter
        · refine ⟨.cons (hevery lax) ih.1, ?_⟩
          rw [followsEd_append_of_ne hne, ih.2]
        · refine ⟨.cons (isCharacter_ed (hle b hb) hc) ih.1, ?_⟩
          rw [List.cons_append, List.cons_append, followsEd_ed_cons, hb, Bool.not_true,
            Bool.and_false, Bool.false_or,
            followsEd_cons_of_ne (ne_ed_of_continuation (hcontinuation b hb)), List.cons_append,
            followsEd_cons_of_ne (ne_ed_of_continuation hc), List.nil_append, ih.2]
  · rintro ⟨h, hfollows⟩
    induction h with
    | nil => exact .nil
    | cons hcharacter _ ih =>
        have hrest := ih (followsEd_of_append hfollows)
        obtain ⟨-, hevery⟩ | ⟨b, c, rfl, hb, hc⟩ := isCharacter_cases hcharacter
        · exact .cons (hevery strict) hrest
        · rw [List.cons_append, List.cons_append, followsEd_ed_cons, hb, Bool.true_and,
            Bool.or_eq_false_iff, Bool.not_eq_false'] at hfollows
          exact .cons (isCharacter_ed hfollows.1 hc) hrest

end Utf8
