import Serialize.Text.Characters
import Mathlib.Data.List.TakeWhile

/-!
# Character boundaries

A boundary of a text is a place that splits it into two texts. The test of one byte finds exactly
those places: a character has continuation bytes everywhere but at its start.
-/

namespace Utf8

/-- `str::is_char_boundary`. -/
def isCharBoundary (bytes : List (BitVec 8)) (index : Nat) : Bool :=
  if index = 0 then true
  else match bytes[index]? with
    | some byte => !isContinuation byte
    | none => index == bytes.length

namespace Text

def empty : Text := ⟨[], wellFormed_nil⟩

theorem spells (text : Text) : Spells belowSurrogates text.bytes := wellFormed_iff.mp text.isWellFormed

def append (first second : Text) : Text where
  bytes := first.bytes ++ second.bytes
  isWellFormed := wellFormed_iff.mpr (first.spells.append second.spells)

theorem empty_append (text : Text) : empty.append text = text := rfl

/-- The text splits here, into what is before and what is behind. -/
def Boundary (text : Text) (index : Nat) : Prop :=
  ∃ before behind : Text, before.append behind = text ∧ before.bytes.length = index

end Text

/-! ### Where a character starts -/

theorem belowSurrogates_continuation {b : BitVec 8} (h : belowSurrogates b = true) :
    isContinuation b = true := by
  have hrange := inRange_iff.mp h
  exact isContinuation_iff.mpr ⟨hrange.1, hrange.2.trans (by decide)⟩

theorem not_continuation_of_lt {b : BitVec 8} (h : b.toNat < 0x80) : isContinuation b = false := by
  rw [← Bool.not_eq_true, isContinuation_iff]
  omega

theorem not_continuation_of_le {b : BitVec 8} (h : 0xC0 ≤ b.toNat) : isContinuation b = false := by
  rw [← Bool.not_eq_true, isContinuation_iff]
  omega

/-- A character starts with its only byte that is no continuation. -/
theorem isCharacter_lead {character : List (BitVec 8)}
    (h : isCharacter belowSurrogates character = true) : ∃ lead tail, character = lead :: tail
      ∧ isContinuation lead = false ∧ ∀ b ∈ tail, isContinuation b = true := by
  match character, h with
  | [a], h =>
      have ha : a.toNat ≤ 0x7F := of_decide_eq_true h
      exact ⟨a, [], rfl, not_continuation_of_lt (by omega), List.forall_mem_nil _⟩
  | [a, b], h =>
      obtain ⟨ha, hb⟩ := lead_of_pair h
      refine ⟨a, [b], rfl, not_continuation_of_le (by omega), ?_⟩
      simp only [List.forall_mem_cons]
      exact ⟨hb, List.forall_mem_nil _⟩
  | [a, b, c], h =>
      obtain ⟨ha, hb, hc⟩ := lead_of_triple h
      have hcontinuation : isContinuation b = true := by
        rcases hb with hb | ⟨-, hb⟩
        · exact hb
        · exact belowSurrogates_continuation hb
      refine ⟨a, [b, c], rfl, not_continuation_of_le (by omega), ?_⟩
      simp only [List.forall_mem_cons]
      exact ⟨hcontinuation, hc, List.forall_mem_nil _⟩
  | [a, b, c, d], h =>
      obtain ⟨ha, hb, hc, hd⟩ := lead_of_quad h
      refine ⟨a, [b, c, d], rfl, not_continuation_of_le (by omega), ?_⟩
      simp only [List.forall_mem_cons]
      exact ⟨hb, hc, hd, List.forall_mem_nil _⟩

/-! ### Boundaries -/

variable {bytes : List (BitVec 8)} {index : Nat}

@[simp]
theorem isCharBoundary_zero (bytes : List (BitVec 8)) : isCharBoundary bytes 0 = true := rfl

@[simp]
theorem isCharBoundary_length (bytes : List (BitVec 8)) :
    isCharBoundary bytes bytes.length = true := by
  unfold isCharBoundary
  rw [List.getElem?_eq_none (le_refl _)]
  split
  · rfl
  · exact beq_self_eq_true _

theorem isCharBoundary_of_lt (hpos : 0 < index) (h : index < bytes.length) :
    isCharBoundary bytes index = !isContinuation bytes[index] := by
  unfold isCharBoundary
  rw [if_neg (Nat.ne_of_gt hpos), List.getElem?_eq_getElem h]

theorem le_length_of_isCharBoundary (h : isCharBoundary bytes index = true) :
    index ≤ bytes.length := by
  by_contra hlt
  unfold isCharBoundary at h
  rw [if_neg (by omega), List.getElem?_eq_none (by omega), beq_iff_eq] at h
  omega

theorem isCharBoundary_of_append {left right : List (BitVec 8)} (hindex : left.length ≤ index)
    (h : isCharBoundary (left ++ right) index = true) :
    isCharBoundary right (index - left.length) = true := by
  unfold isCharBoundary at h ⊢
  by_cases hstart : index - left.length = 0
  · rw [if_pos hstart]
  · rw [if_neg hstart]
    rw [if_neg (by omega), List.getElem?_append_right hindex, List.length_append] at h
    rcases hbyte : right[index - left.length]? with - | byte
    · rw [hbyte] at h
      have hend : index = left.length + right.length := beq_iff_eq.mp h
      exact beq_iff_eq.mpr (by omega)
    · rw [hbyte] at h
      exact h

/-- Bytes put behind others start at a boundary when they start with no continuation. -/
theorem isCharBoundary_append {left right : List (BitVec 8)}
    (h : ∀ first rest, right = first :: rest → isContinuation first = false) :
    isCharBoundary (left ++ right) left.length = true := by
  match right, h with
  | [], _ =>
      rw [List.append_nil]
      exact isCharBoundary_length left
  | first :: rest, h =>
      unfold isCharBoundary
      split
      · rfl
      · rw [List.getElem?_append_right (le_refl _), Nat.sub_self, List.getElem?_cons_zero]
        exact congrArg not (h first rest rfl)

/-- Characters split at a boundary into characters. -/
theorem spells_of_boundary (hspells : Spells belowSurrogates bytes)
    (h : isCharBoundary bytes index = true) :
    Spells belowSurrogates (bytes.take index) ∧ Spells belowSurrogates (bytes.drop index) := by
  induction hspells generalizing index with
  | nil =>
      rw [List.take_nil, List.drop_nil]
      exact ⟨.nil, .nil⟩
  | @cons character rest hcharacter hrest ih =>
      obtain ⟨lead, tail, rfl, hlead, htail⟩ := isCharacter_lead hcharacter
      rcases Nat.lt_or_ge index (lead :: tail).length with hinside | hindex
      · rcases Nat.eq_zero_or_pos index with rfl | hpos
        · exact ⟨.nil, .cons hcharacter hrest⟩
        · -- past its start a character holds continuation bytes only
          obtain ⟨i, rfl⟩ := Nat.exists_eq_succ_of_ne_zero (Nat.ne_of_gt hpos)
          have hi : i < tail.length := Nat.lt_of_succ_lt_succ hinside
          unfold isCharBoundary at h
          rw [if_neg (Nat.succ_ne_zero i), List.cons_append, List.getElem?_cons_succ,
            List.getElem?_append_left hi, List.getElem?_eq_getElem hi] at h
          have hcontinuation := htail _ (List.getElem_mem hi)
          simp only [hcontinuation, Bool.not_true, Bool.false_eq_true] at h
      · obtain ⟨hbefore, hbehind⟩ := ih (isCharBoundary_of_append hindex h)
        rw [List.take_append, List.drop_append, List.take_of_length_le hindex,
          List.drop_of_length_le hindex, List.nil_append]
        exact ⟨.cons hcharacter hbefore, hbehind⟩

theorem isContinuation_head {first : BitVec 8} {rest : List (BitVec 8)}
    (h : Spells belowSurrogates (first :: rest)) : isContinuation first = false := by
  generalize hbytes : first :: rest = bytes at h
  cases h with
  | nil => cases hbytes
  | cons hcharacter _ =>
      obtain ⟨lead, tail, rfl, hlead, -⟩ := isCharacter_lead hcharacter
      rw [List.cons_append] at hbytes
      rw [(List.cons.inj hbytes).1]
      exact hlead

/-- **The test of one byte finds the boundaries.** -/
theorem isCharBoundary_iff (text : Text) (index : Nat) :
    isCharBoundary text.bytes index = true ↔ text.Boundary index := by
  constructor
  · intro h
    obtain ⟨hbefore, hbehind⟩ := spells_of_boundary text.spells h
    refine ⟨⟨_, wellFormed_iff.mpr hbefore⟩, ⟨_, wellFormed_iff.mpr hbehind⟩, ?_, ?_⟩
    · exact Text.ext_bytes (List.take_append_drop index text.bytes)
    · exact List.length_take_of_le (le_length_of_isCharBoundary h)
  · rintro ⟨before, behind, rfl, rfl⟩
    refine isCharBoundary_append fun first rest hbehind => ?_
    exact isContinuation_head (hbehind ▸ behind.spells)

/-! ### Slices of a text -/

namespace Text

/-- `&text[..stop]`, for a stop that is a boundary. -/
def upTo (text : Text) (stop : Nat) (h : isCharBoundary text.bytes stop = true) : Text where
  bytes := text.bytes.take stop
  isWellFormed := wellFormed_iff.mpr (spells_of_boundary text.spells h).1

theorem spells_takeWhile {p : BitVec 8 → Bool} (hp : ∀ b, p b = false → isContinuation b = false)
    (text : Text) : Spells belowSurrogates (text.bytes.takeWhile p) := by
  have hboundary : isCharBoundary (text.bytes.takeWhile p ++ text.bytes.dropWhile p)
      (text.bytes.takeWhile p).length = true := by
    refine isCharBoundary_append fun first rest hrest => hp first ?_
    have hhead := List.head?_dropWhile_not p text.bytes
    rwa [hrest, List.head?_cons] at hhead
  rw [List.takeWhile_append_dropWhile] at hboundary
  have hbefore := (spells_of_boundary text.spells hboundary).1
  rwa [← List.prefix_iff_eq_take.mp (List.takeWhile_prefix p)] at hbefore

/-- The first piece of `text.split('\0')`: the bytes before the first NUL. -/
def beforeNul (text : Text) : Text where
  bytes := text.bytes.takeWhile (· ≠ 0)
  isWellFormed := wellFormed_iff.mpr (spells_takeWhile (fun b hb => by
    rw [of_not_not (of_decide_eq_false hb)]
    rfl) text)

theorem zero_notMem_beforeNul (text : Text) : 0 ∉ text.beforeNul.bytes := by
  intro hmem
  have hne := List.mem_takeWhile_imp hmem
  exact absurd rfl (of_decide_eq_true hne)

end Text

end Utf8
