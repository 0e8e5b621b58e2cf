import Serialize.Model.Control
import Serialize.Text.Tables

/-!
# The surrogate control

Rewriting the payload and checking it again is the same as checking it against a table where a lead
`ED` may be followed by any byte from `80` on. Encoded surrogates are what `A0..BF` adds; the bytes
from `C0` on are added with them, and none of those may follow a lead.
-/

namespace Serialize

open Utf8

/-! ### The loop, byte by byte -/

section Patching

variable {a b : U8} {rest : List U8}

/-- The byte that ends up after `a`. -/
def patchedAfter (a b : U8) : U8 := if a = 0xED ∧ 0xA0 ≤ b then 0x9F else b

theorem patchAt_zero : patchAt (a :: b :: rest) 0 = a :: patchedAfter a b :: rest := by
  rw [patchAt, patchedAfter, List.getD_cons_zero, List.getD_cons_succ, List.getD_cons_zero,
    List.set_cons_succ, List.set_cons_zero]
  split <;> rfl

theorem patchAt_succ (index : Nat) : patchAt (a :: rest) (index + 1) = a :: patchAt rest index := by
  rw [patchAt, patchAt, List.getD_cons_succ, List.getD_cons_succ, List.set_cons_succ]
  split <;> rfl

theorem foldl_patchAt_succ (steps : List Nat) : ∀ rest : List U8,
    (steps.map Nat.succ).foldl patchAt (a :: rest) = a :: steps.foldl patchAt rest := by
  induction steps with
  | nil => exact fun _ => rfl
  | cons index steps ih =>
      intro rest
      rw [List.map_cons, List.foldl_cons, List.foldl_cons, Nat.succ_eq_add_one, patchAt_succ, ih]

@[simp]
theorem patchSurrogates_nil : patchSurrogates [] = [] := rfl

theorem patchSurrogates_cons_cons :
    patchSurrogates (a :: b :: rest) = a :: patchSurrogates (patchedAfter a b :: rest) := by
  rw [patchSurrogates, patchSurrogates, List.length_cons, List.length_cons, List.length_cons,
    Nat.add_sub_cancel, Nat.add_sub_cancel, List.range_succ_eq_map, List.foldl_cons, patchAt_zero,
    foldl_patchAt_succ]

theorem patchSurrogates_cons_of_ne (h : a ≠ 0xED) :
    patchSurrogates (a :: rest) = a :: patchSurrogates rest := by
  match rest with
  | [] => rfl
  | b :: rest => rw [patchSurrogates_cons_cons, patchedAfter, if_neg (mt And.left h)]

theorem patchSurrogates_append_of_ne {left : List U8} (h : ∀ a ∈ left, a ≠ 0xED) :
    patchSurrogates (left ++ rest) = left ++ patchSurrogates rest := by
  induction left with
  | nil => rfl
  | cons a left ih =>
      obtain ⟨ha, hleft⟩ := List.forall_mem_cons.mp h
      rw [List.cons_append, patchSurrogates_cons_of_ne ha, ih hleft, List.cons_append]

theorem patchedAfter_ne (b : U8) : patchedAfter 0xED b ≠ 0xED := by
  rw [patchedAfter]
  split
  · decide
  · rintro rfl
    contradiction

theorem patchSurrogates_ed_cons : patchSurrogates (0xED :: b :: rest)
    = 0xED :: patchedAfter 0xED b :: patchSurrogates rest := by
  rw [patchSurrogates_cons_cons, patchSurrogates_cons_of_ne (patchedAfter_ne b)]

/-! The bytes a patched payload came from. -/

theorem eq_append_of_patchSurrogates {left patched : List U8} (h : ∀ a ∈ left, a ≠ 0xED) :
    ∀ {bytes : List U8}, patchSurrogates bytes = left ++ patched →
      ∃ rest, bytes = left ++ rest ∧ patchSurrogates rest = patched := by
  induction left with
  | nil => exact fun {bytes} hpatched => ⟨bytes, rfl, hpatched⟩
  | cons a left ih =>
      intro bytes hpatched
      obtain ⟨ha, hleft⟩ := List.forall_mem_cons.mp h
      match bytes, hpatched with
      | [b], hpatched =>
          obtain ⟨rfl, htail⟩ := List.cons.inj hpatched
          obtain ⟨rest, hrest, hend⟩ := ih hleft (patchSurrogates_nil.trans htail)
          exact ⟨rest, by rw [List.cons_append, ← hrest], hend⟩
      | b :: c :: rest, hpatched =>
          have hhead := hpatched
          rw [patchSurrogates_cons_cons, List.cons_append] at hhead
          obtain ⟨rfl, -⟩ := List.cons.inj hhead
          rw [patchSurrogates_cons_of_ne ha] at hpatched
          obtain ⟨rest', hrest, hend⟩ := ih hleft (List.cons.inj hpatched).2
          exact ⟨rest', by rw [List.cons_append, ← hrest], hend⟩

theorem eq_ed_cons_of_patchSurrogates {bytes patched : List U8}
    (h : patchSurrogates bytes = 0xED :: b :: patched) : ∃ c rest,
      bytes = 0xED :: c :: rest ∧ patchedAfter 0xED c = b ∧ patchSurrogates rest = patched := by
  match bytes, h with
  | [_], h => cases (List.cons.inj h).2
  | a :: c :: rest, h =>
      have hhead := h
      rw [patchSurrogates_cons_cons] at hhead
      obtain ⟨rfl, -⟩ := List.cons.inj hhead
      rw [patchSurrogates_ed_cons] at h
      obtain ⟨hb, hrest⟩ := List.cons.inj (List.cons.inj h).2
      exact ⟨c, rest, rfl, hb, hrest⟩

end Patching

/-! ### Patching is relaxing -/

/-- What may follow a lead `ED` before the payload is rewritten. -/
def fromContinuation (b : U8) : Bool := decide (0x80 ≤ b)

theorem belowSurrogates_patchedAfter (b : U8) :
    belowSurrogates (patchedAfter 0xED b) = fromContinuation b := by
  rw [Bool.eq_iff_iff, belowSurrogates, inRange_iff, fromContinuation, decide_eq_true_iff,
    BitVec.le_def, patchedAfter]
  have h80 : (0x80 : U8).toNat = 0x80 := rfl
  have h9F : (0x9F : U8).toNat = 0x9F := rfl
  have hA0 : (0xA0 : U8).toNat = 0xA0 := rfl
  split
  · next h =>
      have hle : (0xA0 : U8).toNat ≤ b.toNat := h.2
      omega
  · next h =>
      have hlt : ¬(0xA0 : U8).toNat ≤ b.toNat := fun hle => h ⟨rfl, hle⟩
      omega

theorem spells_patchSurrogates {bytes : List U8} (h : Spells fromContinuation bytes) :
    Spells belowSurrogates (patchSurrogates bytes) := by
  induction h with
  | nil => exact .nil
  | cons hcharacter _ ih =>
      obtain ⟨hne, hevery⟩ | ⟨b, c, rfl, hb, hc⟩ := isCharacter_cases hcharacter
      · rw [patchSurrogates_append_of_ne hne]
        exact .cons (hevery _) ih
      · rw [List.cons_append, List.cons_append, patchSurrogates_ed_cons, List.cons_append,
          patchSurrogates_cons_of_ne (ne_ed_of_continuation hc)]
        exact .cons (isCharacter_ed ((belowSurrogates_patchedAfter b).trans hb) hc) ih

theorem spells_of_patchSurrogates {patched : List U8} (h : Spells belowSurrogates patched) :
    ∀ {bytes : List U8}, patchSurrogates bytes = patched → Spells fromContinuation bytes := by
  induction h with
  | nil =>
      intro bytes hpatched
      match bytes, hpatched with
      | [], _ => exact .nil
      | a :: b :: rest, hpatched => cases patchSurrogates_cons_cons.symm.trans hpatched
  | cons hcharacter _ ih =>
      intro bytes hpatched
      obtain ⟨hne, hevery⟩ | ⟨b, c, rfl, hb, hc⟩ := isCharacter_cases hcharacter
      · obtain ⟨rest, rfl, hrest⟩ := eq_append_of_patchSurrogates hne hpatched
        exact .cons (hevery _) (ih hrest)
      · obtain ⟨b', rest, rfl, rfl, hrest⟩ := eq_ed_cons_of_patchSurrogates hpatched
        have hcne : ∀ a ∈ [c], a ≠ 0xED := by simpa using ne_ed_of_continuation hc
        obtain ⟨rest, rfl, hend⟩ := eq_append_of_patchSurrogates hcne hrest
        exact .cons (isCharacter_ed ((belowSurrogates_patchedAfter b').symm.trans hb) hc) (ih hend)

/-- A rewritten payload is text when the payload is text under the relaxed table. -/
theorem wellFormed_patchSurrogates (bytes : List U8) :
    wellFormed (patchSurrogates bytes) = wellFormedWith fromContinuation bytes := by
  rw [Bool.eq_iff_iff, wellFormed_iff, wellFormedWith_iff]
  constructor
  · exact fun h => spells_of_patchSurrogates h rfl
  · exact spells_patchSurrogates

/-! ### What the control lets through -/

/-- Table 3-7 without its clause against surrogates: what may follow a lead `ED` is `80..9F` or
`A0..BF`. -/
def surrogatesToo (b : U8) : Bool := inRange 0x80 0x9F b || inRange 0xA0 0xBF b

/-- A byte that never follows a lead, though the control takes it after an `ED`. -/
def fromLead (b : U8) : Bool := decide (0xC0 ≤ b)

theorem surrogatesToo_eq (b : U8) : surrogatesToo b = isContinuation b := by
  rw [Bool.eq_iff_iff, surrogatesToo, Bool.or_eq_true, inRange_iff, inRange_iff, isContinuation_iff]
  have h80 : (0x80 : U8).toNat = 0x80 := rfl
  have h9F : (0x9F : U8).toNat = 0x9F := rfl
  have hA0 : (0xA0 : U8).toNat = 0xA0 := rfl
  have hBF : (0xBF : U8).toNat = 0xBF := rfl
  omega

theorem fromLead_eq (b : U8) : fromLead b = (fromContinuation b && !surrogatesToo b) := by
  rw [surrogatesToo_eq, Bool.eq_iff_iff, Bool.and_eq_true, Bool.not_eq_true',
    ← Bool.not_eq_true, isContinuation_iff, fromLead, fromContinuation, decide_eq_true_iff,
    decide_eq_true_iff, BitVec.le_def, BitVec.le_def]
  have h80 : (0x80 : U8).toNat = 0x80 := rfl
  have hC0 : (0xC0 : U8).toNat = 0xC0 := rfl
  omega

theorem isSome_surrogateControl (bytes : List U8) :
    (utf8RuleDeleted (some .stringUtf8Surrogate) bytes).isSome
      = wellFormedWith fromContinuation bytes := by
  rw [← wellFormed_patchSurrogates]
  show (fromUtf8 (patchSurrogates bytes)).isSome = _
  rw [fromUtf8]
  split
  · next h => rw [h, Option.isSome_some]
  · next h => rw [Bool.not_eq_true] at h; rw [h, Option.isSome_none]

theorem surrogatesToo_iff (bytes : List U8) : wellFormedWith surrogatesToo bytes = true
    ↔ wellFormedWith fromContinuation bytes = true ∧ followsEd fromLead bytes = false := by
  have hcontinuation : ∀ b, surrogatesToo b = true → isContinuation b = true := by
    intro b hb
    rwa [← surrogatesToo_eq]
  have hle : ∀ b, surrogatesToo b = true → fromContinuation b = true := by
    intro b hb
    exact decide_eq_true (isContinuation_iff.mp (hcontinuation b hb)).1
  rw [wellFormedWith_strict_iff hle hcontinuation, funext fromLead_eq]

/-- Of all payloads the control takes those whose encoded surrogates, if any, are their only fault,
and no others, except where an `ED` is followed by `C0` or more in a payload that is otherwise as the
rewriting wants it. -/
theorem surrogate_control_exact_iff (bytes : List U8) :
    ((utf8RuleDeleted (some .stringUtf8Surrogate) bytes).isSome = true
        ↔ wellFormedWith surrogatesToo bytes = true)
      ↔ ¬(wellFormedWith fromContinuation bytes = true ∧ followsEd fromLead bytes = true) := by
  rw [isSome_surrogateControl, surrogatesToo_iff, not_and, Bool.not_eq_true]
  constructor
  · exact fun h htext => (h.mp htext).2
  · exact fun h => ⟨fun htext => ⟨htext, h htext⟩, And.left⟩

/-- `C0`, which never appears in text, after an `ED`. -/
theorem surrogate_control_takes_c0 : wellFormed [0xED, 0xC0, 0x80] = false
    ∧ ¬((utf8RuleDeleted (some .stringUtf8Surrogate) [0xED, 0xC0, 0x80]).isSome = true
      ↔ wellFormedWith surrogatesToo [0xED, 0xC0, 0x80] = true) := by
  decide

example : (utf8RuleDeleted (some .stringUtf8Surrogate) [0xED, 0xA0, 0x80]).isSome = true := by decide

end Serialize
