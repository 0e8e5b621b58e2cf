import Serialize.Decode.Code

/-!
# Numbers read in groups

A wide number is asked for in groups of 32 bits, low ones first, the last group carrying what is left
of the width. A string that holds all of it gives the number; one that ends inside it has the whole
groups before its end consumed.
-/

namespace Decode

open Machine BitString

variable {ε α β : Type}

namespace Cursor

/-- How far the cursor asks for an `n` bit number before it is stopped: the end of the first group it
does not get, or no further than where it is. -/
def stop (c : Cursor ε) (n : Nat) : Nat :=
  match c.failed with
  | some _ => c.position + min 32 n
  | none =>
      if c.remaining.length < n then c.position + min (32 * (c.remaining.length / 32 + 1)) n
      else c.position

theorem stop_of_failed {c : Cursor ε} {reason : ε} (h : c.failed = some reason) (n : Nat) :
    c.stop n = c.position + min 32 n := by
  simp only [stop, h]

theorem stop_of_lt {c : Cursor ε} {n : Nat} (hlive : c.Live) (h : c.remaining.length < n) :
    c.stop n = c.position + min (32 * (c.remaining.length / 32 + 1)) n := by
  rw [stop, show c.failed = none from hlive]
  exact if_pos h

theorem stop_of_le {c : Cursor ε} {n : Nat} (hlive : c.Live) (h : n ≤ c.remaining.length) :
    c.stop n = c.position := by
  rw [stop, show c.failed = none from hlive]
  exact if_neg (Nat.not_lt.mpr h)

theorem stop_zero (c : Cursor ε) : c.stop 0 = c.position := by
  rw [stop]
  split
  · rw [Nat.min_zero, Nat.add_zero]
  · rw [if_neg (Nat.not_lt_zero _)]

end Cursor

namespace Decoder

/-- The decoder asks for `n` bits in groups and gives what `f` makes of the number they spell. -/
inductive Grouped : Decoder ε α → Nat → (Nat → α) → Prop where
  | last {width : BitVec 32} {next : List Bool → Decoder ε α} {f : Nat → α}
      (hwidth : 1 ≤ width.toNat ∧ width.toNat ≤ 32)
      (hnext : ∀ taken, taken.length = width.toNat → next taken = .accept (f (ofBits taken))) :
      Grouped (.field width next) width.toNat f
  | more {n : Nat} {next : List Bool → Decoder ε α} {f : Nat → α} (hn : 1 ≤ n)
      (hnext : ∀ taken, taken.length = 32 →
        Grouped (next taken) n fun high => f (ofBits taken + 2 ^ 32 * high)) :
      Grouped (.field 32 next) (32 + n) f

namespace Grouped

variable {d : Decoder ε α} {n : Nat} {f : Nat → α}

theorem map (h : Grouped d n f) (g : α → β) :
    Grouped (d.bind fun value => .accept (g value)) n fun x => g (f x) := by
  induction h with
  | last hwidth hnext =>
      exact .last hwidth fun taken htaken => by rw [hnext taken htaken, accept_bind]
  | more hn hnext ih => exact .more hn fun taken htaken => ih taken htaken

/-- No group has more than 32 bits. -/
theorem narrow (h : Grouped d n f) : d.Narrow 32 := by
  induction h with
  | last hwidth hnext =>
      refine ⟨hwidth.2, fun taken htaken => ?_⟩
      rw [hnext taken htaken]
      trivial
  | more hn hnext ih => exact ⟨le_refl 32, ih⟩

theorem congr (h : Grouped d n f) {g : Nat → α} (hfg : ∀ x, x < 2 ^ n → f x = g x) :
    Grouped d n g := by
  induction h generalizing g with
  | last hwidth hnext =>
      refine .last hwidth fun taken htaken => ?_
      rw [hnext taken htaken, hfg]
      rw [← htaken]
      exact ofBits_lt taken
  | @more n next f hn hnext ih =>
      refine .more hn fun taken htaken => ih taken htaken fun high hhigh => hfg _ ?_
      have hlow := ofBits_lt taken
      have hpow : 2 ^ (32 + n) = 2 ^ 32 * 2 ^ n := pow_add ..
      have hmul : 2 ^ 32 * (high + 1) ≤ 2 ^ 32 * 2 ^ n := Nat.mul_le_mul_left _ hhigh
      rw [htaken] at hlow
      omega

theorem bind {low : Nat → α} (h : Grouped d 32 low) (hn : 1 ≤ n) {rest : α → Decoder ε β}
    {g : Nat → Nat → β} (hrest : ∀ x, x < 2 ^ 32 → Grouped (rest (low x)) n (g x)) :
    Grouped (d.bind rest) (32 + n) fun x => g (x % 2 ^ 32) (x / 2 ^ 32) := by
  generalize hwhole : 32 = whole at h
  cases h with
  | @last width next low hwidth hnext =>
      obtain rfl : width = 32 := BitVec.eq_of_toNat_eq hwhole.symm
      refine .more hn fun taken htaken => ?_
      have hlow := ofBits_lt taken
      rw [htaken] at hlow
      rw [hnext taken htaken, accept_bind]
      refine (hrest _ hlow).congr fun high _ => ?_
      rw [← hwhole, Nat.add_mul_mod_self_left, Nat.mod_eq_of_lt hlow,
        Nat.add_mul_div_left _ _ (Nat.two_pow_pos 32), Nat.div_eq_of_lt hlow, Nat.zero_add]
  | more hn hnext => omega

theorem takes (h : Grouped d n f) : d.Takes n f := by
  induction h with
  | @last width next f hwidth hnext =>
      intro position bits
      rw [parse]
      split
      · rfl
      next hle =>
        rw [hnext, parse_accept]
        rw [List.length_take]
        omega
  | @more n next f hn hnext ih =>
      intro position bits
      have hgroup : (32 : BitVec 32).toNat = 32 := rfl
      rw [parse, hgroup]
      rcases Nat.lt_or_ge bits.length 32 with hshort | hle
      · rw [if_pos hshort, if_pos (by omega)]
      · have htaken : (bits.take 32).length = 32 := by
          rw [List.length_take, Nat.min_eq_left hle]
        have hsplit : bits.take (32 + n) = bits.take 32 ++ (bits.drop 32).take n := List.take_add
        rw [if_neg (Nat.not_lt.mpr hle), ih _ htaken, List.length_drop, List.drop_drop, hsplit,
          ofBits_append, htaken, Nat.add_assoc]
        by_cases hshort : bits.length < 32 + n
        · rw [if_pos (by omega), if_pos hshort]
        · rw [if_neg (by omega), if_neg hshort]

variable [PastEnd ε] {c : Cursor ε}

/-- **All the bits are there**: they give their number. -/
theorem run_of_le (h : Grouped d n f) (hlive : c.Live) (hlimit : c.limit < 2 ^ 64)
    (hle : n ≤ c.remaining.length) :
    d.run c = .ok (f (ofBits (c.remaining.take n))) (c.advance n) := by
  induction h generalizing c with
  | @last width next f hwidth hnext =>
      have hfits : ¬c.Overflows width := by
        rw [Cursor.Overflows, Nat.not_le]
        rw [Cursor.limit] at hlimit
        omega
      rw [run_field, if_neg hfits, Cursor.consume_of_le hlive hle, hnext]
      · rfl
      · rw [List.length_take, Nat.min_eq_left hle]
  | @more n next f hn hnext ih =>
      have hgroup : (32 : BitVec 32).toNat = 32 := rfl
      have hfirst : 32 ≤ c.remaining.length := by omega
      have hfits : ¬c.Overflows 32 := by
        rw [Cursor.Overflows, Nat.not_le, hgroup]
        rw [Cursor.limit] at hlimit
        omega
      have htaken : (c.remaining.take 32).length = 32 := by
        rw [List.length_take, Nat.min_eq_left hfirst]
      have hsplit : c.remaining.take (32 + n)
          = c.remaining.take 32 ++ (c.remaining.drop 32).take n := List.take_add
      rw [run_field, if_neg hfits, hgroup, Cursor.consume_of_le hlive hfirst, ih _ htaken]
      · rw [hsplit, ofBits_append, htaken]
        simp only [Cursor.advance, List.drop_drop, Nat.add_assoc]
      · exact hlive
      · rw [(Cursor.reaches_advance hfirst).limit_eq]
        exact hlimit
      · show n ≤ (c.remaining.drop 32).length
        rw [List.length_drop]
        omega

/-- **The string ends inside the number**: the whole groups before its end are consumed, and the next
one is past the end, or past 64 bits. -/
theorem run_of_lt (h : Grouped d n f) (hlive : c.Live) (hlimit : c.limit < 2 ^ 64)
    (hlt : c.remaining.length < n) :
    d.run c = if 2 ^ 64 ≤ c.position + min (32 * (c.remaining.length / 32 + 1)) n
      then .trap (c.advance (32 * (c.remaining.length / 32)))
      else .err pastEnd
        { c.advance (32 * (c.remaining.length / 32)) with failed := some pastEnd } := by
  induction h generalizing c with
  | @last width next f hwidth hnext =>
      have hzero : c.remaining.length / 32 = 0 := Nat.div_eq_of_lt (by omega)
      have hmin : min (32 * (0 + 1)) width.toNat = width.toNat := by omega
      rw [hzero, hmin, run_field, Cursor.consume_of_short hlive hlt]
      rfl
  | @more n next f hn hnext ih =>
      have hgroup : (32 : BitVec 32).toNat = 32 := rfl
      rcases Nat.lt_or_ge c.remaining.length 32 with hshort | hfirst
      · have hzero : c.remaining.length / 32 = 0 := Nat.div_eq_of_lt hshort
        have hmin : min (32 * (0 + 1)) (32 + n) = 32 := by omega
        rw [hzero, hmin, run_field, hgroup, Cursor.consume_of_short hlive hshort]
        rfl
      · have htaken : (c.remaining.take 32).length = 32 := by
          rw [List.length_take, Nat.min_eq_left hfirst]
        have hrest : (c.advance 32).remaining.length = c.remaining.length - 32 := List.length_drop
        have hposition : (c.advance 32).position = c.position + 32 := rfl
        have hlive' : (c.advance 32).Live := hlive
        have hfits : ¬c.Overflows 32 := by
          rw [Cursor.Overflows, Nat.not_le, hgroup]
          rw [Cursor.limit] at hlimit
          omega
        have hlimit' : (c.advance 32).limit < 2 ^ 64 := by
          rw [(Cursor.reaches_advance hfirst).limit_eq]
          exact hlimit
        have hgroups : c.remaining.length / 32 = (c.remaining.length - 32) / 32 + 1 :=
          Nat.div_eq_sub_div (by decide) hfirst
        rw [run_field, if_neg hfits, hgroup, Cursor.consume_of_le hlive hfirst,
          ih _ htaken hlive' hlimit' (by omega), hrest, hposition, hgroups, Cursor.advance_advance]
        generalize (c.remaining.length - 32) / 32 = whole
        have hmin : c.position + 32 + min (32 * (whole + 1)) n
            = c.position + min (32 * (whole + 1 + 1)) (32 + n) := by omega
        rw [hmin, Nat.mul_succ 32 whole, Nat.add_comm (32 * whole)]

/-- **A cursor that has refused** refuses the number, unless its first group is past 64 bits. -/
theorem run_of_failed (h : Grouped d n f) {reason : ε} (hfailed : c.failed = some reason) :
    d.run c = if 2 ^ 64 ≤ c.position + min 32 n then .trap c else .err reason c := by
  cases h with
  | @last width next f hwidth hnext =>
      rw [run_field, Cursor.consume_of_failed hfailed, Nat.min_eq_right hwidth.2]
      rfl
  | @more n next f hn hnext =>
      rw [run_field, Cursor.consume_of_failed hfailed, Nat.min_eq_left (Nat.le_add_right ..)]
      rfl

/-- The number traps just where the cursor asks past 64 bits. -/
theorem run_eq_trap (h : Grouped d n f) (hlimit : c.limit < 2 ^ 64) (hstop : 2 ^ 64 ≤ c.stop n) :
    ∃ c', d.run c = .trap c' := by
  rcases hfailed : c.failed with - | reason
  · rcases Nat.lt_or_ge c.remaining.length n with hlt | hle
    · rw [Cursor.stop_of_lt hfailed hlt] at hstop
      rw [h.run_of_lt hfailed hlimit hlt, if_pos hstop]
      exact ⟨_, rfl⟩
    · rw [Cursor.stop_of_le hfailed hle] at hstop
      rw [Cursor.limit] at hlimit
      omega
  · rw [Cursor.stop_of_failed hfailed] at hstop
    rw [h.run_of_failed hfailed, if_pos hstop]
    exact ⟨_, rfl⟩

end Grouped

end Decoder

end Decode
