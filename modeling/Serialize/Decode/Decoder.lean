import Serialize.Machine.Simulation

/-!
# Decoders over a latched cursor

A decoder says which bits a reading operation asks for, in order, and what it makes of them. It runs
over a cursor into a bit string that remembers its first refusal: a cursor that has refused once
refuses everything with the same reason. Positions are held in 64 bits and a field's width in 32, so
asking how far a field reaches can overflow, which is a trap.

What holds of every decoder is proved here once, by induction on the decoder: a refusal is latched,
the cursor only moves forward, and bits put behind the string a decoder accepts change nothing.
-/

namespace Decode

open Machine

/-- The reason for refusing a field that reaches past the end. -/
class PastEnd (ε : Type) where
  pastEnd : ε

export PastEnd (pastEnd)

/-- A reading operation as the bits it asks for. -/
inductive Decoder (ε α : Type) where
  /-- Done, with a value. -/
  | accept (value : α)
  /-- Refuse, after asking how far a field of `probe` bits would reach. -/
  | refuse (probe : BitVec 32) (error : ε)
  /-- Ask for a field. -/
  | field (width : BitVec 32) (next : List Bool → Decoder ε α)
  /-- Ask for a run of bits by comparing its length with what is left. -/
  | payload (length : Nat) (next : List Bool → Decoder ε α)
  /-- Ask for the position. -/
  | locate (next : Nat → Decoder ε α)

/-- A place in a bit string, and the first refusal met on the way there. -/
structure Cursor (ε : Type) where
  remaining : List Bool
  position : Nat
  failed : Option ε
  deriving DecidableEq, Repr

variable {ε α β : Type}

namespace Cursor

/-- The end of the bit string. -/
def limit (c : Cursor ε) : Nat := c.position + c.remaining.length

/-- Nothing has been refused yet. -/
def Live (c : Cursor ε) : Prop := c.failed = none

/-- The end of a field of `width` bits is not a 64 bit number. -/
def Overflows (c : Cursor ε) (width : BitVec 32) : Prop := 2 ^ 64 ≤ c.position + width.toNat

instance (c : Cursor ε) (width : BitVec 32) : Decidable (c.Overflows width) :=
  inferInstanceAs (Decidable (_ ≤ _))

def advance (c : Cursor ε) (n : Nat) : Cursor ε :=
  { c with remaining := c.remaining.drop n, position := c.position + n }

/-- Latch a refusal and report it. The first refusal wins. -/
def latch (c : Cursor ε) (error : ε) : Outcome ε (Cursor ε) α :=
  .err (c.failed.getD error) { c with failed := some (c.failed.getD error) }

/-- Hand the next `n` bits on, unless the cursor has refused or holds fewer. -/
def consume [PastEnd ε] (c : Cursor ε) (n : Nat)
    (next : List Bool → Cursor ε → Outcome ε (Cursor ε) α) : Outcome ε (Cursor ε) α :=
  match c.failed with
  | some error => .err error c
  | none =>
      if c.remaining.length < n then c.latch pastEnd
      else next (c.remaining.take n) (c.advance n)

/-- `c'` lies further along the bit string of `c`. -/
def Reaches (c c' : Cursor ε) : Prop :=
  ∃ taken, c.remaining = taken ++ c'.remaining ∧ c'.position = c.position + taken.length

/-- The same place in a longer bit string. -/
def extend (c : Cursor ε) (extra : List Bool) : Cursor ε :=
  { c with remaining := c.remaining ++ extra }

theorem Reaches.refl (c : Cursor ε) : c.Reaches c := ⟨[], rfl, rfl⟩

theorem Reaches.of_eq {c c' : Cursor ε} (hremaining : c'.remaining = c.remaining)
    (hposition : c'.position = c.position) : c.Reaches c' :=
  ⟨[], by rw [hremaining, List.nil_append], by rw [hposition, List.length_nil, Nat.add_zero]⟩

theorem Reaches.trans {c c' c'' : Cursor ε} (h : c.Reaches c') (h' : c'.Reaches c'') :
    c.Reaches c'' := by
  obtain ⟨taken, hremaining, hposition⟩ := h
  obtain ⟨taken', hremaining', hposition'⟩ := h'
  refine ⟨taken ++ taken', ?_, ?_⟩
  · rw [hremaining, hremaining', List.append_assoc]
  · rw [hposition', hposition, List.length_append, Nat.add_assoc]

theorem Reaches.position_le {c c' : Cursor ε} (h : c.Reaches c') : c.position ≤ c'.position := by
  obtain ⟨taken, -, hposition⟩ := h
  omega

theorem Reaches.limit_eq {c c' : Cursor ε} (h : c.Reaches c') : c'.limit = c.limit := by
  obtain ⟨taken, hremaining, hposition⟩ := h
  rw [limit, limit, hremaining, hposition, List.length_append, Nat.add_assoc]

theorem advance_advance (c : Cursor ε) (m n : Nat) : (c.advance m).advance n = c.advance (m + n) := by
  simp only [advance, List.drop_drop, Nat.add_assoc]

theorem reaches_advance {c : Cursor ε} {n : Nat} (h : n ≤ c.remaining.length) :
    c.Reaches (c.advance n) := by
  refine ⟨c.remaining.take n, (List.take_append_drop n _).symm, ?_⟩
  rw [List.length_take, Nat.min_eq_left h]
  rfl

theorem latch_of_live {c : Cursor ε} (h : c.Live) (error : ε) :
    (c.latch error : Outcome ε (Cursor ε) α) = .err error { c with failed := some error } := by
  rw [latch, show c.failed = none from h, Option.getD_none]

theorem latch_of_failed {c : Cursor ε} {reason : ε} (h : c.failed = some reason) (error : ε) :
    (c.latch error : Outcome ε (Cursor ε) α) = .err reason c := by
  rw [latch, h, Option.getD_some, ← h]

section Consume

variable [PastEnd ε] {c : Cursor ε} {n : Nat}
  {next : List Bool → Cursor ε → Outcome ε (Cursor ε) α}

theorem consume_of_failed {reason : ε} (h : c.failed = some reason) :
    c.consume n next = .err reason c := by
  simp only [consume, h]

theorem consume_of_short (hlive : c.Live) (h : c.remaining.length < n) :
    c.consume n next = .err pastEnd { c with failed := some pastEnd } := by
  rw [consume, show c.failed = none from hlive]
  simp only [if_pos h]
  exact latch_of_live hlive _

theorem consume_of_le (hlive : c.Live) (h : n ≤ c.remaining.length) :
    c.consume n next = next (c.remaining.take n) (c.advance n) := by
  rw [consume, show c.failed = none from hlive]
  simp only [if_neg (Nat.not_lt.mpr h)]

theorem consume_bind (c : Cursor ε) (n : Nat)
    (next : List Bool → Cursor ε → Outcome ε (Cursor ε) α)
    (next' : α → Cursor ε → Outcome ε (Cursor ε) β) :
    (c.consume n next).bind next' = c.consume n fun taken c' => (next taken c').bind next' := by
  rcases hfailed : c.failed with - | reason
  · rcases Nat.lt_or_ge c.remaining.length n with h | h
    · rw [consume_of_short hfailed h, consume_of_short hfailed h, Outcome.bind_err]
    · rw [consume_of_le hfailed h, consume_of_le hfailed h]
  · rw [consume_of_failed hfailed, consume_of_failed hfailed, Outcome.bind_err]

end Consume

end Cursor

namespace Decoder

def bind : Decoder ε α → (α → Decoder ε β) → Decoder ε β
  | .accept value, next => next value
  | .refuse probe error, _ => .refuse probe error
  | .field width rest, next => .field width fun taken => (rest taken).bind next
  | .payload length rest, next => .payload length fun taken => (rest taken).bind next
  | .locate rest, next => .locate fun position => (rest position).bind next

instance : Monad (Decoder ε) where
  pure := .accept
  bind := bind

/-- The decoder over a cursor. -/
def run [PastEnd ε] : Decoder ε α → Cursor ε → Outcome ε (Cursor ε) α
  | .accept value, c => .ok value c
  | .refuse probe error, c => if c.Overflows probe then .trap c else c.latch error
  | .field width next, c =>
      if c.Overflows width then .trap c
      else c.consume width.toNat fun taken c' => (next taken).run c'
  | .payload length next, c => c.consume length fun taken c' => (next taken).run c'
  | .locate next, c => (next c.position).run c

/-- What the decoder makes of a bit string that starts at a position: the value, the position after
the bits it took, and the bits it left. -/
def parse : Decoder ε α → Nat → List Bool → Option (α × Nat × List Bool)
  | .accept value, position, bits => some (value, position, bits)
  | .refuse _ _, _, _ => none
  | .field width next, position, bits =>
      if bits.length < width.toNat then none
      else (next (bits.take width.toNat)).parse (position + width.toNat) (bits.drop width.toNat)
  | .payload length next, position, bits =>
      if bits.length < length then none
      else (next (bits.take length)).parse (position + length) (bits.drop length)
  | .locate next, position, bits => (next position).parse position bits

/-- Every way through the decoder asks for bits, if only for none, or refuses. -/
def Guarded : Decoder ε α → Prop
  | .accept _ => False
  | .refuse _ _ => True
  | .field _ _ => True
  | .payload _ _ => True
  | .locate next => ∀ position, (next position).Guarded

/-- Every field the decoder asks for, or asks about, on its way from the cursor ends at a 64 bit
position. -/
def Fits : Decoder ε α → Cursor ε → Prop
  | .accept _, _ => True
  | .refuse probe _, c => ¬c.Overflows probe
  | .field width next, c => ¬c.Overflows width ∧ (c.Live → width.toNat ≤ c.remaining.length →
      (next (c.remaining.take width.toNat)).Fits (c.advance width.toNat))
  | .payload length next, c => c.Live → length ≤ c.remaining.length →
      (next (c.remaining.take length)).Fits (c.advance length)
  | .locate next, c => (next c.position).Fits c

/-- No field the decoder asks for, or asks about, has more than `n` bits. -/
def Narrow (n : Nat) : Decoder ε α → Prop
  | .accept _ => True
  | .refuse probe _ => probe.toNat ≤ n
  | .field width next =>
      width.toNat ≤ n ∧ ∀ taken, taken.length = width.toNat → (next taken).Narrow n
  | .payload _ next => ∀ taken, (next taken).Narrow n
  | .locate next => ∀ position, (next position).Narrow n

@[simp]
theorem pure_eq (value : α) : (pure value : Decoder ε α) = .accept value := rfl

@[simp]
theorem bind_eq (d : Decoder ε α) (next : α → Decoder ε β) : d >>= next = d.bind next := rfl

@[simp]
theorem accept_bind (value : α) (next : α → Decoder ε β) :
    (accept value : Decoder ε α).bind next = next value := rfl

@[simp]
theorem refuse_bind (probe : BitVec 32) (error : ε) (next : α → Decoder ε β) :
    (refuse probe error : Decoder ε α).bind next = .refuse probe error := rfl

theorem bind_accept (d : Decoder ε α) : d.bind accept = d := by
  induction d with
  | accept value => rfl
  | refuse probe error => rfl
  | field width rest ih => exact congrArg _ (funext fun taken => ih taken)
  | payload length rest ih => exact congrArg _ (funext fun taken => ih taken)
  | locate rest ih => exact congrArg _ (funext fun position => ih position)

theorem bind_assoc {γ : Type} (d : Decoder ε α) (next : α → Decoder ε β) (last : β → Decoder ε γ) :
    (d.bind next).bind last = d.bind fun value => (next value).bind last := by
  induction d with
  | accept value => rfl
  | refuse probe error => rfl
  | field width rest ih => exact congrArg _ (funext fun taken => ih taken)
  | payload length rest ih => exact congrArg _ (funext fun taken => ih taken)
  | locate rest ih => exact congrArg _ (funext fun position => ih position)

theorem Guarded.bind {d : Decoder ε α} (h : d.Guarded) (next : α → Decoder ε β) :
    (d.bind next).Guarded := by
  induction d with
  | accept value => exact h.elim
  | refuse probe error => trivial
  | field width rest => trivial
  | payload length rest => trivial
  | locate rest ih => exact fun position => ih position (h position)

theorem Narrow.bind {n : Nat} {d : Decoder ε α} (h : d.Narrow n) {next : α → Decoder ε β}
    (hnext : ∀ value, (next value).Narrow n) : (d.bind next).Narrow n := by
  induction d with
  | accept value => exact hnext value
  | refuse probe error => exact h
  | field width rest ih => exact ⟨h.1, fun taken htaken => ih taken (h.2 taken htaken)⟩
  | payload length rest ih => exact fun taken => ih taken (h taken)
  | locate rest ih => exact fun position => ih position (h position)

section Parse

@[simp]
theorem parse_accept (value : α) (position : Nat) (bits : List Bool) :
    (accept value : Decoder ε α).parse position bits = some (value, position, bits) := rfl

@[simp]
theorem parse_refuse (probe : BitVec 32) (error : ε) (position : Nat) (bits : List Bool) :
    (refuse probe error : Decoder ε α).parse position bits = none := rfl

theorem parse_bind (d : Decoder ε α) (next : α → Decoder ε β) (position : Nat)
    (bits : List Bool) : (d.bind next).parse position bits
      = (d.parse position bits).bind fun r => (next r.1).parse r.2.1 r.2.2 := by
  induction d generalizing position bits with
  | accept value => rfl
  | refuse probe error => rfl
  | field width rest ih =>
      rw [bind, parse, parse]
      split
      · rfl
      · exact ih _ _ _
  | payload length rest ih =>
      rw [bind, parse, parse]
      split
      · rfl
      · exact ih _ _ _
  | locate rest ih => exact ih _ _ _

theorem parse_bind_eq_some {d : Decoder ε α} {next : α → Decoder ε β} {position : Nat}
    {bits : List Bool} {r : β × Nat × List Bool} :
    (d.bind next).parse position bits = some r ↔
      ∃ value position' bits', d.parse position bits = some (value, position', bits') ∧
        (next value).parse position' bits' = some r := by
  rw [parse_bind, Option.bind_eq_some_iff]
  constructor
  · rintro ⟨⟨value, position', bits'⟩, hd, hnext⟩
    exact ⟨value, position', bits', hd, hnext⟩
  · rintro ⟨value, position', bits', hd, hnext⟩
    exact ⟨(value, position', bits'), hd, hnext⟩

end Parse

variable [PastEnd ε]

@[simp]
theorem run_accept (value : α) (c : Cursor ε) :
    (accept value : Decoder ε α).run c = .ok value c := rfl

theorem run_refuse (probe : BitVec 32) (error : ε) (c : Cursor ε) :
    (refuse probe error : Decoder ε α).run c
      = if c.Overflows probe then .trap c else c.latch error := rfl

theorem run_field (width : BitVec 32) (next : List Bool → Decoder ε α) (c : Cursor ε) :
    (field width next).run c = if c.Overflows width then .trap c
      else c.consume width.toNat fun taken c' => (next taken).run c' := rfl

theorem run_payload (length : Nat) (next : List Bool → Decoder ε α) (c : Cursor ε) :
    (payload length next).run c = c.consume length fun taken c' => (next taken).run c' := rfl

theorem run_locate (next : Nat → Decoder ε α) (c : Cursor ε) :
    (locate next).run c = (next c.position).run c := rfl

theorem run_bind (d : Decoder ε α) (next : α → Decoder ε β) (c : Cursor ε) :
    (d.bind next).run c = (d.run c).bind fun value c' => (next value).run c' := by
  induction d generalizing c with
  | accept value => rfl
  | refuse probe error =>
      rw [refuse_bind, run_refuse, run_refuse]
      split
      · rfl
      · rfl
  | field width rest ih =>
      rw [bind, run_field, run_field]
      split
      · rfl
      · rw [Cursor.consume_bind]
        exact congrArg _ (funext fun taken => funext fun c' => ih taken c')
  | payload length rest ih =>
      rw [bind, run_payload, run_payload, Cursor.consume_bind]
      exact congrArg _ (funext fun taken => funext fun c' => ih taken c')
  | locate rest ih => exact ih c.position c

/-- **Refusal is terminal.** On a cursor that has refused, a decoder that asks for anything echoes
the first reason and moves nothing, or traps where it stands. -/
theorem run_of_failed {d : Decoder ε α} (hguarded : d.Guarded) {c : Cursor ε} {reason : ε}
    (h : c.failed = some reason) :
    d.run c = .err reason c ∨ d.run c = .trap c ∧ ∃ width, c.Overflows width := by
  induction d with
  | accept value => exact hguarded.elim
  | refuse probe error =>
      rw [run_refuse]
      split
      next hprobe => exact Or.inr ⟨rfl, probe, hprobe⟩
      next => exact Or.inl (Cursor.latch_of_failed h error)
  | field width rest =>
      rw [run_field]
      split
      next hwidth => exact Or.inr ⟨rfl, width, hwidth⟩
      next => exact Or.inl (Cursor.consume_of_failed h)
  | payload length rest => exact Or.inl (Cursor.consume_of_failed h)
  | locate rest ih => exact ih c.position (hguarded c.position)

/-- How a decoder may leave a live cursor. -/
def Settles (c : Cursor ε) : Outcome ε (Cursor ε) α → Prop
  | .ok _ c' => c.Reaches c' ∧ c'.Live
  | .err error c' => c.Reaches c' ∧ c'.failed = some error
  | .trap c' => c.Reaches c' ∧ c'.Live ∧ ∃ width, c'.Overflows width

omit [PastEnd ε] in
theorem Settles.of_reaches {c c' : Cursor ε} (h : c.Reaches c') {outcome : Outcome ε (Cursor ε) α}
    (hsettles : Settles c' outcome) : Settles c outcome := by
  cases outcome with
  | ok value c'' => exact ⟨h.trans hsettles.1, hsettles.2⟩
  | err error c'' => exact ⟨h.trans hsettles.1, hsettles.2⟩
  | trap c'' => exact ⟨h.trans hsettles.1, hsettles.2⟩

omit [PastEnd ε] in
theorem settles_latch {c : Cursor ε} (h : c.Live) (error : ε) :
    Settles c (c.latch error : Outcome ε (Cursor ε) α) := by
  rw [Cursor.latch_of_live h]
  exact ⟨.of_eq rfl rfl, rfl⟩

theorem settles_consume {c : Cursor ε} (h : c.Live) (n : Nat)
    {next : List Bool → Cursor ε → Outcome ε (Cursor ε) α}
    (hnext : ∀ taken c', c'.Live → Settles c' (next taken c')) :
    Settles c (c.consume n next) := by
  rcases Nat.lt_or_ge c.remaining.length n with hshort | hle
  · rw [Cursor.consume_of_short h hshort]
    exact ⟨.of_eq rfl rfl, rfl⟩
  · rw [Cursor.consume_of_le h hle]
    exact (hnext _ (c.advance n) h).of_reaches (Cursor.reaches_advance hle)

/-- **A decoder settles a live cursor.** It accepts and leaves the cursor live, or refuses and
latches the reason it reports, or traps asking past 64 bits; and it only moves forward. -/
theorem run_settles (d : Decoder ε α) {c : Cursor ε} (h : c.Live) : Settles c (d.run c) := by
  induction d generalizing c with
  | accept value => exact ⟨.refl c, h⟩
  | refuse probe error =>
      rw [run_refuse]
      split
      next hprobe => exact ⟨.refl c, h, probe, hprobe⟩
      next => exact settles_latch h error
  | field width rest ih =>
      rw [run_field]
      split
      next hwidth => exact ⟨.refl c, h, width, hwidth⟩
      next => exact settles_consume h _ fun taken c' hlive => ih taken hlive
  | payload length rest ih =>
      rw [run_payload]
      exact settles_consume h _ fun taken c' hlive => ih taken hlive
  | locate rest ih => exact ih c.position h

theorem consume_ne_trap {c : Cursor ε} {n : Nat}
    {next : List Bool → Cursor ε → Outcome ε (Cursor ε) α} {m : Nat} (hlimit : c.limit + m < 2 ^ 64)
    (hnext : ∀ taken c', taken.length = n → c'.limit + m < 2 ^ 64 → ∀ c'', next taken c' ≠ .trap c'')
    (c' : Cursor ε) : c.consume n next ≠ .trap c' := by
  rcases hfailed : c.failed with - | reason
  · rcases Nat.lt_or_ge c.remaining.length n with hshort | hle
    · rw [Cursor.consume_of_short hfailed hshort]
      simp
    · rw [Cursor.consume_of_le hfailed hle]
      exact hnext _ _ (List.length_take_of_le hle)
        (by rw [(Cursor.reaches_advance hle).limit_eq]; exact hlimit) c'
  · rw [Cursor.consume_of_failed hfailed]
    simp

theorem consume_returned_iff {c : Cursor ε} {n : Nat}
    {next : List Bool → Cursor ε → Outcome ε (Cursor ε) α} : (c.consume n next).Returned ↔
      (c.Live → n ≤ c.remaining.length → (next (c.remaining.take n) (c.advance n)).Returned) := by
  rcases hfailed : c.failed with - | reason
  · rcases Nat.lt_or_ge c.remaining.length n with hshort | hle
    · rw [Cursor.consume_of_short hfailed hshort]
      exact iff_of_true trivial fun _ hle => absurd hle (Nat.not_le.mpr hshort)
    · rw [Cursor.consume_of_le hfailed hle]
      exact ⟨fun h _ _ => h, fun h => h hfailed hle⟩
  · rw [Cursor.consume_of_failed hfailed]
    refine iff_of_true trivial fun hlive => ?_
    cases (show c.failed = none from hlive).symm.trans hfailed

/-- **A decoder comes back exactly where its fields fit.** -/
theorem run_returned_iff {d : Decoder ε α} {c : Cursor ε} : (d.run c).Returned ↔ d.Fits c := by
  induction d generalizing c with
  | accept value => exact iff_of_true trivial trivial
  | refuse probe error =>
      rw [run_refuse, Fits]
      split
      next hover => exact iff_of_false id (not_not.mpr hover)
      next hfits => exact iff_of_true trivial hfits
  | field width rest ih =>
      rw [run_field, Fits]
      split
      next hover => exact iff_of_false id fun h => h.1 hover
      next hfits => rw [consume_returned_iff, ih, and_iff_right hfits]
  | payload length rest ih =>
      rw [run_payload, Fits, consume_returned_iff, ih]
  | locate rest ih => exact ih c.position

/-- **A decoder of narrow fields does not trap** where the end of the string leaves room for one. -/
theorem run_ne_trap {n : Nat} {d : Decoder ε α} (h : d.Narrow n) {c : Cursor ε}
    (hlimit : c.limit + n < 2 ^ 64) (c' : Cursor ε) : d.run c ≠ .trap c' := by
  have hposition : ∀ {c : Cursor ε} {width : BitVec 32}, c.limit + n < 2 ^ 64 → width.toNat ≤ n →
      ¬c.Overflows width := by
    intro c width hlimit hwidth hover
    rw [Cursor.limit] at hlimit
    rw [Cursor.Overflows] at hover
    omega
  induction d generalizing c c' with
  | accept value => simp
  | refuse probe error =>
      rw [run_refuse, if_neg (hposition hlimit h), Cursor.latch]
      simp
  | field width rest ih =>
      rw [run_field, if_neg (hposition hlimit h.1)]
      exact consume_ne_trap hlimit (fun taken _ htaken hlimit' =>
        ih taken (h.2 taken htaken) hlimit') c'
  | payload length rest ih =>
      exact consume_ne_trap hlimit (fun taken _ _ hlimit' => ih taken (h taken) hlimit') c'
  | locate rest ih => exact ih c.position (h c.position) hlimit c'

theorem live_of_run_eq_ok {d : Decoder ε α} (hguarded : d.Guarded) {c c' : Cursor ε} {value : α}
    (h : d.run c = .ok value c') : c.Live ∧ c'.Live := by
  rcases hfailed : c.failed with - | reason
  · have hsettles := run_settles d (show c.Live from hfailed)
    rw [h] at hsettles
    exact ⟨hfailed, hsettles.2⟩
  · rcases run_of_failed hguarded hfailed with herr | ⟨htrap, -⟩
    · rw [h] at herr
      cases herr
    · rw [h] at htrap
      cases htrap

theorem parse_of_run_eq_ok {d : Decoder ε α} {c c' : Cursor ε} (h : c.Live) {value : α}
    (hrun : d.run c = .ok value c') :
    d.parse c.position c.remaining = some (value, c'.position, c'.remaining) := by
  induction d generalizing c with
  | accept value' =>
      rw [run_accept] at hrun
      cases hrun
      rfl
  | refuse probe error =>
      rw [run_refuse] at hrun
      split at hrun <;> cases hrun
  | field width rest ih =>
      rw [run_field] at hrun
      split at hrun
      · cases hrun
      rw [parse]
      rcases Nat.lt_or_ge c.remaining.length width.toNat with hshort | hle
      · rw [Cursor.consume_of_short h hshort] at hrun
        cases hrun
      · rw [Cursor.consume_of_le h hle] at hrun
        rw [if_neg (Nat.not_lt.mpr hle)]
        exact ih _ (show (c.advance _).Live from h) hrun
  | payload length rest ih =>
      rw [run_payload] at hrun
      rw [parse]
      rcases Nat.lt_or_ge c.remaining.length length with hshort | hle
      · rw [Cursor.consume_of_short h hshort] at hrun
        cases hrun
      · rw [Cursor.consume_of_le h hle] at hrun
        rw [if_neg (Nat.not_lt.mpr hle)]
        exact ih _ (show (c.advance _).Live from h) hrun
  | locate rest ih => exact ih c.position h hrun

/-- What a decoder parses it accepts: asking cannot overflow for bits that are there. -/
theorem run_of_parse {d : Decoder ε α} {c : Cursor ε} (h : c.Live) (hlimit : c.limit < 2 ^ 64)
    {value : α} {position : Nat} {bits : List Bool}
    (hparse : d.parse c.position c.remaining = some (value, position, bits)) :
    d.run c = .ok value { remaining := bits, position, failed := none } := by
  induction d generalizing c with
  | accept value' =>
      obtain ⟨remaining, position', failed⟩ := c
      rw [parse_accept] at hparse
      cases hparse
      cases h
      rfl
  | refuse probe error =>
      rw [parse_refuse] at hparse
      cases hparse
  | field width rest ih =>
      rw [parse] at hparse
      split at hparse
      · cases hparse
      next hle =>
        have hle := Nat.not_lt.mp hle
        have hfits : ¬c.Overflows width := by
          rw [Cursor.Overflows, Nat.not_le]
          rw [Cursor.limit] at hlimit
          omega
        rw [run_field, if_neg hfits, Cursor.consume_of_le h hle]
        refine ih _ (show (c.advance _).Live from h) ?_ hparse
        rw [(Cursor.reaches_advance hle).limit_eq]
        exact hlimit
  | payload length rest ih =>
      rw [parse] at hparse
      split at hparse
      · cases hparse
      next hle =>
        have hle := Nat.not_lt.mp hle
        rw [run_payload, Cursor.consume_of_le h hle]
        refine ih _ (show (c.advance _).Live from h) ?_ hparse
        rw [(Cursor.reaches_advance hle).limit_eq]
        exact hlimit
  | locate rest ih => exact ih c.position h hlimit hparse

theorem matches_consume_extend {c : Cursor ε} (h : c.Live) (extra : List Bool) (n : Nat)
    {next : List Bool → Cursor ε → Outcome ε (Cursor ε) α}
    (hnext : ∀ taken c', c'.Live →
      (next taken c').Matches (fun c₁ c₂ => c₂ = c₁.extend extra) (fun error _ => error = pastEnd)
        (next taken (c'.extend extra))) :
    (c.consume n next).Matches (fun c₁ c₂ => c₂ = c₁.extend extra)
      (fun error _ => error = pastEnd) ((c.extend extra).consume n next) := by
  rcases Nat.lt_or_ge c.remaining.length n with hshort | hle
  · rw [Cursor.consume_of_short h hshort]
    exact Or.inl rfl
  · have hlonger : n ≤ (c.extend extra).remaining.length := by
      rw [Cursor.extend, List.length_append]
      omega
    have htake : (c.extend extra).remaining.take n = c.remaining.take n :=
      List.take_append_of_le_length hle
    have hadvance : (c.extend extra).advance n = (c.advance n).extend extra := by
      rw [Cursor.advance, Cursor.extend, List.drop_append_of_le_length hle]
      rfl
    rw [Cursor.consume_of_le h hle, Cursor.consume_of_le (show (c.extend extra).Live from h) hlonger,
      htake, hadvance]
    exact hnext _ _ h

/-- **More bits behind the string change nothing.** The decoder does on the longer string what it
does on the shorter one, unless it reaches past the shorter one's end. -/
theorem run_extend (d : Decoder ε α) {c : Cursor ε} (h : c.Live) (extra : List Bool) :
    (d.run c).Matches (fun c₁ c₂ => c₂ = c₁.extend extra) (fun error _ => error = pastEnd)
      (d.run (c.extend extra)) := by
  induction d generalizing c with
  | accept value => exact ⟨rfl, rfl⟩
  | refuse probe error =>
      rw [run_refuse, run_refuse]
      by_cases hprobe : c.Overflows probe
      · rw [if_pos hprobe, if_pos (show (c.extend extra).Overflows probe from hprobe)]
        rfl
      · rw [if_neg hprobe, if_neg (show ¬(c.extend extra).Overflows probe from hprobe),
          Cursor.latch_of_live h, Cursor.latch_of_live (show (c.extend extra).Live from h)]
        exact Or.inr ⟨_, rfl, rfl⟩
  | field width rest ih =>
      rw [run_field, run_field]
      by_cases hwidth : c.Overflows width
      · rw [if_pos hwidth, if_pos (show (c.extend extra).Overflows width from hwidth)]
        rfl
      · rw [if_neg hwidth, if_neg (show ¬(c.extend extra).Overflows width from hwidth)]
        exact matches_consume_extend h extra _ fun taken c' hlive => ih taken hlive
  | payload length rest ih =>
      exact matches_consume_extend h extra _ fun taken c' hlive => ih taken hlive
  | locate rest ih => exact ih c.position h

end Decoder

end Decode
