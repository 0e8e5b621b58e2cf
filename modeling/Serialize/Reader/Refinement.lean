import Serialize.Reader.Window
import Serialize.Format.Decoders

/-!
# Read streams as cursors

A read stream stands for a cursor into the bits of its packet: the slack behind the packet, the
buffer and the windows are gone. A stream computation realizes a decoder when, from every valid
stream and in either build, it does on the stream what the decoder does on the cursor; it stores a
decoder when on top of that it leaves what the decoder accepts in the caller's value, and leaves the
caller's value alone whenever the decoder does not accept.
-/

namespace Serialize

open Machine BitString Decode

variable {δ κ α β : Type}

namespace ReadStream

/-- What every read stream keeps: whole bytes of packet, inside the buffer, read no further than
their end. -/
structure Valid (stream : ReadStream) : Prop where
  whole : stream.reader.numBits % 8 = 0
  numBits_le : stream.reader.numBits ≤ 8 * stream.reader.data.length
  bitsRead_le : stream.reader.bitsRead ≤ stream.reader.numBits
  numBits_lt : stream.reader.numBits < 2 ^ 64

/-- The bits of the packet. -/
def packet (stream : ReadStream) : List Bool :=
  (bitsOfOctets stream.reader.data).take stream.reader.numBits

/-- The cursor a stream stands for. -/
def cursor (stream : ReadStream) : Cursor Error where
  remaining := stream.packet.drop stream.reader.bitsRead
  position := stream.reader.bitsRead
  failed := stream.failed

variable {stream : ReadStream}

theorem cursor_failed (stream : ReadStream) : stream.cursor.failed = stream.failed := rfl

theorem Valid.length_packet (h : stream.Valid) : stream.packet.length = stream.reader.numBits := by
  rw [packet, List.length_take, length_bitsOfOctets, Nat.min_eq_left h.numBits_le]

theorem Valid.length_remaining (h : stream.Valid) :
    stream.cursor.remaining.length = stream.reader.numBits - stream.reader.bitsRead := by
  rw [cursor, List.length_drop, h.length_packet]

theorem Valid.limit_cursor (h : stream.Valid) : stream.cursor.limit = stream.reader.numBits := by
  have hle := h.bitsRead_le
  rw [Cursor.limit, h.length_remaining]
  exact Nat.add_sub_cancel' hle

theorem Valid.limit_lt (h : stream.Valid) : stream.cursor.limit < 2 ^ 64 := by
  rw [h.limit_cursor]
  exact h.numBits_lt

theorem Valid.limit_whole (h : stream.Valid) : stream.cursor.limit % 8 = 0 := by
  rw [h.limit_cursor]
  exact h.whole

/-- The stream at another position. -/
def moveTo (stream : ReadStream) (position : Nat) : ReadStream :=
  { stream with reader := { stream.reader with bitsRead := position } }

theorem Valid.moved (h : stream.Valid) {position : Nat} (hle : position ≤ stream.reader.numBits) :
    (stream.moveTo position).Valid :=
  ⟨h.whole, h.numBits_le, hle, h.numBits_lt⟩

theorem Valid.advance (h : stream.Valid) {n : Nat} (hn : n ≤ stream.cursor.remaining.length) :
    (stream.moveTo (stream.reader.bitsRead + n)).Valid
      ∧ (stream.moveTo (stream.reader.bitsRead + n)).cursor = stream.cursor.advance n := by
  have hle := h.bitsRead_le
  rw [h.length_remaining] at hn
  refine ⟨h.moved (by omega), ?_⟩
  simp only [moveTo, cursor, Cursor.advance, packet, List.drop_drop]

theorem Valid.latched (h : stream.Valid) (reason : Error) :
    ({ stream with failed := some reason } : ReadStream).Valid :=
  ⟨h.whole, h.numBits_le, h.bitsRead_le, h.numBits_lt⟩

/-- The bits the reader has ahead of it begin with those the packet still holds. -/
theorem take_ahead {n : Nat} (h : stream.Valid) (hn : n ≤ stream.cursor.remaining.length) :
    stream.reader.ahead.take n = stream.cursor.remaining.take n := by
  rw [h.length_remaining] at hn
  simp only [cursor, packet, BitReader.ahead]
  rw [List.drop_take, List.take_take, Nat.min_eq_left hn]

/-! ### A fresh stream -/

/-- The bytes a fresh stream accepts of those it is given. -/
def accepted (buffer : List U8) (bytes : Nat) : Nat := if bytes ≤ buffer.length then bytes else 0

/-- The stream a construction that comes back gives. -/
def fresh (buffer : List U8) (bytes : Nat) : ReadStream where
  reader := { data := buffer, numBits := accepted buffer bytes * 8, bitsRead := 0 }
  failed := if bytes ≤ buffer.length then none else some .valueOutOfRange

theorem accepted_le (buffer : List U8) (bytes : Nat) : accepted buffer bytes ≤ buffer.length := by
  rw [accepted]
  split
  next h => exact h
  next => exact Nat.zero_le _

theorem new_eq (buffer : List U8) (bytes : Nat) (build : Build) :
    ReadStream.new buffer bytes build ()
      = if accepted buffer bytes * 8 < 2 ^ 64 then .ok (fresh buffer bytes) () else .trap () := by
  have haccepted : (if decide (bytes ≤ buffer.length) = true then bytes else 0)
      = accepted buffer bytes := by
    rw [accepted]
    simp only [decide_eq_true_iff]
  have hfailed : (if decide (bytes ≤ buffer.length) = true then none
      else some Error.valueOutOfRange) = (fresh buffer bytes).failed := by
    rw [fresh]
    simp only [decide_eq_true_iff]
  simp only [ReadStream.new, BitReader.new, bind_apply, haccepted, hfailed,
    debugAssert_of (accepted_le buffer bytes), Outcome.bind_ok, pure_apply]
  by_cases h : accepted buffer bytes * 8 < 2 ^ 64
  · rw [if_pos h, checkedMul_of h]
    rfl
  · rw [if_neg h, checkedMul_of_not h]
    rfl

theorem new_eq_ok_iff {buffer : List U8} {bytes : Nat} {build : Build} :
    ReadStream.new buffer bytes build () = .ok stream () ↔
      accepted buffer bytes * 8 < 2 ^ 64 ∧ stream = fresh buffer bytes := by
  rw [new_eq]
  split
  next h =>
    constructor
    · intro heq
      cases heq
      exact ⟨h, rfl⟩
    · rintro ⟨-, rfl⟩
      rfl
  next h => exact iff_of_false (fun heq => nomatch heq) fun heq => h heq.1

theorem fresh_valid {buffer : List U8} {bytes : Nat} (h : accepted buffer bytes * 8 < 2 ^ 64) :
    (fresh buffer bytes).Valid where
  whole := Nat.mul_mod_left _ _
  numBits_le := by
    have hle := accepted_le buffer bytes
    show accepted buffer bytes * 8 ≤ 8 * buffer.length
    omega
  bitsRead_le := Nat.zero_le _
  numBits_lt := h

theorem fresh_cursor (buffer : List U8) (bytes : Nat) : (fresh buffer bytes).cursor
    = { remaining := bitsOfOctets (buffer.take (accepted buffer bytes))
        position := 0
        failed := if bytes ≤ buffer.length then none else some .valueOutOfRange } := by
  rw [cursor, packet, fresh, bitsOfOctets_take, Nat.mul_comm]
  rfl

/-- The start of a packet. -/
def startOf (packet : List U8) : Cursor Error where
  remaining := bitsOfOctets packet
  position := 0
  failed := none

theorem startOf_append (packet extra : List U8) :
    startOf (packet ++ extra) = (startOf packet).extend (bitsOfOctets extra) := by
  rw [startOf, bitsOfOctets_append]
  rfl

/-- The stream is fresh and reads exactly these bytes, with some slack behind them. -/
def Over (stream : ReadStream) (packet : List U8) (profile : Profile) : Prop :=
  ∃ slack, ReadStream.new (packet ++ slack) packet.length profile () = .ok stream ()

theorem exists_over {packet : List U8} (slack : List U8) (build : Build)
    (hlength : packet.length * 8 < 2 ^ 64) :
    ∃ reader, ReadStream.new (packet ++ slack) packet.length build () = .ok reader ()
      ∧ reader.Over packet build := by
  have haccepted : accepted (packet ++ slack) packet.length = packet.length := by
    rw [accepted, if_pos (by rw [List.length_append]; omega)]
  have hnew : ReadStream.new (packet ++ slack) packet.length build ()
      = .ok (fresh (packet ++ slack) packet.length) () :=
    new_eq_ok_iff.mpr ⟨by rw [haccepted]; omega, rfl⟩
  exact ⟨_, hnew, slack, hnew⟩

theorem Over.cursor {packet : List U8} {build : Build} (h : stream.Over packet build) :
    stream.Valid ∧ stream.cursor = startOf packet := by
  obtain ⟨slack, hnew⟩ := h
  obtain ⟨hbits, rfl⟩ := new_eq_ok_iff.mp hnew
  have hle : packet.length ≤ (packet ++ slack).length := by
    rw [List.length_append]
    omega
  refine ⟨fresh_valid hbits, ?_⟩
  rw [fresh_cursor, accepted, if_pos hle, if_pos hle, List.take_left, startOf]

end ReadStream

open ReadStream

/-! ### Realizing a decoder -/

/-- The stream stands for the cursor, and the caller's value is still `value`. -/
def StandsWith (value : δ) (p : ReadStream × δ) (c : Cursor Error) : Prop :=
  p.1.Valid ∧ p.1.cursor = c ∧ p.2 = value

/-- The computation on streams does what the decoder does on cursors. -/
def Tracks (m : Action ReadStream α) (d : Decoder Error α) : Prop :=
  ∀ (build : Build) (stream : ReadStream), stream.Valid →
    (m build stream).Matches (fun stream' c => stream'.Valid ∧ stream'.cursor = c) NoEscape
      (d.run stream.cursor)

/-- The same with a caller's value beside the stream, which is left alone. -/
def Realizes (m : Action (ReadStream × δ) α) (d : Decoder Error α) : Prop :=
  ∀ (build : Build) (stream : ReadStream) (value : δ), stream.Valid →
    (m build (stream, value)).Matches (StandsWith value) NoEscape (d.run stream.cursor)

/-- What the decoder accepts ends up in the caller's value, which changes no other way. -/
def Stored (value : δ) : Outcome Error (ReadStream × δ) Unit → Outcome Error (Cursor Error) δ → Prop
  | .ok () p, .ok value' c => StandsWith value' p c
  | .err error p, .err error' c => error = error' ∧ StandsWith value p c
  | .trap p, .trap c => StandsWith value p c
  | _, _ => False

namespace Stored

variable {value : δ} {outcome : Outcome Error (ReadStream × δ) Unit} {c : Cursor Error}

theorem of_ok {value' : δ} (h : Stored value outcome (.ok value' c)) :
    ∃ p, outcome = .ok () p ∧ StandsWith value' p c := by
  cases outcome with
  | ok result p => exact ⟨p, rfl, h⟩
  | err error p => exact h.elim
  | trap p => exact h.elim

theorem of_err {error : Error} (h : Stored value outcome (.err error c)) :
    ∃ p, outcome = .err error p ∧ StandsWith value p c := by
  cases outcome with
  | ok result p => exact h.elim
  | err error' p => exact ⟨p, by rw [h.1], h.2⟩
  | trap p => exact h.elim

theorem of_trap (h : Stored value outcome (.trap c)) :
    ∃ p, outcome = .trap p ∧ StandsWith value p c := by
  cases outcome with
  | ok result p => exact h.elim
  | err error p => exact h.elim
  | trap p => exact ⟨p, rfl, h⟩

end Stored

/-- The operation stores what the decoder accepts, where the caller's value starts out as `value`. -/
def StoresFrom (value : δ) (m : Action (ReadStream × δ) Unit) (d : Decoder Error δ) : Prop :=
  ∀ (build : Build) (stream : ReadStream), stream.Valid →
    Stored value (m build (stream, value)) (d.run stream.cursor)

/-- The operation stores what the decoder accepts, whatever the caller's value was. -/
def Stores (m : Action (ReadStream × δ) Unit) (d : Decoder Error δ) : Prop :=
  ∀ (build : Build) (stream : ReadStream) (value : δ), stream.Valid →
    Stored value (m build (stream, value)) (d.run stream.cursor)

namespace Realizes

theorem onState {m : Action ReadStream α} {d : Decoder Error α} (h : Tracks m d) :
    Realizes (δ := δ) (onState m) d := by
  intro build stream value hstream
  have hmatch := h build stream hstream
  rw [onState_apply]
  match hm : m build stream, hd : d.run stream.cursor, hmatch with
  | .ok part stream', .ok part' c, ⟨hpart, hvalid, hcursor⟩ => exact ⟨hpart, hvalid, hcursor, rfl⟩
  | .err error stream', _, .inr ⟨c, rfl, hvalid, hcursor⟩ =>
      exact Or.inr ⟨c, rfl, hvalid, hcursor, rfl⟩
  | .trap stream', .trap c, ⟨hvalid, hcursor⟩ => exact ⟨hvalid, hcursor, rfl⟩

theorem pure (value : α) : Realizes (δ := δ) (pure value) (.accept value) :=
  fun _ _ _ h => ⟨rfl, h, rfl, rfl⟩

theorem bind {m : Action (ReadStream × δ) α} {next : α → Action (ReadStream × δ) β}
    {d : Decoder Error α} {rest : α → Decoder Error β} (h : Realizes m d)
    (hnext : ∀ value, Realizes (next value) (rest value)) :
    Realizes (m >>= next) (d >>= rest) := by
  intro build stream value hstream
  rw [bind_apply, Decoder.bind_eq, Decoder.run_bind]
  refine (h build stream value hstream).bind fun part p c hp => ?_
  obtain ⟨stream', value'⟩ := p
  obtain ⟨hvalid, rfl, rfl⟩ := hp
  exact hnext part build stream' _ hvalid

theorem ite {c : Prop} [Decidable c] {m m' : Action (ReadStream × δ) α} {d d' : Decoder Error α}
    (h : c → Realizes m d) (h' : ¬c → Realizes m' d') :
    Realizes (if c then m else m') (if c then d else d') := by
  split
  next hc => exact h hc
  next hc => exact h' hc

/-- A check that holds is no step. -/
theorem step {m : Action (ReadStream × δ) α} {next : α → Action (ReadStream × δ) β} {part : α}
    {d : Decoder Error β} (hm : ∀ profile p, m profile p = .ok part p)
    (h : Realizes (next part) d) : Realizes (m >>= next) d := by
  intro build stream value hstream
  rw [bind_apply, hm, Outcome.bind_ok]
  exact h build stream value hstream

end Realizes

namespace Stores

theorem store (value : δ) : Stores (store value) (.accept value) :=
  fun _ _ _ h => ⟨h, rfl, rfl⟩

theorem bind {m : Action (ReadStream × δ) α} {next : α → Action (ReadStream × δ) Unit}
    {d : Decoder Error α} {rest : α → Decoder Error δ} (h : Realizes m d)
    (hnext : ∀ value, Stores (next value) (rest value)) : Stores (m >>= next) (d >>= rest) := by
  intro build stream value hstream
  have hmatch := h build stream value hstream
  rw [bind_apply, Decoder.bind_eq, Decoder.run_bind]
  match hm : m build (stream, value), hd : d.run stream.cursor, hmatch with
  | .ok part p, .ok part' c, ⟨hpart, hvalid, hcursor, hvalue⟩ =>
      obtain ⟨stream', value'⟩ := p
      subst hpart hcursor hvalue
      exact hnext part build stream' value' hvalid
  | .err error p, _, .inr ⟨c, rfl, hp⟩ => exact ⟨rfl, hp⟩
  | .trap p, .trap c, hp => exact hp

theorem ite {c : Prop} [Decidable c] {m m' : Action (ReadStream × δ) Unit} {d d' : Decoder Error δ}
    (h : c → Stores m d) (h' : ¬c → Stores m' d') :
    Stores (if c then m else m') (if c then d else d') := by
  split
  next hc => exact h hc
  next hc => exact h' hc

theorem look {m : Action (ReadStream × δ) α} {next : α → Action (ReadStream × δ) Unit}
    {d : Decoder Error δ} (hm : ∀ profile p, ∃ value, m profile p = .ok value p)
    (h : ∀ value, Stores (next value) d) : Stores (m >>= next) d := by
  intro build stream value hstream
  obtain ⟨value', heq⟩ := hm build (stream, value)
  rw [bind_apply, heq, Outcome.bind_ok]
  exact h value' build stream value hstream

/-- A check that holds, and what it gives. -/
theorem step {m : Action (ReadStream × δ) α} {next : α → Action (ReadStream × δ) Unit} {part : α}
    {d : Decoder Error δ} (hm : ∀ profile p, m profile p = .ok part p) (h : Stores (next part) d) :
    Stores (m >>= next) d := by
  intro build stream value hstream
  rw [bind_apply, hm, Outcome.bind_ok]
  exact h build stream value hstream

theorem load {next : δ → Action (ReadStream × δ) Unit} {d : Decoder Error δ}
    (h : ∀ value, Stores (next value) d) : Stores (load >>= next) d :=
  look (fun _ p => ⟨p.2, rfl⟩) h

theorem inLocal_from {initial : κ} {m : Action (ReadStream × κ) Unit} {d : Decoder Error κ}
    (h : StoresFrom initial m d) : Realizes (δ := δ) (inLocal initial m) d := by
  intro build stream value hstream
  have hstored := h build stream hstream
  rcases hd : d.run stream.cursor with ⟨part, c⟩ | ⟨error, c⟩ | c
  · rw [hd] at hstored
    obtain ⟨p, hm, hvalid, hcursor, hpart⟩ := hstored.of_ok
    rw [inLocal_of_ok (show m build (stream, initial) = .ok () (p.1, p.2) from hm)]
    exact ⟨hpart, hvalid, hcursor, rfl⟩
  · rw [hd] at hstored
    obtain ⟨p, hm, hvalid, hcursor, -⟩ := hstored.of_err
    rw [inLocal_of_err (show m build (stream, initial) = .err error (p.1, p.2) from hm)]
    exact Or.inr ⟨c, rfl, hvalid, hcursor, rfl⟩
  · rw [hd] at hstored
    obtain ⟨p, hm, hvalid, hcursor, -⟩ := hstored.of_trap
    rw [inLocal_of_trap (show m build (stream, initial) = .trap (p.1, p.2) from hm)]
    exact ⟨hvalid, hcursor, rfl⟩

theorem inLocal (initial : κ) {m : Action (ReadStream × κ) Unit} {d : Decoder Error κ}
    (h : Stores m d) : Realizes (δ := δ) (Machine.inLocal initial m) d :=
  inLocal_from fun build stream => h build stream initial

theorem of_realizes {m : Action (ReadStream × Unit) Unit} {d : Decoder Error Unit}
    (h : Realizes m d) : Stores m d := by
  intro build stream value hstream
  have hmatch := h build stream value hstream
  match hm : m build (stream, value), hd : d.run stream.cursor, hmatch with
  | .ok () p, .ok () c, ⟨_, hp⟩ => exact hp
  | .err error p, _, .inr ⟨c, rfl, hp⟩ => exact ⟨rfl, hp⟩
  | .trap p, .trap c, hp => exact hp

/-- A refusal stores nothing, whatever it was to carry. -/
theorem of_refuse {m : Action (ReadStream × δ) Unit} {probe : U32} {error : Error}
    (h : Realizes m (.refuse probe error : Decoder Error Unit)) : Stores m (.refuse probe error) := by
  intro build stream value hstream
  have hmatch := h build stream value hstream
  rw [Decoder.run_refuse] at hmatch ⊢
  split
  next hprobe =>
    rw [if_pos hprobe] at hmatch
    match hm : m build (stream, value), hmatch with
    | .trap p, hp => exact hp
  next hprobe =>
    rw [if_neg hprobe] at hmatch
    match hm : m build (stream, value), hmatch with
    | .err error p, .inr ⟨c, hlatch, hp⟩ =>
        cases hlatch
        exact ⟨rfl, hp⟩

end Stores

end Serialize
