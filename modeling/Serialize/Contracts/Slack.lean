import Serialize.Float.Binary32
import Serialize.Reader.Twins
import Serialize.Reader.Wrapped

/-!
# Slack is never interpreted

Two runs of one client, on two buffers that agree on the packet, cannot be told apart: the bytes
behind the packet and the length of the buffer decide which window a read loads, and nothing else.
The one defect is the sum that asks whether a field passes the end. In the default release profile it
wraps for a field that starts within 32 bits of `2 ^ 64`, and the field is then read from the slack.
-/

namespace Serialize

open Machine BitString
open Binary32 (Arithmetic)
open ReadStream

variable {ω : Type} {left right : List U8} {bytes : Nat}

/-- Everything a client's run over a fresh stream shows: how it ended, what came back from every
call, what every variable holds, and what the stream shows in the end. There is no run where the
stream cannot be built. -/
def session [Arithmetic] (buffer : List U8) (bytes : Nat) (client : Client ω) (profile : Profile) :
    Option (Outcome Error (Observation × Log ω) (Result × ω)) :=
  match ReadStream.new buffer bytes profile () with
  | .ok stream () => some ((client.run profile (stream, Log.empty)).mapState fun p =>
      (Reader.observation p.1, p.2))
  | _ => none

/-! ### Streams over the same packet -/

theorem packet_atStart (buffer : List U8) (numBits : Nat) :
    (atStart buffer numBits).packet = (bitsOfOctets buffer).take numBits := rfl

theorem behind_atStart (buffer : List U8) (bytes : Nat) :
    (atStart buffer (bytes * 8)).behind = (wordAt buffer bytes).toNat := by
  rw [toNat_wordAt, behind, Nat.mul_comm]
  rfl

/-- Where 64 bits hold the bit count of the packet, the word behind it is the only slack there is. -/
theorem twins_of_word {profile : Profile} (hleft : bytes ≤ left.length)
    (hright : bytes ≤ right.length) (hpacket : left.take bytes = right.take bytes)
    (hfits : bytes * 8 < 2 ^ 64)
    (hword : profile = .wrapping → 2 ^ 61 - 4 ≤ bytes → wordAt left bytes = wordAt right bytes) :
    Twins profile (atStart left (bytes * 8)) (atStart right (bytes * 8)) where
  left_valid := atStart_valid (Nat.mul_mod_left _ _) (by omega) hfits
  right_valid := atStart_valid (Nat.mul_mod_left _ _) (by omega) hfits
  failed_eq := rfl
  numBits_eq := rfl
  bitsRead_eq := rfl
  packet_eq := by
    rw [packet_atStart, packet_atStart, Nat.mul_comm, ← bitsOfOctets_take, ← bitsOfOctets_take,
      hpacket]
  behind_eq hwrapping hover := by
    have hover' : 2 ^ 64 ≤ bytes * 8 + 32 := hover
    rw [behind_atStart, behind_atStart, hword hwrapping (by omega)]

/-- Where the bit count has wrapped, the buffers share what lies behind the packet the stream sees. -/
theorem twins_of_long {profile : Profile} (hleft : bytes ≤ left.length)
    (hright : bytes ≤ right.length) (hpacket : left.take bytes = right.take bytes)
    (hlong : 2 ^ 61 ≤ bytes) :
    Twins profile (atStart left (bytes * 8 % 2 ^ 64)) (atStart right (bytes * 8 % 2 ^ 64)) := by
  have hlt : bytes * 8 % 2 ^ 64 < 2 ^ 64 := Nat.mod_lt _ (by decide)
  have hover : bytes * 8 % 2 ^ 64 + 32 ≤ 8 * bytes := by omega
  have hbits : ∀ n, n ≤ 8 * bytes → (bitsOfOctets left).take n = (bitsOfOctets right).take n := by
    intro n hn
    rw [← Nat.min_eq_left hn, ← List.take_take, ← List.take_take, ← bitsOfOctets_take,
      ← bitsOfOctets_take, hpacket]
  exact {
    left_valid := atStart_valid (by omega) (by omega) hlt
    right_valid := atStart_valid (by omega) (by omega) hlt
    failed_eq := rfl
    numBits_eq := rfl
    bitsRead_eq := rfl
    packet_eq := hbits (bytes * 8 % 2 ^ 64) (by omega)
    behind_eq := fun _ _ => by
      show ofBits (((bitsOfOctets left).drop (bytes * 8 % 2 ^ 64)).take 32)
        = ofBits (((bitsOfOctets right).drop (bytes * 8 % 2 ^ 64)).take 32)
      rw [List.take_drop, List.take_drop, hbits _ hover] }

section Sessions

variable [Arithmetic]

/-- Twins give the same session. -/
theorem session_of_twins {profile : Profile} {numBits : Nat} (hleft : bytes ≤ left.length)
    (hright : bytes ≤ right.length)
    (hmul : (checkedMul 64 bytes 8 : Action Unit Nat) profile () = .ok numBits ())
    (htwins : Twins profile (atStart left numBits) (atStart right numBits)) (client : Client ω) :
    session left bytes client profile = session right bytes client profile := by
  have hmatch := (twins_mirrors profile).run client (atStart left numBits, Log.empty)
    (atStart right numBits, Log.empty) ⟨htwins, rfl⟩
  rw [session, session, new_to hleft hmul, new_to hright hmul]
  refine congrArg some (hmatch.mapState_eq ?_)
  rintro ⟨stream, log⟩ ⟨stream', _⟩ ⟨hstream, rfl⟩
  rw [(twins_mirrors profile).observation hstream]

/-! ### A field over the end of the packet -/

/-- Read a word and leave it in the object. -/
def readWord : Client U32 := .call (.bits 32) 0 fun result word => .done result word

/-- Read `count` bytes and then a word. -/
def peek (count : Nat) : Client U32 :=
  .call (.bytes count) (List.Vector.replicate count 0) fun _ _ => readWord

/-- Behind the last byte the default release profile reads the slack. -/
theorem session_peek {buffer : List U8} (hle : bytes ≤ buffer.length) (hlarge : 2 ^ 61 - 4 ≤ bytes)
    (hfits : bytes < 2 ^ 61) : ∃ shown, session buffer bytes (peek bytes) .wrapping
      = some (.ok (.ok (), wordAt buffer bytes) shown) := by
  set stream := atStart buffer (bytes * 8) with hstream
  have hvalid : stream.Valid := atStart_valid (Nat.mul_mod_left _ _) (by omega) (by omega)
  have hstop : 0 + 8 * bytes ≤ bytes * 8 := by omega
  have hbytes := serializeBytes_of_le .wrapping hvalid rfl (Nat.zero_mod _) hstop
    (List.Vector.replicate bytes 0)
  have hword := serializeBits_wraps (hvalid.moved hstop) rfl
    (show (0 + 8 * bytes) % 8 = 0 by omega) (show 2 ^ 64 ≤ 0 + 8 * bytes + 32 by omega) 0
  obtain ⟨log, hfirst⟩ : ∃ log, (peek bytes).run .wrapping (stream, Log.empty)
      = readWord.run .wrapping (stream.moveTo (0 + 8 * bytes), log) :=
    Client.run_call_of_ok hbytes Log.empty
  obtain ⟨log', hsecond⟩ : ∃ log', readWord.run .wrapping (stream.moveTo (0 + 8 * bytes), log)
      = .ok (.ok (), wordAt buffer ((0 + 8 * bytes) / 8))
          (stream.moveTo (0 + 8 * bytes + 32 - 2 ^ 64), log') :=
    Client.run_call_of_ok hword log
  rw [show (0 + 8 * bytes) / 8 = bytes by omega] at hsecond
  rw [session, new_wrapping hle, Nat.mod_eq_of_lt (by omega), ← hstream]
  dsimp only
  rw [hfirst, hsecond]
  exact ⟨_, rfl⟩

/-- Sessions that cannot be told apart have the same word behind such a packet. -/
theorem word_of_sessions (hleft : bytes ≤ left.length) (hright : bytes ≤ right.length)
    (hlarge : 2 ^ 61 - 4 ≤ bytes) (hfits : bytes < 2 ^ 61)
    (hsame : session left bytes (peek bytes) .wrapping = session right bytes (peek bytes) .wrapping) :
    wordAt left bytes = wordAt right bytes := by
  obtain ⟨shown, hpeekLeft⟩ := session_peek hleft hlarge hfits
  obtain ⟨shown', hpeekRight⟩ := session_peek hright hlarge hfits
  rw [hpeekLeft, hpeekRight] at hsame
  exact congrArg Prod.snd (Outcome.ok.inj (Option.some.inj hsame)).1

/-- **Slack is never interpreted,** but for the word behind a packet within 32 bits of `2 ^ 64` in
the default release profile: on two buffers that agree on the packet every client is shown the same
just in case they agree on that word as well, or there is no sum to wrap. -/
theorem slack_unread_iff (hleft : bytes ≤ left.length) (hright : bytes ≤ right.length)
    (hpacket : left.take bytes = right.take bytes) (profile : Profile) :
    (∀ (ω : Type) (client : Client ω),
      session left bytes client profile = session right bytes client profile) ↔
    (profile = .wrapping → 2 ^ 61 - 4 ≤ bytes → bytes < 2 ^ 61 →
      wordAt left bytes = wordAt right bytes) := by
  constructor
  · rintro hsame rfl hlarge hfits
    exact word_of_sessions hleft hright hlarge hfits (hsame U32 (peek bytes))
  · intro hword ω client
    by_cases hfits : bytes * 8 < 2 ^ 64
    · exact session_of_twins hleft hright (checkedMul_of hfits profile ())
        (twins_of_word hleft hright hpacket hfits
          fun hwrapping hlarge => hword hwrapping hlarge (by omega)) client
    · cases profile with
      | trapping build =>
          have htrap := checkedMul_of_not hfits build (ε := Error) ()
          rw [session, session, new_of_trap hleft htrap, new_of_trap hright htrap]
      | wrapping =>
          exact session_of_twins hleft hright (checkedMul_wrapping 64 bytes 8 ())
            (twins_of_long hleft hright hpacket (by omega)) client

end Sessions

/-- Three bits of one byte of packet, read through a window of nothing else and through one of eight
bytes of slack. -/
theorem slack_unread_one_byte :
    session [0x5A] 1 (.call (.bits 3) 0 fun result value => .done result value) .wrapping
      = session (0x5A :: List.replicate 8 0xFF) 1
          (.call (.bits 3) 0 fun result value => .done result value) .wrapping :=
  (slack_unread_iff (by decide) (by decide) rfl .wrapping).mpr
    (fun _ hlarge _ => absurd hlarge (by decide)) U32 _

/-- One byte of slack behind the largest packet is read. -/
theorem slack_read :
    ¬∀ (left right : List U8) (bytes : Nat) (profile : Profile), bytes ≤ left.length →
      bytes ≤ right.length → left.take bytes = right.take bytes →
      ∀ (ω : Type) (client : Client ω),
        session left bytes client profile = session right bytes client profile := by
  intro hunread
  have hlength : (List.replicate (2 ^ 61 - 1) (0 : U8)).length = 2 ^ 61 - 1 := List.length_replicate
  have hright : 2 ^ 61 - 1 ≤ (List.replicate (2 ^ 61 - 1) (0 : U8) ++ [0xA5]).length := by
    rw [List.length_append, hlength]
    exact Nat.le_add_right _ _
  have hword := word_of_sessions (le_of_eq hlength.symm) hright (by decide) (by decide)
    (hunread (List.replicate (2 ^ 61 - 1) 0) (List.replicate (2 ^ 61 - 1) 0 ++ [0xA5]) (2 ^ 61 - 1)
      .wrapping (le_of_eq hlength.symm) hright (by rw [List.take_left' hlength, List.take_of_length_le
        (le_of_eq hlength)]) U32 _)
  rw [wordAt, wordAt, List.drop_left' hlength, List.drop_of_length_le (le_of_eq hlength)] at hword
  exact absurd hword (by decide)

end Serialize
