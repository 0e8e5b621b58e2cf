import Serialize.Format.Runs

/-!
# A relative integer over a cursor

The flags of a relative integer name a tier, and the bits behind them are its payload. What a reader
is to make of a payload is said here in plain integers, with the reason for every refusal, and the
decoder does it.
-/

namespace Serialize

open Machine BitString Decode
open Decode.Decoder (run_bind)

/-- The tier a string of flags names and the bits behind the flags: a bounded tier by the first flag
that is set, the absolute one by all of them clear. -/
def tierOf {τ : Type} : List τ → List Bool → Option (Option τ × List Bool)
  | [], bits => some (none, bits)
  | _ :: _, [] => none
  | tier :: _, true :: bits => some (some tier, bits)
  | _ :: rest, false :: bits => tierOf rest bits

/-- All the bounded tiers, the one-bit one first. -/
def relativeLadder : List (Int × Int) := (1, 1) :: relativeTiers

def payloadWidth : Option (Int × Int) → Nat
  | some (low, high) => Nat.size (high - low).toNat
  | none => 32

def PastSpan : Option (Int × Int) → Nat → Prop
  | some (low, high), offset => high - low < offset
  | none, _ => False

instance : (tier : Option (Int × Int)) → (offset : Nat) → Decidable (PastSpan tier offset)
  | some (low, high), offset => inferInstanceAs (Decidable (high - low < offset))
  | none, _ => inferInstanceAs (Decidable False)

/-- The value a payload reconstructs to. -/
def payloadValue (previous : Int) : Option (Int × Int) → Nat → Int
  | some (low, _), offset => previous + (low + offset)
  | none, offset => offset

def RelativeDomain (previous current : Int) : Prop := previous < current ∧ current ≤ i32Max

instance (previous current : Int) : Decidable (RelativeDomain previous current) :=
  inferInstanceAs (Decidable (_ ∧ _))

/-- Why the payload of a tier is refused, if it is. -/
def payloadRefusal (previous : Int) (tier : Option (Int × Int)) (payload : List Bool) : Option Error :=
  let offset := ofBits (payload.take (payloadWidth tier))
  let value := payloadValue previous tier offset
  if payload.length < payloadWidth tier then some .pastEnd
  else if PastSpan tier offset ∨ ¬RelativeDomain previous value then some .valueOutOfRange
  else if tier = none ∧ value - previous ≤ 69914 then some .nonCanonical
  else none

/-- Why a relative integer is refused, if it is. -/
def relativeRefusal (previous : Int) (bits : List Bool) : Option Error :=
  match tierOf relativeLadder bits with
  | none => some .pastEnd
  | some (tier, payload) => payloadRefusal previous tier payload

/-- Where the payload of the named tier ends. -/
def relativeEnd (c : Cursor Error) : Nat :=
  match tierOf relativeLadder c.remaining with
  | none => c.position
  | some (tier, payload) => c.limit - payload.length + payloadWidth tier

namespace Decoders

variable {previous : I32} {c : Cursor Error}

/-! ### Flags -/

theorem bool_grouped : bool.Grouped 1 fun x => decide (BitVec.ofNat 32 x ≠ 0) :=
  (@group_grouped 1 (by decide)).map _

theorem bool_run_nil (hlive : c.Live) (hlimit : c.limit + 1 < 2 ^ 64) (h : c.remaining = []) :
    bool.run c = .err .pastEnd { c with failed := some .pastEnd } := by
  have hshort : c.remaining.length < 1 := by simp [h]
  have hzero : c.remaining.length / 32 = 0 := by simp [h]
  have hfits : ¬2 ^ 64 ≤ c.position + min (32 * (0 + 1)) 1 := by
    rw [Cursor.limit] at hlimit
    omega
  rw [bool_grouped.run_of_lt hlive (by omega) hshort, hzero, if_neg hfits]
  rfl

theorem bool_run_cons {flag : Bool} {bits : List Bool} (hlive : c.Live) (hlimit : c.limit < 2 ^ 64)
    (h : c.remaining = flag :: bits) : bool.run c = .ok flag (c.advance 1) := by
  have hflag : decide (BitVec.ofNat 32 (ofBits [flag]) ≠ 0) = flag := by
    cases flag <;> decide
  rw [bool_grouped.run_of_le hlive hlimit (by simp [h]), h, List.take_succ_cons, List.take_zero, hflag]

/-! ### Payloads -/

theorem relative_run (hlimit : c.limit < 2 ^ 64) (reconstructed : Int) :
    (relative previous reconstructed).run c
      = if intRelativeInDomain previous reconstructed then .ok (BitVec.ofInt 32 reconstructed) c
        else c.latch .valueOutOfRange := by
  rw [relative]
  split
  · rfl
  · exact refuseWith_run hlimit _

theorem inDomain_iff (hprevious : 0 ≤ previous.toInt) (reconstructed : Int) :
    intRelativeInDomain previous reconstructed ↔ RelativeDomain previous.toInt reconstructed := by
  rw [intRelativeInDomain, RelativeDomain]
  omega

/-- What the decoder does once it knows the tier. -/
def tierPayload (previous : I32) : Option (U32 × I32 × I32) → Decoder Error I32
  | some (_, low, high) =>
      (int low high).bind fun difference => relative previous (previous.toInt + difference.toInt)
  | none => absolute previous

theorem payloadWidth_some {low high : I32} (h : low.toInt ≤ high.toInt) :
    payloadWidth (some (low.toInt, high.toInt)) = Nat.size (high - low).toNat := by
  rw [payloadWidth, Wrapping.toNat_sub h]

theorem absolute_eq (previous : I32) : absolute previous = (group 32).bind fun value =>
    if ¬intRelativeInDomain previous value.toNat then refuseWith .valueOutOfRange
    else if (value.toNat : Int) - previous.toInt ≤ 69914 then refuseWith .nonCanonical
    else .accept (BitVec.ofInt 32 value.toNat) := rfl

theorem tierPayload_traps {tier : Option (U32 × I32 × I32)}
    (htier : ∀ bounds ∈ tier, bounds.2.1.toInt < bounds.2.2.toInt) (hlive : c.Live)
    (hlimit : c.limit < 2 ^ 64) (h : 2 ^ 64 ≤ c.position + payloadWidth (tier.map tierBounds)) :
    ∃ c', (tierPayload previous tier).run c = .trap c' := by
  rw [Cursor.limit] at hlimit
  cases tier with
  | some bounds =>
    obtain ⟨threshold, low, high⟩ := bounds
    have horder : low.toInt < high.toInt := htier _ rfl
    have hne : low ≠ high := fun heq => horder.ne (congrArg BitVec.toInt heq)
    have hsize : Nat.size (high - low).toNat ≤ 32 := size_sub_zero_le _
    rw [Option.map_some, tierBounds, payloadWidth_some horder.le] at h
    have hstop : 2 ^ 64 ≤ c.stop (Nat.size (high - low).toNat) := by
      rw [Cursor.stop_of_lt hlive (by omega)]
      omega
    obtain ⟨c', hrun⟩ := spanned_run_trap (int_offset hne) hlimit hstop
    rw [tierPayload, run_bind, int, ranged_of_lt horder, hrun]
    exact ⟨c', rfl⟩
  | none =>
    rw [Option.map_none, payloadWidth] at h
    have hstop : 2 ^ 64 ≤ c.stop 32 := by
      rw [Cursor.stop_of_lt hlive (by omega)]
      omega
    obtain ⟨c', hrun⟩ := group_grouped_32.run_eq_trap hlimit hstop
    rw [tierPayload, absolute_eq, run_bind, hrun]
    exact ⟨c', rfl⟩

theorem bounded_settles (hprevious : 0 ≤ previous.toInt) {threshold : U32} {low high : I32}
    (horder : low.toInt < high.toInt) (hlive : c.Live) (hlimit : c.limit < 2 ^ 64)
    (h : c.position + payloadWidth (some (low.toInt, high.toInt)) < 2 ^ 64) :
    SettlesAs (payloadRefusal previous.toInt (some (low.toInt, high.toInt)) c.remaining)
      ((tierPayload previous (some (threshold, low, high))).run c) := by
  have hne : low ≠ high := fun heq => horder.ne (congrArg BitVec.toInt heq)
  have hspan := Wrapping.toNat_sub horder.le
  have hsize : Nat.size (high - low).toNat ≤ 32 := size_sub_zero_le _
  rw [payloadRefusal, tierPayload, run_bind, int, ranged_of_lt horder]
  rw [payloadWidth_some horder.le] at h ⊢
  split
  next hshort =>
    have hstop : c.stop (Nat.size (high - low).toNat) < 2 ^ 64 := by
      rw [Cursor.stop_of_lt hlive hshort]
      omega
    obtain ⟨taken, hrun⟩ := spanned_run_short (int_offset hne) hlive hlimit hshort hstop
    rw [hrun]
    exact ⟨rfl, rfl⟩
  next hle =>
  have hle := Nat.not_lt.mp hle
  have hlive' : (c.advance (Nat.size (high - low).toNat)).Live := hlive
  have hlimit' := limit_advance hlimit hle
  by_cases hpast : (high - low).toNat < ofBits (c.remaining.take (Nat.size (high - low).toNat))
  · have hpast' : PastSpan (some (low.toInt, high.toInt))
        (ofBits (c.remaining.take (Nat.size (high - low).toNat))) := by
      rw [PastSpan]
      omega
    rw [if_pos (.inl hpast'), spanned_run_past (int_offset hne) hsize hlive hlimit hle hpast]
    exact ⟨rfl, rfl⟩
  · have hpast' : ¬PastSpan (some (low.toInt, high.toInt))
        (ofBits (c.remaining.take (Nat.size (high - low).toNat))) := by
      rw [PastSpan]
      omega
    have hvalue := toInt_offset_add (by decide) horder.le (Nat.not_lt.mp hpast)
    rw [spanned_run_value (int_offset hne) hsize hlive hlimit hle (Nat.not_lt.mp hpast),
      Outcome.bind_ok, hvalue, relative_run hlimit', payloadValue]
    by_cases hdomain : intRelativeInDomain previous (previous.toInt + (low.toInt
        + ofBits (c.remaining.take (Nat.size (high - low).toNat))))
    · have hdomain' := (inDomain_iff hprevious _).mp hdomain
      rw [if_neg (not_or.mpr ⟨hpast', not_not.mpr hdomain'⟩), if_neg (by simp), if_pos hdomain]
      exact hlive'
    · have hdomain' := mt (inDomain_iff hprevious _).mpr hdomain
      rw [if_pos (.inr hdomain'), if_neg hdomain]
      exact latch_settles hlive' _

theorem absolute_settles (hprevious : 0 ≤ previous.toInt) (hlive : c.Live)
    (hlimit : c.limit < 2 ^ 64) (h : c.position + 32 < 2 ^ 64) :
    SettlesAs (payloadRefusal previous.toInt none c.remaining) ((absolute previous).run c) := by
  rw [payloadRefusal, payloadWidth, absolute_eq, run_bind]
  split
  next hshort =>
    have hfits : ¬2 ^ 64 ≤ c.position + min (32 * (c.remaining.length / 32 + 1)) 32 := by omega
    rw [group_grouped_32.run_of_lt hlive hlimit hshort, if_neg hfits]
    exact ⟨rfl, rfl⟩
  next hle =>
  have hle := Nat.not_lt.mp hle
  have hlive' : (c.advance 32).Live := hlive
  have hlimit' := limit_advance hlimit hle
  have hnat : (BitVec.ofNat 32 (ofBits (c.remaining.take 32))).toNat = ofBits (c.remaining.take 32) := by
    rw [BitVec.toNat_ofNat, Nat.mod_eq_of_lt (ofBits_take_lt hle)]
  rw [group_grouped_32.run_of_le hlive hlimit hle, Outcome.bind_ok, hnat, payloadValue]
  by_cases hdomain : intRelativeInDomain previous (ofBits (c.remaining.take 32))
  · have hdomain' := (inDomain_iff hprevious _).mp hdomain
    have hinside : ¬(PastSpan none (ofBits (c.remaining.take 32))
        ∨ ¬RelativeDomain previous.toInt (ofBits (c.remaining.take 32))) :=
      not_or.mpr ⟨not_false, not_not.mpr hdomain'⟩
    rw [if_neg hinside, if_neg (not_not.mpr hdomain)]
    by_cases hnear : (ofBits (c.remaining.take 32) : Int) - previous.toInt ≤ 69914
    · rw [if_pos ⟨rfl, hnear⟩, if_pos hnear, refuseWith_run hlimit']
      exact latch_settles hlive' _
    · rw [if_neg (fun h => hnear h.2), if_neg hnear]
      exact hlive'
  · have hdomain' := mt (inDomain_iff hprevious _).mpr hdomain
    rw [if_pos (.inr hdomain'), if_pos hdomain, refuseWith_run hlimit']
    exact latch_settles hlive' _

theorem tierPayload_settles (hprevious : 0 ≤ previous.toInt) {tier : Option (U32 × I32 × I32)}
    (htier : ∀ bounds ∈ tier, bounds.2.1.toInt < bounds.2.2.toInt) (hlive : c.Live)
    (hlimit : c.limit < 2 ^ 64) (h : c.position + payloadWidth (tier.map tierBounds) < 2 ^ 64) :
    SettlesAs (payloadRefusal previous.toInt (tier.map tierBounds) c.remaining)
      ((tierPayload previous tier).run c) := by
  cases tier with
  | some bounds => exact bounded_settles hprevious (htier _ rfl) hlive hlimit h
  | none => exact absolute_settles hprevious hlive hlimit h

/-! ### The ladder -/

/-- The place behind the flags. -/
def behind (c : Cursor Error) (bits : List Bool) : Cursor Error :=
  { c with remaining := bits, position := c.limit - bits.length }

theorem behind_self (c : Cursor Error) : behind c c.remaining = c := by
  have hposition : c.limit - c.remaining.length = c.position := Nat.add_sub_cancel _ _
  rw [behind, hposition]

theorem advance_one {flag : Bool} {bits : List Bool} (h : c.remaining = flag :: bits) :
    c.advance 1 = behind c bits := by
  have hposition : c.limit - bits.length = c.position + 1 := by
    rw [Cursor.limit, h, List.length_cons]
    omega
  rw [behind, hposition, Cursor.advance, h]
  rfl

theorem limit_behind {bits : List Bool} (h : bits.length ≤ c.limit) : (behind c bits).limit = c.limit :=
  Nat.sub_add_cancel h

theorem tierOf_length {τ : Type} {ladder : List τ} {bits payload : List Bool} {tier : Option τ}
    (h : tierOf ladder bits = some (tier, payload)) : payload.length ≤ bits.length := by
  fun_induction tierOf ladder bits with
  | case1 bits => cases h; exact le_refl _
  | case2 => cases h
  | case3 bounds rest bits => cases h; exact Nat.le_succ _
  | case4 bounds rest bits ih => exact (ih h).trans (Nat.le_succ _)

theorem tierOf_map {τ υ : Type} (f : τ → υ) (ladder : List τ) (bits : List Bool) :
    tierOf (ladder.map f) bits = (tierOf ladder bits).map fun named => (named.1.map f, named.2) := by
  fun_induction tierOf ladder bits with
  | case1 bits => rfl
  | case2 => rfl
  | case3 => rfl
  | case4 bounds rest bits ih => exact ih

theorem tiers_run (previous : I32) (ladder : List (U32 × I32 × I32)) (hlive : c.Live)
    (hlimit : c.limit + 1 < 2 ^ 64) : (∃ c', tierOf ladder c.remaining = none
        ∧ (tiers previous ladder).run c = .err .pastEnd c' ∧ c'.failed = some .pastEnd)
      ∨ ∃ tier payload, tierOf ladder c.remaining = some (tier, payload)
        ∧ (∀ bounds ∈ tier, bounds ∈ ladder)
        ∧ (tiers previous ladder).run c = (tierPayload previous tier).run (behind c payload) := by
  induction ladder generalizing c with
  | nil => exact .inr ⟨none, c.remaining, by simp [tierOf], by simp, by rw [behind_self]; rfl⟩
  | cons bounds rest ih =>
    obtain ⟨threshold, low, high⟩ := bounds
    have hrun : (tiers previous ((threshold, low, high) :: rest)).run c
        = (bool.run c).bind fun inBucket c' => (if inBucket = true then
          (int low high).bind fun difference =>
            relative previous (previous.toInt + difference.toInt)
          else tiers previous rest : Decoder Error I32).run c' := run_bind _ _ _
    rcases hbits : c.remaining with - | ⟨_ | _, bits⟩
    · rw [bool_run_nil hlive hlimit hbits] at hrun
      exact .inl ⟨_, rfl, hrun, rfl⟩
    · rw [bool_run_cons hlive (by omega) hbits, Outcome.bind_ok, if_neg Bool.false_ne_true] at hrun
      have hlive' : (c.advance 1).Live := hlive
      have hremaining : (c.advance 1).remaining = bits := by rw [Cursor.advance, hbits]; rfl
      have hlimit' : (c.advance 1).limit = c.limit :=
        (Cursor.reaches_advance (by simp [hbits])).limit_eq
      have hbehind : ∀ payload, behind (c.advance 1) payload = behind c payload := by
        intro payload
        rw [behind, hlimit']
        rfl
      rcases ih hlive' (by rw [hlimit']; exact hlimit) with
        ⟨c', hnone, hrest, hfailed⟩ | ⟨tier, payload, htier, hmem, hrest⟩
      · rw [hremaining] at hnone
        exact .inl ⟨c', hnone, hrun.trans hrest, hfailed⟩
      · rw [hremaining] at htier
        rw [hbehind] at hrest
        exact .inr ⟨tier, payload, htier, fun bounds hbounds =>
          List.mem_cons_of_mem _ (hmem bounds hbounds), hrun.trans hrest⟩
    · rw [bool_run_cons hlive (by omega) hbits, Outcome.bind_ok, if_pos rfl, advance_one hbits] at hrun
      exact .inr ⟨some (threshold, low, high), bits, rfl, by simp, hrun⟩

theorem relativeTiers_eq : relativeTiers = buckets.map tierBounds := rfl

theorem buckets_order : ∀ bounds ∈ buckets, bounds.2.1.toInt < bounds.2.2.toInt := by
  unfold buckets
  simp only [List.forall_mem_cons]
  exact ⟨by decide, by decide, by decide, by decide, by decide, List.forall_mem_nil _⟩

theorem intRelative_eq (hprevious : 0 ≤ previous.toInt) : intRelative previous = bool.bind fun oneBit =>
    if oneBit = true then relative previous (previous.toInt + 1) else tiers previous buckets := by
  have hsle : (0 : I32).sle previous = true := BitVec.sle_iff_toInt_le.mpr hprevious
  rw [intRelative, Decoder.bind_eq, declare_bind_run hsle]
  rfl

theorem oneBit_refusal (previous : Int) (payload : List Bool) :
    payloadRefusal previous (some (1, 1)) payload
      = if RelativeDomain previous (previous + 1) then none else some .valueOutOfRange := by
  have hwidth : payloadWidth (some (1, 1)) = 0 := by simp [payloadWidth]
  have hspan : ¬PastSpan (some (1, 1)) 0 := by simp [PastSpan]
  have hvalue : payloadValue previous (some (1, 1)) 0 = previous + 1 := by simp [payloadValue]
  rw [payloadRefusal, hwidth, List.take_zero, ofBits_nil, if_neg (Nat.not_lt_zero _), hvalue]
  by_cases hdomain : RelativeDomain previous (previous + 1)
  · rw [if_neg (not_or.mpr ⟨hspan, not_not.mpr hdomain⟩), if_pos hdomain, if_neg (by simp)]
  · rw [if_pos (.inr hdomain), if_neg hdomain]

/-- A relative integer past the one-bit tier is refused before its payload, or is its payload. -/
theorem intRelative_run_false {bits : List Bool} (hprevious : 0 ≤ previous.toInt) (hlive : c.Live)
    (hlimit : c.limit + 1 < 2 ^ 64) (hbits : c.remaining = false :: bits) :
    (∃ c', tierOf relativeLadder c.remaining = none
        ∧ (intRelative previous).run c = .err .pastEnd c' ∧ c'.failed = some .pastEnd)
      ∨ ∃ tier payload, tierOf relativeLadder c.remaining = some (tier.map tierBounds, payload)
        ∧ (∀ bounds ∈ tier, bounds.2.1.toInt < bounds.2.2.toInt)
        ∧ (intRelative previous).run c = (tierPayload previous tier).run (behind c payload) := by
  have hlive' : (c.advance 1).Live := hlive
  have hlimit' : (c.advance 1).limit = c.limit :=
    (Cursor.reaches_advance (by simp [hbits])).limit_eq
  have hremaining : (c.advance 1).remaining = bits := by rw [Cursor.advance, hbits]; rfl
  have hrun : (intRelative previous).run c = (tiers previous buckets).run (c.advance 1) := by
    rw [intRelative_eq hprevious, run_bind, bool_run_cons hlive (by omega) hbits, Outcome.bind_ok,
      if_neg Bool.false_ne_true]
  have htier : tierOf relativeLadder c.remaining
      = (tierOf buckets bits).map fun named => (named.1.map tierBounds, named.2) := by
    rw [hbits, relativeLadder, tierOf, relativeTiers_eq, tierOf_map]
  rcases tiers_run previous buckets hlive' (by rw [hlimit']; exact hlimit) with
    ⟨c', hnone, hrest, hfailed⟩ | ⟨tier, payload, hsome, hmem, hrest⟩
  · rw [hremaining] at hnone
    rw [hnone] at htier
    exact .inl ⟨c', htier, hrun.trans hrest, hfailed⟩
  · rw [hremaining] at hsome
    rw [hsome] at htier
    have hbehind : behind (c.advance 1) payload = behind c payload := by
      rw [behind, hlimit']
      rfl
    rw [hbehind] at hrest
    exact .inr ⟨tier, payload, htier, fun bounds hbounds => buckets_order _ (hmem bounds hbounds),
      hrun.trans hrest⟩

/-- **A relative integer is refused for its reason or accepted**, where its payload ends below 64
bits. -/
theorem intRelative_settles (hprevious : 0 ≤ previous.toInt) (hlive : c.Live)
    (hlimit : c.limit + 1 < 2 ^ 64) (hend : relativeEnd c < 2 ^ 64) :
    SettlesAs (relativeRefusal previous.toInt c.remaining) ((intRelative previous).run c) := by
  have hlimit' : c.limit < 2 ^ 64 := by omega
  rcases hbits : c.remaining with - | ⟨_ | _, bits⟩
  · rw [intRelative_eq hprevious, run_bind, bool_run_nil hlive hlimit hbits]
    exact ⟨rfl, rfl⟩
  · rw [← hbits]
    rcases intRelative_run_false hprevious hlive hlimit hbits with
      ⟨c', hnone, hrun, hfailed⟩ | ⟨tier, payload, htier, horder, hrun⟩
    · rw [relativeRefusal, hnone, hrun]
      exact ⟨rfl, hfailed⟩
    · have hle := (tierOf_length htier).trans (Nat.le_add_left _ c.position)
      rw [relativeEnd, htier] at hend
      rw [relativeRefusal, htier, hrun]
      have hlive' : (behind c payload).Live := hlive
      have hbehind : (behind c payload).limit < 2 ^ 64 := by
        rw [limit_behind hle]
        exact hlimit'
      exact tierPayload_settles hprevious horder hlive' hbehind hend
  · have hlive' : (c.advance 1).Live := hlive
    have hadvance : (c.advance 1).limit < 2 ^ 64 := limit_advance hlimit' (by simp [hbits])
    rw [intRelative_eq hprevious, run_bind, bool_run_cons hlive hlimit' hbits, Outcome.bind_ok,
      if_pos rfl, relative_run hadvance, relativeRefusal, relativeLadder, tierOf]
    dsimp only
    rw [oneBit_refusal]
    by_cases hdomain : intRelativeInDomain previous (previous.toInt + 1)
    · rw [if_pos hdomain, if_pos ((inDomain_iff hprevious _).mp hdomain)]
      exact hlive'
    · rw [if_neg hdomain, if_neg (mt (inDomain_iff hprevious _).mpr hdomain)]
      exact latch_settles hlive' _

theorem intRelative_traps (hprevious : 0 ≤ previous.toInt) (hlive : c.Live)
    (hlimit : c.limit + 1 < 2 ^ 64) (hend : 2 ^ 64 ≤ relativeEnd c) :
    ∃ c', (intRelative previous).run c = .trap c' := by
  have hlimit' : c.limit < 2 ^ 64 := by omega
  have hposition := position_lt hlimit'
  rcases hbits : c.remaining with - | ⟨_ | _, bits⟩
  · rw [relativeEnd, hbits, relativeLadder, tierOf] at hend
    exact absurd hposition (Nat.not_lt.mpr hend)
  · rcases intRelative_run_false hprevious hlive hlimit hbits with
      ⟨c', hnone, -⟩ | ⟨tier, payload, htier, horder, hrun⟩
    · rw [relativeEnd, hnone] at hend
      exact absurd hposition (Nat.not_lt.mpr hend)
    · have hle := (tierOf_length htier).trans (Nat.le_add_left _ c.position)
      rw [relativeEnd, htier] at hend
      rw [hrun]
      have hlive' : (behind c payload).Live := hlive
      have hbehind : (behind c payload).limit < 2 ^ 64 := by
        rw [limit_behind hle]
        exact hlimit'
      exact tierPayload_traps horder hlive' hbehind hend
  · have hwidth : payloadWidth (some (1, 1)) = 0 := by simp [payloadWidth]
    rw [relativeEnd, hbits, relativeLadder, tierOf] at hend
    dsimp only at hend
    rw [hwidth] at hend
    omega

end Decoders

end Serialize
