import Serialize.Decode.Decoder
import Serialize.Bits.Octets
import Mathlib.Data.Vector.Basic

/-!
# Decoders that accept exactly a code

A decoder accepts exactly a code when, at every position and whatever follows, it accepts a bit
string just in case the string starts with the code of the value it gives. Such a decoder inverts
its code, and leaves no second encoding of any value. The rules below build the code of a decoder
along the decoder; the code may depend on the position, as alignment does.
-/

namespace Decode

open BitString

variable {ε α β : Type}

namespace Decoder

/-- The decoder takes the next `n` bits, whatever they are, and gives what `f` makes of the number
they spell. -/
def Takes (d : Decoder ε α) (n : Nat) (f : Nat → α) : Prop :=
  ∀ position bits, d.parse position bits
    = if bits.length < n then none
      else some (f (ofBits (bits.take n)), position + n, bits.drop n)

namespace Takes

variable {d : Decoder ε α} {m n : Nat} {f : Nat → α}

theorem accept (value : α) : (accept value : Decoder ε α).Takes 0 fun _ => value := by
  intro position bits
  rw [parse_accept, if_neg (Nat.not_lt_zero _), List.drop_zero, Nat.add_zero]

theorem congr (h : d.Takes n f) {g : Nat → α} (hfg : ∀ x, x < 2 ^ n → f x = g x) : d.Takes n g := by
  intro position bits
  rw [h position bits]
  split
  · rfl
  · next hle => rw [hfg _ (ofBits_take_lt (Nat.not_lt.mp hle))]

/-- Fields in a row are one field: the first is its low part, the rest its high part. -/
theorem bind (h : d.Takes m f) {next : α → Decoder ε β} {g : Nat → Nat → β}
    (hnext : ∀ low, low < 2 ^ m → (next (f low)).Takes n (g low)) :
    (d.bind next).Takes (m + n) fun x => g (x % 2 ^ m) (x / 2 ^ m) := by
  intro position bits
  rw [parse_bind, h position bits]
  rcases Nat.lt_or_ge bits.length m with hshort | hle
  · rw [if_pos hshort, if_pos (by omega)]
    rfl
  · have hlength : (bits.take m).length = m := by
      rw [List.length_take]
      omega
    have hlow := ofBits_take_lt hle
    have hsplit : bits.take (m + n) = bits.take m ++ (bits.drop m).take n := List.take_add
    rw [if_neg (Nat.not_lt.mpr hle), Option.bind_some, hnext _ hlow, List.length_drop,
      List.drop_drop, Nat.add_assoc]
    by_cases hshort : bits.length < m + n
    · rw [if_pos (by omega), if_pos hshort]
    · rw [if_neg (by omega), if_neg hshort, hsplit, ofBits_append, hlength]
      dsimp only
      rw [Nat.add_mul_mod_self_left, Nat.mod_eq_of_lt hlow,
        Nat.add_mul_div_left _ _ (Nat.two_pow_pos m), Nat.div_eq_of_lt hlow, Nat.zero_add]

theorem map (h : d.Takes n f) (g : α → β) :
    (d.bind fun value => .accept (g value)).Takes n fun x => g (f x) :=
  (bind (n := 0) (g := fun low _ => g (f low)) h fun low _ => accept (g (f low))).congr
    fun x hx => by rw [Nat.add_zero] at hx; rw [Nat.mod_eq_of_lt hx]

end Takes

/-- The decoder accepts exactly the codes of the values in `Domain`. -/
def Codes (d : Decoder ε α) (Domain : α → Prop) (code : Nat → α → List Bool) : Prop :=
  ∀ position bits value position' rest,
    d.parse position bits = some (value, position', rest) ↔
      Domain value ∧ bits = code position value ++ rest
        ∧ position' = position + (code position value).length

namespace Codes

variable {d : Decoder ε α} {Domain : α → Prop} {code : Nat → α → List Bool}

theorem congr (h : d.Codes Domain code) {Domain' : α → Prop} {code' : Nat → α → List Bool}
    (hdomain : ∀ value, Domain value ↔ Domain' value)
    (hcode : ∀ position value, Domain value → code position value = code' position value) :
    d.Codes Domain' code' := by
  intro position bits value position' rest
  rw [h position bits value position' rest, ← hdomain value]
  refine and_congr_right fun hvalue => ?_
  rw [hcode position value hvalue]

theorem accept (value : α) : (accept value : Decoder ε α).Codes (· = value) fun _ _ => [] := by
  intro position bits value' position' rest
  rw [parse_accept, Option.some_inj, Prod.mk.injEq, Prod.mk.injEq]
  constructor
  · rintro ⟨rfl, rfl, rfl⟩
    exact ⟨rfl, rfl, rfl⟩
  · rintro ⟨rfl, rfl, rfl⟩
    exact ⟨rfl, rfl, rfl⟩

theorem refuse (probe : BitVec 32) (error : ε) (code : Nat → α → List Bool) :
    (refuse probe error : Decoder ε α).Codes (fun _ => False) code := by
  intro position bits value position' rest
  rw [parse_refuse]
  simp

/-- A field codes the numbers that fit it, under any map that names them apart. -/
theorem of_takes {n : Nat} {f : Nat → α} (h : d.Takes n f) (number : α → Nat)
    (hnumber : ∀ x, x < 2 ^ n → number (f x) = x) :
    d.Codes (fun value => number value < 2 ^ n ∧ f (number value) = value)
      fun _ value => toBits n (number value) := by
  intro position bits value position' rest
  rw [h position bits]
  constructor
  · intro heq
    split at heq
    · cases heq
    · next hle =>
      have hlength : (bits.take n).length = n := by
        rw [List.length_take]
        omega
      have hlt := ofBits_take_lt (Nat.not_lt.mp hle)
      have htaken : toBits n (ofBits (bits.take n)) = bits.take n :=
        (eq_toBits_of_ofBits hlength rfl).symm
      obtain ⟨rfl, rfl, rfl⟩ : f (ofBits (bits.take n)) = value ∧ position + n = position' ∧
          bits.drop n = rest := by
        simpa using heq
      dsimp only
      rw [hnumber _ hlt, htaken]
      exact ⟨⟨hlt, rfl⟩, (List.take_append_drop n bits).symm, by rw [hlength]⟩
  · rintro ⟨⟨hlt, hvalue⟩, rfl, rfl⟩
    have hlength : (toBits n (number value)).length = n := length_toBits _ _
    dsimp only
    rw [if_neg (by rw [List.length_append, hlength]; omega), List.take_left' hlength,
      List.drop_left' hlength, ofBits_toBits_of_lt hlt, hvalue, hlength]

/-- One decoder after another. What the first one read is a part of what the second one gives. -/
theorem bind (h : d.Codes Domain code) {next : α → Decoder ε β} {Domain' : α → β → Prop}
    {code' : α → Nat → β → List Bool} (hnext : ∀ part, (next part).Codes (Domain' part) (code' part))
    (part : β → α) (hpart : ∀ value value', Domain' value value' → part value' = value) :
    (d.bind next).Codes (fun value => Domain (part value) ∧ Domain' (part value) value)
      fun position value => code position (part value)
        ++ code' (part value) (position + (code position (part value)).length) value := by
  intro position bits value position' rest
  rw [parse_bind_eq_some]
  constructor
  · rintro ⟨first, position₁, bits₁, hfirst, hsecond⟩
    rw [h] at hfirst
    rw [hnext] at hsecond
    obtain ⟨hdomain, rfl, rfl⟩ := hfirst
    obtain ⟨hdomain', rfl, rfl⟩ := hsecond
    obtain rfl := hpart _ _ hdomain'
    refine ⟨⟨hdomain, hdomain'⟩, ?_, ?_⟩
    · rw [List.append_assoc]
    · rw [List.length_append, Nat.add_assoc]
  · rintro ⟨⟨hdomain, hdomain'⟩, rfl, rfl⟩
    refine ⟨part value, position + (code position (part value)).length,
      code' (part value) (position + (code position (part value)).length) value ++ rest,
      (h _ _ _ _ _).mpr ⟨hdomain, ?_, rfl⟩, (hnext _ _ _ _ _ _).mpr ⟨hdomain', rfl, ?_⟩⟩
    · rw [List.append_assoc]
    · rw [List.length_append, Nat.add_assoc]

theorem before {d : Decoder ε Unit} {Domain : Prop} {code : Nat → List Bool}
    (h : d.Codes (fun _ => Domain) fun position _ => code position) {next : Unit → Decoder ε β}
    {Domain' : β → Prop} {code' : Nat → β → List Bool} (hnext : (next ()).Codes Domain' code') :
    (d.bind next).Codes (fun value => Domain ∧ Domain' value) fun position value =>
      code position ++ code' (position + (code position).length) value :=
  bind h (fun _ => hnext) (fun _ => ()) fun _ _ _ => rfl

theorem prefix_free (h : d.Codes Domain code) {value value' : α} (hvalue : Domain value)
    (hvalue' : Domain value') (position : Nat)
    (hstarts : code position value <+: code position value') : value = value' := by
  obtain ⟨rest, hrest⟩ := hstarts
  have hparse := (h position (code position value') value _ rest).mpr ⟨hvalue, hrest.symm, rfl⟩
  have hparse' := (h position (code position value') value' _ []).mpr
    ⟨hvalue', (List.append_nil _).symm, rfl⟩
  rw [hparse] at hparse'
  cases hparse'
  rfl

theorem parse_code (h : d.Codes Domain code) {value : α} (hvalue : Domain value) (position : Nat)
    (rest : List Bool) : d.parse position (code position value ++ rest)
      = some (value, position + (code position value).length, rest) :=
  (h _ _ _ _ _).mpr ⟨hvalue, rfl, rfl⟩

end Codes

end Decoder

end Decode
