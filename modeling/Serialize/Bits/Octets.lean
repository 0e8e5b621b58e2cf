import Serialize.Bits.BitString
import Mathlib.Data.List.Basic
import Mathlib.Tactic.NormNum

/-!
# Octets as bit strings

The bits of a byte sequence are the bits of its octets in order, each octet lowest bit first. Under
that reading a little-endian word is the field of its octets, dropping whole octets drops eight bits
apiece, and a byte sequence is determined by its bits.
-/

namespace BitString

/-- The bits of a byte sequence, lowest bit of the first octet first. -/
def bitsOfOctets : List (BitVec 8) → List Bool
  | [] => []
  | octet :: octets => toBits 8 octet.toNat ++ bitsOfOctets octets

/-- The `n` little-endian octets of `v`. -/
def leOctets : Nat → Nat → List (BitVec 8)
  | 0, _ => []
  | n + 1, v => BitVec.ofNat 8 v :: leOctets n (v / 256)

/-- The number a little-endian byte sequence spells. -/
def leNat : List (BitVec 8) → Nat
  | [] => 0
  | octet :: octets => octet.toNat + 256 * leNat octets

/-- The first `n` octets a bit string spells, short bits counting as zero. -/
def octetsOfBits (n : Nat) (bits : List Bool) : List (BitVec 8) :=
  leOctets n (ofBits bits)

@[simp]
theorem bitsOfOctets_nil : bitsOfOctets [] = [] := rfl

@[simp]
theorem bitsOfOctets_cons (octet : BitVec 8) (octets : List (BitVec 8)) :
    bitsOfOctets (octet :: octets) = toBits 8 octet.toNat ++ bitsOfOctets octets := rfl

@[simp]
theorem length_bitsOfOctets (octets : List (BitVec 8)) :
    (bitsOfOctets octets).length = 8 * octets.length := by
  induction octets with
  | nil => rfl
  | cons octet octets ih =>
      rw [bitsOfOctets_cons, List.length_append, ih, length_toBits, List.length_cons]
      ring

@[simp]
theorem bitsOfOctets_append (left right : List (BitVec 8)) :
    bitsOfOctets (left ++ right) = bitsOfOctets left ++ bitsOfOctets right := by
  induction left with
  | nil => rfl
  | cons octet left ih => simp [ih]

theorem bitsOfOctets_take (octets : List (BitVec 8)) (n : Nat) :
    bitsOfOctets (octets.take n) = (bitsOfOctets octets).take (8 * n) := by
  rcases Nat.le_total n octets.length with h | h
  · have hlength : (bitsOfOctets (octets.take n)).length = 8 * n := by simp [h]
    conv_rhs => rw [← List.take_append_drop n octets, bitsOfOctets_append]
    rw [List.take_left' hlength]
  · rw [List.take_of_length_le h, List.take_of_length_le (by simpa using h)]

theorem bitsOfOctets_drop (octets : List (BitVec 8)) (n : Nat) :
    bitsOfOctets (octets.drop n) = (bitsOfOctets octets).drop (8 * n) := by
  rcases Nat.le_total n octets.length with h | h
  · have hlength : (bitsOfOctets (octets.take n)).length = 8 * n := by simp [h]
    conv_rhs => rw [← List.take_append_drop n octets, bitsOfOctets_append]
    rw [List.drop_left' hlength]
  · rw [List.drop_eq_nil_of_le h, List.drop_eq_nil_of_le (by simpa using h), bitsOfOctets_nil]

theorem bitsOfOctets_injective : Function.Injective bitsOfOctets := by
  intro left
  induction left with
  | nil =>
      intro right h
      have hlength := congrArg List.length h
      simp only [bitsOfOctets_nil, List.length_nil, length_bitsOfOctets] at hlength
      exact (List.length_eq_zero_iff.mp (by omega)).symm
  | cons octet left ih =>
      intro right h
      cases right with
      | nil =>
          have hlength := congrArg List.length h
          simp at hlength
      | cons octet' right =>
          rw [bitsOfOctets_cons, bitsOfOctets_cons] at h
          obtain ⟨hhead, htail⟩ := List.append_inj h (by simp)
          have hoctet : octet = octet' :=
            BitVec.eq_of_toNat_eq (toBits_injective octet.isLt octet'.isLt hhead)
          rw [hoctet, ih htail]

@[simp]
theorem length_leOctets (n v : Nat) : (leOctets n v).length = n := by
  induction n generalizing v with
  | zero => rfl
  | succ n ih => simp [leOctets, ih]

/-- The little-endian octets of a number spell the field that holds it. -/
@[simp]
theorem bitsOfOctets_leOctets (n v : Nat) : bitsOfOctets (leOctets n v) = toBits (8 * n) v := by
  induction n generalizing v with
  | zero => rfl
  | succ n ih =>
      rw [leOctets, bitsOfOctets_cons, ih, BitVec.toNat_ofNat, toBits_mod,
        show 8 * (n + 1) = 8 + 8 * n by ring, toBits_add, show (2 : Nat) ^ 8 = 256 by norm_num]

@[simp]
theorem leNat_eq_ofBits (octets : List (BitVec 8)) :
    leNat octets = ofBits (bitsOfOctets octets) := by
  induction octets with
  | nil => rfl
  | cons octet octets ih =>
      rw [leNat, ih, bitsOfOctets_cons, ofBits_append, ofBits_toBits_of_lt octet.isLt,
        length_toBits, show (2 : Nat) ^ 8 = 256 by norm_num]

@[simp]
theorem length_octetsOfBits (n : Nat) (bits : List Bool) : (octetsOfBits n bits).length = n :=
  length_leOctets n _

theorem bitsOfOctets_octetsOfBits {n : Nat} {bits : List Bool} (h : 8 * n ≤ bits.length) :
    bitsOfOctets (octetsOfBits n bits) = bits.take (8 * n) := by
  apply ofBits_injective
  · simp [octetsOfBits, h]
  · rw [octetsOfBits, bitsOfOctets_leOctets, ofBits_toBits, ofBits_take]

@[simp]
theorem octetsOfBits_bitsOfOctets (octets : List (BitVec 8)) (rest : List Bool) :
    octetsOfBits octets.length (bitsOfOctets octets ++ rest) = octets := by
  apply bitsOfOctets_injective
  rw [bitsOfOctets_octetsOfBits (by simp), List.take_left' (by simp)]

theorem octetsOfBits_take (n : Nat) (bits : List Bool) :
    octetsOfBits n (bits.take (8 * n)) = octetsOfBits n bits := by
  apply bitsOfOctets_injective
  rw [octetsOfBits, octetsOfBits, bitsOfOctets_leOctets, bitsOfOctets_leOctets, ofBits_take,
    toBits_mod]

theorem octetsOfBits_append {n : Nat} {bits : List Bool} (h : 8 * n ≤ bits.length)
    (more : List Bool) : octetsOfBits n (bits ++ more) = octetsOfBits n bits := by
  rw [← octetsOfBits_take n (bits ++ more), List.take_append_of_le_length h, octetsOfBits_take]

theorem octetsOfBits_add (m n : Nat) (bits : List Bool) :
    octetsOfBits (m + n) bits = octetsOfBits m bits ++ octetsOfBits n (bits.drop (8 * m)) := by
  apply bitsOfOctets_injective
  rw [bitsOfOctets_append, octetsOfBits, octetsOfBits, octetsOfBits, bitsOfOctets_leOctets,
    bitsOfOctets_leOctets, bitsOfOctets_leOctets, ofBits_drop, Nat.mul_add, toBits_add]

theorem bitsOfOctets_octetsOfBits_of_le {n : Nat} {bits : List Bool} (h : bits.length ≤ 8 * n) :
    bitsOfOctets (octetsOfBits n bits)
      = bits ++ List.replicate (8 * n - bits.length) false := by
  apply ofBits_injective
  · rw [length_bitsOfOctets, length_octetsOfBits, List.length_append, List.length_replicate]
    omega
  · have hlt : ofBits bits < 2 ^ (8 * n) :=
      (ofBits_lt bits).trans_le (Nat.pow_le_pow_right (by decide) h)
    rw [octetsOfBits, bitsOfOctets_leOctets, ofBits_toBits_of_lt hlt, ofBits_append,
      ofBits_replicate_false, Nat.mul_zero, Nat.add_zero]

/-! ### Bits by position -/

/-- The bit of a byte sequence at a position, low bit of the first byte first. Past its end it is
zero. -/
def bitAt (data : List (BitVec 8)) (position : Nat) : Bool :=
  (data.getD (position / 8) 0).getLsbD (position % 8)

/-- The number in `width` bits of a byte sequence from a position on, low bit first. -/
def fieldAt (data : List (BitVec 8)) (position width : Nat) : Nat :=
  ofBits ((List.range width).map fun i => bitAt data (position + i))

theorem getD_bitsOfOctets (data : List (BitVec 8)) (position : Nat) :
    (bitsOfOctets data).getD position false = bitAt data position := by
  induction data generalizing position with
  | nil =>
      rw [bitAt, bitsOfOctets_nil, List.getD_nil, List.getD_nil]
      exact (BitVec.getLsbD_zero).symm
  | cons octet data ih =>
      rw [bitsOfOctets_cons, bitAt]
      by_cases hfirst : position < 8
      · have hbyte : position / 8 = 0 := by omega
        rw [List.getD_append _ _ _ _ (by rwa [length_toBits]), getD_toBits hfirst, hbyte,
          List.getD_cons_zero, Nat.mod_eq_of_lt hfirst]
        rfl
      · obtain ⟨rest, rfl⟩ := Nat.exists_eq_add_of_le (Nat.not_lt.mp hfirst)
        have hbyte : (8 + rest) / 8 = rest / 8 + 1 := by omega
        rw [List.getD_append_right _ _ _ _ (by rw [length_toBits]; omega), length_toBits,
          Nat.add_sub_cancel_left, ih, bitAt, hbyte, List.getD_cons_succ, Nat.add_mod_left]

theorem ofBits_drop_take (data : List (BitVec 8)) (position width : Nat) :
    ofBits (((bitsOfOctets data).drop position).take width) = fieldAt data position width := by
  rw [ofBits_take_eq, fieldAt]
  congr 1
  apply List.map_congr_left
  intro i _
  rw [List.getD_eq_getElem?_getD, List.getElem?_drop, ← List.getD_eq_getElem?_getD,
    getD_bitsOfOctets]

theorem fieldAt_lt (data : List (BitVec 8)) (position width : Nat) :
    fieldAt data position width < 2 ^ width := by
  have hlt := ofBits_lt ((List.range width).map fun i => bitAt data (position + i))
  rwa [List.length_map, List.length_range] at hlt

end BitString
