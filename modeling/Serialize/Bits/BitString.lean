import Mathlib.Data.List.GetD
import Mathlib.Data.Nat.Bitwise
import Mathlib.Tactic.Ring

/-!
# Numbers as bit strings, least significant bit first

A field of `n` bits is a list of `n` booleans, its lowest bit first. `toBits` writes a number into a
field and `ofBits` reads one back. Splitting a field at a bit position is division and remainder by
a power of two, which is all a codec needs to know to cut a wide number into groups.
-/

namespace BitString

/-- The low `n` bits of `v`, lowest first. -/
def toBits : Nat → Nat → List Bool
  | 0, _ => []
  | n + 1, v => v.testBit 0 :: toBits n (v / 2)

/-- The number whose bits, lowest first, are the list. -/
def ofBits : List Bool → Nat
  | [] => 0
  | bit :: bits => bit.toNat + 2 * ofBits bits

@[simp]
theorem toBits_zero_width (v : Nat) : toBits 0 v = [] := rfl

@[simp]
theorem ofBits_nil : ofBits [] = 0 := rfl

@[simp]
theorem ofBits_cons (bit : Bool) (bits : List Bool) :
    ofBits (bit :: bits) = bit.toNat + 2 * ofBits bits := rfl

@[simp]
theorem length_toBits (n v : Nat) : (toBits n v).length = n := by
  induction n generalizing v with
  | zero => rfl
  | succ n ih => simp [toBits, ih]

theorem ofBits_lt (bits : List Bool) : ofBits bits < 2 ^ bits.length := by
  induction bits with
  | nil => simp
  | cons bit bits ih =>
      have hbit : bit.toNat ≤ 1 := Bool.toNat_le bit
      rw [ofBits_cons, List.length_cons, pow_succ]
      omega

theorem ofBits_take_lt {bits : List Bool} {n : Nat} (h : n ≤ bits.length) :
    ofBits (bits.take n) < 2 ^ n := by
  have hlt := ofBits_lt (bits.take n)
  rwa [List.length_take, Nat.min_eq_left h] at hlt

theorem toNat_testBit_zero (v : Nat) : (v.testBit 0).toNat = v % 2 := by
  rw [Nat.testBit_zero]
  rcases Nat.mod_two_eq_zero_or_one v with h | h <;> simp [h]

@[simp]
theorem ofBits_toBits (n v : Nat) : ofBits (toBits n v) = v % 2 ^ n := by
  induction n generalizing v with
  | zero => simp [Nat.mod_one]
  | succ n ih =>
      rw [toBits, ofBits_cons, ih, toNat_testBit_zero, pow_succ, Nat.mul_comm (2 ^ n) 2,
        Nat.mod_mul]

theorem ofBits_toBits_of_lt {n v : Nat} (h : v < 2 ^ n) : ofBits (toBits n v) = v := by
  rw [ofBits_toBits, Nat.mod_eq_of_lt h]

@[simp]
theorem toBits_ofBits (bits : List Bool) : toBits bits.length (ofBits bits) = bits := by
  induction bits with
  | nil => rfl
  | cons bit bits ih =>
      have hhead : (bit.toNat + 2 * ofBits bits).testBit 0 = bit := by
        rw [Nat.testBit_zero]
        cases bit <;> simp
      have htail : (bit.toNat + 2 * ofBits bits) / 2 = ofBits bits := by
        have hbit : bit.toNat ≤ 1 := Bool.toNat_le bit
        omega
      rw [List.length_cons, ofBits_cons, toBits, hhead, htail, ih]

theorem eq_toBits_of_ofBits {bits : List Bool} {n v : Nat} (hlength : bits.length = n)
    (hvalue : ofBits bits = v) : bits = toBits n v := by
  rw [← hlength, ← hvalue, toBits_ofBits]

theorem ofBits_injective {left right : List Bool} (hlength : left.length = right.length)
    (hvalue : ofBits left = ofBits right) : left = right := by
  rw [eq_toBits_of_ofBits hlength hvalue, toBits_ofBits]

theorem toBits_injective {n v w : Nat} (hv : v < 2 ^ n) (hw : w < 2 ^ n)
    (h : toBits n v = toBits n w) : v = w := by
  rw [← ofBits_toBits_of_lt hv, ← ofBits_toBits_of_lt hw, h]

@[simp]
theorem toBits_mod (n v : Nat) : toBits n (v % 2 ^ n) = toBits n v := by
  apply ofBits_injective
  · simp
  · simp

theorem ofBits_append (low high : List Bool) :
    ofBits (low ++ high) = ofBits low + 2 ^ low.length * ofBits high := by
  induction low with
  | nil => simp
  | cons bit low ih =>
      rw [List.cons_append, ofBits_cons, ih, ofBits_cons, List.length_cons, pow_succ]
      ring

theorem toBits_add (m n v : Nat) : toBits (m + n) v = toBits m v ++ toBits n (v / 2 ^ m) := by
  apply ofBits_injective
  · simp
  · rw [ofBits_append, ofBits_toBits, ofBits_toBits, ofBits_toBits, length_toBits, pow_add,
      Nat.mod_mul]

theorem ofBits_take (bits : List Bool) (n : Nat) : ofBits (bits.take n) = ofBits bits % 2 ^ n := by
  rcases Nat.lt_or_ge n bits.length with h | h
  · have hsplit := ofBits_append (bits.take n) (bits.drop n)
    have hlength : (bits.take n).length = n := by simp [Nat.le_of_lt h]
    have hlt := ofBits_lt (bits.take n)
    rw [List.take_append_drop, hlength] at hsplit
    rw [hlength] at hlt
    rw [hsplit, Nat.add_mul_mod_self_left, Nat.mod_eq_of_lt hlt]
  · rw [List.take_of_length_le h, Nat.mod_eq_of_lt]
    exact (ofBits_lt bits).trans_le (Nat.pow_le_pow_right (by decide) h)

theorem ofBits_drop (bits : List Bool) (n : Nat) : ofBits (bits.drop n) = ofBits bits / 2 ^ n := by
  rcases Nat.lt_or_ge n bits.length with h | h
  · have hsplit := ofBits_append (bits.take n) (bits.drop n)
    have hlength : (bits.take n).length = n := by simp [Nat.le_of_lt h]
    have hlt := ofBits_lt (bits.take n)
    rw [List.take_append_drop, hlength] at hsplit
    rw [hlength] at hlt
    rw [hsplit, Nat.add_mul_div_left _ _ (Nat.two_pow_pos n), Nat.div_eq_of_lt hlt, Nat.zero_add]
  · rw [List.drop_eq_nil_of_le h, ofBits_nil, Nat.div_eq_of_lt]
    exact (ofBits_lt bits).trans_le (Nat.pow_le_pow_right (by decide) h)

@[simp]
theorem toBits_zero (n : Nat) : toBits n 0 = List.replicate n false := by
  induction n with
  | zero => rfl
  | succ n ih => simp [toBits, ih, List.replicate_succ]

@[simp]
theorem ofBits_replicate_false (n : Nat) : ofBits (List.replicate n false) = 0 := by
  rw [← toBits_zero, ofBits_toBits, Nat.zero_mod]

theorem ofBits_eq_zero_iff (bits : List Bool) :
    ofBits bits = 0 ↔ bits = List.replicate bits.length false := by
  constructor
  · intro h
    rw [← toBits_zero]
    exact eq_toBits_of_ofBits rfl h
  · intro h
    rw [h]
    simp

theorem ofBits_ne_zero_iff (bits : List Bool) : ofBits bits ≠ 0 ↔ true ∈ bits := by
  rw [ne_eq, ofBits_eq_zero_iff, List.eq_replicate_iff]
  simp

theorem toBits_one_toNat (bit : Bool) : toBits 1 bit.toNat = [bit] := by
  cases bit <;> rfl

theorem getD_toBits {n i : Nat} (h : i < n) (v : Nat) : (toBits n v).getD i false = v.testBit i := by
  induction n generalizing i v with
  | zero => omega
  | succ n ih =>
      cases i with
      | zero => rfl
      | succ i =>
          rw [toBits, List.getD_cons_succ, ih (by omega), Nat.testBit_succ]

/-- Bits that are not there count as zero. -/
theorem ofBits_take_eq (bits : List Bool) (width : Nat) :
    ofBits (bits.take width) = ofBits ((List.range width).map fun i => bits.getD i false) := by
  induction width generalizing bits with
  | zero => rfl
  | succ width ih =>
      cases bits with
      | nil =>
          rw [List.take_nil, ofBits_nil]
          simp only [List.getD_nil, List.map_const', ofBits_replicate_false]
      | cons bit bits =>
          rw [List.take_succ_cons, ofBits_cons, ih bits, List.range_succ_eq_map, List.map_cons,
            List.map_map]
          rfl

end BitString
