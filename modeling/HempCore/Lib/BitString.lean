import Mathlib.Tactic

/-!
# Bits of a byte string

The bits of a byte string in reading order, the highest bit of each byte first, and the numbers that
windows of them spell.
-/

set_option autoImplicit false

namespace HempCore.Lib

/-- The bit with a number, `false` past the end. -/
def bitAt (s : List UInt8) (n : Nat) : Bool := (s.getD (n / 8) 0).toNat.testBit (7 - n % 8)

def setBit (s : List UInt8) (n : Nat) : List UInt8 :=
  s.set (n / 8) (s.getD (n / 8) 0 ||| UInt8.ofNat (2 ^ (7 - n % 8)))

variable (b : Nat → Bool)

/-- The number that `n` bits spell, the first one the highest. -/
def spell (n : Nat) : Nat :=
  (List.range n).foldl (fun idx j => idx * 2 + (b j).toNat) 0

variable {s t : List UInt8} {n k : Nat}

theorem length_setBit (s : List UInt8) (n : Nat) : (setBit s n).length = s.length := List.length_set

theorem testBit_or_ofNat_two_pow (x : UInt8) {i j : Nat} (hi : i < 8) :
    (x ||| UInt8.ofNat (2 ^ i)).toNat.testBit j = (x.toNat.testBit j || decide (i = j)) := by
  have hlt : 2 ^ i < 2 ^ 8 := Nat.pow_lt_pow_right (by norm_num) hi
  rw [UInt8.toNat_or, UInt8.toNat_ofNat', Nat.mod_eq_of_lt hlt, Nat.testBit_or, Nat.testBit_two_pow]

theorem bitAt_setBit (hn : n / 8 < s.length) (k : Nat) : bitAt (setBit s n) k = (bitAt s k || decide (n = k)) := by
  unfold bitAt setBit
  by_cases hk : n / 8 = k / 8
  · rw [← hk, List.getD_eq_getElem?_getD, List.getElem?_set_self hn, Option.getD_some, testBit_or_ofNat_two_pow _ (by omega)]
    congr 1
    rw [decide_eq_decide]
    omega
  · rw [List.getD_eq_getElem?_getD, List.getElem?_set_ne hk, ← List.getD_eq_getElem?_getD,
      decide_eq_false (by rintro rfl; exact hk rfl), Bool.or_false]

theorem bitAt_take (hk : k < 8 * n) : bitAt (s.take n) k = bitAt s k := by
  unfold bitAt
  rw [List.getD_eq_getElem?_getD, List.getElem?_take_of_lt (by omega), List.getD_eq_getElem?_getD]

theorem bitAt_append_left (hk : k < 8 * s.length) : bitAt (s ++ t) k = bitAt s k := by
  unfold bitAt
  rw [List.getD_eq_getElem?_getD, List.getElem?_append_left (by omega), List.getD_eq_getElem?_getD]

theorem bitAt_append_right (k : Nat) : bitAt (s ++ t) (8 * s.length + k) = bitAt t k := by
  unfold bitAt
  have hdiv : (8 * s.length + k) / 8 = s.length + k / 8 := by omega
  rw [List.getD_eq_getElem?_getD, hdiv, List.getElem?_append_right (by omega),
    List.getD_eq_getElem?_getD, Nat.mul_add_mod, Nat.add_sub_cancel_left]

theorem bitAt_replicate_zero (n k : Nat) : bitAt (List.replicate n 0) k = false := by
  unfold bitAt
  rw [List.getD_eq_getElem?_getD, List.getElem?_replicate]
  split_ifs <;> simp

theorem eq_of_testBit_eq {x y : UInt8} (h : ∀ i < 8, x.toNat.testBit i = y.toNat.testBit i) : x = y := by
  apply UInt8.toNat_inj.mp
  apply Nat.eq_of_testBit_eq
  intro i
  by_cases hi : i < 8
  · exact h i hi
  · have hpow : 2 ^ 8 ≤ 2 ^ i := Nat.pow_le_pow_right (by norm_num) (not_lt.mp hi)
    rw [Nat.testBit_lt_two_pow (x.toNat_lt.trans_le hpow), Nat.testBit_lt_two_pow (y.toNat_lt.trans_le hpow)]

theorem eq_of_bitAt (hlength : s.length = t.length) (h : ∀ k < 8 * s.length, bitAt s k = bitAt t k) : s = t := by
  apply List.ext_getElem hlength
  intro i hs ht
  apply eq_of_testBit_eq
  intro j hj
  have hbit := h (8 * i + (7 - j)) (by omega)
  have hdiv : (8 * i + (7 - j)) / 8 = i := by omega
  have hmod : 7 - (8 * i + (7 - j)) % 8 = j := by omega
  simpa only [bitAt, hdiv, hmod, List.getD_eq_getElem?_getD, List.getElem?_eq_getElem hs,
    List.getElem?_eq_getElem ht, Option.getD_some] using hbit

/-- Bytes agree under a mask of their `n` highest bits when those bits agree. -/
theorem and_mask_eq_iff {x y mask : UInt8} (hn : n ≤ 8) (hmask : ∀ i < 8, mask.toNat.testBit i = decide (8 - n ≤ i)) :
    x &&& mask = y &&& mask ↔ ∀ j < n, bitAt [x] j = bitAt [y] j := by
  have hbit : ∀ (z : UInt8) (j : Nat), j < 8 → bitAt [z] j = z.toNat.testBit (7 - j) := by
    intro z j hj
    rw [bitAt, Nat.div_eq_of_lt hj, Nat.mod_eq_of_lt hj]
    rfl
  constructor
  · intro h j hj
    have hand : (x &&& mask).toNat.testBit (7 - j) = (y &&& mask).toNat.testBit (7 - j) := by rw [h]
    rw [UInt8.toNat_and, UInt8.toNat_and, Nat.testBit_and, Nat.testBit_and, hmask _ (by omega),
      decide_eq_true (by omega), Bool.and_true, Bool.and_true] at hand
    rw [hbit x j (by omega), hbit y j (by omega), hand]
  · intro h
    apply eq_of_testBit_eq
    intro i hi
    rw [UInt8.toNat_and, UInt8.toNat_and, Nat.testBit_and, Nat.testBit_and, hmask i hi]
    by_cases htop : 8 - n ≤ i
    · have hj := h (7 - i) (by omega)
      have hsub : 7 - (7 - i) = i := by omega
      rw [hbit x _ (by omega), hbit y _ (by omega), hsub] at hj
      rw [hj]
    · rw [decide_eq_false htop, Bool.and_false, Bool.and_false]

/-! ## Windows -/

theorem spell_succ (n : Nat) : spell b (n + 1) = spell b n * 2 + (b n).toNat := by
  rw [spell, List.range_succ, List.foldl_append]
  rfl

theorem spell_lt (n : Nat) : spell b n < 2 ^ n := by
  induction n with
  | zero => exact one_pos
  | succ n ih =>
    have hbit := Bool.toNat_lt (b n)
    rw [spell_succ, pow_succ]
    omega

theorem testBit_spell {n j : Nat} (hj : j < n) : (spell b n).testBit (n - 1 - j) = b j := by
  induction n with
  | zero => omega
  | succ n ih =>
    rw [spell_succ, mul_comm]
    rcases Nat.lt_succ_iff_lt_or_eq.mp hj with hlt | rfl
    · have hpos : n + 1 - 1 - j = (n - 1 - j) + 1 := by omega
      rw [hpos, Nat.testBit_succ, Nat.mul_add_div two_pos]
      have hzero : (b n).toNat / 2 = 0 := Nat.div_eq_of_lt (Bool.toNat_lt _)
      rw [hzero, add_zero, ih hlt]
    · have hpos : j + 1 - 1 - j = 0 := by omega
      rw [hpos, Nat.testBit_zero]
      cases b j <;> simp

theorem spell_eq (hk : k < 2 ^ n) (h : ∀ j < n, b j = k.testBit (n - 1 - j)) : spell b n = k := by
  apply Nat.eq_of_testBit_eq
  intro i
  by_cases hi : i < n
  · have hbit := testBit_spell b (n := n) (j := n - 1 - i) (by omega)
    have hsub : n - 1 - (n - 1 - i) = i := by omega
    rw [hsub] at hbit
    rw [hbit, h _ (by omega), hsub]
  · have hpow : 2 ^ n ≤ 2 ^ i := Nat.pow_le_pow_right (by norm_num) (not_lt.mp hi)
    rw [Nat.testBit_lt_two_pow ((spell_lt b n).trans_le hpow), Nat.testBit_lt_two_pow (hk.trans_le hpow)]

end HempCore.Lib
