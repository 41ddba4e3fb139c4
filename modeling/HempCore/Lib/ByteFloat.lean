import Mathlib.Tactic

/-!
# Numbers with a mantissa of three bytes

A number is written as a mantissa below `2 ^ 23` and a size in bytes. Bytes that do not fit are dropped,
so what is read back is not above the number, and not zero unless the number is.
-/

set_option autoImplicit false

namespace HempCore.Lib

variable (v : Nat)

def byteSize : Nat := ((if v = 0 then 0 else v.log2 + 1) + 7) / 8

theorem lt_pow_byteSize : v < 256 ^ byteSize v := by
  by_cases hv : v = 0
  · rw [hv]
    decide
  · have hlog : v < 2 ^ (v.log2 + 1) := Nat.lt_log2_self
    have hpow : (256 : Nat) ^ byteSize v = 2 ^ (8 * byteSize v) := by
      rw [pow_mul]
      norm_num
    rw [hpow]
    apply hlog.trans_le
    apply Nat.pow_le_pow_right (by decide)
    rw [byteSize, if_neg hv]
    omega

theorem pow_byteSize_le {v : Nat} (hv : v ≠ 0) : 256 ^ (byteSize v - 1) ≤ v := by
  have hlog : 2 ^ v.log2 ≤ v := Nat.log2_self_le hv
  have hpow : (256 : Nat) ^ (byteSize v - 1) = 2 ^ (8 * (byteSize v - 1)) := by
    rw [pow_mul]
    norm_num
  rw [hpow]
  refine le_trans (Nat.pow_le_pow_right (by decide) ?_) hlog
  rw [byteSize, if_neg hv]
  omega

theorem byteSize_le {v n : Nat} (h : v < 256 ^ n) : byteSize v ≤ n := by
  by_cases hv : v = 0
  · rw [hv]
    exact Nat.zero_le n
  · by_contra hlt
    have hpow : 256 ^ n ≤ 256 ^ (byteSize v - 1) := Nat.pow_le_pow_right (by decide) (by omega)
    have hle := pow_byteSize_le hv
    omega

def leadingBytes : Nat :=
  if byteSize v ≤ 3 then v * 256 ^ (3 - byteSize v) else v / 256 ^ (byteSize v - 3)

theorem leadingBytes_lt : leadingBytes v < 2 ^ 24 := by
  have hlt := lt_pow_byteSize v
  rw [leadingBytes]
  split_ifs with hsize
  · have hmul : v * 256 ^ (3 - byteSize v) < 256 ^ byteSize v * 256 ^ (3 - byteSize v) :=
      Nat.mul_lt_mul_of_pos_right hlt (by positivity)
    rw [← pow_add, show byteSize v + (3 - byteSize v) = 3 by omega] at hmul
    exact hmul.trans_le (by norm_num)
  · apply Nat.div_lt_of_lt_mul
    rwa [show (2 : Nat) ^ 24 = 256 ^ 3 by norm_num, ← pow_add, show byteSize v - 3 + 3 = byteSize v by omega]

theorem leadingBytes_pos {v : Nat} (hv : v ≠ 0) : 256 ≤ leadingBytes v := by
  have hle := pow_byteSize_le hv
  have hlt := lt_pow_byteSize v
  have hsize : byteSize v ≠ 0 := by
    intro hzero
    rw [hzero] at hlt
    omega
  rw [leadingBytes]
  split_ifs with hthree
  · calc 256 ≤ 256 ^ 2 := by norm_num
      _ = 256 ^ (byteSize v - 1) * 256 ^ (3 - byteSize v) := by
        rw [← pow_add, show byteSize v - 1 + (3 - byteSize v) = 2 by omega]
      _ ≤ v * 256 ^ (3 - byteSize v) := Nat.mul_le_mul_right _ hle
  · rw [Nat.le_div_iff_mul_le (by positivity)]
    calc 256 * 256 ^ (byteSize v - 3) ≤ 256 ^ 2 * 256 ^ (byteSize v - 3) :=
          Nat.mul_le_mul_right _ (by norm_num)
      _ = 256 ^ (byteSize v - 1) := by rw [← pow_add, show 2 + (byteSize v - 3) = byteSize v - 1 by omega]
      _ ≤ v := hle

/-- Mantissa and size: one byte less of the leading ones when they fill the sign bit. -/
def floatParts : Nat × Nat :=
  if leadingBytes v < 2 ^ 23 then (leadingBytes v, byteSize v) else (leadingBytes v / 256, byteSize v + 1)

/-- What a mantissa and a size stand for. -/
def floatValue (mantissa size : Nat) : Nat :=
  if size ≤ 3 then mantissa / 256 ^ (3 - size) else mantissa * 256 ^ (size - 3)

theorem floatParts_lt : (floatParts v).1 < 2 ^ 23 := by
  have hlt := leadingBytes_lt v
  rw [floatParts]
  split_ifs with hsmall
  · exact hsmall
  · show leadingBytes v / 256 < 2 ^ 23
    omega

theorem floatParts_size_le : (floatParts v).2 ≤ byteSize v + 1 := by
  rw [floatParts]
  split_ifs <;> simp

/-- Without the leading byte the value loses no more than what was dropped. -/
theorem floatValue_floatParts :
    floatValue (floatParts v).1 (floatParts v).2 ≤ v ∧ (v ≠ 0 → 0 < floatValue (floatParts v).1 (floatParts v).2) := by
  have hbytes := fun hv => @leadingBytes_pos v hv
  rw [floatParts]
  split_ifs with hsmall
  · show floatValue (leadingBytes v) (byteSize v) ≤ v ∧ (v ≠ 0 → 0 < floatValue (leadingBytes v) (byteSize v))
    rw [floatValue]
    split_ifs with hsize
    · have hexact : leadingBytes v / 256 ^ (3 - byteSize v) = v := by
        rw [leadingBytes, if_pos hsize]
        exact Nat.mul_div_cancel _ (by positivity)
      rw [hexact]
      exact ⟨le_rfl, Nat.pos_of_ne_zero⟩
    · refine ⟨?_, fun hv => Nat.mul_pos (by have := hbytes hv; omega) (by positivity)⟩
      rw [leadingBytes, if_neg hsize]
      exact Nat.div_mul_le_self _ _
  · show floatValue (leadingBytes v / 256) (byteSize v + 1) ≤ v ∧ (v ≠ 0 → 0 < floatValue (leadingBytes v / 256) (byteSize v + 1))
    rw [floatValue]
    split_ifs with hsize
    · -- a byte was added below and is taken away again
      have hexact : leadingBytes v / 256 / 256 ^ (3 - (byteSize v + 1)) = v := by
        rw [leadingBytes, if_pos (by omega), Nat.div_div_eq_div_mul, ← pow_succ',
          show 3 - (byteSize v + 1) + 1 = 3 - byteSize v by omega]
        exact Nat.mul_div_cancel _ (by positivity)
      rw [hexact]
      exact ⟨le_rfl, Nat.pos_of_ne_zero⟩
    · refine ⟨?_, fun hv => Nat.mul_pos (Nat.div_pos (hbytes hv) (by decide)) (by positivity)⟩
      rw [leadingBytes]
      split_ifs with hthree
      · obtain hthree' : byteSize v = 3 := by omega
        rw [hthree']
        exact (Nat.div_mul_le_self _ _).trans_eq (Nat.mul_one v)
      · rw [Nat.div_div_eq_div_mul, ← pow_succ, show byteSize v + 1 - 3 = byteSize v - 3 + 1 by omega]
        exact Nat.div_mul_le_self _ _

end HempCore.Lib
