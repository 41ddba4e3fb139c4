import HempCore.Lib.ByteFloat
import HempCore.Model.Pow
import Mathlib.Data.Nat.Bitwise

/-!
# Bounds on the difficulty

The average over the past blocks stays between the least and the greatest target it is taken over, so
nothing that is computed on the way reaches `2 ^ 256`; the time the blocks took is cut to a factor of
three; and the compact form rounds down without reaching zero.
-/

set_option autoImplicit false

namespace HempCore

open Lib (byteSize byteSize_le floatParts floatValue floatParts_lt floatParts_size_le floatValue_floatParts
  leadingBytes leadingBytes_lt)

/-! ## Compact numbers -/

theorem two_pow_bytes (n : Nat) : 2 ^ (8 * n) = 256 ^ n := by
  rw [pow_mul]
  norm_num

theorem setCompact_of_parts {n : UInt32} {m s : Nat} (hn : n.toNat = m + s * 2 ^ 24) (hm : m < 2 ^ 23) (hs : s ≤ 32) :
    (setCompact n).fNegative = false ∧ (setCompact n).fOverflow = false ∧
      (setCompact n).bnTarget.toNat = floatValue m s % 2 ^ 256 := by
  have hsize : (n >>> 24).toNat = s := by
    rw [UInt32.toNat_shiftRight, hn]
    show (m + s * 2 ^ 24) >>> 24 = s
    rw [Nat.shiftRight_eq_div_pow]
    omega
  have hword : n &&& 0x007fffff = UInt32.ofNat m := by
    apply UInt32.toNat_inj.mp
    rw [UInt32.toNat_and, hn, UInt32.toNat_ofNat', Nat.mod_eq_of_lt (by omega)]
    show (m + s * 2 ^ 24) &&& (2 ^ 23 - 1) = m
    rw [Nat.and_two_pow_sub_one_eq_mod]
    omega
  have hsign : n &&& 0x00800000 = 0 := by
    apply UInt32.toNat_inj.mp
    rw [UInt32.toNat_and, hn]
    show (m + s * 2 ^ 24) &&& 2 ^ 23 = 0
    rw [Nat.and_two_pow, Nat.testBit_eq_decide_div_mod_eq]
    rw [show (m + s * 2 ^ 24) / 2 ^ 23 % 2 = 0 by omega]
    rfl
  have hnat : (UInt32.ofNat m).toNat = m := by
    rw [UInt32.toNat_ofNat', Nat.mod_eq_of_lt (by omega)]
  refine ⟨?_, ?_, ?_⟩
  · simp [setCompact, hsign]
  · simp only [setCompact, hsize]
    simp
    omega
  · simp only [setCompact, hsize, hword, floatValue]
    split_ifs with hthree
    · have hshift : (UInt32.ofNat (8 * (3 - s))).toNat = 8 * (3 - s) := by
        rw [UInt32.toNat_ofNat', Nat.mod_eq_of_lt (by omega)]
      rw [BitVec.toNat_ofNat, UInt32.toNat_shiftRight, hshift, hnat, Nat.mod_eq_of_lt (show 8 * (3 - s) < 32 by omega),
        Nat.shiftRight_eq_div_pow, two_pow_bytes]
    · rw [BitVec.toNat_shiftLeft, BitVec.toNat_ofNat, hnat, Nat.mod_eq_of_lt (show m < 2 ^ 256 by omega),
        Nat.shiftLeft_eq, two_pow_bytes]

theorem leading_toNat (a : ArithUint256) :
    (if (a.bits + 7) / 8 ≤ 3 then (a.getLow64 <<< UInt64.ofNat (8 * (3 - (a.bits + 7) / 8))).toUInt32
      else (ArithUint256.getLow64 (a >>> (8 * ((a.bits + 7) / 8 - 3)))).toUInt32).toNat =
      leadingBytes a.toNat := by
  have hbytes : (a.bits + 7) / 8 = byteSize a.toNat := rfl
  have hlt := leadingBytes_lt a.toNat
  rw [hbytes]
  unfold leadingBytes at hlt ⊢
  split_ifs at hlt ⊢ with hsize
  · have hsmall : a.toNat < 2 ^ 24 := by
      have hpow := Lib.lt_pow_byteSize a.toNat
      exact hpow.trans_le ((Nat.pow_le_pow_right (by decide) hsize).trans (by norm_num))
    have hshift : (UInt64.ofNat (8 * (3 - byteSize a.toNat))).toNat = 8 * (3 - byteSize a.toNat) := by
      rw [UInt64.toNat_ofNat', Nat.mod_eq_of_lt (by omega)]
    have hlow : a.getLow64.toNat = a.toNat := by
      rw [ArithUint256.getLow64, UInt64.toNat_ofNat', Nat.mod_eq_of_lt (by omega)]
    rw [UInt64.toNat_toUInt32, UInt64.toNat_shiftLeft, hshift, hlow,
      Nat.mod_eq_of_lt (show 8 * (3 - byteSize a.toNat) < 64 by omega), Nat.shiftLeft_eq, two_pow_bytes]
    omega
  · rw [UInt64.toNat_toUInt32, ArithUint256.getLow64, UInt64.toNat_ofNat', BitVec.toNat_ushiftRight,
      Nat.shiftRight_eq_div_pow, two_pow_bytes, Nat.mod_eq_of_lt (hlt.trans (by norm_num)),
      Nat.mod_eq_of_lt (hlt.trans (by norm_num))]

theorem packed_toNat {m : UInt32} {k : Nat} (hm : m.toNat < 2 ^ 23) (hk : k ≤ 33) :
    (m ||| (UInt32.ofNat k <<< 24)).toNat = m.toNat + k * 2 ^ 24 := by
  have hdigits : (24 : UInt32).toNat % 32 = 24 := rfl
  have hshift : (UInt32.ofNat k <<< 24).toNat = k <<< 24 := by
    rw [UInt32.toNat_shiftLeft, UInt32.toNat_ofNat', Nat.mod_eq_of_lt (show k < 2 ^ 32 by omega), hdigits,
      Nat.shiftLeft_eq, Nat.mod_eq_of_lt (by omega)]
  rw [UInt32.toNat_or, hshift, Nat.or_comm, ← Nat.shiftLeft_add_eq_or_of_lt (by omega), Nat.shiftLeft_eq,
    Nat.add_comm]

theorem signBit_iff {m : UInt32} (hm : m.toNat < 2 ^ 24) : m &&& 0x00800000 ≠ 0 ↔ ¬ m.toNat < 2 ^ 23 := by
  have hsign : (0x00800000 : UInt32).toNat = 2 ^ 23 := rfl
  rw [ne_eq, ← UInt32.toNat_inj, UInt32.toNat_and, hsign, Nat.and_two_pow, Nat.testBit_eq_decide_div_mod_eq]
  by_cases hbit : m.toNat < 2 ^ 23
  · rw [show m.toNat / 2 ^ 23 % 2 = 0 by omega]
    exact iff_of_false (by decide) (not_not.mpr hbit)
  · rw [show m.toNat / 2 ^ 23 % 2 = 1 by omega]
    exact iff_of_true (by decide) hbit

theorem getCompact_toNat (a : ArithUint256) : a.getCompact.toNat = (floatParts a.toNat).1 + (floatParts a.toNat).2 * 2 ^ 24 := by
  have hbytes : (a.bits + 7) / 8 = byteSize a.toNat := rfl
  have hsize : byteSize a.toNat ≤ 32 := byteSize_le (by rw [← two_pow_bytes]; exact a.isLt)
  have hlt := leadingBytes_lt a.toNat
  have hleading := leading_toNat a
  rw [ArithUint256.getCompact, floatParts]
  simp only [hbytes] at hleading ⊢
  generalize hm : (if byteSize a.toNat ≤ 3 then
      (a.getLow64 <<< UInt64.ofNat (8 * (3 - byteSize a.toNat))).toUInt32
    else (ArithUint256.getLow64 (a >>> (8 * (byteSize a.toNat - 3)))).toUInt32) = m at hleading ⊢
  have hsign := signBit_iff (show m.toNat < 2 ^ 24 by omega)
  rw [← hleading]
  by_cases hbit : m.toNat < 2 ^ 23
  · rw [if_neg (by rw [hsign]; exact not_not.mpr hbit), if_pos hbit, packed_toNat hbit (by omega)]
  · have hdrop : (m >>> 8).toNat = m.toNat / 256 := by
      have hdigits : (8 : UInt32).toNat % 32 = 8 := rfl
      rw [UInt32.toNat_shiftRight, hdigits, Nat.shiftRight_eq_div_pow]
    rw [if_pos (hsign.mpr hbit), if_neg hbit, packed_toNat (by omega) (by omega), hdrop]

/-- The compact form of a number is a number not above it, and not zero unless it is. -/
theorem setCompact_getCompact {a : ArithUint256} (h : a.toNat < 2 ^ 248) :
    (setCompact a.getCompact).fNegative = false ∧ (setCompact a.getCompact).fOverflow = false ∧
      (setCompact a.getCompact).bnTarget.toNat ≤ a.toNat ∧
      (a.toNat ≠ 0 → 0 < (setCompact a.getCompact).bnTarget.toNat) := by
  have hsize : byteSize a.toNat ≤ 31 := byteSize_le (by rw [← two_pow_bytes]; exact h)
  have hparts := floatParts_size_le a.toNat
  obtain ⟨hle, hpos⟩ := floatValue_floatParts a.toNat
  obtain ⟨hneg, hover, htarget⟩ := setCompact_of_parts (getCompact_toNat a) (floatParts_lt a.toNat) (by omega)
  rw [Nat.mod_eq_of_lt (by omega)] at htarget
  rw [htarget]
  exact ⟨hneg, hover, hle, hpos⟩

/-! ## The average over the past blocks -/

/-- `A 1 = t 1` and `A i = (A (i - 1) * i + t i) / (i + 1)`. -/
def weightedAverage (t : Nat → Nat) : Nat → Nat
  | 0 => 0
  | 1 => t 1
  | i + 2 => (weightedAverage t (i + 1) * (i + 2) + t (i + 2)) / (i + 3)

theorem weightedAverage_bounds {t : Nat → Nat} {lo hi n : Nat} (h : ∀ i, 1 ≤ i → i ≤ n → lo ≤ t i ∧ t i ≤ hi)
    {i : Nat} (hpos : 1 ≤ i) (hle : i ≤ n) : lo ≤ weightedAverage t i ∧ weightedAverage t i ≤ hi := by
  induction i, hpos using Nat.le_induction with
  | base => exact h 1 le_rfl hle
  | succ i hpos ih =>
    obtain ⟨hlo, hhi⟩ := ih (by omega)
    obtain ⟨htlo, hthi⟩ := h (i + 1) (by omega) hle
    obtain ⟨j, rfl⟩ : ∃ j, i = j + 1 := ⟨i - 1, by omega⟩
    rw [weightedAverage]
    constructor
    · rw [Nat.le_div_iff_mul_le (by omega)]
      calc lo * (j + 3) = lo * (j + 2) + lo := by ring
        _ ≤ weightedAverage t (j + 1) * (j + 2) + t (j + 2) := Nat.add_le_add (Nat.mul_le_mul_right _ hlo) htlo
    · rw [Nat.div_le_iff_le_mul_add_pred (by omega)]
      have hsum : weightedAverage t (j + 1) * (j + 2) + t (j + 2) ≤ hi * (j + 2) + hi :=
        Nat.add_le_add (Nat.mul_le_mul_right _ hhi) hthi
      have hmul : hi * (j + 2) + hi = (j + 3) * hi := by ring
      omega

namespace CBlockIndex

variable (index : CBlockIndex)

theorem chain_length : index.chain.length = index.nHeight + 1 := by
  induction index with
  | genesis header => rfl
  | child header pprev ih => rw [chain, List.length_cons, ih, nHeight]

theorem chain_head : index.chain.head? = some index := by
  cases index <;> rfl

def pastTarget (i : Nat) : Nat :=
  (index.chain[i - 1]?.map fun b => (setCompact b.header.nBits).bnTarget.toNat).getD 0

end CBlockIndex

theorem mulUint32_toNat {a : ArithUint256} {n : Nat} (hn : n < 2 ^ 32) (h : a.toNat * n < 2 ^ 256) :
    (a.mulUint32 n).toNat = a.toNat * n := by
  have hcast : ((n : Int) % 2 ^ 32).toNat = n := by omega
  rw [ArithUint256.mulUint32, hcast, BitVec.toNat_mul, BitVec.toNat_ofNat,
    Nat.mod_eq_of_lt (show n < 2 ^ 256 by omega), Nat.mod_eq_of_lt h]

theorem divUint64_toNat (a : ArithUint256) {n : Nat} (hn : n < 2 ^ 64) : (a.divUint64 n).toNat = a.toNat / n := by
  have hcast : ((n : Int) % 2 ^ 64).toNat = n := by omega
  rw [ArithUint256.divUint64, hcast, BitVec.toNat_udiv, BitVec.toNat_ofNat, Nat.mod_eq_of_lt (show n < 2 ^ 256 by omega)]

theorem averageTargets_toNat {i : Nat} (hi : 2 ≤ i) (hmax : i ≤ 180) {avg target : ArithUint256}
    (havg : avg.toNat < 2 ^ 236) (htarget : target.toNat < 2 ^ 236) :
    (averageTargets i avg target).toNat = (avg.toNat * i + target.toNat) / (i + 1) := by
  have hmul : avg.toNat * i ≤ 2 ^ 236 * 180 := Nat.mul_le_mul havg.le hmax
  have hproduct : (avg.mulUint32 i).toNat = avg.toNat * i := mulUint32_toNat (by omega) (by omega)
  have hsum : (avg.mulUint32 i + target).toNat = avg.toNat * i + target.toNat := by
    rw [BitVec.toNat_add, hproduct, Nat.mod_eq_of_lt (by omega)]
  rw [averageTargets, if_neg (by omega)]
  have hdiv := divUint64_toNat (avg.mulUint32 i + target) (show i + 1 < 2 ^ 64 by omega)
  rw [hsum] at hdiv
  exact_mod_cast hdiv

section Average

variable {params : PowParams} {tip : CBlockIndex} {hi : Nat}

theorem pastTarget_eq {i : Nat} {index : CBlockIndex} (h : index.chain = tip.chain.drop (i - 1)) :
    tip.pastTarget i = (setCompact index.header.nBits).bnTarget.toNat := by
  have hget : tip.chain[i - 1]? = some index := by
    rw [← List.head?_drop, ← h, CBlockIndex.chain_head]
  rw [CBlockIndex.pastTarget, hget]
  rfl

theorem pastRound_average (params : PowParams) (hhi : hi < 2 ^ 236) (h : ∀ i, 1 ≤ i → i ≤ 180 → tip.pastTarget i ≤ hi)
    {i : Nat} (hpos : 1 ≤ i) (hmax : i ≤ 180) {st : PastBlocks} (hchain : st.pindex.chain = tip.chain.drop (i - 1))
    (havg : 2 ≤ i → st.bnPastTargetAvg.toNat = weightedAverage tip.pastTarget (i - 1)) :
    (pastRound params i st).bnPastTargetAvg.toNat = weightedAverage tip.pastTarget i := by
  have htarget := pastTarget_eq hchain
  have hbound := h i hpos hmax
  rw [htarget] at hbound
  match i, hpos with
  | 1, _ => exact htarget.symm
  | j + 2, _ =>
    have hprev := havg (by omega)
    rw [show j + 2 - 1 = j + 1 by omega] at hprev
    have hle := (weightedAverage_bounds (fun i hi hi' => ⟨Nat.zero_le _, h i hi hi'⟩)
      (show 1 ≤ j + 1 by omega) (show j + 1 ≤ 180 by omega)).2
    show (averageTargets (j + 2) st.bnPastTargetAvg (setCompact st.pindex.header.nBits).bnTarget).toNat = _
    rw [averageTargets_toNat (by omega) hmax (by omega) (by omega), hprev, weightedAverage, htarget]

/-- The loop from round `i` on, for a block `i - 1` steps before the tip. -/
theorem pastLoop_average (hhi : hi < 2 ^ 236) (h : ∀ i, 1 ≤ i → i ≤ 180 → tip.pastTarget i ≤ hi) {left : Nat} :
    ∀ {i : Nat} {st : PastBlocks}, 1 ≤ i → i + left ≤ 180 → i + left ≤ tip.chain.length →
      st.pindex.chain = tip.chain.drop (i - 1) →
      (2 ≤ i → st.bnPastTargetAvg.toNat = weightedAverage tip.pastTarget (i - 1)) →
      ∃ past, pastLoop params i st left = some past ∧ past.bnPastTargetAvg.toNat = weightedAverage tip.pastTarget (i + left) := by
  induction left with
  | zero =>
    intro i st hpos hmax _ hchain havg
    exact ⟨_, rfl, pastRound_average params hhi h hpos hmax hchain havg⟩
  | succ left ih =>
    intro i st hpos hmax hlen hchain havg
    have hround := pastRound_average params hhi h hpos (by omega) hchain havg
    cases hindex : st.pindex with
    | genesis header =>
      -- a block without a predecessor is the last of the chain
      rw [hindex] at hchain
      have hone : [CBlockIndex.genesis header].length = (tip.chain.drop (i - 1)).length := congrArg List.length hchain
      rw [List.length_drop, List.length_singleton] at hone
      omega
    | child header pprev =>
      have hnext : pprev.chain = tip.chain.drop i := by
        have htail := congrArg List.tail hchain
        rw [List.tail_drop, show i - 1 + 1 = i by omega, hindex] at htail
        exact htail
      obtain ⟨past, hpast, hresult⟩ := @ih (i + 1) { pastRound params i st with pindex := pprev } (by omega)
        (by omega) (by omega) hnext fun _ => hround
      refine ⟨past, ?_, by rw [hresult, show i + 1 + left = i + (left + 1) by omega]⟩
      rw [pastLoop, hindex]
      exact hpast

end Average

/-! ## One step of the difficulty -/

variable {params : PowParams}

section

variable (hspacing : params.nPowTargetSpacing = 5) (pindexLast : CBlockIndex)
include hspacing pindexLast

theorem actualTimespan_bounds (pindex : CBlockIndex) :
    300 ≤ actualTimespan params pindexLast pindex ∧ actualTimespan params pindexLast pindex ≤ 2700 := by
  have htarget : nTargetTimespan params = 900 := by
    rw [nTargetTimespan, hspacing]
    rfl
  rw [actualTimespan, htarget]
  simp only
  split_ifs <;> omega

theorem scaledTarget_toNat
    {past : PastBlocks} (havg : past.bnPastTargetAvg.toNat < 2 ^ 236) :
    (scaledTarget params pindexLast past).toNat =
      past.bnPastTargetAvg.toNat * (actualTimespan params pindexLast past.pindex).toNat / 900 := by
  obtain ⟨hlo, hhi⟩ := actualTimespan_bounds hspacing pindexLast past.pindex
  have htarget : nTargetTimespan params = (900 : Nat) := by
    rw [nTargetTimespan, hspacing]
    rfl
  obtain ⟨n, hn⟩ := Int.eq_ofNat_of_zero_le (show 0 ≤ actualTimespan params pindexLast past.pindex by omega)
  have hmul : past.bnPastTargetAvg.toNat * n ≤ 2 ^ 236 * 2700 := Nat.mul_le_mul havg.le (by omega)
  rw [scaledTarget, htarget, hn, divUint64_toNat _ (by norm_num), mulUint32_toNat (by omega) (by omega),
    Int.toNat_natCast]

theorem scaledTarget_bounds
    {past : PastBlocks} (havg : past.bnPastTargetAvg.toNat < 2 ^ 236) :
    past.bnPastTargetAvg.toNat / 3 ≤ (scaledTarget params pindexLast past).toNat ∧
      (scaledTarget params pindexLast past).toNat ≤ 3 * past.bnPastTargetAvg.toNat := by
  obtain ⟨hlo, hhi⟩ := actualTimespan_bounds hspacing pindexLast past.pindex
  rw [scaledTarget_toNat hspacing pindexLast havg]
  generalize past.bnPastTargetAvg.toNat = avg
  constructor
  · calc avg / 3 = avg * 300 / 900 := by omega
      _ ≤ avg * (actualTimespan params pindexLast past.pindex).toNat / 900 :=
        Nat.div_le_div_right (Nat.mul_le_mul_left _ (by omega))
  · calc avg * (actualTimespan params pindexLast past.pindex).toNat / 900 ≤ avg * 2700 / 900 :=
          Nat.div_le_div_right (Nat.mul_le_mul_left _ (by omega))
      _ = 3 * avg := by omega

end

/-- What is returned when neither limit is: the compact form of the scaled average, cut at the limit. -/
theorem retarget_bounds (hspacing : params.nPowTargetSpacing = 5) (hlimit : params.powLimit.toNat < 2 ^ 236)
    (hpos : params.powLimit.toNat ≠ 0) (pindexLast : CBlockIndex) {past : PastBlocks}
    (hlo : 3 ≤ past.bnPastTargetAvg.toNat) (hhi : past.bnPastTargetAvg.toNat ≤ params.powLimit.toNat)
    {bnNew : ArithUint256} (hnew : bnNew = if params.powLimit < scaledTarget params pindexLast past
      then params.powLimit else scaledTarget params pindexLast past) :
    (setCompact bnNew.getCompact).fNegative = false ∧ (setCompact bnNew.getCompact).fOverflow = false ∧
      0 < (setCompact bnNew.getCompact).bnTarget.toNat ∧
      (setCompact bnNew.getCompact).bnTarget.toNat ≤ params.powLimit.toNat ∧
      (setCompact bnNew.getCompact).bnTarget.toNat ≤ 3 * past.bnPastTargetAvg.toNat := by
  obtain ⟨hthird, hthree⟩ := scaledTarget_bounds hspacing pindexLast (show past.bnPastTargetAvg.toNat < 2 ^ 236 by omega)
  have hvalue : bnNew.toNat ≤ params.powLimit.toNat ∧ bnNew.toNat ≤ 3 * past.bnPastTargetAvg.toNat ∧ bnNew.toNat ≠ 0 := by
    rw [hnew]
    split_ifs with hcap
    · rw [BitVec.lt_def] at hcap
      exact ⟨le_rfl, by omega, hpos⟩
    · rw [BitVec.lt_def] at hcap
      exact ⟨by omega, hthree, by omega⟩
  obtain ⟨hneg, hover, hle, hnonzero⟩ := setCompact_getCompact (show bnNew.toNat < 2 ^ 248 by omega)
  exact ⟨hneg, hover, hnonzero hvalue.2.2, by omega, by omega⟩

/-- Retargeting on the two networks: the machine computes the weighted average and scales it without
reaching `2 ^ 256`, and what it returns is the compact form of the scaled average, cut at the limit, and
decodes to a target within the bounds. -/
theorem darkGravityWave_bounded (hparams : params = mainPow ∨ params = testPow) (tip : CBlockIndex)
    (pblock : CBlockHeader) (hheight : 360 ≤ tip.nHeight)
    (htargets : ∀ i, 1 ≤ i → i ≤ nPastBlocks →
      3 ≤ tip.pastTarget i ∧ tip.pastTarget i ≤ params.powLimit.toNat) :
    -- the rounds of the loop
    (∀ i, 1 ≤ i → i ≤ nPastBlocks → ∃ st, pastLoop params 1 ⟨tip, 0, 0⟩ (i - 1) = some st ∧
      st.bnPastTargetAvg.toNat = weightedAverage tip.pastTarget i) ∧
    (∀ i, 2 ≤ i → i ≤ nPastBlocks → weightedAverage tip.pastTarget (i - 1) * i + tip.pastTarget i < 2 ^ 256) ∧
    ∃ past nBits, pastBlocks params tip = some past ∧ darkGravityWave params tip pblock = some nBits ∧
      past.bnPastTargetAvg.toNat = weightedAverage tip.pastTarget nPastBlocks ∧
      -- the scaling
      0 ≤ actualTimespan params tip past.pindex ∧
      past.bnPastTargetAvg.toNat * (actualTimespan params tip past.pindex).toNat < 2 ^ 256 ∧
      weightedAverage tip.pastTarget nPastBlocks / 3 ≤ (scaledTarget params tip past).toNat ∧
      (returnsKawpowLimit params past pblock = false →
        nBits = (if params.powLimit < scaledTarget params tip past then params.powLimit
          else scaledTarget params tip past).getCompact ∧
        (setCompact nBits).fNegative = false ∧ (setCompact nBits).fOverflow = false ∧
        0 < (setCompact nBits).bnTarget.toNat ∧
        (setCompact nBits).bnTarget.toNat ≤ params.powLimit.toNat ∧
        (setCompact nBits).bnTarget.toNat ≤ 3 * weightedAverage tip.pastTarget nPastBlocks) := by
  have hspacing : params.nPowTargetSpacing = 5 := by rcases hparams with rfl | rfl <;> rfl
  have hfix : params.nDGWFixHeight = 181 := by rcases hparams with rfl | rfl <;> rfl
  have hretarget : params.fPowNoRetargeting = false := by rcases hparams with rfl | rfl <;> rfl
  have hlimit : params.powLimit.toNat = 2 ^ 236 - 1 := by rcases hparams with rfl | rfl <;> rfl
  unfold nPastBlocks at *
  have hbounds := fun i hi hi' => weightedAverage_bounds htargets (i := i) hi hi'
  have hloop : ∀ i, 1 ≤ i → i ≤ 180 → ∃ st, pastLoop params 1 ⟨tip, 0, 0⟩ (i - 1) = some st ∧
      st.bnPastTargetAvg.toNat = weightedAverage tip.pastTarget i := by
    intro i hi hi'
    have hchain := tip.chain_length
    have hspec : ∃ past, pastLoop params 1 ⟨tip, 0, 0⟩ (i - 1) = some past ∧
        past.bnPastTargetAvg.toNat = weightedAverage tip.pastTarget (1 + (i - 1)) :=
      pastLoop_average (show params.powLimit.toNat < 2 ^ 236 by omega) (fun i hi hi' => (htargets i hi hi').2)
        le_rfl (by omega) (by omega) rfl fun h => absurd h (by decide)
    rwa [show 1 + (i - 1) = i by omega] at hspec
  refine ⟨hloop, ?_, ?_⟩
  · intro i hi hi'
    have havg := (hbounds (i - 1) (by omega) (by omega)).2
    have htarget := (htargets i (by omega) hi').2
    have hmul : weightedAverage tip.pastTarget (i - 1) * i ≤ 2 ^ 236 * 180 :=
      Nat.mul_le_mul (by omega) hi'
    omega
  · obtain ⟨past, hpast, havg⟩ := hloop 180 (by decide) le_rfl
    obtain ⟨hlo, hhi⟩ := hbounds 180 (by decide) le_rfl
    obtain ⟨htlo, hthi⟩ := actualTimespan_bounds hspacing tip past.pindex
    have hlimits : returnsPowLimit params tip = false := by
      simp only [returnsPowLimit, hfix, nPastBlocks, Bool.or_eq_false_iff, Bool.and_eq_false_iff,
        decide_eq_false_iff_not]
      exact ⟨.inr (by push_cast; omega), decide_eq_false (by omega)⟩
    have hmul : past.bnPastTargetAvg.toNat * (actualTimespan params tip past.pindex).toNat ≤ 2 ^ 236 * 2700 :=
      Nat.mul_le_mul (by omega) (by omega)
    have hthird := (scaledTarget_bounds hspacing tip (show past.bnPastTargetAvg.toNat < 2 ^ 236 by omega)).1
    have hwave : darkGravityWave params tip pblock = some
        (if returnsKawpowLimit params past pblock then params.kawpowLimit.getCompact
        else (if params.powLimit < scaledTarget params tip past then params.powLimit
          else scaledTarget params tip past).getCompact) := by
      rw [darkGravityWave, hlimits, hretarget]
      simp only [Bool.and_false, Bool.false_eq_true, if_false]
      have hpast' : pastBlocks params tip = some past := hpast
      rw [hpast']
      simp only [Option.bind_eq_bind, Option.bind_some]
      split_ifs <;> rfl
    refine ⟨past, _, hpast, hwave, havg, by omega, by omega, by rw [← havg]; exact hthird, fun hkawpow => ?_⟩
    rw [hkawpow, ← havg]
    exact ⟨rfl, retarget_bounds hspacing (by omega) (by omega) tip (by omega) (by omega) rfl⟩

def steadyHeader (n : Nat) : CBlockHeader :=
  ⟨4, n, 0, UInt32.ofNat (1766126932 + 5 * n), 0x1d00ffff, 0, UInt32.ofNat n, 0, 0⟩

def steadyChain : Nat → CBlockIndex
  | 0 => .genesis (steadyHeader 0)
  | n + 1 => .child (steadyHeader (n + 1)) (steadyChain n)

theorem steadyChain_nHeight (n : Nat) : (steadyChain n).nHeight = n := by
  induction n with
  | zero => rfl
  | succ n ih => rw [steadyChain, CBlockIndex.nHeight, ih]

theorem steadyChain_nBits (n : Nat) : ∀ b ∈ (steadyChain n).chain, b.header.nBits = 0x1d00ffff := by
  induction n with
  | zero =>
    intro b hb
    rw [steadyChain, CBlockIndex.chain, List.mem_singleton] at hb
    rw [hb]
    rfl
  | succ n ih =>
    intro b hb
    rw [steadyChain, CBlockIndex.chain, List.mem_cons] at hb
    rcases hb with rfl | hb
    · rfl
    · exact ih b hb

theorem steadyChain_pastTarget {n i : Nat} (hi : i ≤ n) :
    (steadyChain n).pastTarget i = (setCompact 0x1d00ffff).bnTarget.toNat := by
  have hlen : i - 1 < (steadyChain n).chain.length := by
    rw [CBlockIndex.chain_length, steadyChain_nHeight]
    omega
  have hmem := steadyChain_nBits n _ (List.getElem_mem hlen)
  rw [CBlockIndex.pastTarget, List.getElem?_eq_getElem hlen, Option.map_some, Option.getD_some, hmem]

/-- Blocks five seconds apart: the new target is at least a third of the average, and not zero. -/
theorem steadyChain_bounded :
    360 ≤ (steadyChain 360).nHeight ∧
    ∃ past nBits, darkGravityWave mainPow (steadyChain 360) (steadyHeader 361) = some nBits ∧
      nBits = (scaledTarget mainPow (steadyChain 360) past).getCompact ∧
      weightedAverage (steadyChain 360).pastTarget nPastBlocks / 3 ≤
        (scaledTarget mainPow (steadyChain 360) past).toNat ∧
      0 < (setCompact nBits).bnTarget.toNat ∧
      (setCompact nBits).bnTarget.toNat ≤ 3 * weightedAverage (steadyChain 360).pastTarget nPastBlocks := by
  have hheight : 360 ≤ (steadyChain 360).nHeight := (steadyChain_nHeight 360).ge
  have htargets : ∀ i, 1 ≤ i → i ≤ nPastBlocks → 3 ≤ (steadyChain 360).pastTarget i ∧
      (steadyChain 360).pastTarget i ≤ mainPow.powLimit.toNat := by
    intro i _ hi
    rw [steadyChain_pastTarget (hi.trans (by decide))]
    decide +kernel
  obtain ⟨-, -, past, nBits, hpast, hwave, -, -, -, hthird, hresult⟩ :=
    darkGravityWave_bounded (.inl rfl) (steadyChain 360) (steadyHeader 361) hheight htargets
  have hshortcuts : (pastBlocks mainPow (steadyChain 360)).map
      (fun past => (returnsKawpowLimit mainPow past (steadyHeader 361),
        decide (mainPow.powLimit < scaledTarget mainPow (steadyChain 360) past))) = some (false, false) := by
    decide +kernel
  rw [hpast] at hshortcuts
  obtain ⟨hkawpow, hbelow⟩ := Prod.mk.inj (Option.some.inj hshortcuts)
  obtain ⟨hbits, -, -, hpos, -, hthree⟩ := hresult hkawpow
  rw [if_neg (of_decide_eq_false hbelow)] at hbits
  exact ⟨hheight, past, nBits, hwave, hbits, hthird, hpos, hthree⟩

/-! ## Chain work -/

/-- How many hashes it takes on average to find one that is not above the target. -/
def CBlockIndex.expectedHashes (block : CBlockIndex) : Nat :=
  2 ^ 256 / ((setCompact block.header.nBits).bnTarget.toNat + 1)

theorem getBlockProof_toNat (hlimit : params.powLimit.toNat < 2 ^ 256 - 1) {hash : Uint256} {block : CBlockIndex}
    (h : checkProofOfWork params hash block.header.nBits = true) :
    (getBlockProof block).toNat = block.expectedHashes := by
  simp only [checkProofOfWork] at h
  split_ifs at h with hbad
  simp only [Bool.or_eq_true, beq_iff_eq, decide_eq_true_eq, BitVec.lt_def, not_or, Bool.not_eq_true] at hbad
  obtain ⟨⟨⟨hneg, hzero⟩, hover⟩, hmax⟩ := hbad
  simp only [getBlockProof, CBlockIndex.expectedHashes, hneg, hover, Bool.or_self, beq_iff_eq, hzero, Bool.false_or, if_false]
  generalize (setCompact block.header.nBits).bnTarget = t at *
  have hpos : t.toNat ≠ 0 := fun h => hzero (BitVec.eq_of_toNat_eq h)
  -- the quotient is taken of the complement, which is `t + 1` below `2 ^ 256`
  have hquot : 2 ^ 256 / (t.toNat + 1) = (2 ^ 256 - 1 - t.toNat) / (t.toNat + 1) + 1 := by
    rw [← Nat.add_div_right _ (Nat.succ_pos _)]
    congr 1
    omega
  have hle := Nat.div_le_self (2 ^ 256 - 1 - t.toNat) (t.toNat + 1)
  have hone : (1 : ArithUint256).toNat = 1 := rfl
  rw [hquot, BitVec.toNat_add, BitVec.toNat_udiv, BitVec.toNat_not, BitVec.toNat_add, hone,
    Nat.mod_eq_of_lt (a := t.toNat + 1) (by omega), Nat.mod_eq_of_lt (by omega)]

/-- **Chain work.** The work of a chain whose headers all pass the check of their proof of work is the number of
hashes they are expected to take, as long as 256 bits hold it. -/
theorem nChainWork_toNat (hlimit : params.powLimit.toNat < 2 ^ 256 - 1) (index : CBlockIndex)
    (hwork : ∀ b ∈ index.chain, ∃ hash, checkProofOfWork params hash b.header.nBits = true)
    (hfits : (index.chain.map CBlockIndex.expectedHashes).sum < 2 ^ 256) :
    index.nChainWork.toNat = (index.chain.map CBlockIndex.expectedHashes).sum := by
  induction index with
  | genesis header =>
    obtain ⟨hash, h⟩ := hwork _ List.mem_cons_self
    simpa [CBlockIndex.chain, CBlockIndex.nChainWork] using getBlockProof_toNat hlimit h
  | child header pprev ih =>
    obtain ⟨hash, h⟩ := hwork _ List.mem_cons_self
    rw [CBlockIndex.chain, List.map_cons, List.sum_cons] at hfits ⊢
    rw [CBlockIndex.nChainWork, BitVec.toNat_add, getBlockProof_toNat hlimit h,
      ih (fun b hb => hwork b (List.mem_cons_of_mem _ hb)) (by omega), Nat.mod_eq_of_lt (by omega), add_comm]

theorem steadyChain_nChainWork : (steadyChain 2).nChainWork.toNat = 3 * 4295032833 := by
  have hlimit : mainPow.powLimit.toNat < 2 ^ 256 - 1 := by decide
  refine (nChainWork_toNat hlimit (steadyChain 2) (fun b hb => ⟨0, ?_⟩) ?_).trans ?_
  · rw [steadyChain_nBits 2 b hb]
    decide +kernel
  all_goals decide +kernel

end HempCore
