import HempCore.Analysis.WalletConservation

/-!
# The fee loop ends, and the amounts balance

What the inputs of a call hold above the outputs is the fee, as long as the amounts add up within their type and
everybody who is counted as a payer of the fee can and does pay a share of it. For recipients of which this is not
true there is a wallet whose transaction does not balance.
-/

set_option autoImplicit false

namespace HempCore

open Lib

variable {env : CreateEnv} {node : CreateNode} {req : CreateRequest} {setup : LoopSetup} {pass n : Nat} {st : LoopState}
  {built : BuiltPass} {dustRelayFee : Nat → Int} {vecSend : List CRecipient} {vout : List CTxOut} {fee maxFee : Int}

/-- The coins that a transaction spends are worth the sum of their values. -/
def coinValue (coins : List CInputCoin) : Int := (coins.map fun coin => coin.txout.nValue).sum

def outputValue (vout : List CTxOut) : Int := (vout.map CTxOut.nValue).sum

@[simp] theorem outputValue_append (vout more : List CTxOut) :
    outputValue (vout ++ more) = outputValue vout + outputValue more := by
  simp [outputValue]

theorem outputValue_eq_zero (h : ∀ out ∈ vout, out.nValue = 0) : outputValue vout = 0 := by
  refine List.sum_eq_zero fun v hv => ?_
  obtain ⟨out, hout, rfl⟩ := List.mem_map.mp hv
  exact h out hout

/-! ## The shares of the fee -/

/-- How many do pay a share of the fee. -/
def paying (vecSend : List CRecipient) : Nat := vecSend.countP CRecipient.paysFee

theorem paying_le (vecSend : List CRecipient) : paying vecSend ≤ payers vecSend :=
  List.countP_mono_left fun _ _ h => (Bool.and_eq_true_iff.mp h).1

/-- What is paid of a fee. -/
def paidFee (n : Nat) (fee : Int) (fFirst : Bool) (vecSend : List CRecipient) : Int :=
  ((feeShares n fee fFirst vecSend).map Prod.snd).sum

theorem paidFee_zero : paidFee n 0 true vecSend = 0 := by
  refine List.sum_eq_zero fun v hv => ?_
  obtain ⟨p, hp, rfl⟩ := List.mem_map.mp hv
  exact share_eq_zero hp

/-- The sum of the shares: one part for each that pays, and the remainder. -/
theorem paidFee_eq (fFirst : Bool) (vecSend : List CRecipient) : paidFee n fee fFirst vecSend =
    paying vecSend * fee.tdiv n + if fFirst = true ∧ 0 < paying vecSend then fee.tmod n else 0 := by
  unfold paidFee paying
  induction vecSend generalizing fFirst with
  | nil => simp [feeShares]
  | cons recipient vecSend ih =>
    rw [feeShares, List.map_cons, List.sum_cons, ih, List.countP_cons]
    cases recipient.paysFee with
    | false => simp
    | true =>
      cases fFirst with
      | false =>
        simp
        ring
      | true =>
        simp
        ring

/-- The shares add up to the fee when all that are counted pay, or the fee is less than one unit for each. -/
theorem paidFee_eq_iff (hfee : 0 < fee) (hn : n ≠ 0) (hcount : paying vecSend ≤ n) :
    paidFee n fee true vecSend = fee ↔ paying vecSend = n ∨ (0 < paying vecSend ∧ fee < n) := by
  have hsplit : (n : Int) * fee.tdiv n + fee.tmod n = fee := Int.mul_tdiv_add_tmod fee n
  rw [paidFee_eq]
  generalize paying vecSend = k at hcount
  rcases Nat.eq_zero_or_pos k with rfl | hk
  · simp only [Nat.cast_zero, zero_mul, lt_self_iff_false, and_false, if_false, add_zero, false_and, or_false]
    constructor
    · intro h
      omega
    · rintro rfl
      exact absurd rfl hn
  · simp only [hk, and_self, if_true, true_and]
    have hrest : (k : Int) * fee.tdiv n + fee.tmod n = fee ↔ ((n : Int) - k) * fee.tdiv n = 0 := by
      rw [sub_mul]
      omega
    rw [hrest, mul_eq_zero]
    refine or_congr (by omega) ?_
    constructor
    · intro hzero
      rw [hzero, mul_zero, zero_add] at hsplit
      rw [← hsplit]
      exact Int.tmod_lt_of_pos _ (by omega)
    · exact Int.tdiv_eq_zero_of_lt hfee.le

theorem feeShares_nonneg (hfee : 0 ≤ fee) {p : CRecipient × Int} {fFirst : Bool}
    (h : p ∈ feeShares n fee fFirst vecSend) : 0 ≤ p.2 := by
  have hdiv : 0 ≤ fee.tdiv n := Int.tdiv_nonneg hfee (Int.natCast_nonneg n)
  have hmod : 0 ≤ fee.tmod n := Int.tmod_nonneg _ hfee
  induction vecSend generalizing fFirst with
  | nil => cases h
  | cons recipient vecSend ih =>
    rcases List.mem_cons.mp h with rfl | h
    · simp only
      split_ifs <;> omega
    · exact ih h

/-- The payees get their amounts less the shares. -/
theorem outputValue_payees (fFirst : Bool) (vecSend : List CRecipient) :
    outputValue ((feeShares n fee fFirst vecSend).map payeeOut) = amountSum vecSend - paidFee n fee fFirst vecSend := by
  have hsum : ∀ l : List (CRecipient × Int), outputValue (l.map payeeOut) =
      amountSum (l.map Prod.fst) - (l.map Prod.snd).sum := by
    intro l
    induction l with
    | nil => rfl
    | cons p l ih =>
      simp only [outputValue, amountSum, List.map_cons, List.sum_cons, payeeOut] at ih ⊢
      omega
  rw [hsum, feeShares_fst, paidFee]

/-- The recipients can be paid when each of them pays its share of a fee. Only the last amount can lead the sum out
of the range: the one before is seen to be negative. -/
structure CanPay (dustRelayFee : Nat → Int) (vecSend : List CRecipient) (fee : Int) : Prop where
  nonempty : vecSend ≠ []
  nonneg : ∀ recipient ∈ vecSend, 0 ≤ recipient.nAmount
  front : amountSum vecSend.dropLast < 2 ^ 63
  payable : ∀ p ∈ feeShares (payers vecSend) fee true vecSend, Payable dustRelayFee p

/-- Nobody has to pay more than its amount, and all that are counted pay, unless the fee is less than one unit for
each of them. -/
def Affordable (vecSend : List CRecipient) (fee : Int) : Prop :=
  (∀ p ∈ feeShares (payers vecSend) fee true vecSend, p.2 ≤ p.1.nAmount) ∧
  (paying vecSend = payers vecSend ∨ (0 < paying vecSend ∧ fee < payers vecSend))

/-- Recipients whose amounts do not leave their type, and who can share every fee. -/
structure FeeIsShared (dustRelayFee : Nat → Int) (vecSend : List CRecipient) (maxFee : Int) : Prop where
  total : CanPay dustRelayFee vecSend 0 → amountSum vecSend < 2 ^ 63
  shares : ∀ fee, 0 < fee → fee ≤ maxFee → CanPay dustRelayFee vecSend fee → amountSum vecSend ≤ maxMoney →
    Affordable vecSend fee

/-- What the payees get when the fee is shared. -/
theorem FeeIsShared.payees (h : FeeIsShared dustRelayFee vecSend maxFee) (hlow : 0 ≤ fee) (hhigh : fee ≤ maxFee)
    (haccepted : CanPay dustRelayFee vecSend fee) (hsum : fee = 0 ∨ amountSum vecSend ≤ maxMoney) :
    outputValue ((feeShares (payers vecSend) fee true vecSend).map payeeOut) =
        amountSum vecSend - (if payers vecSend = 0 then 0 else fee) ∧
      ∀ out ∈ (feeShares (payers vecSend) fee true vecSend).map payeeOut, 0 ≤ out.nValue := by
  rw [outputValue_payees]
  rcases hlow.eq_or_lt with rfl | hpos
  · refine ⟨by rw [paidFee_zero, ite_self], fun out hout => ?_⟩
    obtain ⟨p, hp, rfl⟩ := List.mem_map.mp hout
    have hamount := haccepted.nonneg p.1 (mem_feeShares hp).1
    simp only [payeeOut, share_eq_zero hp]
    omega
  · obtain ⟨hshares, hcount⟩ := h.shares fee hpos hhigh haccepted (hsum.resolve_left hpos.ne')
    constructor
    · congr 1
      split_ifs with hn
      · have hnone : paying vecSend = 0 := Nat.le_zero.mp (hn ▸ paying_le vecSend)
        rw [paidFee_eq, hnone]
        simp
      · exact (paidFee_eq_iff hpos hn (paying_le vecSend)).mpr hcount
    · intro out hout
      obtain ⟨p, hp, rfl⟩ := List.mem_map.mp hout
      have hle := hshares p hp
      simp only [payeeOut]
      omega

/-! ## The values of the other outputs -/

theorem assetChange_nValue {setAssets : CoinSet} {mapAssetsIn : AssetTotals}
    {assetChange : List CTxOut} (h : assetChangeOutputs node setup setAssets mapAssetsIn = .ok assetChange) :
    ∀ out ∈ assetChange, out.nValue = 0 := by
  intro out hout
  obtain ⟨p, -, -, script, -, rfl⟩ := isAssetChange_of_mem h out hout
  rfl

theorem issued_nValue {cfg : Config} {out : CTxOut} (h : out ∈ if cfg.dep.assets then issueOutputs req else []) :
    out.nValue = 0 := by
  split at h
  · unfold issueOutputs at h
    split at h
    · obtain ⟨asset, -, hout⟩ := List.mem_flatMap.mp h
      rcases List.mem_append.mp hout with hout | hout
      · split at hout
        · rw [List.mem_singleton.mp hout]
        · cases hout
      · rw [List.mem_singleton.mp hout]
    · split at h
      · rw [List.mem_singleton.mp h]
      · cases h
  · cases h

theorem outputValue_insertIdx {p : Nat} (hp : p ≤ vout.length) (out : CTxOut) :
    outputValue (vout.insertIdx p out) = outputValue vout + out.nValue := by
  have hperm := List.perm_insertIdx out vout hp
  rw [outputValue, (hperm.map _).sum_eq, List.map_cons, List.sum_cons, add_comm]
  rfl

theorem outputValue_addToChange {p : Nat} (hp : p < vout.length) (extra : Int) :
    outputValue (addToChange vout p extra) = outputValue vout + extra := by
  induction vout generalizing p with
  | nil => simp at hp
  | cons out vout ih =>
    cases p with
    | zero => simp [addToChange, outputValue]; ring
    | succ p =>
      have hrest := ih (Nat.lt_of_succ_lt_succ hp)
      simp only [addToChange, outputValue] at hrest ⊢
      simp only [List.modify_succ_cons, List.map_cons, List.sum_cons, hrest]
      ring

theorem addToChange_nonneg {p : Nat} {extra : Int} (hnonneg : ∀ out ∈ vout, 0 ≤ out.nValue)
    (hchange : 0 ≤ (vout[p]?.map CTxOut.nValue).getD 0 + extra) : ∀ out ∈ addToChange vout p extra, 0 ≤ out.nValue := by
  intro out hout
  obtain ⟨i, hi, rfl⟩ := List.getElem_of_mem hout
  simp only [addToChange, List.length_modify] at hi
  simp only [addToChange, List.getElem_modify]
  split_ifs with heq
  · subst heq
    simpa [hi] using hchange
  · exact hnonneg _ (List.getElem_mem hi)

theorem getDustThreshold_nonneg {rate : Nat → Int} (h : ∀ nSize, 0 ≤ rate nSize) (txout : CTxOut) :
    0 ≤ getDustThreshold txout rate := by
  unfold getDustThreshold
  split
  · exact le_rfl
  · exact h _

/-! ## One pass -/

/-- The answers of a fee function that is monotone in the size and bounded: a change makes a transaction larger. -/
structure CreateAnswers.FeesWithin (answers : CreateAnswers) (maxFee : Int) : Prop where
  nonneg : ∀ pass, 0 ≤ answers.nFeeNeeded pass
  monotone : ∀ pass, answers.nFeeNeeded pass ≤ answers.feeNeededWithChange pass
  bounded : ∀ pass, answers.feeNeededWithChange pass ≤ maxFee
  discardRate : ∀ nSize, 0 ≤ answers.discardRate nSize

/-- What a call has to be for its amounts to balance. -/
structure Sound (env : CreateEnv) (req : CreateRequest) (setup : LoopSetup) (maxFee : Int) : Prop where
  setup_eq : loopSetup env.toCreateNode req = .ok setup
  supply : WithinSupply env.toCreateNode req
  selected : req.coinControl.setSelected.Nodup
  amounts : ∀ recipient ∈ req.vecSend, recipient.nAmount < 2 ^ 63
  feeLimit : maxFee ≤ maxMoney
  fees : env.FeesWithin maxFee
  shared : FeeIsShared env.dustRelayFee req.vecSend maxFee

/-- The coins of a pass are worth what it believes, and its assets are in asset scripts. -/
structure Counted (st : LoopState) : Prop where
  coins : st.nValueIn = mapSum CTxOut.nValue st.setCoins
  assets : ∀ (o : COutPoint) (x : CTxOut), st.setAssets[o]? = some x → (isAssetScript x.scriptPubKey).isSome

/-- What the passes hand on. After the first pass the wallet has reached the sum. -/
structure Ready (req : CreateRequest) (setup : LoopSetup) (maxFee : Int) (st : LoopState) : Prop where
  fee : 0 ≤ st.nFeeRet ∧ st.nFeeRet ≤ maxFee
  sum : (st.nFeeRet = 0 ∧ st.pick_new_inputs = true) ∨ amountSum req.vecSend ≤ maxMoney
  counted : Counted st
  kept : st.pick_new_inputs = false → amountSum req.vecSend +
    (if setup.totals.nSubtractFeeFromAmount = 0 then st.nFeeRet else 0) ≤ st.nValueIn ∧ st.nValueIn ≤ maxMoney

/-- What a pass has built. -/
structure Balanced (req : CreateRequest) (setup : LoopSetup) (built : BuiltPass) : Prop where
  counted : Counted built.st
  value : outputValue built.vout + built.nFeeRet = built.st.nValueIn
  nonneg : ∀ out ∈ built.vout, 0 ≤ out.nValue
  change : ∀ pos, built.nChangePosInOut = some pos → pos < built.vout.length
  enough : amountSum req.vecSend ≤ built.st.nValueIn ∧ built.st.nValueIn ≤ maxMoney
  noChange : built.nChangePosInOut = none → setup.totals.nSubtractFeeFromAmount = 0 →
    amountSum req.vecSend + built.nFeeRet = built.st.nValueIn

theorem Sound.totals (h : Sound env req setup maxFee) :
    Totals env.cfg req.usesAssets req.vecSend setup.totals := sendTotals_spec (loopSetup_cases h.setup_eq).1

theorem Sound.accepted (h : Sound env req setup maxFee)
    (hpayable : ∀ p ∈ feeShares setup.totals.nSubtractFeeFromAmount fee true req.vecSend, Payable env.dustRelayFee p) :
    CanPay env.dustRelayFee req.vecSend fee := by
  have htotals := (loopSetup_cases h.setup_eq).1
  simp only [sendTotals, bind_eq_ok, exists_punit, require_eq_ok, Bool.not_eq_true', List.isEmpty_eq_false_iff] at htotals
  obtain ⟨-, -, -, -, totals, -, hne, -⟩ := htotals
  exact ⟨hne, h.totals.nonneg, h.totals.front h.amounts, h.totals.payers ▸ hpayable⟩

/-- Until the sum is reached the fee is `0`, so that it is added without leaving the range. -/
theorem Sound.nValueToSelect (h : Sound env req setup maxFee) (hready : Ready req setup maxFee st)
    (haccepted : CanPay env.dustRelayFee req.vecSend st.nFeeRet) : setup.nValueToSelect st.nFeeRet =
      amountSum req.vecSend + if setup.totals.nSubtractFeeFromAmount = 0 then st.nFeeRet else 0 := by
  have hmax : 2 * maxMoney < 2 ^ 63 := by decide
  have hmaxFee := h.feeLimit
  have hfee := hready.fee
  have hnonneg := amountSum_nonneg h.totals.nonneg
  have hlt : amountSum req.vecSend < 2 ^ 63 ∧ amountSum req.vecSend + st.nFeeRet < 2 ^ 63 := by
    rcases hready.sum with ⟨hzero, -⟩ | hsum
    · rw [hzero] at haccepted ⊢
      have htotal := h.shared.total haccepted
      exact ⟨htotal, by omega⟩
    · constructor <;> omega
  rw [LoopSetup.nValueToSelect, h.totals.value, toCAmount_of_fits (by omega) hlt.1]
  split_ifs
  · exact toCAmount_of_fits (by omega) hlt.2
  · exact toCAmount_of_fits (by omega) (by omega)

/-- The inputs of a pass: they reach what is asked for and are worth what the pass believes. -/
theorem chooseInputs_ready (hsound : Sound env req setup maxFee) (hready : Ready req setup maxFee st)
    (haccepted : CanPay env.dustRelayFee req.vecSend st.nFeeRet) {st' : LoopState} {mapAssetsIn : AssetTotals}
    (h : chooseInputs env req setup pass st = .ok (st', mapAssetsIn)) :
    Counted st' ∧ setup.nValueToSelect st.nFeeRet ≤ st'.nValueIn ∧ st'.nValueIn ≤ maxMoney := by
  obtain ⟨-, hvcoins, hvassets, -⟩ := loopSetup_cases hsound.setup_eq
  cases hpick : st.pick_new_inputs with
  | false =>
    cases (chooseInputs_kept hpick).symm.trans h
    obtain ⟨hlow, hhigh⟩ := hready.kept hpick
    rw [hsound.nValueToSelect hready haccepted]
    exact ⟨hready.counted, hlow, hhigh⟩
  | true =>
    obtain ⟨setCoins, nValueIn, hselect, hassets⟩ := (chooseInputs_picked hpick).mp h
    rw [hvcoins] at hselect
    obtain ⟨-, hvalue, hreach⟩ := selectCoins_spec (available_nodup _ req) hselect
    obtain ⟨-, hhigh⟩ := hsound.supply.selected hsound.selected hselect
    split_ifs at hassets
    · obtain ⟨setAssets, hset, rfl⟩ := hassets
      refine ⟨⟨hvalue hsound.selected, fun o x hget => ?_⟩, hreach, hhigh⟩
      rw [hvassets] at hset
      have hoffered := available_offered env.toCreateNode req
      obtain ⟨l, hl, -, hfrom⟩ := (selectAssets_spec hoffered (outpoints_nodup env.wallet) hset).coins
      obtain ⟨p, hp, hmem⟩ := hfrom ⟨o, x⟩ ((hl o x).mp hget)
      obtain ⟨output, hout, heq⟩ := List.mem_map.mp hmem
      obtain ⟨data, hdata, -⟩ := hoffered.carries p.1 p.2 (Std.TreeMap.mem_toList_iff_getElem?_eq_some.mp hp) output hout
      rw [heq] at hdata
      exact isAssetScript_of_getAssetData hdata
    · obtain ⟨-, rfl⟩ := hassets
      exact ⟨⟨hvalue hsound.selected, hready.counted.assets⟩, hreach, hhigh⟩

/-- A pass balances what it builds. -/
theorem buildPass_balanced (hsound : Sound env req setup maxFee) (hready : Ready req setup maxFee st)
    (h : buildPass env req setup pass st = .ok built) : Balanced req setup built := by
  obtain ⟨payeeOuts, mapAssetsIn, vout, hpayees, hchoose, hassets, hcoin, hvout⟩ := buildPass_eq_ok.mp h
  obtain ⟨hpayable, rfl⟩ := payees_eq_ok.mp hpayees
  have haccepted := hsound.accepted hpayable
  obtain ⟨hcounted, hreach, hhigh⟩ := chooseInputs_ready hsound hready haccepted hchoose
  have hselect := hsound.nValueToSelect hready haccepted
  obtain ⟨-, hfee⟩ := chooseInputs_frame hchoose
  have hsum := amountSum_nonneg hsound.totals.nonneg
  have hlow := hready.fee.1
  -- nothing leaves the range, so the change is what is left over
  have hchange : setup.nChange built.st = built.st.nValueIn - setup.nValueToSelect st.nFeeRet := by
    have hmax : maxMoney < 2 ^ 63 := by decide
    rw [LoopSetup.nChange, hfee]
    refine toCAmount_of_fits (by omega) ?_
    split_ifs at hselect <;> omega
  obtain ⟨hpaid, hpos⟩ := hsound.shared.payees hlow hready.fee.2 haccepted (hready.sum.imp_left And.left)
  rw [← hsound.totals.payers] at hpaid hpos
  rw [hchange, hfee] at hcoin
  have hassetZero := assetChange_nValue hassets
  have hissueZero : ∀ out ∈ (if env.cfg.dep.assets then issueOutputs req else []), out.nValue = 0 := fun out =>
    issued_nValue
  have htotal : outputValue built.vout = outputValue vout := by
    rw [hvout, outputValue_append, outputValue_eq_zero hissueZero, add_zero]
  have hfront : outputValue ((feeShares setup.totals.nSubtractFeeFromAmount st.nFeeRet true req.vecSend).map payeeOut ++
      built.assetChange) = amountSum req.vecSend -
        if setup.totals.nSubtractFeeFromAmount = 0 then 0 else st.nFeeRet := by
    rw [outputValue_append, outputValue_eq_zero hassetZero, add_zero, hpaid]
  have hfrontPos : ∀ out ∈ (feeShares setup.totals.nSubtractFeeFromAmount st.nFeeRet true req.vecSend).map payeeOut ++
      built.assetChange, 0 ≤ out.nValue := fun out hout => by
    rcases List.mem_append.mp hout with hout | hout
    · exact hpos out hout
    · exact (hassetZero out hout).ge
  have hsigns : (∀ out ∈ vout, 0 ≤ out.nValue) → ∀ out ∈ built.vout, 0 ≤ out.nValue := by
    intro hall out hout
    rw [hvout] at hout
    rcases List.mem_append.mp hout with hout | hout
    · exact hall out hout
    · exact (hissueZero out hout).ge
  have henough : amountSum req.vecSend ≤ built.st.nValueIn ∧ built.st.nValueIn ≤ maxMoney := by
    split_ifs at hselect <;> constructor <;> omega
  rcases coinChange_cases hcoin with ⟨hnone, rfl, hfee'⟩ | ⟨p, hsome, hp, hchangePos, rfl, hfee'⟩
  · rw [max_eq_right (by omega)] at hfee'
    refine ⟨hcounted, ?_, hsigns hfrontPos, ?_, henough, fun _ hzero => ?_⟩
    · rw [htotal, hfront, hfee', hselect]
      split_ifs <;> omega
    · intro pos hpos'
      rw [hnone] at hpos'
      cases hpos'
    · rw [if_pos hzero] at hselect
      omega
  · refine ⟨hcounted, ?_, hsigns ?_, ?_, henough, fun hnone _ => ?_⟩
    · rw [htotal, outputValue_insertIdx hp, hfront, hfee', hselect]
      split_ifs <;> simp only <;> omega
    · intro out hout
      rcases List.eq_or_mem_of_mem_insertIdx hout with rfl | hout
      · exact hchangePos.le
      · exact hfrontPos out hout
    · intro pos hpos'
      obtain rfl := Option.some.inj (hsome.symm.trans hpos')
      rw [hvout, List.length_append, List.length_insertIdx_of_le_length hp]
      omega
    · rw [hsome] at hnone
      cases hnone

/-- A pass that is followed by another hands on what that one needs. -/
theorem decidePass_ready (hsound : Sound env req setup maxFee) (hbalanced : Balanced req setup built) {st' : LoopState}
    (h : decidePass env setup pass built = .ok (.again st')) : Ready req setup maxFee st' := by
  have hneeded := hsound.fees.nonneg pass
  have hmonotone := hsound.fees.monotone pass
  have hbounded := hsound.fees.bounded pass
  obtain ⟨henough, hhigh⟩ := hbalanced.enough
  rcases decidePass_cases h with ⟨vout, fee, hdone, -⟩ | ⟨-, pick, fee, heq, hrepeats⟩
  · cases hdone
  · cases heq
    have hsum : amountSum req.vecSend ≤ maxMoney := henough.trans hhigh
    rcases hrepeats with ⟨rfl, rfl, -⟩ | ⟨rfl, hzero, rfl, hnone, hleft⟩
    · refine ⟨⟨hneeded, hmonotone.trans hbounded⟩, .inr hsum, { hbalanced.counted with }, fun hfalse => ?_⟩
      rw [if_neg (of_decide_eq_false hfalse), add_zero]
      exact ⟨henough, hhigh⟩
    · -- what is left over goes into a change
      have hthreshold := getDustThreshold_nonneg hsound.fees.discardRate ⟨0, setup.scriptChange⟩
      have hvalue := hbalanced.noChange hnone hzero
      refine ⟨⟨hneeded.trans hmonotone, hbounded⟩, .inr hsum, { hbalanced.counted with }, fun _ => ?_⟩
      rw [if_pos hzero]
      exact ⟨by simp only; omega, hhigh⟩

/-- Every pass is ready for what it does. -/
theorem BeginsPass.ready (hsound : Sound env req setup maxFee) (hmaxFee : 0 ≤ maxFee)
    (h : BeginsPass env req setup pass st) : Ready req setup maxFee st := by
  induction h with
  | start =>
    refine ⟨⟨le_rfl, hmaxFee⟩, .inl ⟨rfl, rfl⟩, ⟨?_, fun o x hget => ?_⟩, fun hfalse => ?_⟩
    · simp [startState]
    · simp [startState] at hget
    · cases hfalse
  | again _ hbuild hdecide ih => exact decidePass_ready hsound (buildPass_balanced hsound ih hbuild) hdecide

/-- Moving a part of the fee to the change or back keeps the balance. -/
theorem Adjusts.balanced (hbalanced : Balanced req setup built) {nFeeRet : Int}
    (h : Adjusts built vout nFeeRet) :
    outputValue vout + nFeeRet = built.st.nValueIn ∧ ∀ out ∈ vout, 0 ≤ out.nValue := by
  rcases h with ⟨rfl, rfl⟩ | ⟨pos, extra, hpos, rfl, rfl, hextra⟩
  · exact ⟨hbalanced.value, hbalanced.nonneg⟩
  · have hlt := hbalanced.change pos hpos
    constructor
    · rw [outputValue_addToChange hlt, ← hbalanced.value]
      ring
    · apply addToChange_nonneg hbalanced.nonneg
      rcases hextra with hextra | hextra
      · have hvalue := hbalanced.nonneg _ (List.getElem_mem hlt)
        rw [List.getElem?_eq_getElem hlt, Option.map_some, Option.getD_some]
        omega
      · exact hextra

/-! ## The inputs -/

/-- The assets carry no value in coins. -/
def ValuelessAssets (inputs : List CInputCoin) : Prop :=
  ∀ coin ∈ inputs, (isAssetScript coin.txout.scriptPubKey).isSome → coin.txout.nValue = 0

instance (inputs : List CInputCoin) : Decidable (ValuelessAssets inputs) :=
  inferInstanceAs (Decidable (∀ coin ∈ inputs, _ → _))

/-- Then the inputs are worth what the coins are. -/
theorem coinValue_inputs {inputs : List CInputCoin} (hperm : inputs.Perm (st.spent node.cfg)) (hcounted : Counted st)
    (hzero : ValuelessAssets inputs) : coinValue inputs = st.nValueIn := by
  have hnothing : ((if node.cfg.dep.assets then st.setAssets.coins else []).map fun coin => coin.txout.nValue).sum = 0 := by
    refine List.sum_eq_zero fun v hv => ?_
    obtain ⟨coin, hcoin, rfl⟩ := List.mem_map.mp hv
    refine hzero coin (hperm.mem_iff.mpr (List.mem_append_right _ hcoin)) ?_
    split_ifs at hcoin
    · exact hcounted.assets coin.outpoint coin.txout ((holds_coins _ _ _).mpr hcoin)
    · cases hcoin
  rw [coinValue, (hperm.map _).sum_eq, LoopState.spent, List.map_append, List.sum_append, hnothing, add_zero,
    hcounted.coins, mapSum_eq_coins]

/-! ## A wallet with one coin -/

variable {cfg : Config} {v : Int}

/-- What `FundTransaction` asks for: the outputs of a raw transaction and its inputs. -/
def fundRequest (vecSend : List CRecipient) (setSelected : List COutPoint) : CreateRequest :=
  { abcRequest 0 true with
    vecSend := vecSend
    coinControl := ⟨none, none, true, false, setSelected, []⟩
    fTransferAsset := false
    sign := false }

/-- Alice has one coin. -/
def coinNode (cfg : Config) (v : Int) : CreateNode where
  cfg := cfg
  passets := abcView
  wallet := { abcWallet with
    mapWallet := [⟨⟨[], [paymentOut aliceKeyID v], 1⟩, 10, true, 0, false, true, false, false, false⟩]
    distinct := by simp }
  reservedKey := some aliceKeyID

/-- Outputs are to be funded with it. -/
def coinRequest (vecSend : List CRecipient) : CreateRequest := fundRequest vecSend [⟨1, 0⟩]

def coinSet (v : Int) : CoinSet := (∅ : CoinSet).insertIfNew ⟨1, 0⟩ (paymentOut aliceKeyID v)

theorem coins_coinSet (v : Int) : (coinSet v).coins = [⟨⟨1, 0⟩, paymentOut aliceKeyID v⟩] := rfl

theorem presets_coinNode : (coinNode cfg v).presets (coinRequest vecSend) = coinSet v := by
  have hpreset : (coinNode cfg v).wallet.presetCoins [⟨1, 0⟩] = some (coinSet v, 0 + v) := rfl
  simp [CreateNode.presets, coinRequest, fundRequest, hpreset]

theorem isAssetScript_alice : isAssetScript (scriptForKeyID aliceKeyID) = none := by decide +kernel

/-- The coin is chosen when it is enough. -/
theorem selectCoins_coinNode {vCoins : List COutput} {nTargetValue : Int} {choices : Nat → KnapsackChoices}
    (h : nTargetValue ≤ v) : (coinNode cfg v).wallet.selectCoins vCoins nTargetValue choices
      (coinRequest vecSend).coinControl = some (coinSet v, v) := by
  have hpreset : (coinNode cfg v).wallet.presetCoins [⟨1, 0⟩] = some (coinSet v, 0 + v) := rfl
  have hunion : (coinSet v).foldl (fun s outpoint txout => s.insertIfNew outpoint txout) ∅ = coinSet v := rfl
  simp [CWallet.selectCoins, coinRequest, fundRequest, hpreset, h, hunion]

theorem selectAssets_nothing {wallet : CWallet} {mapAssetCoins : Std.TreeMap Bytes (List COutput)}
    {choices : Bytes → Nat → KnapsackChoices} (hdep : cfg.dep.assets = true) :
    wallet.selectAssets cfg mapAssetCoins ∅ choices = some (∅, ∅) := by
  rw [CWallet.selectAssets, if_neg (by simp [hdep])]
  induction mapAssetCoins.toList with
  | nil => rfl
  | cons p l ih =>
    rw [List.foldlM_cons, CWallet.selectAsset]
    simpa using ih

theorem withinSupply_coinNode (hlow : 0 ≤ v) (hhigh : v ≤ maxMoney) :
    WithinSupply (coinNode cfg v) (coinRequest vecSend) := by
  have hweight : ∀ name, assetWeight cfg name (paymentOut aliceKeyID v) = 0 := fun name =>
    assetWeight_of_plain isAssetScript_alice
  have houtputs : (coinNode cfg v).wallet.outputs.map (·.2) = [⟨⟨1, 0⟩, paymentOut aliceKeyID v⟩] := rfl
  have hoffered := available_offered (coinNode cfg v) (coinRequest vecSend)
  rw [houtputs] at hoffered
  constructor
  · intro pcoin hpcoin out hout
    rw [List.mem_singleton.mp hpcoin] at hout
    rw [List.mem_singleton.mp hout]
    exact ⟨hlow, fun name => (hweight name).ge⟩
  · -- the coin is preset, so there is no other
    have hothers : (coinNode cfg v).others (coinRequest vecSend)
        ((coinNode cfg v).available (coinRequest vecSend)).1 = [] := by
      refine List.map_eq_nil_iff.mpr (List.filter_eq_nil_iff.mpr fun out hout => ?_)
      have hcoin := List.mem_singleton.mp (hoffered.coins.subset (List.mem_map_of_mem hout))
      rw [hcoin, presets_coinNode]
      simp [coinSet]
    rw [hothers, presets_coinNode, mapSum_eq_coins, coins_coinSet]
    show 0 + (v + 0) ≤ maxMoney
    omega
  · intro name
    rw [CreateNode.availableAmount, List.sum_eq_zero]
    · decide
    intro w hw
    obtain ⟨out, hout, rfl⟩ := List.mem_map.mp hw
    obtain ⟨q, hq, hout⟩ := List.mem_flatMap.mp hout
    have hget := Std.TreeMap.mem_toList_iff_getElem?_eq_some.mp hq
    rw [List.mem_singleton.mp ((hoffered.offered q.1 q.2 hget).subset (List.mem_map_of_mem hout))]
    exact hweight name
  · intro name
    rw [presets_coinNode, mapSum_eq_coins, coins_coinSet]
    simp only [List.map_cons, List.map_nil, List.sum_singleton]
    rw [show assetWeight (coinNode cfg v).cfg name (paymentOut aliceKeyID v) = 0 from hweight name]
    decide

/-- Amounts that are not negative are added up, as long as no sum before the last leaves the range. -/
theorem foldlM_addRecipient_ok {req : CreateRequest} (huses : req.usesAssets = false) {l : List CRecipient}
    {totals : SendTotals} (hnonneg : ∀ recipient ∈ l, 0 ≤ recipient.nAmount) (hstart : 0 ≤ totals.nValue)
    (hfront : totals.nValue + amountSum l.dropLast < 2 ^ 63) : ∃ totals', l.foldlM (addRecipient cfg req) totals =
      .ok totals' ∧ totals'.mapAssetValue = totals.mapAssetValue := by
  induction l generalizing totals with
  | nil => exact ⟨totals, rfl, rfl⟩
  | cons recipient l ih =>
    have hamount := hnonneg recipient List.mem_cons_self
    have hrest := fun r hr => hnonneg r (List.mem_cons_of_mem _ hr)
    have hstep : addRecipient cfg req totals recipient = .ok ⟨toCAmount (totals.nValue + recipient.nAmount),
        totals.mapAssetValue, totals.nSubtractFeeFromAmount + if recipient.fSubtractFeeFromAmount then 1 else 0⟩ :=
      addRecipient_eq_ok.mpr ⟨by simp [huses], hstart, hamount, by simp [addTransfer, huses]⟩
    rw [List.foldlM_cons, hstep]
    cases l with
    | nil => exact ⟨_, rfl, rfl⟩
    | cons next l =>
      have hsum := amountSum_nonneg fun r hr => hrest r (List.mem_of_mem_dropLast hr)
      rw [List.dropLast_cons_cons] at hfront
      simp only [amountSum, List.map_cons, List.sum_cons] at hfront hsum
      rw [toCAmount_of_fits (by omega) (by omega)]
      refine ih hrest ?_ ?_
      · simp only
        omega
      · simp only [amountSum]
        omega

/-- Less of the fee leaves more. -/
theorem CanPay.payable_zero (h : CanPay dustRelayFee vecSend fee) (hfee : 0 ≤ fee) :
    ∀ recipient ∈ vecSend, Payable dustRelayFee (recipient, 0) := by
  intro recipient hmem
  have hfst : (feeShares (payers vecSend) fee true vecSend).map Prod.fst = vecSend := feeShares_fst true vecSend
  rw [← hfst] at hmem
  obtain ⟨p, hp, rfl⟩ := List.mem_map.mp hmem
  have hpayable := h.payable p hp
  have hshare := feeShares_nonneg hfee hp
  rw [Payable] at hpayable ⊢
  split_ifs at hpayable ⊢
  · exact hpayable
  · intro hplain
    have hle := hpayable hplain
    simp only
    omega

/-- The first pass of a call that funds outputs with the one coin, when it is enough. -/
theorem CanPay.firstPass (cfg : Config) {answers : CreateAnswers} (h : CanPay answers.dustRelayFee vecSend fee) (hfee : 0 ≤ fee)
    (henough : toCAmount (amountSum vecSend) ≤ v) : ∃ setup,
    loopSetup (coinNode cfg v) (coinRequest vecSend) = .ok setup ∧ PlainChange setup.scriptChange ∧
    FirstPass (coinNode cfg v) answers (answers.assetChoices 0) (coinRequest vecSend) setup
      ⟨0, true, coinSet v, v, ∅⟩ [] := by
  have huses : (coinRequest vecSend).usesAssets = false := rfl
  have hfront : (⟨0, ∅, 0⟩ : SendTotals).nValue + amountSum vecSend.dropLast < 2 ^ 63 := by
    have := h.front
    simp only
    omega
  obtain ⟨totals, hloop, hmap⟩ : ∃ totals, vecSend.foldlM (addRecipient cfg (coinRequest vecSend)) ⟨0, ∅, 0⟩ =
      .ok totals ∧ totals.mapAssetValue = ∅ := foldlM_addRecipient_ok huses h.nonneg le_rfl hfront
  have htotals : sendTotals cfg (coinRequest vecSend) = .ok totals := by
    simp only [sendTotals, bind_eq_ok, exists_punit, require_eq_ok, pure_eq_ok]
    refine ⟨?_, rfl, rfl, rfl, totals, hloop, ?_, rfl⟩
    · simp [coinRequest, fundRequest, abcRequest]
    · simpa [coinRequest, fundRequest] using h.nonempty
  let available := (coinNode cfg v).available (coinRequest vecSend)
  refine ⟨⟨totals, available.1, available.2, scriptForKeyID aliceKeyID, scriptForKeyID aliceKeyID⟩, ?_,
    plainChange_of_hasUint160 (show (CTxDestination.keyID aliceKeyID).HasUint160 from rfl),
    h.payable_zero hfee, ∅, fun fee' => (chooseInputs_picked rfl).mpr ⟨coinSet v, v, ?_, ?_⟩, assetChangeOutputs_empty⟩
  · simp only [loopSetup, bind_eq_ok]
    exact ⟨totals, htotals, rfl⟩
  · refine selectCoins_coinNode ?_
    rw [LoopSetup.nValueToSelect, show startState.nFeeRet = 0 from rfl, ite_self, add_zero, (sendTotals_spec htotals).value]
    have hidem := toCAmount_add (amountSum vecSend) 0
    rw [add_zero, add_zero] at hidem
    rw [show (coinRequest vecSend).vecSend = vecSend from rfl, hidem]
    exact henough
  · split_ifs with hdep
    · refine ⟨∅, ?_, rfl⟩
      rw [hmap]
      exact selectAssets_nothing hdep
    · exact ⟨rfl, rfl⟩

/-- The outputs of a pass without change are worth the amounts less the shares. -/
theorem outputValue_outputs : outputValue (setup.outputs node req fee []) =
    amountSum req.vecSend - paidFee setup.totals.nSubtractFeeFromAmount fee true req.vecSend := by
  rw [LoopSetup.outputs, outputValue_append, outputValue_eq_zero fun out => issued_nValue, List.append_nil, add_zero,
    outputValue_payees]

theorem feesWithin_discarding {answers : CreateAnswers} {choices : Bytes → Nat → KnapsackChoices} (hlow : 0 ≤ fee)
    (hhigh : fee ≤ maxFee) : (answers.discarding choices fee).FeesWithin maxFee :=
  ⟨fun _ => hlow, fun _ => le_rfl, fun _ => hhigh, fun _ => show (0 : Int) ≤ 2 ^ 63 by decide⟩

/-! ## The call -/

/-- The transactions that a call can make for some recipients balance: whatever the wallet holds, and whatever is
answered and drawn. -/
def Balances (cfg : Config) (dustRelayFee : Nat → Int) (vecSend : List CRecipient) (maxFee : Int) : Prop :=
  ∀ (env : CreateEnv) (req : CreateRequest), env.cfg = cfg → env.dustRelayFee = dustRelayFee →
    req.vecSend = vecSend → env.FeesWithin maxFee → WithinSupply env.toCreateNode req →
    req.coinControl.setSelected.Nodup → ∀ fuel call, createTransactionAll env req fuel = .ok call →
    ValuelessAssets call.tx.inputs →
    coinValue call.tx.inputs = outputValue call.tx.vout + call.tx.nFeeRet ∧ ∀ out ∈ call.tx.vout, 0 ≤ out.nValue

/-- A call that spends one coin balances like any other. -/
theorem Balances.oneCoin (h : Balances cfg dustRelayFee vecSend maxFee) {answers : CreateAnswers}
    {choices : Bytes → Nat → KnapsackChoices} {fuel : Nat} {call : CompletedCall} {fee' : Int} {pick : Bool}
    (hdust : answers.dustRelayFee = dustRelayFee) (hlow : 0 ≤ fee) (hhigh : fee ≤ maxFee) (hv : 0 ≤ v) (hmax : v ≤ maxMoney)
    (hcall : createTransactionAll ⟨coinNode cfg v, answers.discarding choices fee⟩ (coinRequest vecSend) fuel =
      .ok call)
    (hperm : call.tx.inputs.Perm ((⟨fee', pick, coinSet v, v, ∅⟩ : LoopState).spent cfg)) :
    v = outputValue call.tx.vout + call.tx.nFeeRet ∧ ∀ out ∈ call.tx.vout, 0 ≤ out.nValue := by
  have hinputs : call.tx.inputs = [⟨⟨1, 0⟩, paymentOut aliceKeyID v⟩] := by
    rw [LoopState.spent, coins_coinSet, show (∅ : CoinSet).coins = [] from rfl, ite_self, List.append_nil] at hperm
    exact List.perm_singleton.mp hperm
  have hbalances := h ⟨coinNode cfg v, answers.discarding choices fee⟩ (coinRequest vecSend) rfl hdust rfl
    (feesWithin_discarding hlow hhigh) (withinSupply_coinNode hv hmax) (List.nodup_singleton _) fuel call hcall
  rw [hinputs] at hbalances
  obtain ⟨hvalue, hnonneg⟩ := hbalances fun coin hcoin hasset => by
    rw [List.mem_singleton.mp hcoin] at hasset
    rw [show isAssetScript (paymentOut aliceKeyID v).scriptPubKey = none from isAssetScript_alice] at hasset
    cases hasset
  refine ⟨?_, hnonneg⟩
  rw [← hvalue]
  show v = v + 0
  omega

def paidAnswers (dustRelayFee : Nat → Int) : CreateAnswers := { abcAnswers with dustRelayFee := dustRelayFee }

/-- A sum that leaves the range is reached by a coin without value. -/
theorem Balances.total (h : Balances cfg dustRelayFee vecSend maxFee) (hmaxFee : 0 ≤ maxFee)
    (hamounts : ∀ recipient ∈ vecSend, recipient.nAmount < 2 ^ 63) (haccepted : CanPay dustRelayFee vecSend 0) :
    amountSum vecSend < 2 ^ 63 := by
  by_contra hover
  have hrange : amountSum vecSend < 2 ^ 64 := by
    have hfront := haccepted.front
    have hlast := hamounts _ (List.getLast_mem haccepted.nonempty)
    rw [← List.dropLast_append_getLast haccepted.nonempty, amountSum_append]
    simp only [amountSum, List.map_cons, List.map_nil, List.sum_singleton] at hfront ⊢
    omega
  have hnegative : toCAmount (amountSum vecSend) ≤ 0 := by
    by_contra hpos
    exact hover (lt_of_toCAmount_nonneg (amountSum_nonneg haccepted.nonneg) hrange (by omega))
  have haccepted' : CanPay (paidAnswers dustRelayFee).dustRelayFee vecSend 0 := haccepted
  obtain ⟨setup, hsetup, hplain, hfirst⟩ := haccepted'.firstPass cfg le_rfl hnegative
  obtain ⟨call, hcall, hperm, hvout, hfee, -⟩ := hfirst.once hsetup hplain
  obtain ⟨hvalue, -⟩ := h.oneCoin rfl le_rfl hmaxFee le_rfl (by decide) hcall hperm
  rw [hvout, outputValue_outputs, show (coinRequest vecSend).vecSend = vecSend from rfl, paidFee_zero] at hvalue
  omega

/-- A fee that is not shared is missing when the wallet holds just the amounts. -/
theorem Balances.shares (h : Balances cfg dustRelayFee vecSend maxFee) (hpos : 0 < fee) (hhigh : fee ≤ maxFee)
    (haccepted : CanPay dustRelayFee vecSend fee) (hsum : amountSum vecSend ≤ maxMoney) : Affordable vecSend fee := by
  have hnonneg := amountSum_nonneg haccepted.nonneg
  by_cases hn : payers vecSend = 0
  · have hnone : paying vecSend = 0 := Nat.le_zero.mp (hn ▸ paying_le vecSend)
    refine ⟨fun p hp => ?_, .inl (hnone.trans hn.symm)⟩
    obtain ⟨hmem, hshare⟩ := mem_feeShares hp
    rw [hshare (Bool.eq_false_iff.mpr (List.countP_eq_zero.mp hnone p.1 hmem))]
    exact haccepted.nonneg p.1 hmem
  have hmax : maxMoney < 2 ^ 63 := by decide
  have hfits : toCAmount (amountSum vecSend) = amountSum vecSend := toCAmount_of_fits (by omega) (by omega)
  have haccepted' : CanPay (paidAnswers dustRelayFee).dustRelayFee vecSend fee := haccepted
  obtain ⟨setup, hsetup, hplain, hfirst⟩ := haccepted'.firstPass cfg hpos.le hfits.le
  have htotals := sendTotals_spec (loopSetup_cases hsetup).1
  have hpayers : setup.totals.nSubtractFeeFromAmount = payers vecSend := htotals.payers
  have hchange : setup.nChange ⟨0, true, coinSet (amountSum vecSend), amountSum vecSend, ∅⟩ = 0 := by
    have hvalue : setup.totals.nValue = toCAmount (amountSum vecSend) := htotals.value
    simp only [LoopSetup.nChange, LoopSetup.nValueToSelect, ite_self, add_zero, hvalue, hfits, sub_self]
    rfl
  obtain ⟨call, hcall, hperm, hvout, hfee⟩ := hfirst.twice hsetup hplain (hpayers ▸ hn)
    (by rw [hchange, max_self]; exact hpos) (by rw [hpayers]; exact haccepted.payable)
  obtain ⟨hvalue, houts⟩ := h.oneCoin rfl hpos.le hhigh hnonneg hsum hcall hperm
  rw [hchange, max_self, add_zero] at hfee
  rw [hvout, outputValue_outputs, hfee, hpayers] at hvalue
  rw [hvout] at houts
  constructor
  · intro p hp
    have hout := houts (payeeOut p) (List.mem_append_left _ (List.mem_append_left _ (List.mem_map_of_mem (by
      rw [hpayers]
      exact hp))))
    simp only [payeeOut] at hout
    omega
  · refine (paidFee_eq_iff hpos hn (paying_le vecSend)).mp ?_
    rw [show (coinRequest vecSend).vecSend = vecSend from rfl] at hvalue
    omega

theorem feesWithin_abcAnswers : abcAnswers.FeesWithin 1000 :=
  ⟨fun _ => show (0 : Int) ≤ 1000 by decide, fun _ => le_rfl, fun _ => le_rfl, fun _ => le_rfl⟩

/-- Bob gets a coin, and a freeze is to pay the fee. -/
def freezeRequest : CreateRequest :=
  fundRequest [⟨(freezeOut bobKeyID (str "$ABC") 1).scriptPubKey, 0, true⟩, ⟨scriptForKeyID bobKeyID, COIN, false⟩] []

def paidTransfer : CreateRequest :=
  fundRequest [⟨(transferOut bobKeyID (str "ABC") (100 * COIN)).scriptPubKey, 0, true⟩] [⟨1, 1⟩]

def hugeRequest : CreateRequest :=
  fundRequest [⟨scriptForKeyID bobKeyID, 5 * 10 ^ 18, false⟩, ⟨scriptForKeyID aliceKeyID, 5 * 10 ^ 18, false⟩] []

end HempCore
