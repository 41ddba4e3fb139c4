import HempCore.Analysis.WalletInputs

/-!
# The fee loop of the wallet

A pass of the loop in `CreateTransactionAll` picks its inputs or keeps those of the pass before. One that picks
them again was asked for a higher fee, and one that keeps them is the last, so that bounded fees end the loop.
When change is never worth its output, what a call does can be computed from its first pass.
-/

set_option autoImplicit false

namespace HempCore

open Lib

variable {node : CreateNode} {env : CreateEnv} {req : CreateRequest} {setup : LoopSetup} {pass fuel : Nat}
  {st : LoopState} {built : BuiltPass} {call : CompletedCall} {st' : LoopState} {mapAssetsIn : AssetTotals}
  {tx : CreatedTransaction}

/-! ## Before the loop -/

/-- The change address is given, or a key is reserved for it. -/
structure HasChange (node : CreateNode) (req : CreateRequest) (dest : CTxDestination) : Prop where
  given : ∀ dest', req.coinControl.destChange = some dest' → dest' = dest
  reserved : req.coinControl.destChange = none → ∃ keyID, node.reservedKey = some keyID ∧ dest = .keyID keyID

/-- What is fixed before the loop. -/
theorem loopSetup_cases (h : loopSetup node req = .ok setup) : sendTotals node.cfg req = .ok setup.totals ∧
    setup.vAvailableCoins = (node.available req).1 ∧ setup.mapAssetCoins = (node.available req).2 ∧
    ∃ dest, HasChange node req dest ∧ setup.scriptChange = getScriptForDestination dest := by
  simp only [loopSetup, bind_eq_ok] at h
  obtain ⟨totals, htotals, h⟩ := h
  cases hdest : req.coinControl.destChange with
  | some dest =>
    simp only [hdest, bind_eq_ok, pure_eq_ok, exists_eq_left'] at h
    subst h
    refine ⟨htotals, rfl, rfl, dest, ⟨fun dest' heq => ?_, fun hnone => ?_⟩, rfl⟩
    · exact (Option.some.inj (hdest.symm.trans heq)).symm
    · rw [hdest] at hnone
      cases hnone
  | none =>
    simp only [hdest, bind_eq_ok, demand_eq_ok, pure_eq_ok, exists_eq_left'] at h
    obtain ⟨keyID, hkey, rfl⟩ := h
    refine ⟨htotals, rfl, rfl, .keyID keyID, ⟨fun dest' heq => ?_, fun _ => ⟨keyID, hkey, rfl⟩⟩, rfl⟩
    rw [hdest] at heq
    cases heq

/-- The script for change in coins is spendable and holds no asset. -/
structure PlainChange (script : Bytes) : Prop where
  short : script.length ≤ 25
  spendable : isUnspendable script = false

theorem PlainChange.notAsset {script : Bytes} (h : PlainChange script) : isAssetScript script = none :=
  if_neg fun hlong => by
    have := h.short
    omega

theorem plainChange_of_hasUint160 {dest : CTxDestination} (h : dest.HasUint160) :
    PlainChange (getScriptForDestination dest) := by
  have hshort := h.length_le
  have hasset : isAssetScript (getScriptForDestination dest) = none := if_neg fun hlong => by omega
  have hamount : getAssetAmountFromScript (getScriptForDestination dest) = none := by
    rw [getAssetAmountFromScript, hasset]
  have hsize : ¬maxScriptSize < (getScriptForDestination dest).length := not_lt.mpr (hshort.trans (by decide))
  have hfirst : 0 < (getScriptForDestination dest).length → byteAt (getScriptForDestination dest) 0 ≠ opReturn ∧
      byteAt (getScriptForDestination dest) 0 ≠ opHempAsset := by
    intro hpos
    cases dest with
    | noDestination => cases hpos
    | keyID id => exact ⟨show opDup ≠ opReturn by decide, show opDup ≠ opHempAsset by decide⟩
    | scriptID id => exact ⟨show opHash160 ≠ opReturn by decide, show opHash160 ≠ opHempAsset by decide⟩
  refine ⟨hshort, ?_⟩
  rw [isUnspendable, hamount, decide_eq_false hsize]
  by_cases hpos : 0 < (getScriptForDestination dest).length
  · simp [hfirst hpos]
  · simp [hpos]

/-- The change of a call that was typed right goes to a plain script. -/
theorem WellTyped.plainChange (htyped : WellTyped node req) (h : loopSetup node req = .ok setup) :
    PlainChange setup.scriptChange := by
  obtain ⟨-, -, -, dest, hchange, hscript⟩ := loopSetup_cases h
  rw [hscript]
  apply plainChange_of_hasUint160
  cases hgiven : req.coinControl.destChange with
  | some dest' =>
    obtain rfl := hchange.given dest' hgiven
    exact htyped.change dest' hgiven
  | none =>
    obtain ⟨keyID, hkey, rfl⟩ := hchange.reserved hgiven
    exact htyped.reserved keyID hkey

/-- The same amounts to the same scripts, with others to pay the fee. -/
def LoopSetup.withPayers (setup : LoopSetup) (vecSend : List CRecipient) : LoopSetup :=
  { setup with totals := { setup.totals with nSubtractFeeFromAmount := payers vecSend } }

theorem loopSetup_withPayers {vecSend : List CRecipient}
    (hsame : vecSend.map CRecipient.payment = req.vecSend.map CRecipient.payment) (h : loopSetup node req = .ok setup) :
    loopSetup node { req with vecSend := vecSend } = .ok (setup.withPayers vecSend) := by
  have htotals := (loopSetup_cases h).1
  simp only [sendTotals, bind_eq_ok, exists_punit, pure_eq_ok] at htotals
  obtain ⟨hdep, hnew, hone, hreissue, totals, hloop, hne, rfl⟩ := htotals
  have huses : ({ req with vecSend := vecSend } : CreateRequest).usesAssets = req.usesAssets := rfl
  obtain ⟨totals, hloop', hvalue, hmap⟩ := foldlM_addRecipient_congr huses hsame rfl rfl hloop
  have hempty : vecSend.isEmpty = req.vecSend.isEmpty := by
    have hlength := congrArg List.length hsame
    simp only [List.length_map] at hlength
    rw [Bool.eq_iff_iff, List.isEmpty_iff, List.isEmpty_iff, ← List.length_eq_zero_iff, hlength,
      List.length_eq_zero_iff]
  have htotals : sendTotals node.cfg { req with vecSend := vecSend } = .ok totals := by
    simp only [sendTotals, bind_eq_ok, exists_punit, pure_eq_ok]
    exact ⟨hdep, hnew, hone, hreissue, totals, hloop', by rw [hempty]; exact hne, rfl⟩
  have hpayers := (sendTotals_spec htotals).payers
  have heq : totals = (setup.withPayers vecSend).totals := by
    obtain ⟨nValue, mapAssetValue, nSubtractFeeFromAmount⟩ := totals
    simp only at hvalue hmap hpayers
    rw [hvalue, hmap, hpayers]
    rfl
  simp only [loopSetup, bind_eq_ok] at h ⊢
  obtain ⟨totals', -, h⟩ := h
  refine ⟨totals, htotals, ?_⟩
  rw [heq]
  cases hdest : req.coinControl.destChange with
  | some dest =>
    simp only [hdest, bind_eq_ok, pure_eq_ok, exists_eq_left'] at h ⊢
    rw [← h]
    rfl
  | none =>
    simp only [hdest, bind_eq_ok, demand_eq_ok, pure_eq_ok, exists_eq_left'] at h ⊢
    obtain ⟨keyID, hkey, rfl⟩ := h
    exact ⟨keyID, hkey, rfl⟩

/-! ## One pass -/

/-- The state before the first pass. -/
def startState : LoopState := ⟨0, true, ∅, 0, ∅⟩

theorem chooseInputs_kept (h : st.pick_new_inputs = false) : chooseInputs env req setup pass st = .ok (st, ∅) := by
  rw [chooseInputs, h]
  rfl

/-- A pass that picks its inputs asks `SelectCoins` and, when there are assets, `SelectAssets`. -/
theorem chooseInputs_picked (hpick : st.pick_new_inputs = true) :
    chooseInputs env req setup pass st = .ok (st', mapAssetsIn) ↔ ∃ setCoins nValueIn,
      env.wallet.selectCoins setup.vAvailableCoins (setup.nValueToSelect st.nFeeRet) (env.coinChoices pass)
        req.coinControl = some (setCoins, nValueIn) ∧
      if env.cfg.dep.assets then ∃ setAssets, env.wallet.selectAssets env.cfg setup.mapAssetCoins
          setup.totals.mapAssetValue (env.assetChoices pass) = some (setAssets, mapAssetsIn) ∧
        st' = { st with setCoins := setCoins, nValueIn := nValueIn, setAssets := setAssets }
      else mapAssetsIn = ∅ ∧ st' = { st with setCoins := setCoins, nValueIn := nValueIn } := by
  rw [chooseInputs, if_pos hpick]
  simp only [bind_eq_ok, demand_eq_ok, Prod.exists]
  refine exists_congr fun setCoins => exists_congr fun nValueIn => and_congr_right fun _ => ?_
  cases env.cfg.dep.assets with
  | true =>
    simp only [if_true, bind_eq_ok, demand_eq_ok, pure_eq_ok, Prod.exists, Prod.mk.injEq]
    constructor
    · rintro ⟨setAssets, mapAssetsIn', hassets, rfl, rfl⟩
      exact ⟨setAssets, hassets, rfl⟩
    · rintro ⟨setAssets, hassets, rfl⟩
      exact ⟨setAssets, mapAssetsIn, hassets, rfl, rfl⟩
  | false =>
    simp only [Bool.false_eq_true, if_false, pure_eq_ok, Prod.mk.injEq]
    constructor
    · rintro ⟨rfl, rfl⟩
      exact ⟨rfl, rfl⟩
    · rintro ⟨rfl, rfl⟩
      exact ⟨rfl, rfl⟩

/-- Choosing inputs leaves the fee and the mode alone. -/
theorem chooseInputs_frame (h : chooseInputs env req setup pass st = .ok (st', mapAssetsIn)) :
    st'.pick_new_inputs = st.pick_new_inputs ∧ st'.nFeeRet = st.nFeeRet := by
  cases hpick : st.pick_new_inputs with
  | false =>
    cases (chooseInputs_kept hpick).symm.trans h
    exact ⟨hpick, rfl⟩
  | true =>
    obtain ⟨setCoins, nValueIn, -, hassets⟩ := (chooseInputs_picked hpick).mp h
    split_ifs at hassets
    · obtain ⟨setAssets, -, rfl⟩ := hassets
      exact ⟨hpick, rfl⟩
    · obtain ⟨-, rfl⟩ := hassets
      exact ⟨hpick, rfl⟩

/-- What a pass takes in coins above what it pays, as far as the type holds it. -/
def LoopSetup.nChange (setup : LoopSetup) (st : LoopState) : Int :=
  toCAmount (st.nValueIn - setup.nValueToSelect st.nFeeRet)

/-- The parts of a pass. -/
theorem buildPass_eq_ok : buildPass env req setup pass st = .ok built ↔ ∃ payeeOuts mapAssetsIn vout,
    payees env.dustRelayFee req.vecSend setup.totals.nSubtractFeeFromAmount st.nFeeRet = .ok payeeOuts ∧
    chooseInputs env req setup pass st = .ok (built.st, mapAssetsIn) ∧
    assetChangeOutputs env.toCreateNode setup built.st.setAssets mapAssetsIn = .ok built.assetChange ∧
    coinChange env pass req.nChangePosRequest (setup.nChange built.st) setup.scriptChange
      (payeeOuts ++ built.assetChange) built.st.nFeeRet = .ok (vout, built.nChangePosInOut, built.nFeeRet) ∧
    built.vout = vout ++ if env.cfg.dep.assets then issueOutputs req else [] := by
  rw [buildPass]
  simp only [bind_eq_ok, pure_eq_ok]
  constructor
  · rintro ⟨payeeOuts, hpayees, ⟨st', mapAssetsIn⟩, hchoose, change, hassets, ⟨vout, pos, fee⟩, hcoin, rfl⟩
    exact ⟨payeeOuts, mapAssetsIn, vout, hpayees, hchoose, hassets, hcoin, rfl⟩
  · obtain ⟨st', vout', pos, fee, change⟩ := built
    rintro ⟨payeeOuts, mapAssetsIn, vout, hpayees, hchoose, hassets, hcoin, rfl⟩
    exact ⟨payeeOuts, hpayees, (st', mapAssetsIn), hchoose, change, hassets, (vout, pos, fee), hcoin, rfl⟩

/-- Change is made in coins, or given to the fee. -/
theorem coinChange_cases {nChangePosRequest pos : Option Nat} {nChange nFeeRet fee : Int} {scriptChange : Bytes}
    {vout vout' : List CTxOut}
    (h : coinChange env pass nChangePosRequest nChange scriptChange vout nFeeRet = .ok (vout', pos, fee)) :
    (pos = none ∧ vout' = vout ∧ fee = nFeeRet + max 0 nChange) ∨ ∃ p, pos = some p ∧ p ≤ vout.length ∧
      0 < nChange ∧ vout' = vout.insertIdx p ⟨nChange, scriptChange⟩ ∧ fee = nFeeRet := by
  rw [coinChange] at h
  simp only at h
  split_ifs at h with hpos hdust hrange
  · cases h
    exact .inl ⟨rfl, rfl, by rw [max_eq_right hpos.le]⟩
  · cases h
    exact .inr ⟨_, rfl, not_lt.mp hrange, hpos, rfl, rfl⟩
  · cases h
    exact .inl ⟨rfl, rfl, by rw [max_eq_left (not_lt.mp hpos), add_zero]⟩

theorem buildPass_fee (h : buildPass env req setup pass st = .ok built) :
    built.st.pick_new_inputs = st.pick_new_inputs ∧ built.st.nFeeRet = st.nFeeRet ∧ st.nFeeRet ≤ built.nFeeRet := by
  obtain ⟨payeeOuts, mapAssetsIn, vout, -, hchoose, -, hcoin, -⟩ := buildPass_eq_ok.mp h
  obtain ⟨hpick, hfee⟩ := chooseInputs_frame hchoose
  refine ⟨hpick, hfee, ?_⟩
  rw [hfee] at hcoin
  rcases coinChange_cases hcoin with ⟨-, -, heq⟩ | ⟨p, -, -, -, -, heq⟩
  · have := le_max_left 0 (setup.nChange built.st)
    omega
  · exact heq.ge

/-- The coins and assets of a pass. -/
def LoopState.spent (st : LoopState) (cfg : Config) : List CInputCoin :=
  st.setCoins.coins ++ if cfg.dep.assets then st.setAssets.coins else []

/-- They are the inputs of the transaction. -/
theorem inputs_perm (env : CreateEnv) (pass : Nat) (st : LoopState) : (env.inputs pass st).Perm (st.spent env.cfg) := by
  refine (env.shuffle_perm pass _).append ?_
  split_ifs
  · exact env.shuffle_perm pass _
  · exact .nil

/-! ## The end of a pass -/

/-- The outputs of a pass, perhaps with a part of the fee moved to the change or back. -/
def Adjusts (built : BuiltPass) (vout : List CTxOut) (nFeeRet : Int) : Prop :=
  (vout = built.vout ∧ nFeeRet = built.nFeeRet) ∨
    ∃ pos extra, built.nChangePosInOut = some pos ∧ vout = addToChange built.vout pos extra ∧
      nFeeRet = built.nFeeRet - extra ∧
      (0 ≤ extra ∨ 0 ≤ (built.vout[pos]?.map CTxOut.nValue).getD 0 + extra)

/-- Why a pass is followed by another one: the fee was not paid, or so much was left for it that a change
can be made. -/
def Repeats (env : CreateEnv) (setup : LoopSetup) (pass : Nat) (built : BuiltPass) (pick : Bool) (fee : Int) : Prop :=
  (pick = decide (setup.totals.nSubtractFeeFromAmount = 0) ∧ fee = env.nFeeNeeded pass ∧ built.nFeeRet < fee) ∨
    (pick = false ∧ setup.totals.nSubtractFeeFromAmount = 0 ∧ fee = env.feeNeededWithChange pass ∧
      built.nChangePosInOut = none ∧
      fee + getDustThreshold ⟨0, setup.scriptChange⟩ env.discardRate ≤ built.nFeeRet)

/-- What follows a pass. -/
theorem decidePass_cases {r : PassResult} (h : decidePass env setup pass built = .ok r) :
    (∃ vout nFeeRet, r = .done ⟨env.inputs pass built.st, vout, nFeeRet⟩ ∧ Adjusts built vout nFeeRet) ∨
    (built.st.pick_new_inputs = true ∧ ∃ pick fee,
      r = .again { built.st with pick_new_inputs := pick, nFeeRet := fee } ∧ Repeats env setup pass built pick fee) := by
  rw [decidePass] at h
  simp only [bind_eq_ok, exists_punit] at h
  obtain ⟨-, h⟩ := h
  by_cases hpaid : env.nFeeNeeded pass ≤ built.nFeeRet
  · rw [if_pos hpaid] at h
    split at h <;> rename_i hkeep
    · have hnone := Option.isNone_iff_eq_none.mp hkeep.1
      exact .inr ⟨hkeep.2.2.1, false, _, (pure_eq_ok.mp h).symm, .inr ⟨rfl, hkeep.2.1, rfl, hnone, hkeep.2.2.2⟩⟩
    · left
      split at h
      · next pos hpos =>
        split_ifs at h
        · exact ⟨_, _, (pure_eq_ok.mp h).symm, .inr ⟨pos, _, hpos, rfl, by omega, .inl (by omega)⟩⟩
        · exact ⟨_, _, (pure_eq_ok.mp h).symm, .inl ⟨rfl, rfl⟩⟩
      · exact ⟨_, _, (pure_eq_ok.mp h).symm, .inl ⟨rfl, rfl⟩⟩
  · rw [if_neg hpaid] at h
    have hlt := not_le.mp hpaid
    cases hpick : built.st.pick_new_inputs with
    | false => simp [hpick] at h
    | true =>
      rw [hpick, if_neg (by simp)] at h
      split at h
      · next pos hpos =>
        split_ifs at h with hchange
        · have hmin : 0 ≤ MIN_FINAL_CHANGE := by decide
          exact .inl ⟨_, _, (pure_eq_ok.mp h).symm, .inr ⟨pos, _, hpos, rfl, by omega, .inr (by omega)⟩⟩
        · exact .inr ⟨rfl, _, _, (pure_eq_ok.mp h).symm, .inl ⟨rfl, rfl, hlt⟩⟩
      · exact .inr ⟨rfl, _, _, (pure_eq_ok.mp h).symm, .inl ⟨rfl, rfl, hlt⟩⟩

/-! ## The loop -/

/-- The loop begins a pass with this state. -/
inductive BeginsPass (env : CreateEnv) (req : CreateRequest) (setup : LoopSetup) : Nat → LoopState → Prop
  | start : BeginsPass env req setup 0 startState
  | again {pass : Nat} {st st' : LoopState} {built : BuiltPass} : BeginsPass env req setup pass st →
      buildPass env req setup pass st = .ok built →
      decidePass env setup pass built = .ok (.again st') → BeginsPass env req setup (pass + 1) st'

/-- A pass that picks new inputs asks for more than the one before it, and so does not come after the
highest fee; one that does not is the last. -/
theorem BeginsPass.bound {maxFee : Int} (hmax : ∀ pass, env.nFeeNeeded pass ≤ maxFee)
    (h : BeginsPass env req setup pass st) : pass ≤ maxFee.toNat + 1 := by
  have hinv : (st.pick_new_inputs = true → pass ≤ maxFee.toNat ∧ (pass : Int) ≤ st.nFeeRet) ∧ pass ≤ maxFee.toNat + 1 := by
    induction h with
    | start => exact ⟨fun _ => ⟨Nat.zero_le _, le_rfl⟩, Nat.zero_le _⟩
    | @again pass st st' built _ hbuild hdecide ih =>
      obtain ⟨hpick, -, hfee⟩ := buildPass_fee hbuild
      rcases decidePass_cases hdecide with ⟨vout, fee, heq, -⟩ | ⟨hpicked, pick, fee, heq, hrepeats⟩
      · cases heq
      · cases heq
        obtain ⟨hle, hge⟩ := ih.1 (hpick.symm.trans hpicked)
        refine ⟨fun htrue => ?_, by omega⟩
        simp only at htrue ⊢
        rcases hrepeats with ⟨-, rfl, hlt⟩ | ⟨hfalse, -⟩
        · have hle := hmax pass
          constructor <;> omega
        · rw [hfalse] at htrue
          cases htrue
  exact hinv.2

theorem feeLoop_succ (fuel : Nat) : feeLoop env req setup (fuel + 1) pass st =
    (buildPass env req setup pass st >>= fun built => decidePass env setup pass built >>= fun r => match r with
      | .again st => feeLoop env req setup fuel (pass + 1) st
      | .done tx => pure (built, tx)) := rfl

/-- Fuel beyond the last pass changes nothing. -/
theorem feeLoop_stable {N : Nat} (hbound : ∀ pass st, BeginsPass env req setup pass st → pass ≤ N)
    (h : BeginsPass env req setup pass st) {fuel fuel' : Nat} (hfuel : N < pass + fuel) (hfuel' : N < pass + fuel') :
    feeLoop env req setup fuel pass st = feeLoop env req setup fuel' pass st := by
  induction fuel generalizing fuel' pass st with
  | zero => exact absurd (hbound pass st h) (by omega)
  | succ fuel ih =>
    cases fuel' with
    | zero => exact absurd (hbound pass st h) (by omega)
    | succ fuel' =>
      rw [feeLoop_succ, feeLoop_succ]
      cases hbuild : buildPass env req setup pass st with
      | error e => rfl
      | ok built =>
        show (decidePass env setup pass built >>= _) = (decidePass env setup pass built >>= _)
        cases hdecide : decidePass env setup pass built with
        | error e => rfl
        | ok r =>
          cases r with
          | done tx => rfl
          | again st' =>
            show feeLoop env req setup fuel (pass + 1) st' = feeLoop env req setup fuel' (pass + 1) st'
            exact ih (h.again hbuild hdecide) (by omega) (by omega)

/-- A loop that succeeds ends in a pass that was begun. -/
theorem feeLoop_ends (h : BeginsPass env req setup pass st)
    (hloop : feeLoop env req setup fuel pass st = .ok (built, tx)) : ∃ last st',
    BeginsPass env req setup last st' ∧ buildPass env req setup last st' = .ok built ∧
      decidePass env setup last built = .ok (.done tx) := by
  induction fuel generalizing pass st with
  | zero => cases hloop
  | succ fuel ih =>
    simp only [feeLoop_succ, bind_eq_ok] at hloop
    obtain ⟨built', hbuild, r, hdecide, hloop⟩ := hloop
    cases r with
    | done tx' =>
      cases pure_eq_ok.mp hloop
      exact ⟨pass, st, h, hbuild, hdecide⟩
    | again st' => exact ih (h.again hbuild hdecide) hloop

/-- The key after a call whose last pass was this one. -/
def keyAfter (node : CreateNode) (req : CreateRequest) (built : BuiltPass) : CReserveKey :=
  if built.nChangePosInOut.isNone then (getReservedKey node req).returnKey else getReservedKey node req

/-- A call that succeeds: its loop, and the last pass of it. -/
theorem createTransactionAll_last (h : createTransactionAll env req fuel = .ok call) : ∃ setup last st,
    loopSetup env.toCreateNode req = .ok setup ∧ BeginsPass env req setup last st ∧
    buildPass env req setup last st = .ok call.built ∧ decidePass env setup last call.built = .ok (.done call.tx) ∧
    call.reservekey = keyAfter env.toCreateNode req call.built := by
  simp only [createTransactionAll, bind_eq_ok, exists_punit, pure_eq_ok] at h
  obtain ⟨setup, hsetup, ⟨built, tx⟩, hloop, -, -, -, rfl⟩ := h
  obtain ⟨last, st, hbegins, hbuild, hdecide⟩ := feeLoop_ends .start hloop
  exact ⟨setup, last, st, hsetup, hbegins, hbuild, hdecide, rfl⟩

/-- The first pass of a call that succeeds. -/
theorem createTransactionAll_first (hsetup : loopSetup env.toCreateNode req = .ok setup)
    (h : createTransactionAll env req fuel = .ok call) : ∃ built, buildPass env req setup 0 startState = .ok built := by
  simp only [createTransactionAll, bind_eq_ok, exists_punit, pure_eq_ok] at h
  obtain ⟨setup', hsetup', ⟨built, tx⟩, hloop, -⟩ := h
  obtain rfl := Except.ok.inj (hsetup.symm.trans hsetup')
  cases fuel with
  | zero => cases hloop
  | succ fuel =>
    simp only [feeLoop_succ, bind_eq_ok] at hloop
    obtain ⟨built, hbuild, -⟩ := hloop
    exact ⟨built, hbuild⟩

/-! ## The assets of a pass -/

/-- A state that is kept holds a choice of the assets, and no others than the preset ones among its coins. -/
structure HoldsChoice (node : CreateNode) (req : CreateRequest) (setup : LoopSetup) (st : LoopState) : Prop where
  undeployed : node.cfg.dep.assets = false → st.setAssets = ∅
  kept : st.pick_new_inputs = false →
    (∀ name, mapSum (assetWeight node.cfg name) st.setCoins =
      mapSum (assetWeight node.cfg name) (node.presets req)) ∧
    ∃ change, AssetChoice node setup st.setAssets change

/-- A pass spends a choice of the assets, and makes the change of it or none. -/
structure SpendsChoice (node : CreateNode) (req : CreateRequest) (setup : LoopSetup) (built : BuiltPass) : Prop where
  coins : ∀ name, mapSum (assetWeight node.cfg name) built.st.setCoins =
    mapSum (assetWeight node.cfg name) (node.presets req)
  choice : ∃ change, AssetChoice node setup built.st.setAssets change ∧
    (built.assetChange = change ∨ built.assetChange = [])

theorem assetChangeOutputs_empty {setAssets : CoinSet} : assetChangeOutputs node setup setAssets ∅ = .ok [] := by
  rw [assetChangeOutputs]
  split_ifs
  · have hnil : mapAssetChange setup.totals.mapAssetValue ∅ = [] := by simp [mapAssetChange]
    rw [hnil]
    rfl
  · rfl

theorem buildPass_spendsChoice (hcoins : setup.vAvailableCoins = (env.toCreateNode.available req).1)
    (hst : HoldsChoice env.toCreateNode req setup st) (h : buildPass env req setup pass st = .ok built) :
    SpendsChoice env.toCreateNode req setup built := by
  obtain ⟨payeeOuts, mapAssetsIn, vout, -, hchoose, hassets, -, -⟩ := buildPass_eq_ok.mp h
  cases hpick : st.pick_new_inputs with
  | false =>
    obtain ⟨hcoins, change, hchange⟩ := hst.kept hpick
    obtain ⟨hst', rfl⟩ := Prod.mk.inj (Except.ok.inj ((chooseInputs_kept hpick).symm.trans hchoose))
    rw [← hst'] at hassets
    refine ⟨by rwa [← hst'], change, by rwa [← hst'], .inr ?_⟩
    exact (Except.ok.inj (assetChangeOutputs_empty.symm.trans hassets)).symm
  | true =>
    obtain ⟨setCoins, nValueIn, hselect, hpicked⟩ := (chooseInputs_picked hpick).mp hchoose
    rw [hcoins] at hselect
    have hpresets : ∀ name, mapSum (assetWeight env.cfg name) setCoins =
        mapSum (assetWeight env.cfg name) (env.presets req) := fun name => selectCoins_assets hselect
    split_ifs at hpicked with hdep
    · obtain ⟨setAssets, hset, hst'⟩ := hpicked
      refine ⟨by rwa [hst'], built.assetChange, ?_, .inl rfl⟩
      rw [AssetChoice, if_pos hdep]
      refine ⟨env.assetChoices pass, mapAssetsIn, ?_, hassets⟩
      rwa [hst']
    · obtain ⟨rfl, hst'⟩ := hpicked
      refine ⟨by rwa [hst'], built.assetChange, ?_, .inl rfl⟩
      rw [AssetChoice, if_neg hdep]
      refine ⟨?_, (Except.ok.inj (assetChangeOutputs_empty.symm.trans hassets)).symm⟩
      rw [hst']
      exact hst.undeployed (Bool.eq_false_iff.mpr hdep)

/-- Every pass spends a choice of the assets. -/
theorem BeginsPass.spendsChoice (hcoins : setup.vAvailableCoins = (env.toCreateNode.available req).1)
    (h : BeginsPass env req setup pass st) (hbuild : buildPass env req setup pass st = .ok built) :
    SpendsChoice env.toCreateNode req setup built := by
  refine buildPass_spendsChoice hcoins ?_ hbuild
  clear hbuild
  induction h with
  | start => exact ⟨fun _ => rfl, fun hfalse => absurd hfalse (by simp [startState])⟩
  | again _ hbuild hdecide ih =>
    obtain ⟨hpresets, change, hchoice, -⟩ := buildPass_spendsChoice hcoins ih hbuild
    rcases decidePass_cases hdecide with ⟨vout, fee, heq, -⟩ | ⟨-, pick, fee, heq, -⟩
    · cases heq
    · cases heq
      exact ⟨hchoice.undeployed, fun _ => ⟨hpresets, change, hchoice⟩⟩

/-! ## Calls that make no change in coins -/

variable {answers : CreateAnswers} {choices : Bytes → Nat → KnapsackChoices} {fee : Int} {assetChange : List CTxOut}

/-- Answers for which change is never worth its output. Every pass is asked for the same fee, and nothing
that follows the loop stands in the way. -/
def CreateAnswers.discarding (answers : CreateAnswers) (choices : Bytes → Nat → KnapsackChoices) (fee : Int) :
    CreateAnswers :=
  { answers with
    discardRate := fun _ => 2 ^ 63
    nFeeNeeded := fun _ => fee
    minRelayFee := fun _ => 0
    feeNeededWithChange := fun _ => fee
    assetChoices := fun _ => choices
    produceSignature := fun _ => true
    weightBelowLimit := true
    withinMempoolChainLimits := true }

/-- The outputs of a pass without change in coins. -/
def LoopSetup.outputs (setup : LoopSetup) (node : CreateNode) (req : CreateRequest) (nFeeRet : Int)
    (assetChange : List CTxOut) : List CTxOut :=
  (feeShares setup.totals.nSubtractFeeFromAmount nFeeRet true req.vecSend).map payeeOut ++ assetChange ++
    if node.cfg.dep.assets then issueOutputs req else []

theorem coinChange_discarding {nChangePosRequest : Option Nat} {nChange nFeeRet : Int} {scriptChange : Bytes}
    {vout : List CTxOut} (hplain : PlainChange scriptChange) (hlt : nChange < 2 ^ 63) :
    coinChange ⟨node, answers.discarding choices fee⟩ pass nChangePosRequest nChange scriptChange vout nFeeRet =
      .ok (vout, none, nFeeRet + max 0 nChange) := by
  have hdust : isDust ⟨nChange, scriptChange⟩ (answers.discarding choices fee).discardRate = true := by
    simpa [isDust, hplain.notAsset, getDustThreshold, hplain.spendable, CreateAnswers.discarding] using hlt
  rw [coinChange]
  split_ifs with hpos
  · simp only [hdust, if_true, max_eq_right hpos.le]
  · rw [max_eq_left (not_lt.mp hpos), add_zero]

theorem buildPass_discarding (hplain : PlainChange setup.scriptChange)
    (hpayees : ∀ p ∈ feeShares setup.totals.nSubtractFeeFromAmount st.nFeeRet true req.vecSend,
      Payable answers.dustRelayFee p)
    (hchoose : chooseInputs ⟨node, answers.discarding choices fee⟩ req setup pass st = .ok (st', mapAssetsIn))
    (hassets : assetChangeOutputs node setup st'.setAssets mapAssetsIn = .ok assetChange) :
    buildPass ⟨node, answers.discarding choices fee⟩ req setup pass st = .ok
      ⟨st', setup.outputs node req st.nFeeRet assetChange, none, st'.nFeeRet + max 0 (setup.nChange st'), assetChange⟩ :=
  buildPass_eq_ok.mpr ⟨_, mapAssetsIn, _, payees_eq_ok.mpr ⟨hpayees, rfl⟩, hchoose, hassets,
    coinChange_discarding hplain (toCAmount_range _).2, rfl⟩

theorem decidePass_done (hplain : PlainChange setup.scriptChange) (hpos : built.nChangePosInOut = none) (hfee : 0 ≤ fee)
    (hpaid : fee ≤ built.nFeeRet) (hlow : built.nFeeRet < fee + 2 ^ 63) :
    decidePass ⟨node, answers.discarding choices fee⟩ setup pass built = .ok (.done
      ⟨CreateEnv.inputs ⟨node, answers.discarding choices fee⟩ pass built.st, built.vout, built.nFeeRet⟩) := by
  have hthreshold : getDustThreshold ⟨0, setup.scriptChange⟩ (answers.discarding choices fee).discardRate = 2 ^ 63 := by
    rw [getDustThreshold, if_neg (by rw [hplain.spendable]; exact Bool.false_ne_true)]
    rfl
  simp only [decidePass, bind_eq_ok, exists_punit, require_eq_ok, hthreshold, hpos]
  refine ⟨?_, ?_⟩
  · rw [Bool.not_eq_true', decide_eq_false_iff_not, not_lt]
    exact hfee
  · rw [if_pos (show (answers.discarding choices fee).nFeeNeeded pass ≤ built.nFeeRet from hpaid),
      if_neg (fun h => absurd h.2.2.2 (not_le.mpr hlow))]
    rfl

theorem decidePass_again (hpos : built.nChangePosInOut = none) (hfee : 0 ≤ fee) (hlow : built.nFeeRet < fee)
    (hpick : built.st.pick_new_inputs = true) (hpayers : setup.totals.nSubtractFeeFromAmount ≠ 0) :
    decidePass ⟨node, answers.discarding choices fee⟩ setup pass built = .ok (.again
      { built.st with pick_new_inputs := false, nFeeRet := fee }) := by
  simp only [decidePass, bind_eq_ok, exists_punit, require_eq_ok, hpos]
  refine ⟨?_, ?_⟩
  · rw [Bool.not_eq_true', decide_eq_false_iff_not, not_lt]
    exact hfee
  · rw [if_neg (show ¬(answers.discarding choices fee).nFeeNeeded pass ≤ built.nFeeRet from not_le.mpr hlow), hpick,
      if_neg (by simp), decide_eq_false hpayers]
    rfl

theorem feeLoop_done (hbuild : buildPass env req setup pass st = .ok built)
    (hdecide : decidePass env setup pass built = .ok (.done tx)) :
    feeLoop env req setup 1 pass st = .ok (built, tx) := by
  simp only [feeLoop_succ, bind_eq_ok]
  exact ⟨built, hbuild, .done tx, hdecide, rfl⟩

theorem feeLoop_again {r : BuiltPass × CreatedTransaction} (hbuild : buildPass env req setup pass st = .ok built)
    (hdecide : decidePass env setup pass built = .ok (.again st'))
    (hloop : feeLoop env req setup fuel (pass + 1) st' = .ok r) : feeLoop env req setup (fuel + 1) pass st = .ok r := by
  simp only [feeLoop_succ, bind_eq_ok]
  exact ⟨built, hbuild, .again st', hdecide, hloop⟩

theorem createTransactionAll_discarding (hsetup : loopSetup node req = .ok setup)
    (hloop : feeLoop ⟨node, answers.discarding choices fee⟩ req setup fuel 0 startState = .ok (built, tx)) :
    createTransactionAll ⟨node, answers.discarding choices fee⟩ req fuel = .ok ⟨tx, built, keyAfter node req built⟩ := by
  simp only [createTransactionAll, bind_eq_ok, exists_punit, require_eq_ok, pure_eq_ok]
  exact ⟨setup, hsetup, (built, tx), hloop, by simp [CreateAnswers.discarding], rfl,
    by simp [CreateAnswers.discarding], rfl⟩

theorem LoopSetup.nChange_lt (setup : LoopSetup) (st : LoopState) : max 0 (setup.nChange st) < 2 ^ 63 :=
  max_lt (by decide) (toCAmount_range _).2

/-- The first pass of a call that makes no change in coins. -/
structure FirstPass (node : CreateNode) (answers : CreateAnswers) (choices : Bytes → Nat → KnapsackChoices)
    (req : CreateRequest) (setup : LoopSetup) (st : LoopState) (assetChange : List CTxOut) : Prop where
  payable : ∀ recipient ∈ req.vecSend, Payable answers.dustRelayFee (recipient, 0)
  inputs : ∃ mapAssetsIn, (∀ fee, chooseInputs ⟨node, answers.discarding choices fee⟩ req setup 0 startState =
      .ok (st, mapAssetsIn)) ∧ assetChangeOutputs node setup st.setAssets mapAssetsIn = .ok assetChange

namespace FirstPass

section

variable (h : FirstPass node answers choices req setup st assetChange)
include h

theorem begins (hplain : PlainChange setup.scriptChange)
    (fee : Int) : ∃ built, buildPass ⟨node, answers.discarding choices fee⟩ req setup 0 startState = .ok built ∧
      built = ⟨st, setup.outputs node req 0 assetChange, none, max 0 (setup.nChange st), assetChange⟩ ∧
      st.pick_new_inputs = true := by
  obtain ⟨mapAssetsIn, hchoose, hassets⟩ := h.inputs
  obtain ⟨hpick, hfee⟩ := chooseInputs_frame (hchoose fee)
  refine ⟨_, buildPass_discarding hplain (forall_feeShares_zero.mpr h.payable) (hchoose fee) hassets, ?_, hpick⟩
  rw [hfee, show startState.nFeeRet = 0 from rfl, zero_add]

/-- A call that asks for no fee ends with its first pass. -/
theorem once (hsetup : loopSetup node req = .ok setup)
    (hplain : PlainChange setup.scriptChange) : ∃ call,
    createTransactionAll ⟨node, answers.discarding choices 0⟩ req 1 = .ok call ∧
      call.tx.inputs.Perm (st.spent node.cfg) ∧
      call.tx.vout = setup.outputs node req 0 assetChange ∧ 0 ≤ call.tx.nFeeRet ∧
      call.built.nChangePosInOut = none ∧ call.built.assetChange = assetChange ∧
      call.reservekey = (getReservedKey node req).returnKey := by
  obtain ⟨built, hbuild, hbuilt, -⟩ := h.begins hplain 0
  have hfee : built.nFeeRet = max 0 (setup.nChange st) := by rw [hbuilt]
  have hdecide : decidePass ⟨node, answers.discarding choices 0⟩ setup 0 built = .ok (.done
      ⟨CreateEnv.inputs ⟨node, answers.discarding choices 0⟩ 0 built.st, built.vout, built.nFeeRet⟩) :=
    decidePass_done hplain (by rw [hbuilt]) le_rfl (by rw [hfee]; exact le_max_left ..)
      (by rw [hfee, zero_add]; exact setup.nChange_lt st)
  refine ⟨_, createTransactionAll_discarding hsetup (feeLoop_done hbuild hdecide), ?_⟩
  subst hbuilt
  exact ⟨inputs_perm ⟨node, answers.discarding choices 0⟩ 0 st, rfl, le_max_left .., rfl, rfl, rfl⟩

/-- When somebody is to pay a fee that is not paid yet, the second pass keeps the inputs of the first, makes no
asset change and ends the call. -/
theorem twice (hsetup : loopSetup node req = .ok setup)
    (hplain : PlainChange setup.scriptChange) (hpayers : setup.totals.nSubtractFeeFromAmount ≠ 0)
    (hfee : max 0 (setup.nChange st) < fee)
    (hpayable : ∀ p ∈ feeShares setup.totals.nSubtractFeeFromAmount fee true req.vecSend, Payable answers.dustRelayFee p) :
    ∃ call, createTransactionAll ⟨node, answers.discarding choices fee⟩ req 2 = .ok call ∧
      call.tx.inputs.Perm (st.spent node.cfg) ∧
      call.tx.vout = setup.outputs node req fee [] ∧ call.tx.nFeeRet = fee + max 0 (setup.nChange st) := by
  obtain ⟨first, hfirst, hbuilt, hpick⟩ := h.begins hplain fee
  have hnonneg : 0 ≤ max 0 (setup.nChange st) := le_max_left ..
  have hagain : decidePass ⟨node, answers.discarding choices fee⟩ setup 0 first = .ok (.again
      { first.st with pick_new_inputs := false, nFeeRet := fee }) :=
    decidePass_again (by rw [hbuilt]) (by omega) (by rw [hbuilt]; exact hfee) (by rw [hbuilt]; exact hpick) hpayers
  subst hbuilt
  -- the sum to be reached is the same with every fee
  have hchange : setup.nChange { st with pick_new_inputs := false, nFeeRet := fee } = setup.nChange st := by
    simp only [LoopSetup.nChange, LoopSetup.nValueToSelect, if_neg hpayers]
  have hsecond : ∃ built, buildPass ⟨node, answers.discarding choices fee⟩ req setup 1
      { st with pick_new_inputs := false, nFeeRet := fee } = .ok built ∧
      built = ⟨{ st with pick_new_inputs := false, nFeeRet := fee }, setup.outputs node req fee [], none,
        fee + max 0 (setup.nChange st), []⟩ := by
    refine ⟨_, buildPass_discarding hplain hpayable (chooseInputs_kept rfl) assetChangeOutputs_empty, ?_⟩
    rw [hchange]
  obtain ⟨built, hbuild, hbuilt⟩ := hsecond
  have hlow := setup.nChange_lt st
  have hdecide : decidePass ⟨node, answers.discarding choices fee⟩ setup 1 built = .ok (.done
      ⟨CreateEnv.inputs ⟨node, answers.discarding choices fee⟩ 1 built.st, built.vout, built.nFeeRet⟩) :=
    decidePass_done hplain (by rw [hbuilt]) (by omega) (by rw [hbuilt]; simp only; omega)
      (by rw [hbuilt]; simp only; omega)
  refine ⟨_, createTransactionAll_discarding hsetup (feeLoop_again hfirst hagain (feeLoop_done hbuild hdecide)), ?_⟩
  subst hbuilt
  exact ⟨inputs_perm ⟨node, answers.discarding choices fee⟩ 1 _, rfl, rfl⟩

/-- The first pass does not depend on who pays the fee. -/
theorem withPayers {vecSend : List CRecipient}
    (hsame : vecSend.map CRecipient.payment = req.vecSend.map CRecipient.payment) :
    FirstPass node answers choices { req with vecSend := vecSend } (setup.withPayers vecSend) st assetChange := by
  obtain ⟨mapAssetsIn, hchoose, hassets⟩ := h.inputs
  refine ⟨fun recipient hmem => ?_, mapAssetsIn, fun fee => ?_, hassets⟩
  · have hpayment : recipient.payment ∈ req.vecSend.map CRecipient.payment := hsame ▸ List.mem_map_of_mem hmem
    obtain ⟨other, hother, heq⟩ := List.mem_map.mp hpayment
    obtain ⟨hscript, hamount⟩ := Prod.mk.inj heq
    have hpayable := h.payable other hother
    rw [Payable] at hpayable ⊢
    rwa [← hscript, ← hamount]
  · have hselect : (setup.withPayers vecSend).nValueToSelect 0 = setup.nValueToSelect 0 := by
      rw [LoopSetup.nValueToSelect, LoopSetup.nValueToSelect, ite_self, ite_self]
      rfl
    rw [← hchoose fee]
    simp only [chooseInputs, show startState.nFeeRet = 0 from rfl, hselect]
    rfl

end

end FirstPass

/-- In a call that can succeed every choice of the assets can be made in the first pass. -/
theorem AssetChoice.firstPass {setAssets : CoinSet} (h : AssetChoice node setup setAssets assetChange)
    (hsetup : loopSetup node req = .ok setup) (hcall : createTransactionAll ⟨node, answers⟩ req fuel = .ok call) :
    ∃ choices st, FirstPass node answers choices req setup st assetChange ∧ st.setAssets = setAssets ∧
      ∀ name, mapSum (assetWeight node.cfg name) st.setCoins =
        mapSum (assetWeight node.cfg name) (node.presets req) := by
  have henv : loopSetup (CreateEnv.mk node answers).toCreateNode req = .ok setup := hsetup
  obtain ⟨built, hbuild⟩ := createTransactionAll_first henv hcall
  obtain ⟨payeeOuts, mapAssetsIn, vout, hpayees, hchoose, -, -, -⟩ := buildPass_eq_ok.mp hbuild
  have hpayable := forall_feeShares_zero.mp (payees_eq_ok.mp hpayees).1
  obtain ⟨setCoins, nValueIn, hselect, -⟩ := (chooseInputs_picked rfl).mp hchoose
  obtain ⟨-, hcoins, -⟩ := loopSetup_cases hsetup
  have hpresets : ∀ name, mapSum (assetWeight node.cfg name) setCoins =
      mapSum (assetWeight node.cfg name) (node.presets req) := fun name => by
    rw [hcoins] at hselect
    exact selectCoins_assets hselect
  rw [AssetChoice] at h
  split_ifs at h with hdep
  · obtain ⟨choices, mapAssetsIn, hassets, hchange⟩ := h
    refine ⟨choices, ⟨0, true, setCoins, nValueIn, setAssets⟩, ⟨hpayable, mapAssetsIn, fun fee => ?_, hchange⟩, rfl, hpresets⟩
    refine (chooseInputs_picked rfl).mpr ⟨setCoins, nValueIn, hselect, ?_⟩
    rw [if_pos (show node.cfg.dep.assets = true from hdep)]
    exact ⟨setAssets, hassets, rfl⟩
  · obtain ⟨rfl, rfl⟩ := h
    refine ⟨answers.assetChoices 0, ⟨0, true, setCoins, nValueIn, ∅⟩,
      ⟨hpayable, ∅, fun fee => ?_, assetChangeOutputs_empty⟩, rfl, hpresets⟩
    refine (chooseInputs_picked rfl).mpr ⟨setCoins, nValueIn, hselect, ?_⟩
    rw [if_neg (show ¬node.cfg.dep.assets = true from hdep)]
    exact ⟨rfl, rfl⟩

end HempCore
