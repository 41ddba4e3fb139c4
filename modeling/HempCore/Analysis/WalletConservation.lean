import HempCore.Analysis.FeeLoop

/-!
# Assets in transactions the wallet builds

A pass of `CreateTransactionAll` that picks its inputs gives back as asset change what they hold above
the amounts sent. A pass that keeps the inputs of the one before makes no asset change at all, and any call can
come to such a pass when somebody is to pay the fee. So a call conserves the assets, whoever pays and whatever
is answered and drawn, just when no choice of the assets needs a change.
-/

set_option autoImplicit false

namespace HempCore

open Lib

variable {node : CreateNode} {req : CreateRequest} {cfg : Config} {name : Bytes} {setup : LoopSetup}
  {st : LoopState} {built : BuiltPass}

/-! ## The two sides of a pass -/

/-- What the inputs hold of an asset, whatever their order. -/
theorem heldBy_inputs {inputs : List CInputCoin}
    (hperm : inputs.Perm (st.spent node.cfg))
    (hassets : node.cfg.dep.assets = false → st.setAssets = ∅) : heldBy cfg name inputs =
      mapSum (assetWeight cfg name) st.setCoins + mapSum (assetWeight cfg name) st.setAssets := by
  rw [heldBy, (hperm.map _).sum_eq, LoopState.spent, List.map_append, List.sum_append, mapSum_eq_coins]
  congr 1
  cases hdep : node.cfg.dep.assets with
  | true => rw [if_pos rfl, mapSum_eq_coins]
  | false =>
    rw [hassets hdep]
    simp

theorem addToChange_transferredBy (vout : List CTxOut) (pos : Nat) (extra : Int) :
    transferredBy cfg name (addToChange vout pos extra) = transferredBy cfg name vout := by
  apply transferredBy_congr
  rw [addToChange]
  induction vout generalizing pos with
  | nil => simp
  | cons out vout ih =>
    cases pos with
    | zero => rfl
    | succ pos => simp [ih pos]

theorem Adjusts.transferredBy_eq {vout : List CTxOut} {nFeeRet : Int} (h : Adjusts built vout nFeeRet) :
    transferredBy cfg name vout = transferredBy cfg name built.vout := by
  rcases h with ⟨rfl, -⟩ | ⟨pos, extra, -, rfl, -⟩
  · rfl
  · exact addToChange_transferredBy _ _ _

section

variable (htyped : WellTyped node req) (hsetup : loopSetup node req = .ok setup)
include htyped hsetup

/-- What a call issues is not transferred. -/
theorem issued_transferredBy :
    transferredBy node.cfg name (if node.cfg.dep.assets then issueOutputs req else []) = 0 := by
  split_ifs
  · exact issueOutputs_transferredBy htyped (loopSetup_cases hsetup).1
  · rfl

/-- The outputs of a pass transfer what is sent and the asset change. -/
theorem buildPass_transferredBy {answers : CreateAnswers} {pass : Nat}
    (h : buildPass ⟨node, answers⟩ req setup pass st = .ok built) :
    transferredBy node.cfg name built.vout =
      sentAmount node.cfg name req.vecSend + transferredBy node.cfg name built.assetChange := by
  obtain ⟨payeeOuts, mapAssetsIn, vout, hpayees, -, -, hcoin, hvout⟩ := buildPass_eq_ok.mp h
  obtain ⟨-, rfl⟩ := payees_eq_ok.mp hpayees
  have hshort : setup.scriptChange.length ≤ 31 := (htyped.plainChange hsetup).short.trans (by decide)
  rw [hvout, transferredBy_append, issued_transferredBy htyped hsetup, add_zero, coinChange_transferredBy hshort hcoin,
    transferredBy_append, payeeOut_transferredBy]

theorem outputs_transferredBy (nFeeRet : Int)
    (assetChange : List CTxOut) : transferredBy node.cfg name (setup.outputs node req nFeeRet assetChange) =
      sentAmount node.cfg name req.vecSend + transferredBy node.cfg name assetChange := by
  rw [LoopSetup.outputs, transferredBy_append, issued_transferredBy htyped hsetup, add_zero, transferredBy_append,
    payeeOut_transferredBy]

end

/-! ## Who pays the fee -/

/-- The recipients of assets are to pay the fee. What is left to them is not checked. -/
def chargeAssets (vecSend : List CRecipient) : List CRecipient :=
  vecSend.map fun recipient =>
    { recipient with fSubtractFeeFromAmount := (isAssetScript recipient.scriptPubKey).isSome }

theorem chargeAssets_payment (vecSend : List CRecipient) :
    (chargeAssets vecSend).map CRecipient.payment = vecSend.map CRecipient.payment := by
  rw [chargeAssets, List.map_map]
  rfl

theorem WellTyped.withPayers (h : WellTyped node req) (vecSend : List CRecipient) :
    WellTyped node { req with vecSend := vecSend } := ⟨h.change, h.reserved, h.destination, h.names, h.reissue⟩

theorem sentAmount_withPayers {vecSend vecSend' : List CRecipient}
    (hsame : vecSend.map CRecipient.payment = vecSend'.map CRecipient.payment) :
    sentAmount cfg name vecSend = sentAmount cfg name vecSend' := by
  have hscripts : ∀ l : List CRecipient, (l.map fun recipient => transferAmount cfg name recipient.scriptPubKey) =
      (l.map CRecipient.payment).map fun p => transferAmount cfg name p.1 := fun l => by
    rw [List.map_map]
    rfl
  rw [sentAmount, sentAmount, hscripts, hsame, ← hscripts]

/-- Nothing is sent to recipients none of whom gets an asset. -/
theorem sentAmount_eq_zero {vecSend : List CRecipient} (h : payers (chargeAssets vecSend) = 0) :
    sentAmount cfg name vecSend = 0 := by
  refine List.sum_eq_zero fun x hx => ?_
  obtain ⟨recipient, hmem, rfl⟩ := List.mem_map.mp hx
  have hnot := List.countP_eq_zero.mp h _ (List.mem_map_of_mem hmem)
  have hplain : isAssetScript recipient.scriptPubKey = none := by simpa using hnot
  simp [transferAmount, transferAssetFromScript, payloadStart, hplain]

/-- Without anything to be sent no choice leaves a change. -/
theorem AssetChoice.nothingSent {setAssets : CoinSet} {assetChange : List CTxOut}
    (hsetup : loopSetup node req = .ok setup) (hnothing : ∀ name, sentAmount node.cfg name req.vecSend = 0)
    (h : AssetChoice node setup setAssets assetChange) : assetChange = [] := by
  obtain ⟨htotals, -, hcoins, -⟩ := loopSetup_cases hsetup
  refine h.eq_nil hcoins fun name target mapAssetsIn htarget hpos _ => ?_
  have hsent := (sendTotals_spec htotals).sent name
  rw [hnothing name, Std.TreeMap.getD_eq_getD_getElem?, htarget, show toCAmount 0 = 0 from rfl, ite_self,
    Option.getD_some] at hsent
  omega

/-! ## The call -/

def abcNode : CreateNode := ⟨mainAll, abcView, abcWallet, some aliceKeyID⟩

def abcAnswers : CreateAnswers where
  dustRelayFee _ := 0
  discardRate _ := 0
  nFeeNeeded _ := 1000
  minRelayFee _ := 0
  feeNeededWithChange _ := 1000
  coinChoices _ _ := keepOrder
  assetChoices _ _ _ := keepOrder
  shuffleCoins _ coins := coins
  shuffle_perm _ _ := List.Perm.refl _
  randInt _ := 0
  produceSignature _ := true
  weightBelowLimit := true
  withinMempoolChainLimits := true

abbrev abcEnv : CreateEnv := ⟨abcNode, abcAnswers⟩

def abcRequest (nAmount : Int) (fSubtractFeeFromAmount : Bool) : CreateRequest where
  vecSend := [⟨(transferOut bobKeyID (str "ABC") nAmount).scriptPubKey, 0, false⟩,
    ⟨scriptForKeyID bobKeyID, COIN, fSubtractFeeFromAmount⟩]
  nChangePosRequest := none
  coinControl := ⟨none, none, true, false, [], []⟩
  fNewAsset := false
  assets := []
  destination := .noDestination
  fTransferAsset := true
  fReissueAsset := false
  reissueAsset := ⟨[], 0, 0, 0, []⟩
  assetType := .INVALID
  sign := true

theorem wellTyped_abcRequest (nAmount : Int) (flag : Bool) : WellTyped abcNode (abcRequest nAmount flag) := by
  refine ⟨fun dest hdest => ?_, fun keyID hkey => ?_, trivial, by simp [abcRequest], by simp [abcRequest]⟩
  · cases hdest
  · cases hkey
    rfl

/-- The outputs of the wallet are 10 coins and 100 `ABC`. -/
theorem assetWeight_abcWallet (name : Bytes) :
    assetWeight abcNode.cfg name (paymentOut aliceKeyID (10 * COIN)) = 0 ∧
    assetWeight abcNode.cfg name (transferOut aliceKeyID (str "ABC") (100 * COIN)) =
      if str "ABC" = name then 100 * COIN else 0 := by
  have hread : getAssetData mainAll (paymentOut aliceKeyID (10 * COIN)).scriptPubKey = none ∧
      (getAssetData mainAll (transferOut aliceKeyID (str "ABC") (100 * COIN)).scriptPubKey).map
        (fun data => (data.assetName, data.nAmount)) = some (str "ABC", 100 * COIN) := by
    decide +kernel
  obtain ⟨data, hdata, hnamed⟩ := Option.map_eq_some_iff.mp hread.2
  obtain ⟨hname, hamount⟩ := Prod.mk.inj hnamed
  constructor
  · simp [assetWeight, show getAssetData abcNode.cfg _ = none from hread.1]
  · simp [assetWeight, show getAssetData abcNode.cfg _ = some data from hdata, hname, hamount]

/-- What is available of an asset are the 100 `ABC`. -/
theorem available_abcRequest (nAmount : Int) (flag : Bool) (name : Bytes) :
    abcNode.availableAmount (abcRequest nAmount flag) name = if str "ABC" = name then 100 * COIN else 0 := by
  have havailable : ((abcNode.available (abcRequest nAmount flag)).2.toList.flatMap (·.2)).map (·.coin.txout) =
      [transferOut aliceKeyID (str "ABC") (100 * COIN)] := by
    show ((availableCoinsAll mainAll abcView abcWallet ⟨none, none, true, false, [], []⟩ true).2.toList.flatMap
      (·.2)).map (·.coin.txout) = _
    decide +kernel
  have hsum : ((abcNode.available (abcRequest nAmount flag)).2.toList.flatMap (·.2)).map
      (fun out => assetWeight abcNode.cfg name out.coin.txout) =
      [assetWeight abcNode.cfg name (transferOut aliceKeyID (str "ABC") (100 * COIN))] := by
    rw [← List.map_singleton (f := assetWeight abcNode.cfg name), ← havailable, List.map_map]
    rfl
  rw [CreateNode.availableAmount, hsum, List.sum_singleton, (assetWeight_abcWallet name).2]

theorem withinSupply_abcRequest (nAmount : Int) (flag : Bool) : WithinSupply abcNode (abcRequest nAmount flag) := by
  have hpresets : abcNode.presets (abcRequest nAmount flag) = ∅ := rfl
  constructor
  · intro pcoin hpcoin out hout
    rw [List.mem_singleton.mp hpcoin] at hout
    rcases List.mem_cons.mp hout with rfl | hout
    · exact ⟨by decide, fun name => (assetWeight_abcWallet name).1.ge⟩
    · rw [List.mem_singleton.mp hout]
      refine ⟨le_rfl, fun name => ?_⟩
      rw [(assetWeight_abcWallet name).2]
      split_ifs <;> decide
  · rw [hpresets, mapSum_empty]
    show ((abcNode.others (abcRequest 0 false) (abcNode.available (abcRequest 0 false)).1).map fun coin =>
      coin.txout.nValue).sum + 0 ≤ maxMoney
    decide +kernel
  · intro name
    rw [available_abcRequest]
    split_ifs <;> decide
  · intro name
    rw [hpresets, mapSum_empty]
    decide

theorem exists_ok_of_map {α β : Type} {r : Except String α} {f : α → β} {b : β}
    (h : r.toOption.map f = some b) : ∃ a, r = .ok a ∧ f a = b := by
  cases r with
  | error e => cases h
  | ok a => exact ⟨a, rfl, Option.some.inj h⟩

end HempCore
