import HempCore.Lib.Totals
import HempCore.Model.CheckTxAssets

/-!
# What acceptance means

One inversion lemma for each validator: from "the check accepts" the conditions it went through.
The results about accepted transactions use these and never unfold a validator.
-/

set_option autoImplicit false

namespace HempCore

open Lib

/-! ## Scripts -/

/-- The recogniser returns one of three types, and only a new asset can be an owner token. -/
theorem isAssetScript_cases {s : Bytes} {a : AssetScript} (h : isAssetScript s = some a) :
    (a.nType = .TX_TRANSFER_ASSET ∧ a.fIsOwner = false) ∨ (a.nType = .TX_NEW_ASSET ∧ a.fIsOwner = false) ∨
      (a.nType = .TX_NEW_ASSET ∧ a.fIsOwner = true) ∨ (a.nType = .TX_REISSUE_ASSET ∧ a.fIsOwner = false) := by
  unfold isAssetScript at h
  split at h
  · split at h
    · cases h
    · split_ifs at h <;> cases h <;> simp
  · cases h

theorem payloadStart_eq_some {nType : TxnOutType} {fIsOwner : Bool} {s : Bytes} {start : Nat} :
    payloadStart nType fIsOwner s = some start ↔ isAssetScript s = some ⟨nType, fIsOwner, start⟩ := by
  unfold payloadStart
  cases h : isAssetScript s with
  | none => simp
  | some a =>
    obtain ⟨t, o, i⟩ := a
    simp only [Option.ite_none_right_eq_some, Option.some.injEq, AssetScript.mk.injEq]
    tauto

variable {cfg : Config}

theorem isAssetScript_of_transfer {s : Bytes} {p : CAssetTransfer × Bytes} (h : transferAssetFromScript cfg s = some p) :
    ∃ start, isAssetScript s = some ⟨.TX_TRANSFER_ASSET, false, start⟩ := by
  simp only [transferAssetFromScript, Option.bind_eq_bind, Option.bind_eq_some_iff] at h
  obtain ⟨start, hstart, -⟩ := h
  exact ⟨start, payloadStart_eq_some.mp hstart⟩

theorem getAssetData_of_transfer {s : Bytes} {start : Nat} (h : isAssetScript s = some ⟨.TX_TRANSFER_ASSET, false, start⟩) :
    getAssetData cfg s = (transferAssetFromScript cfg s).map fun p => ⟨.TX_TRANSFER_ASSET, p.1.strName, p.1.nAmount, p.2⟩ := by
  simp [getAssetData, h]

/-! ## Asset totals -/

theorem addAssetTotal_eq_some {totals totals' : AssetTotals} {name : Bytes} {amount : Int}
    (h : addAssetTotal totals name amount = some totals') :
    0 ≤ amount ∧ totals.getD name 0 + amount ≤ maxMoney ∧ totals' = totals.insert name (totals.getD name 0 + amount) := by
  simp only [addAssetTotal, safeAddAssetTotal, Option.map_eq_some_iff] at h
  obtain ⟨t, ht, rfl⟩ := h
  split_ifs at ht with h₁ h₂ h₃
  cases ht
  push Not at h₁ h₂
  exact ⟨h₂.1, by omega, rfl⟩

/-! ## `CheckTxAssets` -/

section CheckTxAssets

variable {tx : CTransaction} {inputs : CoinsView} {cache : Option AssetView}
  {fCheckMempool fRunningUnitTests : Bool} {pool : MempoolTracking}

theorem checkTxAssets_ok {pairs : List (Bytes × Uint256)}
    (h : checkTxAssets cfg tx inputs cache fCheckMempool pool fRunningUnitTests = .ok pairs) :
    haveInputs inputs tx = true ∧
      ∃ totalInputs st, tx.vin.foldlM (checkAssetInput cfg inputs cache) ∅ = .ok totalInputs ∧
        tx.vout.foldlM (checkAssetOutput cfg cache pool fRunningUnitTests tx) ⟨∅, []⟩ = .ok st ∧
        checkKindContext cfg cache fCheckMempool pool tx = .ok () ∧
        checkAssetTotals totalInputs st.totalOutputs = .ok () ∧
        pairs = st.vPairReissueAssets := by
  simp only [checkTxAssets, bind_eq_ok, exists_punit, require_eq_ok, pure_eq_ok] at h
  obtain ⟨hin, totalInputs, h₁, st, h₂, h₃, h₄, h₅⟩ := h
  exact ⟨hin, totalInputs, st, h₁, h₂, h₃, h₄, h₅.symm⟩

/-- What an accepted input went through: it carries no asset, or an asset whose amount was added
to its total and that is not frozen at its address. -/
theorem checkAssetInput_ok {totals totals' : AssetTotals} {txin : CTxIn}
    (h : checkAssetInput cfg inputs cache totals txin = .ok totals') :
    ∃ coin, inputs txin.prevout = some coin ∧
      ((isAssetScript coin.out.scriptPubKey = none ∧ totals' = totals) ∨
        ∃ data, getAssetData cfg coin.out.scriptPubKey = some data ∧ 0 ≤ data.nAmount ∧ data.nAmount ≤ maxMoney ∧
          addAssetTotal totals data.assetName data.nAmount = some totals' ∧
          checkNotFrozen cache data = .ok ()) := by
  simp only [checkAssetInput, bind_eq_ok, demand_eq_ok] at h
  obtain ⟨coin, hcoin, h⟩ := h
  refine ⟨coin, hcoin, ?_⟩
  split at h
  · next hnone =>
    rw [pure_eq_ok] at h
    exact .inl ⟨Option.isNone_iff_eq_none.mp hnone, h.symm⟩
  · simp only [bind_eq_ok, exists_punit, demand_eq_ok, require_eq_ok, decide_eq_true_eq, pure_eq_ok] at h
    obtain ⟨data, hdata, hnonneg, hle, t, ht, hfrozen, rfl⟩ := h
    exact .inr ⟨data, hdata, hnonneg, hle, ht, hfrozen⟩

theorem checkAssetTransferOutput_ok {totals totals' : AssetTotals} {txout : CTxOut}
    (h : checkAssetTransferOutput cfg cache fRunningUnitTests totals txout = .ok totals') :
    ∃ transfer address, transferAssetFromScript cfg txout.scriptPubKey = some (transfer, address) ∧
      contextualCheckTransferAsset cfg cache transfer address = .ok () ∧
      addAssetTotal totals transfer.strName transfer.nAmount = some totals' ∧
      (fRunningUnitTests = false → checkTransferUnits cache transfer = .ok ()) := by
  simp only [checkAssetTransferOutput, bind_eq_ok, exists_punit, demand_eq_ok, require_eq_ok,
    onlyWhen_eq_ok, pure_eq_ok, Prod.exists, Bool.not_eq_true'] at h
  obtain ⟨transfer, address, hparse, -, -, hctx, t, ht, hunits, rfl⟩ := h
  exact ⟨transfer, address, hparse, hctx, ht, hunits⟩

/-- What an accepted output went through: a transfer is added to its total, and any other output
leaves the totals alone. -/
theorem checkAssetOutput_ok {st st' : OutputTotals} {txout : CTxOut}
    (h : checkAssetOutput cfg cache pool fRunningUnitTests tx st txout = .ok st') :
    checkOutputContext cfg cache txout = .ok () ∧
      ((∃ start, isAssetScript txout.scriptPubKey = some ⟨.TX_TRANSFER_ASSET, false, start⟩ ∧
          checkAssetTransferOutput cfg cache fRunningUnitTests st.totalOutputs txout = .ok st'.totalOutputs) ∨
        ((∀ start, isAssetScript txout.scriptPubKey ≠ some ⟨.TX_TRANSFER_ASSET, false, start⟩) ∧
          st'.totalOutputs = st.totalOutputs)) := by
  simp only [checkAssetOutput, bind_eq_ok, exists_punit] at h
  obtain ⟨hctx, h⟩ := h
  refine ⟨hctx, ?_⟩
  unfold checkOutputTransferOrReissue at h
  cases hs : isAssetScript txout.scriptPubKey with
  | none =>
    simp only [hs, Option.map_none, pure_eq_ok] at h
    exact .inr ⟨by simp, by rw [h]⟩
  | some a =>
    obtain ⟨nType, fIsOwner, start⟩ := a
    rcases isAssetScript_cases hs with ⟨rfl, rfl⟩ | ⟨rfl, rfl⟩ | ⟨rfl, rfl⟩ | ⟨rfl, rfl⟩
    · simp only [hs, Option.map_some, bind_eq_ok, pure_eq_ok] at h
      obtain ⟨t, ht, rfl⟩ := h
      exact .inl ⟨start, rfl, ht⟩
    · simp only [hs, Option.map_some, pure_eq_ok] at h
      exact .inr ⟨by simp, by rw [h]⟩
    · simp only [hs, Option.map_some, pure_eq_ok] at h
      exact .inr ⟨by simp, by rw [h]⟩
    · simp only [hs, Option.map_some, bind_eq_ok, pure_eq_ok] at h
      obtain ⟨-, -, pairs, -, rfl⟩ := h
      exact .inr ⟨by simp, rfl⟩

theorem checkAssetTotals_ok {totalInputs totalOutputs : AssetTotals}
    (h : checkAssetTotals totalInputs totalOutputs = .ok ()) (name : Bytes) :
    totalOutputs[name]? = totalInputs[name]? := by
  simp only [checkAssetTotals, bind_eq_ok, exists_punit, List.forM_eq_forM, forM_eq_ok, require_eq_ok, beq_iff_eq] at h
  refine getElem?_eq_of_covered (fun p hp => ?_) h.2 name
  have hcov := h.1 p hp
  simp only [checkOutputTotal, bind_eq_ok, demand_eq_ok, require_eq_ok, beq_iff_eq, Std.TreeMap.get?_eq_getElem?] at hcov
  obtain ⟨total, htotal, rfl⟩ := hcov
  exact htotal

end CheckTxAssets

/-! ## `CheckTransaction` -/

section CheckTransaction

variable {tx : CTransaction}

theorem checkTransaction_ok {fCheckDuplicateInputs fMempoolCheck fBlockCheck : Bool}
    (h : checkTransaction cfg tx fCheckDuplicateInputs fMempoolCheck fBlockCheck = .ok ()) :
    ∃ scan flags, tx.vout.foldlM (checkOutput cfg fMempoolCheck fBlockCheck) OutputScan.start = .ok scan ∧
      checkNullDataOutputs cfg tx scan = .ok () ∧ checkInputs cfg fCheckDuplicateInputs tx = .ok () ∧
      checkKind cfg tx = .ok flags := by
  simp only [checkTransaction, bind_eq_ok, exists_punit, require_eq_ok] at h
  obtain ⟨-, -, -, scan, hscan, hnull, hinputs, flags, hkind, -⟩ := h
  exact ⟨scan, flags, hscan, hnull, hinputs, hkind⟩

/-- The kind that a transaction was recognised as, the recognisers that were asked before it, and
the checks of that kind. -/
inductive KindAccepted (cfg : Config) (tx : CTransaction) : Prop
  | issue (h : tx.isNewAsset cfg = true) (hok : checkIssue cfg tx = .ok ())
  | reissue (h₁ : tx.isNewAsset cfg = false) (h : tx.isReissueAsset = true) {restricted : Bool}
      (hok : checkReissue cfg tx = .ok restricted)
  | unique (h₁ : tx.isNewAsset cfg = false) (h₂ : tx.isReissueAsset = false)
      (h : tx.isNewUniqueAsset cfg = true) (hok : checkIssueUnique cfg tx = .ok ())
  | msgChannel (h₁ : tx.isNewAsset cfg = false) (h₂ : tx.isReissueAsset = false)
      (h₃ : tx.isNewUniqueAsset cfg = false) (h : tx.isNewMsgChannelAsset cfg = true)
      (hok : checkIssueMsgChannel cfg tx = .ok ())
  | qualifier (h₁ : tx.isNewAsset cfg = false) (h₂ : tx.isReissueAsset = false)
      (h₃ : tx.isNewUniqueAsset cfg = false) (h₄ : tx.isNewMsgChannelAsset cfg = false)
      (h : tx.isNewQualifierAsset cfg = true) (hok : checkIssueQualifier cfg tx = .ok ())
  | restricted (h₁ : tx.isNewAsset cfg = false) (h₂ : tx.isReissueAsset = false)
      (h₃ : tx.isNewUniqueAsset cfg = false) (h₄ : tx.isNewMsgChannelAsset cfg = false)
      (h₅ : tx.isNewQualifierAsset cfg = false) (h : tx.isNewRestrictedAsset cfg = true)
      (hok : checkIssueRestricted cfg tx = .ok ())
  | transfers (h₁ : tx.isNewAsset cfg = false) (h₂ : tx.isReissueAsset = false)
      (h₃ : tx.isNewUniqueAsset cfg = false) (h₄ : tx.isNewMsgChannelAsset cfg = false)
      (h₅ : tx.isNewQualifierAsset cfg = false) (h₆ : tx.isNewRestrictedAsset cfg = false)
      (hok : checkTransfersOnly tx = .ok ())

theorem checkKind_ok {flags : RestrictedFlags} (h : checkKind cfg tx = .ok flags) : KindAccepted cfg tx := by
  unfold checkKind at h
  split_ifs at h with h₁ h₂ h₃ h₄ h₅ h₆ <;>
    simp only [bind_eq_ok, exists_punit] at h <;> try simp only [Bool.not_eq_true] at *
  · exact .issue h₁ h.1
  · exact .reissue h₁ h₂ h.choose_spec.1
  · exact .unique h₁ h₂ h₃ h.1
  · exact .msgChannel h₁ h₂ h₃ h₄ h.1
  · exact .qualifier h₁ h₂ h₃ h₄ h₅ h.1
  · exact .restricted h₁ h₂ h₃ h₄ h₅ h₆ h.1
  · exact .transfers h₁ h₂ h₃ h₄ h₅ h₆ h.1

end CheckTransaction

end HempCore
