import HempCore.Model.TxClass

/-!
# Context-free transaction checks

`CheckTransaction` of `consensus/tx_verify.cpp` and the asset checks it calls. A failure is what
the source leaves in `CValidationState` (every one of them with `REJECT_INVALID`), or an abort
where the source would throw, assert or follow a null pointer.
Lines without a file are those of `consensus/tx_verify.cpp`.
-/

set_option autoImplicit false

namespace HempCore

open Lib (require demand orElseError)

/-- How a validation function fails. -/
inductive Failure where
  | reject (nDoS : Nat) (strRejectReason : String)
  | abort (reason : String)
deriving DecidableEq, Repr

/-- The result of a validation function. -/
abbrev Check := Except Failure

/-- `state.DoS(100, false, REJECT_INVALID, reason)`, by far the most frequent failure. -/
def dos100 (reason : String) : Failure := .reject 100 reason

variable (cfg : Config)

/-! ## Asset records -/

/-- assets.cpp:5328-5404 -/
def checkNewAsset (asset : CNewAsset) : Except String Unit := do
  require (isAssetNameValid asset.strName) "Invalid parameter: asset_name must only consist of valid characters and have a size between 3 and 30 characters. See help for more details."
  let assetType := assetTypeOf cfg.uninit asset.strName
  let single := assetType == .UNIQUE || assetType == .MSGCHANNEL
  let qualifier := assetType == .QUALIFIER || assetType == .SUB_QUALIFIER
  require (!single || asset.units == 0) "Invalid parameter: units must be 0"
  require (!single || asset.nAmount == uniqueAssetAmount)
    ("Invalid parameter: amount must be " ++ toString uniqueAssetAmount)
  require (!single || asset.nReissuable == 0) "Invalid parameter: reissuable must be 0"
  require (!qualifier || asset.units == 0) "Invalid parameter: units must be 0"
  require (!qualifier ||
      (qualifierAssetMinAmount ≤ asset.nAmount && asset.nAmount ≤ qualifierAssetMaxAmount))
    ("Invalid parameter: amount must be between " ++ toString qualifierAssetMinAmount ++ " - " ++
      toString qualifierAssetMaxAmount)
  require (!qualifier || asset.nReissuable == 0) "Invalid parameter: reissuable must be 0"
  require (!isAssetNameAnOwner asset.strName) "Invalid parameters: asset_name can't have a '!' at the end of it. See help for more details."
  require (0 < asset.nAmount)
    "Invalid parameter: asset amount can't be equal to or less than zero."
  require (asset.nAmount ≤ maxMoney)
    ("Invalid parameter: asset amount greater than max money: " ++ toString (maxMoney / COIN))
  require (0 ≤ asset.units && asset.units ≤ 8) "Invalid parameter: units must be between 0-8."
  require (checkAmountWithUnits asset.nAmount asset.units)
    "Invalid parameter: amount must be divisible by the smaller unit assigned to the asset"
  require (asset.nReissuable == 0 || asset.nReissuable == 1)
    "Invalid parameter: reissuable must be 0 or 1"
  require (asset.nHasIPFS == 0 || asset.nHasIPFS == 1)
    "Invalid parameter: has_ipfs must be 0 or 1."

/-- Two reissues on testnet predate the check of the flag. assets.cpp:5468-5474 -/
def skipsReissuableCheck (asset : CReissueAsset) : Bool :=
  cfg.params.isTestnet &&
    ((asset.strName == str "GAMINGWEB" && asset.nReissuable == 109) ||
      (asset.strName == str "UINT8" && asset.nReissuable == -47))

/-- assets.cpp:5451-5490 -/
def checkReissueAsset (asset : CReissueAsset) : Except String Unit := do
  require (0 ≤ asset.nAmount && asset.nAmount < maxMoney)
    "Unable to reissue asset: amount must be 0 or larger"
  require (asset.nUnits ≤ 8 && -1 ≤ asset.nUnits)
    "Unable to reissue asset: unit must be between 8 and -1"
  require (skipsReissuableCheck cfg asset || asset.nReissuable == 0 || asset.nReissuable == 1)
    "Unable to reissue asset: reissuable must be 0 or 1"

/-- assets.cpp:4981-4990 -/
def verifyNullAssetDataFlag (flag : Int) : Except String Unit :=
  require (flag == 0 || flag == 1) "bad-txns-null-data-flag-must-be-0-or-1"

/-- assets.cpp:5073-5098 -/
def checkVerifierAssetTxOut (txout : CTxOut) : Except String Unit := do
  let verifier ← demand (assetNullVerifierDataFromScript txout.scriptPubKey)
    "bad-txns-null-verifier-data-serialization"
  require (!verifier.verifier_string.contains 32)
    "bad-txns-null-verifier-data-contained-whitespaces"
  require (!verifier.verifier_string.contains 35)
    "bad-txns-null-verifier-data-contained-qualifier-character-#"
  let _ ← checkVerifierString verifier.verifier_string

/-! ## Outputs -/

/-- The size of a length prefix. serialize.h:221-227 -/
def getSizeOfCompactSize (nSize : Nat) : Nat :=
  if nSize < 253 then 1 else if nSize ≤ 0xffff then 3 else if nSize ≤ 0xffffffff then 5 else 9

variable (tx : CTransaction)

/-- Serialized size without witness. primitives/transaction.h:200-268 -/
def getSerializeSize : Nat :=
  let bytes (s : Bytes) : Nat := getSizeOfCompactSize s.length + s.length
  4 + getSizeOfCompactSize tx.vin.length + (tx.vin.map fun i => 36 + bytes i.scriptSig + 4).sum +
    getSizeOfCompactSize tx.vout.length + (tx.vout.map fun o => 8 + bytes o.scriptPubKey).sum + 4

/-- consensus/consensus.h:30, consensus/consensus.cpp:8-17 -/
def witnessScaleFactor : Nat := 4
def getMaxBlockWeight : Nat := 8000000

/-- What the loop over the outputs carries. L181-188 -/
structure OutputScan where
  nValueOut : Int
  setAssetTransferNames : List Bytes
  /-- The (name, address) pairs seen; a second occurrence is refused, so the count is one. -/
  nullDataPairs : Std.TreeSet (Bytes × Bytes)
  setNullGlobalAssetChanges : Std.TreeSet Bytes
  fContainsNullAssetVerifierTx : Bool
  nCountAddTagOuts : Nat

/-- L181-188 -/
def OutputScan.start : OutputScan := ⟨0, [], ∅, ∅, false, 0⟩

section

variable (st : OutputScan) (txout : CTxOut)

/-- L191-197 -/
def checkOutputValue : Check OutputScan := do
  require (0 ≤ txout.nValue) (dos100 "bad-txns-vout-negative")
  require (txout.nValue ≤ maxMoney) (dos100 "bad-txns-vout-toolarge")
  let nValueOut := st.nValueOut + txout.nValue
  require (moneyRange nValueOut) (dos100 "bad-txns-txouttotal-toolarge")
  pure { st with nValueOut := nValueOut }

/-- L201-253 -/
def checkOutputNullAsset : Check OutputScan := do
  let s := txout.scriptPubKey
  if isNullAssetTxDataScript s then
    let (data, address) ← demand (assetNullDataFromScript cfg s)
      (dos100 "bad-txns-null-asset-data-serialization")
    orElseError dos100 (verifyNullAssetDataFlag data.flag)
    require (!st.nullDataPairs.contains (data.asset_name, address))
      (dos100 "bad-txns-null-data-only-one-change-per-asset-address")
    let addsTag := isAssetNameAQualifier data.asset_name false && data.flag == 1
    pure { st with
      nullDataPairs := st.nullDataPairs.insert (data.asset_name, address)
      nCountAddTagOuts := st.nCountAddTagOuts + if addsTag then 1 else 0 }
  else if isNullGlobalRestrictionAssetTxDataScript s then
    let data ← demand (globalAssetNullDataFromScript s)
      (dos100 "bad-txns-null-global-asset-data-serialization")
    orElseError dos100 (verifyNullAssetDataFlag data.flag)
    require (!st.setNullGlobalAssetChanges.contains data.asset_name)
      (dos100 "bad-txns-null-data-only-one-global-change-per-asset-name")
    pure { st with
      setNullGlobalAssetChanges := st.setNullGlobalAssetChanges.insert data.asset_name }
  else if isNullAssetVerifierTxDataScript s then
    orElseError dos100 (checkVerifierAssetTxOut txout)
    require (!st.fContainsNullAssetVerifierTx)
      (dos100 "bad-txns-null-data-only-one-verifier-per-tx")
    pure { st with fContainsNullAssetVerifierTx := true }
  else pure st

/-- L266-306 -/
def checkTransferOutput : Check OutputScan := do
  let (transfer, _) ← demand (transferAssetFromScript cfg txout.scriptPubKey)
    (dos100 "bad-txns-transfer-asset-bad-deserialize")
  require (isAssetNameValid transfer.strName) (dos100 "bad-txns-transfer-asset-name-invalid")
  let assetType := assetTypeOf cfg.uninit transfer.strName
  require (!isAssetNameAnOwner transfer.strName || transfer.nAmount == ownerAssetAmount)
    (dos100 "bad-txns-transfer-owner-amount-was-not-1")
  require (assetType != .UNIQUE || transfer.nAmount == uniqueAssetAmount)
    (dos100 "bad-txns-transfer-unique-amount-was-not-1")
  require (!(assetType == .QUALIFIER || assetType == .SUB_QUALIFIER) ||
      (qualifierAssetMinAmount ≤ transfer.nAmount && transfer.nAmount ≤ qualifierAssetMaxAmount))
    (dos100 "bad-txns-transfer-qualifier-amount-must be between 1 - 100")
  require (txout.nValue == 0) (dos100 "bad-txns-asset-transfer-amount-isn't-zero")
  pure { st with setAssetTransferNames := transfer.strName :: st.setAssetTransferNames }

end

/-- L257-333 -/
def checkOutputAsset (fMempoolCheck fBlockCheck : Bool) (st : OutputScan) (txout : CTxOut) :
    Check OutputScan :=
  match isAssetScript txout.scriptPubKey with
  | none => pure st
  | some a =>
    match a.nType with
    | .TX_TRANSFER_ASSET => checkTransferOutput cfg st txout
    | .TX_NEW_ASSET => do
      require (txout.nValue == 0) (dos100 "bad-txns-asset-issued-amount-isn't-zero")
      pure st
    | .TX_REISSUE_ASSET => do
      require (!(cfg.dep.enforcedValues && fBlockCheck) || txout.nValue == 0)
        (.reject 0 "bad-txns-asset-reissued-amount-isn't-zero")
      require (!fMempoolCheck || txout.nValue == 0)
        (.reject 0 "bad-mempool-txns-asset-reissued-amount-isn't-zero")
      pure st
    | _ => .error (.reject 0 "bad-asset-type-not-any-of-the-main-three")

/-- One iteration of the loop over the outputs. L189-334 -/
def checkOutput (fMempoolCheck fBlockCheck : Bool) (st : OutputScan) (txout : CTxOut) :
    Check OutputScan := do
  let st ← checkOutputValue st txout
  let st ← checkOutputNullAsset cfg st txout
  checkOutputAsset cfg fMempoolCheck fBlockCheck st txout

/-- Every tag or freeze command comes with a transfer of the token that authorises it. A name's
first byte is read without a length check; an empty name falls to the qualifier branch.
L342-354 -/
def checkNullDataAuthority (st : OutputScan) (name : Bytes) : Check Unit :=
  if byteAt name 0 = restrictedChar then
    require (st.setAssetTransferNames.contains (name.drop 1 ++ ownerTag))
      (dos100 "bad-txns-tx-contains-restricted-asset-null-tx-without-asset-transfer")
  else
    require (st.setAssetTransferNames.contains name)
      (dos100 "bad-txns-tx-contains-qualifier-asset-null-tx-without-asset-transfer")

/-- L356-364 -/
def checkGlobalAuthority (st : OutputScan) (name : Bytes) : Check Unit := do
  require (name.length != 0)
    (dos100 "bad-txns-tx-contains-global-asset-null-tx-with-null-asset-name")
  require (st.setAssetTransferNames.contains (name.drop 1 ++ ownerTag))
    (dos100 "bad-txns-tx-contains-global-asset-null-tx-without-asset-transfer")

/-- L336-364 -/
def checkNullDataOutputs (st : OutputScan) : Check Unit := do
  require (st.nCountAddTagOuts == 0 || tx.checkAddingTagBurnFee cfg st.nCountAddTagOuts)
    (dos100 "bad-txns-tx-doesn't-contain-required-burn-fee-for-adding-tags")
  st.nullDataPairs.toList.forM fun p => checkNullDataAuthority st p.1
  st.setNullGlobalAssetChanges.toList.forM (checkGlobalAuthority st)

/-! ## Inputs -/

/-- L368-396 -/
def checkInputs (fCheckDuplicateInputs : Bool) (tx : CTransaction) : Check Unit := do
  require (!fCheckDuplicateInputs || decide (tx.vin.map CTxIn.prevout).Nodup)
    (dos100 "bad-txns-inputs-duplicate")
  if tx.isCoinBase then
    let size := (tx.vin.headD ⟨⟨0, 0⟩, []⟩).scriptSig.length
    require (2 ≤ size && size ≤ 100) (dos100 "bad-cb-length")
    require (!cfg.dep.coinbaseCheckAssets || tx.vout.all fun out =>
        (isAssetScript out.scriptPubKey).isNone && !isNullAsset out.scriptPubKey)
      (.reject 0 "bad-txns-coinbase-contains-asset-txes")
  else
    require (tx.vin.all fun txin => !txin.prevout.isNull) (.reject 10 "bad-txns-prevout-null")

/-! ## Kinds of transactions -/

/-- Which restricted-asset operation the transaction contains. -/
structure RestrictedFlags where
  fContainsNewRestrictedAsset : Bool
  fContainsRestrictedAssetReissue : Bool
deriving DecidableEq, Repr

/-- L399-415 -/
def checkIssue : Check Unit := do
  orElseError dos100 (tx.verifyNewAsset cfg)
  let (asset, strAddress) ← demand (tx.assetFromTransaction cfg)
    (dos100 "bad-txns-issue-asset-from-transaction")
  orElseError dos100 (tx.isNewOwnerTxValid cfg asset.strName strAddress)
  orElseError dos100 (checkNewAsset cfg asset)

/-- Returns whether a restricted asset is reissued. L417-451 -/
def checkReissue : Check Bool := do
  orElseError dos100 (tx.verifyReissueAsset cfg)
  let (reissue, _) ← demand (tx.reissueAssetFromTransaction cfg) (dos100 "bad-txns-reissue-asset")
  orElseError dos100 (checkReissueAsset cfg reissue)
  if assetTypeOf cfg.uninit reissue.strName = .RESTRICTED then
    match tx.getVerifierStringFromTx with
    | .error (e, false) => .error (dos100 ("bad-txns-reissue-restricted-verifier-" ++ e))
    | _ => pure true
  else pure false

/-- L453-474 -/
def checkIssueUnique : Check Unit := do
  orElseError dos100 (tx.verifyNewUniqueAsset cfg)
  tx.vout.forM fun out =>
    if isScriptNewUniqueAsset cfg out.scriptPubKey then do
      let (asset, _) ← demand (assetFromScript cfg out.scriptPubKey)
        (dos100 "bad-txns-check-transaction-issue-unique-asset-serialization")
      orElseError (fun e => dos100 ("bad-txns-issue-unique" ++ e)) (checkNewAsset cfg asset)
    else pure ()

/-- L475-488 -/
def checkIssueMsgChannel : Check Unit := do
  orElseError dos100 (tx.verifyNewMsgChannelAsset cfg)
  let (asset, _) ← demand (tx.msgChannelAssetFromTransaction cfg)
    (dos100 "bad-txns-issue-msgchannel-from-transaction")
  orElseError (fun e => dos100 ("bad-txns-issue-msgchannel" ++ e)) (checkNewAsset cfg asset)

/-- L489-502 -/
def checkIssueQualifier : Check Unit := do
  orElseError dos100 (tx.verifyNewQualfierAsset cfg)
  let (asset, _) ← demand (tx.qualifierAssetFromTransaction cfg)
    (dos100 "bad-txns-issue-qualifier-from-transaction")
  orElseError (fun e => dos100 ("bad-txns-issue-qualfier" ++ e)) (checkNewAsset cfg asset)

/-- L503-525 -/
def checkIssueRestricted : Check Unit := do
  orElseError dos100 (tx.verifyNewRestrictedAsset cfg)
  let (asset, _) ← demand (tx.restrictedAssetFromTransaction cfg)
    (dos100 "bad-txns-issue-restricted-from-transaction")
  orElseError (fun e => dos100 ("bad-txns-issue-restricted" ++ e)) (checkNewAsset cfg asset)
  let _ ← orElseError (fun e => dos100 ("bad-txns-issue-restricted-verifier-search-" ++ e.1))
    tx.getVerifierStringFromTx

/-- A transaction of no recognised kind carries transfers only.
L526-545 -/
def checkTransfersOnly : Check Unit :=
  tx.vout.forM fun out =>
    match isAssetScript out.scriptPubKey with
    | some a => require (a.nType == .TX_TRANSFER_ASSET) (dos100 "bad-txns-bad-asset-transaction")
    | none =>
      require (scriptFind out.scriptPubKey opHempAsset == 0 ||
          byteAt out.scriptPubKey 0 == opHempAsset)
        (dos100 "bad-txns-op-hemp-asset-not-in-right-script-location")

/-- The first recogniser that accepts decides which checks run.
L399-545 -/
def checkKind : Check RestrictedFlags :=
  if tx.isNewAsset cfg then do
    checkIssue cfg tx
    pure ⟨false, false⟩
  else if tx.isReissueAsset then do
    let restricted ← checkReissue cfg tx
    pure ⟨false, restricted⟩
  else if tx.isNewUniqueAsset cfg then do
    checkIssueUnique cfg tx
    pure ⟨false, false⟩
  else if tx.isNewMsgChannelAsset cfg then do
    checkIssueMsgChannel cfg tx
    pure ⟨false, false⟩
  else if tx.isNewQualifierAsset cfg then do
    checkIssueQualifier cfg tx
    pure ⟨false, false⟩
  else if tx.isNewRestrictedAsset cfg then do
    checkIssueRestricted cfg tx
    pure ⟨true, false⟩
  else do
    checkTransfersOnly tx
    pure ⟨false, false⟩

/-- L169-560 -/
def checkTransaction (fCheckDuplicateInputs fMempoolCheck fBlockCheck : Bool) :
    Check Unit := do
  require (!tx.vin.isEmpty) (.reject 10 "bad-txns-vin-empty")
  require (!tx.vout.isEmpty) (.reject 10 "bad-txns-vout-empty")
  require (getSerializeSize tx * witnessScaleFactor ≤ getMaxBlockWeight)
    (dos100 "bad-txns-oversize")
  let scan ← tx.vout.foldlM (checkOutput cfg fMempoolCheck fBlockCheck) OutputScan.start
  checkNullDataOutputs cfg tx scan
  checkInputs cfg fCheckDuplicateInputs tx
  let flags ← checkKind cfg tx
  require (!scan.fContainsNullAssetVerifierTx || flags.fContainsRestrictedAssetReissue ||
      flags.fContainsNewRestrictedAsset)
    (dos100 "bad-txns-tx-cointains-verifier-string-without-restricted-asset-issuance-or-reissuance")
  require (!flags.fContainsNewRestrictedAsset || scan.fContainsNullAssetVerifierTx)
    (dos100 "bad-txns-tx-cointains-restricted-asset-issuance-without-verifier")

end HempCore
