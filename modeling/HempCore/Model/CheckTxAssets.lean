import HempCore.Model.Contextual

/-!
# Checks against the coins and the asset state

`Consensus::CheckTxInputs` and `Consensus::CheckTxAssets` of `consensus/tx_verify.cpp`. The coins
view is its answer function. The set of messages `CheckTxAssets` collects for the messaging layer
has no influence on its verdict and is left out.
Lines without a file are those of `consensus/tx_verify.cpp`.
-/

set_option autoImplicit false

namespace HempCore

open Std

open Lib (require demand onlyWhen orElseError)

/-- `CCoinsViewCache` as its readers see it: `none` for a missing or spent output. -/
abbrev CoinsView := COutPoint → Option Coin

/-- coins.cpp:522-532 -/
def haveInputs (inputs : CoinsView) (tx : CTransaction) : Bool :=
  tx.isCoinBase || tx.vin.all fun txin => (inputs txin.prevout).isSome

/-! ## Coin values -/

/-- The running sum of `GetValueOut`. primitives/transaction.cpp:95-109 -/
def getValueOutStep (fAreEnforcedValues : Bool) (nValueOut : Int) (txout : CTxOut) :
    Check Int :=
  if !fAreEnforcedValues && (isAssetScript txout.scriptPubKey).isSome then pure nValueOut
  else do
    require (moneyRange txout.nValue && moneyRange (nValueOut + txout.nValue))
      (.abort "GetValueOut: value out of range")
    pure (nValueOut + txout.nValue)

/-- primitives/transaction.cpp:92-111 -/
def CTransaction.getValueOut (tx : CTransaction) (fAreEnforcedValues : Bool) : Check Int :=
  tx.vout.foldlM (getValueOutStep fAreEnforcedValues) 0

/-- consensus/consensus.h:28 -/
def coinbaseMaturity : Nat := 100

/-- One input of `CheckTxInputs`. L570-587 -/
def checkTxInput (inputs : CoinsView) (nSpendHeight : Nat) (nValueIn : Int) (txin : CTxIn) :
    Check Int := do
  let coin ← demand (inputs txin.prevout) (.abort "assert(!coin.IsSpent())")
  require (!coin.fCoinBase || ((coinbaseMaturity : Int) ≤ (nSpendHeight : Int) - coin.nHeight))
    (.reject 0 "bad-txns-premature-spend-of-coinbase")
  require (moneyRange coin.out.nValue && moneyRange (nValueIn + coin.out.nValue))
    (dos100 "bad-txns-inputvalues-outofrange")
  pure (nValueIn + coin.out.nValue)

/-- Returns the fee. L562-604 -/
def checkTxInputs (cfg : Config) (tx : CTransaction) (inputs : CoinsView) (nSpendHeight : Nat) :
    Check Int := do
  require (haveInputs inputs tx) (dos100 "bad-txns-inputs-missingorspent")
  let nValueIn ← tx.vin.foldlM (checkTxInput inputs nSpendHeight) 0
  let value_out ← tx.getValueOut cfg.dep.enforcedValues
  require (value_out ≤ nValueIn) (dos100 "bad-txns-in-belowout")
  require (moneyRange (nValueIn - value_out)) (dos100 "bad-txns-fee-out-of-range")
  pure (nValueIn - value_out)

/-! ## Asset totals -/

/-- The totals of each asset, as `std::map<std::string, CAmount>`. -/
abbrev AssetTotals := TreeMap Bytes Int

/-- L610-617 -/
def safeAddAssetTotal (current amount : Int) : Option Int :=
  if current < 0 ∨ maxMoney < current then none
  else if amount < 0 ∨ maxMoney < amount then none
  else if maxMoney - current < amount then none
  else some (current + amount)

/-- Adds an amount to the total of a name; a name without an entry counts as zero.
L653-660,732-739 -/
def addAssetTotal (totals : AssetTotals) (name : Bytes) (amount : Int) : Option AssetTotals :=
  (safeAddAssetTotal (totals.getD name 0) amount).map (totals.insert name)

/-- The globals shared with the mempool that validation reads.
assets/assets.h:72-73, txmempool.h:471 -/
structure MempoolTracking where
  mapReissuedAssets : TreeMap Bytes Uint256
  mapReissuedTx : TreeMap Uint256 Bytes
  mapAssetToHash : TreeMap Bytes Uint256

/-- The globals of a node that tracks nothing. -/
def MempoolTracking.empty : MempoolTracking := ⟨∅, ∅, ∅⟩

variable (cfg : Config)

variable (cache : Option AssetView)

/-- No restricted asset leaves a frozen address. L666-670 -/
def checkNotFrozen (data : CAssetOutputEntry) : Check Unit :=
  if isAssetNameAnRestricted data.assetName then
    match cache with
    | none => .error (.abort "null assetCache")
    | some cache =>
      require (!cache.checkForAddressRestriction data.assetName data.address)
        (dos100 "bad-txns-restricted-asset-transfer-from-frozen-address")
  else pure ()

/-- One input of `CheckTxAssets`. L634-674 -/
def checkAssetInput (inputs : CoinsView) (cache : Option AssetView) (totalInputs : AssetTotals)
    (txin : CTxIn) : Check AssetTotals := do
  let coin ← demand (inputs txin.prevout) (.abort "assert(!coin.IsSpent())")
  if (isAssetScript coin.out.scriptPubKey).isNone then pure totalInputs
  else
    let data ← demand (getAssetData cfg coin.out.scriptPubKey)
      (dos100 "bad-txns-failed-to-get-asset-from-script")
    require (0 ≤ data.nAmount) (dos100 "bad-txns-input-asset-amount-negative")
    require (data.nAmount ≤ maxMoney) (dos100 "bad-txns-input-asset-amount-toolarge")
    let totals ← demand (addAssetTotal totalInputs data.assetName data.nAmount)
      (dos100 "bad-txns-input-asset-totalInputs-toolarge")
    checkNotFrozen cache data
    pure totals

/-- What the loop over the outputs carries. -/
structure OutputTotals where
  totalOutputs : AssetTotals
  vPairReissueAssets : List (Bytes × Uint256)

/-- L695-716 -/
def checkNullAssetOutput (cache : AssetView) (txout : CTxOut) : Check Unit :=
  let s := txout.scriptPubKey
  if isNullAsset s then do
    require cfg.dep.restrictedAssets
      (dos100 "bad-tx-null-asset-data-before-restricted-assets-activated")
    if isNullAssetTxDataScript s then
      orElseError dos100 (contextualCheckNullAssetTxOut cfg cache txout)
    else if isNullGlobalRestrictionAssetTxDataScript s then
      orElseError dos100 (contextualCheckGlobalAssetTxOut cache txout)
    else orElseError dos100 (contextualCheckVerifierAssetTxOut cache txout)
  else pure ()

/-- The amount of a transfer fits the units of its asset; owner tokens come one at a time.
L741-757 -/
def checkTransferUnits (transfer : CAssetTransfer) : Check Unit :=
  if isAssetNameAnOwner transfer.strName then
    require (transfer.nAmount == ownerAssetAmount)
      (dos100 "bad-txns-transfer-owner-amount-was-not-1")
  else
    match cache with
    | none => .error (.abort "null assetCache")
    | some cache => do
      let asset ← demand (cache.getAssetMetaDataIfExists transfer.strName)
        (dos100 "bad-txns-transfer-asset-not-exist")
      require (asset.strName == transfer.strName) (dos100 "bad-txns-asset-database-corrupted")
      require (checkAmountWithUnits transfer.nAmount asset.units)
        (dos100 "bad-txns-transfer-asset-amount-not-match-units")

/-- L718-757 -/
def checkAssetTransferOutput (fRunningUnitTests : Bool)
    (totalOutputs : AssetTotals) (txout : CTxOut) : Check AssetTotals := do
  let (transfer, address) ← demand (transferAssetFromScript cfg txout.scriptPubKey)
    (dos100 "bad-tx-asset-transfer-bad-deserialize")
  require (0 ≤ transfer.nAmount) (dos100 "bad-txns-transfer-asset-amount-negative")
  require (transfer.nAmount ≤ maxMoney) (dos100 "bad-txns-transfer-asset-amount-toolarge")
  contextualCheckTransferAsset cfg cache transfer address
  let totals ← demand (addAssetTotal totalOutputs transfer.strName transfer.nAmount)
    (dos100 "bad-txns-transfer-asset-totalOutputs-toolarge")
  onlyWhen (!fRunningUnitTests) (checkTransferUnits cache transfer)
  pure totals

/-- Whatever `fCheckMempool` says, a name tracked for another transaction refuses the reissue.
L773-785 -/
def checkReissueTracking (pool : MempoolTracking) (tx : CTransaction) (name : Bytes)
    (vPairReissueAssets : List (Bytes × Uint256)) : Check (List (Bytes × Uint256)) :=
  match pool.mapReissuedAssets.get? name with
  | some hash => do
    require (hash == tx.hash) (dos100 "bad-tx-reissue-chaining-not-allowed")
    pure vPairReissueAssets
  | none => pure (vPairReissueAssets ++ [(name, tx.hash)])

/-- The part of an output's check that is skipped without a cache.
L692-716 -/
def checkOutputContext (txout : CTxOut) : Check Unit :=
  match cache with
  | none => pure ()
  | some cache => do
    require ((isAssetScript txout.scriptPubKey).isNone || cfg.dep.assets)
      (dos100 "bad-txns-is-asset-and-asset-not-active")
    checkNullAssetOutput cfg cache txout

/-- The part of an output's check that its asset type selects.
L718-785 -/
def checkOutputTransferOrReissue (pool : MempoolTracking)
    (fRunningUnitTests : Bool) (tx : CTransaction) (st : OutputTotals) (txout : CTxOut) :
    Check OutputTotals :=
  match (isAssetScript txout.scriptPubKey).map AssetScript.nType with
  | some .TX_TRANSFER_ASSET => do
    let totals ← checkAssetTransferOutput cfg cache fRunningUnitTests st.totalOutputs txout
    pure { st with totalOutputs := totals }
  | some .TX_REISSUE_ASSET => do
    let (reissue, _) ← demand (reissueAssetFromScript cfg txout.scriptPubKey)
      (dos100 "bad-tx-asset-reissue-bad-deserialize")
    let pairs ← checkReissueTracking pool tx reissue.strName st.vPairReissueAssets
    pure { st with vPairReissueAssets := pairs }
  | _ => pure st

/-- One output of `CheckTxAssets`. L682-787 -/
def checkAssetOutput (pool : MempoolTracking) (fRunningUnitTests : Bool)
    (tx : CTransaction) (st : OutputTotals) (txout : CTxOut) : Check OutputTotals := do
  checkOutputContext cfg cache txout
  checkOutputTransferOrReissue cfg cache pool fRunningUnitTests tx st txout

/-! ## Kinds of transactions -/

/-- A transaction of no recognised kind. L863-885 -/
def checkAssetTransfersOnly (tx : CTransaction) : Check Unit :=
  tx.vout.forM fun out =>
    match isAssetScript out.scriptPubKey with
    | some a => require (a.nType == .TX_TRANSFER_ASSET) (dos100 "bad-txns-bad-asset-transaction")
    | none =>
      if scriptFind out.scriptPubKey opHempAsset = 0 then pure ()
      else do
        require cfg.dep.restrictedAssets (dos100 "bad-txns-bad-asset-script")
        require (byteAt out.scriptPubKey 0 == opHempAsset)
          (dos100 "bad-txns-op-hemp-asset-not-in-right-script-location")

/-- L789-886 -/
def checkAssetKind (cache : AssetView) (inMempool : Option (Bytes → Bool)) (tx : CTransaction) :
    Check Unit :=
  if tx.isNewAsset cfg then do
    let (asset, _) ← demand (tx.lastOut.bind fun out => assetFromScript cfg out.scriptPubKey)
      (dos100 "bad-txns-issue-serialzation-failed")
    orElseError dos100 (contextualCheckNewAsset cfg cache asset inMempool)
  else if tx.isReissueAsset then do
    let (reissue, _) ← demand (tx.lastOut.bind fun out => reissueAssetFromScript cfg out.scriptPubKey)
      (dos100 "bad-txns-reissue-serialzation-failed")
    orElseError (fun e => dos100 ("bad-txns-reissue-contextual-" ++ e))
      (contextualCheckReissueAsset cfg cache reissue tx)
  else if tx.isNewUniqueAsset cfg then
    orElseError (fun e => dos100 ("bad-txns-issue-unique-contextual-" ++ e))
      (contextualCheckUniqueAssetTx cfg cache tx)
  else if tx.isNewMsgChannelAsset cfg then do
    require cfg.dep.messages (dos100 "bad-txns-issue-msgchannel-before-messaging-is-active")
    let (asset, _) ← demand (tx.msgChannelAssetFromTransaction cfg)
      (dos100 "bad-txns-issue-msgchannel-serialzation-failed")
    orElseError (fun e => dos100 ("bad-txns-issue-msgchannel-contextual-" ++ e))
      (contextualCheckNewAsset cfg cache asset inMempool)
  else if tx.isNewQualifierAsset cfg then do
    require cfg.dep.restrictedAssets (dos100 "bad-txns-issue-qualifier-before-it-is-active")
    let (asset, _) ← demand (tx.qualifierAssetFromTransaction cfg)
      (dos100 "bad-txns-issue-qualifier-serialzation-failed")
    orElseError (fun e => dos100 ("bad-txns-issue-qualfier-contextual" ++ e))
      (contextualCheckNewAsset cfg cache asset inMempool)
  else if tx.isNewRestrictedAsset cfg then do
    require cfg.dep.restrictedAssets (dos100 "bad-txns-issue-restricted-before-it-is-active")
    let (asset, strAddress) ← demand (tx.restrictedAssetFromTransaction cfg)
      (dos100 "bad-txns-issue-restricted-serialzation-failed")
    orElseError (fun e => dos100 ("bad-txns-issue-restricted-contextual" ++ e))
      (contextualCheckNewAsset cfg cache asset inMempool)
    let verifier ← orElseError
      (fun e => dos100 ("bad-txns-issue-restricted-verifier-search-" ++ e.1))
      tx.getVerifierStringFromTx
    orElseError dos100 (contextualCheckVerifierString cache verifier.verifier_string strAddress)
  else checkAssetTransfersOnly cfg tx

/-- The kind is checked when there is a cache. L789-887 -/
def checkKindContext (fCheckMempool : Bool) (pool : MempoolTracking)
    (tx : CTransaction) : Check Unit :=
  match cache with
  | none => pure ()
  | some cache =>
    checkAssetKind cfg cache (if fCheckMempool then some pool.mapAssetToHash.contains else none) tx

/-! ## Conservation -/

/-- L889-901 -/
def checkOutputTotal (totalInputs : AssetTotals) (outValue : Bytes × Int) : Check Unit := do
  let total ← demand (totalInputs.get? outValue.1) (dos100 ("bad-tx-inputs-outputs-mismatch Bad Transaction - Trying to create outpoint for asset that you don't have: " ++ showBytes outValue.1))
  require (total == outValue.2) (dos100 ("bad-tx-inputs-outputs-mismatch Bad Transaction - Assets would be burnt " ++ showBytes outValue.1))

/-- Every output total is matched by an input total, and there are no more of the latter.
L889-906 -/
def checkAssetTotals (totalInputs totalOutputs : AssetTotals) : Check Unit := do
  totalOutputs.toList.forM (checkOutputTotal totalInputs)
  require (totalOutputs.size == totalInputs.size)
    (dos100 "bad-tx-asset-inputs-size-does-not-match-outputs-size")

/-- Returns `vPairReissueAssets`. L620-906 -/
def checkTxAssets (tx : CTransaction) (inputs : CoinsView) (cache : Option AssetView)
    (fCheckMempool : Bool) (pool : MempoolTracking) (fRunningUnitTests : Bool) :
    Check (List (Bytes × Uint256)) := do
  require (haveInputs inputs tx) (dos100 "bad-txns-inputs-missing-or-spent")
  let totalInputs ← tx.vin.foldlM (checkAssetInput cfg inputs cache) ∅
  let st ← tx.vout.foldlM (checkAssetOutput cfg cache pool fRunningUnitTests tx) ⟨∅, []⟩
  checkKindContext cfg cache fCheckMempool pool tx
  checkAssetTotals totalInputs st.totalOutputs
  pure st.vPairReissueAssets

end HempCore
