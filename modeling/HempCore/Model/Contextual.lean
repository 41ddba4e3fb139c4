import HempCore.Model.CheckTransaction

/-!
# Contextual asset checks

The checks of `assets.cpp:4992-5660` that consult the asset state. They see it through the answers
of `CAssetsCache`, collected in `AssetView`; the cache itself is modelled in `AssetsCache`, and
whatever is proved of a validator here holds over every asset state.
Lines without a file are those of `assets.cpp`.
-/

set_option autoImplicit false

namespace HempCore

open Lib (require demand onlyWhen orElseError)

/-- The answers of a `CAssetsCache` that validation asks for. The status questions are asked with
`fSkipTempCache = true` everywhere but in `ContextualCheckReissueAsset`. -/
structure AssetView where
  checkIfAssetExists : Bytes → Bool
  getAssetMetaDataIfExists : Bytes → Option CNewAsset
  /-- The verifier string of a name, with `fSkipTempCache`. -/
  getAssetVerifierStringIfExists : Bytes → Bool → Option Bytes
  checkForAddressQualifier : Bytes → Bytes → Bool
  checkForAddressRestriction : Bytes → Bytes → Bool
  checkForGlobalRestriction : Bytes → Bool

variable (cfg : Config)

/-! ## Commands -/

/-- A command must change the current status: the form `VerifyQualifierChange`,
`VerifyRestrictedAddressChange` and `VerifyGlobalRestrictedChange` share. -/
def verifyStatusChange (flag : Int) (current : Bool) (whenOn whenOff : String) :
    Except String Unit := do
  verifyNullAssetDataFlag flag
  if flag ≠ 0 then require (!current) whenOn else require current whenOff

variable (cache : AssetView)

/-- L4992-5014 -/
def verifyQualifierChange (data : CNullAssetTxData) (address : Bytes) :
    Except String Unit :=
  verifyStatusChange data.flag (cache.checkForAddressQualifier data.asset_name address)
    "bad-txns-null-data-add-qualifier-when-already-assigned"
    "bad-txns-null-data-removing-qualifier-when-not-assigned"

/-- L5016-5041 -/
def verifyRestrictedAddressChange (data : CNullAssetTxData) (address : Bytes) :
    Except String Unit :=
  verifyStatusChange data.flag (cache.checkForAddressRestriction data.asset_name address)
    "bad-txns-null-data-freeze-address-when-already-frozen"
    "bad-txns-null-data-unfreeze-address-when-not-frozen"

/-- L5043-5068 -/
def verifyGlobalRestrictedChange (data : CNullAssetTxData) :
    Except String Unit :=
  verifyStatusChange data.flag (cache.checkForGlobalRestriction data.asset_name)
    "bad-txns-null-data-global-freeze-when-already-frozen"
    "bad-txns-null-data-global-unfreeze-when-not-frozen"

/-- L5100-5139 -/
def contextualCheckNullAssetTxOut (txout : CTxOut) : Except String Unit := do
  let (data, address) ← demand (assetNullDataFromScript cfg txout.scriptPubKey)
    "bad-txns-null-asset-data-serialization"
  if isAssetNameAQualifier data.asset_name false then verifyQualifierChange cache data address
  else if isAssetNameAnRestricted data.asset_name then
    verifyRestrictedAddressChange cache data address
  else .error "bad-txns-null-asset-data-on-non-restricted-or-qualifier-asset"

/-- The name is not checked to be that of a restricted asset. L5141-5156 -/
def contextualCheckGlobalAssetTxOut (txout : CTxOut) : Except String Unit := do
  let data ← demand (globalAssetNullDataFromScript txout.scriptPubKey)
    "bad-txns-null-global-asset-data-serialization"
  verifyGlobalRestrictedChange cache data

/-- The string must parse, its qualifiers must exist and, unless the address is empty, the tags
of the address must satisfy it. L5177-5251 -/
def contextualCheckVerifierString (verifier check_address : Bytes) :
    Except String Unit :=
  if verifier = str "true" then .ok ()
  else do
    let found ← checkVerifierString verifier
    require (found.all fun q => cache.checkIfAssetExists (qualifierChar :: q))
      "bad-txns-null-verifier-contains-non-issued-qualifier"
    if check_address = [] then pure ()
    else
      let vals (q : Bytes) : Option Bool :=
        if found.contains q then
          some (cache.checkForAddressQualifier (qualifierChar :: q) check_address)
        else none
      match LibBoolEE.resolve verifier vals with
      | .ok ret => require ret "bad-txns-null-verifier-address-failed-verification"
      | .error _ => .error "bad-txns-null-verifier-failed-contexual-syntax-check"

/-- A shadowed `strError` keeps the text of a failed verifier check from the caller.
L5158-5175 -/
def contextualCheckVerifierAssetTxOut (txout : CTxOut) :
    Except String Unit := do
  let verifier ← demand (assetNullVerifierDataFromScript txout.scriptPubKey)
    "bad-txns-null-verifier-data-serialization"
  orElseError (fun _ => "") (contextualCheckVerifierString cache verifier.verifier_string [])

/-! ## Transfers -/

/-- L1605-1619 -/
def contextualCheckAgainstVerifyString (transfer : CAssetTransfer)
    (address : Bytes) : Except String Unit := do
  let verifier ← demand (cache.getAssetVerifierStringIfExists transfer.strName true)
    ("Verifier String doesn't exist for asset: " ++ showBytes transfer.strName)
  contextualCheckVerifierString cache verifier address

/-- What the messaging deployment adds to a transfer check. L5267-5289 -/
def contextualCheckTransferMessage (transfer : CAssetTransfer) : Except String Unit := do
  require (!transfer.message.isEmpty || transfer.nExpireTime ≤ 0) "Invalid parameter: asset transfer expiration time requires a message to be attached to the transfer"
  require (0 ≤ transfer.nExpireTime) "Invalid parameter: expiration time must be a positive value"
  onlyWhen (!transfer.message.isEmpty) (checkEncoded cfg transfer.message)

/-- The restricted branch of a transfer check. Without a cache the source skips the global freeze
and then follows the null pointer. L5294-5314 -/
def contextualCheckRestrictedTransfer (cache : Option AssetView) (transfer : CAssetTransfer)
    (address : Bytes) : Check Unit := do
  require cfg.dep.restrictedAssets (dos100 "bad-txns-transfer-restricted-before-it-is-active")
  match cache with
  | none => .error (.abort "null assetCache")
  | some cache =>
    require (!cache.checkForGlobalRestriction transfer.strName)
      (dos100 "bad-txns-transfer-restricted-asset-that-is-globally-restricted")
    -- A second `strError` shadows the caller's, which stays empty.
    orElseError (fun _ => dos100 "") (contextualCheckAgainstVerifyString cache transfer address)

/-- L5253-5326 -/
def contextualCheckTransferAsset (cache : Option AssetView) (transfer : CAssetTransfer)
    (address : Bytes) : Check Unit := do
  require (isAssetNameValid transfer.strName) (dos100 "Invalid parameter: asset_name must only consist of valid characters and have a size between 3 and 30 characters. See help for more details.")
  let assetType := assetTypeOf cfg.uninit transfer.strName
  require (0 < transfer.nAmount)
    (dos100 "Invalid parameter: asset amount can't be equal to or less than zero.")
  onlyWhen cfg.dep.messages (orElseError dos100 (contextualCheckTransferMessage cfg transfer))
  require (assetType != .MSGCHANNEL || cfg.dep.messages)
    (dos100 "bad-txns-transfer-msgchannel-before-messaging-is-active")
  onlyWhen (assetType == .RESTRICTED) (contextualCheckRestrictedTransfer cfg cache transfer address)
  require (!(assetType == .QUALIFIER || assetType == .SUB_QUALIFIER) || cfg.dep.restrictedAssets)
    (dos100 "bad-txns-transfer-qualifier-before-it-is-active")

/-! ## Issues and reissues -/

/-- `mapAssetToHash` is consulted only for the mempool: `inMempool` is `none` when
`fCheckMempool` is false. L5406-5449 -/
def contextualCheckNewAsset (asset : CNewAsset)
    (inMempool : Option (Bytes → Bool)) : Except String Unit := do
  require (cfg.dep.assets || cfg.fUnitTest) "bad-txns-new-asset-when-assets-is-not-active"
  checkNewAsset cfg asset
  require (!cache.checkIfAssetExists asset.strName)
    ("Invalid parameter: asset_name '" ++ showBytes asset.strName ++ "' has already been used")
  require (match inMempool with | some p => !p asset.strName | none => true)
    "Asset with this name is already in the mempool"
  let size := asset.strIPFSHash.length
  require (asset.nHasIPFS == 0 || size == 34 || (cfg.dep.messages && size == 32))
    "Invalid parameter: ipfs_hash must be 46 characters. Txid must be valid 64 character hash"
  onlyWhen (asset.nHasIPFS != 0) (checkEncoded cfg asset.strIPFSHash)

/-- L5635-5654 -/
def contextualCheckUniqueAssetTx (tx : CTransaction) : Except String Unit :=
  tx.vout.forM fun out =>
    if isScriptNewUniqueAsset cfg out.scriptPubKey then do
      let (asset, _) ← demand (assetFromScript cfg out.scriptPubKey)
        "bad-txns-issue-unique-serialization-failed"
      contextualCheckNewAsset cfg cache asset none
    else pure ()

/-- The verifier part of a restricted reissue: a new string found in the transaction, else the
current one, has to accept the address when units are added. L5545-5578 -/
def contextualCheckReissueVerifier (reissue : CReissueAsset)
    (strAddress : Bytes) (tx : CTransaction) : Except String Unit :=
  match tx.getVerifierStringFromTx with
  | .ok verifier =>
    if 0 < reissue.nAmount then
      contextualCheckVerifierString cache verifier.verifier_string strAddress
    else .ok ()
  | .error (e, false) => .error e
  | .error (_, true) =>
    if 0 < reissue.nAmount then do
      let verifier ← demand (cache.getAssetVerifierStringIfExists reissue.strName false) "failed to get verifier string from a restricted asset, database is out of sync. Reindex required. Please report this is to development team"
      contextualCheckVerifierString cache verifier strAddress
    else .ok ()

/-- L5492-5581 -/
def contextualCheckReissueAsset (reissue_asset : CReissueAsset)
    (tx : CTransaction) : Except String Unit := do
  let (_, strAddress) ← demand (tx.reissueAssetFromTransaction cfg)
    "bad-txns-reissue-asset-contextual-check"
  checkReissueAsset cfg reissue_asset
  let name := showBytes reissue_asset.strName
  let prev ← demand (cache.getAssetMetaDataIfExists reissue_asset.strName)
    ("Unable to reissue asset: asset_name '" ++ name ++ "' doesn't exist in the database")
  require (prev.nReissuable != 0) "Unable to reissue asset: reissuable is set to false"
  require (prev.nAmount + reissue_asset.nAmount ≤ maxMoney)
    ("Unable to reissue asset: asset_name '" ++ name ++
      "' the amount trying to reissue is to large")
  require (checkAmountWithUnits reissue_asset.nAmount prev.units) "Unable to reissue asset: amount must be divisible by the smaller unit assigned to the asset"
  require (prev.units ≤ reissue_asset.nUnits || reissue_asset.nUnits == -1)
    "Unable to reissue asset: unit must be larger than current unit selection"
  let size := reissue_asset.strIPFSHash.length
  -- Before the messaging deployment a hash of any size passes this line.
  require (size == 0 || size == 34 || !cfg.dep.messages || size == 32)
    "Invalid parameter: ipfs_hash must be 34 bytes, Txid must be 32 bytes"
  onlyWhen (size != 0) (checkEncoded cfg reissue_asset.strIPFSHash)
  onlyWhen (isAssetNameAnRestricted reissue_asset.strName)
    (contextualCheckReissueVerifier cache reissue_asset strAddress tx)

end HempCore
