import HempCore.Lib.Check
import HempCore.Model.Payload
import HempCore.Model.Verifier

/-!
# Transaction classifiers

`CTransaction::IsNew*` recognise what a transaction issues from its last outputs and
`CTransaction::Verify*` check the shape the recognised kind must have (`assets.cpp:918-1555`).
A `Verify*` function returns the text the source leaves in `strError`.
Lines without a file are those of `assets.cpp`.
-/

set_option autoImplicit false

namespace HempCore

open Lib (require demand)

variable (cfg : Config)

/-! ## Outputs -/

/-- Reissue, vote, owner and invalid names have no burn. L3071-3110 -/
def checkIssueBurnTx (txOut : CTxOut) (type : AssetType) (numberIssued : Nat) : Bool :=
  if type = .REISSUE ∨ type = .VOTE ∨ type = .OWNER ∨ type = .INVALID then false
  else if txOut.nValue ≠ getBurnAmount cfg.params type * numberIssued then false
  else
    match extractDestination cfg txOut.scriptPubKey with
    | none | some .noDestination => false
    | some d => encodeDestination cfg d == getBurnAddress cfg.params type

/-- L3112-3132 -/
def checkReissueBurnTx (txOut : CTxOut) : Bool :=
  if txOut.nValue ≠ cfg.params.nReissueAssetBurnAmount then false
  else
    match extractDestination cfg txOut.scriptPubKey with
    | none | some .noDestination => false
    | some d => encodeDestination cfg d == cfg.params.strReissueAssetBurnAddress

/-- How many issue, reissue, transfer and owner outputs there are. L4454-4470 -/
structure TxOutAssetTypes where
  issues : Nat
  reissues : Nat
  transfers : Nat
  owners : Nat
deriving DecidableEq, Repr

/-- L4454-4470 -/
def getTxOutAssetTypes (vout : List CTxOut) : TxOutAssetTypes where
  issues := vout.countP fun out => isScriptNewAsset out.scriptPubKey
  reissues := vout.countP fun out => isScriptReissueAsset out.scriptPubKey
  transfers := vout.countP fun out => isScriptTransferAsset out.scriptPubKey
  owners := vout.countP fun out => isScriptOwnerAsset out.scriptPubKey

/-- The output transfers the named asset. -/
def isTransferOf (name : Bytes) (out : CTxOut) : Bool :=
  match transferAssetFromScript cfg out.scriptPubKey with
  | some (transfer, _) => transfer.strName == name
  | none => false

namespace CTransaction

variable (tx : CTransaction)

/-- The loop every `Verify*` function uses to look for the parent token. -/
def hasTransferOf (name : Bytes) : Bool := tx.vout.any (isTransferOf cfg name)

/-- `vout[vout.size() - 1]`. -/
def lastOut : Option CTxOut := tx.vout.getLast?

/-- `vout[vout.size() - 2]`. -/
def secondLastOut : Option CTxOut := tx.vout.dropLast.getLast?

/-- A predicate on the script of an output that exists. -/
def outSatisfies (p : Bytes → Bool) (out : Option CTxOut) : Bool :=
  match out with
  | some o => p o.scriptPubKey
  | none => false

/-! ## Recognisers -/

/-- Unique and restricted names are left to their own recognisers. L919-943 -/
def isNewAsset : Bool :=
  3 ≤ tx.vout.length && outSatisfies isScriptNewAsset tx.lastOut &&
    outSatisfies isScriptOwnerAsset tx.secondLastOut &&
    !(outSatisfies (isScriptNewUniqueAsset cfg) tx.lastOut ||
      outSatisfies (isScriptNewRestrictedAsset cfg) tx.lastOut)

/-- L946-956 -/
def isNewUniqueAsset : Bool :=
  outSatisfies isScriptNewAsset tx.lastOut && outSatisfies (isScriptNewUniqueAsset cfg) tx.lastOut
/-- L1143-1153 -/
def isNewMsgChannelAsset : Bool :=
  outSatisfies isScriptNewAsset tx.lastOut &&
    outSatisfies (isScriptNewMsgChannelAsset cfg) tx.lastOut
/-- L1230-1240 -/
def isNewQualifierAsset : Bool :=
  outSatisfies isScriptNewAsset tx.lastOut &&
    outSatisfies (isScriptNewQualifierAsset cfg) tx.lastOut
/-- L1319-1329 -/
def isNewRestrictedAsset : Bool :=
  outSatisfies isScriptNewAsset tx.lastOut &&
    outSatisfies (isScriptNewRestrictedAsset cfg) tx.lastOut
/-- L1450-1457 -/
def isReissueAsset : Bool := outSatisfies isScriptReissueAsset tx.lastOut

/-! ## The assets of a recognised transaction -/

/-- A parser applied to the last output of a transaction a recogniser accepts. -/
def fromLastOut {α : Type} (recogniser : CTransaction → Bool) (parser : Bytes → Option α)
    (tx : CTransaction) : Option α :=
  if recogniser tx then tx.lastOut.bind fun out => parser out.scriptPubKey else none

/-- L549-559 -/
def assetFromTransaction : Option (CNewAsset × Bytes) :=
  fromLastOut (isNewAsset cfg) (assetFromScript cfg) tx
/-- L561-571 -/
def msgChannelAssetFromTransaction : Option (CNewAsset × Bytes) :=
  fromLastOut (isNewMsgChannelAsset cfg) (msgChannelAssetFromScript cfg) tx
/-- L573-583 -/
def qualifierAssetFromTransaction : Option (CNewAsset × Bytes) :=
  fromLastOut (isNewQualifierAsset cfg) (qualifierAssetFromScript cfg) tx
/-- L584-594 -/
def restrictedAssetFromTransaction : Option (CNewAsset × Bytes) :=
  fromLastOut (isNewRestrictedAsset cfg) (restrictedAssetFromScript cfg) tx
/-- L596-606 -/
def reissueAssetFromTransaction : Option (CReissueAsset × Bytes) :=
  fromLastOut isReissueAsset (reissueAssetFromScript cfg) tx

/-- L651-661 -/
def ownerFromTransaction : Option (Bytes × Bytes) :=
  if isNewAsset cfg tx then
    tx.secondLastOut.bind fun out => ownerAssetFromScript cfg out.scriptPubKey
  else none

/-- L621-649 -/
def isNewOwnerTxValid (assetName address : Bytes) : Except String Unit :=
  match ownerFromTransaction cfg tx with
  | none => .error "bad-txns-bad-owner"
  | some (ownerName, ownerAddress) =>
    if ownerAddress ≠ address then .error "bad-txns-owner-address-mismatch"
    else if ownerName.length < ownerLength + minAssetLength then
      .error "bad-txns-owner-asset-length"
    else if ownerName ≠ assetName ++ ownerTag then .error "bad-txns-owner-name-mismatch"
    else .ok ()

/-- primitives/transaction.cpp:61-64 -/
def outToString (out : CTxOut) : String :=
  let cents := toString (out.nValue % COIN)
  "CTxOut(nValue=" ++ toString (out.nValue / COIN) ++ "." ++
    String.ofList (List.replicate (8 - cents.length) '0') ++ cents ++ ", scriptPubKey=" ++
    showBytes ((encodeHex out.scriptPubKey).take 30) ++ ")"

/-- The verifier string, or the error text with `fNotFound`. An output past the first is refused
before it is parsed. L1413-1442 -/
def getVerifierStringFromTx :
    Except (String × Bool) CNullAssetTxVerifierString :=
  match tx.vout.filter fun out => isNullAssetVerifierTxDataScript out.scriptPubKey with
  | [] => .error ("Verifier string not found", true)
  | out :: rest =>
    match assetNullVerifierDataFromScript out.scriptPubKey with
    | none => .error ("Failed to get verifier string from output: " ++ outToString out, false)
    | some verifier =>
      if rest.isEmpty then .ok verifier
      else .error ("Multiple verifier strings found in transaction", false)

/-! ## Shape checks -/

/-- Some output pays the burn for the given type. -/
def hasIssueBurn (type : AssetType) (numberIssued : Nat) : Bool :=
  tx.vout.any fun out => checkIssueBurnTx cfg out type numberIssued

/-- Among the issued names only unique ones with one parent, each once; the loop carries the
names seen and their parent. L972-996 -/
def uniqueAssetsStep (st : List Bytes × Bytes) (out : CTxOut) :
    Except String (List Bytes × Bytes) :=
  if isScriptNewUniqueAsset cfg out.scriptPubKey then do
    let (asset, _) ← demand (assetFromScript cfg out.scriptPubKey)
      "bad-txns-issue-unique-asset-from-script"
    let root := getParentName asset.strName
    let assetRoot := if st.2 = [] then root else st.2
    require (assetRoot == root) "bad-txns-issue-unique-asset-compare-failed"
    require (!st.1.contains asset.strName) "bad-txns-issue-unique-duplicate-name-in-same-tx"
    pure (asset.strName :: st.1, assetRoot)
  else pure st

/-- L959-1049 -/
def verifyNewUniqueAsset : Except String Unit := do
  require (3 ≤ tx.vout.length) "bad-txns-unique-vout-size-to-small"
  let (names, assetRoot) ← tx.vout.foldlM (uniqueAssetsStep cfg) ([], [])
  require (names.length != 0) "bad-txns-issue-unique-asset-bad-outpoint-count"
  require (tx.hasIssueBurn cfg .UNIQUE names.length)
    "bad-txns-issue-unique-asset-burn-outpoints-not-found"
  require (tx.hasTransferOf cfg (assetRoot ++ ownerTag))
    "bad-txns-issue-unique-asset-missing-owner-asset"
  let n := getTxOutAssetTypes tx.vout
  require (n.owners == 0 && n.reissues == 0 && n.issues == names.length)
    "bad-txns-failed-unique-asset-formatting-check"

/-- The parent token is looked for when the name is a sub-asset and in no other case.
L1052-1140 -/
def verifyNewAsset : Except String Unit := do
  require (3 ≤ tx.vout.length) "bad-txns-issue-vout-size-to-small"
  require (outSatisfies isScriptNewAsset tx.lastOut) "bad-txns-issue-data-not-found"
  require (outSatisfies isScriptOwnerAsset tx.secondLastOut) "bad-txns-issue-owner-data-not-found"
  let (asset, _) ← demand (tx.lastOut.bind fun out => assetFromScript cfg out.scriptPubKey)
    "bad-txns-issue-serialzation-failed"
  let assetType := assetTypeOf cfg.uninit asset.strName
  let (strOwnerName, _) ←
    demand (tx.secondLastOut.bind fun out => ownerAssetFromScript cfg out.scriptPubKey)
      "bad-txns-issue-owner-serialzation-failed"
  require (strOwnerName == asset.strName ++ ownerTag) "bad-txns-issue-owner-name-doesn't-match"
  require (tx.hasIssueBurn cfg assetType 1) "bad-txns-issue-burn-not-found"
  require (assetType != .SUB || tx.hasTransferOf cfg (getParentName asset.strName ++ ownerTag))
    "bad-txns-issue-new-asset-missing-owner-asset"
  let n := getTxOutAssetTypes tx.vout
  require (n.owners == 1 && n.issues == 1 && n.reissues == 0)
    "bad-txns-failed-issue-asset-formatting-check"

/-- L1156-1227 -/
def verifyNewMsgChannelAsset : Except String Unit := do
  require (3 ≤ tx.vout.length) "bad-txns-issue-msgchannel-vout-size-to-small"
  require (outSatisfies isScriptNewAsset tx.lastOut) "bad-txns-issue-data-not-found"
  let (asset, _) ←
    demand (tx.lastOut.bind fun out => msgChannelAssetFromScript cfg out.scriptPubKey)
      "bad-txns-issue-msgchannel-serialzation-failed"
  require (tx.hasIssueBurn cfg .MSGCHANNEL 1) "bad-txns-issue-msgchannel-burn-not-found"
  require (tx.hasTransferOf cfg (getParentName asset.strName ++ ownerTag))
    "bad-txns-issue-msg-channel-asset-bad-owner-asset"
  let n := getTxOutAssetTypes tx.vout
  require (n.owners == 0 && n.issues == 1 && n.reissues == 0)
    "bad-txns-failed-issue-msgchannel-asset-formatting-check"

/-- A sub-qualifier needs a transfer of its parent itself, not of an owner token.
L1243-1316 -/
def verifyNewQualfierAsset : Except String Unit := do
  require (2 ≤ tx.vout.length) "bad-txns-issue-qualifier-vout-size-to-small"
  require (outSatisfies isScriptNewAsset tx.lastOut) "bad-txns-issue-qualifider-data-not-found"
  let (asset, _) ←
    demand (tx.lastOut.bind fun out => qualifierAssetFromScript cfg out.scriptPubKey)
      "bad-txns-issue-qualifier-serialzation-failed"
  let assetType := assetTypeOf cfg.uninit asset.strName
  require (tx.hasIssueBurn cfg assetType 1) "bad-txns-issue-qualifier-burn-not-found"
  require (assetType != .SUB_QUALIFIER || tx.hasTransferOf cfg (getParentName asset.strName))
    "bad-txns-issue-sub-qualifier-parent-outpoint-not-found"
  let n := getTxOutAssetTypes tx.vout
  require (n.owners == 0 && n.issues == 1 && n.reissues == 0)
    "bad-txns-failed-issue-asset-formatting-check"

/-- L1332-1411 -/
def verifyNewRestrictedAsset : Except String Unit := do
  require (4 ≤ tx.vout.length) "bad-txns-issue-restricted-vout-size-to-small"
  require (outSatisfies isScriptNewAsset tx.lastOut) "bad-txns-issue-restricted-data-not-found"
  let (asset, _) ←
    demand (tx.lastOut.bind fun out => restrictedAssetFromScript cfg out.scriptPubKey)
      "bad-txns-issue-restricted-serialization-failed"
  let assetType := assetTypeOf cfg.uninit asset.strName
  require (tx.hasIssueBurn cfg assetType 1) "bad-txns-issue-restricted-burn-not-found"
  -- `$TOKEN` needs `TOKEN!`
  require (tx.hasTransferOf cfg ((getParentName asset.strName).drop 1 ++ ownerTag))
    "bad-txns-issue-restricted-root-owner-token-outpoint-not-found"
  let _ ← Lib.orElseError Prod.fst (getVerifierStringFromTx tx)
  let n := getTxOutAssetTypes tx.vout
  require (n.owners == 0 && n.issues == 1 && n.reissues == 0)
    "bad-txns-failed-issue-asset-formatting-check"

/-- The owner token of a reissued name; a restricted name uses the root's.
L1481-1490 -/
def reissueOwnerName (name : Bytes) : Bytes :=
  (if assetTypeOf .INVALID name = .RESTRICTED then name.drop 1 else name) ++ ownerTag

/-- L1460-1538 -/
def verifyReissueAsset : Except String Unit := do
  require (3 ≤ tx.vout.length) "bad-txns-vout-size-to-small"
  require (outSatisfies isScriptReissueAsset tx.lastOut) "bad-txns-reissue-data-not-found"
  let (reissue, _) ←
    demand (tx.lastOut.bind fun out => reissueAssetFromScript cfg out.scriptPubKey)
      "bad-txns-reissue-serialization-failed"
  require (tx.hasTransferOf cfg (reissueOwnerName reissue.strName))
    "bad-txns-reissue-owner-outpoint-not-found"
  require (tx.vout.any (checkReissueBurnTx cfg)) "bad-txns-reissue-burn-outpoint-not-found"
  let n := getTxOutAssetTypes tx.vout
  require (n.owners == 0 && n.reissues == 1 && n.issues == 0)
    "bad-txns-failed-reissue-asset-formatting-check"

/-- L1540-1552 -/
def checkAddingTagBurnFee (count : Nat) : Bool :=
  tx.hasIssueBurn cfg .NULL_ADD_QUALIFIER count

end CTransaction

end HempCore
