import HempCore.Model.CacheFlush
import HempCore.Model.CheckTxAssets

/-!
# Coins

What a transaction does to the set of unspent outputs and to the asset cache
(`coins.cpp:76-402`). The two are written apart: neither reads what the other writes.

`CheckBlock` has run on every transaction that arrives here, so each parser succeeds where it is
asked; the branches for a parser that fails leave the cache alone.
Lines without a file are those of `coins.cpp`.
-/

set_option autoImplicit false

namespace HempCore

/-- The unspent outputs. -/
abbrev Coins := Std.TreeMap COutPoint Coin

namespace Coins

/-- The readers' side of the set. -/
def view (coins : Coins) : CoinsView := fun out => coins[out]?

/-- The source throws when a coin that it has in memory would be replaced by a transaction other
than a coinbase; here it is replaced, which accepts more. L76-95 -/
def addCoin (coins : Coins) (out : COutPoint) (coin : Coin) : Coins :=
  if isUnspendable coin.out.scriptPubKey then coins else coins.insert out coin

/-- The outputs of a transaction with their places. -/
def outputsOf (tx : CTransaction) : List (COutPoint × CTxOut) :=
  tx.vout.zipIdx.map fun p => (⟨tx.hash, p.2⟩, p.1)

/-- L291-296 -/
def addOutputs (coins : Coins) (tx : CTransaction) (nHeight : Nat) : Coins :=
  (outputsOf tx).foldl (fun coins p => coins.addCoin p.1 ⟨p.2, tx.isCoinBase, nHeight⟩) coins

end Coins

/-! ## Commands to addresses and assets -/

/-- A tag, a freeze or a global freeze, or the end of one. -/
inductive NullAssetCommand where
  | qualifier (assetName address : Bytes) (type : QualifierType)
  | restrictedAddress (assetName address : Bytes) (type : RestrictedType)
  | globalRestricted (assetName : Bytes) (type : RestrictedType)
deriving DecidableEq, Repr

variable (cfg : Config) (g : AssetGlobals)

/-- The command in an output. L339-363 -/
def nullAssetCommand (s : Bytes) : Option NullAssetCommand :=
  if isNullAssetTxDataScript s then
    match assetNullDataFromScript cfg s with
    | none => none
    | some (data, address) =>
      match assetTypeOf cfg.uninit data.asset_name with
      | .RESTRICTED => some (.restrictedAddress data.asset_name address
          (if data.flag ≠ 0 then .FREEZE_ADDRESS else .UNFREEZE_ADDRESS))
      | .QUALIFIER | .SUB_QUALIFIER => some (.qualifier data.asset_name address
          (if data.flag ≠ 0 then .ADD_QUALIFIER else .REMOVE_QUALIFIER))
      | _ => none
  else if isNullGlobalRestrictionAssetTxDataScript s then
    (globalAssetNullDataFromScript s).map fun data => .globalRestricted data.asset_name
      (if data.flag ≠ 0 then .GLOBAL_FREEZE else .GLOBAL_UNFREEZE)
  else none

namespace CAssetsCache

variable (cache : CAssetsCache)

def applyCommand : NullAssetCommand → CAssetsCache
  | .qualifier assetName address type => cache.addQualifierAddress assetName address type
  | .restrictedAddress assetName address type => cache.addRestrictedAddress assetName address type
  | .globalRestricted assetName type => cache.addGlobalRestricted assetName type

def undoCommand : NullAssetCommand → CAssetsCache
  | .qualifier assetName address type => cache.removeQualifierAddress assetName address type
  | .restrictedAddress assetName address type =>
    cache.removeRestrictedAddress assetName address type
  | .globalRestricted assetName type => cache.removeGlobalRestricted assetName type

/-! ## The asset part of `AddCoins` -/

/-- A failure is logged and nothing else. L124-127 -/
def tryAddNewAsset (asset : CNewAsset) (address : Bytes) (nHeight : Nat) (blockHash : Uint256) :
    CAssetsCache :=
  (cache.addNewAsset cfg g asset address nHeight blockHash).getD cache

/-- Adds what a parser read. -/
def addParsed (parsed : Option (CNewAsset × Bytes)) (nHeight : Nat) (blockHash : Uint256) :
    CAssetsCache :=
  match parsed with
  | some (asset, address) => cache.tryAddNewAsset cfg g asset address nHeight blockHash
  | none => cache

variable (tx : CTransaction)

/-- The first verifier string among the outputs. L175-187, 262-278 -/
def firstVerifier : Option Bytes :=
  match tx.vout.find? fun out => isNullAssetVerifierTxDataScript out.scriptPubKey with
  | some out => (assetNullVerifierDataFromScript out.scriptPubKey).map (·.verifier_string)
  | none => none

/-- A reissue, with what is stored to undo it. L135-209 -/
def addReissue : CAssetsCache × Option (Bytes × CBlockAssetUndo) :=
  match tx.reissueAssetFromTransaction cfg with
  | none => (cache, none)
  | some (reissue, strAddress) =>
    let asset := (cache.getAssetMetaDataIfExists g reissue.strName).getD .null
    let reissued :=
      (cache.addReissueAsset cfg g reissue strAddress ⟨tx.hash, tx.vout.length - 1⟩).getD cache
    let verifier :=
      if assetTypeOf cfg.uninit asset.strName = .RESTRICTED then firstVerifier tx else none
    let strOldVerifier := match verifier with
      | some _ => (reissued.getAssetVerifierStringIfExists g asset.strName false).getD []
      | none => []
    let undo : CBlockAssetUndo := ⟨reissue.strIPFSHash ≠ [], reissue.nUnits ≠ -1, asset.strIPFSHash,
      asset.units, verifier.isSome, strOldVerifier⟩
    (match verifier with
      | some v => reissued.addRestrictedVerifier asset.strName v
      | none => reissued,
    if undo.fChangedIPFS || undo.fChangedUnits || undo.fChangedVerifierString then
      some (reissue.strName, undo)
    else none)

/-- L113-288 -/
def addKind (nHeight : Nat) (blockHash : Uint256) :
    CAssetsCache × Option (Bytes × CBlockAssetUndo) :=
  if tx.isNewAsset cfg then
    let issued := cache.addParsed cfg g (tx.assetFromTransaction cfg) nHeight blockHash
    (match tx.ownerFromTransaction cfg with
      | some (ownerName, ownerAddress) => issued.addOwnerAsset cfg ownerName ownerAddress
      | none => issued, none)
  else if tx.isReissueAsset then cache.addReissue cfg g tx
  else if tx.isNewUniqueAsset cfg then
    (tx.vout.foldl (fun cache out =>
      if isScriptNewUniqueAsset cfg out.scriptPubKey then
        cache.addParsed cfg g (assetFromScript cfg out.scriptPubKey) nHeight blockHash
      else cache) cache, none)
  else if tx.isNewMsgChannelAsset cfg then
    (cache.addParsed cfg g (tx.msgChannelAssetFromTransaction cfg) nHeight blockHash, none)
  else if tx.isNewQualifierAsset cfg then
    (cache.addParsed cfg g (tx.qualifierAssetFromTransaction cfg) nHeight blockHash, none)
  else if tx.isNewRestrictedAsset cfg then
    let issued :=
      cache.addParsed cfg g (tx.restrictedAssetFromTransaction cfg) nHeight blockHash
    (match tx.restrictedAssetFromTransaction cfg, firstVerifier tx with
      | some (asset, _), some verifier => issued.addRestrictedVerifier asset.strName verifier
      | _, _ => issued, none)
  else (cache, none)

/-- A transfer of a positive amount is recorded. L274-290 -/
def addTransferOutput (out : COutPoint × CTxOut) : CAssetsCache :=
  match transferAssetFromScript cfg out.2.scriptPubKey with
  | some (transfer, address) =>
    if 0 < transfer.nAmount then cache.addTransferAsset cfg g transfer address out.1 else cache
  | none => cache

/-- A transfer, then a command. L274-363 -/
def addOutput (out : COutPoint × CTxOut) : CAssetsCache :=
  match nullAssetCommand cfg out.2.scriptPubKey with
  | some command => (cache.addTransferOutput cfg g out).applyCommand command
  | none => cache.addTransferOutput cfg g out

/-- L97-366 -/
def addCoins (nHeight : Nat) (blockHash : Uint256) :
    CAssetsCache × Option (Bytes × CBlockAssetUndo) :=
  if cfg.dep.assets then
    let (kind, undo) := cache.addKind cfg g tx nHeight blockHash
    ((Coins.outputsOf tx).foldl (fun cache out => cache.addOutput cfg g out) kind, undo)
  else (cache, none)

end CAssetsCache

/-! ## Updating both -/

/-- A transaction spends its inputs one by one; the spent coins are kept for the undo data. A coin
that is missing, or an asset that cannot be read from one, fails an assertion.
L368-402, validation.cpp:1552-1563 -/
def spendInput (st : Coins × CAssetsCache × List Coin) (txin : CTxIn) :
    Option (Coins × CAssetsCache × List Coin) :=
  let (coins, cache, spent) := st
  match coins[txin.prevout]? with
  | none => none
  | some coin =>
    let spending := if cfg.dep.assets then cache.trySpendCoin cfg g coin.out else some cache
    spending.map fun cache => (coins.erase txin.prevout, cache, spent ++ [coin])

/-- A coinbase spends nothing. validation.cpp:1555-1563 -/
def spendInputs (coins : Coins) (cache : CAssetsCache) (tx : CTransaction) :
    Option (Coins × CAssetsCache × List Coin) :=
  if tx.isCoinBase then some (coins, cache, [])
  else tx.vin.foldlM (spendInput cfg g) (coins, cache, [])

/-- What `UpdateCoins` leaves behind. -/
structure Updated where
  coins : Coins
  cache : CAssetsCache
  spent : List Coin
  undo : Option (Bytes × CBlockAssetUndo)

/-- validation.cpp:1552-1566 -/
def updateCoins (coins : Coins) (cache : CAssetsCache) (tx : CTransaction) (nHeight : Nat)
    (blockHash : Uint256) : Option Updated := do
  let (coins, cache, spent) ← spendInputs cfg g coins cache tx
  let (cache, undo) := cache.addCoins cfg g tx nHeight blockHash
  pure ⟨coins.addOutputs tx nHeight, cache, spent, undo⟩

end HempCore
