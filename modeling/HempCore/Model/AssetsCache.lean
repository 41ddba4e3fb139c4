import HempCore.Lib.Markers
import HempCore.Model.Contextual

/-!
# The asset cache

`CAssetsCache` collects the changes of a block before they are merged into the global cache
`passets`; lookups go through the local cache, `passets`, the least-recently-used caches and the
databases, in the order the code has. A `std::set` of records that compare by one field is a map
from that field, so that inserting a record whose key is present keeps the old record.

A lookup that reaches a database also fills a least-recently-used cache. Lookups are functions
here, and the refill is a step of its own (`AssetGlobals.touch`).
Lines without a file are those of `assets.cpp`.
-/

set_option autoImplicit false

namespace HempCore

open Std

open Lib (Pending LRUCache Markers)

/-! ## Records -/

/-- assets/assettypes.h:159-185 -/
structure CDatabasedAssetData where
  asset : CNewAsset
  nHeight : Int
  blockHash : Uint256
deriving DecidableEq

/-- assets/assettypes.h:334-353 -/
structure CAssetCacheNewAsset where
  asset : CNewAsset
  address : Bytes
  blockHash : Uint256
  blockHeight : Int
deriving DecidableEq

/-- assets/assettypes.h:355-378 -/
structure CAssetCacheReissueAsset where
  reissue : CReissueAsset
  address : Bytes
  out : COutPoint
  blockHash : Uint256
  blockHeight : Int
deriving DecidableEq

/-- assets/assettypes.h:380-397 -/
structure CAssetCacheNewTransfer where
  transfer : CAssetTransfer
  address : Bytes
  out : COutPoint
deriving DecidableEq

/-- assets/assettypes.h:400-416 -/
structure CAssetCacheNewOwner where
  assetName : Bytes
  address : Bytes
deriving DecidableEq

/-- assets/assettypes.h:418-430 -/
structure CAssetCacheUndoAssetAmount where
  assetName : Bytes
  address : Bytes
  nAmount : Int
deriving DecidableEq

/-- assets/assettypes.h:432-444 -/
structure CAssetCacheSpendAsset where
  assetName : Bytes
  address : Bytes
  nAmount : Int
deriving DecidableEq

/-- assets/assettypes.h:37-41 -/
inductive QualifierType where
  | REMOVE_QUALIFIER | ADD_QUALIFIER
deriving DecidableEq, Repr

/-- assets/assettypes.h:43-49 -/
inductive RestrictedType where
  | UNFREEZE_ADDRESS | FREEZE_ADDRESS | GLOBAL_UNFREEZE | GLOBAL_FREEZE
deriving DecidableEq, Repr

def QualifierType.isOn (type : QualifierType) : Bool := type == .ADD_QUALIFIER

/-- An address command carries one of the first two types, a global command one of the last two. -/
def RestrictedType.isOn (type : RestrictedType) : Bool :=
  type == .FREEZE_ADDRESS || type == .GLOBAL_FREEZE

/-- assets/assettypes.h:518-535 -/
structure CAssetCacheRestrictedVerifiers where
  verifier : Bytes
  fUndoingRessiue : Bool
deriving DecidableEq

/-- What a block stores to undo a reissue. assets/assetdb.h:22-57 -/
structure CBlockAssetUndo where
  fChangedIPFS : Bool
  fChangedUnits : Bool
  strIPFS : Bytes
  nUnits : Int
  fChangedVerifierString : Bool
  verifierString : Bytes
deriving DecidableEq

/-! ## State -/

/-- An asset name with an address. -/
abbrev NameAddress := Bytes × Bytes

/-- assets/assets.h:75-300 -/
structure CAssetsCache where
  newAssets : Pending Bytes CAssetCacheNewAsset
  newReissue : Pending COutPoint CAssetCacheReissueAsset
  newOwnerAssets : Pending Bytes CAssetCacheNewOwner
  newTransferAssets : Pending COutPoint CAssetCacheNewTransfer
  qualifierAddress : Pending NameAddress QualifierType
  restrictedAddress : Pending NameAddress RestrictedType
  restrictedGlobal : Pending Bytes RestrictedType
  restrictedVerifier : Pending Bytes CAssetCacheRestrictedVerifiers
  mapRootQualifierAddressesAdd : TreeMap NameAddress (TreeSet Bytes)
  mapRootQualifierAddressesRemove : TreeMap NameAddress (TreeSet Bytes)
  mapReissuedAssetData : TreeMap Bytes CNewAsset
  mapAssetsAddressAmount : TreeMap NameAddress Int
  vSpentAssets : List CAssetCacheSpendAsset
  vUndoAssetAmount : List CAssetCacheUndoAssetAmount

/-- A cache after its constructor, and after `ClearDirtyCache`. assets/assets.h:174-178 -/
def CAssetsCache.empty : CAssetsCache where
  newAssets := .empty
  newReissue := .empty
  newOwnerAssets := .empty
  newTransferAssets := .empty
  qualifierAddress := .empty
  restrictedAddress := .empty
  restrictedGlobal := .empty
  restrictedVerifier := .empty
  mapRootQualifierAddressesAdd := ∅
  mapRootQualifierAddressesRemove := ∅
  mapReissuedAssetData := ∅
  mapAssetsAddressAmount := ∅
  vSpentAssets := []
  vUndoAssetAmount := []

/-- assets/assets.h:68 -/
def maxCacheAssetsSize : Nat := 2500

/-- The global cache, the least-recently-used caches and the tables of `passetsdb` and
`prestricteddb` that lookups read. A cache of digests stands with the table it is in front of. -/
structure AssetGlobals where
  passets : CAssetsCache
  passetsCache : LRUCache Bytes CDatabasedAssetData
  passetsVerifierCache : LRUCache Bytes Bytes
  assetData : TreeMap Bytes CDatabasedAssetData
  assetAddressQuantity : TreeMap NameAddress Int
  blockUndoAssetData : TreeMap Uint256 (List (Bytes × CBlockAssetUndo))
  verifiers : TreeMap Bytes Bytes
  qualifiers : Markers NameAddress Bytes
  restrictions : Markers NameAddress Bytes
  globalRestrictions : Markers Bytes Bytes

/-- The state of a node that has seen no block. -/
def AssetGlobals.empty : AssetGlobals where
  passets := .empty
  passetsCache := .empty maxCacheAssetsSize
  passetsVerifierCache := .empty maxCacheAssetsSize
  assetData := ∅
  assetAddressQuantity := ∅
  blockUndoAssetData := ∅
  verifiers := ∅
  qualifiers := .empty maxCacheAssetsSize
  restrictions := .empty maxCacheAssetsSize
  globalRestrictions := .empty maxCacheAssetsSize

variable (cfg : Config)

/-- The key of a command in a least-recently-used cache: the name and the address are hashed one
after the other. assets/assettypes.cpp:16-22 -/
def getHash (key : NameAddress) : Bytes := cfg.hash (key.1 ++ key.2)

namespace CAssetsCache

variable (g : AssetGlobals) (cache : CAssetsCache)

/-! ## Lookups -/

/-- L3337-3404 -/
def checkIfAssetExists (name : Bytes) (fForceDuplicateCheck : Bool) : Bool :=
  if cfg.fReindex then true
  else if cache.newAssets.toRemove.contains name then false
  else if g.passets.newAssets.toRemove.contains name then false
  else
    (cache.newAssets.toAdd.contains name || g.passets.newAssets.toAdd.contains name ||
      (g.passetsCache.get? name).isSome || g.assetData.contains name) && fForceDuplicateCheck

/-- The asset, with the height and the block of its issue where they are written.
L3413-3486 -/
def getAssetMetaData (name : Bytes) : Option (CNewAsset × Option (Int × Uint256)) :=
  match cache.mapReissuedAssetData[name]? with
  | some asset => some (asset, none)
  | none =>
    match g.passets.mapReissuedAssetData[name]? with
    | some asset => some (asset, none)
    | none =>
      if cache.newAssets.toRemove.contains name then none
      else if g.passets.newAssets.toRemove.contains name then none
      else
        match cache.newAssets.toAdd[name]? with
        | some item => some (item.asset, some (item.blockHeight, item.blockHash))
        | none =>
          match g.passets.newAssets.toAdd[name]? with
          | some item => some (item.asset, some (item.blockHeight, item.blockHash))
          | none =>
            match (g.passetsCache.get? name).or g.assetData[name]? with
            | some data => some (data.asset, some (data.nHeight, data.blockHash))
            | none => none

/-- L3406-3411 -/
def getAssetMetaDataIfExists (name : Bytes) : Option CNewAsset :=
  (cache.getAssetMetaData g name).map Prod.fst

/-- A pending removal answers only when it restores an older verifier string. -/
def undoneVerifier (item : CAssetCacheRestrictedVerifiers) : Option Bytes :=
  if item.fUndoingRessiue then some item.verifier else none

/-- L4600-4667 -/
def getAssetVerifierStringIfExists (name : Bytes) (fSkipTempCache : Bool) : Option Bytes :=
  match if fSkipTempCache then none else cache.restrictedVerifier.toRemove[name]? with
  | some item => undoneVerifier item
  | none =>
    match g.passets.restrictedVerifier.toRemove[name]? with
    | some item => undoneVerifier item
    | none =>
      match if fSkipTempCache then none else cache.restrictedVerifier.toAdd[name]? with
      | some item => some item.verifier
      | none =>
        match g.passets.restrictedVerifier.toAdd[name]? with
        | some item => some item.verifier
        | none => (g.passetsVerifierCache.get? name).or g.verifiers[name]?

/-- Some sub-qualifier of the root is recorded for the address. -/
def hasRootQualifier (root : NameAddress) : Bool :=
  match cache.mapRootQualifierAddressesAdd[root]? with
  | some subs => !subs.isEmpty
  | none => false

/-- The tags of an address that are stored under a qualifier. A longer key sorts after a shorter
one, so the search from the qualifier on skips none. assets/restricteddb.cpp:148-169 -/
def checkForAddressRootQualifier (address qualifier : Bytes) : Bool :=
  g.qualifiers.db.keys.any fun key =>
    key.2 == address &&
      (key.1 == qualifier || (qualifier ++ [subNameDelimiter]).isPrefixOf key.1)

/-- With `fSkipTempCache`: the state of the connected tip. L4669-4761 -/
def checkForAddressQualifier (qualifier_name address : Bytes) : Bool :=
  let key := (qualifier_name, address)
  match g.passets.qualifierAddress.toRemove[key]? with
  | some type => !type.isOn
  | none =>
    match g.passets.qualifierAddress.toAdd[key]? with
    | some type => type.isOn || g.passets.hasRootQualifier key
    | none =>
      g.passets.hasRootQualifier key || g.qualifiers.has (getHash cfg) key ||
        checkForAddressRootQualifier g address qualifier_name

/-- With `fSkipTempCache`: a switch of the connected tip, by the pending command or the stored
marker. L4764-4819 -/
def checkForAddressRestriction (restricted_name address : Bytes) : Bool :=
  (g.passets.restrictedAddress.status RestrictedType.isOn (restricted_name, address)).getD
    (g.restrictions.has (getHash cfg) (restricted_name, address))

/-- L4822-4878 -/
def checkForGlobalRestriction (restricted_name : Bytes) : Bool :=
  (g.passets.restrictedGlobal.status RestrictedType.isOn restricted_name).getD
    (g.globalRestrictions.has id restricted_name)

/-- What validation sees of a cache. -/
def view : AssetView where
  checkIfAssetExists name := cache.checkIfAssetExists cfg g name true
  getAssetMetaDataIfExists := cache.getAssetMetaDataIfExists g
  getAssetVerifierStringIfExists := cache.getAssetVerifierStringIfExists g
  checkForAddressQualifier := checkForAddressQualifier cfg g
  checkForAddressRestriction := checkForAddressRestriction cfg g
  checkForGlobalRestriction := checkForGlobalRestriction g

/-! ## The address index

Balances by address, kept only under `-assetindex`. -/

/-- L3735-3760 -/
def getBestAssetAddressAmount (pair : NameAddress) : Option Int :=
  (cache.mapAssetsAddressAmount[pair]?.or g.passets.mapAssetsAddressAmount[pair]?).or
    g.assetAddressQuantity[pair]?

/-- Sets a balance of the index, when there is one. -/
def setBalance (pair : NameAddress) (nAmount : Int) : CAssetsCache :=
  if cfg.fAssetIndex then
    { cache with mapAssetsAddressAmount := cache.mapAssetsAddressAmount.insert pair nAmount }
  else cache

/-- L1683-1699 -/
def addToAssetBalance (strName address : Bytes) (nAmount : Int) : CAssetsCache :=
  cache.setBalance cfg (strName, address)
    (if isAssetNameAnOwner strName then ownerAssetAmount
      else (cache.getBestAssetAddressAmount g (strName, address)).getD 0 + nAmount)

/-! ## Changes by a connected block -/

/-- L1667-1681 -/
def addTransferAsset (transferAsset : CAssetTransfer) (address : Bytes) (out : COutPoint) :
    CAssetsCache :=
  let cache := cache.addToAssetBalance cfg g transferAsset.strName address transferAsset.nAmount
  { cache with
    newTransferAssets := cache.newTransferAssets.addNew out ⟨transferAsset, address, out⟩ }

/-- L1902-1920 -/
def addNewAsset (asset : CNewAsset) (address : Bytes) (nHeight : Int) (blockHash : Uint256) :
    Option CAssetsCache :=
  if cache.checkIfAssetExists cfg g asset.strName true then none
  else
    some (setBalance cfg
      { cache with
        newAssets := cache.newAssets.addNew asset.strName ⟨asset, address, blockHash, nHeight⟩ }
      (asset.strName, address) asset.nAmount)

/-- What a reissue does to the data of an asset. L1937-1960 -/
def applyReissue (asset : CNewAsset) (reissue : CReissueAsset) : CNewAsset :=
  { asset with
    nAmount := asset.nAmount + reissue.nAmount
    nReissuable := reissue.nReissuable
    units := if reissue.nUnits ≠ -1 then reissue.nUnits else asset.units
    nHasIPFS := if reissue.strIPFSHash ≠ [] then 1 else asset.nHasIPFS
    strIPFSHash := if reissue.strIPFSHash ≠ [] then reissue.strIPFSHash else asset.strIPFSHash }

/-- The lookup answers with the entry of the local map when there is one, so both branches of the
source update what the lookup returned. L1923-1976 -/
def addReissueAsset (reissue : CReissueAsset) (address : Bytes) (out : COutPoint) :
    Option CAssetsCache :=
  match cache.getAssetMetaData g reissue.strName with
  | none => none
  | some (asset, issued) =>
    -- The height and the block stay unset when the answer came from a map of reissued data.
    let (assetHeight, assetBlockHash) := issued.getD (cfg.uninitHeight, 0)
    some (setBalance cfg
      { cache with
        mapReissuedAssetData :=
          cache.mapReissuedAssetData.insert reissue.strName (applyReissue asset reissue)
        newReissue :=
          cache.newReissue.addNew out ⟨reissue, address, out, assetBlockHash, assetHeight⟩ }
      (reissue.strName, address)
      ((cache.getBestAssetAddressAmount g (reissue.strName, address)).getD 0 + reissue.nAmount))

/-- L2045-2061 -/
def addOwnerAsset (assetsName address : Bytes) : CAssetsCache :=
  setBalance cfg
    { cache with newOwnerAssets := cache.newOwnerAssets.addNew assetsName ⟨assetsName, address⟩ }
    (assetsName, address) ownerAssetAmount

variable (assetName : Bytes)

/-- Moves a sub-qualifier between the sets of its root. -/
def setRootQualifier (address : Bytes) (on : Bool) : CAssetsCache :=
  let root := (getParentName assetName, address)
  let added := cache.mapRootQualifierAddressesAdd.getD root ∅
  let removed := cache.mapRootQualifierAddressesRemove.getD root ∅
  if isAssetNameASubQualifier assetName then
    { cache with
      mapRootQualifierAddressesAdd := cache.mapRootQualifierAddressesAdd.insert root
        (if on then added.insert assetName else added.erase assetName)
      mapRootQualifierAddressesRemove := cache.mapRootQualifierAddressesRemove.insert root
        (if on then removed.erase assetName else removed.insert assetName) }
  else cache

/-- L2097-2126 -/
def addQualifierAddress (address : Bytes) (type : QualifierType) : CAssetsCache :=
  let cache := cache.setRootQualifier assetName address type.isOn
  { cache with qualifierAddress := cache.qualifierAddress.add (assetName, address) type }

/-- L2162-2181 -/
def addRestrictedAddress (address : Bytes) (type : RestrictedType) : CAssetsCache :=
  { cache with restrictedAddress := cache.restrictedAddress.add (assetName, address) type }

/-- L2204-2223 -/
def addGlobalRestricted (type : RestrictedType) : CAssetsCache :=
  { cache with restrictedGlobal := cache.restrictedGlobal.add assetName type }

/-- L2246-2257 -/
def addRestrictedVerifier (verifier : Bytes) : CAssetsCache :=
  { cache with
    restrictedVerifier := cache.restrictedVerifier.addNew assetName ⟨verifier, false⟩ }

/-- Only the index changes; a spend fails when no asset can be read from an asset script. The
source reads the asset as `GetAssetData` does. L1701-1763 -/
def trySpendCoin (txOut : CTxOut) : Option CAssetsCache :=
  if (isAssetScript txOut.scriptPubKey).isNone then some cache
  else
    match getAssetData cfg txOut.scriptPubKey with
    | none => none
    | some data =>
      if data.address = [] ∨ data.assetName = [] then none
      else
        match cache.getBestAssetAddressAmount g (data.assetName, data.address) with
        | some amount =>
          if cfg.fAssetIndex ∧ 0 < data.nAmount then
            let spent := cache.setBalance cfg (data.assetName, data.address)
              (max 0 (amount - data.nAmount))
            some { spent with
              vSpentAssets := spent.vSpentAssets ++ [⟨data.assetName, data.address, data.nAmount⟩] }
          else some cache
        | none => some cache

/-! ## Changes by a disconnected block -/

/-- L1775-1832 -/
def undoAssetCoin (coin : Coin) : Option CAssetsCache :=
  match getAssetData cfg coin.out.scriptPubKey with
  | none => none
  | some data =>
    if data.assetName = [] ∨ data.address = [] ∨ data.nAmount = 0 then none
    else
      let pair := (data.assetName, data.address)
      let restored := cache.setBalance cfg pair
        ((cache.getBestAssetAddressAmount g pair).getD 0 + data.nAmount)
      some { restored with
        vUndoAssetAmount :=
          restored.vUndoAssetAmount ++ [⟨data.assetName, data.address, data.nAmount⟩] }

/-- L1883-1900 -/
def removeNewAsset (asset : CNewAsset) (address : Bytes) : Option CAssetsCache :=
  if cache.checkIfAssetExists cfg g asset.strName true then
    some (setBalance cfg
      { cache with newAssets := cache.newAssets.undoNew asset.strName ⟨asset, address, 0, 0⟩ }
      (asset.strName, address) 0)
  else none

/-- L2064-2080 -/
def removeOwnerAsset (assetsName address : Bytes) : CAssetsCache :=
  setBalance cfg
    { cache with newOwnerAssets := cache.newOwnerAssets.undoNew assetsName ⟨assetsName, address⟩ }
    (assetsName, address) 0

/-- L1857-1880 -/
def undoTransfer (transfer : CAssetTransfer) (address : Bytes) : Option CAssetsCache :=
  if cfg.fAssetIndex then
    match cache.getBestAssetAddressAmount g (transfer.strName, address) with
    | none => none
    | some amount =>
      if amount < transfer.nAmount then none
      else some (cache.setBalance cfg (transfer.strName, address) (amount - transfer.nAmount))
  else some cache

/-- L2083-2095 -/
def removeTransfer (transfer : CAssetTransfer) (address : Bytes) (out : COutPoint) :
    Option CAssetsCache :=
  (cache.undoTransfer cfg g transfer address).map fun cache =>
    { cache with
      newTransferAssets := cache.newTransferAssets.undoNew out ⟨transfer, address, out⟩ }

/-- L2260-2271 -/
def removeRestrictedVerifier (verifier : Bytes) (fUndoingReissue : Bool) :
    CAssetsCache :=
  { cache with
    restrictedVerifier := cache.restrictedVerifier.undoNew assetName ⟨verifier, fUndoingReissue⟩ }

/-- What undoing a reissue does to the data of an asset. Only the first undo record of the name is
read. L1990-2013 -/
def unapplyReissue (asset : CNewAsset) (reissue : CReissueAsset) (undo : Option CBlockAssetUndo) :
    CNewAsset :=
  let asset := { asset with nAmount := asset.nAmount - reissue.nAmount, nReissuable := 1 }
  match undo with
  | none => asset
  | some undo =>
    let asset := { asset with
      strIPFSHash := if undo.fChangedIPFS then undo.strIPFS else asset.strIPFSHash
      units := if undo.fChangedUnits then undo.nUnits else asset.units }
    { asset with nHasIPFS := if asset.strIPFSHash = [] then 0 else asset.nHasIPFS }

/-- L2015-2029 -/
def restoreReissued (asset : CNewAsset) (issued : Option (Int × Uint256)) (reissue : CReissueAsset)
    (address : Bytes) (out : COutPoint) (undo : Option CBlockAssetUndo) : CAssetsCache :=
  let (height, blockHash) := issued.getD (cfg.uninitHeight, 0)
  let removed := { cache with
    mapReissuedAssetData :=
      cache.mapReissuedAssetData.insert asset.strName (unapplyReissue asset reissue undo)
    newReissue := cache.newReissue.undoNew out ⟨reissue, address, out, blockHash, height⟩ }
  match undo with
  | some undo =>
    if undo.fChangedVerifierString then
      removed.removeRestrictedVerifier asset.strName undo.verifierString true
    else removed
  | none => removed

/-- L2031-2042 -/
def subtractReissued (pair : NameAddress) (nAmount : Int) : Option CAssetsCache :=
  if cfg.fAssetIndex then
    match cache.getBestAssetAddressAmount g pair with
    | none => if nAmount ≠ 0 then none else some (cache.setBalance cfg pair 0)
    | some amount =>
      if amount - nAmount < 0 then none else some (cache.setBalance cfg pair (amount - nAmount))
  else some cache

/-- L1979-2042 -/
def removeReissueAsset (reissue : CReissueAsset) (address : Bytes) (out : COutPoint)
    (vUndoIPFS : List (Bytes × CBlockAssetUndo)) : Option CAssetsCache :=
  match cache.getAssetMetaData g reissue.strName with
  | none => none
  | some (asset, issued) =>
    (cache.restoreReissued cfg asset issued reissue address out
      (vUndoIPFS.lookup reissue.strName)).subtractReissued cfg g (reissue.strName, address)
        reissue.nAmount

/-- L2129-2158 -/
def removeQualifierAddress (address : Bytes) (type : QualifierType) : CAssetsCache :=
  let cache := cache.setRootQualifier assetName address (!type.isOn)
  { cache with qualifierAddress := cache.qualifierAddress.undo (assetName, address) type }

/-- L2183-2202 -/
def removeRestrictedAddress (address : Bytes) (type : RestrictedType) : CAssetsCache :=
  { cache with restrictedAddress := cache.restrictedAddress.undo (assetName, address) type }

/-- L2225-2244 -/
def removeGlobalRestricted (type : RestrictedType) : CAssetsCache :=
  { cache with restrictedGlobal := cache.restrictedGlobal.undo assetName type }

end CAssetsCache

end HempCore
