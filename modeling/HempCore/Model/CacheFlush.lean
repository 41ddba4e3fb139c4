import HempCore.Model.AssetsCache

/-!
# Merging a cache and writing it out

`CAssetsCache::Flush` merges the cache of a block into `passets`, and `DumpCacheToDatabase` writes
`passets` to the databases and empties it. The writes themselves do not fail here.
Lines without a file are those of `assets.cpp`.
-/

set_option autoImplicit false

namespace HempCore

open Std

open Lib (Pending LRUCache Markers)

/-! ## Flush -/

/-- Copies every entry over. -/
def overwriteWith {K V : Type} [Ord K] (m extra : TreeMap K V) : TreeMap K V :=
  extra.foldl (fun m k v => m.insert k v) m

/-- Adds every member of every set; nothing is taken out. -/
def uniteWith (m extra : TreeMap NameAddress (TreeSet Bytes)) :
    TreeMap NameAddress (TreeSet Bytes) :=
  extra.foldl (fun m root subs =>
    subs.foldl (fun m sub => m.insert root ((m.getD root ∅).insert sub)) m) m

/-- The global cache after `cache` is merged into it. L2816-2998 -/
def CAssetsCache.flushInto (cache passets : CAssetsCache) : CAssetsCache where
  newAssets := cache.newAssets.flushNewInto passets.newAssets
  newReissue := cache.newReissue.flushNewInto passets.newReissue
  newOwnerAssets := cache.newOwnerAssets.flushNewInto passets.newOwnerAssets
  newTransferAssets := cache.newTransferAssets.flushNewInto passets.newTransferAssets
  qualifierAddress := cache.qualifierAddress.flushInto passets.qualifierAddress
  restrictedAddress := cache.restrictedAddress.flushInto passets.restrictedAddress
  restrictedGlobal := cache.restrictedGlobal.flushInto passets.restrictedGlobal
  restrictedVerifier := cache.restrictedVerifier.flushInto passets.restrictedVerifier
  mapRootQualifierAddressesAdd :=
    uniteWith passets.mapRootQualifierAddressesAdd cache.mapRootQualifierAddressesAdd
  mapRootQualifierAddressesRemove :=
    uniteWith passets.mapRootQualifierAddressesRemove cache.mapRootQualifierAddressesRemove
  mapReissuedAssetData := overwriteWith passets.mapReissuedAssetData cache.mapReissuedAssetData
  mapAssetsAddressAmount :=
    overwriteWith passets.mapAssetsAddressAmount cache.mapAssetsAddressAmount
  vSpentAssets := passets.vSpentAssets ++ cache.vSpentAssets
  vUndoAssetAmount := passets.vUndoAssetAmount ++ cache.vUndoAssetAmount

namespace AssetGlobals

variable (cfg : Config) (g : AssetGlobals)

/-- L2816-2998 -/
def flush (cache : CAssetsCache) : AssetGlobals := { g with passets := cache.flushInto g.passets }

/-! ## Dump -/

/-- L2279-2310 -/
def dumpRemovedAsset (name : Bytes) (_ : CAssetCacheNewAsset) : AssetGlobals :=
  { g with
    passetsCache := g.passetsCache.erase name
    assetData := g.assetData.erase name
    verifiers := g.verifiers.erase name }

/-- L2313-2341 -/
def dumpAddedAsset (name : Bytes) (item : CAssetCacheNewAsset) : AssetGlobals :=
  let data : CDatabasedAssetData := ⟨item.asset, item.blockHeight, item.blockHash⟩
  { g with
    passetsCache := g.passetsCache.put name data
    assetData := g.assetData.insert name data }

/-- Writes the data of a reissued asset, under the name the data carry. L2447-2457 -/
def dumpReissuedData (record : CAssetCacheReissueAsset) : AssetGlobals :=
  match g.passets.mapReissuedAssetData[record.reissue.strName]? with
  | none => g
  | some asset =>
    { g with
      passetsCache := g.passetsCache.erase record.reissue.strName
      assetData := g.assetData.insert asset.strName ⟨asset, record.blockHeight, record.blockHash⟩ }

/-- The undo of a reissue is skipped when the issue is undone as well. L2482-2498 -/
def dumpUndoneReissue (record : CAssetCacheReissueAsset) : AssetGlobals :=
  if g.passets.newAssets.toRemove.contains record.reissue.strName then g
  else g.dumpReissuedData record

/-- L2535-2548 -/
def dumpAddedVerifier (name : Bytes) (item : CAssetCacheRestrictedVerifiers) : AssetGlobals :=
  { g with
    verifiers := g.verifiers.insert name item.verifier
    passetsVerifierCache := g.passetsVerifierCache.erase name }

/-- L2551-2573 -/
def dumpUndoneVerifier (name : Bytes) (item : CAssetCacheRestrictedVerifiers) : AssetGlobals :=
  { g with
    verifiers :=
      if item.fUndoingRessiue then g.verifiers.insert name item.verifier else g.verifiers.erase name
    passetsVerifierCache := g.passetsVerifierCache.erase name }

/-! ### The address index -/

/-- Sets or erases a quantity. -/
def setQuantity (pair : NameAddress) (quantity : Option Int) : AssetGlobals :=
  { g with
    assetAddressQuantity := match quantity with
      | some amount => g.assetAddressQuantity.insert pair amount
      | none => g.assetAddressQuantity.erase pair }

/-- Writes the pending balance; one of `0` is erased where the source says so. -/
def writeBalance (eraseZero : Bool) (pair : NameAddress) : AssetGlobals :=
  match g.passets.mapAssetsAddressAmount[pair]? with
  | none => g
  | some amount => g.setQuantity pair (if eraseZero && amount == 0 then none else some amount)

/-- Writes a positive pending balance. -/
def writePositiveBalance (pair : NameAddress) : AssetGlobals :=
  match g.passets.mapAssetsAddressAmount[pair]? with
  | none => g
  | some amount => if 0 < amount then g.setQuantity pair (some amount) else g

/-- The part of the dump that keeps the balances of `-assetindex`. The tables it writes are read by
`GetBestAssetAddressAmount` alone, so its place among the other writes does not matter.
L2296-2306, 2326-2336, 2344-2442, 2459-2477, 2500-2524, 2744-2801 -/
def dumpAddressIndex : AssetGlobals :=
  let p := g.passets
  let g := p.newAssets.toRemove.foldl (fun g name item => g.setQuantity (name, item.address) none) g
  let g := p.newAssets.toAdd.foldl
    (fun g name item => g.setQuantity (name, item.address) (some item.asset.nAmount)) g
  let g := p.newOwnerAssets.toRemove.foldl
    (fun g name item => g.setQuantity (name, item.address) none) g
  let g := p.newOwnerAssets.toAdd.foldl
    (fun g name item => g.writePositiveBalance (name, item.address)) g
  let g := p.newTransferAssets.toRemove.foldl
    (fun g _ item => g.writeBalance true (item.transfer.strName, item.address)) g
  let g := p.newTransferAssets.toAdd.foldl
    (fun g _ item => g.writeBalance false (item.transfer.strName, item.address)) g
  let g := p.newReissue.toAdd.foldl (fun g _ item =>
    if p.mapReissuedAssetData.contains item.reissue.strName then
      g.writePositiveBalance (item.reissue.strName, item.address)
    else g) g
  let g := p.newReissue.toRemove.foldl (fun g _ item =>
    if !p.newAssets.toRemove.contains item.reissue.strName &&
        p.mapReissuedAssetData.contains item.reissue.strName then
      g.writeBalance true (item.reissue.strName, item.address)
    else g) g
  let g := p.vUndoAssetAmount.foldl
    (fun g item => g.writeBalance false (item.assetName, item.address)) g
  p.vSpentAssets.foldl (fun g item => g.writeBalance true (item.assetName, item.address)) g

/-! ### The whole dump -/

/-- Issues and reissues. L2279-2341, 2444-2532 -/
def dumpAssets : AssetGlobals :=
  let p := g.passets
  let g := p.newAssets.toRemove.foldl dumpRemovedAsset g
  let g := p.newAssets.toAdd.foldl dumpAddedAsset g
  let g := p.newReissue.toAdd.foldl (fun g _ record => g.dumpReissuedData record) g
  p.newReissue.toRemove.foldl (fun g _ record => g.dumpUndoneReissue record) g

/-- L2535-2573 -/
def dumpVerifiers : AssetGlobals :=
  let p := g.passets
  p.restrictedVerifier.toRemove.foldl dumpUndoneVerifier
    (p.restrictedVerifier.toAdd.foldl dumpAddedVerifier g)

/-- Tags, freezes and global freezes. L2576-2741 -/
def dumpSwitches : AssetGlobals :=
  { g with
    qualifiers := g.qualifiers.dump (getHash cfg) QualifierType.isOn g.passets.qualifierAddress
    restrictions := g.restrictions.dump (getHash cfg) RestrictedType.isOn g.passets.restrictedAddress
    globalRestrictions := g.globalRestrictions.dump id RestrictedType.isOn g.passets.restrictedGlobal }

/-- L2272-2812 -/
def dumpCacheToDatabase : AssetGlobals :=
  let g := (g.dumpAssets.dumpVerifiers).dumpSwitches cfg
  let g := if cfg.fAssetIndex then g.dumpAddressIndex else g
  { g with passets := .empty }

/-! ## Refills -/

/-- What the lookups of a name and an address leave in the least-recently-used caches, any of them
asked or not. -/
structure Touch where
  asset : Option Bytes
  verifier : Option Bytes
  qualifier : Option NameAddress
  restriction : Option NameAddress
  globalRestriction : Option Bytes

/-- What a read of a cached table leaves in its cache. -/
def refill {V : Type} (cache : LRUCache Bytes V) (table : TreeMap Bytes V) (name : Bytes) :
    LRUCache Bytes V :=
  match cache.get? name with
  | some _ => cache.promote name
  | none =>
    match table[name]? with
    | some data => cache.put name data
    | none => cache

/-- L3372-3393, 3456-3478, 4648-4664, 4735-4751, 4801-4814, 4858-4871 -/
def touch (t : Touch) : AssetGlobals :=
  { g with
    passetsCache := t.asset.elim g.passetsCache (refill g.passetsCache g.assetData)
    passetsVerifierCache := t.verifier.elim g.passetsVerifierCache
      (refill g.passetsVerifierCache g.verifiers)
    qualifiers := t.qualifier.elim g.qualifiers (g.qualifiers.refill (getHash cfg))
    restrictions := t.restriction.elim g.restrictions (g.restrictions.refill (getHash cfg))
    globalRestrictions := t.globalRestriction.elim g.globalRestrictions
      (g.globalRestrictions.refill id) }

end AssetGlobals

end HempCore
