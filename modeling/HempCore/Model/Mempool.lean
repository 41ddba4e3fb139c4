import HempCore.Lib.Worklist
import HempCore.Model.Chain

/-!
# The memory pool

`CTxMemPool` with its index of spenders, its links between parents and children, and the maps that
track what its transactions do to assets. Fees, sizes and the statistics kept by them are left out.
A transaction is known by its id; the pointers and iterators of the source are ids or values here.
Lines without a file are those of `txmempool.cpp`.
-/

set_option autoImplicit false

namespace HempCore

open Std

open Lib (walk)

/-! ## What is tracked of assets -/

/-- A map from keys to the transactions that have them, with the map back. -/
structure Tracked (K : Type) [Ord K] where
  byKey : TreeMap K (TreeSet Uint256)
  byHash : TreeMap Uint256 (TreeSet K)

namespace Tracked

variable {K : Type} [Ord K]

def empty : Tracked K := ⟨∅, ∅⟩

variable (t : Tracked K) (hash : Uint256)

/-- `map[key].insert(hash); mapBack[hash].insert(key)` -/
def insert (key : K) : Tracked K where
  byKey := t.byKey.insert key ((t.byKey.getD key ∅).insert hash)
  byHash := t.byHash.insert hash ((t.byHash.getD hash ∅).insert key)

/-- The keys of a transaction. -/
def keysOf : List K := (t.byHash.getD hash ∅).toList

/-- Takes the transaction from the sets of its keys, and its keys with it.
L661-683 -/
def erase : Tracked K where
  byKey := (t.keysOf hash).foldl (fun m key => m.modify key (·.erase hash)) t.byKey
  byHash := t.byHash.erase hash

/-- Takes the transaction from one set, and the set when nothing is left of it. -/
def dropFrom (m : TreeMap K (TreeSet Uint256)) (key : K) : TreeMap K (TreeSet Uint256) :=
  match m[key]? with
  | none => m
  | some hashes =>
    if (hashes.erase hash).isEmpty then m.erase key else m.insert key (hashes.erase hash)

/-- L685-705 -/
def eraseEmpty : Tracked K where
  byKey := (t.keysOf hash).foldl (dropFrom hash) t.byKey
  byHash := t.byHash.erase hash

/-- The map back is left as it is. L707-725 -/
def eraseForward : Tracked K := { t with byKey := (t.keysOf hash).foldl (dropFrom hash) t.byKey }

end Tracked

/-! ## The pool -/

/-- txmempool.h:521-524 -/
structure TxLinks where
  parents : TreeSet Uint256
  children : TreeSet Uint256

/-- The globals of `assets.h` that go with the pool are among the tracked maps.
txmempool.h:466-545, assets/assets.h:72-73 -/
structure CTxMemPool extends MempoolTracking where
  mapTx : TreeMap Uint256 CTransaction
  mapNextTx : TreeMap COutPoint CTransaction
  mapLinks : TreeMap Uint256 TxLinks
  mapHashToAsset : TreeMap Uint256 Bytes
  mapAddressesMarkedFrozen : Tracked (Bytes × Bytes)
  mapAssetMarkedGlobalFrozen : Tracked Bytes
  mapAddressesQualifiersChanged : Tracked Bytes
  mapAssetVerifierChanged : Tracked Bytes
  mapGlobalFreezingAssetTransactions : Tracked Bytes
  mapGlobalUnFreezingAssetTransactions : Tracked Bytes
  mapAddressAddedTag : Tracked (Bytes × Bytes)
  mapAddressRemoveTag : Tracked (Bytes × Bytes)

namespace CTxMemPool

def empty : CTxMemPool where
  toMempoolTracking := .empty
  mapTx := ∅
  mapNextTx := ∅
  mapLinks := ∅
  mapHashToAsset := ∅
  mapAddressesMarkedFrozen := .empty
  mapAssetMarkedGlobalFrozen := .empty
  mapAddressesQualifiersChanged := .empty
  mapAssetVerifierChanged := .empty
  mapGlobalFreezingAssetTransactions := .empty
  mapGlobalUnFreezingAssetTransactions := .empty
  mapAddressAddedTag := .empty
  mapAddressRemoveTag := .empty

variable (pool : CTxMemPool)

def existsTx (hash : Uint256) : Bool := pool.mapTx.contains hash

/-! ## Links -/

/-- L1430-1436 -/
def getMemPoolChildren (hash : Uint256) : List Uint256 :=
  (pool.mapLinks[hash]?.map fun links => links.children.toList).getD []

/-- L1422-1428 -/
def getMemPoolParents (hash : Uint256) : List Uint256 :=
  (pool.mapLinks[hash]?.map fun links => links.parents.toList).getD []

/-- L1402-1410 -/
def updateChild (entry child : Uint256) (add : Bool) : CTxMemPool :=
  { pool with mapLinks := pool.mapLinks.modify entry fun links =>
    { links with children := if add then links.children.insert child else links.children.erase child } }

/-- L1412-1420 -/
def updateParent (entry parent : Uint256) (add : Bool) : CTxMemPool :=
  { pool with mapLinks := pool.mapLinks.modify entry fun links =>
    { links with parents := if add then links.parents.insert parent else links.parents.erase parent } }

/-- The links of a transaction to its parents. L218-231 -/
def updateAncestorsOf (add : Bool) (hash : Uint256) : CTxMemPool :=
  (pool.getMemPoolParents hash).foldl (fun pool parent => pool.updateChild parent hash add) pool

/-- L247-253 -/
def updateChildrenForRemoval (hash : Uint256) : CTxMemPool :=
  (pool.getMemPoolChildren hash).foldl (fun pool child => pool.updateParent child hash false) pool

/-- As many nodes as the pool has are enough for the walk. L735-757 -/
def calculateDescendants (setDescendants : TreeSet Uint256) (entry : Uint256) : TreeSet Uint256 :=
  if setDescendants.contains entry then setDescendants
  else walk pool.getMemPoolChildren pool.mapTx.size (TreeSet.empty.insert entry) setDescendants

/-- The ancestors in the pool of a transaction that is not in it; the limits are left to the caller.
L154-216 -/
def calculateMemPoolAncestors (tx : CTransaction) : TreeSet Uint256 :=
  let parentHashes := tx.vin.foldl (fun (s : TreeSet Uint256) txin =>
    if pool.existsTx txin.prevout.hash then s.insert txin.prevout.hash else s) ∅
  walk pool.getMemPoolParents pool.mapTx.size parentHashes ∅

/-! ## Adding -/

/-- L362-419 -/
def addUnchecked (tx : CTransaction) : CTxMemPool :=
  let stored := { pool with
    mapTx := pool.mapTx.insertIfNew tx.hash tx
    mapLinks := pool.mapLinks.insertIfNew tx.hash ⟨∅, ∅⟩
    mapNextTx := tx.vin.foldl (fun m (txin : CTxIn) => m.insertIfNew txin.prevout tx) pool.mapNextTx }
  let setParentTransactions : TreeSet Uint256 := tx.vin.foldl (fun s txin => s.insert txin.prevout.hash) ∅
  let linked := setParentTransactions.toList.foldl (fun pool phash =>
    if pool.existsTx phash then pool.updateParent tx.hash phash true else pool) stored
  linked.updateAncestorsOf true tx.hash

/-! ## Removing -/

/-- A reissue is freed when both maps know it. L646-652 -/
def freeReissue (hash : Uint256) : CTxMemPool :=
  match pool.mapReissuedTx[hash]? with
  | none => pool
  | some name =>
    if pool.mapReissuedAssets.contains name then
      { pool with
        mapReissuedAssets := pool.mapReissuedAssets.erase name
        mapReissuedTx := pool.mapReissuedTx.erase hash }
    else pool

/-- L654-658 -/
def forgetAsset (hash : Uint256) : CTxMemPool :=
  match pool.mapHashToAsset[hash]? with
  | none => pool
  | some name =>
    { pool with
      mapAssetToHash := pool.mapAssetToHash.erase name
      mapHashToAsset := pool.mapHashToAsset.erase hash }

/-- L645-726 -/
def untrack (hash : Uint256) : CTxMemPool :=
  let pool := (pool.freeReissue hash).forgetAsset hash
  { pool with
    mapAddressesMarkedFrozen := pool.mapAddressesMarkedFrozen.erase hash
    mapAssetMarkedGlobalFrozen := pool.mapAssetMarkedGlobalFrozen.erase hash
    mapAddressesQualifiersChanged := pool.mapAddressesQualifiersChanged.erase hash
    mapAssetVerifierChanged := pool.mapAssetVerifierChanged.erase hash
    mapGlobalFreezingAssetTransactions := pool.mapGlobalFreezingAssetTransactions.eraseEmpty hash
    mapGlobalUnFreezingAssetTransactions := pool.mapGlobalUnFreezingAssetTransactions.eraseEmpty hash
    mapAddressAddedTag := pool.mapAddressAddedTag.eraseForward hash
    mapAddressRemoveTag := pool.mapAddressRemoveTag.eraseForward hash }

/-- L619-727 -/
def removeUnchecked (hash : Uint256) : CTxMemPool :=
  match pool.mapTx[hash]? with
  | none => pool
  | some tx =>
    { pool with
      mapNextTx := tx.vin.foldl (fun m (txin : CTxIn) => m.erase txin.prevout) pool.mapNextTx
      mapLinks := pool.mapLinks.erase hash
      mapTx := pool.mapTx.erase hash }.untrack hash

/-- L255-311 -/
def updateForRemoveFromMempool (entriesToRemove : List Uint256) : CTxMemPool :=
  entriesToRemove.foldl updateChildrenForRemoval
    (entriesToRemove.foldl (fun pool hash => pool.updateAncestorsOf false hash) pool)

/-- L1368-1374 -/
def removeStaged (stage : TreeSet Uint256) : CTxMemPool :=
  stage.toList.foldl removeUnchecked (pool.updateForRemoveFromMempool stage.toList)

/-- Some entries with all their descendants. -/
def removeWithDescendants (entries : List Uint256) : CTxMemPool :=
  pool.removeStaged (entries.foldl pool.calculateDescendants ∅)

/-- A transaction that is not in the pool takes its children with it. L759-788 -/
def removeRecursive (origTx : CTransaction) : CTxMemPool :=
  if pool.existsTx origTx.hash then pool.removeWithDescendants [origTx.hash]
  else
    pool.removeWithDescendants ((List.range origTx.vout.length).filterMap fun i =>
      pool.mapNextTx[(⟨origTx.hash, i⟩ : COutPoint)]?.map CTransaction.hash)

/-- L827-842 -/
def removeConflicts (tx : CTransaction) : CTxMemPool :=
  tx.vin.foldl (fun pool txin =>
    match pool.mapNextTx[txin.prevout]? with
    | none => pool
    | some txConflict => if txConflict.hash ≠ tx.hash then pool.removeRecursive txConflict else pool) pool

end CTxMemPool

end HempCore
