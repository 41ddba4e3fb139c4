import HempCore.Model.Chain

/-!
# A block's cache over the global one

While a block is connected its changes are seen through a local cache; afterwards they are merged
into `passets`. For the two to answer alike, a local entry has to win over a global one. The
lookups of existence and of metadata ask for global removals before local additions, and a merge
keeps the record the global cache already has, so they answer alike exactly where neither matters.
-/

set_option autoImplicit false

namespace HempCore

open Std

open Lib (Pending)

variable {cfg : Config} {g : AssetGlobals}

/-! ## Lookups by what is pending -/

section Lookups

variable (cfg g) (cache : CAssetsCache) (name : Bytes)

/-- What lies below the two caches: the least-recently-used cache, then the database. -/
def AssetGlobals.stored : Option CDatabasedAssetData :=
  (g.passetsCache.get? name).or g.assetData[name]?

variable (localEntry : Option CAssetCacheNewAsset × Option CAssetCacheNewAsset)

def layeredExists (globalEntry : Option CAssetCacheNewAsset × Option CAssetCacheNewAsset)
    (stored : Bool) : Bool :=
  localEntry.2.isNone && globalEntry.2.isNone &&
    (localEntry.1.isSome || globalEntry.1.isSome || stored)

/-- The asset found with two layers of pending changes over a stored one. -/
def layeredAsset (globalEntry : Option CAssetCacheNewAsset × Option CAssetCacheNewAsset)
    (stored : Option CNewAsset) : Option CNewAsset :=
  if localEntry.2.isNone && globalEntry.2.isNone then
    ((localEntry.1.or globalEntry.1).map CAssetCacheNewAsset.asset).or stored
  else none

theorem checkIfAssetExists_eq (hreindex : cfg.fReindex = false) :
    cache.checkIfAssetExists cfg g name true =
      layeredExists (cache.newAssets.entry name) (g.passets.newAssets.entry name) (g.stored name).isSome := by
  simp only [CAssetsCache.checkIfAssetExists, hreindex, Bool.false_eq_true, if_false, Bool.and_true, layeredExists,
    Pending.entry, AssetGlobals.stored, Option.isSome_or, TreeMap.isSome_getElem?_eq_contains, ← Option.not_isSome]
  cases cache.newAssets.toRemove.contains name <;>
    cases g.passets.newAssets.toRemove.contains name <;> simp [Bool.or_assoc]

theorem getAssetMetaDataIfExists_eq :
    cache.getAssetMetaDataIfExists g name =
      (cache.mapReissuedAssetData[name]?.or g.passets.mapReissuedAssetData[name]?).or
        (layeredAsset (cache.newAssets.entry name) (g.passets.newAssets.entry name)
          ((g.stored name).map CDatabasedAssetData.asset)) := by
  simp only [CAssetsCache.getAssetMetaDataIfExists, CAssetsCache.getAssetMetaData, layeredAsset, Pending.entry,
    AssetGlobals.stored, ← Option.not_isSome, TreeMap.isSome_getElem?_eq_contains]
  generalize (g.passetsCache.get? name).or g.assetData[name]? = stored
  cases cache.mapReissuedAssetData[name]? <;> cases g.passets.mapReissuedAssetData[name]? <;>
    cases cache.newAssets.toRemove.contains name <;>
      cases g.passets.newAssets.toRemove.contains name <;>
        cases cache.newAssets.toAdd[name]? <;> cases g.passets.newAssets.toAdd[name]? <;>
          cases stored <;> rfl

theorem getElem?_overwriteWith {K V : Type} [DecidableEq K] [Ord K] [TransOrd K] [LawfulEqOrd K]
    (m extra : TreeMap K V) (k : K) : (overwriteWith m extra)[k]? = extra[k]?.or m[k]? := by
  have hfold := Lib.treeMap_foldl_keyLocal (fun (m : TreeMap K V) j => m[j]?)
    (fun m k v => m.insert k v) (fun v _ => some v) (fun m k v j => Lib.getElem?_insert_eq m k j v)
    extra m k
  rw [overwriteWith, hfold]
  cases extra[k]? <;> rfl

end Lookups

/-! ## Local caches -/

/-- A successful call of one of the four operations that issue, reissue, and undo either. -/
inductive LocalStep (cfg : Config) (g : AssetGlobals) : CAssetsCache → CAssetsCache → Prop where
  | addNewAsset {cache cache'} (asset : CNewAsset) (address : Bytes) (nHeight : Int)
      (blockHash : Uint256) (h : cache.addNewAsset cfg g asset address nHeight blockHash = some cache') :
      LocalStep cfg g cache cache'
  | removeNewAsset {cache cache'} (asset : CNewAsset) (address : Bytes)
      (h : cache.removeNewAsset cfg g asset address = some cache') : LocalStep cfg g cache cache'
  | addReissueAsset {cache cache'} (reissue : CReissueAsset) (address : Bytes) (out : COutPoint)
      (h : cache.addReissueAsset cfg g reissue address out = some cache') :
      LocalStep cfg g cache cache'
  | removeReissueAsset {cache cache'} (reissue : CReissueAsset) (address : Bytes) (out : COutPoint)
      (vUndoIPFS : List (Bytes × CBlockAssetUndo))
      (h : cache.removeReissueAsset cfg g reissue address out vUndoIPFS = some cache') :
      LocalStep cfg g cache cache'

def LocalRun (cfg : Config) (g : AssetGlobals) : CAssetsCache → Prop :=
  Relation.ReflTransGen (LocalStep cfg g) .empty

variable {cache cache' : CAssetsCache}

@[simp] theorem newAssets_setBalance (cache : CAssetsCache) (pair : NameAddress) (nAmount : Int) :
    (cache.setBalance cfg pair nAmount).newAssets = cache.newAssets := by
  unfold CAssetsCache.setBalance
  split_ifs <;> rfl

theorem newAssets_of_addReissueAsset {reissue : CReissueAsset} {address : Bytes}
    {out : COutPoint} (h : cache.addReissueAsset cfg g reissue address out = some cache') :
    cache'.newAssets = cache.newAssets := by
  unfold CAssetsCache.addReissueAsset at h
  split at h
  · cases h
  · rw [← Option.some.inj h, newAssets_setBalance]

theorem newAssets_of_subtractReissued {pair : NameAddress} {nAmount : Int}
    (h : cache.subtractReissued cfg g pair nAmount = some cache') : cache'.newAssets = cache.newAssets := by
  unfold CAssetsCache.subtractReissued at h
  repeat' split at h
  all_goals first
    | contradiction
    | rw [← Option.some.inj h]
  all_goals simp

theorem newAssets_of_removeReissueAsset {reissue : CReissueAsset}
    {address : Bytes} {out : COutPoint} {vUndoIPFS : List (Bytes × CBlockAssetUndo)}
    (h : cache.removeReissueAsset cfg g reissue address out vUndoIPFS = some cache') :
    cache'.newAssets = cache.newAssets := by
  unfold CAssetsCache.removeReissueAsset at h
  split at h
  · cases h
  · rw [newAssets_of_subtractReissued h]
    unfold CAssetsCache.restoreReissued
    simp only
    repeat' split
    all_goals rfl

theorem exclusive_of_localStep (h : LocalStep cfg g cache cache')
    (hcache : cache.newAssets.Exclusive) : cache'.newAssets.Exclusive := by
  cases h with
  | addNewAsset asset address nHeight blockHash h =>
    unfold CAssetsCache.addNewAsset at h
    split at h
    · cases h
    · rw [← Option.some.inj h, newAssets_setBalance]
      exact hcache.addNew _ _
  | removeNewAsset asset address h =>
    unfold CAssetsCache.removeNewAsset at h
    split at h
    · rw [← Option.some.inj h, newAssets_setBalance]
      exact hcache.undoNew _ _
    · cases h
  | addReissueAsset reissue address out h => rwa [newAssets_of_addReissueAsset h]
  | removeReissueAsset reissue address out vUndoIPFS h => rwa [newAssets_of_removeReissueAsset h]

theorem exclusive_of_localRun (h : LocalRun cfg g cache) : cache.newAssets.Exclusive := by
  induction h with
  | refl => exact Pending.exclusive_empty
  | tail _ hstep ih => exact exclusive_of_localStep hstep ih

/-! ## Before and after the merge -/

/-- The local cache and the merged `passets` answer alike for a name. -/
def LookupsAgree (cfg : Config) (g : AssetGlobals) (cache : CAssetsCache) (name : Bytes) : Prop :=
  let merged := g.flush cache
  cache.checkIfAssetExists cfg g name true =
      merged.passets.checkIfAssetExists cfg merged name true ∧
    cache.getAssetMetaDataIfExists g name = merged.passets.getAssetMetaDataIfExists merged name

/-- The global cache does not contradict a local issue: it has no removal of the name pending, and
where it has an issue of the name pending whose data a lookup would read, it is the same asset. -/
def IssueUncontested (g : AssetGlobals) (cache : CAssetsCache) (name : Bytes) : Prop :=
  ∀ item, cache.newAssets.toAdd[name]? = some item →
    g.passets.newAssets.toRemove[name]? = none ∧
      (cache.mapReissuedAssetData[name]? = none → g.passets.mapReissuedAssetData[name]? = none →
        ∀ older, g.passets.newAssets.toAdd[name]? = some older → older.asset = item.asset)

theorem lookupsAgree_iff_of_exclusive (hreindex : cfg.fReindex = false)
    (hcache : cache.newAssets.Exclusive) (name : Bytes) :
    LookupsAgree cfg g cache name ↔ IssueUncontested g cache name := by
  have hentry := Pending.entry_flushNewInto cache.newAssets g.passets.newAssets name hcache
  have hmap := getElem?_overwriteWith g.passets.mapReissuedAssetData cache.mapReissuedAssetData name
  have hstored : (g.flush cache).stored name = g.stored name := rfl
  have hexclusive := hcache name
  simp only [LookupsAgree, checkIfAssetExists_eq _ _ _ _ hreindex, getAssetMetaDataIfExists_eq, hstored]
  simp only [AssetGlobals.flush, CAssetsCache.flushInto, hentry, hmap]
  change _ ↔ ∀ item, (cache.newAssets.entry name).1 = some item →
    (g.passets.newAssets.entry name).2 = none ∧ (_ → _ → ∀ older, (g.passets.newAssets.entry name).1 = some older → _)
  generalize (g.stored name).map CDatabasedAssetData.asset = storedAsset
  generalize (g.stored name).isSome = stored
  generalize cache.newAssets.entry name = entry at hexclusive ⊢
  rcases entry with ⟨_ | item, _ | removed⟩
  · simp [Pending.mergeNew, layeredExists, layeredAsset]
  · simp [Pending.mergeNew, layeredExists, layeredAsset]
  · -- A local issue: the merge drops a global removal but keeps a global issue.
    rcases g.passets.newAssets.entry name with ⟨_ | older, _ | gone⟩ <;>
      cases cache.mapReissuedAssetData[name]? <;>
        cases g.passets.mapReissuedAssetData[name]? <;>
          simp [Pending.mergeNew, layeredExists, layeredAsset, eq_comm]
  · simp at hexclusive

theorem lookups_agree_iff (cfg : Config) (hreindex : cfg.fReindex = false) (g : AssetGlobals)
    (cache : CAssetsCache) (hcache : LocalRun cfg g cache) :
    (∀ name, LookupsAgree cfg g cache name) ↔ ∀ name, IssueUncontested g cache name :=
  forall_congr' (lookupsAgree_iff_of_exclusive hreindex (exclusive_of_localRun hcache))

/-! ## A reorganisation

A block issues `ABC`; it is disconnected, and the next block issues `ABC` again. -/

def defAsset : CNewAsset := { abcAsset with strName := str "DEF" }

/-- `DEF` is issued while the issue of `ABC` is not written yet. -/
theorem pendingIssue_lookups_agree :
    ∃ node cache, (Node.genesis .all).run mainAll abcIssueRun = some node ∧
      node.assets.passets.newAssets.toAdd.keys = [str "ABC"] ∧ cache.newAssets.toAdd.keys = [str "DEF"] ∧
      LocalRun mainAll node.assets cache ∧ ∀ name, LookupsAgree mainAll node.assets cache name := by
  have h : (((Node.genesis .all).run mainAll abcIssueRun).bind fun node =>
      (CAssetsCache.empty.addNewAsset mainAll node.assets defAsset [] 102 102).map fun cache =>
        (node.assets.passets.newAssets.toAdd.keys, node.assets.passets.newAssets.toRemove.isEmpty,
          cache.newAssets.toAdd.keys)) = some ([str "ABC"], true, [str "DEF"]) := by
    decide +kernel
  obtain ⟨node, hrun, hnode⟩ := Option.bind_eq_some_iff.mp h
  obtain ⟨cache, hadd, hkeys⟩ := Option.map_eq_some_iff.mp hnode
  simp only [Prod.mk.injEq] at hkeys
  obtain ⟨hglobal, hremove, hlocal⟩ := hkeys
  have hcache : LocalRun mainAll node.assets cache := .single (.addNewAsset _ _ _ _ hadd)
  refine ⟨node, cache, hrun, hglobal, hlocal, hcache, (lookups_agree_iff _ rfl _ _ hcache).mpr fun name item hitem => ?_⟩
  have hname : name ∈ cache.newAssets.toAdd.keys :=
    TreeMap.mem_keys.mpr (TreeMap.mem_iff_isSome_getElem?.mpr (by rw [hitem]; rfl))
  rw [hlocal, List.mem_singleton] at hname
  refine ⟨TreeMap.getElem?_of_isEmpty hremove, fun _ _ older holder => ?_⟩
  have holder' : name ∈ node.assets.passets.newAssets.toAdd.keys :=
    TreeMap.mem_keys.mpr (TreeMap.mem_iff_isSome_getElem?.mpr (by rw [holder]; rfl))
  rw [hglobal, List.mem_singleton, hname] at holder'
  exact absurd holder' (by decide)

theorem abcReissued_lookups_differ :
    ∃ node cache, (Node.genesis .all).run mainAll
        (maturedChain ++ [.connect abcIssueBlock, .disconnect]) = some node ∧
      LocalRun (node.config mainAll) node.assets cache ∧
      cache.checkIfAssetExists (node.config mainAll) node.assets (str "ABC") true = false ∧
      cache.getAssetMetaDataIfExists node.assets (str "ABC") = none ∧
      let merged := node.assets.flush cache
      merged.passets.checkIfAssetExists (node.config mainAll) merged (str "ABC") true
          = true ∧
        merged.passets.getAssetMetaDataIfExists merged (str "ABC") = some abcAsset := by
  have h : (((Node.genesis .all).run mainAll
      (maturedChain ++ [.connect abcIssueBlock, .disconnect])).bind fun node =>
        (CAssetsCache.empty.addNewAsset (node.config mainAll) node.assets abcAsset [] 101
          102).map fun cache =>
            let merged := node.assets.flush cache
            (cache.checkIfAssetExists (node.config mainAll) node.assets (str "ABC") true,
              cache.getAssetMetaDataIfExists node.assets (str "ABC"),
              merged.passets.checkIfAssetExists (node.config mainAll) merged
                (str "ABC") true,
              merged.passets.getAssetMetaDataIfExists merged (str "ABC"))) =
      some (false, none, true, some abcAsset) := by
    decide +kernel
  obtain ⟨node, hrun, hnode⟩ := Option.bind_eq_some_iff.mp h
  obtain ⟨cache, hadd, hanswers⟩ := Option.map_eq_some_iff.mp hnode
  simp only [Prod.mk.injEq] at hanswers
  obtain ⟨hlocal, hmeta, hmerged, hmergedMeta⟩ := hanswers
  exact ⟨node, cache, hrun, .single (.addNewAsset _ _ _ _ hadd), hlocal, hmeta, hmerged, hmergedMeta⟩

end HempCore
