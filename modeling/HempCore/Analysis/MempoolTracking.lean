import HempCore.Analysis.MempoolRejection
import HempCore.Lib.Mirror
import HempCore.Model.MempoolSession

/-!
# What the memory pool tracks

The maps that say what the transactions of the pool do to assets, against the transactions that are
in it. A removal keeps every pair of maps in step but those of the tags. An acceptance does so for a
transaction whose outputs are all tracked and that issues one asset at most.
-/

set_option autoImplicit false

namespace HempCore

open Lib Std CTxMemPool

variable {pool : CTxMemPool} {hash : Uint256} {tx : CTransaction} {cfg : Config} {out : CTxOut} {P : CTxMemPool → Prop}
  {pool' : CTxMemPool} {name : Bytes} {vReissueAssets : List (Bytes × Uint256)}

/-! ## Sets of transactions under a key -/

/-- Both maps agree, and what they hold are transactions of the pool. -/
structure Tracked.MirrorsIn {K : Type} [Ord K] (t : Tracked K) (mapTx : TreeMap Uint256 CTransaction) :
    Prop where
  mirror : Mirror t.byKey t.byHash
  pooled : ∀ hash ∈ t.byHash, hash ∈ mapTx

section Tracked

variable {K : Type} [Ord K] [TransOrd K] [LawfulEqOrd K] [DecidableEq K] {t : Tracked K}
  {mapTx mapTx' : TreeMap Uint256 CTransaction}

omit [LawfulEqOrd K] [DecidableEq K] in
theorem Tracked.mirrorsIn_empty (mapTx : TreeMap Uint256 CTransaction) : (Tracked.empty : Tracked K).MirrorsIn mapTx :=
  ⟨mirror_empty, fun hash hmem => by simp [Tracked.empty] at hmem⟩

omit [TransOrd K] [LawfulEqOrd K] [DecidableEq K] in
theorem Tracked.MirrorsIn.mono (h : t.MirrorsIn mapTx) (hmono : ∀ hash ∈ mapTx, hash ∈ mapTx') : t.MirrorsIn mapTx' :=
  ⟨h.mirror, fun hash hmem => hmono hash (h.pooled hash hmem)⟩

omit [DecidableEq K] in
theorem Tracked.MirrorsIn.insert (h : t.MirrorsIn mapTx) (hexists : hash ∈ mapTx) (key : K) :
    (t.insert hash key).MirrorsIn mapTx := by
  refine ⟨h.mirror.insert key hash, fun other hmem => ?_⟩
  rw [Tracked.insert, mem_insert_key] at hmem
  rcases hmem with rfl | hmem
  · exact hexists
  · exact h.pooled other hmem

theorem mem_getD_modify (m : TreeMap K (TreeSet Uint256)) (key k : K) (h : Uint256) :
    h ∈ (m.modify key (·.erase hash)).getD k ∅ ↔ h ∈ m.getD k ∅ ∧ ¬(k = key ∧ h = hash) := by
  rw [TreeMap.getD_modify, TreeMap.getD_eq_getD_getElem?]
  by_cases heq : k = key
  · subst heq
    cases m[k]? with
    | none => simp
    | some hashes => simp [and_comm, eq_comm (a := hash)]
  · simp [heq, Ne.symm heq]

theorem mem_getD_dropFrom (m : TreeMap K (TreeSet Uint256)) (key k : K) (h : Uint256) :
    h ∈ (Tracked.dropFrom hash m key).getD k ∅ ↔ h ∈ m.getD k ∅ ∧ ¬(k = key ∧ h = hash) := by
  rw [Tracked.dropFrom, TreeMap.getD_eq_getD_getElem?, TreeMap.getD_eq_getD_getElem?]
  cases hm : m[key]? with
  | none =>
    by_cases heq : k = key
    · subst heq
      simp [hm]
    · simp [heq]
  | some hashes =>
    by_cases heq : k = key
    · subst heq
      simp only [hm]
      split_ifs with hempty
      · -- the set that is taken away had no other member
        have hnone := TreeSet.isEmpty_iff_forall_not_mem.mp hempty h
        rw [mem_erase_iff, not_and_or, not_not] at hnone
        rcases hnone with rfl | hnone
        · simp
        · simp [hnone]
      · simp [and_comm, eq_comm (a := hash)]
    · simp only
      split_ifs
      · simp [getElem?_erase_eq, heq]
      · simp [getElem?_insert_eq, heq]

omit [DecidableEq K] in
/-- A removal that takes a transaction from the sets of all its keys. -/
theorem Tracked.MirrorsIn.drop (h : t.MirrorsIn mapTx) (hpool : ∀ other, other ≠ hash → other ∈ mapTx → other ∈ mapTx')
    {f : TreeMap K (TreeSet Uint256) → K → TreeMap K (TreeSet Uint256)}
    (hf : ∀ m key k h, h ∈ (f m key).getD k ∅ ↔ h ∈ m.getD k ∅ ∧ ¬(k = key ∧ h = hash)) :
    Tracked.MirrorsIn ⟨(t.keysOf hash).foldl f t.byKey, t.byHash.erase hash⟩ mapTx' := by
  refine ⟨h.mirror.erase (mem_getD_foldl_drop hf _ _), fun other hmem => ?_⟩
  rw [mem_erase_key] at hmem
  exact hpool other hmem.1 (h.pooled other hmem.2)

end Tracked

/-! ## The pairs of maps of a pool -/

/-- The six pairs that a removal keeps in step, and the two of the tags while they are not in use. -/
structure TracksEntries (pool : CTxMemPool) : Prop where
  mapAddressesMarkedFrozen : pool.mapAddressesMarkedFrozen.MirrorsIn pool.mapTx
  mapAssetMarkedGlobalFrozen : pool.mapAssetMarkedGlobalFrozen.MirrorsIn pool.mapTx
  mapAddressesQualifiersChanged : pool.mapAddressesQualifiersChanged.MirrorsIn pool.mapTx
  mapAssetVerifierChanged : pool.mapAssetVerifierChanged.MirrorsIn pool.mapTx
  mapGlobalFreezingAssetTransactions : pool.mapGlobalFreezingAssetTransactions.MirrorsIn pool.mapTx
  mapGlobalUnFreezingAssetTransactions : pool.mapGlobalUnFreezingAssetTransactions.MirrorsIn pool.mapTx
  mapAddressAddedTag : pool.mapAddressAddedTag = .empty
  mapAddressRemoveTag : pool.mapAddressRemoveTag = .empty

/-- The reissues of the pool, one for each name and for each transaction. -/
structure TracksReissues (pool : CTxMemPool) : Prop where
  inverse : Inverse pool.mapReissuedAssets pool.mapReissuedTx
  pooled : ∀ hash ∈ pool.mapReissuedTx, hash ∈ pool.mapTx

/-- The name that an output brings into being, unless it is that of an owner token. -/
def issuedName (out : CTxOut) : Option Bytes :=
  (match isAssetScript out.scriptPubKey with
    | some ⟨.TX_NEW_ASSET, false, start⟩ =>
      (Reader.parse CNewAsset.read (out.scriptPubKey.drop start)).map CNewAsset.strName
    | some ⟨.TX_NEW_ASSET, true, start⟩ => Reader.parse readString (out.scriptPubKey.drop start)
    | _ => none).filter fun name => !isAssetNameAnOwner name

def CTransaction.issuedNames (tx : CTransaction) : List Bytes := tx.vout.filterMap issuedName

def CTxMemPool.Issues (pool : CTxMemPool) (hash : Uint256) (name : Bytes) : Prop :=
  ∃ tx, pool.mapTx[hash]? = some tx ∧ name ∈ tx.issuedNames

/-- The names that the pool issues; a transaction that has just been stored may not be tracked yet. -/
structure TracksIssues (pool : CTxMemPool) (untracked : Option Uint256) : Prop where
  mapAssetToHash : ∀ (name : Bytes) (hash : Uint256),
    pool.mapAssetToHash[name]? = some hash ↔ pool.Issues hash name ∧ untracked ≠ some hash
  mapHashToAsset : ∀ (name : Bytes) (hash : Uint256),
    pool.mapHashToAsset[hash]? = some name ↔ pool.Issues hash name ∧ untracked ≠ some hash

/-! ## Removals -/

theorem mem_removeUnchecked (hash : Uint256) {other : Uint256} (hne : other ≠ hash)
    (h : other ∈ pool.mapTx) : other ∈ (pool.removeUnchecked hash).mapTx := by
  rw [TreeMap.mem_iff_isSome_getElem?] at h ⊢
  rwa [removeUnchecked_mapTx, if_neg hne]

/-- A removal does something only to what is in the pool. -/
theorem removeUnchecked_of_mem (hash : Uint256) (h : P pool)
    (hmem : ∀ tx, pool.mapTx[hash]? = some tx → P (pool.removeUnchecked hash)) : P (pool.removeUnchecked hash) := by
  cases htx : pool.mapTx[hash]? with
  | none => rwa [removeUnchecked_of_none htx]
  | some tx => exact hmem tx htx

theorem forgetAsset_freeReissue_eq (pool : CTxMemPool) (hash : Uint256) :
    (pool.freeReissue hash).forgetAsset hash =
      { pool with
        mapReissuedAssets := (pool.freeReissue hash).mapReissuedAssets
        mapReissuedTx := (pool.freeReissue hash).mapReissuedTx
        mapAssetToHash := (pool.forgetAsset hash).mapAssetToHash
        mapHashToAsset := (pool.forgetAsset hash).mapHashToAsset } := by
  have hfree : pool.freeReissue hash =
      { pool with
        mapReissuedAssets := (pool.freeReissue hash).mapReissuedAssets
        mapReissuedTx := (pool.freeReissue hash).mapReissuedTx } := by
    rw [freeReissue]
    split
    · rfl
    · split_ifs <;> rfl
  rw [hfree, forgetAsset, forgetAsset]
  cases pool.mapHashToAsset[hash]? <;> rfl

theorem removeUnchecked_eq (h : pool.mapTx[hash]? = some tx) :
    (pool.removeUnchecked hash).toMempoolTracking =
      ⟨(pool.freeReissue hash).mapReissuedAssets, (pool.freeReissue hash).mapReissuedTx, (pool.forgetAsset hash).mapAssetToHash⟩ ∧
      (pool.removeUnchecked hash).mapHashToAsset = (pool.forgetAsset hash).mapHashToAsset := by
  rw [removeUnchecked, h]
  simp only [untrack, forgetAsset_freeReissue_eq]
  simp only [freeReissue, forgetAsset]
  cases pool.mapHashToAsset[hash]? <;> cases pool.mapReissuedTx[hash]? <;> simp <;> split_ifs <;> simp

theorem TracksEntries.removeUnchecked (h : TracksEntries pool) (hash : Uint256) : TracksEntries (pool.removeUnchecked hash) := by
  refine removeUnchecked_of_mem hash h fun tx hmem => ?_
  have hpool : ∀ other, other ≠ hash → other ∈ pool.mapTx → other ∈ (pool.removeUnchecked hash).mapTx :=
    fun other hne => mem_removeUnchecked hash hne
  generalize hq : pool.removeUnchecked hash = q at hpool ⊢
  rw [CTxMemPool.removeUnchecked, hmem] at hq
  simp only [untrack, forgetAsset_freeReissue_eq] at hq
  subst hq
  have htags : (Tracked.empty : Tracked (Bytes × Bytes)).eraseForward hash = .empty := rfl
  obtain ⟨h₁, h₂, h₃, h₄, h₅, h₆, htag, htag'⟩ := h
  exact ⟨h₁.drop hpool mem_getD_modify, h₂.drop hpool mem_getD_modify, h₃.drop hpool mem_getD_modify,
    h₄.drop hpool mem_getD_modify, h₅.drop hpool mem_getD_dropFrom, h₆.drop hpool mem_getD_dropFrom,
    (congrArg (Tracked.eraseForward · hash) htag).trans htags,
    (congrArg (Tracked.eraseForward · hash) htag').trans htags⟩

theorem TracksReissues.freeReissue (h : TracksReissues pool) (hash : Uint256) :
    Inverse (pool.freeReissue hash).mapReissuedAssets (pool.freeReissue hash).mapReissuedTx ∧
      ∀ other ∈ (pool.freeReissue hash).mapReissuedTx, other ≠ hash ∧ other ∈ pool.mapReissuedTx := by
  rw [CTxMemPool.freeReissue]
  cases hname : pool.mapReissuedTx[hash]? with
  | none =>
    refine ⟨h.inverse, fun other hother => ⟨?_, hother⟩⟩
    rintro rfl
    rw [← TreeMap.isSome_getElem?_iff_mem, hname] at hother
    cases hother
  | some name =>
    have hback := (h.inverse name hash).mpr hname
    have hcontains : pool.mapReissuedAssets.contains name := TreeMap.contains_iff_mem.mpr (mem_of_getElem? hback)
    simp only [hcontains, if_true]
    refine ⟨h.inverse.erase hback, fun other hother => ?_⟩
    exact mem_erase_key.mp hother

theorem TracksReissues.removeUnchecked (h : TracksReissues pool) (hash : Uint256) :
    TracksReissues (pool.removeUnchecked hash) := by
  refine removeUnchecked_of_mem hash h fun tx hmem => ?_
  obtain ⟨hinverse, hleft⟩ := h.freeReissue hash
  have heq := (removeUnchecked_eq hmem).1
  refine ⟨?_, fun other hother => ?_⟩
  · rw [heq]
    exact hinverse
  · rw [heq] at hother
    obtain ⟨hne, hold⟩ := hleft other hother
    exact mem_removeUnchecked hash hne (h.pooled other hold)

theorem issues_removeUnchecked_iff (pool : CTxMemPool) (hash other : Uint256) (name : Bytes) :
    (pool.removeUnchecked hash).Issues other name ↔ pool.Issues other name ∧ other ≠ hash := by
  rw [Issues, removeUnchecked_mapTx]
  by_cases heq : other = hash
  · simp [heq]
  · simp [heq, Issues]

theorem tracksIssues_iff {untracked : Option Uint256} : TracksIssues pool untracked ↔
    Inverse pool.mapAssetToHash pool.mapHashToAsset ∧ ∀ (name : Bytes) (hash : Uint256),
      pool.mapHashToAsset[hash]? = some name ↔ pool.Issues hash name ∧ untracked ≠ some hash :=
  ⟨fun h => ⟨fun name hash => (h.mapAssetToHash name hash).trans (h.mapHashToAsset name hash).symm,
    h.mapHashToAsset⟩, fun h => ⟨fun name hash => (h.1 name hash).trans (h.2 name hash), h.2⟩⟩

theorem Inverse.forgetAsset (h : Inverse pool.mapAssetToHash pool.mapHashToAsset) (hash : Uint256) :
    Inverse (pool.forgetAsset hash).mapAssetToHash (pool.forgetAsset hash).mapHashToAsset ∧
      ∀ other, (pool.forgetAsset hash).mapHashToAsset[other]? = if other = hash then none else pool.mapHashToAsset[other]? := by
  rw [CTxMemPool.forgetAsset]
  cases hname : pool.mapHashToAsset[hash]? with
  | none =>
    refine ⟨h, fun other => ?_⟩
    split_ifs with heq
    · rw [heq, hname]
    · rfl
  | some name => exact ⟨h.erase ((h name hash).mpr hname), fun other => getElem?_erase_eq ..⟩

theorem TracksIssues.removeUnchecked {untracked : Option Uint256} (h : TracksIssues pool untracked)
    (hash : Uint256) : TracksIssues (pool.removeUnchecked hash) untracked := by
  refine removeUnchecked_of_mem (P := fun pool => TracksIssues pool untracked) hash h fun tx hmem => ?_
  obtain ⟨hforward, hback⟩ := removeUnchecked_eq hmem
  obtain ⟨hinverse, hissues⟩ := tracksIssues_iff.mp h
  obtain ⟨hinverse', hget⟩ := Inverse.forgetAsset hinverse hash
  refine tracksIssues_iff.mpr ⟨by rwa [hforward, hback], fun name other => ?_⟩
  rw [hback, hget, issues_removeUnchecked_iff]
  by_cases heq : other = hash
  · simp [heq]
  · simp [heq, hissues]

structure Tracks (pool : CTxMemPool) (untracked : Option Uint256) : Prop where
  entries : TracksEntries pool
  reissues : TracksReissues pool
  issues : TracksIssues pool untracked

variable {untracked : Option Uint256}

theorem Tracks.sameButLinks (hsame : pool.SameButLinks pool') (h : Tracks pool untracked) : Tracks pool' untracked := by
  rw [hsame]
  exact ⟨{ h.entries with }, { h.reissues with }, { h.issues with }⟩

section

variable (h : Tracks pool untracked)
include h

theorem Tracks.removeStaged (stage : TreeSet Uint256) :
    Tracks (pool.removeStaged stage) untracked :=
  removeStaged_induction (P := fun pool => Tracks pool untracked) (fun _ _ hsame hpool => hpool.sameButLinks hsame)
    (fun _ other hpool => ⟨hpool.entries.removeUnchecked other, hpool.reissues.removeUnchecked other,
      hpool.issues.removeUnchecked other⟩) stage h

theorem Tracks.limitMempoolSize (args : AcceptArgs) : Tracks (pool.limitMempoolSize args) untracked :=
  limitMempoolSize_induction (P := fun pool => Tracks pool untracked)
    (fun _ stage hpool => hpool.removeStaged stage) args h

theorem Tracks.removeRecursive (tx : CTransaction) : Tracks (pool.removeRecursive tx) untracked := by
  rw [CTxMemPool.removeRecursive]
  split_ifs
  · exact h.removeStaged _
  · exact h.removeStaged _

theorem Tracks.removeAlone (tx : CTransaction) : Tracks (pool.removeAlone tx) untracked := by
  refine List.foldlRecOn (motive := fun pool => Tracks pool untracked) _ _ ?_ ?_
  · split_ifs
    · exact h.removeStaged _
    · exact h
  · intro pool hpool txin _
    split
    · exact hpool
    · split_ifs
      · exact hpool.removeRecursive _
      · exact hpool

theorem Tracks.removeForBlock (cfg : Config) (node : Node) (vtx : List CTransaction)
    (data : CAssetsCache) : Tracks (pool.removeForBlock cfg node vtx data) untracked := by
  have hblock : Tracks (vtx.foldl CTxMemPool.removeAlone pool) untracked :=
    List.foldlRecOn (motive := fun pool => Tracks pool untracked) _ _ h fun _ hpool tx _ => hpool.removeAlone tx
  exact List.foldlRecOn (motive := fun pool => Tracks pool untracked) _ _ hblock fun _ hpool tx _ => hpool.removeAlone tx

theorem Tracks.freeReissuesOf (vtx : List CTransaction) :
    Tracks (pool.freeReissuesOf vtx) untracked := by
  refine List.foldlRecOn (motive := fun pool => Tracks pool untracked) _ _ h ?_
  intro pool hpool tx _
  cases hname : pool.mapReissuedTx[tx.hash]? with
  | none => exact hpool
  | some name =>
    have hinverse := hpool.reissues.inverse
    refine ⟨{ hpool.entries with }, ⟨hinverse.erase ((hinverse name tx.hash).mpr hname), fun other hother => ?_⟩,
      { hpool.issues with }⟩
    exact hpool.reissues.pooled other (mem_erase_key.mp hother).2

end

/-! ## Storing a transaction -/

theorem Tracks.addUnchecked (h : Tracks pool none) (hnew : pool.mapTx[tx.hash]? = none) :
    Tracks (pool.addUnchecked tx) (some tx.hash) := by
  refine Tracks.sameButLinks (addUnchecked_sameButLinks pool tx) ?_
  generalize hq : ({ pool with
    mapTx := pool.mapTx.insertIfNew tx.hash tx
    mapNextTx := tx.vin.foldl (fun m (txin : CTxIn) => m.insertIfNew txin.prevout tx) pool.mapNextTx } : CTxMemPool) = q
  have hget : ∀ k, q.mapTx[k]? = if k = tx.hash then some tx else pool.mapTx[k]? := by
    intro k
    rw [← hq, getElem?_insertIfNew_eq]
    split_ifs with heq
    · rw [heq, hnew]
      rfl
    · rfl
  have hmono : ∀ hash ∈ pool.mapTx, hash ∈ q.mapTx := by
    intro hash hmem
    rw [← TreeMap.isSome_getElem?_iff_mem, hget]
    split_ifs
    · rfl
    · exact TreeMap.isSome_getElem?_iff_mem.mpr hmem
  -- the new entry is the one that is not tracked
  have hissues : ∀ name hash, (pool.Issues hash name ∧ none ≠ some hash) ↔ q.Issues hash name ∧ some tx.hash ≠ some hash := by
    intro name hash
    rw [Issues, Issues, hget]
    by_cases heq : hash = tx.hash
    · simp [heq, hnew]
    · simp [heq, Ne.symm heq]
  obtain ⟨⟨h₁, h₂, h₃, h₄, h₅, h₆, htag, htag'⟩, hreissues, htracked⟩ := h
  subst hq
  exact ⟨⟨h₁.mono hmono, h₂.mono hmono, h₃.mono hmono, h₄.mono hmono, h₅.mono hmono, h₆.mono hmono, htag, htag'⟩,
    ⟨hreissues.inverse, fun hash hmem => hmono hash (hreissues.pooled hash hmem)⟩,
    ⟨fun name hash => (htracked.mapAssetToHash name hash).trans (hissues name hash),
      fun name hash => (htracked.mapHashToAsset name hash).trans (hissues name hash)⟩⟩

theorem Tracks.store (h : Tracks pool none) (hnew : pool.mapTx[tx.hash]? = none) (args : AcceptArgs)
    (allConflicting : TreeSet Uint256) : Tracks (pool.store args tx allConflicting) (some tx.hash) := by
  have hadded := (h.removeStaged allConflicting).addUnchecked (removeStaged_mapTx_none allConflicting hnew)
  rw [CTxMemPool.store]
  split_ifs
  · exact hadded
  · exact hadded.limitMempoolSize args

/-- What does not read the entries and survives their removal survives the storing of a transaction. -/
theorem store_induction (hmaps : ∀ pool mapTx mapNextTx mapLinks, P pool →
      P { pool with mapTx := mapTx, mapNextTx := mapNextTx, mapLinks := mapLinks })
    (hremove : ∀ pool hash, P pool → P (pool.removeUnchecked hash)) (args : AcceptArgs) (tx : CTransaction)
    (allConflicting : TreeSet Uint256) (h : P pool) : P (pool.store args tx allConflicting) := by
  have hlinks : ∀ pool pool', SameButLinks pool pool' → P pool → P pool' := by
    intro pool pool' hsame hpool
    rw [hsame]
    exact hmaps pool pool.mapTx pool.mapNextTx pool'.mapLinks hpool
  have hstaged : ∀ pool stage, P pool → P (pool.removeStaged stage) :=
    fun pool stage => removeStaged_induction hlinks hremove stage
  have hadded : P ((pool.removeStaged allConflicting).addUnchecked tx) :=
    hlinks _ _ (addUnchecked_sameButLinks _ tx) (hmaps _ _ _ _ (hstaged pool allConflicting h))
  rw [store]
  split_ifs
  · exact hadded
  · exact limitMempoolSize_induction hstaged args hadded

theorem store_noReissue (args : AcceptArgs) (allConflicting : TreeSet Uint256)
    (h : pool.mapReissuedAssets[name]? = none ∧ pool.mapReissuedTx[hash]? = none) :
    (pool.store args tx allConflicting).mapReissuedAssets[name]? = none ∧
      (pool.store args tx allConflicting).mapReissuedTx[hash]? = none := by
  refine store_induction (P := fun pool => pool.mapReissuedAssets[name]? = none ∧
    pool.mapReissuedTx[hash]? = none) (fun _ _ _ _ hpool => hpool) ?_ args tx allConflicting h
  intro pool other hpool
  refine removeUnchecked_of_mem (P := fun pool => pool.mapReissuedAssets[name]? = none ∧
    pool.mapReissuedTx[hash]? = none) other hpool fun tx hmem => ?_
  rw [(removeUnchecked_eq hmem).1]
  simp only [freeReissue]
  split
  · exact hpool
  · split_ifs
    · simp [getElem?_erase_eq, hpool]
    · exact hpool

section Keys

variable {K : Type} [Ord K] [TransOrd K] [LawfulEqOrd K]

theorem mem_of_mem_dropFrom {m : TreeMap K (TreeSet Uint256)} {key k : K}
    (h : k ∈ Tracked.dropFrom hash m key) : k ∈ m := by
  rw [Tracked.dropFrom] at h
  cases hm : m[key]? with
  | none => rwa [hm] at h
  | some hashes =>
    simp only [hm] at h
    split_ifs at h
    · exact (mem_erase_key.mp h).2
    · rcases mem_insert_key.mp h with rfl | h
      · exact mem_of_getElem? hm
      · exact h

theorem not_contains_foldl_dropFrom {m : TreeMap K (TreeSet Uint256)} {k : K} (keys : List K)
    (h : m.contains k = false) : (keys.foldl (Tracked.dropFrom hash) m).contains k = false := by
  refine List.foldlRecOn (motive := fun m : TreeMap K (TreeSet Uint256) => m.contains k = false) _ _ h ?_
  intro m hm key _
  rw [← Bool.not_eq_true, TreeMap.contains_iff_mem] at hm ⊢
  exact fun hmem => hm (mem_of_mem_dropFrom hmem)

end Keys

theorem store_tracks {key : TrackedKey} (args : AcceptArgs) (allConflicting : TreeSet Uint256)
    (h : pool.tracks key = false) : (pool.store args tx allConflicting).tracks key = false := by
  refine store_induction (P := fun pool => pool.tracks key = false) ?_ ?_ args tx allConflicting h
  · intro pool mapTx mapNextTx mapLinks hpool
    cases key <;> exact hpool
  · intro pool other hpool
    refine removeUnchecked_of_mem (P := fun pool => pool.tracks key = false) other hpool fun tx hmem => ?_
    rw [removeUnchecked, hmem]
    simp only [untrack, forgetAsset_freeReissue_eq]
    cases key <;> exact not_contains_foldl_dropFrom _ hpool

theorem store_mapTx (hnew : pool.mapTx[tx.hash]? = none) (args : AcceptArgs) (allConflicting : TreeSet Uint256)
    {other : CTransaction} (h : (pool.store args tx allConflicting).mapTx[tx.hash]? = some other) : other = tx := by
  have hkeep : ∀ (p : CTxMemPool) (stage : TreeSet Uint256),
      (∀ t, p.mapTx[tx.hash]? = some t → t = tx) → ∀ t, (p.removeStaged stage).mapTx[tx.hash]? = some t → t = tx := by
    intro p stage hp
    refine removeStaged_induction (P := fun q => ∀ t, q.mapTx[tx.hash]? = some t → t = tx) ?_ ?_ stage hp
    · intro q q' hsame hq
      rw [hsame]
      exact hq
    · intro q hash hq t ht
      rw [removeUnchecked_mapTx] at ht
      split_ifs at ht
      exact hq t ht
  have hadded : ∀ t, ((pool.removeStaged allConflicting).addUnchecked tx).mapTx[tx.hash]? = some t → t = tx := by
    intro t ht
    rw [addUnchecked_sameButLinks] at ht
    simp only [getElem?_insertIfNew_eq, if_true, removeStaged_mapTx_none allConflicting hnew, Option.getD_none] at ht
    exact (Option.some.inj ht).symm
  rw [store] at h
  split_ifs at h
  · exact hadded other h
  · exact limitMempoolSize_induction (P := fun q => ∀ t, q.mapTx[tx.hash]? = some t → t = tx) hkeep args hadded other h

/-! ## Tracking it -/

theorem issuedName_eq (cfg : Config) (out : CTxOut) : issuedName out = (getAssetData cfg out.scriptPubKey).bind fun data =>
      if data.type = .TX_NEW_ASSET ∧ !isAssetNameAnOwner data.assetName then some data.assetName else none := by
  rw [issuedName, getAssetData]
  cases hs : isAssetScript out.scriptPubKey with
  | none => rfl
  | some a =>
    obtain ⟨nType, fIsOwner, start⟩ := a
    have hstart : payloadStart nType fIsOwner out.scriptPubKey = some start := by
      simp [payloadStart, hs]
    rcases isAssetScript_cases hs with ⟨rfl, rfl⟩ | ⟨rfl, rfl⟩ | ⟨rfl, rfl⟩ | ⟨rfl, rfl⟩
    · simp [Option.bind_map]
    · simp only [assetFromScript, hstart]
      cases hparse : Reader.parse CNewAsset.read (out.scriptPubKey.drop start) <;>
        simp [hparse, Option.filter]
    · simp only [ownerAssetFromScript, hstart]
      cases hparse : Reader.parse readString (out.scriptPubKey.drop start) <;> simp [hparse, Option.filter]
    · simp [Option.bind_map]

theorem issuedName_of_trackedKey {key : TrackedKey} (h : trackedKey cfg out = some key) : issuedName out = none := by
  rw [trackedKey] at h
  rw [issuedName]
  split_ifs at h with hasset
  all_goals rw [Option.not_isSome_iff_eq_none.mp hasset]; rfl

theorem trackOutput_issues (h : pool.trackOutput cfg hash out = .ok pool') :
    pool'.mapAssetToHash = (issuedName out).elim pool.mapAssetToHash (pool.mapAssetToHash.insert · hash) ∧
      pool'.mapHashToAsset = (issuedName out).elim pool.mapHashToAsset (pool.mapHashToAsset.insert hash) := by
  rcases trackOutput_cases h with ⟨-, rfl⟩ | ⟨key, hkey, rfl⟩
  · rw [issuedName_eq cfg]
    cases getAssetData cfg out.scriptPubKey with
    | none => exact ⟨rfl, rfl⟩
    | some data =>
      simp only [Option.elim_some, Option.bind_some, trackAsset]
      split_ifs <;> exact ⟨rfl, rfl⟩
  · rw [issuedName_of_trackedKey hkey]
    cases key <;> exact ⟨rfl, rfl⟩

theorem trackOutputs_issues_nil (cfg : Config) (hash : Uint256) (vout : List CTxOut) (pool : CTxMemPool)
    (hnone : vout.filterMap issuedName = []) :
    (trackOutputs cfg hash vout pool).1.mapAssetToHash = pool.mapAssetToHash ∧
      (trackOutputs cfg hash vout pool).1.mapHashToAsset = pool.mapHashToAsset := by
  refine trackOutputs_induction (P := fun p => p.mapAssetToHash = pool.mapAssetToHash ∧
    p.mapHashToAsset = pool.mapHashToAsset) vout ⟨rfl, rfl⟩ fun p p' hp out hout hstep => ?_
  have hissues := trackOutput_issues hstep
  rw [List.filterMap_eq_nil_iff.mp hnone out hout] at hissues
  exact ⟨hissues.1.trans hp.1, hissues.2.trans hp.2⟩

theorem trackOutputs_issues_one (vout : List CTxOut) (pool : CTxMemPool)
    (hone : vout.filterMap issuedName = [name]) (hok : (trackOutputs cfg hash vout pool).2 = .ok ()) :
    (trackOutputs cfg hash vout pool).1.mapAssetToHash = pool.mapAssetToHash.insert name hash ∧
      (trackOutputs cfg hash vout pool).1.mapHashToAsset = pool.mapHashToAsset.insert hash name := by
  induction vout generalizing pool with
  | nil => cases hone
  | cons out vout ih =>
    rw [trackOutputs] at hok ⊢
    cases h : pool.trackOutput cfg hash out with
    | error e =>
      rw [h] at hok
      cases hok
    | ok pool' =>
      rw [h] at hok
      have hout := trackOutput_issues h
      cases hname : issuedName out with
      | none =>
        rw [hname] at hout
        rw [List.filterMap_cons_none hname] at hone
        obtain ⟨hforward, hback⟩ := ih pool' hone hok
        exact ⟨by rw [hforward, hout.1]; rfl, by rw [hback, hout.2]; rfl⟩
      | some first =>
        rw [hname] at hout
        rw [List.filterMap_cons_some hname, List.cons.injEq] at hone
        obtain ⟨rfl, hrest⟩ := hone
        obtain ⟨hforward, hback⟩ := trackOutputs_issues_nil cfg hash vout pool' hrest
        exact ⟨hforward.trans hout.1, hback.trans hout.2⟩

def TrackedKey.isTag : TrackedKey → Bool
  | .addTag _ _ | .removeTag _ _ => true
  | _ => false

theorem TracksEntries.trackAsset (h : TracksEntries pool) (hmem : hash ∈ pool.mapTx) (cfg : Config)
    (data : CAssetOutputEntry) : TracksEntries (pool.trackAsset cfg hash data) := by
  rw [CTxMemPool.trackAsset]
  split_ifs
  · exact { h with
      mapAddressesQualifiersChanged := h.mapAddressesQualifiersChanged.insert hmem _
      mapAssetVerifierChanged := h.mapAssetVerifierChanged.insert hmem _ }
  · exact { h with
      mapAddressesQualifiersChanged := h.mapAddressesQualifiersChanged.insert hmem _
      mapAssetVerifierChanged := h.mapAssetVerifierChanged.insert hmem _ }
  · exact { h with }
  · exact h

theorem TracksEntries.trackKey (h : TracksEntries pool) (hmem : hash ∈ pool.mapTx) {key : TrackedKey}
    (hkey : key.isTag = false) : TracksEntries (pool.trackKey hash key) := by
  cases key with
  | freeze name =>
    exact { h with mapGlobalFreezingAssetTransactions := h.mapGlobalFreezingAssetTransactions.insert hmem _ }
  | unfreeze name =>
    exact { h with mapGlobalUnFreezingAssetTransactions := h.mapGlobalUnFreezingAssetTransactions.insert hmem _ }
  | addTag address name => cases hkey
  | removeTag address name => cases hkey

theorem TracksEntries.trackOutputs (vout : List CTxOut) (h : TracksEntries pool) (hmem : hash ∈ pool.mapTx)
    (htags : ∀ key ∈ vout.filterMap (trackedKey cfg), key.isTag = false) :
    TracksEntries (CTxMemPool.trackOutputs cfg hash vout pool).1 := by
  refine (trackOutputs_induction (P := fun p => TracksEntries p ∧ hash ∈ p.mapTx) vout ⟨h, hmem⟩ ?_).1
  intro p p' hp out hout hstep
  rcases trackOutput_cases hstep with ⟨-, rfl⟩ | ⟨key, hkey, rfl⟩
  · cases getAssetData cfg out.scriptPubKey with
    | none => exact hp
    | some data =>
      refine ⟨hp.1.trackAsset hp.2 cfg data, ?_⟩
      simp only [Option.elim_some, CTxMemPool.trackAsset]
      split_ifs <;> exact hp.2
  · refine ⟨hp.1.trackKey hp.2 (htags key (List.mem_filterMap.mpr ⟨out, hout, hkey⟩)), ?_⟩
    cases key <;> exact hp.2

theorem trackOutputs_reissues (cfg : Config) (hash : Uint256) (vout : List CTxOut) (pool : CTxMemPool) :
    (trackOutputs cfg hash vout pool).1.mapReissuedAssets = pool.mapReissuedAssets ∧
      (trackOutputs cfg hash vout pool).1.mapReissuedTx = pool.mapReissuedTx := by
  refine Prod.mk.inj (trackOutputs_frame (fun p => (p.mapReissuedAssets, p.mapReissuedTx)) (fun p data => ?_)
    (fun p key => ?_) vout pool)
  · rw [trackAsset]
    split_ifs <;> rfl
  · cases key <;> rfl

theorem TracksIssues.note (h : TracksIssues pool (some tx.hash))
    (hmem : pool.mapTx[tx.hash]? = some tx) (hone : tx.issuedNames = [name]) (hnew : pool.mapAssetToHash[name]? = none)
    (htx : pool'.mapTx = pool.mapTx) (hforward : pool'.mapAssetToHash = pool.mapAssetToHash.insert name tx.hash)
    (hback : pool'.mapHashToAsset = pool.mapHashToAsset.insert tx.hash name) : TracksIssues pool' none := by
  obtain ⟨hinverse, hissues⟩ := tracksIssues_iff.mp h
  have huntracked : pool.mapHashToAsset[tx.hash]? = none := by
    refine Option.eq_none_iff_forall_ne_some.mpr fun n hn => ?_
    exact ((hissues n tx.hash).mp hn).2 rfl
  refine tracksIssues_iff.mpr ⟨hinverse.put hnew huntracked (fun n => ?_) (fun h' => ?_), fun n h' => ?_⟩
  · rw [hforward, getElem?_insert_eq]
  · rw [hback, getElem?_insert_eq]
  · rw [hback, getElem?_insert_eq, show pool'.Issues h' n ↔ pool.Issues h' n by
      rw [Issues, Issues, htx]]
    by_cases hh : h' = tx.hash
    · simp [hh, Issues, hmem, hone, eq_comm]
    · simp [hh, hissues, Ne.symm hh]

theorem TracksIssues.note_nil (h : TracksIssues pool (some hash))
    (hnone : ∀ name, ¬pool.Issues hash name) (htx : pool'.mapTx = pool.mapTx)
    (hforward : pool'.mapAssetToHash = pool.mapAssetToHash)
    (hback : pool'.mapHashToAsset = pool.mapHashToAsset) : TracksIssues pool' none := by
  have hissues : ∀ h n, (pool.Issues h n ∧ some hash ≠ some h) ↔ pool'.Issues h n ∧ none ≠ some h := by
    intro h n
    rw [show pool'.Issues h n ↔ pool.Issues h n by rw [Issues, Issues, htx]]
    by_cases hh : h = hash
    · simp [hh, hnone]
    · simp [Ne.symm hh]
  refine ⟨fun n h' => ?_, fun n h' => ?_⟩
  · rw [hforward, h.mapAssetToHash, hissues]
  · rw [hback, h.mapHashToAsset, hissues]

theorem TracksReissues.trackReissues (h : TracksReissues pool) (hmem : hash ∈ pool.mapTx)
    (hone : vReissueAssets = [] ∨ ∃ name, vReissueAssets = [(name, hash)] ∧
      pool.mapReissuedAssets[name]? = none ∧ pool.mapReissuedTx[hash]? = none) :
    TracksReissues (pool.trackReissues vReissueAssets) := by
  rcases hone with rfl | ⟨name, rfl, hname, hhash⟩
  · exact h
  · refine ⟨h.inverse.insertIfNew hname hhash, fun other hother => ?_⟩
    have hinsert : other ∈ pool.mapReissuedTx.insertIfNew hash name := hother
    rw [TreeMap.mem_insertIfNew, LawfulEqOrd.compare_eq_iff_eq] at hinsert
    rcases hinsert with rfl | hold
    · exact hmem
    · exact h.pooled other hold

theorem track_induction {coins : Coins} (houtputs : P (if cfg.dep.assets then
      trackOutputs cfg tx.hash tx.vout (pool.trackReissues vReissueAssets)
      else (pool.trackReissues vReissueAssets, .ok ())).1)
    (hinput : ∀ pool txin, P pool → P (trackInput cfg coins tx.hash pool txin)) :
    P (pool.track cfg coins tx vReissueAssets).1 := by
  rw [track]
  generalize (if cfg.dep.assets then
      trackOutputs cfg tx.hash tx.vout (pool.trackReissues vReissueAssets)
      else (pool.trackReissues vReissueAssets, .ok ())) = tracked at houtputs
  obtain ⟨pool', result⟩ := tracked
  cases result with
  | error e => exact houtputs
  | ok _ =>
    simp only
    split_ifs
    · exact List.foldlRecOn (motive := P) _ _ houtputs fun pool hpool txin _ => hinput pool txin hpool
    · exact houtputs

theorem Tracks.trackInput (h : Tracks pool none) (hmem : hash ∈ pool.mapTx) (cfg : Config) (coins : Coins)
    (txin : CTxIn) : Tracks (CTxMemPool.trackInput cfg coins hash pool txin) none := by
  rw [CTxMemPool.trackInput]
  split
  · exact h
  · split_ifs
    · exact ⟨{ h.entries with
        mapAddressesMarkedFrozen := h.entries.mapAddressesMarkedFrozen.insert hmem _
        mapAssetMarkedGlobalFrozen := h.entries.mapAssetMarkedGlobalFrozen.insert hmem _ },
        { h.reissues with }, { h.issues with }⟩
    · exact h

/-- A stored transaction that issues one name at most, carries no tag and is not refused halfway is
tracked in full. -/
theorem Tracks.track {coins : Coins} (h : Tracks pool (some tx.hash)) (hmem : pool.mapTx[tx.hash]? = some tx)
    (hassets : cfg.dep.assets = false → tx.issuedNames = [])
    (htags : ∀ key ∈ trackedKeys cfg tx, key.isTag = false)
    (hreissue : vReissueAssets = [] ∨ ∃ name, vReissueAssets = [(name, tx.hash)] ∧
      pool.mapReissuedAssets[name]? = none ∧ pool.mapReissuedTx[tx.hash]? = none)
    (hissue : tx.issuedNames = [] ∨ ∃ name, tx.issuedNames = [name] ∧ pool.mapAssetToHash[name]? = none ∧
      ∀ key ∈ trackedKeys cfg tx, pool.tracks key = false)
    (hnodup : (trackedKeys cfg tx).Nodup) :
    Tracks (pool.track cfg coins tx vReissueAssets).1 none := by
  have hin := mem_of_getElem? hmem
  have hreissues := h.reissues.trackReissues hin hreissue
  obtain ⟨hwires, hkeys⟩ := trackReissues_same vReissueAssets pool
  have htx : (pool.trackReissues vReissueAssets).mapTx = pool.mapTx := congrArg Prod.fst hwires
  have hentries : TracksEntries (pool.trackReissues vReissueAssets) := by
    rcases hreissue with rfl | ⟨name, rfl, -⟩ <;> exact { h.entries with }
  have hnames : (pool.trackReissues vReissueAssets).mapAssetToHash = pool.mapAssetToHash ∧
      (pool.trackReissues vReissueAssets).mapHashToAsset = pool.mapHashToAsset := by
    rcases hreissue with rfl | ⟨name, rfl, -⟩ <;> exact ⟨rfl, rfl⟩
  suffices houtputs : Tracks (if cfg.dep.assets then
      trackOutputs cfg tx.hash tx.vout (pool.trackReissues vReissueAssets)
      else (pool.trackReissues vReissueAssets, .ok ())).1 none ∧
      tx.hash ∈ (if cfg.dep.assets then
        trackOutputs cfg tx.hash tx.vout (pool.trackReissues vReissueAssets)
        else (pool.trackReissues vReissueAssets, .ok ())).1.mapTx by
    refine (track_induction (P := fun p => Tracks p none ∧ tx.hash ∈ p.mapTx) houtputs ?_).1
    intro p txin hp
    refine ⟨hp.1.trackInput hp.2 cfg coins txin, ?_⟩
    rw [CTxMemPool.trackInput]
    split
    · exact hp.2
    · split_ifs <;> exact hp.2
  generalize pool.trackReissues vReissueAssets = reissued at hreissues hwires htx hkeys hentries hnames
  have hissued : ∀ name, tx.issuedNames = [] → ¬pool.Issues tx.hash name := by
    intro name hnil
    simp [Issues, hmem, hnil]
  by_cases hdep : cfg.dep.assets
  · simp only [hdep, if_true]
    have houtTx : (trackOutputs cfg tx.hash tx.vout reissued).1.mapTx = reissued.mapTx :=
      congrArg Prod.fst (trackOutputs_wires tx.vout reissued)
    have houtReissues := trackOutputs_reissues cfg tx.hash tx.vout reissued
    refine ⟨⟨hentries.trackOutputs tx.vout (htx ▸ hin) htags, ?_, ?_⟩, by rw [houtTx, htx]; exact hin⟩
    · refine ⟨?_, ?_⟩
      · rw [houtReissues.1, houtReissues.2]
        exact hreissues.inverse
      · rw [houtReissues.2, houtTx]
        exact hreissues.pooled
    · rcases hissue with hnil | ⟨name, hone, hnew, hfree⟩
      · have hsame := trackOutputs_issues_nil cfg tx.hash tx.vout reissued hnil
        exact h.issues.note_nil (fun name => hissued name hnil) (houtTx.trans htx)
          (hsame.1.trans hnames.1) (hsame.2.trans hnames.2)
      · have hpassed : (trackOutputs cfg tx.hash tx.vout reissued).2 = .ok () :=
          trackOutputs_passed tx.vout reissued (fun key hkey => (hkeys key).trans (hfree key hkey)) hnodup
        have hnoted := trackOutputs_issues_one tx.vout reissued hone hpassed
        rw [hnames.1, hnames.2] at hnoted
        exact h.issues.note hmem hone hnew (houtTx.trans htx) hnoted.1 hnoted.2
  · rw [if_neg hdep]
    have hnil := hassets (Bool.not_eq_true _ ▸ hdep)
    exact ⟨⟨hentries, hreissues, h.issues.note_nil (fun name => hissued name hnil) htx hnames.1 hnames.2⟩, htx ▸ hin⟩

/-! ## Accepting a transaction -/

theorem Creation.reissues_length (h : Creation cfg tx) :
    (tx.vout.filter fun out => isScriptReissueAsset out.scriptPubKey).length ≤ 1 := by
  cases h with
  | issue _ hc => rw [hc.reissues_eq]; decide
  | reissue hc => rw [hc.reissues_eq]; exact le_rfl
  | unique hc => rw [hc.reissues_eq]; decide
  | msgChannel hc => rw [hc.reissues_eq]; decide
  | qualifier hc => rw [hc.reissues_eq]; decide
  | restricted hc => rw [hc.reissues_eq]; decide
  | transfers hc => rw [hc.reissues_eq]; decide

theorem checkAssetOutput_reissues {cache : Option AssetView} {tracking : MempoolTracking} {fRunningUnitTests : Bool}
    {st st' : OutputTotals} (h : checkAssetOutput cfg cache tracking fRunningUnitTests tx st out = .ok st') :
    st'.vPairReissueAssets = st.vPairReissueAssets ∨ isScriptReissueAsset out.scriptPubKey = true ∧
      ∃ name, tracking.mapReissuedAssets[name]? = none ∧
      st'.vPairReissueAssets = st.vPairReissueAssets ++ [(name, tx.hash)] := by
  simp only [checkAssetOutput, bind_eq_ok, exists_punit] at h
  obtain ⟨-, h⟩ := h
  unfold checkOutputTransferOrReissue at h
  cases hs : isAssetScript out.scriptPubKey with
  | none =>
    simp only [hs, Option.map_none, pure_eq_ok] at h
    exact .inl (by rw [h])
  | some a =>
    obtain ⟨nType, fIsOwner, start⟩ := a
    rcases isAssetScript_cases hs with ⟨rfl, rfl⟩ | ⟨rfl, rfl⟩ | ⟨rfl, rfl⟩ | ⟨rfl, rfl⟩
    · simp only [hs, Option.map_some, bind_eq_ok, pure_eq_ok] at h
      obtain ⟨t, -, rfl⟩ := h
      exact .inl rfl
    · simp only [hs, Option.map_some, pure_eq_ok] at h
      exact .inl (by rw [h])
    · simp only [hs, Option.map_some, pure_eq_ok] at h
      exact .inl (by rw [h])
    · simp only [hs, Option.map_some, bind_eq_ok, pure_eq_ok] at h
      obtain ⟨p, -, pairs, hpairs, rfl⟩ := h
      rw [checkReissueTracking, TreeMap.get?_eq_getElem?] at hpairs
      cases hname : tracking.mapReissuedAssets[p.1.strName]? with
      | some hash =>
        simp only [hname, bind_eq_ok, exists_punit, pure_eq_ok] at hpairs
        exact .inl hpairs.2.symm
      | none =>
        simp only [hname, pure_eq_ok] at hpairs
        exact .inr ⟨by simp [isScriptReissueAsset, payloadStart, hs], p.1.strName, hname, hpairs.symm⟩

theorem reissues_of_checkTxAssets {inputs : CoinsView} {cache : Option AssetView}
    {fCheckMempool fRunningUnitTests : Bool} {tracking : MempoolTracking} {pairs : List (Bytes × Uint256)}
    (hcreation : Creation cfg tx)
    (h : checkTxAssets cfg tx inputs cache fCheckMempool tracking fRunningUnitTests = .ok pairs) :
    pairs = [] ∨ ∃ name, pairs = [(name, tx.hash)] ∧ tracking.mapReissuedAssets[name]? = none := by
  obtain ⟨-, _, st, -, hloop, -, -, rfl⟩ := checkTxAssets_ok h
  have hscan : st.vPairReissueAssets.length ≤ (tx.vout.filter fun out => isScriptReissueAsset out.scriptPubKey).length ∧
      ∀ pair ∈ st.vPairReissueAssets, pair.2 = tx.hash ∧ tracking.mapReissuedAssets[pair.1]? = none := by
    refine foldlM_prefix_invariant (fun pre (st : OutputTotals) =>
      st.vPairReissueAssets.length ≤ (pre.filter fun out => isScriptReissueAsset out.scriptPubKey).length ∧
      ∀ pair ∈ st.vPairReissueAssets, pair.2 = tx.hash ∧ tracking.mapReissuedAssets[pair.1]? = none)
      ?_ [] ⟨Nat.zero_le _, by simp⟩ hloop
    intro pre st st' out _ ⟨hlen, hpairs⟩ hstep
    rw [List.filter_append, List.length_append]
    rcases checkAssetOutput_reissues hstep with heq | ⟨hreissue, name, hnew, heq⟩
    · rw [heq]
      exact ⟨hlen.trans (Nat.le_add_right _ _), hpairs⟩
    · have hone : [out].filter (fun out => isScriptReissueAsset out.scriptPubKey) = [out] := by simp [hreissue]
      rw [heq, List.length_append, hone]
      refine ⟨Nat.add_le_add hlen le_rfl, fun pair hmem => ?_⟩
      rcases List.mem_append.mp hmem with hold | hlast
      · exact hpairs pair hold
      · obtain rfl := List.mem_singleton.mp hlast
        exact ⟨rfl, hnew⟩
  have hlen := hscan.1.trans hcreation.reissues_length
  cases hpairs : st.vPairReissueAssets with
  | nil => exact .inl rfl
  | cons pair rest =>
    rw [hpairs, List.length_cons] at hlen
    obtain rfl : rest = [] := List.length_eq_zero_iff.mp (by omega)
    obtain ⟨hhash, hnew⟩ := hscan.2 pair (by rw [hpairs]; exact List.mem_cons_self)
    exact .inr ⟨pair.1, by rw [← hhash], hnew⟩

theorem issuedNames_of_preChecked {node : Node} {allConflicting : TreeSet Uint256}
    (h : PreChecked cfg pool node tx allConflicting vReissueAssets)
    (hdep : cfg.dep.assets = false) : tx.issuedNames = [] := by
  rw [CTransaction.issuedNames, List.filterMap_eq_nil_iff]
  intro out hout
  rw [issuedName, h.plain hdep out hout]
  rfl

theorem reissues_of_preChecked {node : Node} {allConflicting : TreeSet Uint256}
    (h : PreChecked cfg pool node tx allConflicting vReissueAssets) :
    vReissueAssets = [] ∨ ∃ name, vReissueAssets = [(name, tx.hash)] ∧ pool.mapReissuedAssets[name]? = none := by
  rcases h.assets with ⟨-, hpairs⟩ | ⟨-, rfl⟩
  · exact reissues_of_checkTxAssets (creation_of_checkTransaction h.transaction) hpairs
  · exact .inl rfl

/-- The transaction issues one name at most, which is not issued in the pool; it changes no tag; and if
it issues a name, none of its other commands is one that the pool already has. -/
structure TracksWhole (cfg : Config) (pool : CTxMemPool) (tx : CTransaction) : Prop where
  issues : tx.issuedNames.length ≤ 1
  unissued : ∀ name ∈ tx.issuedNames, pool.mapAssetToHash.contains name = false
  noTag : ∀ key ∈ trackedKeys cfg tx, key.isTag = false
  unrefused : tx.issuedNames ≠ [] → ∀ key ∈ trackedKeys cfg tx, pool.tracks key = false

instance (cfg : Config) (pool : CTxMemPool) (tx : CTransaction) : Decidable (TracksWhole cfg pool tx) :=
  decidable_of_iff
    (tx.issuedNames.length ≤ 1 ∧ (∀ name ∈ tx.issuedNames, pool.mapAssetToHash.contains name = false) ∧
      (∀ key ∈ trackedKeys cfg tx, key.isTag = false) ∧
      (tx.issuedNames ≠ [] → ∀ key ∈ trackedKeys cfg tx, pool.tracks key = false))
    ⟨fun ⟨h₁, h₂, h₃, h₄⟩ => ⟨h₁, h₂, h₃, h₄⟩, fun ⟨h₁, h₂, h₃, h₄⟩ => ⟨h₁, h₂, h₃, h₄⟩⟩

theorem store_unissued (args : AcceptArgs) (allConflicting : TreeSet Uint256)
    (h : pool.mapAssetToHash[name]? = none) : (pool.store args tx allConflicting).mapAssetToHash[name]? = none := by
  refine store_induction (P := fun pool => pool.mapAssetToHash[name]? = none)
    (fun _ _ _ _ hpool => hpool) ?_ args tx allConflicting h
  intro pool other hpool
  refine removeUnchecked_of_mem (P := fun pool => pool.mapAssetToHash[name]? = none) other hpool fun tx hmem => ?_
  rw [(removeUnchecked_eq hmem).1]
  simp only [forgetAsset]
  split
  · exact hpool
  · simp [getElem?_erase_eq, hpool]

theorem Tracks.accept (h : Tracks pool none) (hwhole : TracksWhole cfg pool tx) (node : Node)
    (args : AcceptArgs) : Tracks (pool.acceptToMemoryPoolWorker cfg node args tx).1 none := by
  rw [acceptToMemoryPoolWorker]
  cases hpre : pool.preChecks cfg node args tx with
  | error e => exact h
  | ok result =>
    obtain ⟨allConflicting, vReissueAssets⟩ := result
    have hchecked := preChecks_ok hpre
    have hnew := hchecked.new
    have hstored := h.store hnew args allConflicting
    have hunder : ∀ other, (pool.store args tx allConflicting).mapTx[tx.hash]? = some other → other = tx :=
      fun other => store_mapTx hnew args allConflicting
    simp only
    split_ifs with htest hfull
    · exact h
    · -- trimmed at once: what issues nothing any more need not be tracked
      simp only [Bool.and_eq_true, Bool.not_eq_true'] at hfull
      have hgone : (pool.store args tx allConflicting).mapTx[tx.hash]? = none := by
        by_contra hsome
        rw [existsTx_iff_ne_none.mpr hsome] at hfull
        cases hfull.2
      refine ⟨hstored.entries, hstored.reissues, hstored.issues.note_nil ?_ rfl rfl rfl⟩
      rintro name ⟨other, hother, -⟩
      rw [hgone] at hother
      cases hother
    · have hexists : (pool.store args tx allConflicting).existsTx tx.hash := by
        by_cases hbypass : args.bypass_limits
        · exact existsTx_store_of_bypass hbypass allConflicting
        · simpa [hbypass] using hfull
      obtain ⟨other, hother⟩ := existsTx_iff.mp hexists
      obtain rfl := hunder other hother
      refine hstored.track hother (issuedNames_of_preChecked hchecked) hwhole.noTag ?_ ?_ (trackedKeys_nodup_of_preChecks hpre)
      · rcases reissues_of_preChecked hchecked with rfl | ⟨name, rfl, hname⟩
        · exact .inl rfl
        · refine .inr ⟨name, rfl, store_noReissue args allConflicting ⟨hname, ?_⟩⟩
          -- a hash that is tracked is in the pool
          by_contra hsome
          have hin := h.reissues.pooled other.hash (TreeMap.isSome_getElem?_iff_mem.mp (Option.isSome_iff_ne_none.mpr hsome))
          rw [← TreeMap.isSome_getElem?_iff_mem, hnew] at hin
          cases hin
      · cases hnames : other.issuedNames with
        | nil => exact .inl rfl
        | cons name rest =>
          have hlen := hwhole.issues
          rw [hnames, List.length_cons] at hlen
          obtain rfl : rest = [] := List.length_eq_zero_iff.mp (by omega)
          have hfree := hwhole.unissued name (by rw [hnames]; exact List.mem_cons_self)
          rw [TreeMap.contains_eq_isSome_getElem?, Option.isSome_eq_false_iff, Option.isNone_iff_eq_none] at hfree
          exact .inr ⟨name, rfl, store_unissued args allConflicting hfree, fun key hkey =>
            store_tracks args allConflicting (hwhole.unrefused (by rw [hnames]; simp) key hkey)⟩

/-! ## Sessions -/

/-- All maps hold what the pool holds: each forward map is the inverse of its map back, the hashes are
those of transactions of the pool, and a name is tracked when one of them issues it. -/
structure Mirrored (pool : CTxMemPool) : Prop where
  issues : Inverse pool.mapAssetToHash pool.mapHashToAsset
  issuesPooled : ∀ hash ∈ pool.mapHashToAsset, hash ∈ pool.mapTx
  issued : ∀ name, name ∈ pool.mapAssetToHash ↔ ∃ hash, pool.Issues hash name
  reissues : Inverse pool.mapReissuedAssets pool.mapReissuedTx
  reissuesPooled : ∀ hash ∈ pool.mapReissuedTx, hash ∈ pool.mapTx
  mapAddressesMarkedFrozen : pool.mapAddressesMarkedFrozen.MirrorsIn pool.mapTx
  mapAssetMarkedGlobalFrozen : pool.mapAssetMarkedGlobalFrozen.MirrorsIn pool.mapTx
  mapAddressesQualifiersChanged : pool.mapAddressesQualifiersChanged.MirrorsIn pool.mapTx
  mapAssetVerifierChanged : pool.mapAssetVerifierChanged.MirrorsIn pool.mapTx
  mapGlobalFreezingAssetTransactions : pool.mapGlobalFreezingAssetTransactions.MirrorsIn pool.mapTx
  mapGlobalUnFreezingAssetTransactions : pool.mapGlobalUnFreezingAssetTransactions.MirrorsIn pool.mapTx
  mapAddressAddedTag : pool.mapAddressAddedTag.MirrorsIn pool.mapTx
  mapAddressRemoveTag : pool.mapAddressRemoveTag.MirrorsIn pool.mapTx

theorem Tracks.mirrored (h : Tracks pool none) : Mirrored pool := by
  obtain ⟨⟨h₁, h₂, h₃, h₄, h₅, h₆, htag, htag'⟩, hreissues, hissues⟩ := h
  refine ⟨fun name hash => ?_, fun hash hmem => ?_, fun name => ?_, hreissues.inverse, hreissues.pooled,
    h₁, h₂, h₃, h₄, h₅, h₆, ?_, ?_⟩
  · rw [hissues.mapAssetToHash, hissues.mapHashToAsset]
  · rw [TreeMap.mem_iff_isSome_getElem?, Option.isSome_iff_exists] at hmem
    obtain ⟨name, hname⟩ := hmem
    obtain ⟨⟨tx, htx, -⟩, -⟩ := (hissues.mapHashToAsset name hash).mp hname
    exact mem_of_getElem? htx
  · rw [TreeMap.mem_iff_isSome_getElem?, Option.isSome_iff_exists]
    simp [hissues.mapAssetToHash]
  · rw [htag]
    exact Tracked.mirrorsIn_empty _
  · rw [htag']
    exact Tracked.mirrorsIn_empty _

theorem tracks_empty : Tracks .empty none := by
  have hissues : ∀ hash name, ¬CTxMemPool.empty.Issues hash name := by
    intro hash name
    simp [Issues, CTxMemPool.empty]
  refine ⟨⟨Tracked.mirrorsIn_empty _, Tracked.mirrorsIn_empty _, Tracked.mirrorsIn_empty _,
    Tracked.mirrorsIn_empty _, Tracked.mirrorsIn_empty _, Tracked.mirrorsIn_empty _, rfl, rfl⟩,
    ⟨inverse_empty, fun hash hmem => ?_⟩, ⟨fun name hash => ?_, fun name hash => ?_⟩⟩
  · simp [CTxMemPool.empty, MempoolTracking.empty] at hmem
  · exact iff_of_false (by simp [CTxMemPool.empty, MempoolTracking.empty]) fun h => hissues hash name h.1
  · exact iff_of_false (by simp [CTxMemPool.empty]) fun h => hissues hash name h.1

theorem tracks_of_reissues {mapReissuedAssets : TreeMap Bytes Uint256}
    {mapReissuedTx : TreeMap Uint256 Bytes} (hinverse : Inverse mapReissuedAssets mapReissuedTx)
    (hempty : ∀ hash, hash ∉ mapReissuedTx) :
    Tracks { CTxMemPool.empty with mapReissuedAssets := mapReissuedAssets, mapReissuedTx := mapReissuedTx }
      none := by
  obtain ⟨hentries, -, hissues⟩ := tracks_empty
  exact ⟨{ hentries with }, ⟨hinverse, fun hash hmem => absurd hmem (hempty hash)⟩, { hissues with }⟩

namespace PoolSession

/-- A transaction is tracked as a whole, and the pool is emptied and the process restarted only while no
reissue is tracked, or none is on disk. -/
def TracksEvent (cfg : Config) (s : PoolSession) : Event → Prop
  | .accept _ tx => TracksWhole (s.node.config cfg) s.pool tx
  | .clear => s.pool.mapReissuedTx.isEmpty
  | .restart _ => s.stored.isEmpty
  | _ => True

instance (cfg : Config) (s : PoolSession) : ∀ event : Event, Decidable (s.TracksEvent cfg event)
  | .accept _ tx => inferInstanceAs (Decidable (TracksWhole (s.node.config cfg) s.pool tx))
  | .clear => inferInstanceAs (Decidable (s.pool.mapReissuedTx.isEmpty = true))
  | .restart _ => inferInstanceAs (Decidable (s.stored.isEmpty = true))
  | .connect _ | .removeRecursive _ | .removeForReorg _ | .limitMempoolSize _ | .updateTransactionsFromBlock _
  | .flushStateToDisk | .other _ => isTrue trivial

theorem tracks_step {s s' : PoolSession} {event : Event} (h : Tracks s.pool none)
    (hevent : s.TracksEvent cfg event) (hstep : s.step cfg event = some s') : Tracks s'.pool none := by
  cases event with
  | accept args tx =>
    obtain rfl := Option.some.inj hstep
    exact h.accept hevent s.node args
  | connect block =>
    obtain ⟨t, ht, rfl⟩ := Option.map_eq_some_iff.mp hstep
    cases hconnect : (⟨s.node, s.pool⟩ : PoolNode).connectTip cfg block with
    | error e =>
      rw [hconnect] at ht
      cases ht
    | ok t' =>
      rw [hconnect] at ht
      obtain rfl := Option.some.inj ht
      simp only [PoolNode.connectTip, bind_eq_ok, pure_eq_ok] at hconnect
      obtain ⟨node, -, st, -, rfl⟩ := hconnect
      exact (h.freeReissuesOf block.vtx).removeForBlock _ _ _ _
  | removeRecursive tx =>
    obtain rfl := Option.some.inj hstep
    exact h.removeRecursive tx
  | removeForReorg txToRemove =>
    obtain rfl := Option.some.inj hstep
    exact h.removeStaged _
  | limitMempoolSize args =>
    obtain rfl := Option.some.inj hstep
    exact h.limitMempoolSize args
  | updateTransactionsFromBlock mapLinks =>
    obtain rfl := Option.some.inj hstep
    exact h.sameButLinks rfl
  | clear =>
    obtain rfl := Option.some.inj hstep
    exact tracks_of_reissues h.reissues.inverse (TreeMap.isEmpty_iff_forall_not_mem.mp hevent)
  | flushStateToDisk =>
    rw [step] at hstep
    obtain ⟨node, -, rfl⟩ := Option.map_eq_some_iff.mp hstep
    exact h
  | restart node =>
    obtain rfl := Option.some.inj hstep
    have hstored : s.stored.isEmpty := hevent
    have hnone : ∀ name : Bytes, s.stored[name]? = none := fun name => TreeMap.getElem?_of_isEmpty hstored
    have hlist : s.stored.toList = [] := by
      rw [← List.isEmpty_iff, TreeMap.isEmpty_toList]
      exact hstored
    show Tracks (readReissuedMempoolState s.stored) none
    rw [readReissuedMempoolState, hlist]
    refine tracks_of_reissues (fun name hash => ?_) (fun hash => ?_)
    · simp [hnone]
    · simp
  | other action =>
    cases action with
    | connect block => cases hstep
    | dump => cases hstep
    | disconnect | touch | activate =>
      simp only [step, Option.map_eq_some_iff] at hstep
      obtain ⟨node, -, rfl⟩ := hstep
      exact h

/-- In every run of such events the tracking maps mirror the pool. -/
theorem session_mirrored (cfg : Config) (s s' : PoolSession) (events : List Event) (hempty : s.pool = .empty)
    (hevents : Along (step cfg) (TracksEvent cfg) s events) (hrun : s.run cfg events = some s') :
    Mirrored s'.pool := by
  have hstart : Tracks s.pool none := hempty ▸ tracks_empty
  exact Tracks.mirrored (run_invariant (I := fun s : PoolSession => Tracks s.pool none)
    (fun _ _ _ hs hevent hstep => tracks_step hs hevent hstep) hstart hevents hrun)

def matured (events : List Event) : List Event :=
  (List.range 100).map (fun i => .connect ⟨i + 1, [coinbaseAt (i + 1)]⟩) ++ events

def atGenesis : PoolSession := ⟨.genesis .all, .empty, ∅⟩

/-- An issue that enters the pool after it has been emptied and written out. -/
def issueEvents : List Event := matured [.clear, .flushStateToDisk, .accept .lenient abcIssueTx]

theorem issueEvents_mirrored :
    ∃ s, atGenesis.run mainAll issueEvents = some s ∧
      Along (step mainAll) (TracksEvent mainAll) atGenesis issueEvents ∧
      s.pool.mapAssetToHash[str "ABC"]? = some abcIssueTx.hash ∧ Mirrored s.pool := by
  have hrun : (atGenesis.run mainAll issueEvents).map (fun s => s.pool.mapAssetToHash[str "ABC"]?) =
      some (some abcIssueTx.hash) := by decide +kernel
  have halong : Along (step mainAll) (TracksEvent mainAll) atGenesis issueEvents := by
    decide +kernel
  obtain ⟨s, hs, hname⟩ := Option.map_eq_some_iff.mp hrun
  exact ⟨s, hs, halong, hname, session_mirrored mainAll atGenesis s issueEvents rfl halong hs⟩

/-- A call in which the addition of the tag is found to have expired. -/
def tagExpired : AcceptArgs := { AcceptArgs.lenient with expired := [tagBobTx.hash] }

def tagEvents : List Event :=
  matured [.connect ⟨101, [coinbaseAt 101, tagIssueTx]⟩, .accept .lenient tagBobTx,
    .limitMempoolSize tagExpired]

/-- The hash of a transaction that expired stays under the tags. -/
theorem expired_tag_tracked :
    ∃ s, atGenesis.run mainAll tagEvents = some s ∧ s.pool.existsTx tagBobTx.hash = false ∧
      s.pool.mapAddressAddedTag.byHash.contains tagBobTx.hash = true ∧ ¬Mirrored s.pool := by
  have hrun : (atGenesis.run mainAll tagEvents).map (fun s =>
      (s.pool.existsTx tagBobTx.hash, s.pool.mapAddressAddedTag.byHash.contains tagBobTx.hash)) =
      some (false, true) := by decide +kernel
  obtain ⟨s, hs, hvalues⟩ := Option.map_eq_some_iff.mp hrun
  obtain ⟨hgone, hkept⟩ := Prod.mk.inj hvalues
  refine ⟨s, hs, hgone, hkept, fun hmirrored => ?_⟩
  have hpooled := hmirrored.mapAddressAddedTag.pooled tagBobTx.hash (TreeMap.contains_iff_mem.mp hkept)
  rw [← TreeMap.contains_iff_mem] at hpooled
  exact absurd (hgone.symm.trans hpooled) (by decide)

end PoolSession

end HempCore
