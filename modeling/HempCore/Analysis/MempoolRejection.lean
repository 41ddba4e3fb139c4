import HempCore.Analysis.Mempool
import HempCore.Analysis.Tags

/-!
# Rejected transactions

`AcceptToMemoryPoolWorker` stores a transaction before it looks whether the pool tracks the commands
in its outputs already. A transaction refused there stays in the pool; one refused anywhere else has
left no trace.
-/

set_option autoImplicit false

namespace HempCore

open Lib Std CTxMemPool

variable {pool : CTxMemPool} {hash : Uint256} {tx : CTransaction} {pool' : CTxMemPool}

/-! ## Traces -/

section Tracked

variable {K : Type} [Ord K] [TransOrd K] [LawfulEqOrd K] {t : Tracked K}

def NotListed (m : TreeMap K (TreeSet Uint256)) (hash : Uint256) : Prop :=
  ∀ (key : K) (hashes : TreeSet Uint256), m[key]? = some hashes → hash ∉ hashes

/-- A hash occurs in neither of two maps. -/
structure Tracked.Absent (t : Tracked K) (hash : Uint256) : Prop where
  byKey : NotListed t.byKey hash
  byHash : t.byHash[hash]? = none

omit [LawfulEqOrd K] in
theorem NotListed.modify {m : TreeMap K (TreeSet Uint256)} (h : NotListed m hash) (key : K)
    (other : Uint256) : NotListed (m.modify key (·.erase other)) hash := by
  intro k hashes hget
  rw [TreeMap.getElem?_modify] at hget
  split_ifs at hget
  · obtain ⟨old, hold, rfl⟩ := Option.map_eq_some_iff.mp hget
    exact fun hmem => h key old hold (mem_erase_iff.mp hmem).2
  · exact h k hashes hget

theorem NotListed.dropFrom [DecidableEq K] {m : TreeMap K (TreeSet Uint256)} (h : NotListed m hash) (key : K)
    (other : Uint256) : NotListed (Tracked.dropFrom other m key) hash := by
  rw [Tracked.dropFrom]
  cases hm : m[key]? with
  | none => exact h
  | some old =>
    simp only
    split_ifs
    · intro k hashes hget
      rw [getElem?_erase_eq] at hget
      split_ifs at hget
      exact h k hashes hget
    · intro k hashes hget
      rw [getElem?_insert_eq] at hget
      split_ifs at hget
      · obtain rfl := Option.some.inj hget
        exact fun hmem => h key old hm (mem_erase_iff.mp hmem).2
      · exact h k hashes hget

omit [LawfulEqOrd K] in
theorem Tracked.Absent.erase (h : t.Absent hash) (other : Uint256) : (t.erase other).Absent hash where
  byKey := List.foldlRecOn (motive := fun m => NotListed m hash) _ _ h.byKey fun _ hm key _ => hm.modify key other
  byHash := by
    rw [Tracked.erase, getElem?_erase_eq, h.byHash]
    split_ifs <;> rfl

theorem Tracked.Absent.eraseEmpty [DecidableEq K] (h : t.Absent hash) (other : Uint256) :
    (t.eraseEmpty other).Absent hash where
  byKey := List.foldlRecOn (motive := fun m => NotListed m hash) _ _ h.byKey fun _ hm key _ => hm.dropFrom key other
  byHash := by
    rw [Tracked.eraseEmpty, getElem?_erase_eq, h.byHash]
    split_ifs <;> rfl

theorem Tracked.Absent.eraseForward [DecidableEq K] (h : t.Absent hash) (other : Uint256) :
    (t.eraseForward other).Absent hash where
  byKey := List.foldlRecOn (motive := fun m => NotListed m hash) _ _ h.byKey fun _ hm key _ => hm.dropFrom key other
  byHash := h.byHash

end Tracked

/-- The hash of a transaction occurs in none of the maps that track what transactions do to assets. -/
structure Untracked (pool : CTxMemPool) (hash : Uint256) : Prop where
  mapReissuedAssets : ∀ name : Bytes, pool.mapReissuedAssets[name]? ≠ some hash
  mapReissuedTx : pool.mapReissuedTx[hash]? = none
  mapAssetToHash : ∀ name : Bytes, pool.mapAssetToHash[name]? ≠ some hash
  mapHashToAsset : pool.mapHashToAsset[hash]? = none
  mapAddressesMarkedFrozen : pool.mapAddressesMarkedFrozen.Absent hash
  mapAssetMarkedGlobalFrozen : pool.mapAssetMarkedGlobalFrozen.Absent hash
  mapAddressesQualifiersChanged : pool.mapAddressesQualifiersChanged.Absent hash
  mapAssetVerifierChanged : pool.mapAssetVerifierChanged.Absent hash
  mapGlobalFreezingAssetTransactions : pool.mapGlobalFreezingAssetTransactions.Absent hash
  mapGlobalUnFreezingAssetTransactions : pool.mapGlobalUnFreezingAssetTransactions.Absent hash
  mapAddressAddedTag : pool.mapAddressAddedTag.Absent hash
  mapAddressRemoveTag : pool.mapAddressRemoveTag.Absent hash

/-- A transaction has left no trace in the pool. -/
structure Untraced (pool : CTxMemPool) (tx : CTransaction) : Prop where
  mapTx : pool.mapTx[tx.hash]? = none
  mapNextTx : ∀ (o : COutPoint) (spender : CTransaction), pool.mapNextTx[o]? = some spender →
    spender.hash ≠ tx.hash
  untracked : Untracked pool tx.hash

section Decide

variable {K V : Type} [Ord K] [TransOrd K] [LawfulEqOrd K]

theorem forall_mem_toList_iff (m : TreeMap K V) (p : V → Prop) :
    (∀ entry ∈ m.toList, p entry.2) ↔ ∀ (k : K) (v : V), m[k]? = some v → p v := by
  constructor
  · intro h k v hget
    exact h (k, v) (TreeMap.mem_toList_iff_getElem?_eq_some.mpr hget)
  · intro h entry hmem
    exact h entry.1 entry.2 (TreeMap.mem_toList_iff_getElem?_eq_some.mp hmem)

instance (m : TreeMap K (TreeSet Uint256)) : Decidable (NotListed m hash) :=
  decidable_of_iff _ (forall_mem_toList_iff m fun hashes => hash ∉ hashes)

instance (m : TreeMap K Uint256) : Decidable (∀ k : K, m[k]? ≠ some hash) :=
  decidable_of_iff (∀ entry ∈ m.toList, entry.2 ≠ hash) <| by
    rw [forall_mem_toList_iff m fun other => other ≠ hash]
    exact ⟨fun h k hk => h k hash hk rfl, fun h k v hk heq => h k (heq ▸ hk)⟩

instance (t : Tracked K) : Decidable (t.Absent hash) :=
  decidable_of_iff (NotListed t.byKey hash ∧ t.byHash[hash]? = none)
    ⟨fun h => ⟨h.1, h.2⟩, fun h => ⟨h.1, h.2⟩⟩

instance (pool : CTxMemPool) : Decidable (Untracked pool hash) :=
  decidable_of_iff
    ((∀ name, pool.mapReissuedAssets[name]? ≠ some hash) ∧ pool.mapReissuedTx[hash]? = none ∧
      (∀ name, pool.mapAssetToHash[name]? ≠ some hash) ∧ pool.mapHashToAsset[hash]? = none ∧
      pool.mapAddressesMarkedFrozen.Absent hash ∧ pool.mapAssetMarkedGlobalFrozen.Absent hash ∧
      pool.mapAddressesQualifiersChanged.Absent hash ∧ pool.mapAssetVerifierChanged.Absent hash ∧
      pool.mapGlobalFreezingAssetTransactions.Absent hash ∧
      pool.mapGlobalUnFreezingAssetTransactions.Absent hash ∧ pool.mapAddressAddedTag.Absent hash ∧
      pool.mapAddressRemoveTag.Absent hash)
    ⟨fun ⟨h₁, h₂, h₃, h₄, h₅, h₆, h₇, h₈, h₉, h₁₀, h₁₁, h₁₂⟩ => ⟨h₁, h₂, h₃, h₄, h₅, h₆, h₇, h₈, h₉, h₁₀, h₁₁, h₁₂⟩,
      fun ⟨h₁, h₂, h₃, h₄, h₅, h₆, h₇, h₈, h₉, h₁₀, h₁₁, h₁₂⟩ =>
        ⟨h₁, h₂, h₃, h₄, h₅, h₆, h₇, h₈, h₉, h₁₀, h₁₁, h₁₂⟩⟩

instance (pool : CTxMemPool) : Decidable (Untraced pool tx) :=
  decidable_of_iff
    (pool.mapTx[tx.hash]? = none ∧ (∀ entry ∈ pool.mapNextTx.toList, entry.2.hash ≠ tx.hash) ∧
      Untracked pool tx.hash) <| by
    rw [forall_mem_toList_iff pool.mapNextTx fun spender => spender.hash ≠ tx.hash]
    exact ⟨fun h => ⟨h.1, h.2.1, h.2.2⟩, fun h => ⟨h.1, h.2, h.3⟩⟩

end Decide

/-! ## Removals -/

section

variable (h : Untracked pool hash)
include h

variable (other : Uint256)

theorem Untracked.freeReissue : Untracked (pool.freeReissue other) hash := by
  rw [CTxMemPool.freeReissue]
  split
  · exact h
  · split_ifs
    · refine { h with mapReissuedAssets := fun name hget => ?_, mapReissuedTx := ?_ }
      · simp only [getElem?_erase_eq] at hget
        split_ifs at hget
        exact h.mapReissuedAssets name hget
      · simp only [getElem?_erase_eq, h.mapReissuedTx, ite_self]
    · exact h

theorem Untracked.forgetAsset : Untracked (pool.forgetAsset other) hash := by
  rw [CTxMemPool.forgetAsset]
  split
  · exact h
  · refine { h with mapAssetToHash := fun name hget => ?_, mapHashToAsset := ?_ }
    · simp only [getElem?_erase_eq] at hget
      split_ifs at hget
      exact h.mapAssetToHash name hget
    · simp only [getElem?_erase_eq, h.mapHashToAsset, ite_self]

theorem Untracked.untrack : Untracked (pool.untrack other) hash := by
  obtain ⟨h₁, h₂, h₃, h₄, h₅, h₆, h₇, h₈, h₉, h₁₀, h₁₁, h₁₂⟩ := (h.freeReissue other).forgetAsset other
  exact ⟨h₁, h₂, h₃, h₄, h₅.erase other, h₆.erase other, h₇.erase other, h₈.erase other,
    h₉.eraseEmpty other, h₁₀.eraseEmpty other, h₁₁.eraseForward other, h₁₂.eraseForward other⟩

theorem Untracked.of_maps {mapTx : TreeMap Uint256 CTransaction} {mapNextTx : TreeMap COutPoint CTransaction}
    {mapLinks : TreeMap Uint256 TxLinks} :
    Untracked { pool with mapTx := mapTx, mapNextTx := mapNextTx, mapLinks := mapLinks } hash :=
  ⟨h.1, h.2, h.3, h.4, h.5, h.6, h.7, h.8, h.9, h.10, h.11, h.12⟩

theorem Untracked.removeUnchecked : Untracked (pool.removeUnchecked other) hash := by
  rw [CTxMemPool.removeUnchecked]
  split
  · exact h
  · exact h.of_maps.untrack other

end

/-- While it is in the pool a transaction is found by nothing but what it spends, and it is not tracked
before all checks are passed. -/
structure Entering (pool : CTxMemPool) (tx : CTransaction) : Prop where
  mapNextTx : ∀ (o : COutPoint) (spender : CTransaction), pool.mapNextTx[o]? = some spender →
    spender.hash = tx.hash → o ∈ tx.vin.map CTxIn.prevout ∧ pool.mapTx[tx.hash]? = some tx
  untracked : Untracked pool tx.hash

theorem Untraced.entering (h : Untraced pool tx) : Entering pool tx :=
  ⟨fun o spender hget heq => absurd heq (h.mapNextTx o spender hget), h.untracked⟩

theorem Entering.untraced (h : Entering pool tx) (hnone : pool.mapTx[tx.hash]? = none) : Untraced pool tx := by
  refine ⟨hnone, fun o spender hget heq => ?_, h.untracked⟩
  have hsome := (h.mapNextTx o spender hget heq).2
  rw [hnone] at hsome
  cases hsome

theorem Entering.sameButLinks (hsame : pool.SameButLinks pool') (h : Entering pool tx) :
    Entering pool' tx := by
  rw [hsame]
  exact ⟨h.mapNextTx, h.untracked.of_maps⟩

theorem Entering.removeUnchecked (h : Entering pool tx) (other : Uint256) : Entering (pool.removeUnchecked other) tx := by
  refine ⟨fun o spender hget heq => ?_, h.untracked.removeUnchecked other⟩
  rw [removeUnchecked_mapNextTx] at hget
  split_ifs at hget with hspent
  obtain ⟨hmem, hsome⟩ := h.mapNextTx o spender hget heq
  refine ⟨hmem, ?_⟩
  rw [removeUnchecked_mapTx, if_neg, hsome]
  -- the transaction itself would have taken the spent output with it
  rintro rfl
  exact hspent ⟨tx, hsome, hmem⟩

theorem Entering.removeStaged (stage : TreeSet Uint256) (h : Entering pool tx) : Entering (pool.removeStaged stage) tx :=
  removeStaged_induction (P := fun pool => Entering pool tx)
    (fun _ _ hsame hpool => hpool.sameButLinks hsame) (fun _ other hpool => hpool.removeUnchecked other) stage h

theorem removeStaged_mapTx_none (stage : TreeSet Uint256) (h : pool.mapTx[hash]? = none) :
    (pool.removeStaged stage).mapTx[hash]? = none := by
  refine removeStaged_induction (P := fun pool => pool.mapTx[hash]? = none) ?_ ?_ stage h
  · intro pool pool' hsame hpool
    rw [hsame]
    exact hpool
  · intro pool other hpool
    rw [removeUnchecked_mapTx, hpool, ite_self]

theorem Untraced.addUnchecked (h : Untraced pool tx) :
    Entering (pool.addUnchecked tx) tx ∧ (pool.addUnchecked tx).mapTx[tx.hash]? = some tx := by
  rw [addUnchecked_sameButLinks pool tx]
  have hstored : (pool.mapTx.insertIfNew tx.hash tx)[tx.hash]? = some tx := by
    rw [getElem?_insertIfNew_eq, if_pos rfl, h.mapTx]
    rfl
  refine ⟨⟨fun o spender hget heq => ?_, h.untracked.of_maps⟩, hstored⟩
  simp only [getElem?_insertInputs] at hget
  split_ifs at hget with hmem
  · exact ⟨hmem, hstored⟩
  · exact absurd heq (h.mapNextTx o spender hget)

theorem entering_store (h : Untraced pool tx) (args : AcceptArgs) (allConflicting : TreeSet Uint256) :
    Entering (pool.store args tx allConflicting) tx := by
  have hremoved : Untraced (pool.removeStaged allConflicting) tx :=
    (h.entering.removeStaged allConflicting).untraced (removeStaged_mapTx_none allConflicting h.mapTx)
  rw [store]
  split_ifs
  · exact hremoved.addUnchecked.1
  · exact limitMempoolSize_induction (P := fun pool => Entering pool tx)
      (fun _ stage hpool => hpool.removeStaged stage) args hremoved.addUnchecked.1

theorem existsTx_store_of_bypass {args : AcceptArgs} (hbypass : args.bypass_limits)
    (allConflicting : TreeSet Uint256) : (pool.store args tx allConflicting).existsTx tx.hash := by
  rw [store, if_pos hbypass, existsTx_iff, addUnchecked_sameButLinks]
  simp

/-! ## Commands -/

/-- What the command of an output is tracked under. -/
inductive TrackedKey where
  | freeze (name : Bytes)
  | unfreeze (name : Bytes)
  | addTag (address name : Bytes)
  | removeTag (address name : Bytes)
deriving DecidableEq

def trackedKey (cfg : Config) (out : CTxOut) : Option TrackedKey :=
  if (isAssetScript out.scriptPubKey).isSome then none
  else if isNullGlobalRestrictionAssetTxDataScript out.scriptPubKey then
    (globalAssetNullDataFromScript out.scriptPubKey).bind fun data =>
      if data.flag = 1 then some (.freeze data.asset_name)
      else if data.flag = 0 then some (.unfreeze data.asset_name)
      else none
  else if isNullAssetTxDataScript out.scriptPubKey then
    (assetNullDataFromScript cfg out.scriptPubKey).bind fun p =>
      if !isAssetNameAQualifier p.1.asset_name false then none
      else some (if p.1.flag = 1 then .addTag p.2 p.1.asset_name else .removeTag p.2 p.1.asset_name)
  else none

def CTxMemPool.tracks (pool : CTxMemPool) : TrackedKey → Bool
  | .freeze name => pool.mapGlobalFreezingAssetTransactions.byKey.contains name
  | .unfreeze name => pool.mapGlobalUnFreezingAssetTransactions.byKey.contains name
  | .addTag address name => pool.mapAddressAddedTag.byKey.contains (address, name)
  | .removeTag address name => pool.mapAddressRemoveTag.byKey.contains (address, name)

variable {cfg : Config} {out : CTxOut}

def CTxMemPool.trackKey (pool : CTxMemPool) (hash : Uint256) : TrackedKey → CTxMemPool
  | .freeze name =>
    let t := pool.mapGlobalFreezingAssetTransactions.insert hash name
    { pool with mapGlobalFreezingAssetTransactions := t }
  | .unfreeze name =>
    let t := pool.mapGlobalUnFreezingAssetTransactions.insert hash name
    { pool with mapGlobalUnFreezingAssetTransactions := t }
  | .addTag address name =>
    let t := pool.mapAddressAddedTag.insert hash (address, name)
    { pool with mapAddressAddedTag := t }
  | .removeTag address name =>
    let t := pool.mapAddressRemoveTag.insert hash (address, name)
    { pool with mapAddressRemoveTag := t }

theorem mem_insert_byKey {K : Type} [Ord K] [TransOrd K] [LawfulEqOrd K] (t : Tracked K)
    (hash : Uint256) (key k : K) : k ∈ (t.insert hash key).byKey ↔ k ∈ t.byKey ∨ k = key := by
  rw [Tracked.insert, mem_insert_key, or_comm]

theorem trackKey_tracks (pool : CTxMemPool) (hash : Uint256) (key k : TrackedKey) :
    (pool.trackKey hash key).tracks k ↔ pool.tracks k ∨ k = key := by
  cases key <;> cases k <;> simp [trackKey, tracks, mem_insert_byKey]

theorem trackOnce_cases {K : Type} [Ord K] (t : Tracked K) (hash : Uint256) (key : K) (reason : String)
    (f : Tracked K → CTxMemPool) :
    (t.byKey.contains key = true → ∃ e, (trackOnce t hash key reason >>= fun t => pure (f t)) = .error e) ∧
      (t.byKey.contains key = false →
        (trackOnce t hash key reason >>= fun t => pure (f t)) = .ok (f (t.insert hash key))) := by
  rw [trackOnce]
  refine ⟨fun h => ⟨_, by rw [if_pos h]; rfl⟩, fun h => ?_⟩
  rw [if_neg (by simp [h])]
  rfl

/-- A command is refused when its key is tracked, and tracked otherwise. -/
theorem trackOutput_command (pool : CTxMemPool) (hash : Uint256) {key : TrackedKey} (hkey : trackedKey cfg out = some key) :
    (pool.tracks key → ∃ e, pool.trackOutput cfg hash out = .error e) ∧
      (pool.tracks key = false → pool.trackOutput cfg hash out = .ok (pool.trackKey hash key)) := by
  rw [trackedKey] at hkey
  rw [trackOutput]
  split_ifs at hkey ⊢ with hasset hglobal htag
  · obtain ⟨data, hdata, hkey⟩ := Option.bind_eq_some_iff.mp hkey
    simp only [hdata, trackGlobal]
    split_ifs at hkey ⊢ with hon hoff
    · obtain rfl := Option.some.inj hkey
      exact trackOnce_cases ..
    · obtain rfl := Option.some.inj hkey
      exact trackOnce_cases ..
  · obtain ⟨p, hdata, hkey⟩ := Option.bind_eq_some_iff.mp hkey
    simp only [hdata, trackTag]
    split_ifs at hkey ⊢ with hname hon
    · obtain rfl := Option.some.inj hkey
      exact trackOnce_cases ..
    · obtain rfl := Option.some.inj hkey
      exact trackOnce_cases ..

theorem trackOutput_plain (pool : CTxMemPool) (hash : Uint256) (hkey : trackedKey cfg out = none) :
    pool.trackOutput cfg hash out = .ok ((getAssetData cfg out.scriptPubKey).elim pool (pool.trackAsset cfg hash)) := by
  rw [trackedKey] at hkey
  rw [trackOutput]
  by_cases hasset : (isAssetScript out.scriptPubKey).isSome
  · rw [if_pos hasset]
    cases getAssetData cfg out.scriptPubKey <;> rfl
  · have hnone : getAssetData cfg out.scriptPubKey = none := by
      rw [getAssetData, Option.not_isSome_iff_eq_none.mp hasset]
    rw [if_neg hasset] at hkey ⊢
    simp only [hnone, Option.elim_none]
    split_ifs at hkey ⊢ with hglobal htag
    · cases hdata : globalAssetNullDataFromScript out.scriptPubKey with
      | none => rfl
      | some data =>
        simp only [hdata, Option.bind_some] at hkey
        split_ifs at hkey with hon hoff
        simp only [trackGlobal, if_neg hon, if_neg hoff]
        rfl
    · cases hdata : assetNullDataFromScript cfg out.scriptPubKey with
      | none => rfl
      | some p =>
        simp only [hdata, Option.bind_some] at hkey
        split_ifs at hkey with hname
        simp only [trackTag, if_pos hname]
        rfl
    · rfl

/-- What a key says about the output it comes from. -/
def TrackedKey.ReadFrom (cfg : Config) (s : Bytes) : TrackedKey → Prop
  | .freeze name | .unfreeze name => ∃ data, globalAssetNullDataFromScript s = some data ∧ data.asset_name = name
  | .addTag address name | .removeTag address name =>
    ∃ data, assetNullDataFromScript cfg s = some (data, address) ∧ data.asset_name = name

theorem trackedKey_readFrom {key : TrackedKey} (h : trackedKey cfg out = some key) : key.ReadFrom cfg out.scriptPubKey := by
  rw [trackedKey] at h
  split_ifs at h
  · obtain ⟨data, hdata, h⟩ := Option.bind_eq_some_iff.mp h
    split_ifs at h
    all_goals
      obtain rfl := Option.some.inj h
      exact ⟨data, hdata, rfl⟩
  · obtain ⟨p, hdata, h⟩ := Option.bind_eq_some_iff.mp h
    split_ifs at h
    all_goals
      obtain rfl := Option.some.inj h
      exact ⟨p.1, hdata, rfl⟩

theorem checkOutputNullAsset_new {st st' : OutputScan} (h : checkOutputNullAsset cfg st out = .ok st') :
    (∀ data address, assetNullDataFromScript cfg out.scriptPubKey = some (data, address) →
      (data.asset_name, address) ∉ st.nullDataPairs) ∧
    (∀ data, globalAssetNullDataFromScript out.scriptPubKey = some data → data.asset_name ∉ st.setNullGlobalAssetChanges) := by
  unfold checkOutputNullAsset at h
  simp only at h
  constructor
  · intro data address hdata
    have hscript : isNullAssetTxDataScript out.scriptPubKey := by
      rw [assetNullDataFromScript] at hdata
      split_ifs at hdata with hscript
      exact hscript
    simp only [if_pos hscript, bind_eq_ok, exists_punit, hdata, demand_eq_ok, require_eq_ok,
      orElseError_eq_ok, Option.some.injEq, exists_eq_left', Bool.not_eq_true', pure_eq_ok] at h
    rw [← TreeSet.contains_iff_mem, h.2.1]
    exact Bool.false_ne_true
  · intro data hdata
    have hscript : isNullGlobalRestrictionAssetTxDataScript out.scriptPubKey := by
      rw [globalAssetNullDataFromScript] at hdata
      split_ifs at hdata with hscript
      exact hscript
    have hother : ¬isNullAssetTxDataScript out.scriptPubKey := by
      simp only [isNullGlobalRestrictionAssetTxDataScript, Bool.and_eq_true, beq_iff_eq] at hscript
      simp only [isNullAssetTxDataScript, Bool.and_eq_true, beq_iff_eq, not_and]
      intro _ hbyte
      exact absurd (hscript.1.2.symm.trans hbyte) (by decide)
    simp only [if_neg hother, if_pos hscript, bind_eq_ok, exists_punit, hdata, demand_eq_ok, require_eq_ok,
      orElseError_eq_ok, Option.some.injEq, exists_eq_left', Bool.not_eq_true', pure_eq_ok] at h
    rw [← TreeSet.contains_iff_mem, h.2.1]
    exact Bool.false_ne_true

theorem trackedKeys_nodup {fMempoolCheck fBlockCheck : Bool} {scan : OutputScan}
    (h : tx.vout.foldlM (checkOutput cfg fMempoolCheck fBlockCheck) OutputScan.start = .ok scan) :
    (tx.vout.filterMap (trackedKey cfg)).Nodup := by
  suffices hboth : Scanned cfg tx.vout scan ∧ (tx.vout.filterMap (trackedKey cfg)).Nodup from hboth.2
  refine foldlM_prefix_invariant (fun pre st => Scanned cfg pre st ∧ (pre.filterMap (trackedKey cfg)).Nodup) ?_ []
    ⟨scanned_start, List.nodup_nil⟩ h
  intro pre st st' out _ hst hstep
  refine ⟨hst.1.checkOutput hstep, ?_⟩
  cases hkey : trackedKey cfg out with
  | none => simpa [List.filterMap_append, hkey] using hst.2
  | some key =>
    rw [List.filterMap_append, List.filterMap_cons_some hkey, List.filterMap_nil, List.nodup_append]
    refine ⟨hst.2, List.nodup_singleton key, ?_⟩
    rintro key' hmem _ hlast rfl
    obtain rfl := List.mem_singleton.mp hlast
    obtain ⟨other, hother, hkey'⟩ := List.mem_filterMap.mp hmem
    simp only [checkOutput, bind_eq_ok] at hstep
    obtain ⟨st₁, hvalue, st₂, hnull, -⟩ := hstep
    simp only [checkOutputValue, bind_eq_ok, exists_punit, require_eq_ok, pure_eq_ok] at hvalue
    obtain ⟨-, -, -, rfl⟩ := hvalue
    obtain ⟨hpair, hglobal⟩ := checkOutputNullAsset_new hnull
    -- the data of the second output with this key would have been refused
    have hnew := trackedKey_readFrom hkey
    have hold := trackedKey_readFrom hkey'
    cases key' with
    | freeze name | unfreeze name =>
      obtain ⟨data, hdata, rfl⟩ := hnew
      obtain ⟨data', hdata', heq⟩ := hold
      exact hglobal data hdata (heq ▸ hst.1.globals other hother data' hdata')
    | addTag address name | removeTag address name =>
      obtain ⟨data, hdata, rfl⟩ := hnew
      obtain ⟨data', hdata', heq⟩ := hold
      exact hpair data address hdata (heq ▸ hst.1.pairs other hother data' address hdata')

/-! ## The outputs of a transaction -/

/-- An output adds its asset or its command. -/
theorem trackOutput_cases (h : pool.trackOutput cfg hash out = .ok pool') :
    (trackedKey cfg out = none ∧ pool' = (getAssetData cfg out.scriptPubKey).elim pool (pool.trackAsset cfg hash)) ∨
      ∃ key, trackedKey cfg out = some key ∧ pool' = pool.trackKey hash key := by
  cases hkey : trackedKey cfg out with
  | none => exact .inl ⟨rfl, Except.ok.inj (h.symm.trans (trackOutput_plain pool hash hkey))⟩
  | some key =>
    obtain ⟨hrefused, hpassed⟩ := trackOutput_command pool hash hkey
    have hfalse : pool.tracks key = false := by
      rw [← Bool.not_eq_true]
      intro htracks
      obtain ⟨e, he⟩ := hrefused htracks
      cases he.symm.trans h
    exact .inr ⟨key, rfl, Except.ok.inj (h.symm.trans (hpassed hfalse))⟩

/-- The asset of an output is no command. -/
theorem noteAsset_tracks (cfg : Config) (pool : CTxMemPool) (hash : Uint256) (out : CTxOut) (key : TrackedKey) :
    ((getAssetData cfg out.scriptPubKey).elim pool (pool.trackAsset cfg hash)).tracks key = pool.tracks key := by
  cases getAssetData cfg out.scriptPubKey with
  | none => rfl
  | some data =>
    simp only [Option.elim_some, trackAsset]
    split_ifs <;> cases key <;> rfl

theorem trackOutput_tracks (h : pool.trackOutput cfg hash out = .ok pool') (k : TrackedKey) :
    pool'.tracks k ↔ pool.tracks k ∨ trackedKey cfg out = some k := by
  rcases trackOutput_cases h with ⟨hkey, rfl⟩ | ⟨key, hkey, rfl⟩
  · simp [noteAsset_tracks, hkey]
  · rw [trackKey_tracks, hkey, Option.some.injEq, eq_comm (a := k)]

/-- What the tracking of one output keeps, that of all outputs keeps. -/
theorem trackOutputs_induction {P : CTxMemPool → Prop} (vout : List CTxOut) (h : P pool)
    (hstep : ∀ p p', P p → ∀ out ∈ vout, p.trackOutput cfg hash out = .ok p' → P p') :
    P (trackOutputs cfg hash vout pool).1 := by
  induction vout generalizing pool with
  | nil => exact h
  | cons out vout ih =>
    rw [trackOutputs]
    cases hout : pool.trackOutput cfg hash out with
    | error e => exact h
    | ok pool' =>
      exact ih (hstep pool pool' h out List.mem_cons_self hout) fun p p' hp other hother =>
        hstep p p' hp other (List.mem_cons_of_mem out hother)

/-- What neither assets nor commands change, no output changes. -/
theorem trackOutputs_frame {α : Type} (f : CTxMemPool → α) (hasset : ∀ p data, f (p.trackAsset cfg hash data) = f p)
    (hkey : ∀ p key, f (p.trackKey hash key) = f p) (vout : List CTxOut) (pool : CTxMemPool) :
    f (trackOutputs cfg hash vout pool).1 = f pool := by
  refine trackOutputs_induction (P := fun p => f p = f pool) vout rfl fun p p' hp out _ hout => ?_
  rcases trackOutput_cases hout with ⟨-, rfl⟩ | ⟨key, -, rfl⟩
  · cases getAssetData cfg out.scriptPubKey with
    | none => exact hp
    | some data => exact (hasset p data).trans hp
  · exact (hkey p key).trans hp

/-- The maps that say what is in the pool and how it hangs together. -/
def CTxMemPool.wires (pool : CTxMemPool) :
    TreeMap Uint256 CTransaction × TreeMap COutPoint CTransaction × TreeMap Uint256 TxLinks :=
  (pool.mapTx, pool.mapNextTx, pool.mapLinks)

theorem trackOutputs_wires (vout : List CTxOut) (pool : CTxMemPool) :
    (trackOutputs cfg hash vout pool).1.wires = pool.wires := by
  refine trackOutputs_frame wires (fun p data => ?_) (fun p key => ?_) vout pool
  · rw [trackAsset]
    split_ifs <;> rfl
  · cases key <;> rfl

/-- A command with a key that is tracked already is refused, wherever it stands. -/
theorem trackOutputs_refused (hash : Uint256) (vout : List CTxOut) (pool : CTxMemPool) {key : TrackedKey}
    (hmem : key ∈ vout.filterMap (trackedKey cfg)) (htracks : pool.tracks key) :
    ∃ e, (trackOutputs cfg hash vout pool).2 = .error e := by
  induction vout generalizing pool with
  | nil => cases hmem
  | cons out vout ih =>
    rw [trackOutputs]
    cases h : pool.trackOutput cfg hash out with
    | error e => exact ⟨e, rfl⟩
    | ok pool' =>
      have htracks' : pool'.tracks key := (trackOutput_tracks h key).mpr (.inl htracks)
      refine ih pool' ?_ htracks'
      obtain ⟨other, hother, hkey⟩ := List.mem_filterMap.mp hmem
      rcases List.mem_cons.mp hother with rfl | hrest
      · obtain ⟨e, he⟩ := (trackOutput_command pool hash hkey).1 htracks
        cases he.symm.trans h
      · exact List.mem_filterMap.mpr ⟨other, hrest, hkey⟩

theorem trackOutputs_passed (vout : List CTxOut) (pool : CTxMemPool)
    (hnew : ∀ key ∈ vout.filterMap (trackedKey cfg), pool.tracks key = false)
    (hnodup : (vout.filterMap (trackedKey cfg)).Nodup) : (trackOutputs cfg hash vout pool).2 = .ok () := by
  induction vout generalizing pool with
  | nil => rfl
  | cons out vout ih =>
    rw [trackOutputs]
    cases hkey : trackedKey cfg out with
    | none =>
      rw [List.filterMap_cons_none hkey] at hnew hnodup
      rw [trackOutput_plain pool hash hkey]
      exact ih _ (fun key hmem => (noteAsset_tracks cfg pool hash out key).trans (hnew key hmem)) hnodup
    | some key =>
      rw [List.filterMap_cons_some hkey] at hnew hnodup
      have hfalse := hnew key List.mem_cons_self
      rw [(trackOutput_command pool hash hkey).2 hfalse]
      refine ih _ (fun other hmem => ?_) hnodup.of_cons
      rw [← Bool.not_eq_true, trackKey_tracks, not_or, Bool.not_eq_true]
      refine ⟨hnew other (List.mem_cons_of_mem key hmem), ?_⟩
      rintro rfl
      exact (List.nodup_cons.mp hnodup).1 hmem

theorem trackReissues_same (vReissueAssets : List (Bytes × Uint256)) (pool : CTxMemPool) :
    (pool.trackReissues vReissueAssets).wires = pool.wires ∧
      ∀ key, (pool.trackReissues vReissueAssets).tracks key = pool.tracks key := by
  refine List.foldlRecOn (motive := fun p : CTxMemPool => p.wires = pool.wires ∧
    ∀ key, p.tracks key = pool.tracks key) _ _ ⟨rfl, fun _ => rfl⟩ ?_
  intro p hp reissue _
  exact ⟨hp.1, fun key => (hp.2 key).symm ▸ by cases key <;> rfl⟩

/-! ## The result -/

def trackedKeys (cfg : Config) (tx : CTransaction) : List TrackedKey := tx.vout.filterMap (trackedKey cfg)

/-- Once a transaction is stored, it is refused exactly for a command whose key is tracked. -/
theorem track_refused_iff (coins : Coins) (vReissueAssets : List (Bytes × Uint256)) (hnodup : (trackedKeys cfg tx).Nodup) :
    (∃ e, (pool.track cfg coins tx vReissueAssets).2 = .error e) ↔
      cfg.dep.assets ∧ ∃ key ∈ trackedKeys cfg tx, pool.tracks key := by
  obtain ⟨-, htracks⟩ := trackReissues_same vReissueAssets pool
  rw [track]
  by_cases hassets : cfg.dep.assets
  · simp only [hassets, if_true, true_and]
    constructor
    · rintro ⟨e, he⟩
      by_contra hnone
      have hpassed : (trackOutputs cfg tx.hash tx.vout (pool.trackReissues vReissueAssets)).2 = .ok () := by
        refine trackOutputs_passed tx.vout _ (fun key hmem => ?_) hnodup
        rw [htracks, ← Bool.not_eq_true]
        exact fun htrue => hnone ⟨key, hmem, htrue⟩
      rw [hpassed] at he
      cases he
    · rintro ⟨key, hmem, htrue⟩
      obtain ⟨e, he⟩ := trackOutputs_refused tx.hash tx.vout (pool.trackReissues vReissueAssets) hmem ((htracks key).trans htrue)
      rw [he]
      exact ⟨e, rfl⟩
  · simp [hassets]

theorem track_error_mapTx {coins : Coins} {vReissueAssets : List (Bytes × Uint256)} {e : Failure}
    (h : (pool.track cfg coins tx vReissueAssets).2 = .error e) :
    (pool.track cfg coins tx vReissueAssets).1.mapTx = pool.mapTx := by
  have hreissues := (trackReissues_same vReissueAssets pool).1
  rw [track] at h ⊢
  by_cases hassets : cfg.dep.assets
  · simp only [hassets, if_true] at h ⊢
    split at h
    · exact congrArg Prod.fst ((trackOutputs_wires tx.vout _).trans hreissues)
    · cases h
  · simp [hassets] at h

theorem trackedKeys_nodup_of_preChecks {node : Node} {args : AcceptArgs}
    {result : TreeSet Uint256 × List (Bytes × Uint256)} (h : pool.preChecks cfg node args tx = .ok result) :
    (trackedKeys cfg tx).Nodup := by
  obtain ⟨scan, _, hscan, -⟩ := checkTransaction_ok (preChecks_ok h).transaction
  exact trackedKeys_nodup hscan

/-- A transaction that was refused has left no trace, unless it got as far as being stored with a
command whose key the rest of the pool tracks. -/
theorem rejected_untraced_iff (cfg : Config) (node : Node) (args : AcceptArgs) (pool : CTxMemPool)
    (tx : CTransaction) (h : Untraced pool tx) :
    (∀ e, (pool.acceptToMemoryPoolWorker cfg node args tx).2 = .error e →
      Untraced (pool.acceptToMemoryPoolWorker cfg node args tx).1 tx) ↔
    ∀ allConflicting vReissueAssets, pool.preChecks cfg node args tx = .ok (allConflicting, vReissueAssets) →
      args.test_accept = false → (pool.store args tx allConflicting).existsTx tx.hash → cfg.dep.assets →
      ∀ key ∈ trackedKeys cfg tx, (pool.store args tx allConflicting).tracks key = false := by
  rw [acceptToMemoryPoolWorker]
  cases hpre : pool.preChecks cfg node args tx with
  | error e => simp [h]
  | ok result =>
    obtain ⟨allConflicting, vReissueAssets⟩ := result
    have hnodup := trackedKeys_nodup_of_preChecks hpre
    have hstore := entering_store h args allConflicting
    simp only
    by_cases htest : args.test_accept
    · simp [htest]
    by_cases hexists : (pool.store args tx allConflicting).existsTx tx.hash
    · rw [if_neg htest, if_neg (by simp [hexists])]
      constructor
      · intro hall ac reissues hok _ _ hassets key hmem
        obtain ⟨rfl, rfl⟩ := Prod.mk.inj (Except.ok.inj hok)
        rw [← Bool.not_eq_true]
        intro htracks
        obtain ⟨e, he⟩ := (track_refused_iff node.coins vReissueAssets hnodup).mpr ⟨hassets, key, hmem, htracks⟩
        -- it is refused, but stays stored
        have hnone := (hall e he).mapTx
        rw [track_error_mapTx he] at hnone
        exact existsTx_iff_ne_none.mp hexists hnone
      · intro hnew e he
        obtain ⟨hassets, key, hmem, htracks⟩ := (track_refused_iff node.coins vReissueAssets hnodup).mp ⟨e, he⟩
        rw [hnew _ _ rfl (Bool.not_eq_true _ ▸ htest) hexists hassets key hmem] at htracks
        cases htracks
    · have hbypass : ¬args.bypass_limits := fun hbypass =>
        hexists (existsTx_store_of_bypass hbypass allConflicting)
      have hnone : (pool.store args tx allConflicting).mapTx[tx.hash]? = none :=
        not_not.mp (mt existsTx_iff_ne_none.mpr hexists)
      rw [if_neg htest, if_pos (by simp [hbypass, hexists])]
      constructor
      · intro _ ac reissues hok _ hstored
        obtain ⟨rfl, rfl⟩ := Prod.mk.inj (Except.ok.inj hok)
        exact absurd hstored hexists
      · intro _ e _
        exact hstore.untraced hnone

/-! ## Two additions of one tag -/

def tagBobTx : CTransaction where
  vin := [⟨⟨3001, 1⟩, []⟩, ⟨⟨3001, 2⟩, []⟩]
  vout := [paymentOut addTagBurnKeyID 5000000, paymentOut aliceKeyID (8 * COIN),
    transferOut aliceKeyID (str "#TAG") COIN, freezeOut bobKeyID (str "#TAG") 1]
  hash := 3101

/-- Spends what `tagBobTx` pays to Alice, to add the tag once more. -/
def tagBobAgainTx : CTransaction where
  vin := [⟨⟨3101, 1⟩, []⟩, ⟨⟨3101, 2⟩, []⟩]
  vout := [paymentOut addTagBurnKeyID 5000000, paymentOut aliceKeyID (7 * COIN),
    transferOut aliceKeyID (str "#TAG") COIN, freezeOut bobKeyID (str "#TAG") 1]
  hash := 3102

/-- The chain on which `#TAG` has been issued. -/
def tagIssueRun : List Node.Action :=
  maturedChain ++ [.connect ⟨101, [coinbaseAt 101, tagIssueTx]⟩]

/-- A call after which the pool is too large for the transaction. -/
def tagTrimmed : AcceptArgs := { AcceptArgs.lenient with trimmed := [3101] }

/-- A transaction that is trimmed at once is refused for a full pool and leaves nothing. -/
theorem trimmed_tag_untraced :
    ∃ node, (Node.genesis .all).run mainAll tagIssueRun = some node ∧
      Untraced .empty tagBobTx ∧
      (CTxMemPool.empty.acceptToMemoryPoolWorker mainAll node tagTrimmed tagBobTx).2 =
        .error (.reject 0 "mempool full") ∧
      Untraced (CTxMemPool.empty.acceptToMemoryPoolWorker mainAll node tagTrimmed tagBobTx).1
        tagBobTx := by
  have hrun : ((Node.genesis .all).run mainAll tagIssueRun).map (fun node =>
      ((CTxMemPool.empty.acceptToMemoryPoolWorker mainAll node tagTrimmed tagBobTx).2,
        (CTxMemPool.empty.preChecks mainAll node tagTrimmed tagBobTx).toOption.map fun r =>
          (CTxMemPool.empty.store tagTrimmed tagBobTx r.1).existsTx tagBobTx.hash)) =
      some (.error (.reject 0 "mempool full"), some false) := by decide +kernel
  obtain ⟨node, hnode, hvalues⟩ := Option.map_eq_some_iff.mp hrun
  obtain ⟨hrefused, htrimmed⟩ := Prod.mk.inj hvalues
  have hempty : Untraced .empty tagBobTx := by decide +kernel
  refine ⟨node, hnode, hempty, hrefused, ?_⟩
  refine (rejected_untraced_iff mainAll node tagTrimmed .empty tagBobTx hempty).mpr ?_ _ hrefused
  intro allConflicting vReissueAssets hpre _ hexists
  rw [hpre] at htrimmed
  exact absurd (hexists.symm.trans (Option.some.inj htrimmed)) (by decide)

/-- The second addition of a tag is refused after it has been stored. -/
theorem refused_tag_stays :
    ∃ node pool, (Node.genesis .all).run mainAll tagIssueRun = some node ∧
      CTxMemPool.empty.acceptToMemoryPoolWorker mainAll node .lenient tagBobTx = (pool, .ok ()) ∧
      Untraced pool tagBobAgainTx ∧
      (pool.acceptToMemoryPoolWorker mainAll node .lenient tagBobAgainTx).2 =
        .error (.reject 0 "bad-txns-adding-tag-already-in-mempool") ∧
      (pool.acceptToMemoryPoolWorker mainAll node .lenient tagBobAgainTx).1.existsTx
        tagBobAgainTx.hash = true := by
  have hrun : ((Node.genesis .all).run mainAll tagIssueRun).map (fun node =>
      let first := CTxMemPool.empty.acceptToMemoryPoolWorker mainAll node .lenient tagBobTx
      let second := first.1.acceptToMemoryPoolWorker mainAll node .lenient tagBobAgainTx
      (first.2, decide (Untraced first.1 tagBobAgainTx), second.2, second.1.existsTx tagBobAgainTx.hash)) =
      some (.ok (), true, .error (.reject 0 "bad-txns-adding-tag-already-in-mempool"), true) := by
    decide +kernel
  obtain ⟨node, hnode, hvalues⟩ := Option.map_eq_some_iff.mp hrun
  simp only [Prod.mk.injEq, decide_eq_true_eq] at hvalues
  obtain ⟨hfirst, huntraced, hsecond, hexists⟩ := hvalues
  exact ⟨node, _, hnode, Prod.ext rfl hfirst, huntraced, hsecond, hexists⟩

end HempCore
