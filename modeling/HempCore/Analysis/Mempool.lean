import HempCore.Analysis.CommandAuthority
import HempCore.Model.MempoolAccept

/-!
# What leaves the memory pool

Links are kept apart from the rest of the pool, and a removal changes the rest one entry at a time:
the entry, what it spends, and what is tracked for it.
-/

set_option autoImplicit false

namespace HempCore

open Lib Std

namespace CTxMemPool

variable {pool : CTxMemPool} {hash : Uint256} {tx : CTransaction}

/-! ## Links -/

/-- Two pools that differ in their links alone. -/
def SameButLinks (pool pool' : CTxMemPool) : Prop := pool' = { pool with mapLinks := pool'.mapLinks }

theorem SameButLinks.refl (pool : CTxMemPool) : SameButLinks pool pool := rfl

theorem SameButLinks.trans {a b c : CTxMemPool} (hab : SameButLinks a b) (hbc : SameButLinks b c) :
    SameButLinks a c := by
  unfold SameButLinks at *
  rw [hbc, hab]

theorem sameButLinks_foldl {α : Type} {f : CTxMemPool → α → CTxMemPool} (hf : ∀ pool a, SameButLinks pool (f pool a))
    (l : List α) (pool : CTxMemPool) : SameButLinks pool (l.foldl f pool) := by
  induction l generalizing pool with
  | nil => exact .refl pool
  | cons a l ih => exact (hf pool a).trans (ih _)

theorem sameButLinks_updateChild (add : Bool) (pool : CTxMemPool) (entry child : Uint256) :
    SameButLinks pool (pool.updateChild entry child add) := rfl

theorem sameButLinks_updateParent (add : Bool) (pool : CTxMemPool) (entry parent : Uint256) :
    SameButLinks pool (pool.updateParent entry parent add) := rfl

theorem sameButLinks_updateAncestorsOf (add : Bool) (pool : CTxMemPool) (hash : Uint256) :
    SameButLinks pool (pool.updateAncestorsOf add hash) :=
  sameButLinks_foldl (fun pool parent => sameButLinks_updateChild add pool parent hash) _ pool

theorem sameButLinks_updateChildrenForRemoval (pool : CTxMemPool) (hash : Uint256) :
    SameButLinks pool (pool.updateChildrenForRemoval hash) :=
  sameButLinks_foldl (fun pool child => sameButLinks_updateParent false pool child hash) _ pool

theorem sameButLinks_updateForRemove (l : List Uint256) (pool : CTxMemPool) :
    SameButLinks pool (pool.updateForRemoveFromMempool l) :=
  (sameButLinks_foldl (fun pool hash => sameButLinks_updateAncestorsOf false pool hash) l pool).trans
    (sameButLinks_foldl sameButLinks_updateChildrenForRemoval l _)

/-- What does not read the links and survives the removal of an entry survives any removal. -/
theorem removeStaged_induction {P : CTxMemPool → Prop} (hlinks : ∀ pool pool', SameButLinks pool pool' → P pool → P pool')
    (hremove : ∀ pool hash, P pool → P (pool.removeUnchecked hash)) (stage : TreeSet Uint256)
    (h : P pool) : P (pool.removeStaged stage) :=
  List.foldlRecOn (motive := P) _ _ (hlinks _ _ (sameButLinks_updateForRemove _ pool) h)
    fun pool hpool hash _ => hremove pool hash hpool

theorem limitMempoolSize_induction {P : CTxMemPool → Prop}
    (hremove : ∀ pool stage, P pool → P (pool.removeStaged stage)) (args : AcceptArgs) (h : P pool) :
    P (pool.limitMempoolSize args) :=
  List.foldlRecOn (motive := P) _ _ (hremove _ _ h) fun _ hpool _ _ => hremove _ _ hpool

/-! ## One entry -/

theorem existsTx_iff : pool.existsTx hash = true ↔ ∃ tx, pool.mapTx[hash]? = some tx := by
  rw [existsTx, TreeMap.contains_eq_isSome_getElem?, Option.isSome_iff_exists]

theorem existsTx_iff_ne_none : pool.existsTx hash = true ↔ pool.mapTx[hash]? ≠ none := by
  rw [existsTx_iff, Option.ne_none_iff_exists']

theorem untrack_eq (pool : CTxMemPool) (hash : Uint256) :
    (pool.untrack hash).mapTx = pool.mapTx ∧ (pool.untrack hash).mapNextTx = pool.mapNextTx ∧
      (pool.untrack hash).mapLinks = pool.mapLinks := by
  have hfree : (pool.freeReissue hash).mapTx = pool.mapTx ∧ (pool.freeReissue hash).mapNextTx = pool.mapNextTx ∧
      (pool.freeReissue hash).mapLinks = pool.mapLinks := by
    unfold freeReissue
    split
    · exact ⟨rfl, rfl, rfl⟩
    · split_ifs <;> exact ⟨rfl, rfl, rfl⟩
  have hforget : ∀ pool : CTxMemPool, (pool.forgetAsset hash).mapTx = pool.mapTx ∧
      (pool.forgetAsset hash).mapNextTx = pool.mapNextTx ∧
      (pool.forgetAsset hash).mapLinks = pool.mapLinks := by
    intro pool
    unfold forgetAsset
    split <;> exact ⟨rfl, rfl, rfl⟩
  obtain ⟨htx, hnext, hlinks⟩ := hforget (pool.freeReissue hash)
  exact ⟨htx.trans hfree.1, hnext.trans hfree.2.1, hlinks.trans hfree.2.2⟩

theorem removeUnchecked_of_none (h : pool.mapTx[hash]? = none) : pool.removeUnchecked hash = pool := by
  rw [removeUnchecked, h]

theorem getElem?_eraseInputs (m : TreeMap COutPoint CTransaction) (vin : List CTxIn) (o : COutPoint) :
    (vin.foldl (fun m (txin : CTxIn) => m.erase txin.prevout) m)[o]? = if o ∈ vin.map CTxIn.prevout then none else m[o]? := by
  induction vin generalizing m with
  | nil => simp
  | cons txin vin ih =>
    rw [List.foldl_cons, ih, getElem?_erase_eq]
    by_cases hmem : o ∈ vin.map CTxIn.prevout
    · simp [hmem]
    · simp [hmem]

theorem removeUnchecked_mapTx (pool : CTxMemPool) (hash k : Uint256) :
    (pool.removeUnchecked hash).mapTx[k]? = if k = hash then none else pool.mapTx[k]? := by
  cases h : pool.mapTx[hash]? with
  | none =>
    rw [removeUnchecked_of_none h]
    split_ifs with hk
    · rw [hk, h]
    · rfl
  | some tx =>
    rw [removeUnchecked, h]
    simp only [(untrack_eq _ hash).1, getElem?_erase_eq]

theorem removeUnchecked_mapNextTx (pool : CTxMemPool) (hash : Uint256) (o : COutPoint) :
    (pool.removeUnchecked hash).mapNextTx[o]? = if ∃ tx, pool.mapTx[hash]? = some tx ∧ o ∈ tx.vin.map CTxIn.prevout then none
      else pool.mapNextTx[o]? := by
  cases h : pool.mapTx[hash]? with
  | none =>
    rw [removeUnchecked_of_none h]
    simp
  | some tx =>
    rw [removeUnchecked, h]
    simp only [(untrack_eq _ hash).2.1, getElem?_eraseInputs, Option.some.injEq, exists_eq_left']

/-! ## Adding -/

/-- Apart from the links, the transaction is stored and found by what it spends. -/
theorem addUnchecked_sameButLinks (pool : CTxMemPool) (tx : CTransaction) :
    SameButLinks { pool with
      mapTx := pool.mapTx.insertIfNew tx.hash tx
      mapNextTx := tx.vin.foldl (fun m (txin : CTxIn) => m.insertIfNew txin.prevout tx) pool.mapNextTx }
      (pool.addUnchecked tx) := by
  have hlinked : ∀ (l : List Uint256) (pool : CTxMemPool), SameButLinks pool (l.foldl (fun pool phash =>
        if pool.existsTx phash then pool.updateParent tx.hash phash true else pool) pool) := by
    intro l pool
    refine sameButLinks_foldl (fun pool phash => ?_) l pool
    split_ifs
    · exact sameButLinks_updateParent true pool tx.hash phash
    · exact .refl pool
  have hfirst : ∀ (pool : CTxMemPool) (links : TreeMap Uint256 TxLinks),
      SameButLinks pool { pool with mapLinks := links } := fun _ _ => rfl
  exact (hfirst _ (pool.mapLinks.insertIfNew tx.hash ⟨∅, ∅⟩)).trans
    ((hlinked _ _).trans (sameButLinks_updateAncestorsOf true _ tx.hash))

theorem getElem?_insertInputs (m : TreeMap COutPoint CTransaction) (tx : CTransaction) (vin : List CTxIn) (o : COutPoint) :
    (vin.foldl (fun m (txin : CTxIn) => m.insertIfNew txin.prevout tx) m)[o]? =
      if o ∈ vin.map CTxIn.prevout then some (m[o]?.getD tx) else m[o]? := by
  induction vin generalizing m with
  | nil => simp
  | cons txin vin ih =>
    rw [List.foldl_cons, ih, getElem?_insertIfNew_eq]
    by_cases hmem : o ∈ vin.map CTxIn.prevout
    · by_cases heq : o = txin.prevout <;> simp [hmem, heq]
    · by_cases heq : o = txin.prevout <;> simp [hmem, heq]

/-! ## The checks before a transaction is added -/

variable {cfg : Config} {node : Node} {args : AcceptArgs} {allConflicting : TreeSet Uint256}
  {vReissueAssets : List (Bytes × Uint256)}

/-- What the checks say about a transaction that passes them. -/
structure PreChecked (cfg : Config) (pool : CTxMemPool) (node : Node) (tx : CTransaction)
    (allConflicting : TreeSet Uint256) (vReissueAssets : List (Bytes × Uint256)) : Prop where
  transaction : checkTransaction cfg tx true true false = .ok ()
  new : pool.mapTx[tx.hash]? = none
  inputs : ∀ txin ∈ tx.vin, (pool.coinsView node.coins txin.prevout).isSome
  plain : cfg.dep.assets = false → ∀ out ∈ tx.vout, isAssetScript out.scriptPubKey = none
  assets : (cfg.dep.assets = true ∧ checkTxAssets cfg tx (pool.coinsView node.coins)
    (some (node.assets.passets.view cfg node.assets)) true pool.toMempoolTracking false = .ok vReissueAssets) ∨
    (cfg.dep.assets = false ∧ vReissueAssets = [])
  unrelated : ∀ conflict ∈ pool.conflictsOf tx, conflict.hash ∉ pool.calculateMemPoolAncestors tx
  replaced : allConflicting = (((pool.conflictsOf tx).map CTransaction.hash).filter pool.existsTx).foldl
    pool.calculateDescendants ∅

theorem preChecks_ok (h : pool.preChecks cfg node args tx = .ok (allConflicting, vReissueAssets)) :
    PreChecked cfg pool node tx allConflicting vReissueAssets := by
  have hnone : pool.existsTx tx.hash = false → pool.mapTx[tx.hash]? = none :=
    fun hnew => not_not.mp (mt existsTx_iff_ne_none.mpr (by simp [hnew]))
  cases hdep : cfg.dep.assets with
  | true =>
    simp only [preChecks, hdep, if_true, bind_eq_ok, exists_punit, require_eq_ok, onlyWhen_eq_ok,
      pure_eq_ok, Prod.mk.injEq, Bool.not_eq_true', List.all_eq_true, List.any_eq_false] at h
    obtain ⟨hcheck, -, -, hnew, -, hinputs, -, _, -, -, pairs, hpairs, -, -, -, hunrelated, -, -, hreplaced, rfl⟩ := h
    refine ⟨hcheck, hnone hnew, hinputs, by simp [hdep], .inl ⟨hdep, hpairs⟩, fun conflict hmem hin => ?_, hreplaced.symm⟩
    exact hunrelated conflict hmem (TreeSet.contains_iff_mem.mpr hin)
  | false =>
    simp only [preChecks, hdep, bind_eq_ok, exists_punit, require_eq_ok, onlyWhen_eq_ok, pure_eq_ok,
      Prod.mk.injEq, Bool.not_eq_true', Bool.false_eq_true, if_false, List.all_eq_true, List.any_eq_false] at h
    obtain ⟨hcheck, -, -, hnew, -, hinputs, -, _, -, hplain, pairs, rfl, -, -, -, hunrelated, -, -, hreplaced, rfl⟩ := h
    have hall := hplain trivial
    rw [List.forM_eq_forM, forM_eq_ok] at hall
    refine ⟨hcheck, hnone hnew, hinputs, fun _ out hout => ?_, .inr ⟨hdep, rfl⟩, fun conflict hmem hin => ?_, hreplaced.symm⟩
    · exact Option.isNone_iff_eq_none.mp (require_eq_ok.mp (hall out hout))
    · exact hunrelated conflict hmem (TreeSet.contains_iff_mem.mpr hin)

end CTxMemPool

end HempCore
