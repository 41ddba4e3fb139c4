import HempCore.Analysis.BlockConnection

/-!
# What disconnecting a block does

The inversion lemmas for the way back. As in the other direction the address index plays no part:
the inputs of a transaction change the index alone, so the caches follow `removeCoins`.
-/

set_option autoImplicit false

namespace HempCore

open Lib

variable {cfg : Config} {g : AssetGlobals}

/-! ## Caches up to the address index -/

namespace CAssetsCache

variable {cache cache' : CAssetsCache}

@[simp] theorem forgetIndex_removeOwnerAsset (name address : Bytes) :
    (cache.removeOwnerAsset cfg name address).forgetIndex = cache.forgetIndex :=
  forgetIndex_setBalance _ _

theorem forgetIndex_of_subtractReissued {pair : NameAddress} {nAmount : Int}
    (h : cache.subtractReissued cfg g pair nAmount = some cache') : cache'.forgetIndex = cache.forgetIndex := by
  unfold subtractReissued at h
  split at h
  · split at h <;> split at h <;> cases h <;> exact forgetIndex_setBalance _ _
  · cases h
    rfl

theorem forgetIndex_of_removeTransfer {transfer : CAssetTransfer} {address : Bytes} {out : COutPoint}
    (h : cache.removeTransfer cfg g transfer address out = some cache') : cache'.forgetIndex = cache.forgetIndex := by
  obtain ⟨undone, hundone, rfl⟩ := Option.map_eq_some_iff.mp h
  have hsame : undone.forgetIndex = cache.forgetIndex := by
    unfold undoTransfer at hundone
    split at hundone
    · split at hundone
      · cases hundone
      · split at hundone <;> cases hundone
        exact forgetIndex_setBalance _ _
    · cases hundone
      rfl
  exact hsame

theorem forgetIndex_of_removeTransferOutput {out : COutPoint × CTxOut}
    (h : cache.removeTransferOutput cfg g out = some cache') : cache'.forgetIndex = cache.forgetIndex := by
  unfold removeTransferOutput at h
  split at h
  · simp only [Option.bind_eq_bind, Option.bind_eq_some_iff, Prod.exists] at h
    obtain ⟨transfer, address, -, h⟩ := h
    exact forgetIndex_of_removeTransfer h
  · cases h
    rfl

theorem forgetIndex_of_undoAssetCoin {coin : Coin} (h : cache.undoAssetCoin cfg g coin = some cache') :
    cache'.forgetIndex = cache.forgetIndex := by
  unfold undoAssetCoin at h
  split at h
  · cases h
  · split at h
    · cases h
    · cases h
      exact forgetIndex_setBalance _ _

end CAssetsCache

/-! ## Transactions and blocks -/

section Blocks

variable {nHeight : Nat} {vUndoData : List (Bytes × CBlockAssetUndo)} {st st' : DisconnectState}

theorem cache_unspendOutputs (tx : CTransaction) (outs : List (COutPoint × CTxOut)) (st : DisconnectState) :
    (outs.foldl (unspendOutput cfg g nHeight tx) st).cache = st.cache := by
  refine List.foldlRecOn (motive := fun s : DisconnectState => s.cache = st.cache) _ _ rfl fun s hs out _ => ?_
  unfold unspendOutput
  split
  · exact hs
  · exact hs

theorem forgetIndex_of_applyTxInUndo {input : COutPoint × Coin} (h : applyTxInUndo cfg g st input = some st') :
    st'.cache.forgetIndex = st.cache.forgetIndex := by
  simp only [applyTxInUndo, Option.bind_eq_bind, Option.bind_eq_some_iff] at h
  obtain ⟨coin, -, h⟩ := h
  cases h
  cases hrestored : (if cfg.dep.assets && (isAssetScript input.2.out.scriptPubKey).isSome then
      st.cache.undoAssetCoin cfg g input.2 else some st.cache) with
  | none => rfl
  | some restored =>
    rw [Option.getD_some]
    split at hrestored
    · exact CAssetsCache.forgetIndex_of_undoAssetCoin hrestored
    · cases hrestored
      rfl

theorem cache_of_disconnectTx {item : CTransaction × Option (List Coin)}
    (h : disconnectTx cfg g nHeight vUndoData st item = some st') :
    ∃ cache, st.cache.removeCoins cfg g item.1 vUndoData = some cache ∧ st'.cache.forgetIndex = cache.forgetIndex := by
  obtain ⟨tx, txundo⟩ := item
  simp only [disconnectTx, Option.bind_eq_bind, Option.bind_eq_some_iff] at h
  obtain ⟨cache, hremove, h⟩ := h
  rw [cache_unspendOutputs] at hremove
  refine ⟨cache, hremove, ?_⟩
  split at h
  · cases h
    rfl
  · split at h
    · cases h
    · exact foldlM_some_invariant (fun s : DisconnectState => s.cache.forgetIndex = cache.forgetIndex)
        (fun s s' input _ hs hstep => (forgetIndex_of_applyTxInUndo hstep).trans hs) rfl h

/-- The transactions of a block are taken back last to first, each with its undo data. -/
theorem disconnectBlock_eq_some {coins : Coins} {block : CBlock} {vtxundo : List (List Coin)}
    (h : disconnectBlock cfg g coins nHeight block vtxundo = some st') :
    ∃ items : List (CTransaction × Option (List Coin)), items.map Prod.fst = block.vtx.reverse ∧
      items.foldlM (disconnectTx cfg g nHeight ((g.blockUndoAssetData[block.hash]?).getD [])) ⟨coins, .empty, true⟩ =
      some st' := by
  unfold disconnectBlock at h
  split at h
  · cases h
  · next hlen =>
    refine ⟨_, ?_, h⟩
    rw [List.map_reverse, List.map_fst_zip (by simp; omega)]

end Blocks

theorem disconnectTip_eq_some {node node' : Node} (h : node.disconnectTip cfg = some node') :
    ∃ block rest st vtxundo, node.chain = block :: rest ∧ node.undo[block.hash]? = some vtxundo ∧
      disconnectBlock (node.config cfg) node.assets node.coins node.height block vtxundo = some st ∧ st.fClean = true ∧
      node' = { node with coins := st.coins, assets := node.assets.flush st.cache, chain := rest } := by
  unfold Node.disconnectTip at h
  split at h
  · cases h
  · next block rest hchain =>
    simp only [Option.bind_eq_bind, Option.bind_eq_some_iff] at h
    obtain ⟨vtxundo, hundo, st, hblock, h⟩ := h
    split at h
    · next hclean =>
      cases h
      exact ⟨block, rest, st, vtxundo, hchain, hundo, hblock, hclean, rfl⟩
    · cases h

/-! ## Runs without rule changes -/

theorem dep_of_step {node node' : Node} {action : Node.Action} (hno : ∀ dep, action ≠ .activate dep)
    (h : node.step cfg action = some node') : node'.dep = node.dep := by
  cases action with
  | connect block =>
    obtain ⟨st, undoData, -, hdep, -⟩ := connectTip_ok (step_connect h)
    exact hdep
  | disconnect =>
    obtain ⟨block, rest, st, vtxundo, -, -, -, -, rfl⟩ := disconnectTip_eq_some h
    rfl
  | dump =>
    cases h
    split_ifs <;> rfl
  | touch t =>
    cases h
    rfl
  | activate dep => exact absurd rfl (hno dep)

/-- What holds of every step under the flags of the start holds along such a run. -/
theorem along_of_dep {P : Node → Node.Action → Prop} {actions : List Node.Action} {dep : Deployments}
    (hno : ∀ d, .activate d ∉ actions) (h : ∀ node : Node, node.dep = dep → ∀ action ∈ actions, P node action) :
    Along (Node.step cfg) P (.genesis dep) actions := by
  refine along_of_invariant (I := fun node : Node => node.dep = dep)
    (fun node action haction node' hdep hstep => ?_) (fun node action haction hdep => ?_) rfl
  · exact (dep_of_step (fun d hd => hno d (hd ▸ haction)) hstep).trans hdep
  · exact h node hdep action haction

end HempCore
