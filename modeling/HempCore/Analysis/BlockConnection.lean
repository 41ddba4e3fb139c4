import HempCore.Analysis.Acceptance
import HempCore.Lib.MapSum
import HempCore.Lib.Run
import HempCore.Model.Chain

/-!
# What connecting a block does

One inversion lemma for each function between `ConnectTip` and the coins, so that the results on
chains never unfold them. The address index plays no part in any of them: caches are compared up
to it.
-/

set_option autoImplicit false

namespace HempCore

open Lib

variable {cfg : Config} {g : AssetGlobals}

/-! ## Caches up to the address index -/

namespace CAssetsCache

/-- A cache without what the address index alone reads. -/
def forgetIndex (cache : CAssetsCache) : CAssetsCache :=
  { cache with
    newOwnerAssets := .empty
    newTransferAssets := .empty
    mapAssetsAddressAmount := ∅
    vSpentAssets := []
    vUndoAssetAmount := [] }

variable {cache cache' : CAssetsCache}

@[simp] theorem forgetIndex_setBalance (pair : NameAddress) (nAmount : Int) :
    (cache.setBalance cfg pair nAmount).forgetIndex = cache.forgetIndex := by
  unfold setBalance
  split_ifs <;> rfl

@[simp] theorem forgetIndex_addTransferAsset (transfer : CAssetTransfer) (address : Bytes) (out : COutPoint) :
    (cache.addTransferAsset cfg g transfer address out).forgetIndex = cache.forgetIndex :=
  forgetIndex_setBalance _ _

@[simp] theorem forgetIndex_addOwnerAsset (name address : Bytes) :
    (cache.addOwnerAsset cfg name address).forgetIndex = cache.forgetIndex :=
  forgetIndex_setBalance _ _

theorem trySpendCoin_eq_some {txOut : CTxOut} (h : cache.trySpendCoin cfg g txOut = some cache') :
    cache'.forgetIndex = cache.forgetIndex ∧
      (isAssetScript txOut.scriptPubKey = none ∨ ∃ data,
        getAssetData cfg txOut.scriptPubKey = some data ∧ data.address ≠ [] ∧ data.assetName ≠ []) := by
  unfold trySpendCoin at h
  split at h
  · next hnone =>
    cases h
    exact ⟨rfl, .inl (Option.isNone_iff_eq_none.mp hnone)⟩
  · split at h
    · cases h
    · next data hdata =>
      split at h
      · cases h
      · next hnonempty =>
        rw [not_or] at hnonempty
        refine ⟨?_, .inr ⟨data, hdata, hnonempty⟩⟩
        split at h
        · split at h
          · rw [← Option.some.inj h]
            exact forgetIndex_setBalance _ _
          · cases h
            rfl
        · cases h
          rfl

theorem view_eq_of_forgetIndex (h : cache.forgetIndex = cache'.forgetIndex) : cache.view cfg g = cache'.view cfg g := by
  have heq : ∀ c : CAssetsCache, c.view cfg g = c.forgetIndex.view cfg g := fun _ => rfl
  rw [heq cache, h, ← heq]

end CAssetsCache

/-! ## Coins -/

structure Spends (cfg : Config) (tx : CTransaction) (coins : Coins) (cache : CAssetsCache)
    (coins' : Coins) (cache' : CAssetsCache) (spent : List Coin) : Prop where
  /-- The spent coins are those the inputs name. -/
  found : tx.vin.map (fun txin => coins[txin.prevout]?) = spent.map some
  left : ∀ out, coins'[out]? = if out ∈ tx.vin.map CTxIn.prevout then none else coins[out]?
  sum : ∀ f : Coin → Int, mapSum f coins' = mapSum f coins - (spent.map f).sum
  index : cache'.forgetIndex = cache.forgetIndex
  readable : cfg.dep.assets = true → ∀ coin ∈ spent, isAssetScript coin.out.scriptPubKey = none ∨
    ∃ data, getAssetData cfg coin.out.scriptPubKey = some data ∧ data.address ≠ [] ∧
      data.assetName ≠ []

/-! ### Inputs -/

theorem spendInput_eq_some {st st' : Coins × CAssetsCache × List Coin} {txin : CTxIn} (h : spendInput cfg g st txin = some st') :
    ∃ coin cache', st.1[txin.prevout]? = some coin ∧ st' = (st.1.erase txin.prevout, cache',
        st.2.2 ++ [coin]) ∧ cache'.forgetIndex = st.2.1.forgetIndex ∧
      (cfg.dep.assets = true → isAssetScript coin.out.scriptPubKey = none ∨
        ∃ data, getAssetData cfg coin.out.scriptPubKey = some data ∧ data.address ≠ [] ∧ data.assetName ≠ []) := by
  obtain ⟨coins, cache, spent⟩ := st
  unfold spendInput at h
  simp only at h
  split at h
  · cases h
  · next coin hcoin =>
    obtain ⟨cache', hspend, rfl⟩ := Option.map_eq_some_iff.mp h
    split_ifs at hspend with hassets
    · have hread := CAssetsCache.trySpendCoin_eq_some hspend
      exact ⟨coin, cache', hcoin, rfl, hread.1, fun _ => hread.2⟩
    · cases hspend
      exact ⟨coin, cache, hcoin, rfl, rfl, fun h => absurd h hassets⟩

theorem spendInputs_eq_some {vin : List CTxIn} (hnodup : (vin.map CTxIn.prevout).Nodup)
    {coins coins' : Coins} {cache cache' : CAssetsCache} {spent spent' : List Coin}
    (h : vin.foldlM (spendInput cfg g) (coins, cache, spent) = some (coins', cache', spent')) :
    ∃ more, spent' = spent ++ more ∧ vin.map (fun txin => coins[txin.prevout]?) = more.map some ∧
      (∀ out, coins'[out]? = if out ∈ vin.map CTxIn.prevout then none else coins[out]?) ∧
      (∀ f : Coin → Int, mapSum f coins' = mapSum f coins - (more.map f).sum) ∧
      cache'.forgetIndex = cache.forgetIndex ∧
      (cfg.dep.assets = true → ∀ coin ∈ more, isAssetScript coin.out.scriptPubKey = none ∨
        ∃ data, getAssetData cfg coin.out.scriptPubKey = some data ∧ data.address ≠ [] ∧ data.assetName ≠ []) := by
  induction vin generalizing coins cache spent with
  | nil =>
    rw [List.foldlM_nil] at h
    cases h
    exact ⟨[], by simp, rfl, by simp, by simp, rfl, by simp⟩
  | cons txin vin ih =>
    rw [List.foldlM_cons] at h
    obtain ⟨st, hfirst, hrest⟩ := Option.bind_eq_some_iff.mp h
    obtain ⟨coin, cache₁, hcoin, rfl, hindex, hread⟩ := spendInput_eq_some hfirst
    rw [List.map_cons, List.nodup_cons] at hnodup
    obtain ⟨more, rfl, hfound, hleft, hsum, hindex', hread'⟩ := ih hnodup.2 hrest
    refine ⟨coin :: more, by simp, ?_, ?_, ?_, hindex'.trans hindex, ?_⟩
    · rw [List.map_cons, List.map_cons, ← hfound]
      refine congrArg₂ List.cons hcoin (List.map_congr_left fun t ht => ?_)
      -- the later inputs are other coins, so erasing this one does not touch them
      have hne : t.prevout ≠ txin.prevout := fun he => hnodup.1 (he ▸ List.mem_map_of_mem ht)
      rw [getElem?_erase_eq, if_neg hne]
    · intro out
      rw [hleft, getElem?_erase_eq, List.map_cons]
      by_cases hout : out = txin.prevout <;> simp [hout]
    · intro f
      rw [hsum, mapSum_erase, weightAt, hcoin]
      simp only [Option.elim_some, List.map_cons, List.sum_cons]
      omega
    · intro hassets c hc
      rcases List.mem_cons.mp hc with rfl | hc
      · exact hread hassets
      · exact hread' hassets c hc

/-! ### Both -/

theorem updateCoins_eq_some {coins : Coins} {cache : CAssetsCache} {tx : CTransaction}
    {nHeight : Nat} {blockHash : Uint256} {updated : Updated}
    (hnodup : (tx.vin.map CTxIn.prevout).Nodup)
    (h : updateCoins cfg g coins cache tx nHeight blockHash = some updated) :
    ∃ coins' cache',
      (if tx.isCoinBase then coins' = coins ∧ cache' = cache ∧ updated.spent = []
        else Spends cfg tx coins cache coins' cache' updated.spent) ∧
      updated.coins = coins'.addOutputs tx nHeight ∧
      (updated.cache, updated.undo) = cache'.addCoins cfg g tx nHeight blockHash := by
  simp only [updateCoins, Option.bind_eq_bind, Option.bind_eq_some_iff] at h
  obtain ⟨⟨coins', cache', spent⟩, hspend, hrest⟩ := h
  cases hrest
  refine ⟨coins', cache', ?_, rfl, rfl⟩
  unfold spendInputs at hspend
  split_ifs at hspend ⊢ with hcoinbase
  · cases hspend
    exact ⟨rfl, rfl, rfl⟩
  · obtain ⟨more, hmore, hfound, hleft, hsum, hindex, hread⟩ := spendInputs_eq_some hnodup hspend
    rw [List.nil_append] at hmore
    subst hmore
    exact ⟨hfound, hleft, hsum, hindex, hread⟩

theorem getElem?_addCoin (coins : Coins) (out j : COutPoint) (coin : Coin) :
    (coins.addCoin out coin)[j]? = if j = out ∧ isUnspendable coin.out.scriptPubKey = false then some coin else coins[j]? := by
  unfold Coins.addCoin
  by_cases hspend : isUnspendable coin.out.scriptPubKey = true
  · simp [hspend]
  · rw [Bool.not_eq_true] at hspend
    simp [hspend, getElem?_insert_eq]

/-! ### Outputs -/

section Outputs

variable (tx : CTransaction)

theorem mem_outputsOf {p : COutPoint × CTxOut} : p ∈ Coins.outputsOf tx ↔ p.1.hash = tx.hash ∧ tx.vout[p.1.n]? = some p.2 := by
  obtain ⟨⟨hash, n⟩, out⟩ := p
  simp only [Coins.outputsOf, List.mem_map, Prod.exists, Prod.mk.injEq, COutPoint.mk.injEq, List.mem_zipIdx_iff_getElem?]
  constructor
  · rintro ⟨out', n', hout, ⟨rfl, rfl⟩, rfl⟩
    exact ⟨rfl, hout⟩
  · rintro ⟨rfl, hout⟩
    exact ⟨out, n, hout, ⟨rfl, rfl⟩, rfl⟩

theorem nodup_outputsOf : ((Coins.outputsOf tx).map Prod.fst).Nodup := by
  have hkeys : (Coins.outputsOf tx).map Prod.fst = (List.range tx.vout.length).map fun n => ⟨tx.hash, n⟩ := by
    rw [Coins.outputsOf, List.map_map, List.range_eq_range', ← List.zipIdx_map_snd 0 tx.vout, List.map_map]
    rfl
  rw [hkeys]
  exact List.nodup_range.map fun a b hab => (COutPoint.mk.injEq _ _ _ _ ▸ hab).2

theorem outputsOf_map_snd : (Coins.outputsOf tx).map Prod.snd = tx.vout := by
  rw [Coins.outputsOf, List.map_map]
  exact List.zipIdx_map_fst 0 tx.vout

theorem getElem?_addOutputs (coins : Coins) (nHeight : Nat) (out : COutPoint) :
    (coins.addOutputs tx nHeight)[out]? = match (if out.hash = tx.hash then tx.vout[out.n]? else none) with
      | some txout =>
        if isUnspendable txout.scriptPubKey then coins[out]?
        else some ⟨txout, tx.isCoinBase, nHeight⟩
      | none => coins[out]? := by
  have hstep : ∀ (coins : Coins) (k : COutPoint) (v : CTxOut) (j : COutPoint),
      (coins.addCoin k ⟨v, tx.isCoinBase, nHeight⟩)[j]? = if j = k then
        (if isUnspendable v.scriptPubKey then coins[j]? else some ⟨v, tx.isCoinBase, nHeight⟩)
        else coins[j]? := by
    intro coins k v j
    rw [getElem?_addCoin]
    by_cases hj : j = k <;> cases hu : isUnspendable v.scriptPubKey <;> simp [hj]
  obtain ⟨hsome, hnone⟩ := foldl_keyLocal (fun (coins : Coins) j => coins[j]?)
    (fun coins k v => coins.addCoin k ⟨v, tx.isCoinBase, nHeight⟩)
    (fun v e => if isUnspendable v.scriptPubKey then e else some ⟨v, tx.isCoinBase, nHeight⟩)
    hstep (nodup_outputsOf tx) coins out
  split
  · next txout htxout =>
    split_ifs at htxout with hhash
    exact hsome txout ((mem_outputsOf tx).mpr ⟨hhash, htxout⟩)
  · next hno =>
    refine hnone fun hmem => ?_
    obtain ⟨⟨out', txout⟩, hp, rfl⟩ := List.mem_map.mp hmem
    obtain ⟨hhash, htxout⟩ := (mem_outputsOf tx).mp hp
    rw [if_pos hhash] at hno
    exact nomatch hno.symm.trans htxout

/-- Adding outputs adds at most their weights: a replaced coin takes its own away. -/
theorem mapSum_addOutputs_le {f : Coin → Int} {coins : Coins} {nHeight : Nat}
    (hcoins : ∀ (out : COutPoint) coin, coins[out]? = some coin → 0 ≤ f coin)
    (houts : ∀ txout ∈ tx.vout, 0 ≤ f ⟨txout, tx.isCoinBase, nHeight⟩) :
    mapSum f (coins.addOutputs tx nHeight) ≤
      mapSum f coins + (tx.vout.map fun txout => f ⟨txout, tx.isCoinBase, nHeight⟩).sum := by
  rw [← outputsOf_map_snd tx] at houts ⊢
  unfold Coins.addOutputs
  generalize Coins.outputsOf tx = l at houts ⊢
  induction l generalizing coins with
  | nil => simp
  | cons p l ih =>
    have hp : 0 ≤ f ⟨p.2, tx.isCoinBase, nHeight⟩ := houts p.2 (by simp)
    have hadded : ∀ (out : COutPoint) coin, (coins.addCoin p.1 ⟨p.2, tx.isCoinBase, nHeight⟩)[out]? = some coin → 0 ≤ f coin := by
      intro out coin hcoin
      rw [getElem?_addCoin] at hcoin
      split_ifs at hcoin with h
      · cases hcoin
        exact hp
      · exact hcoins out coin hcoin
    have hone : mapSum f (coins.addCoin p.1 ⟨p.2, tx.isCoinBase, nHeight⟩) ≤
        mapSum f coins + f ⟨p.2, tx.isCoinBase, nHeight⟩ := by
      unfold Coins.addCoin
      split_ifs
      · omega
      · rw [mapSum_insert]
        have hold : 0 ≤ weightAt f coins p.1 := by
          unfold weightAt
          cases hc : coins[p.1]? with
          | none => simp
          | some coin => exact hcoins _ _ hc
        omega
    have hrest := ih hadded fun txout htxout => houts txout (by simp at htxout ⊢; exact .inr htxout)
    simp only [List.foldl_cons, List.map_cons, List.sum_cons] at hrest ⊢
    omega

end Outputs

/-! ## Transactions of a block -/

section Blocks

variable {nHeight : Nat} {blockHash : Uint256} {st st' : ConnectState} {tx : CTransaction}

structure Checked (cfg : Config) (g : AssetGlobals) (nHeight : Nat) (st : ConnectState)
    (tx : CTransaction) (nFees : Int) : Prop where
  inputs : ∃ txfee, checkTxInputs cfg tx st.coins.view nHeight = .ok txfee ∧
    nFees = st.nFees + txfee ∧ moneyRange nFees = true
  assets : checkBlockTxAssets cfg g st tx = .ok ()

theorem checkTxInBlock_ok {nFees : Int} (h : checkTxInBlock cfg g nHeight st tx = .ok nFees) :
    if tx.isCoinBase then nFees = st.nFees else Checked cfg g nHeight st tx nFees := by
  unfold checkTxInBlock at h
  split_ifs at h ⊢
  · rw [pure_eq_ok] at h
    exact h.symm
  · simp only [checkBlockTx, bind_eq_ok, exists_punit, require_eq_ok, pure_eq_ok] at h
    obtain ⟨txfee, hinputs, hrange, hassets, rfl⟩ := h
    exact ⟨⟨txfee, hinputs, rfl, hrange⟩, hassets⟩

theorem connectTx_ok (hnodup : (tx.vin.map CTxIn.prevout).Nodup) (h : connectTx cfg g nHeight blockHash st tx = .ok st') :
    (if tx.isCoinBase then st'.nFees = st.nFees else Checked cfg g nHeight st tx st'.nFees) ∧
      ∃ coins cache spent undo,
        (if tx.isCoinBase then coins = st.coins ∧ cache = st.cache ∧ spent = []
          else Spends cfg tx st.coins st.cache coins cache spent) ∧
        st'.coins = coins.addOutputs tx nHeight ∧
        (st'.cache, undo) = cache.addCoins cfg g tx nHeight blockHash ∧
        st'.vtxundo = (if tx.isCoinBase then st.vtxundo else st.vtxundo ++ [spent]) ∧
        st'.vUndoAssetData = st.vUndoAssetData ++ (undo.filter fun item => item.1 ≠ []).toList := by
  simp only [connectTx, bind_eq_ok, demand_eq_ok, pure_eq_ok] at h
  obtain ⟨nFees, hchecked, updated, hupdate, rfl⟩ := h
  obtain ⟨coins, cache, hspends, hcoins, hcache⟩ := updateCoins_eq_some hnodup hupdate
  exact ⟨checkTxInBlock_ok hchecked, coins, cache, updated.spent, updated.undo, hspends, hcoins, hcache, rfl, rfl⟩

theorem checkBlock_ok {block : CBlock} (h : checkBlock cfg block = .ok ()) :
    ∃ coinbase rest, block.vtx = coinbase :: rest ∧ coinbase.isCoinBase = true ∧ (∀ tx ∈ rest, tx.isCoinBase = false) ∧
      ∀ tx ∈ block.vtx, checkTransaction cfg tx true false true = .ok () := by
  unfold checkBlock at h
  split at h
  · cases h
  · next coinbase rest hvtx =>
    simp only [bind_eq_ok, exists_punit, require_eq_ok, List.all_eq_true, Bool.not_eq_true'] at h
    exact ⟨coinbase, rest, hvtx, h.1, h.2.1, forM_eq_ok.mp h.2.2⟩

theorem nodup_of_checkTransaction {fMempoolCheck fBlockCheck : Bool}
    (h : checkTransaction cfg tx true fMempoolCheck fBlockCheck = .ok ()) : (tx.vin.map CTxIn.prevout).Nodup := by
  simp only [checkTransaction, checkInputs, bind_eq_ok, exists_punit, require_eq_ok,
    Bool.not_true, Bool.false_or, decide_eq_true_eq] at h
  obtain ⟨-, -, -, scan, -, -, ⟨hnodup, -⟩, -⟩ := h
  exact hnodup

theorem connectBlock_ok {coins : Coins} {block : CBlock} (h : connectBlock cfg g coins nHeight block = .ok st) :
    checkBlock cfg block = .ok () ∧ block.vtx.foldlM (connectTx cfg g nHeight block.hash) ⟨coins, .empty, 0, [], []⟩ = .ok st ∧
      ∀ coinbase rest, block.vtx = coinbase :: rest → ∃ paid, coinbase.getValueOut cfg.dep.enforcedValues = .ok paid ∧
      paid ≤ st.nFees + getBlockSubsidy cfg nHeight := by
  simp only [connectBlock, bind_eq_ok, exists_punit] at h
  obtain ⟨hcheck, st', hfold, hpaid⟩ := h
  split at hpaid
  · next hnil =>
    rw [pure_eq_ok] at hpaid
    subst hpaid
    exact ⟨hcheck, hfold, fun coinbase rest hvtx => absurd (hnil.symm.trans hvtx) (List.cons_ne_nil _ _).symm⟩
  · next coinbase rest hvtx =>
    simp only [bind_eq_ok, exists_punit, require_eq_ok, decide_eq_true_eq, pure_eq_ok] at hpaid
    obtain ⟨paid, hvalue, hle, rfl⟩ := hpaid
    refine ⟨hcheck, hfold, fun coinbase' rest' hvtx' => ⟨paid, ?_, hle⟩⟩
    rw [hvtx, List.cons.injEq] at hvtx'
    rw [← hvtx'.1, hvalue]

end Blocks

/-! ## The node -/

/-- What connecting a tip does; of the asset state it changes `passets` and the stored undo data. -/
theorem connectTip_ok {node node' : Node} {block : CBlock} (h : node.connectTip cfg block = .ok node') :
    ∃ st undoData, connectBlock (node.config cfg) node.assets node.coins (node.height + 1) block = .ok st ∧
      node'.dep = node.dep ∧ node'.coins = st.coins ∧
      node'.assets = { node.assets.flush st.cache with blockUndoAssetData := undoData } ∧
      node'.chain = block :: node.chain := by
  simp only [Node.connectTip, bind_eq_ok, pure_eq_ok] at h
  obtain ⟨st, hblock, rfl⟩ := h
  exact ⟨st, _, hblock, rfl, rfl, rfl, rfl⟩

theorem step_connect {node node' : Node} {block : CBlock}
    (h : node.step cfg (.connect block) = some node') : node.connectTip cfg block = .ok node' := by
  simp only [Node.step] at h
  cases htip : node.connectTip cfg block with
  | ok n => rw [htip] at h; cases h; rfl
  | error e => rw [htip] at h; cases h

end HempCore
