import HempCore.Analysis.CoinSelection

/-!
# What is available, and what is chosen of it

`AvailableCoinsAll` keeps plain coins and assets apart, each asset under its name. So `SelectAssets`
chooses, for each asset to be sent that is available, coins of that asset.
-/

set_option autoImplicit false

namespace HempCore

open Lib Std

variable {nTargetValue : Int} {s t : CoinSet} {wallet : CWallet} {amount : CTxOut → Option Int}
  {vCoins : List COutput} {mapAssetTargetValue : AssetTotals} {st : CoinSet × AssetTotals}

/-! ## Available coins -/

theorem outputs_nodup (wallet : CWallet) : (wallet.outputs.map (·.2.outpoint)).Nodup := by
  have houtpoints : wallet.outputs.map (·.2.outpoint) = (wallet.mapWallet.filter CWalletTx.isAvailable).flatMap fun pcoin =>
        (List.range pcoin.tx.vout.length).map fun n => (⟨pcoin.tx.hash, n⟩ : COutPoint) := by
    rw [CWallet.outputs, List.map_flatMap]
    congr 1
    funext pcoin
    rw [List.map_map, List.range_eq_range', ← List.zipIdx_map_snd 0 pcoin.tx.vout, List.map_map]
    rfl
  rw [houtpoints, List.nodup_flatMap]
  refine ⟨fun pcoin _ => List.nodup_range.map fun a b h => (COutPoint.mk.inj h).2, ?_⟩
  have hdistinct := List.pairwise_map.mp wallet.distinct
  refine (hdistinct.filter _).imp fun {a b} hne => ?_
  intro o ha hb
  obtain ⟨n, -, rfl⟩ := List.mem_map.mp ha
  obtain ⟨n', -, h⟩ := List.mem_map.mp hb
  exact hne (COutPoint.mk.inj h).1.symm

def Carries (cfg : Config) (name : Bytes) (txout : CTxOut) : Prop :=
  ∃ data, getAssetData cfg txout.scriptPubKey = some data ∧ data.assetName = name

/-- What is offered of some outputs of the wallet: plain coins, and each asset under its name. -/
structure Offered (cfg : Config) (outputs : List CInputCoin) (vCoins : List COutput)
    (mapAssetCoins : TreeMap Bytes (List COutput)) : Prop where
  coins : List.Sublist (vCoins.map (·.coin)) outputs
  plain : ∀ output ∈ vCoins, isAssetScript output.coin.txout.scriptPubKey = none
  offered : ∀ (name : Bytes) (outs : List COutput), mapAssetCoins[name]? = some outs →
    List.Sublist (outs.map (·.coin)) outputs
  carries : ∀ (name : Bytes) (outs : List COutput), mapAssetCoins[name]? = some outs →
    ∀ output ∈ outs, Carries cfg name output.coin.txout

variable {cfg : Config} {passets : AssetView} {coinControl : CCoinControl}

theorem carries_of_availableAssetName {name : Bytes} {txout : CTxOut}
    (h : availableAssetName cfg passets txout.scriptPubKey = some name) : Carries cfg name txout := by
  obtain ⟨data, hdata, h⟩ := Option.bind_eq_some_iff.mp h
  split_ifs at h
  exact ⟨data, hdata, Option.some.inj h⟩

theorem Offered.append {outputs : List CInputCoin} {vCoins : List COutput}
    {mapAssetCoins : TreeMap Bytes (List COutput)} (h : Offered cfg outputs vCoins mapAssetCoins)
    (more : List CInputCoin) : Offered cfg (outputs ++ more) vCoins mapAssetCoins :=
  ⟨h.coins.trans (List.sublist_append_left _ _), h.plain, fun name outs hget =>
    (h.offered name outs hget).trans (List.sublist_append_left _ _), h.carries⟩

theorem Offered.addAvailable {outputs : List CInputCoin}
    {st : List COutput × TreeMap Bytes (List COutput)} (h : Offered cfg outputs st.1 st.2)
    (fGetAssets : Bool) (p : CWalletTx × CInputCoin) :
    Offered cfg (outputs ++ [p.2]) (addAvailable cfg passets wallet coinControl fGetAssets st p).1
      (addAvailable cfg passets wallet coinControl fGetAssets st p).2 := by
  have hmore := h.append [p.2]
  unfold HempCore.addAvailable
  simp only
  split_ifs with hasset hget
  · cases hname : availableAssetName cfg passets p.2.txout.scriptPubKey with
    | none => exact hmore
    | some name =>
      -- the output joins the list of its name, behind those of earlier outputs
      have hold : List.Sublist ((st.2.getD name []).map (·.coin)) outputs ∧
          ∀ output ∈ st.2.getD name [], Carries cfg name output.coin.txout := by
        rw [TreeMap.getD_eq_getD_getElem?]
        cases hget : st.2[name]? with
        | none => exact ⟨List.nil_sublist _, fun output hout => by cases hout⟩
        | some outs => exact ⟨h.offered name outs hget, h.carries name outs hget⟩
      refine ⟨hmore.coins, hmore.plain, fun name' outs hget => ?_, fun name' outs hget => ?_⟩
      all_goals
        simp only [getElem?_insert_eq] at hget
        split_ifs at hget with heq
      · obtain rfl := Option.some.inj hget
        rw [List.map_append]
        exact hold.1.append (List.Sublist.refl _)
      · exact hmore.offered name' outs hget
      · obtain rfl := Option.some.inj hget
        intro output hout
        rcases List.mem_append.mp hout with hout | hout
        · exact heq ▸ hold.2 output hout
        · rw [List.mem_singleton.mp hout, heq]
          exact carries_of_availableAssetName hname
      · exact hmore.carries name' outs hget
  · exact hmore
  · refine ⟨?_, fun output hout => ?_, hmore.offered, hmore.carries⟩
    · rw [List.map_append]
      exact h.coins.append (List.Sublist.refl _)
    rcases List.mem_append.mp hout with hout | hout
    · exact h.plain output hout
    · rw [List.mem_singleton.mp hout]
      exact Option.not_isSome_iff_eq_none.mp hasset

theorem availableCoinsAll_offered (fGetAssets : Bool) :
    Offered cfg (wallet.outputs.map (·.2)) (availableCoinsAll cfg passets wallet coinControl fGetAssets).1
      (availableCoinsAll cfg passets wallet coinControl fGetAssets).2 := by
  have hloop : ∀ l : List (CWalletTx × CInputCoin), Offered cfg (l.map (·.2))
      (l.foldl (addAvailable cfg passets wallet coinControl fGetAssets) ([], ∅)).1
      (l.foldl (addAvailable cfg passets wallet coinControl fGetAssets) ([], ∅)).2 := by
    intro l
    induction l using List.reverseRecOn with
    | nil =>
      refine ⟨List.Sublist.slnil, fun output hout => absurd hout List.not_mem_nil, ?_, ?_⟩
      · intro name outs hget
        simp at hget
      · intro name outs hget
        simp at hget
    | append_singleton l p ih =>
      rw [List.foldl_append, List.map_append]
      exact ih.addAvailable fGetAssets p
  obtain ⟨hcoins, hplain, hoffered, hcarries⟩ := hloop (wallet.outputs.filter fun p => passesCoinControl wallet coinControl p.2)
  exact ⟨hcoins.trans (List.filter_sublist.map _), hplain, fun name outs hget =>
    (hoffered name outs hget).trans (List.filter_sublist.map _), hcarries⟩

/-! ## Assets -/

def assetWeight (cfg : Config) (name : Bytes) (txout : CTxOut) : Int :=
  match getAssetData cfg txout.scriptPubKey with
  | some data => if data.assetName = name then data.nAmount else 0
  | none => 0

theorem Carries.assetWeight_eq {name name' : Bytes} {txout : CTxOut} (h : Carries cfg name txout) :
    assetWeight cfg name' txout = if name' = name then (assetAmount cfg txout).getD 0 else 0 := by
  obtain ⟨data, hdata, rfl⟩ := h
  simp only [assetWeight, assetAmount, hdata, eq_comm]
  rfl

theorem isAssetScript_of_getAssetData {script : Bytes} {data : CAssetOutputEntry}
    (h : getAssetData cfg script = some data) : (isAssetScript script).isSome := by
  unfold getAssetData at h
  split at h <;> simp_all

/-- The names in the part of the loop that is done, with what was chosen for each. -/
structure SelectedSoFar (cfg : Config) (mapAssetTargetValue : AssetTotals)
    (done : List (Bytes × List COutput)) (st : CoinSet × AssetTotals) : Prop where
  coins : ∃ l, Holds st.1 l ∧ (l.map (·.outpoint)).Nodup ∧
    ∀ coin ∈ l, ∃ p ∈ done, coin ∈ p.2.map (·.coin)
  balance : ∀ name, mapSum (assetWeight cfg name) st.1 = st.2.getD name 0
  reaches : ∀ (name : Bytes) (v : Int), st.2[name]? = some v → ∃ target, mapAssetTargetValue[name]? = some target ∧
    0 < target ∧ target ≤ v ∧ name ∈ done.map (·.1)
  covers : ∀ (name : Bytes) (target : Int), mapAssetTargetValue[name]? = some target → 0 < target →
    name ∈ done.map (·.1) → st.2[name]? ≠ none

theorem SelectedSoFar.skip {done : List (Bytes × List COutput)} (h : SelectedSoFar cfg mapAssetTargetValue done st)
    {p : Bytes × List COutput} (hskip : ∀ target, mapAssetTargetValue[p.1]? = some target → target ≤ 0) :
    SelectedSoFar cfg mapAssetTargetValue (done ++ [p]) st := by
  obtain ⟨⟨l, hl, hnodup, hdone⟩, hbalance, hreaches, hcovers⟩ := h
  refine ⟨⟨l, hl, hnodup, fun coin hcoin => ?_⟩, hbalance, ?_, ?_⟩
  · obtain ⟨q, hq, hmem⟩ := hdone coin hcoin
    exact ⟨q, List.mem_append_left _ hq, hmem⟩
  · intro name v hv
    obtain ⟨target, htarget, hpos, hle, hmem⟩ := hreaches name v hv
    exact ⟨target, htarget, hpos, hle, by rw [List.map_append]; exact List.mem_append_left _ hmem⟩
  · intro name target htarget hpos hmem
    rw [List.map_append, List.mem_append, List.map_cons, List.map_nil, List.mem_singleton] at hmem
    rcases hmem with hmem | rfl
    · exact hcovers name target htarget hpos hmem
    · exact absurd (hskip target htarget) (by omega)

variable {outputs : List CInputCoin} {mapAssetCoins : TreeMap Bytes (List COutput)}

theorem coin_eq_of_outpoint (hnodup : (outputs.map (·.outpoint)).Nodup) {a b : CInputCoin}
    (ha : a ∈ outputs) (hb : b ∈ outputs) (h : a.outpoint = b.outpoint) : a = b :=
  List.inj_on_of_nodup_map hnodup ha hb h

theorem SelectedSoFar.add {done : List (Bytes × List COutput)} (h : SelectedSoFar cfg mapAssetTargetValue done st)
    (hoffered : Offered cfg outputs vCoins mapAssetCoins)
    (hnodup : (outputs.map (·.outpoint)).Nodup)
    (hdone : ∀ q ∈ done, mapAssetCoins[q.1]? = some q.2)
    {p : Bytes × List COutput} (hp : mapAssetCoins[p.1]? = some p.2) (hnew : p.1 ∉ done.map (·.1))
    {target : Int} (htarget : mapAssetTargetValue[p.1]? = some target) (hpos : 0 < target)
    {tempCoinsRet : CoinSet} {nTempAmountRet : Int} {l : List CInputCoin}
    (hl : Selects p.2 (assetAmount cfg) target tempCoinsRet nTempAmountRet l) :
    SelectedSoFar cfg mapAssetTargetValue (done ++ [p])
      (tempCoinsRet.foldl (fun s outpoint txout => s.insertIfNew outpoint txout) st.1, st.2.insert p.1 nTempAmountRet) := by
  obtain ⟨⟨l₀, hl₀, hnodup₀, hfrom⟩, hbalance, hreaches, hcovers⟩ := h
  have hcarries : ∀ coin ∈ l, Carries cfg p.1 coin.txout ∧ coin ∈ outputs := by
    intro coin hcoin
    obtain ⟨output, hout, rfl⟩ := List.mem_map.mp (hl.offered.subset hcoin)
    exact ⟨hoffered.carries p.1 p.2 hp output hout, (hoffered.offered p.1 p.2 hp).subset (List.mem_map_of_mem hout)⟩
  have hnodupl : (l.map (·.outpoint)).Nodup := by
    have hsub := (subperm_map (·.outpoint) hl.offered).trans ((hoffered.offered p.1 p.2 hp).map (·.outpoint)).subperm
    obtain ⟨k, hperm, hk⟩ := hsub
    exact hperm.nodup_iff.mp (hk.nodup hnodup)
  -- the coins of another name are other coins
  have hdisjoint : ∀ c ∈ l, c.outpoint ∉ l₀.map (·.outpoint) := by
    intro c hc hmem
    obtain ⟨c₀, hc₀, heq⟩ := List.mem_map.mp hmem
    obtain ⟨q, hq, hq₀⟩ := hfrom c₀ hc₀
    obtain ⟨output, hout, rfl⟩ := List.mem_map.mp hq₀
    have hq₁ := hdone q hq
    obtain ⟨⟨data, hdata, hname⟩, hmem⟩ := hcarries c hc
    obtain ⟨data', hdata', hname'⟩ := hoffered.carries q.1 q.2 hq₁ output hout
    have hsame := coin_eq_of_outpoint hnodup ((hoffered.offered q.1 q.2 hq₁).subset (List.mem_map_of_mem hout)) hmem heq
    rw [hsame, hdata] at hdata'
    obtain rfl := Option.some.inj hdata'
    exact hnew (List.mem_map.mpr ⟨q, hq, hname'.symm.trans hname⟩)
  have hnodupu : ((l₀ ++ l).map (·.outpoint)).Nodup := by
    rw [List.map_append]
    refine hnodup₀.append hnodupl fun o ho hmem => ?_
    obtain ⟨c, hc, rfl⟩ := List.mem_map.mp hmem
    exact hdisjoint c hc ho
  have hnone : st.2[p.1]? = none := by
    cases hget : st.2[p.1]? with
    | none => rfl
    | some v =>
      obtain ⟨-, -, -, -, hmem⟩ := hreaches p.1 v hget
      exact absurd hmem hnew
  refine ⟨⟨l₀ ++ l, hl₀.union hl.holds hdisjoint, hnodupu, ?_⟩, ?_, ?_, ?_⟩
  · intro coin hcoin
    rcases List.mem_append.mp hcoin with hcoin | hcoin
    · obtain ⟨q, hq, hmem⟩ := hfrom coin hcoin
      exact ⟨q, List.mem_append_left _ hq, hmem⟩
    · exact ⟨p, List.mem_append_right _ List.mem_cons_self, hl.offered.subset hcoin⟩
  · intro name
    have hweight : (l.map fun coin => assetWeight cfg name coin.txout).sum = if name = p.1 then nTempAmountRet else 0 := by
      split_ifs with hname
      · rw [hl.value]
        congr 1
        refine List.map_congr_left fun coin hcoin => ?_
        rw [(hcarries coin hcoin).1.assetWeight_eq, if_pos hname]
      · refine List.sum_eq_zero fun x hx => ?_
        obtain ⟨coin, hcoin, rfl⟩ := List.mem_map.mp hx
        rw [(hcarries coin hcoin).1.assetWeight_eq, if_neg hname]
    rw [mapSum_eq_of_holds (hl₀.union hl.holds hdisjoint) hnodupu, List.map_append, List.sum_append,
      hweight, ← mapSum_eq_of_holds hl₀ hnodup₀, hbalance, TreeMap.getD_eq_getD_getElem?,
      TreeMap.getD_eq_getD_getElem?, getElem?_insert_eq]
    split_ifs with hname
    · rw [hname, hnone]
      simp
    · simp
  · intro name v hv
    rw [getElem?_insert_eq] at hv
    split_ifs at hv with hname
    · obtain rfl := Option.some.inj hv
      exact ⟨target, hname ▸ htarget, hpos, hl.reaches, by simp [hname]⟩
    · obtain ⟨target', htarget', hpos', hle, hmem⟩ := hreaches name v hv
      exact ⟨target', htarget', hpos', hle, by rw [List.map_append]; exact List.mem_append_left _ hmem⟩
  · intro name target' htarget' hpos' hmem
    rw [getElem?_insert_eq]
    split_ifs with hname
    · simp
    · rw [List.map_append, List.mem_append] at hmem
      refine hcovers name target' htarget' hpos' (hmem.resolve_right fun hlast => hname ?_)
      simpa using hlast

/-- What `SelectAssets` returns: each asset to be sent that is available reaches its target. -/
theorem selectAssets_spec (hoffered : Offered cfg outputs vCoins mapAssetCoins)
    (hnodup : (outputs.map (·.outpoint)).Nodup)
    {choices : Bytes → Nat → KnapsackChoices}
    (h : wallet.selectAssets cfg mapAssetCoins mapAssetTargetValue choices = some st) :
    SelectedSoFar cfg mapAssetTargetValue mapAssetCoins.toList st := by
  rw [CWallet.selectAssets] at h
  split_ifs at h
  have hget : ∀ p ∈ mapAssetCoins.toList, mapAssetCoins[p.1]? = some p.2 := fun p hp =>
    TreeMap.mem_toList_iff_getElem?_eq_some.mp hp
  have hkeys : (mapAssetCoins.toList.map (·.1)).Nodup := by
    rw [TreeMap.map_fst_toList_eq_keys]
    exact nodup_keys mapAssetCoins
  refine foldlM_some_split_invariant (SelectedSoFar cfg mapAssetTargetValue) ?_ ?_ h
  · intro done p rest st st' hsplit hdone hstep
    have hdone' : ∀ q ∈ done, mapAssetCoins[q.1]? = some q.2 := fun q hq =>
      hget q (by rw [hsplit]; exact List.mem_append_left _ hq)
    have hp : mapAssetCoins[p.1]? = some p.2 := hget p (by rw [hsplit]; simp)
    have hnew : p.1 ∉ done.map (·.1) := by
      rw [hsplit, List.map_append, List.nodup_append] at hkeys
      exact fun hmem => hkeys.2.2 _ hmem _ (by simp) rfl
    rw [CWallet.selectAsset] at hstep
    cases htarget : mapAssetTargetValue[p.1]? with
    | none =>
      simp only [htarget, Option.some.injEq] at hstep
      exact hstep ▸ hdone.skip fun target ht => by rw [htarget] at ht; cases ht
    | some target =>
      simp only [htarget] at hstep
      split_ifs at hstep with hle
      · exact Option.some.inj hstep ▸ hdone.skip fun target' ht => by
          rw [htarget] at ht
          obtain rfl := Option.some.inj ht
          exact hle
      · obtain ⟨⟨coins, v⟩, hselect, hst'⟩ := Option.bind_eq_some_iff.mp hstep
        have hdistinct : (p.2.map (·.coin.outpoint)).Nodup := by
          have hsub := ((hoffered.offered p.1 p.2 hp).map (·.outpoint)).nodup hnodup
          rwa [List.map_map] at hsub
        obtain ⟨l, hl⟩ := selectByAttempts_spec hdistinct hselect
        exact Option.some.inj hst' ▸ hdone.add hoffered hnodup hdone' hp hnew htarget (by omega) hl
  · refine ⟨⟨[], holds_empty, List.nodup_nil, fun coin hcoin => absurd hcoin List.not_mem_nil⟩, ?_, ?_, ?_⟩
    · intro name
      simp
    · intro name v hv
      simp at hv
    · intro name target _ _ hmem
      cases hmem

end HempCore
