import HempCore.Analysis.WalletOutputs

/-!
# The inputs of transactions the wallet builds

`SelectCoins` spends the coins that the coin control names and plain ones besides, `SelectAssets` coins of
the assets that are sent. When those hold no more than is sent, no asset change is made.
-/

set_option autoImplicit false

namespace HempCore

open Lib
open Std (TreeMap)

variable {node : CreateNode} {req : CreateRequest} {cfg : Config} {name : Bytes} {setup : LoopSetup}
  {wallet : CWallet} {vCoins : List COutput} {r : CoinSet × Int} {nTargetValue : Int} {choices : Nat → KnapsackChoices}
  {setAssets : CoinSet} {assetChange : List CTxOut}

/-! ## Coins in a set -/

theorem holds_coins (s : CoinSet) : Holds s s.coins := by
  intro o x
  rw [← TreeMap.mem_toList_iff_getElem?_eq_some, CoinSet.coins, List.mem_map]
  constructor
  · intro h
    exact ⟨(o, x), h, rfl⟩
  · rintro ⟨p, hp, heq⟩
    cases heq
    exact hp

theorem coins_nodup (s : CoinSet) : (s.coins.map (·.outpoint)).Nodup := by
  have hkeys : s.coins.map (·.outpoint) = s.keys := by
    rw [CoinSet.coins, List.map_map, ← TreeMap.map_fst_toList_eq_keys]
    rfl
  rw [hkeys]
  exact nodup_keys s

/-- A sum over a set is the sum over its coins. -/
theorem mapSum_eq_coins (w : CTxOut → Int) (s : CoinSet) : mapSum w s = (s.coins.map fun coin => w coin.txout).sum :=
  mapSum_eq_of_holds (holds_coins s) (coins_nodup s) w

theorem mapSum_nonneg {w : CTxOut → Int} {s : CoinSet} (h : ∀ (o : COutPoint) (x : CTxOut), s[o]? = some x → 0 ≤ w x) :
    0 ≤ mapSum w s := by
  rw [mapSum_eq_coins]
  refine List.sum_nonneg fun v hv => ?_
  obtain ⟨coin, hcoin, rfl⟩ := List.mem_map.mp hv
  exact h coin.outpoint coin.txout ((holds_coins s _ _).mpr hcoin)

/-- Distinct coins among some others that carry no negative amount hold no more than those. -/
theorem sum_le_of_subset {w : CTxOut → Int} {l l' : List CInputCoin} (hnodup : l.Nodup) (hsub : l ⊆ l')
    (hnonneg : ∀ coin ∈ l', 0 ≤ w coin.txout) :
    (l.map fun coin => w coin.txout).sum ≤ (l'.map fun coin => w coin.txout).sum := by
  obtain ⟨k, hperm, hk⟩ := subperm_map (fun coin : CInputCoin => w coin.txout) (hnodup.subperm hsub)
  rw [← hperm.sum_eq]
  refine hk.sum_le_sum fun x hx => ?_
  obtain ⟨coin, hcoin, rfl⟩ := List.mem_map.mp hx
  exact hnonneg coin hcoin

/-! ## Coins -/

/-- The coins that the coin control adds to those chosen. When other inputs are not allowed it adds none:
it says what is available. -/
def CreateNode.presets (node : CreateNode) (req : CreateRequest) : CoinSet :=
  if !req.coinControl.setSelected.isEmpty && !req.coinControl.fAllowOtherInputs then ∅
  else ((node.wallet.presetCoins req.coinControl.setSelected).map Prod.fst).getD ∅

/-- What the coin control names is worth what the loop over it adds up. -/
theorem presetCoins_value {selected : List COutPoint} (hnodup : selected.Nodup)
    (h : wallet.presetCoins selected = some r) : r.2 = mapSum CTxOut.nValue r.1 := by
  have hinv : (∀ o, r.1[o]? ≠ none → o ∈ selected) ∧ r.2 = mapSum CTxOut.nValue r.1 := by
    refine foldlM_some_split_invariant (fun done (st : CoinSet × Int) =>
      (∀ o, st.1[o]? ≠ none → o ∈ done) ∧ st.2 = mapSum CTxOut.nValue st.1) ?_ (by simp) h
    rintro done o rest ⟨s, v⟩ st' hsplit ⟨hdone, hvalue⟩ hstep
    simp only at hdone hvalue hstep
    have hmore : ∀ o', s[o']? ≠ none → o' ∈ done ++ [o] := fun o' ho' => List.mem_append_left _ (hdone o' ho')
    split at hstep
    · obtain rfl := Option.some.inj hstep
      exact ⟨hmore, hvalue⟩
    · obtain ⟨txout, -, hstep⟩ := Option.bind_eq_some_iff.mp hstep
      obtain rfl := Option.some.inj hstep
      have hnew : s[o]? = none := by
        by_contra hold
        rw [hsplit, List.nodup_append] at hnodup
        exact hnodup.2.2 o (hdone o hold) o List.mem_cons_self rfl
      refine ⟨fun o' ho' => ?_, ?_⟩
      · rw [getElem?_insertIfNew_eq] at ho'
        split_ifs at ho' with heq
        · simp [heq]
        · exact hmore o' ho'
      · have hother : ∀ o', o' ≠ o → (s.insertIfNew o txout)[o']? = s[o']? := fun o' ho' => by
          rw [getElem?_insertIfNew_eq, if_neg ho']
        have hself : (s.insertIfNew o txout)[o]? = some txout := by
          rw [getElem?_insertIfNew_eq, if_pos rfl, hnew]
          rfl
        show v + txout.nValue = mapSum CTxOut.nValue (s.insertIfNew o txout)
        rw [mapSum_of_update _ hother, hvalue, weightAt, weightAt, hself, hnew]
        simp
  exact hinv.2

/-- The coins that may be chosen besides the preset ones. -/
def CreateNode.others (node : CreateNode) (req : CreateRequest) (vCoins : List COutput) : List CInputCoin :=
  (vCoins.filter fun out => !(node.presets req).contains out.coin.outpoint).map (·.coin)

theorem others_sublist : List.Sublist (node.others req vCoins) (vCoins.map (·.coin)) :=
  List.filter_sublist.map _

/-- What `SelectCoins` returns: the preset coins and some of those available, which reach the target. -/
theorem selectCoins_spec (hcoins : (vCoins.map (·.coin.outpoint)).Nodup)
        (h : node.wallet.selectCoins vCoins nTargetValue choices req.coinControl = some r) :
    (∃ l, List.Subperm l (node.others req vCoins) ∧ ∀ w : CTxOut → Int, mapSum w r.1 =
      (l.map fun coin => w coin.txout).sum + mapSum w (node.presets req)) ∧
    (req.coinControl.setSelected.Nodup → r.2 = mapSum CTxOut.nValue r.1) ∧ nTargetValue ≤ r.2 := by
  have hdistinct : ∀ f : COutput → Bool, ((vCoins.filter f).map (·.coin.outpoint)).Nodup := fun f =>
    (List.filter_sublist.map _).nodup hcoins
  rw [CWallet.selectCoins] at h
  rw [CreateNode.others, CreateNode.presets]
  split_ifs at h ⊢ with hmode
  · have hpicked : (((vCoins.filter (·.fSpendable)).map fun out =>
        (out.coin, out.coin.txout.nValue)).map (·.1.outpoint)).Nodup := by
      rw [List.map_map]
      exact hdistinct _
    obtain ⟨hholds, hvalue⟩ := holds_insertCoins hpicked
    simp only at h
    split_ifs at h with hreach
    obtain rfl := Option.some.inj h
    have hsum := mapSum_eq_of_holds hholds (by rw [List.map_map]; exact hpicked)
    refine ⟨⟨_, ?_, fun w => by rw [hsum, mapSum_empty, add_zero]⟩, fun _ => ?_, hreach⟩
    · have hall : (vCoins.filter fun out => !(∅ : CoinSet).contains out.coin.outpoint) = vCoins := by simp
      rw [hall, List.map_map]
      exact (List.filter_sublist.map _).subperm
    · rw [hsum, hvalue, List.map_map, List.map_map, List.map_map]
      rfl
  · obtain ⟨⟨setPreset, nPreset⟩, hpreset, h⟩ := Option.bind_eq_some_iff.mp h
    obtain ⟨⟨setRet, nRet⟩, hsel, h⟩ := Option.bind_eq_some_iff.mp h
    obtain rfl := Option.some.inj h
    rw [hpreset, Option.map_some, Option.getD_some]
    -- the other coins are not among those the coin control names
    have hother : ∃ l, List.Subperm l ((vCoins.filter fun out => !setPreset.contains out.coin.outpoint).map (·.coin)) ∧
        Holds setRet l ∧ (l.map (·.outpoint)).Nodup ∧
        nRet = (l.map fun coin => coin.txout.nValue).sum ∧ nTargetValue ≤ nRet + nPreset ∧
        ∀ coin ∈ l, setPreset[coin.outpoint]? = none := by
      split_ifs at hsel with henough
      · cases hsel
        exact ⟨[], List.nil_subperm, holds_empty, List.nodup_nil, rfl, by simpa using henough, by simp⟩
      · obtain ⟨l, hl⟩ := selectByAttempts_spec (hdistinct _) hsel
        have hreaches := hl.reaches
        refine ⟨l, hl.offered, hl.holds, ?_, by rw [hl.value]; rfl, by omega, ?_⟩
        · obtain ⟨k, hperm, hk⟩ := subperm_map (·.outpoint) hl.offered
          rw [List.map_map] at hk
          exact hperm.nodup_iff.mp (hk.nodup (hdistinct _))
        · intro coin hcoin
          obtain ⟨out, hout, rfl⟩ := List.mem_map.mp (hl.offered.subset hcoin)
          have hnot := (List.mem_filter.mp hout).2
          rw [Bool.not_eq_true', TreeMap.contains_eq_isSome_getElem?] at hnot
          exact Option.not_isSome_iff_eq_none.mp (by rw [hnot]; exact Bool.false_ne_true)
    obtain ⟨l, hsub, hl, hnodup, hvalue, hreach, hfresh⟩ := hother
    have hdisjoint : ∀ c ∈ setPreset.coins, c.outpoint ∉ l.map (·.outpoint) := by
      intro c hc hmem
      obtain ⟨coin, hcoin, heq⟩ := List.mem_map.mp hmem
      have hnone := hfresh coin hcoin
      rw [heq, (holds_coins setPreset c.outpoint c.txout).mpr hc] at hnone
      cases hnone
    have hboth : ((l ++ setPreset.coins).map (·.outpoint)).Nodup := by
      rw [List.map_append]
      refine hnodup.append (coins_nodup setPreset) fun o ho ho' => ?_
      obtain ⟨c, hc, rfl⟩ := List.mem_map.mp ho'
      exact hdisjoint c hc ho
    have hsum : ∀ w : CTxOut → Int, mapSum w (setPreset.foldl (fun s o x => s.insertIfNew o x) setRet) =
        (l.map fun coin => w coin.txout).sum + mapSum w setPreset := fun w => by
      rw [mapSum_eq_of_holds (hl.union (holds_coins setPreset) hdisjoint) hboth, List.map_append, List.sum_append,
        mapSum_eq_coins]
    refine ⟨⟨l, hsub, hsum⟩, fun hselected => ?_, hreach⟩
    show nRet + nPreset = _
    rw [hsum, hvalue, show nPreset = mapSum CTxOut.nValue setPreset from presetCoins_value hselected hpreset]

/-- Preset coins are outputs of transactions that the wallet knows. -/
theorem presets_from {o : COutPoint} {x : CTxOut} (h : (node.presets req)[o]? = some x) :
    ∃ pcoin ∈ node.wallet.mapWallet, x ∈ pcoin.tx.vout := by
  rw [CreateNode.presets] at h
  split_ifs at h
  · simp at h
  cases hpreset : node.wallet.presetCoins req.coinControl.setSelected with
  | none => simp [hpreset] at h
  | some r =>
    rw [hpreset, Option.map_some, Option.getD_some] at h
    have hall : ∀ (o : COutPoint) (x : CTxOut), r.1[o]? = some x → ∃ pcoin ∈ node.wallet.mapWallet, x ∈ pcoin.tx.vout := by
      refine foldlM_some_invariant (fun st : CoinSet × Int => ∀ (o : COutPoint) (x : CTxOut), st.1[o]? = some x →
        ∃ pcoin ∈ node.wallet.mapWallet, x ∈ pcoin.tx.vout) ?_ (by simp) hpreset
      rintro ⟨s, v⟩ st' o' _ hst hstep
      simp only at hst hstep
      split at hstep
      · exact Option.some.inj hstep ▸ hst
      · rename_i pcoin hfind
        obtain ⟨txout, htxout, hstep⟩ := Option.bind_eq_some_iff.mp hstep
        obtain rfl := Option.some.inj hstep
        intro o x hget
        rw [getElem?_insertIfNew_eq] at hget
        split_ifs at hget
        · cases hs : s[o]? with
          | none =>
            rw [hs] at hget
            obtain rfl := Option.some.inj hget
            exact ⟨pcoin, List.mem_of_find?_eq_some hfind, List.mem_of_getElem? htxout⟩
          | some y =>
            rw [hs] at hget
            exact hst o x (by rw [hs]; exact hget)
        · exact hst o x hget
    exact hall o x h

/-! ## What is available -/

/-- The coins and assets that a call chooses from. -/
def CreateNode.available (node : CreateNode) (req : CreateRequest) : List COutput × TreeMap Bytes (List COutput) :=
  availableCoinsAll node.cfg node.passets node.wallet req.coinControl (req.usesAssets && node.cfg.dep.assets)

theorem available_offered (node : CreateNode) (req : CreateRequest) : Offered node.cfg (node.wallet.outputs.map (·.2))
    (node.available req).1 (node.available req).2 := availableCoinsAll_offered _

theorem outpoints_nodup (wallet : CWallet) : ((wallet.outputs.map (·.2)).map (·.outpoint)).Nodup := by
  rw [List.map_map]
  exact outputs_nodup wallet

theorem available_nodup (node : CreateNode) (req : CreateRequest) :
    ((node.available req).1.map (·.coin.outpoint)).Nodup := by
  have hsub := ((available_offered node req).coins.map (·.outpoint)).nodup (outpoints_nodup node.wallet)
  rwa [List.map_map] at hsub

/-- What is available of an asset. -/
def CreateNode.availableAmount (node : CreateNode) (req : CreateRequest) (name : Bytes) : Int :=
  (((node.available req).2.toList.flatMap (·.2)).map fun out => assetWeight node.cfg name out.coin.txout).sum

/-- The outputs of the wallet are those of valid transactions: no amount is negative, and what is available
or preset is worth at most `MAX_MONEY`, in coins and in each asset. -/
structure WithinSupply (node : CreateNode) (req : CreateRequest) : Prop where
  nonneg : ∀ pcoin ∈ node.wallet.mapWallet, ∀ out ∈ pcoin.tx.vout,
    0 ≤ out.nValue ∧ ∀ name, 0 ≤ assetWeight node.cfg name out
  coins : ((node.others req (node.available req).1).map fun coin => coin.txout.nValue).sum +
    mapSum CTxOut.nValue (node.presets req) ≤ maxMoney
  assets : ∀ name, node.availableAmount req name ≤ maxMoney
  presets : ∀ name, mapSum (assetWeight node.cfg name) (node.presets req) ≤ maxMoney

theorem WithinSupply.outputs (h : WithinSupply node req) {coin : CInputCoin}
    (hcoin : coin ∈ node.wallet.outputs.map (·.2)) : 0 ≤ coin.txout.nValue ∧ ∀ name, 0 ≤ assetWeight node.cfg name coin.txout := by
  obtain ⟨p, hp, rfl⟩ := List.mem_map.mp hcoin
  obtain ⟨pcoin, hpcoin, hp⟩ := List.mem_flatMap.mp hp
  obtain ⟨q, hq, rfl⟩ := List.mem_map.mp hp
  exact h.nonneg pcoin (List.mem_of_mem_filter hpcoin) q.1 (List.fst_mem_of_mem_zipIdx hq)

/-- What `SelectCoins` chooses is worth at most `MAX_MONEY`. -/
theorem WithinSupply.selected (h : WithinSupply node req) (hselected : req.coinControl.setSelected.Nodup)
        (hr : node.wallet.selectCoins (node.available req).1 nTargetValue choices req.coinControl = some r) :
    0 ≤ r.2 ∧ r.2 ≤ maxMoney := by
  obtain ⟨⟨l, hsub, hsum⟩, hvalue, -⟩ := selectCoins_spec (available_nodup node req) hr
  have hall : ∀ coin ∈ node.others req (node.available req).1, 0 ≤ coin.txout.nValue :=
    fun coin hcoin => (h.outputs ((available_offered node req).coins.subset (others_sublist.subset hcoin))).1
  have hpresets : 0 ≤ mapSum CTxOut.nValue (node.presets req) := mapSum_nonneg fun o x hx => by
    obtain ⟨pcoin, hpcoin, hmem⟩ := presets_from hx
    exact (h.nonneg pcoin hpcoin x hmem).1
  have hlow : 0 ≤ (l.map fun coin => coin.txout.nValue).sum := List.sum_nonneg fun v hv => by
    obtain ⟨coin, hcoin, rfl⟩ := List.mem_map.mp hv
    exact hall coin (hsub.subset hcoin)
  have hnodup : l.Nodup := by
    obtain ⟨k, hperm, hk⟩ := hsub
    refine hperm.nodup_iff.mp ((hk.trans others_sublist).nodup (List.Nodup.of_map (·.outpoint) ?_))
    rw [List.map_map]
    exact available_nodup node req
  have hhigh := sum_le_of_subset (w := CTxOut.nValue) hnodup hsub.subset hall
  have hcoins := h.coins
  rw [hvalue hselected, hsum]
  constructor
  · omega
  · exact le_trans (Int.add_le_add_right hhigh _) hcoins

/-! ## Assets -/

/-- What `SelectAssets` may choose for the amounts sent, with the change that is made of it. -/
def AssetChoice (node : CreateNode) (setup : LoopSetup) (setAssets : CoinSet) (assetChange : List CTxOut) : Prop :=
  if node.cfg.dep.assets then ∃ choices mapAssetsIn,
    node.wallet.selectAssets node.cfg setup.mapAssetCoins setup.totals.mapAssetValue choices =
        some (setAssets, mapAssetsIn) ∧
      assetChangeOutputs node setup setAssets mapAssetsIn = .ok assetChange
  else setAssets = ∅ ∧ assetChange = []

theorem AssetChoice.undeployed
    (h : AssetChoice node setup setAssets assetChange) (hdep : node.cfg.dep.assets = false) : setAssets = ∅ := by
  rw [AssetChoice, if_neg (by rw [hdep]; exact Bool.false_ne_true)] at h
  exact h.1

theorem assetWeight_of_plain {txout : CTxOut} (h : isAssetScript txout.scriptPubKey = none) : assetWeight cfg name txout = 0 := by
  have hnone : getAssetData cfg txout.scriptPubKey = none := by
    cases hdata : getAssetData cfg txout.scriptPubKey with
    | none => rfl
    | some data => simpa [h] using isAssetScript_of_getAssetData hdata
  simp [assetWeight, hnone]

/-- Of an asset, the coins chosen hold what the coin control names. -/
theorem selectCoins_assets
    (h : node.wallet.selectCoins (node.available req).1 nTargetValue choices req.coinControl = some r) :
    mapSum (assetWeight cfg name) r.1 = mapSum (assetWeight cfg name) (node.presets req) := by
  obtain ⟨⟨l, hsub, hsum⟩, -⟩ := selectCoins_spec (available_nodup node req) h
  rw [hsum, List.sum_eq_zero, zero_add]
  intro v hv
  obtain ⟨coin, hcoin, rfl⟩ := List.mem_map.mp hv
  obtain ⟨out, hout, rfl⟩ := List.mem_map.mp (others_sublist.subset (hsub.subset hcoin))
  exact assetWeight_of_plain ((available_offered node req).plain out hout)

/-- An output that gives back what was chosen of an asset above the amount sent. -/
def IsAssetChange (node : CreateNode) (setup : LoopSetup) (setAssets : CoinSet) (mapAssetsIn : AssetTotals) (out : CTxOut) :
    Prop :=
  ∃ p ∈ mapAssetChange setup.totals.mapAssetValue mapAssetsIn, 0 < p.2 ∧ ∃ script,
    assetChangeScript node setAssets setup.assetScriptChange p.1 = .ok script ∧ out = assetChangeOut p.1 p.2 script

theorem isAssetChange_of_mem {mapAssetsIn : AssetTotals}
    (h : assetChangeOutputs node setup setAssets mapAssetsIn = .ok assetChange) :
    ∀ out ∈ assetChange, IsAssetChange node setup setAssets mapAssetsIn out := by
  rw [assetChangeOutputs] at h
  split_ifs at h
  swap
  · obtain rfl := pure_eq_ok.mp h
    simp
  refine foldlM_invariant (fun vout => ∀ out ∈ vout, IsAssetChange node setup setAssets mapAssetsIn out) ?_ (by simp) h
  intro vout vout' p hp hvout hstep
  rw [addAssetChange] at hstep
  split_ifs at hstep with hpos
  · obtain ⟨script, hscript, hstep⟩ := bind_eq_ok.mp hstep
    obtain rfl := pure_eq_ok.mp hstep
    intro out hout
    rcases List.mem_append.mp hout with hout | hout
    · exact hvout out hout
    · exact ⟨p, hp, hpos, script, hscript, List.mem_singleton.mp hout⟩
  · rwa [← pure_eq_ok.mp hstep]

/-- Of an asset no more is chosen than is available. -/
theorem WithinSupply.selectedAssets (h : WithinSupply node req) (name : Bytes) {mapAssetTargetValue mapAssetsIn : AssetTotals}
    (hselected : SelectedSoFar node.cfg mapAssetTargetValue (node.available req).2.toList (setAssets, mapAssetsIn)) :
    0 ≤ mapSum (assetWeight node.cfg name) setAssets ∧ mapSum (assetWeight node.cfg name) setAssets ≤
      node.availableAmount req name := by
  obtain ⟨l, hl, hnodup, hfrom⟩ := hselected.coins
  have hsub : l ⊆ ((node.available req).2.toList.flatMap (·.2)).map (·.coin) := by
    intro coin hcoin
    obtain ⟨q, hq, hmem⟩ := hfrom coin hcoin
    obtain ⟨out, hout, rfl⟩ := List.mem_map.mp hmem
    exact List.mem_map_of_mem (List.mem_flatMap.mpr ⟨q, hq, hout⟩)
  have hnonneg : ∀ coin ∈ ((node.available req).2.toList.flatMap (·.2)).map (·.coin),
      0 ≤ assetWeight node.cfg name coin.txout := fun coin hcoin => by
    obtain ⟨out, hout, rfl⟩ := List.mem_map.mp hcoin
    obtain ⟨q, hq, hout⟩ := List.mem_flatMap.mp hout
    have hget := TreeMap.mem_toList_iff_getElem?_eq_some.mp hq
    exact (h.outputs (((available_offered node req).offered q.1 q.2 hget).subset (List.mem_map_of_mem hout))).2 name
  have hle := sum_le_of_subset (w := assetWeight node.cfg name) hnodup.of_map hsub hnonneg
  rw [List.map_map] at hle
  rw [mapSum_eq_of_holds hl hnodup]
  refine ⟨List.sum_nonneg fun v hv => ?_, hle⟩
  obtain ⟨coin, hcoin, rfl⟩ := List.mem_map.mp hv
  exact hnonneg coin (hsub hcoin)

/-- Preset coins hold no negative amount of an asset. -/
theorem WithinSupply.presets_nonneg (h : WithinSupply node req) (name : Bytes) :
    0 ≤ mapSum (assetWeight node.cfg name) (node.presets req) :=
  mapSum_nonneg fun o x hx => by
    obtain ⟨pcoin, hpcoin, hmem⟩ := presets_from hx
    exact (h.nonneg pcoin hpcoin x hmem).2 name

/-- Nothing is left over when no more is chosen of an asset than the target that was asked for. -/
theorem AssetChoice.eq_nil (h : AssetChoice node setup setAssets assetChange)
    (hcoins : setup.mapAssetCoins = (node.available req).2)
    (hle : ∀ (name : Bytes) (target : Int) mapAssetsIn, setup.totals.mapAssetValue[name]? = some target → 0 < target →
      SelectedSoFar node.cfg setup.totals.mapAssetValue (node.available req).2.toList (setAssets, mapAssetsIn) →
      mapSum (assetWeight node.cfg name) setAssets ≤ target) : assetChange = [] := by
  rw [AssetChoice] at h
  split_ifs at h with hdep
  swap
  · exact h.2
  obtain ⟨choices, mapAssetsIn, hselect, hchange⟩ := h
  refine List.eq_nil_iff_forall_not_mem.mpr fun out hout => ?_
  obtain ⟨p, hp, hleft, -⟩ := isAssetChange_of_mem hchange out hout
  obtain ⟨value, amountIn, hvalue, hin, hp₂⟩ := mem_mapAssetChange.mp hp
  rw [hcoins] at hselect
  have hspec := selectAssets_spec (available_offered node req) (outpoints_nodup node.wallet) hselect
  obtain ⟨target, htarget, hpos, -⟩ := hspec.reaches p.1 amountIn hin
  obtain rfl := Option.some.inj (hvalue.symm.trans htarget)
  have hheld := hle p.1 value mapAssetsIn hvalue hpos hspec
  rw [hspec.balance, TreeMap.getD_eq_getD_getElem?, hin, Option.getD_some] at hheld
  omega

/-- Assets that are chosen and preset in just the amounts sent leave no change. -/
theorem AssetChoice.noChange (hsupply : WithinSupply node req) (hcoins : setup.mapAssetCoins = (node.available req).2)
    (htotals : Totals node.cfg req.usesAssets req.vecSend setup.totals)
    (h : AssetChoice node setup setAssets assetChange)
    (hexact : ∀ name, mapSum (assetWeight node.cfg name) (node.presets req) +
      mapSum (assetWeight node.cfg name) setAssets = sentAmount node.cfg name req.vecSend) : assetChange = [] := by
  refine h.eq_nil hcoins fun name target mapAssetsIn htarget hpos hspec => ?_
  -- the amount sent is one of the wallet's, so it was added up without leaving the range
  have hpresets := hsupply.presets_nonneg name
  have hpresetBound := hsupply.presets name
  obtain ⟨hnonneg, hle⟩ := hsupply.selectedAssets name hspec
  have hbound := hle.trans (hsupply.assets name)
  have hmax : 2 * maxMoney < 2 ^ 63 := by decide
  have hsent := htotals.sent name
  rw [TreeMap.getD_eq_getD_getElem?, htarget, Option.getD_some, ← hexact,
    toCAmount_of_fits (by omega) (by omega)] at hsent
  split_ifs at hsent <;> omega

/-- A call that sends all that is available of every asset has no other choice. -/
theorem AssetChoice.exact_of_sendsAll (hsupply : WithinSupply node req)
    (hcoins : setup.mapAssetCoins = (node.available req).2)
    (htotals : Totals node.cfg req.usesAssets req.vecSend setup.totals) (huses : req.usesAssets = true)
    (hdep : node.cfg.dep.assets = true) (hall : ∀ name, node.availableAmount req name = sentAmount node.cfg name req.vecSend)
    (h : AssetChoice node setup setAssets assetChange) (name : Bytes) :
    mapSum (assetWeight node.cfg name) setAssets = sentAmount node.cfg name req.vecSend := by
  rw [AssetChoice, if_pos hdep] at h
  obtain ⟨choices, mapAssetsIn, hselect, -⟩ := h
  rw [hcoins] at hselect
  have hspec := selectAssets_spec (available_offered node req) (outpoints_nodup node.wallet) hselect
  obtain ⟨hnonneg, hle⟩ := hsupply.selectedAssets name hspec
  rw [hall] at hle
  refine le_antisymm hle ?_
  by_cases hpos : 0 < sentAmount node.cfg name req.vecSend
  swap
  · omega
  -- something is available of what is sent, so `SelectAssets` reaches the amount
  have hbound := hsupply.assets name
  rw [hall] at hbound
  have hmax : maxMoney < 2 ^ 63 := by decide
  have hsent := htotals.sent name
  rw [if_pos huses, toCAmount_of_fits (by omega) (by omega), TreeMap.getD_eq_getD_getElem?] at hsent
  have htarget : setup.totals.mapAssetValue[name]? = some (sentAmount node.cfg name req.vecSend) := by
    cases hget : setup.totals.mapAssetValue[name]? with
    | none =>
      rw [hget, Option.getD_none] at hsent
      omega
    | some v => rw [← hsent, hget, Option.getD_some]
  have hkey : name ∈ (node.available req).2.toList.map (·.1) := by
    by_contra hnot
    rw [← hall, CreateNode.availableAmount, List.sum_eq_zero] at hpos
    · exact lt_irrefl 0 hpos
    intro v hv
    obtain ⟨out, hout, rfl⟩ := List.mem_map.mp hv
    obtain ⟨q, hq, hout⟩ := List.mem_flatMap.mp hout
    have hget := TreeMap.mem_toList_iff_getElem?_eq_some.mp hq
    obtain ⟨data, hdata, hname⟩ := (available_offered node req).carries q.1 q.2 hget out hout
    have hne : data.assetName ≠ name := fun heq => hnot (List.mem_map.mpr ⟨q, hq, hname.symm.trans heq⟩)
    simp [assetWeight, hdata, hne]
  cases hin : mapAssetsIn[name]? with
  | none => exact absurd hin (hspec.covers name _ htarget hpos hkey)
  | some amountIn =>
    obtain ⟨target, htarget', -, hreach, -⟩ := hspec.reaches name amountIn hin
    obtain rfl := Option.some.inj (htarget.symm.trans htarget')
    rw [hspec.balance, TreeMap.getD_eq_getD_getElem?, hin]
    exact hreach

end HempCore
