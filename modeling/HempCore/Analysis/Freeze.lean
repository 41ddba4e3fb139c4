import HempCore.Analysis.Commands

/-!
# Frozen addresses and assets

Freezes are switches: a pending command or a stored marker decides. A block is accepted only when
each of its commands changes the state of the tip, so that undoing it restores that state, and the
answers follow the last command of the active chain over every connection, disconnection and write.
-/

set_option autoImplicit false

namespace HempCore

open Lib

variable {cfg : Config} {g : AssetGlobals} {block : CBlock} {keys : Set NameAddress} {node : Node}

/-! ## Freezes in blocks -/

/-- The last command for an asset at an address, in the blocks of the chain, is a freeze. -/
def frozenByHistory (cfg : Config) (chain : List CBlock) (key : NameAddress) : Bool :=
  switchedOn (chain.map fun block => (block.freezes cfg).map fun c => (c.1, c.2.isOn)) key

/-- The last global command for an asset, in the blocks of the chain, is a freeze. -/
def globallyFrozenByHistory (cfg : Config) (chain : List CBlock) (name : Bytes) : Bool :=
  switchedOn (chain.map fun block => (block.globalFreezes cfg).map fun c => (c.1, c.2.isOn)) name

/-! ## The stores -/

theorem checkForAddressRestriction_eq (name address : Bytes) :
    CAssetsCache.checkForAddressRestriction cfg g name address =
      g.freezes.answer (getHash cfg) RestrictedType.isOn (name, address) := rfl

theorem checkForGlobalRestriction_eq (name : Bytes) :
    CAssetsCache.checkForGlobalRestriction g name = g.globalFreezes.answer id RestrictedType.isOn name := rfl

variable (cfg g) in
theorem dump_freezes :
    (g.dumpCacheToDatabase cfg).freezes = g.freezes.dump (getHash cfg) RestrictedType.isOn ∧
      (g.dumpCacheToDatabase cfg).globalFreezes = g.globalFreezes.dump id RestrictedType.isOn := by
  have htables := AssetGlobals.switchTables_dumpCacheToDatabase cfg g
  simp only [AssetGlobals.switchTables, Prod.mk.injEq] at htables
  obtain ⟨hpassets, -, hrestrictions, hglobals⟩ := htables
  simp only [AssetGlobals.freezes, AssetGlobals.globalFreezes, hpassets, hrestrictions, hglobals]
  exact ⟨rfl, rfl⟩

/-! ## Runs -/

def freezeKeys (cfg : Config) (actions : List Node.Action) : Set NameAddress :=
  { key | ∃ block, .connect block ∈ actions ∧ ∃ type, (key, type) ∈ block.freezes cfg }

/-- Both stores answer by the blocks of the chain, whose commands can be undone. -/
structure FreezeInvariant (cfg : Config) (keys : Set NameAddress) (node : Node) : Prop where
  freezes : node.assets.freezes.Tracks (getHash cfg) RestrictedType.isOn keys Set.univ
    (node.chain.map fun block => (block.freezes cfg).map fun c => (c.1, c.2.isOn))
  globals : node.assets.globalFreezes.Tracks id RestrictedType.isOn Set.univ Set.univ
    (node.chain.map fun block => (block.globalFreezes cfg).map fun c => (c.1, c.2.isOn))
  used : ∀ block ∈ node.chain, ∀ c ∈ block.freezes cfg, c.1 ∈ keys
  deployed : Revocable cfg node.chain node.dep

theorem freezeInvariant_genesis (keys : Set NameAddress) (dep : Deployments) :
    FreezeInvariant cfg keys (.genesis dep) where
  freezes := Switches.tracks_empty maxCacheAssetsSize
  globals := Switches.tracks_empty maxCacheAssetsSize
  used := by simp [Node.genesis]
  deployed := by simp [Node.genesis, Revocable]

theorem freezes_of_commands (h : ∀ c ∈ block.commands cfg, CommandAccepted cfg g c) :
    ∀ c ∈ block.freezes cfg, ReadableKey cfg c.1 ∧ g.freezes.answer (getHash cfg) RestrictedType.isOn c.1 = !c.2.isOn := by
  intro c hc
  obtain ⟨command, s, hpick, haccepted, hout⟩ := accepted_of_pick h hc
  cases command with
  | qualifier name address type => cases hpick
  | globalRestricted name type => cases hpick
  | restrictedAddress name address type =>
    cases hpick
    refine ⟨⟨address_of_nullAssetCommand hout rfl, ?_⟩, haccepted.2⟩
    have hrestricted := haccepted.1
    simp only [isAssetNameAnRestricted, Bool.and_eq_true] at hrestricted
    exact length_le_of_isAssetNameValid hrestricted.1

theorem globalFreezes_of_commands (h : ∀ c ∈ block.commands cfg, CommandAccepted cfg g c) :
    ∀ c ∈ block.globalFreezes cfg, g.globalFreezes.answer id RestrictedType.isOn c.1 = !c.2.isOn := by
  intro c hc
  obtain ⟨command, s, hpick, haccepted, -⟩ := accepted_of_pick h hc
  cases command with
  | qualifier name address type => cases hpick
  | restrictedAddress name address type => cases hpick
  | globalRestricted name type =>
    cases hpick
    exact haccepted

theorem freezeInvariant_connect (hinj : Set.InjOn (getHash cfg) keys)
    {node' : Node} (hnode : FreezeInvariant cfg keys node)
    (hkeys : ∀ c ∈ block.freezes cfg, ReadableKey cfg c.1 → c.1 ∈ keys)
    (hcoinbase : CoinbaseChecked node (.connect block))
    (h : node.connectTip cfg block = .ok node') : FreezeInvariant cfg keys node' := by
  obtain ⟨cache, happlies⟩ := commands_of_connectTip hcoinbase h
  have hchecked : ∀ c ∈ block.commands cfg, CommandAccepted cfg node.assets c := fun c hc => (happlies.accepted c hc).2.2
  have hfreezes := freezes_of_commands hchecked
  have hused : ∀ c ∈ block.freezes cfg, c.1 ∈ keys := fun c hc => hkeys c hc (hfreezes c hc).1
  refine ⟨?_, ?_, ?_, happlies.deployed hnode.deployed⟩
  · rw [happlies.freezes, happlies.chain, List.map_cons]
    exact hnode.freezes.connect hinj hused fun c hc _ => (hfreezes c hc).2
  · rw [happlies.globals, happlies.chain, List.map_cons]
    exact hnode.globals.connect (Set.injOn_id _) (fun c _ => Set.mem_univ c.1)
      fun c hc _ => globalFreezes_of_commands hchecked c hc
  · rw [happlies.chain, List.forall_mem_cons]
    exact ⟨hused, hnode.used⟩

theorem freezeInvariant_disconnect {node' : Node} (hnode : FreezeInvariant cfg keys node)
    (h : node.disconnectTip cfg = some node') : FreezeInvariant cfg keys node' := by
  obtain ⟨block, undone, cache, hundoes⟩ := commands_of_disconnectTip hnode.deployed h
  obtain ⟨hfreezes, hglobals, hused, -⟩ := hnode
  rw [hundoes.chain] at hfreezes hglobals hused
  obtain ⟨hblock, hrest⟩ := List.forall_mem_cons.mp hused
  refine ⟨?_, ?_, hrest, hundoes.deployed⟩
  · rw [hundoes.freezes]
    exact hfreezes.disconnect (fun c => by simp [CBlock.freezes, List.mem_filterMap, hundoes.mem]) hblock
  · rw [hundoes.globals]
    exact hglobals.disconnect (fun c => by simp [CBlock.globalFreezes, List.mem_filterMap, hundoes.mem])
      fun c _ => Set.mem_univ c.1

theorem freezeInvariant_dump (hnode : FreezeInvariant cfg keys node) :
    FreezeInvariant cfg keys { node with assets := node.assets.dumpCacheToDatabase (node.config cfg) } := by
  have hdump := dump_freezes (node.config cfg) node.assets
  refine ⟨?_, ?_, hnode.used, hnode.deployed⟩
  · rw [hdump.1]
    exact hnode.freezes.dump
  · rw [hdump.2]
    exact hnode.globals.dump

theorem freezeInvariant_touch (hnode : FreezeInvariant cfg keys node)
    (t : AssetGlobals.Touch) : FreezeInvariant cfg keys { node with assets := node.assets.touch cfg t } := by
  refine ⟨?_, ?_, hnode.used, hnode.deployed⟩
  · cases hkey : t.restriction with
    | none =>
      simp only [AssetGlobals.freezes, AssetGlobals.touch, hkey]
      exact hnode.freezes
    | some key =>
      simp only [AssetGlobals.freezes, AssetGlobals.touch, hkey]
      exact hnode.freezes.refill key
  · cases hname : t.globalRestriction with
    | none =>
      simp only [AssetGlobals.globalFreezes, AssetGlobals.touch, hname]
      exact hnode.globals
    | some name =>
      simp only [AssetGlobals.globalFreezes, AssetGlobals.touch, hname]
      exact hnode.globals.refill name

theorem freezeInvariant_step {actions : List Node.Action} (hinj : Set.InjOn (getHash cfg) keys)
    (hkeys : ∀ key ∈ freezeKeys cfg actions, ReadableKey cfg key → key ∈ keys) (node : Node) (action : Node.Action)
    (node' : Node) (hnode : FreezeInvariant cfg keys node) (haction : CoinbaseChecked node action ∧ action ∈ actions)
    (h : node.step cfg action = some node') : FreezeInvariant cfg keys node' := by
  cases action with
  | connect block =>
    refine freezeInvariant_connect hinj hnode (fun c hc => ?_) haction.1 (step_connect h)
    exact hkeys c.1 ⟨block, haction.2, c.2, hc⟩
  | disconnect => exact freezeInvariant_disconnect hnode h
  | dump =>
    cases h
    split_ifs
    · exact freezeInvariant_dump hnode
    · exact hnode
  | touch t =>
    cases h
    exact freezeInvariant_touch hnode t
  | activate dep =>
    simp only [Node.step] at h
    split_ifs at h with hle
    cases h
    exact ⟨hnode.freezes, hnode.globals, hnode.used, hnode.deployed.activate hle⟩

/-! ## Enforcement -/

/-- No transaction of the block spends a restricted asset at a frozen address, or transfers one
that is globally frozen. A coinbase spends nothing. -/
def SparesFrozen (cfg : Config) (node : Node) (block : CBlock) : Prop :=
  ∀ before tx after, block.vtx = before ++ tx :: after →
    ∃ st, before.foldlM (connectTx (node.config cfg) node.assets (node.height + 1) block.hash)
        ⟨node.coins, .empty, 0, [], []⟩ = .ok st ∧
      (∀ txin ∈ tx.vin, tx.isCoinBase = false →
        ∃ coin, st.coins[txin.prevout]? = some coin ∧ ∀ data,
          getAssetData (node.config cfg) coin.out.scriptPubKey = some data →
          isAssetNameOfType .RESTRICTED data.assetName = true →
          frozenByHistory cfg node.chain (data.assetName, data.address) = false) ∧
      ∀ out ∈ tx.vout, ∀ transfer address,
        transferAssetFromScript (node.config cfg) out.scriptPubKey = some (transfer, address) →
        isAssetNameOfType .RESTRICTED transfer.strName = true →
        globallyFrozenByHistory cfg node.chain transfer.strName = false

theorem frozenByHistory_of_not_deployed (hnode : FreezeInvariant cfg keys node)
    (hassets : node.dep.assets = false) (key : NameAddress) : frozenByHistory cfg node.chain key = false := by
  have hnone : ∀ block ∈ node.chain, block.freezes cfg = [] := by
    intro block hblock
    rw [CBlock.freezes, List.filterMap_eq_nil_iff]
    intro c hc
    have hdeployed := (hnode.deployed block hblock c hc).1
    rw [hassets] at hdeployed
    cases hdeployed
  rw [frozenByHistory, switchedOn, (lastFor_eq_none (k := key)).mpr, Option.getD_none]
  intro c hc
  simp only [List.mem_flatten, List.mem_reverse, List.mem_map] at hc
  obtain ⟨_, ⟨block, hblock, rfl⟩, hmem⟩ := hc
  simp [hnone block hblock] at hmem

section Enforcement

variable {nHeight : Nat} {st : ConnectState} {tx : CTransaction}

theorem not_frozen_of_checked {nFees : Int} (hchecked : Checked cfg g nHeight st tx nFees)
    (hassets : cfg.dep.assets = true) {txin : CTxIn} (htxin : txin ∈ tx.vin) {coin : Coin}
    (hcoin : st.coins[txin.prevout]? = some coin) {data : CAssetOutputEntry}
    (hdata : getAssetData cfg coin.out.scriptPubKey = some data)
    (hrestricted : isAssetNameOfType .RESTRICTED data.assetName = true) :
    CAssetsCache.checkForAddressRestriction cfg g data.assetName data.address = false := by
  have hcheck := hchecked.assets
  simp only [checkBlockTxAssets, hassets, if_true, bind_eq_ok, pure_eq_ok] at hcheck
  obtain ⟨pairs, hcheck, -⟩ := hcheck
  obtain ⟨-, totalInputs, totals, hinputs, -⟩ := checkTxAssets_ok hcheck
  obtain ⟨t, t', hstep⟩ := foldlM_step_of_mem htxin hinputs
  obtain ⟨coin', hcoin', hcase⟩ := checkAssetInput_ok hstep
  have hsame : coin' = coin := Option.some.inj (hcoin'.symm.trans hcoin)
  subst hsame
  rcases hcase with ⟨hnone, -⟩ | ⟨data', hdata', -, -, -, hfrozen⟩
  · simp [getAssetData, hnone] at hdata
  · have hsame : data' = data := Option.some.inj (hdata'.symm.trans hdata)
    subst hsame
    simp only [checkNotFrozen, isAssetNameAnRestricted_of_isAssetNameOfType hrestricted, if_true,
      require_eq_ok, Bool.not_eq_true'] at hfrozen
    exact hfrozen

theorem not_globallyFrozen_of_checked {nFees : Int} (hchecked : Checked cfg g nHeight st tx nFees)
    {out : CTxOut} (hout : out ∈ tx.vout) {transfer : CAssetTransfer} {address : Bytes}
    (htransfer : transferAssetFromScript cfg out.scriptPubKey = some (transfer, address))
    (hrestricted : isAssetNameOfType .RESTRICTED transfer.strName = true) :
    CAssetsCache.checkForGlobalRestriction g transfer.strName = false := by
  obtain ⟨start, hscript⟩ := isAssetScript_of_transfer htransfer
  have hcheck := hchecked.assets
  unfold checkBlockTxAssets at hcheck
  split_ifs at hcheck
  · simp only [bind_eq_ok, pure_eq_ok] at hcheck
    obtain ⟨pairs, hcheck, -⟩ := hcheck
    obtain ⟨-, totalInputs, totals, -, houtputs, -⟩ := checkTxAssets_ok hcheck
    obtain ⟨t, t', hstep⟩ := foldlM_step_of_mem hout houtputs
    rcases (checkAssetOutput_ok hstep).2 with ⟨_, -, hcheck⟩ | ⟨hnot, -⟩
    · obtain ⟨transfer', address', hparse, hcontext, -⟩ := checkAssetTransferOutput_ok hcheck
      rw [htransfer] at hparse
      cases hparse
      simp only [contextualCheckTransferAsset, bind_eq_ok, exists_punit, onlyWhen_eq_ok,
        assetTypeOf_of_isAssetNameOfType hrestricted, beq_self_eq_true, true_implies] at hcontext
      obtain ⟨-, -, -, -, hrestrictedCheck, -⟩ := hcontext
      simp only [contextualCheckRestrictedTransfer, bind_eq_ok, exists_punit, require_eq_ok,
        Bool.not_eq_true'] at hrestrictedCheck
      exact hrestrictedCheck.2.1
    · exact absurd hscript (hnot start)
  · have hnot := forM_eq_ok.mp hcheck out hout
    simp [hscript] at hnot

end Enforcement

theorem sparesFrozen_of_connectTip {node' : Node}
    (hnode : FreezeInvariant cfg keys node) (hcoinbase : CoinbaseChecked node (.connect block))
    (h : node.connectTip cfg block = .ok node') : SparesFrozen cfg node block := by
  obtain ⟨st', undoData, hblock, -⟩ := connectTip_ok h
  obtain ⟨hcheck, hfold, -⟩ := connectBlock_ok hblock
  obtain ⟨-, -, -, -, -, htxs⟩ := checkBlock_ok hcheck
  have hbare : block.CoinbaseBare := hcoinbase.elim (fun hdeployed => coinbaseBare_of_checkBlock hdeployed hcheck) id
  intro before tx after hvtx
  have hmem : tx ∈ block.vtx := by simp [hvtx]
  rw [hvtx, List.foldlM_append, bind_eq_ok] at hfold
  obtain ⟨st, hbefore, hfold⟩ := hfold
  rw [List.foldlM_cons, bind_eq_ok] at hfold
  obtain ⟨st₁, htx, -⟩ := hfold
  obtain ⟨hchecked, -⟩ := connectTx_ok (nodup_of_checkTransaction (htxs tx hmem)) htx
  refine ⟨st, hbefore, fun txin htxin hspends => ?_, fun out hout transfer address hparse hname => ?_⟩
  · rw [if_neg (by simp [hspends])] at hchecked
    obtain ⟨fee, hinputs, -⟩ := hchecked.inputs
    have hcoin : ∃ coin, st.coins[txin.prevout]? = some coin := by
      simp only [checkTxInputs, bind_eq_ok, exists_punit] at hinputs
      obtain ⟨-, nValueIn, hfoldIn, -⟩ := hinputs
      obtain ⟨t, t', hstep⟩ := foldlM_step_of_mem htxin hfoldIn
      simp only [checkTxInput, bind_eq_ok, demand_eq_ok] at hstep
      obtain ⟨coin, hcoin, -⟩ := hstep
      exact ⟨coin, hcoin⟩
    obtain ⟨coin, hcoin⟩ := hcoin
    refine ⟨coin, hcoin, fun data hdata hname => ?_⟩
    cases hassets : node.dep.assets with
    | false => exact frozenByHistory_of_not_deployed hnode hassets _
    | true =>
      have hfree := not_frozen_of_checked hchecked hassets htxin hcoin hdata hname
      by_contra hfrozen
      rw [Bool.not_eq_false] at hfrozen
      have hon := hnode.freezes.answer_of_switchedOn (Set.mem_univ _) hfrozen
      rw [← checkForAddressRestriction_eq] at hon
      exact absurd (hon.symm.trans hfree) (by simp)
  · cases hcb : tx.isCoinBase with
    | true =>
      obtain ⟨start, hscript⟩ := isAssetScript_of_transfer hparse
      rw [(hbare tx hmem hcb out hout).1] at hscript
      cases hscript
    | false =>
      rw [if_neg (by simp [hcb])] at hchecked
      have hfree := not_globallyFrozen_of_checked hchecked hout hparse hname
      by_contra hfrozen
      rw [Bool.not_eq_false] at hfrozen
      have hon := hnode.globals.answer_of_switchedOn (Set.mem_univ _) hfrozen
      rw [← checkForGlobalRestriction_eq] at hon
      exact absurd (hon.symm.trans hfree) (by simp)

/-! ## The result -/

/-- On every node whose connected blocks have coinbases without assets and commands, the answers
for freezes are those of the last command in the active chain, and no accepted block spends or
transfers what is frozen. -/
theorem freeze_state_eq_history (hformat : AddressFormat cfg) (dep : Deployments)
    (actions : List Node.Action) (node : Node)
    (hcoinbase : Along (Node.step cfg) CoinbaseChecked (.genesis dep) actions)
    (hrun : (Node.genesis dep).run cfg actions = some node) (name address : Bytes)
    (hname : isAssetNameOfType .RESTRICTED name = true) (haddress : CommandAddress cfg address)
    (hhash : Set.InjOn cfg.hash
      (Set.image (fun key : NameAddress => key.1 ++ key.2)
        (insert (name, address) (freezeKeys cfg actions)))) :
    CAssetsCache.checkForAddressRestriction cfg node.assets name address =
        frozenByHistory cfg node.chain (name, address) ∧
      CAssetsCache.checkForGlobalRestriction node.assets name =
        globallyFrozenByHistory cfg node.chain name ∧
      ∀ block node', CoinbaseChecked node (.connect block) → node.connectTip cfg block = .ok node' →
        SparesFrozen cfg node block := by
  set asked : Set NameAddress := insert (name, address) (freezeKeys cfg actions) with hasked
  set keys : Set NameAddress := { key | key ∈ asked ∧ ReadableKey cfg key } with hkeys
  have hsub : keys ⊆ asked := fun key hkey => hkey.1
  have hinj : Set.InjOn (getHash cfg) keys :=
    getHash_injOn hformat (fun key hkey => ⟨hkey.2.1, fun _ => hkey.2.2⟩)
      (hhash.mono (Set.image_mono hsub))
  have hvalid : isAssetNameValid name = true := by
    simp only [isAssetNameOfType, Bool.and_eq_true] at hname
    exact hname.1
  have hmem : (name, address) ∈ keys :=
    ⟨Set.mem_insert _ _, haddress, length_le_of_isAssetNameValid hvalid⟩
  have hnode : FreezeInvariant cfg keys node :=
    run_invariant
      (freezeInvariant_step hinj fun key hkey hreadable => ⟨Set.mem_insert_of_mem _ hkey, hreadable⟩)
      (freezeInvariant_genesis keys dep) hcoinbase.and_mem hrun
  exact ⟨hnode.freezes.answer_eq hinj hmem (Set.mem_univ _),
    hnode.globals.answer_eq (Set.injOn_id _) (Set.mem_univ name) (Set.mem_univ name),
    fun block node' hbare htip => sparesFrozen_of_connectTip hnode hbare htip⟩

/-! ## A freeze, and one by coinbases -/

/-- Freezes `$ABC` at the address of Bob, with the owner token of `ABC`. -/
def abcFreezeTx : CTransaction where
  vin := [⟨⟨2001, 1⟩, []⟩]
  vout := [transferOut aliceKeyID (str "ABC!") COIN, freezeOut bobKeyID (str "$ABC") 1]
  hash := 2002

def abcFreezeBlock : CBlock := ⟨102, [coinbaseAt 102, abcFreezeTx]⟩

def abcFreezeRun : List Node.Action :=
  maturedChain ++ [.connect abcIssueBlock, .connect abcFreezeBlock, .dump]

theorem freezeKeys_abcFreezeRun : freezeKeys mainAll abcFreezeRun ⊆ {(str "$ABC", bobAddress)} := by
  rintro key ⟨block, hblock, type, hfreeze⟩
  have hnone : ∀ i, (⟨i + 1, [coinbaseAt (i + 1)]⟩ : CBlock).freezes mainAll = [] := by
    intro i
    have hout : nullAssetCommand mainAll (paymentOut aliceKeyID (10 * COIN)).scriptPubKey =
        none := by decide +kernel
    simp [CBlock.freezes, CBlock.commands, CTransaction.commands, coinbaseAt, hout]
  have hissue : abcIssueBlock.freezes mainAll = [] := by decide +kernel
  have hfreezes : abcFreezeBlock.freezes mainAll = [((str "$ABC", bobAddress), .FREEZE_ADDRESS)] := by decide +kernel
  simp only [abcFreezeRun, maturedChain, List.mem_append, List.mem_map, List.mem_cons,
    Node.Action.connect.injEq, reduceCtorEq, List.not_mem_nil, or_false] at hblock
  rcases hblock with ⟨i, -, rfl⟩ | rfl | rfl
  · simp [hnone] at hfreeze
  · simp [hissue] at hfreeze
  · rw [hfreezes, List.mem_singleton] at hfreeze
    exact (Prod.mk.inj hfreeze).1

theorem abcFreeze_state_eq_history :
    ∃ node, (Node.genesis .all).run mainAll abcFreezeRun = some node ∧
      frozenByHistory mainAll node.chain (str "$ABC", bobAddress) = true ∧
      CAssetsCache.checkForAddressRestriction mainAll node.assets (str "$ABC") bobAddress =
        true := by
  have hcoinbase : Along (Node.step mainAll) CoinbaseChecked (.genesis .all)
      abcFreezeRun := by
    refine along_of_dep (by simp [abcFreezeRun, maturedChain]) fun node hdep action _ => ?_
    cases action with
    | connect block => exact .inl (by rw [hdep]; rfl)
    | _ => trivial
  have hhistory : ((Node.genesis .all).run mainAll abcFreezeRun).map (fun node =>
      frozenByHistory mainAll node.chain (str "$ABC", bobAddress)) = some true := by
    decide +kernel
  obtain ⟨node, hrun, hfrozen⟩ := Option.map_eq_some_iff.mp hhistory
  have hhash : Set.InjOn mainAll.hash
      (Set.image (fun key : NameAddress => key.1 ++ key.2)
        (insert (str "$ABC", bobAddress) (freezeKeys mainAll abcFreezeRun))) := by
    refine Set.Subsingleton.injOn (Set.Subsingleton.image (fun a ha b hb => ?_) _) _
    have hone : ∀ key ∈ insert (str "$ABC", bobAddress) (freezeKeys mainAll abcFreezeRun),
        key = (str "$ABC", bobAddress) := by
      rintro key (rfl | hkey)
      · rfl
      · exact freezeKeys_abcFreezeRun hkey
    rw [hone a ha, hone b hb]
  obtain ⟨hanswer, -⟩ := freeze_state_eq_history (addressFormat_mainConfig .all) .all abcFreezeRun
    node hcoinbase hrun (str "$ABC") bobAddress (by decide +kernel) (.inr ⟨bobKeyID, rfl, rfl⟩) hhash
  exact ⟨node, hrun, hfrozen, hanswer.trans hfrozen⟩

/-- Before the coinbase asset check: a coinbase that freezes `$ABC` at the address of Bob, showing
an owner token out of nothing. -/
def coinbaseFreezeAt (height : Nat) : CTransaction where
  vin := [⟨⟨0, 2 ^ 32 - 1⟩, [0x51, 0x51]⟩]
  vout := [transferOut aliceKeyID (str "ABC!") COIN, freezeOut bobKeyID (str "$ABC") 1]
  hash := 1000 + height

/-- Two such blocks, of which the second is disconnected. The second freeze changes nothing and is
not checked; undoing it ends the first. -/
theorem coinbaseFreeze_differs_from_history :
    let dep : Deployments := { Deployments.all with coinbaseCheckAssets := false }
    ∃ node, (Node.genesis dep).run (mainConfig dep)
        [.connect ⟨1, [coinbaseFreezeAt 1]⟩, .connect ⟨2, [coinbaseFreezeAt 2]⟩, .disconnect] =
          some node ∧
      frozenByHistory (mainConfig dep) node.chain (str "$ABC", bobAddress) = true ∧
      CAssetsCache.checkForAddressRestriction (mainConfig dep) node.assets (str "$ABC") bobAddress =
        false := by
  intro dep
  have h : ((Node.genesis dep).run (mainConfig dep)
      [.connect ⟨1, [coinbaseFreezeAt 1]⟩, .connect ⟨2, [coinbaseFreezeAt 2]⟩, .disconnect]).map
        (fun node => (frozenByHistory (mainConfig dep) node.chain (str "$ABC", bobAddress),
          CAssetsCache.checkForAddressRestriction (mainConfig dep) node.assets (str "$ABC")
            bobAddress)) = some (true, false) := by
    decide +kernel
  obtain ⟨node, hrun, hanswers⟩ := Option.map_eq_some_iff.mp h
  obtain ⟨hhistory, hanswer⟩ := Prod.mk.inj hanswers
  exact ⟨node, hrun, hhistory, hanswer⟩

end HempCore
