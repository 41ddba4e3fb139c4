import HempCore.Analysis.Addresses
import HempCore.Analysis.AssetNames
import HempCore.Analysis.BlockDisconnection
import HempCore.Lib.Switches

/-!
# Commands in blocks

The tags, freezes and global freezes a block carries, what connecting and disconnecting the block
does with them, and what they were checked for. Everything else a block does leaves the part of a
cache that holds commands alone.
-/

set_option autoImplicit false

namespace HempCore

open Lib

variable {cfg : Config} {g : AssetGlobals} {c : NullAssetCommand} {block : CBlock}

def CTransaction.commands (cfg : Config) (tx : CTransaction) : List NullAssetCommand :=
  tx.vout.filterMap fun out => nullAssetCommand cfg out.scriptPubKey

def CBlock.commands (cfg : Config) (block : CBlock) : List NullAssetCommand :=
  block.vtx.flatMap (CTransaction.commands cfg)

/-! ## The part of a cache that holds commands -/

namespace CAssetsCache

def onlyCommands (cache : CAssetsCache) : CAssetsCache :=
  { CAssetsCache.empty with
    qualifierAddress := cache.qualifierAddress
    restrictedAddress := cache.restrictedAddress
    restrictedGlobal := cache.restrictedGlobal
    mapRootQualifierAddressesAdd := cache.mapRootQualifierAddressesAdd
    mapRootQualifierAddressesRemove := cache.mapRootQualifierAddressesRemove }

variable {cache cache' : CAssetsCache}

theorem onlyCommands_of_forgetIndex (h : cache.forgetIndex = cache'.forgetIndex) : cache.onlyCommands = cache'.onlyCommands := by
  have heq : ∀ c : CAssetsCache, c.onlyCommands = c.forgetIndex.onlyCommands := fun _ => rfl
  rw [heq cache, h, ← heq]

@[simp] theorem onlyCommands_setBalance (pair : NameAddress) (nAmount : Int) :
    (cache.setBalance cfg pair nAmount).onlyCommands = cache.onlyCommands :=
  onlyCommands_of_forgetIndex (forgetIndex_setBalance pair nAmount)

theorem onlyCommands_setRootQualifier (cache : CAssetsCache) (name address : Bytes) (on : Bool) :
    (cache.setRootQualifier name address on).onlyCommands = cache.onlyCommands.setRootQualifier name address on := by
  unfold setRootQualifier
  split_ifs <;> rfl

theorem onlyCommands_applyCommand (c : NullAssetCommand) :
    (cache.applyCommand c).onlyCommands = cache.onlyCommands.applyCommand c := by
  cases c with
  | qualifier name address type =>
    have hroot := onlyCommands_setRootQualifier cache name address type.isOn
    simp only [applyCommand, addQualifierAddress]
    rw [← hroot]
    rfl
  | restrictedAddress name address type => rfl
  | globalRestricted name type => rfl

theorem onlyCommands_undoCommand (c : NullAssetCommand) :
    (cache.undoCommand c).onlyCommands = cache.onlyCommands.undoCommand c := by
  cases c with
  | qualifier name address type =>
    have hroot := onlyCommands_setRootQualifier cache name address (!type.isOn)
    simp only [undoCommand, removeQualifierAddress]
    rw [← hroot]
    rfl
  | restrictedAddress name address type => rfl
  | globalRestricted name type => rfl

/-! ### Connecting -/

section Connecting

variable {nHeight : Nat} {blockHash : Uint256} (tx : CTransaction)

@[simp] theorem onlyCommands_tryAddNewAsset (asset : CNewAsset) (address : Bytes) :
    (cache.tryAddNewAsset cfg g asset address nHeight blockHash).onlyCommands = cache.onlyCommands := by
  unfold tryAddNewAsset addNewAsset
  split_ifs
  · rfl
  · exact onlyCommands_setBalance _ _

@[simp] theorem onlyCommands_addParsed (parsed : Option (CNewAsset × Bytes)) :
    (cache.addParsed cfg g parsed nHeight blockHash).onlyCommands = cache.onlyCommands := by
  cases parsed with
  | none => rfl
  | some p => exact onlyCommands_tryAddNewAsset _ _

theorem onlyCommands_addReissueAsset (reissue : CReissueAsset) (address : Bytes) (out : COutPoint) :
    ((cache.addReissueAsset cfg g reissue address out).getD cache).onlyCommands = cache.onlyCommands := by
  unfold addReissueAsset
  split
  · rfl
  · exact onlyCommands_setBalance _ _

theorem onlyCommands_addReissue : (cache.addReissue cfg g tx).1.onlyCommands = cache.onlyCommands := by
  unfold addReissue
  split
  · rfl
  · next reissue address _ =>
    simp only
    split
    · exact onlyCommands_addReissueAsset reissue address _
    · exact onlyCommands_addReissueAsset reissue address _

theorem onlyCommands_addKind : (cache.addKind cfg g tx nHeight blockHash).1.onlyCommands = cache.onlyCommands := by
  unfold addKind
  split_ifs
  · simp only
    split
    · exact (onlyCommands_setBalance _ _).trans (onlyCommands_addParsed _)
    · exact onlyCommands_addParsed _
  · exact onlyCommands_addReissue tx
  · refine List.foldlRecOn (motive := fun c : CAssetsCache => c.onlyCommands = cache.onlyCommands)
      _ _ rfl fun c hc out _ => ?_
    split_ifs
    · exact (onlyCommands_addParsed _).trans hc
    · exact hc
  · exact onlyCommands_addParsed _
  · exact onlyCommands_addParsed _
  · simp only
    split
    · exact onlyCommands_addParsed _
    · exact onlyCommands_addParsed _
  · rfl

theorem onlyCommands_addOutput (out : COutPoint × CTxOut) :
    (cache.addOutput cfg g out).onlyCommands = match nullAssetCommand cfg out.2.scriptPubKey with
      | some c => cache.onlyCommands.applyCommand c
      | none => cache.onlyCommands := by
  have htransfer : (cache.addTransferOutput cfg g out).onlyCommands = cache.onlyCommands := by
    unfold addTransferOutput
    split
    · split_ifs
      · exact onlyCommands_of_forgetIndex (forgetIndex_addTransferAsset _ _ _)
      · rfl
    · rfl
  unfold addOutput
  cases nullAssetCommand cfg out.2.scriptPubKey with
  | none => exact htransfer
  | some c => exact (onlyCommands_applyCommand c).trans (by rw [htransfer])

theorem onlyCommands_addCoins (hassets : cfg.dep.assets = true ∨ tx.commands cfg = []) :
    (cache.addCoins cfg g tx nHeight blockHash).1.onlyCommands = (tx.commands cfg).foldl applyCommand cache.onlyCommands := by
  have houtputs : ∀ (l : List (COutPoint × CTxOut)) (c : CAssetsCache),
      (l.foldl (fun c out => c.addOutput cfg g out) c).onlyCommands =
        ((l.map Prod.snd).filterMap fun out => nullAssetCommand cfg out.scriptPubKey).foldl applyCommand c.onlyCommands := by
    intro l
    induction l with
    | nil => intro c; rfl
    | cons out l ih =>
      intro c
      rw [List.foldl_cons, ih, onlyCommands_addOutput, List.map_cons, List.filterMap_cons]
      cases nullAssetCommand cfg out.2.scriptPubKey <;> rfl
  unfold addCoins
  split_ifs with hdep
  · simp only
    rw [houtputs, onlyCommands_addKind, outputsOf_map_snd]
    rfl
  · rcases hassets with hassets | hnone
    · exact absurd hassets hdep
    · rw [hnone]
      rfl

end Connecting

/-! ### Disconnecting -/

section Disconnecting

variable {vUndoData : List (Bytes × CBlockAssetUndo)} {tx : CTransaction}

theorem onlyCommands_removeNewAsset {asset : CNewAsset} {address : Bytes}
    (h : cache.removeNewAsset cfg g asset address = some cache') : cache'.onlyCommands = cache.onlyCommands := by
  unfold removeNewAsset at h
  split_ifs at h
  cases h
  exact onlyCommands_setBalance _ _

theorem onlyCommands_removeParsed {parsed : Option (CNewAsset × Bytes)}
    (h : cache.removeParsed cfg g parsed = some cache') : cache'.onlyCommands = cache.onlyCommands := by
  simp only [removeParsed, Option.bind_eq_bind, Option.bind_eq_some_iff, Prod.exists] at h
  obtain ⟨asset, address, -, h⟩ := h
  unfold removeIfContained at h
  split_ifs at h
  · exact onlyCommands_removeNewAsset h
  · cases h
    rfl

theorem onlyCommands_removeReissueAsset {reissue : CReissueAsset} {address : Bytes} {out : COutPoint}
    (h : cache.removeReissueAsset cfg g reissue address out vUndoData = some cache') :
    cache'.onlyCommands = cache.onlyCommands := by
  unfold removeReissueAsset at h
  split at h
  · cases h
  · next asset issued _ =>
    have hrestored : (cache.restoreReissued cfg asset issued reissue address out
        (vUndoData.lookup reissue.strName)).onlyCommands = cache.onlyCommands := by
      unfold restoreReissued
      simp only
      split
      · split_ifs <;> rfl
      · rfl
    exact (onlyCommands_of_forgetIndex (forgetIndex_of_subtractReissued h)).trans hrestored

theorem onlyCommands_removeKind (h : cache.removeKind cfg g tx vUndoData = some cache') :
    cache'.onlyCommands = cache.onlyCommands := by
  unfold removeKind at h
  split_ifs at h
  · simp only [Option.bind_eq_bind, Option.bind_eq_some_iff, Prod.exists] at h
    obtain ⟨removed, hremoved, ownerName, ownerAddress, -, h⟩ := h
    cases h
    exact (onlyCommands_of_forgetIndex (forgetIndex_removeOwnerAsset _ _)).trans (onlyCommands_removeParsed hremoved)
  · simp only [removeReissue, Option.bind_eq_bind, Option.bind_eq_some_iff, Prod.exists] at h
    obtain ⟨reissue, address, -, h⟩ := h
    split_ifs at h
    · exact onlyCommands_removeReissueAsset h
    · cases h
      rfl
  · refine foldlM_some_invariant (fun c : CAssetsCache => c.onlyCommands = cache.onlyCommands)
      (fun c c' out _ hc hstep => ?_) rfl h
    split_ifs at hstep
    · exact (onlyCommands_removeParsed hstep).trans hc
    · cases hstep
      exact hc
  · exact onlyCommands_removeParsed h
  · exact onlyCommands_removeParsed h
  · simp only [Option.bind_eq_bind, Option.bind_eq_some_iff, Prod.exists] at h
    obtain ⟨removed, hremoved, asset, address, -, verifier, -, h⟩ := h
    cases h
    have hsame := onlyCommands_removeParsed hremoved
    exact hsame
  · cases h
    rfl

theorem isUnspendable_of_nullAssetCommand {s : Bytes} {c : NullAssetCommand}
    (h : nullAssetCommand cfg s = some c) : isUnspendable s = true := by
  have hfirst : 0 < s.length ∧ byteAt s 0 = opHempAsset := by
    unfold nullAssetCommand at h
    split_ifs at h with hdata hglobal
    · simp only [isNullAssetTxDataScript, Bool.and_eq_true, decide_eq_true_eq, beq_iff_eq] at hdata
      exact ⟨by omega, hdata.1.2⟩
    · simp only [isNullGlobalRestrictionAssetTxDataScript, Bool.and_eq_true, decide_eq_true_eq, beq_iff_eq] at hglobal
      exact ⟨by omega, hglobal.1.1.2⟩
  simp [isUnspendable, hfirst]

theorem onlyCommands_removeCoins (hdep : cfg.dep.assets = true ∧ cfg.dep.restrictedAssets = true ∨ tx.commands cfg = [])
    (h : cache.removeCoins cfg g tx vUndoData = some cache') :
    cache'.onlyCommands = (tx.commands cfg).foldl undoCommand cache.onlyCommands := by
  have hnull : ∀ (outs : List CTxOut) (c c' : CAssetsCache),
      (cfg.dep.restrictedAssets = true ∨ outs.filterMap (fun out => nullAssetCommand cfg out.scriptPubKey) = []) →
      outs.foldlM (fun c out => c.removeNullOutput cfg out) c = some c' →
      c'.onlyCommands = (outs.filterMap fun out => nullAssetCommand cfg out.scriptPubKey).foldl undoCommand c.onlyCommands := by
    intro outs
    induction outs with
    | nil =>
      intro c c' _ hfold
      rw [List.foldlM_nil] at hfold
      cases hfold
      rfl
    | cons out outs ih =>
      intro c c' hrestricted hfold
      rw [List.foldlM_cons] at hfold
      obtain ⟨c₁, hone, hrest⟩ := Option.bind_eq_some_iff.mp hfold
      unfold removeNullOutput at hone
      rw [List.filterMap_cons] at hrestricted ⊢
      cases hcommand : nullAssetCommand cfg out.scriptPubKey with
      | none =>
        rw [hcommand] at hone hrestricted
        have hsame : c₁ = c := by
          split_ifs at hone <;> cases hone <;> rfl
        rw [ih c₁ c' hrestricted hrest, hsame]
      | some command =>
        rw [hcommand] at hone hrestricted
        have hdeployed : cfg.dep.restrictedAssets = true := by simpa using hrestricted
        rw [hdeployed, isUnspendable_of_nullAssetCommand hcommand] at hone
        simp only [Bool.not_true, Bool.or_self, Bool.false_eq_true, if_false] at hone
        split_ifs at hone
        cases hone
        rw [ih _ c' (.inl hdeployed) hrest, onlyCommands_undoCommand]
        rfl
  unfold removeCoins at h
  split_ifs at h with hassets
  · simp only [Option.bind_eq_bind, Option.bind_eq_some_iff] at h
    obtain ⟨c₁, hkind, c₂, htransfers, hnulls⟩ := h
    have htransfers' : c₂.onlyCommands = c₁.onlyCommands :=
      foldlM_some_invariant (fun c : CAssetsCache => c.onlyCommands = c₁.onlyCommands)
        (fun c c' out _ hc hstep => (onlyCommands_of_forgetIndex (forgetIndex_of_removeTransferOutput hstep)).trans hc) rfl htransfers
    rw [hnull tx.vout c₂ cache' (hdep.imp And.right id) hnulls, htransfers', onlyCommands_removeKind hkind]
    rfl
  · rcases hdep with hdep | hnone
    · exact absurd hdep.1 hassets
    · cases h
      rw [hnone]
      rfl

end Disconnecting

end CAssetsCache

/-! ## What commands are checked for -/

/-- The command changes the state its switch is in, and names what it may name. -/
def CommandAccepted (cfg : Config) (g : AssetGlobals) : NullAssetCommand → Prop
  | .qualifier name address type =>
    isAssetNameAQualifier name false = true ∧
      CAssetsCache.checkForAddressQualifier cfg g name address = !type.isOn
  | .restrictedAddress name address type =>
    isAssetNameAnRestricted name = true ∧
      CAssetsCache.checkForAddressRestriction cfg g name address = !type.isOn
  | .globalRestricted name type => CAssetsCache.checkForGlobalRestriction g name = !type.isOn

theorem verifyStatusChange_ok {flag : Int} {current : Bool} {whenOn whenOff : String}
    (h : verifyStatusChange flag current whenOn whenOff = .ok ()) : current = !decide (flag ≠ 0) := by
  simp only [verifyStatusChange, bind_eq_ok, exists_punit] at h
  obtain ⟨-, h⟩ := h
  by_cases hflag : flag = 0
  · simpa [hflag] using h
  · simpa [hflag] using h

theorem isNullAsset_of_nullAssetCommand {s : Bytes} (h : nullAssetCommand cfg s = some c) : isNullAsset s = true := by
  unfold nullAssetCommand at h
  split_ifs at h with hdata hglobal
  · simp [isNullAsset, hdata]
  · simp [isNullAsset, hglobal]

theorem isOn_of_flag (flag : Int) :
    (if flag ≠ 0 then RestrictedType.FREEZE_ADDRESS else .UNFREEZE_ADDRESS).isOn = decide (flag ≠ 0) ∧
      (if flag ≠ 0 then RestrictedType.GLOBAL_FREEZE else .GLOBAL_UNFREEZE).isOn =
        decide (flag ≠ 0) ∧
      (if flag ≠ 0 then QualifierType.ADD_QUALIFIER else .REMOVE_QUALIFIER).isOn =
        decide (flag ≠ 0) := by
  by_cases h : flag = 0 <;> simp [h, RestrictedType.isOn, QualifierType.isOn]

def NullAssetCommand.address? : NullAssetCommand → Option Bytes
  | .qualifier _ address _ | .restrictedAddress _ address _ => some address
  | .globalRestricted _ _ => none

theorem address_of_nullAssetCommand {s : Bytes} {address : Bytes}
    (h : nullAssetCommand cfg s = some c) (haddress : c.address? = some address) : CommandAddress cfg address := by
  unfold nullAssetCommand at h
  split_ifs at h with hdata
  · simp only [assetNullDataFromScript, hdata, if_true, Option.bind_eq_bind] at h
    split at h
    · cases h
    · next data address' hparse =>
      obtain ⟨data', -, hpair⟩ := Option.bind_eq_some_iff.mp hparse
      cases hpair
      split at h <;> cases h <;> cases haddress <;> exact commandAddress_of_script hdata
  · obtain ⟨data, -, rfl⟩ := Option.map_eq_some_iff.mp h
    cases haddress

theorem isTagName_of_nullAssetCommand {s : Bytes} {name address : Bytes} {type : QualifierType}
    (h : nullAssetCommand cfg s = some (.qualifier name address type))
    (hvalid : isAssetNameValid name = true) : isTagName name = true := by
  obtain ⟨check, written, -, -, hwritten⟩ := pattern_of_isAssetNameValid hvalid
  unfold nullAssetCommand at h
  split_ifs at h
  · split at h
    · cases h
    · simp only [isTagName, isAssetNameOfType, Bool.or_eq_true, Bool.and_eq_true, beq_iff_eq]
      split at h
      · cases h
      · next htype =>
        cases h
        rw [assetTypeOf, hwritten, Option.getD_some] at htype
        exact .inl ⟨hvalid, by rw [hwritten, htype]⟩
      · next htype =>
        cases h
        rw [assetTypeOf, hwritten, Option.getD_some] at htype
        exact .inr ⟨hvalid, by rw [hwritten, htype]⟩
      · cases h
  · obtain ⟨data, -, hdata⟩ := Option.map_eq_some_iff.mp h
    cases hdata

theorem commandAccepted_of_checkNullAssetOutput {cache : CAssetsCache} {out : CTxOut}
    (h : checkNullAssetOutput cfg (cache.view cfg g) out = .ok ())
    (hcommand : nullAssetCommand cfg out.scriptPubKey = some c) :
    cfg.dep.restrictedAssets = true ∧ CommandAccepted cfg g c := by
  simp only [checkNullAssetOutput, isNullAsset_of_nullAssetCommand hcommand, if_true, bind_eq_ok,
    exists_punit, require_eq_ok] at h
  obtain ⟨hdeployed, h⟩ := h
  refine ⟨hdeployed, ?_⟩
  unfold nullAssetCommand at hcommand
  split_ifs at h hcommand with hdata hglobal
  · simp only [orElseError_eq_ok, contextualCheckNullAssetTxOut, bind_eq_ok, demand_eq_ok, Prod.exists] at h
    obtain ⟨data, address, hparse, h⟩ := h
    rw [hparse] at hcommand
    simp only at hcommand
    split_ifs at h with hqualifier hrestricted
    · have hstatus := verifyStatusChange_ok h
      have htype := assetTypeOf_ne_restricted cfg.uninit hqualifier
      split at hcommand
      · next hres => exact absurd hres htype
      · cases hcommand
        exact ⟨hqualifier, hstatus.trans (by rw [(isOn_of_flag data.flag).2.2])⟩
      · cases hcommand
        exact ⟨hqualifier, hstatus.trans (by rw [(isOn_of_flag data.flag).2.2])⟩
      · cases hcommand
    · have hstatus := verifyStatusChange_ok h
      have hvalid : isAssetNameValid data.asset_name = true := by
        simp only [isAssetNameAnRestricted, Bool.and_eq_true] at hrestricted
        exact hrestricted.1
      split at hcommand
      · cases hcommand
        exact ⟨hrestricted, hstatus.trans (by rw [(isOn_of_flag data.flag).1])⟩
      · next htype => exact absurd (qualifier_of_assetTypeOf hvalid (.inl htype)) hqualifier
      · next htype => exact absurd (qualifier_of_assetTypeOf hvalid (.inr htype)) hqualifier
      · cases hcommand
  · simp only [orElseError_eq_ok, contextualCheckGlobalAssetTxOut, bind_eq_ok, demand_eq_ok] at h
    obtain ⟨data, hparse, h⟩ := h
    rw [hparse] at hcommand
    cases hcommand
    exact (verifyStatusChange_ok h).trans (by rw [(isOn_of_flag data.flag).2.1])

theorem commandAccepted_of_checkBlockTxAssets {st : ConnectState} {tx : CTransaction}
    (h : checkBlockTxAssets cfg g st tx = .ok ()) :
    ∀ c ∈ tx.commands cfg, cfg.dep.assets = true ∧ cfg.dep.restrictedAssets = true ∧ CommandAccepted cfg g c := by
  intro c hc
  obtain ⟨out, hout, hcommand⟩ := List.mem_filterMap.mp hc
  unfold checkBlockTxAssets at h
  split_ifs at h with hassets
  · simp only [bind_eq_ok, pure_eq_ok] at h
    obtain ⟨pairs, hcheck, -⟩ := h
    obtain ⟨-, totalInputs, totals, -, houts, -⟩ := checkTxAssets_ok hcheck
    obtain ⟨t, t', hstep⟩ := foldlM_step_of_mem hout houts
    obtain ⟨hcontext, -⟩ := checkAssetOutput_ok hstep
    simp only [checkOutputContext, bind_eq_ok, exists_punit] at hcontext
    exact ⟨hassets, commandAccepted_of_checkNullAssetOutput hcontext.2 hcommand⟩
  · have hnot := forM_eq_ok.mp h out hout
    simp only [bind_eq_ok, exists_punit, require_eq_ok, Bool.not_eq_true'] at hnot
    simp [isNullAsset_of_nullAssetCommand hcommand] at hnot

/-! ## Blocks -/

def CBlock.CoinbaseBare (block : CBlock) : Prop :=
  ∀ tx ∈ block.vtx, tx.isCoinBase = true → ∀ out ∈ tx.vout,
    isAssetScript out.scriptPubKey = none ∧ isNullAsset out.scriptPubKey = false

theorem coinbaseBare_of_checkBlock (hdep : cfg.dep.coinbaseCheckAssets = true)
    (h : checkBlock cfg block = .ok ()) : block.CoinbaseBare := by
  obtain ⟨-, -, -, -, -, htxs⟩ := checkBlock_ok h
  intro tx htx hcoinbase out hout
  obtain ⟨scan, flags, -, -, hinputs, -⟩ := checkTransaction_ok (htxs tx htx)
  simp only [checkInputs, hcoinbase, if_true, bind_eq_ok, exists_punit, require_eq_ok, hdep, Bool.not_true,
    Bool.false_or, List.all_eq_true, Bool.and_eq_true, Bool.not_eq_true', Option.isNone_iff_eq_none] at hinputs
  exact hinputs.2.2 out hout

theorem commands_eq_nil_of_coinbaseBare (hbare : block.CoinbaseBare) {tx : CTransaction}
    (htx : tx ∈ block.vtx) (hcoinbase : tx.isCoinBase = true) : tx.commands cfg = [] := by
  rw [CTransaction.commands, List.filterMap_eq_nil_iff]
  intro out hout
  by_contra hsome
  obtain ⟨c, hc⟩ := Option.ne_none_iff_exists'.mp hsome
  have hnull := (hbare tx htx hcoinbase out hout).2
  rw [isNullAsset_of_nullAssetCommand hc] at hnull
  cases hnull

section Blocks

variable {nHeight : Nat} {blockHash : Uint256} {tx : CTransaction}

theorem commands_of_connectTx {st st' : ConnectState} (htx : checkTransaction cfg tx true false true = .ok ())
    (hcoinbase : tx.isCoinBase = true → tx.commands cfg = []) (h : connectTx cfg g nHeight blockHash st tx = .ok st') :
    st'.cache.onlyCommands = (tx.commands cfg).foldl CAssetsCache.applyCommand st.cache.onlyCommands ∧
      ∀ c ∈ tx.commands cfg, cfg.dep.assets = true ∧ cfg.dep.restrictedAssets = true ∧ CommandAccepted cfg g c := by
  obtain ⟨hchecked, coins, cache, spent, undo, hspent, -, hcache, -⟩ := connectTx_ok (nodup_of_checkTransaction htx) h
  have haccepted : ∀ c ∈ tx.commands cfg, cfg.dep.assets = true ∧ cfg.dep.restrictedAssets = true ∧ CommandAccepted cfg g c := by
    split_ifs at hchecked with hcb
    · simp [hcoinbase hcb]
    · exact commandAccepted_of_checkBlockTxAssets hchecked.assets
  have hstart : cache.onlyCommands = st.cache.onlyCommands := by
    split_ifs at hspent
    · rw [hspent.2.1]
    · exact CAssetsCache.onlyCommands_of_forgetIndex hspent.index
  have hassets : cfg.dep.assets = true ∨ tx.commands cfg = [] := by
    cases hcommands : tx.commands cfg with
    | nil => exact .inr rfl
    | cons c cs => exact .inl (haccepted c (by simp [hcommands])).1
  have hfirst : st'.cache = (cache.addCoins cfg g tx nHeight blockHash).1 := by rw [← hcache]
  exact ⟨by rw [hfirst, CAssetsCache.onlyCommands_addCoins tx hassets, hstart], haccepted⟩

theorem commands_of_connectBlock {coins : Coins} {block : CBlock} {st : ConnectState} (hbare : block.CoinbaseBare)
    (h : connectBlock cfg g coins nHeight block = .ok st) :
    st.cache.onlyCommands = (block.commands cfg).foldl CAssetsCache.applyCommand .empty ∧
      ∀ c ∈ block.commands cfg, cfg.dep.assets = true ∧ cfg.dep.restrictedAssets = true ∧ CommandAccepted cfg g c := by
  obtain ⟨hcheck, hfold, -⟩ := connectBlock_ok h
  obtain ⟨-, -, -, -, -, htxs⟩ := checkBlock_ok hcheck
  refine foldlM_prefix_invariant (fun read (s : ConnectState) =>
    s.cache.onlyCommands = (read.flatMap (CTransaction.commands cfg)).foldl CAssetsCache.applyCommand .empty ∧
      ∀ c ∈ read.flatMap (CTransaction.commands cfg), cfg.dep.assets = true ∧
        cfg.dep.restrictedAssets = true ∧ CommandAccepted cfg g c) ?_ [] ⟨rfl, by simp⟩ hfold
  rintro read s s' tx htx ⟨hread, haccepted⟩ hstep
  obtain ⟨hcache, hnew⟩ := commands_of_connectTx (htxs tx htx) (commands_eq_nil_of_coinbaseBare hbare htx) hstep
  rw [List.flatMap_append, List.flatMap_singleton]
  refine ⟨by rw [hcache, hread, List.foldl_append], fun c hc => ?_⟩
  rcases List.mem_append.mp hc with hc | hc
  · exact haccepted c hc
  · exact hnew c hc

theorem commands_of_disconnectTxs {vUndoData : List (Bytes × CBlockAssetUndo)}
    {items : List (CTransaction × Option (List Coin))} {st st' : DisconnectState}
    (hdep : ∀ item ∈ items, cfg.dep.assets = true ∧ cfg.dep.restrictedAssets = true ∨ item.1.commands cfg = [])
    (h : items.foldlM (disconnectTx cfg g nHeight vUndoData) st = some st') :
    st'.cache.onlyCommands = ((items.map Prod.fst).flatMap (CTransaction.commands cfg)).foldl
      CAssetsCache.undoCommand st.cache.onlyCommands := by
  induction items generalizing st with
  | nil =>
    rw [List.foldlM_nil] at h
    cases h
    rfl
  | cons item items ih =>
    rw [List.foldlM_cons] at h
    obtain ⟨st₁, hone, hrest⟩ := Option.bind_eq_some_iff.mp h
    obtain ⟨cache, hremove, hindex⟩ := cache_of_disconnectTx hone
    rw [ih (fun i hi => hdep i (List.mem_cons_of_mem _ hi)) hrest, CAssetsCache.onlyCommands_of_forgetIndex hindex,
      CAssetsCache.onlyCommands_removeCoins (hdep item List.mem_cons_self) hremove,
      List.map_cons, List.flatMap_cons, List.foldl_append]

theorem commands_of_disconnectBlock {coins : Coins} {block : CBlock} {vtxundo : List (List Coin)} {st : DisconnectState}
    (hdep : ∀ c ∈ block.commands cfg, cfg.dep.assets = true ∧ cfg.dep.restrictedAssets = true)
    (h : disconnectBlock cfg g coins nHeight block vtxundo = some st) :
    st.cache.onlyCommands = (block.vtx.reverse.flatMap (CTransaction.commands cfg)).foldl CAssetsCache.undoCommand .empty := by
  obtain ⟨items, hitems, hfold⟩ := disconnectBlock_eq_some h
  have hdep' : ∀ item ∈ items, cfg.dep.assets = true ∧ cfg.dep.restrictedAssets = true ∨ item.1.commands cfg = [] := by
    intro item hitem
    cases hcommands : item.1.commands cfg with
    | nil => exact .inr rfl
    | cons c cs =>
      have hmem : item.1 ∈ block.vtx := by
        rw [← List.mem_reverse, ← hitems]
        exact List.mem_map_of_mem hitem
      exact .inl (hdep c (List.mem_flatMap.mpr ⟨item.1, hmem, by simp [hcommands]⟩))
  rw [← hitems]
  exact commands_of_disconnectTxs hdep' hfold

end Blocks

/-! ## Writing out -/

namespace AssetGlobals

/-- What the writing out of commands reads. -/
def switchTables (g : AssetGlobals) :
    CAssetsCache × Markers NameAddress Bytes × Markers NameAddress Bytes × Markers Bytes Bytes :=
  (g.passets, g.qualifiers, g.restrictions, g.globalRestrictions)

theorem switchTables_dumpReissuedData (record : CAssetCacheReissueAsset) :
    (g.dumpReissuedData record).switchTables = g.switchTables := by
  unfold dumpReissuedData
  split <;> rfl

theorem switchTables_dumpUndoneReissue (record : CAssetCacheReissueAsset) :
    (g.dumpUndoneReissue record).switchTables = g.switchTables := by
  unfold dumpUndoneReissue
  split_ifs
  · rfl
  · exact switchTables_dumpReissuedData record

theorem switchTables_dumpAssets : g.dumpAssets.switchTables = g.switchTables := by
  unfold dumpAssets
  simp only
  rw [treeMap_foldl_unchanged switchTables (fun g _ record => switchTables_dumpUndoneReissue record),
    treeMap_foldl_unchanged switchTables (fun g _ record => switchTables_dumpReissuedData record),
    treeMap_foldl_unchanged switchTables (f := dumpAddedAsset) (fun _ _ _ => rfl),
    treeMap_foldl_unchanged switchTables (f := dumpRemovedAsset) (fun _ _ _ => rfl)]

theorem switchTables_dumpVerifiers : g.dumpVerifiers.switchTables = g.switchTables := by
  unfold dumpVerifiers
  simp only
  rw [treeMap_foldl_unchanged switchTables (f := dumpUndoneVerifier) (fun _ _ _ => rfl),
    treeMap_foldl_unchanged switchTables (f := dumpAddedVerifier) (fun _ _ _ => rfl)]

/-- Without the balances of the address index. -/
def forgetQuantities (g : AssetGlobals) : AssetGlobals := { g with assetAddressQuantity := ∅ }

theorem forgetQuantities_setQuantity (pair : NameAddress) (quantity : Option Int) :
    (g.setQuantity pair quantity).forgetQuantities = g.forgetQuantities := rfl

theorem forgetQuantities_writeBalance (eraseZero : Bool) (pair : NameAddress) :
    (g.writeBalance eraseZero pair).forgetQuantities = g.forgetQuantities := by
  unfold writeBalance
  split <;> rfl

theorem forgetQuantities_writePositiveBalance (pair : NameAddress) :
    (g.writePositiveBalance pair).forgetQuantities = g.forgetQuantities := by
  unfold writePositiveBalance
  split
  · rfl
  · split_ifs <;> rfl

theorem forgetQuantities_dumpAddressIndex : g.dumpAddressIndex.forgetQuantities = g.forgetQuantities := by
  have hlist : ∀ {α : Type} (f : AssetGlobals → α → AssetGlobals) (l : List α) (g : AssetGlobals),
      (∀ g a, (f g a).forgetQuantities = g.forgetQuantities) → (l.foldl f g).forgetQuantities = g.forgetQuantities := by
    intro α f l g hf
    exact List.foldlRecOn (motive := fun t : AssetGlobals => t.forgetQuantities = g.forgetQuantities) _ _ rfl
      fun t ht a _ => (hf t a).trans ht
  have hconditional : ∀ (c : Bool) (g g' : AssetGlobals), g'.forgetQuantities = g.forgetQuantities →
      (if c then g' else g).forgetQuantities = g.forgetQuantities := by
    intro c g g' h
    cases c
    · rfl
    · exact h
  unfold dumpAddressIndex
  simp only
  rw [hlist _ _ _ (fun g item => forgetQuantities_writeBalance _ _),
    hlist _ _ _ (fun g item => forgetQuantities_writeBalance _ _),
    treeMap_foldl_unchanged forgetQuantities (fun g _ item => hconditional _ g _ (forgetQuantities_writeBalance _ _)),
    treeMap_foldl_unchanged forgetQuantities (fun g _ item => hconditional _ g _ (forgetQuantities_writePositiveBalance _)),
    treeMap_foldl_unchanged forgetQuantities (fun g _ item => forgetQuantities_writeBalance _ _),
    treeMap_foldl_unchanged forgetQuantities (fun g _ item => forgetQuantities_writeBalance _ _),
    treeMap_foldl_unchanged forgetQuantities (fun g _ item => forgetQuantities_writePositiveBalance _),
    treeMap_foldl_unchanged forgetQuantities (fun g _ item => forgetQuantities_setQuantity _ _),
    treeMap_foldl_unchanged forgetQuantities (fun g _ item => forgetQuantities_setQuantity _ _),
    treeMap_foldl_unchanged forgetQuantities (fun g _ item => forgetQuantities_setQuantity _ _)]

theorem switchTables_dumpAddressIndex : g.dumpAddressIndex.switchTables = g.switchTables := by
  have hsame : ∀ g : AssetGlobals, g.switchTables = g.forgetQuantities.switchTables := fun _ => rfl
  rw [hsame, forgetQuantities_dumpAddressIndex, ← hsame]

variable (cfg g) in
theorem switchTables_dumpCacheToDatabase : (g.dumpCacheToDatabase cfg).switchTables =
    (.empty, g.qualifiers.dump (getHash cfg) QualifierType.isOn g.passets.qualifierAddress,
      g.restrictions.dump (getHash cfg) RestrictedType.isOn g.passets.restrictedAddress,
      g.globalRestrictions.dump id RestrictedType.isOn g.passets.restrictedGlobal) := by
  have hbefore : (g.dumpAssets.dumpVerifiers).switchTables = g.switchTables :=
    switchTables_dumpVerifiers.trans switchTables_dumpAssets
  simp only [switchTables, Prod.mk.injEq] at hbefore
  obtain ⟨hpassets, hqualifiers, hrestrictions, hglobals⟩ := hbefore
  have hswitches : ((g.dumpAssets.dumpVerifiers).dumpSwitches cfg).switchTables =
      (g.passets, g.qualifiers.dump (getHash cfg) QualifierType.isOn g.passets.qualifierAddress,
        g.restrictions.dump (getHash cfg) RestrictedType.isOn g.passets.restrictedAddress,
        g.globalRestrictions.dump id RestrictedType.isOn g.passets.restrictedGlobal) := by
    simp only [switchTables, dumpSwitches, hpassets, hqualifiers, hrestrictions, hglobals]
  have hindex : (if cfg.fAssetIndex then ((g.dumpAssets.dumpVerifiers).dumpSwitches cfg).dumpAddressIndex
      else (g.dumpAssets.dumpVerifiers).dumpSwitches cfg).switchTables =
        ((g.dumpAssets.dumpVerifiers).dumpSwitches cfg).switchTables := by
    split_ifs
    · exact switchTables_dumpAddressIndex
    · rfl
  have hall := congrArg Prod.snd (hindex.trans hswitches)
  exact congrArg (Prod.mk CAssetsCache.empty) hall

end AssetGlobals

/-! ## Runs -/

/-- The coinbase asset check is deployed, or the coinbase of the block carries no asset and no
command. -/
def CoinbaseChecked (node : Node) : Node.Action → Prop
  | .connect block => node.dep.coinbaseCheckAssets = true ∨ block.CoinbaseBare
  | _ => True

/-- A pair that a digest can be taken of without a doubt about where the address begins. -/
def ReadableKey (cfg : Config) (key : NameAddress) : Prop :=
  CommandAddress cfg key.2 ∧ key.1.length ≤ maxNameLength

/-! ### The kinds of commands -/

def NullAssetCommand.tag? : NullAssetCommand → Option (NameAddress × QualifierType)
  | .qualifier name address type => some ((name, address), type)
  | _ => none

def NullAssetCommand.freeze? : NullAssetCommand → Option (NameAddress × RestrictedType)
  | .restrictedAddress name address type => some ((name, address), type)
  | _ => none

def NullAssetCommand.globalFreeze? : NullAssetCommand → Option (Bytes × RestrictedType)
  | .globalRestricted name type => some (name, type)
  | _ => none

def CBlock.tags (cfg : Config) (block : CBlock) : List (NameAddress × QualifierType) :=
  (block.commands cfg).filterMap NullAssetCommand.tag?

def CBlock.freezes (cfg : Config) (block : CBlock) : List (NameAddress × RestrictedType) :=
  (block.commands cfg).filterMap NullAssetCommand.freeze?

def CBlock.globalFreezes (cfg : Config) (block : CBlock) : List (Bytes × RestrictedType) :=
  (block.commands cfg).filterMap NullAssetCommand.globalFreeze?

/-- The tags: what is pending in `passets`, over the written markers. -/
def AssetGlobals.tags (g : AssetGlobals) : Switches NameAddress QualifierType Bytes :=
  ⟨g.passets.qualifierAddress, g.qualifiers⟩

/-- The freezes of addresses, likewise. -/
def AssetGlobals.freezes (g : AssetGlobals) : Switches NameAddress RestrictedType Bytes :=
  ⟨g.passets.restrictedAddress, g.restrictions⟩

def AssetGlobals.globalFreezes (g : AssetGlobals) : Switches Bytes RestrictedType Bytes :=
  ⟨g.passets.restrictedGlobal, g.globalRestrictions⟩

namespace CAssetsCache

variable (cmds : List NullAssetCommand) (cache : CAssetsCache)

theorem pending_setRootQualifier (name address : Bytes) (on : Bool) :
    (cache.setRootQualifier name address on).qualifierAddress = cache.qualifierAddress ∧
      (cache.setRootQualifier name address on).restrictedAddress = cache.restrictedAddress ∧
      (cache.setRootQualifier name address on).restrictedGlobal = cache.restrictedGlobal := by
  unfold setRootQualifier
  split_ifs <;> exact ⟨rfl, rfl, rfl⟩

/-- Each command becomes pending with those of its kind. -/
theorem pending_applyCommands :
    (cmds.foldl applyCommand cache).qualifierAddress = cache.qualifierAddress.addAll (cmds.filterMap NullAssetCommand.tag?) ∧
      (cmds.foldl applyCommand cache).restrictedAddress =
        cache.restrictedAddress.addAll (cmds.filterMap NullAssetCommand.freeze?) ∧
      (cmds.foldl applyCommand cache).restrictedGlobal =
        cache.restrictedGlobal.addAll (cmds.filterMap NullAssetCommand.globalFreeze?) := by
  induction cmds generalizing cache with
  | nil => exact ⟨rfl, rfl, rfl⟩
  | cons c cmds ih =>
    obtain ⟨htags, hfreezes, hglobals⟩ := ih (cache.applyCommand c)
    rw [List.foldl_cons, htags, hfreezes, hglobals]
    cases c with
    | qualifier name address type =>
      obtain ⟨htag, hfreeze, hglobal⟩ := cache.pending_setRootQualifier name address type.isOn
      simp only [applyCommand, addQualifierAddress, htag, hfreeze, hglobal]
      exact ⟨rfl, rfl, rfl⟩
    | restrictedAddress name address type => exact ⟨rfl, rfl, rfl⟩
    | globalRestricted name type => exact ⟨rfl, rfl, rfl⟩

theorem pending_undoCommands :
    (cmds.foldl undoCommand cache).qualifierAddress = cache.qualifierAddress.undoAll (cmds.filterMap NullAssetCommand.tag?) ∧
      (cmds.foldl undoCommand cache).restrictedAddress =
        cache.restrictedAddress.undoAll (cmds.filterMap NullAssetCommand.freeze?) ∧
      (cmds.foldl undoCommand cache).restrictedGlobal =
        cache.restrictedGlobal.undoAll (cmds.filterMap NullAssetCommand.globalFreeze?) := by
  induction cmds generalizing cache with
  | nil => exact ⟨rfl, rfl, rfl⟩
  | cons c cmds ih =>
    obtain ⟨htags, hfreezes, hglobals⟩ := ih (cache.undoCommand c)
    rw [List.foldl_cons, htags, hfreezes, hglobals]
    cases c with
    | qualifier name address type =>
      obtain ⟨htag, hfreeze, hglobal⟩ := cache.pending_setRootQualifier name address (!type.isOn)
      simp only [undoCommand, removeQualifierAddress, htag, hfreeze, hglobal]
      exact ⟨rfl, rfl, rfl⟩
    | restrictedAddress name address type => exact ⟨rfl, rfl, rfl⟩
    | globalRestricted name type => exact ⟨rfl, rfl, rfl⟩

end CAssetsCache

/-- A command of one kind in the block was accepted, and is that of an output. -/
theorem accepted_of_pick {B : Type} {pick : NullAssetCommand → Option B} {b : B}
    (h : ∀ c ∈ block.commands cfg, CommandAccepted cfg g c) (hb : b ∈ (block.commands cfg).filterMap pick) :
    ∃ c s, pick c = some b ∧ CommandAccepted cfg g c ∧ nullAssetCommand cfg s = some c := by
  obtain ⟨c, hc, hpick⟩ := List.mem_filterMap.mp hb
  obtain ⟨tx, -, htx⟩ := List.mem_flatMap.mp hc
  obtain ⟨out, -, hout⟩ := List.mem_filterMap.mp htx
  exact ⟨c, _, hpick, h c hc, hout⟩

/-! ### Connecting and disconnecting -/

variable {node node' : Node}

/-- The commands of the chain can be undone. -/
def Revocable (cfg : Config) (chain : List CBlock) (dep : Deployments) : Prop :=
  ∀ block ∈ chain, ∀ c ∈ block.commands cfg, dep.assets = true ∧ dep.restrictedAssets = true

/-- A cache that has applied the commands of a block, each of them accepted at the tip, is merged. -/
structure AppliesCommands (cfg : Config) (block : CBlock) (cache : CAssetsCache) (node node' : Node) : Prop where
  commands : cache.onlyCommands = (block.commands cfg).foldl CAssetsCache.applyCommand .empty
  passets : node'.assets.passets = (node.assets.flush cache).passets
  tags : node'.assets.tags = node.assets.tags.merge (Pending.empty.addAll (block.tags cfg))
  freezes : node'.assets.freezes = node.assets.freezes.merge (Pending.empty.addAll (block.freezes cfg))
  globals : node'.assets.globalFreezes =
    node.assets.globalFreezes.merge (Pending.empty.addAll (block.globalFreezes cfg))
  chain : node'.chain = block :: node.chain
  dep : node'.dep = node.dep
  accepted : ∀ c ∈ block.commands cfg, node.dep.assets = true ∧ node.dep.restrictedAssets = true ∧
    CommandAccepted cfg node.assets c

/-- A cache that has undone them in some order is merged. -/
structure UndoesCommands (cfg : Config) (block : CBlock) (undone : List NullAssetCommand) (cache : CAssetsCache)
    (node node' : Node) : Prop where
  commands : cache.onlyCommands = undone.foldl CAssetsCache.undoCommand .empty
  mem : ∀ c, c ∈ undone ↔ c ∈ block.commands cfg
  passets : node'.assets.passets = (node.assets.flush cache).passets
  tags : node'.assets.tags = node.assets.tags.merge (Pending.empty.undoAll (undone.filterMap NullAssetCommand.tag?))
  freezes : node'.assets.freezes =
    node.assets.freezes.merge (Pending.empty.undoAll (undone.filterMap NullAssetCommand.freeze?))
  globals : node'.assets.globalFreezes =
    node.assets.globalFreezes.merge (Pending.empty.undoAll (undone.filterMap NullAssetCommand.globalFreeze?))
  chain : node.chain = block :: node'.chain
  deployed : Revocable cfg node'.chain node'.dep

theorem commands_of_connectTip (hcoinbase : CoinbaseChecked node (.connect block))
    (h : node.connectTip cfg block = .ok node') : ∃ cache, AppliesCommands cfg block cache node node' := by
  obtain ⟨st, undoData, hblock, hdep, -, hassets, hchain⟩ := connectTip_ok h
  have hbare : block.CoinbaseBare :=
    hcoinbase.elim (fun hdeployed => coinbaseBare_of_checkBlock hdeployed (connectBlock_ok hblock).1) id
  obtain ⟨hcache, haccepted⟩ := commands_of_connectBlock hbare hblock
  obtain ⟨htags, hfreezes, hglobals⟩ := CAssetsCache.pending_applyCommands (block.commands (node.config cfg)) .empty
  rw [← hcache] at htags hfreezes hglobals
  refine ⟨st.cache, hcache, ?_, ?_, ?_, ?_, hchain, hdep, haccepted⟩ <;> rw [hassets]
  · exact congrArg node.assets.tags.merge htags
  · exact congrArg node.assets.freezes.merge hfreezes
  · exact congrArg node.assets.globalFreezes.merge hglobals

theorem commands_of_disconnectTip (hdeployed : Revocable cfg node.chain node.dep)
    (h : node.disconnectTip cfg = some node') : ∃ block undone cache, UndoesCommands cfg block undone cache node node' := by
  obtain ⟨block, rest, st, vtxundo, hchain, -, hblock, -, rfl⟩ := disconnectTip_eq_some h
  rw [Revocable, hchain, List.forall_mem_cons] at hdeployed
  have hcache := commands_of_disconnectBlock hdeployed.1 hblock
  obtain ⟨htags, hfreezes, hglobals⟩ :=
    CAssetsCache.pending_undoCommands (block.vtx.reverse.flatMap (CTransaction.commands (node.config cfg))) .empty
  rw [← hcache] at htags hfreezes hglobals
  exact ⟨block, block.vtx.reverse.flatMap (CTransaction.commands cfg), st.cache, hcache,
    fun c => by simp [CBlock.commands], rfl, congrArg node.assets.tags.merge htags,
    congrArg node.assets.freezes.merge hfreezes, congrArg node.assets.globalFreezes.merge hglobals, hchain, hdeployed.2⟩

/-- Flags that are set stay set, so blocks that could be connected can be undone. -/
theorem Revocable.activate {chain : List CBlock} {before after : Deployments} (hle : before.le after = true)
    (h : Revocable cfg chain before) : Revocable cfg chain after := by
  intro block hblock c hc
  obtain ⟨hassets, hrestricted⟩ := h block hblock c hc
  simp only [Deployments.le, hassets, hrestricted, Bool.not_true, Bool.false_or, Bool.and_eq_true] at hle
  exact ⟨hle.1.1.1.1.1, hle.1.1.1.2⟩

theorem AppliesCommands.deployed {cache : CAssetsCache} (h : AppliesCommands cfg block cache node node')
    (hdeployed : Revocable cfg node.chain node.dep) : Revocable cfg node'.chain node'.dep := by
  rw [Revocable, h.chain, h.dep, List.forall_mem_cons]
  exact ⟨fun c hc => ⟨(h.accepted c hc).1, (h.accepted c hc).2.1⟩, hdeployed⟩

end HempCore
