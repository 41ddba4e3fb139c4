import HempCore.Analysis.Commands
import HempCore.Analysis.Creation
import HempCore.Analysis.Overlay

/-!
# What transactions do to the register of assets

Issues and reissues, each with the verifier string that comes with it. A transaction makes the
changes its outputs spell out; what it does to verifier strings, to the address index and to tags
and freezes is seen elsewhere.
-/

set_option autoImplicit false

namespace HempCore

open Lib

variable {cfg : Config} {g : AssetGlobals}

/-! ## Changes -/

inductive RegistryChange where
  | issue (asset : CNewAsset) (address : Bytes) (verifier : Option Bytes)
  | reissue (reissue : CReissueAsset) (address : Bytes) (out : COutPoint) (verifier : Option Bytes)
deriving DecidableEq

namespace RegistryChange

def name : RegistryChange → Bytes
  | .issue asset _ _ => asset.strName
  | .reissue r _ _ _ => r.strName

def amount : RegistryChange → Int
  | .issue asset _ _ => asset.nAmount
  | .reissue r _ _ _ => r.nAmount

def isIssue : RegistryChange → Bool
  | .issue _ _ _ => true
  | .reissue _ _ _ _ => false

end RegistryChange

/-- The changes of a transaction of one of the kinds that issue, or of a reissue. -/
def CTransaction.changes (cfg : Config) (tx : CTransaction) : List RegistryChange :=
  if tx.isNewAsset cfg then
    (tx.assetFromTransaction cfg).toList.map fun p => .issue p.1 p.2 none
  else if tx.isReissueAsset then
    (tx.reissueAssetFromTransaction cfg).toList.map fun p =>
      .reissue p.1 p.2 ⟨tx.hash, tx.vout.length - 1⟩ (CAssetsCache.firstVerifier tx)
  else if tx.isNewUniqueAsset cfg then
    tx.vout.filterMap fun out =>
      if isScriptNewUniqueAsset cfg out.scriptPubKey then
        (assetFromScript cfg out.scriptPubKey).map fun p => .issue p.1 p.2 none
      else none
  else if tx.isNewMsgChannelAsset cfg then
    (tx.msgChannelAssetFromTransaction cfg).toList.map fun p => .issue p.1 p.2 none
  else if tx.isNewQualifierAsset cfg then
    (tx.qualifierAssetFromTransaction cfg).toList.map fun p => .issue p.1 p.2 none
  else if tx.isNewRestrictedAsset cfg then
    (tx.restrictedAssetFromTransaction cfg).toList.map fun p =>
      .issue p.1 p.2 (CAssetsCache.firstVerifier tx)
  else []

def CBlock.changes (cfg : Config) (block : CBlock) : List RegistryChange :=
  block.vtx.flatMap (CTransaction.changes cfg)

/-! ## Applying them to a cache -/

namespace CAssetsCache

variable {cache cache' : CAssetsCache}

def applyChange (cfg : Config) (g : AssetGlobals) (nHeight : Nat) (blockHash : Uint256)
    (cache : CAssetsCache) : RegistryChange → CAssetsCache
  | .issue asset address _ => cache.tryAddNewAsset cfg g asset address nHeight blockHash
  | .reissue reissue address out _ => (cache.addReissueAsset cfg g reissue address out).getD cache

/-- A cache without what the address index, verifier strings, tags and freezes read. -/
def onlyRegistry (cache : CAssetsCache) : CAssetsCache :=
  { CAssetsCache.empty with
    newAssets := cache.newAssets
    newReissue := cache.newReissue
    mapReissuedAssetData := cache.mapReissuedAssetData }

theorem onlyRegistry_of_forgetIndex (h : cache.forgetIndex = cache'.forgetIndex) : cache.onlyRegistry = cache'.onlyRegistry := by
  have heq : ∀ c : CAssetsCache, c.onlyRegistry = c.forgetIndex.onlyRegistry := fun _ => rfl
  rw [heq cache, h, ← heq]

section Connecting

variable {nHeight : Nat} {blockHash : Uint256} (tx : CTransaction)

theorem addParsed_eq_foldl (parsed : Option (CNewAsset × Bytes)) :
    cache.addParsed cfg g parsed nHeight blockHash =
      (parsed.toList.map fun p => RegistryChange.issue p.1 p.2 none).foldl (applyChange cfg g nHeight blockHash) cache := by
  cases parsed <;> rfl

theorem foldl_addParsed_eq (vout : List CTxOut) : vout.foldl (fun cache out =>
      if isScriptNewUniqueAsset cfg out.scriptPubKey then
        cache.addParsed cfg g (assetFromScript cfg out.scriptPubKey) nHeight blockHash
      else cache) cache =
    (vout.filterMap fun out =>
      if isScriptNewUniqueAsset cfg out.scriptPubKey then
        (assetFromScript cfg out.scriptPubKey).map fun p => RegistryChange.issue p.1 p.2 none
      else none).foldl (applyChange cfg g nHeight blockHash) cache := by
  induction vout generalizing cache with
  | nil => rfl
  | cons out vout ih =>
    rw [List.foldl_cons, ih, List.filterMap_cons]
    split_ifs
    · cases assetFromScript cfg out.scriptPubKey <;> rfl
    · rfl

/-- A transaction makes its changes; the token of an issue goes to the index alone. -/
theorem onlyRegistry_addKind :
    (cache.addKind cfg g tx nHeight blockHash).1.onlyRegistry =
      ((tx.changes cfg).foldl (applyChange cfg g nHeight blockHash) cache).onlyRegistry := by
  unfold addKind CTransaction.changes
  split_ifs
  · rw [← addParsed_eq_foldl]
    cases tx.ownerFromTransaction cfg with
    | none => rfl
    | some owner => exact onlyRegistry_of_forgetIndex (forgetIndex_addOwnerAsset owner.1 owner.2)
  · unfold addReissue
    cases tx.reissueAssetFromTransaction cfg with
    | none => rfl
    | some p =>
      simp only
      split <;> rfl
  · rw [← foldl_addParsed_eq]
  · rw [← addParsed_eq_foldl]
  · rw [← addParsed_eq_foldl]
  · cases tx.restrictedAssetFromTransaction cfg with
    | none => rfl
    | some p => cases hv : firstVerifier tx <;> rfl
  · rfl

theorem onlyRegistry_addOutput (out : COutPoint × CTxOut) : (cache.addOutput cfg g out).onlyRegistry = cache.onlyRegistry := by
  have htransfer : (cache.addTransferOutput cfg g out).onlyRegistry = cache.onlyRegistry := by
    unfold addTransferOutput
    split
    · split_ifs
      · exact onlyRegistry_of_forgetIndex (forgetIndex_addTransferAsset _ _ _)
      · rfl
    · rfl
  have hcommand : ∀ (d : CAssetsCache) (c : NullAssetCommand), (d.applyCommand c).onlyRegistry = d.onlyRegistry := by
    intro d c
    cases c with
    | qualifier name address type =>
      simp only [applyCommand, addQualifierAddress, setRootQualifier]
      split_ifs <;> rfl
    | restrictedAddress | globalRestricted => rfl
  unfold addOutput
  split
  · exact (hcommand _ _).trans htransfer
  · exact htransfer

theorem onlyRegistry_addCoins (hassets : cfg.dep.assets = true ∨ tx.changes cfg = []) :
    (cache.addCoins cfg g tx nHeight blockHash).1.onlyRegistry =
      ((tx.changes cfg).foldl (applyChange cfg g nHeight blockHash) cache).onlyRegistry := by
  unfold addCoins
  split_ifs with hdep
  · rw [← onlyRegistry_addKind tx]
    refine List.foldlRecOn (motive := fun c : CAssetsCache =>
      c.onlyRegistry = (cache.addKind cfg g tx nHeight blockHash).1.onlyRegistry) _ _ rfl ?_
    intro c hc out _
    exact (onlyRegistry_addOutput out).trans hc
  · rw [hassets.resolve_left hdep]
    rfl

end Connecting

end CAssetsCache

/-! ## What changes are checked for -/

/-- An issue of a new name, or a reissue that the data found for its name allow. -/
def ChangeAccepted (cfg : Config) (g : AssetGlobals) (cache : CAssetsCache) : RegistryChange → Prop
  | .issue asset _ _ => contextualCheckNewAsset cfg (cache.view cfg g) asset none = .ok ()
  | .reissue r _ _ _ => ∃ tx, contextualCheckReissueAsset cfg (cache.view cfg g) r tx = .ok ()

section Accepted

variable {cache : CAssetsCache} {tx : CTransaction}

theorem changeAccepted_of_checkAssetKind (h : checkAssetKind cfg (cache.view cfg g) none tx = .ok ()) :
    ∀ c ∈ tx.changes cfg, ChangeAccepted cfg g cache c := by
  intro c hc
  unfold CTransaction.changes at hc
  unfold checkAssetKind at h
  split_ifs at h hc with hissue hreissue hunique hchannel hqualifier hrestricted
  · obtain ⟨p, hp, rfl⟩ := List.mem_map.mp hc
    simp only [CTransaction.assetFromTransaction, CTransaction.fromLastOut, hissue, if_true, Option.mem_toList] at hp
    simp only [Option.mem_def.mp hp, demand, bind_eq_ok, Except.ok.injEq, exists_eq_left', orElseError_eq_ok] at h
    exact h
  · obtain ⟨p, hp, rfl⟩ := List.mem_map.mp hc
    simp only [CTransaction.reissueAssetFromTransaction, CTransaction.fromLastOut, hreissue, if_true, Option.mem_toList] at hp
    simp only [Option.mem_def.mp hp, demand, bind_eq_ok, Except.ok.injEq, exists_eq_left', orElseError_eq_ok] at h
    exact ⟨tx, h⟩
  · obtain ⟨out, hout, hparsed⟩ := List.mem_filterMap.mp hc
    split_ifs at hparsed with hscript
    obtain ⟨p, hp, rfl⟩ := Option.map_eq_some_iff.mp hparsed
    rw [orElseError_eq_ok, contextualCheckUniqueAssetTx] at h
    have hone := forM_eq_ok.mp h out hout
    simp only [hscript, if_true, hp, demand, bind_eq_ok, Except.ok.injEq, exists_eq_left'] at hone
    exact hone
  · obtain ⟨p, hp, rfl⟩ := List.mem_map.mp hc
    simp only [Option.mem_def.mp (Option.mem_toList.mp hp), demand, bind_eq_ok, Except.ok.injEq, exists_eq_left',
      orElseError_eq_ok, exists_punit, require_eq_ok] at h
    exact h.2
  · obtain ⟨p, hp, rfl⟩ := List.mem_map.mp hc
    simp only [Option.mem_def.mp (Option.mem_toList.mp hp), demand, bind_eq_ok, Except.ok.injEq, exists_eq_left',
      orElseError_eq_ok, exists_punit, require_eq_ok] at h
    exact h.2
  · obtain ⟨p, hp, rfl⟩ := List.mem_map.mp hc
    simp only [Option.mem_def.mp (Option.mem_toList.mp hp), demand, bind_eq_ok, Except.ok.injEq, exists_eq_left',
      orElseError_eq_ok, exists_punit, require_eq_ok] at h
    exact h.2.1
  · cases hc

theorem nodup_changes (h : checkTransaction cfg tx true false true = .ok ()) :
    ((tx.changes cfg).map RegistryChange.name).Nodup := by
  have hshort : ∀ {α : Type} (o : Option α) (f : α → RegistryChange), ((o.toList.map f).map RegistryChange.name).Nodup := by
    intro α o f
    cases o <;> simp
  obtain ⟨_, _, -, -, -, hkind⟩ := checkTransaction_ok h
  cases checkKind_ok hkind with
  | issue h => simpa only [CTransaction.changes, h, if_true] using hshort _ _
  | reissue h₁ h => simpa only [CTransaction.changes, h₁, h, if_true, Bool.false_eq_true, if_false] using hshort _ _
  | unique h₁ h₂ h hok =>
    simp only [checkIssueUnique, CTransaction.verifyNewUniqueAsset, bind_eq_ok, exists_punit,
      orElseError_eq_ok, Prod.exists] at hok
    obtain ⟨⟨-, names, parentName, hscan, -⟩, -⟩ := hok
    have hscan : UniqueScan cfg tx.vout (names, parentName) :=
      foldlM_prefix_invariant (UniqueScan cfg) (fun _ _ _ _ _ => uniqueScan_step) [] ⟨rfl, List.nodup_nil, by simp, by simp⟩ hscan
    have hnames : (tx.changes cfg).map RegistryChange.name = tx.vout.filterMap (uniqueName cfg) := by
      simp only [CTransaction.changes, h₁, h₂, h, if_true, Bool.false_eq_true, if_false, List.map_filterMap]
      refine List.filterMap_congr fun out _ => ?_
      rw [← uniqueName_isSome, uniqueName]
      cases assetFromScript cfg out.scriptPubKey with
      | none => rfl
      | some p => cases hu : isAssetNameOfType .UNIQUE p.1.strName <;> simp [Option.filter, hu, RegistryChange.name]
    rw [hnames, ← hscan.names, List.nodup_reverse]
    exact hscan.nodup
  | msgChannel h₁ h₂ h₃ h =>
    simpa only [CTransaction.changes, h₁, h₂, h₃, h, if_true, Bool.false_eq_true, if_false] using hshort _ _
  | qualifier h₁ h₂ h₃ h₄ h =>
    simpa only [CTransaction.changes, h₁, h₂, h₃, h₄, h, if_true, Bool.false_eq_true, if_false] using hshort _ _
  | restricted h₁ h₂ h₃ h₄ h₅ h =>
    simpa only [CTransaction.changes, h₁, h₂, h₃, h₄, h₅, h, if_true, Bool.false_eq_true, if_false] using hshort _ _
  | transfers h₁ h₂ h₃ h₄ h₅ h₆ =>
    simp [CTransaction.changes, h₁, h₂, h₃, h₄, h₅, h₆]

theorem changes_eq_nil (h : ∀ out ∈ tx.vout, isAssetScript out.scriptPubKey = none) : tx.changes cfg = [] := by
  have hlast : ∀ p : Bytes → Bool, (∀ s, isAssetScript s = none → p s = false) →
      CTransaction.outSatisfies p tx.lastOut = false := by
    intro p hp
    cases hout : tx.lastOut with
    | none => rfl
    | some out => exact hp _ (h out (List.mem_of_getLast? hout))
  have hnew : CTransaction.outSatisfies isScriptNewAsset tx.lastOut = false :=
    hlast _ fun s hs => by simp [isScriptNewAsset, payloadStart, hs]
  have hre : CTransaction.outSatisfies isScriptReissueAsset tx.lastOut = false :=
    hlast _ fun s hs => by simp [isScriptReissueAsset, payloadStart, hs]
  simp [CTransaction.changes, CTransaction.isNewAsset, CTransaction.isReissueAsset, CTransaction.isNewUniqueAsset,
    CTransaction.isNewMsgChannelAsset, CTransaction.isNewQualifierAsset, CTransaction.isNewRestrictedAsset, hnew, hre]

end Accepted

/-! ## Changes field by field -/

namespace CAssetsCache

variable {cache : CAssetsCache} {nHeight : Nat} {blockHash : Uint256}

section Balance

variable (pair : NameAddress) (nAmount : Int)

theorem newReissue_setBalance : (cache.setBalance cfg pair nAmount).newReissue = cache.newReissue := by
  unfold setBalance
  split_ifs <;> rfl

theorem mapReissuedAssetData_setBalance :
    (cache.setBalance cfg pair nAmount).mapReissuedAssetData = cache.mapReissuedAssetData := by
  unfold setBalance
  split_ifs <;> rfl

end Balance

structure IssueApplied (cache cache' : CAssetsCache) (item : CAssetCacheNewAsset) : Prop where
  newAssets : cache'.newAssets = cache.newAssets.addNew item.asset.strName item
  newReissue : cache'.newReissue = cache.newReissue
  mapReissuedAssetData : cache'.mapReissuedAssetData = cache.mapReissuedAssetData

theorem issueApplied {asset : CNewAsset} (hnew : cache.checkIfAssetExists cfg g asset.strName true = false)
    (address : Bytes) (verifier : Option Bytes) :
    IssueApplied cache (cache.applyChange cfg g nHeight blockHash (.issue asset address verifier))
      ⟨asset, address, blockHash, nHeight⟩ := by
  have hadded : cache.tryAddNewAsset cfg g asset address nHeight blockHash =
      CAssetsCache.setBalance cfg { cache with
        newAssets := cache.newAssets.addNew asset.strName ⟨asset, address, blockHash, nHeight⟩ }
        (asset.strName, address) asset.nAmount := by
    simp only [tryAddNewAsset, addNewAsset, hnew, Bool.false_eq_true, if_false, Option.getD_some]
  rw [applyChange, hadded]
  exact ⟨newAssets_setBalance _ _ _, newReissue_setBalance _ _, mapReissuedAssetData_setBalance _ _⟩

/-- What a reissue of an asset that was found leaves in the cache. -/
structure ReissueApplied (cache cache' : CAssetsCache) (asset : CNewAsset)
    (record : CAssetCacheReissueAsset) : Prop where
  newAssets : cache'.newAssets = cache.newAssets
  newReissue : cache'.newReissue = cache.newReissue.addNew record.out record
  mapReissuedAssetData : cache'.mapReissuedAssetData =
    cache.mapReissuedAssetData.insert record.reissue.strName (applyReissue asset record.reissue)

theorem reissueApplied {r : CReissueAsset} {asset : CNewAsset} {issued : Option (Int × Uint256)}
    (hmeta : cache.getAssetMetaData g r.strName = some (asset, issued)) (address : Bytes) (out : COutPoint)
    (verifier : Option Bytes) :
    ReissueApplied cache (cache.applyChange cfg g nHeight blockHash (.reissue r address out verifier)) asset
      ⟨r, address, out, (issued.getD (cfg.uninitHeight, 0)).2, (issued.getD (cfg.uninitHeight, 0)).1⟩ := by
  simp only [applyChange, addReissueAsset, hmeta, Option.getD_some]
  exact ⟨newAssets_setBalance _ _ _, newReissue_setBalance _ _, mapReissuedAssetData_setBalance _ _⟩

end CAssetsCache

/-! ## Blocks -/

section Blocks

variable {nHeight : Nat} {blockHash : Uint256} {tx : CTransaction} {cache : CAssetsCache}

theorem CAssetsCache.checkIfAssetExists_congr (cfg : Config) (g : AssetGlobals) {cache' : CAssetsCache} {name : Bytes}
    (h : cache'.newAssets.entry name = cache.newAssets.entry name) :
    cache'.checkIfAssetExists cfg g name true = cache.checkIfAssetExists cfg g name true := by
  obtain ⟨hadd, hremove⟩ := Prod.mk.inj h
  simp only [checkIfAssetExists, Std.TreeMap.contains_eq_isSome_getElem?, hadd, hremove]

theorem CAssetsCache.entry_applyChange_of_ne {c : RegistryChange} {name : Bytes} (hne : name ≠ c.name) :
    (cache.applyChange cfg g nHeight blockHash c).newAssets.entry name = cache.newAssets.entry name := by
  cases c with
  | issue asset address verifier =>
    cases hexists : cache.checkIfAssetExists cfg g asset.strName true with
    | false =>
      rw [(issueApplied hexists address verifier).newAssets, Pending.entry_addNew]
      exact if_neg hne
    | true =>
      have hsame : cache.tryAddNewAsset cfg g asset address nHeight blockHash = cache := by
        simp only [tryAddNewAsset, addNewAsset, hexists, if_true, Option.getD_none]
      rw [applyChange, hsame]
  | reissue r address out verifier =>
    rw [applyChange]
    cases hadd : cache.addReissueAsset cfg g r address out with
    | none => rfl
    | some cache' => rw [Option.getD_some, newAssets_of_addReissueAsset hadd]

theorem changes_cases (cfg : Config) (tx : CTransaction) :
    (∀ c ∈ tx.changes cfg, c.isIssue = true) ∨ ∃ c, tx.changes cfg = [c] := by
  have hissues : ∀ (l : List (CNewAsset × Bytes)) (v : Option Bytes),
      ∀ c ∈ l.map fun p => RegistryChange.issue p.1 p.2 v, c.isIssue = true := by
    intro l v c hc
    obtain ⟨p, -, rfl⟩ := List.mem_map.mp hc
    rfl
  unfold CTransaction.changes
  split_ifs
  · exact .inl (hissues _ _)
  · cases tx.reissueAssetFromTransaction cfg with
    | none => exact .inl (by simp)
    | some p => exact .inr ⟨_, rfl⟩
  · refine .inl fun c hc => ?_
    obtain ⟨out, -, hparsed⟩ := List.mem_filterMap.mp hc
    split_ifs at hparsed
    obtain ⟨p, -, rfl⟩ := Option.map_eq_some_iff.mp hparsed
    rfl
  · exact .inl (hissues _ _)
  · exact .inl (hissues _ _)
  · exact .inl (hissues _ _)
  · exact .inl (by simp)

theorem ChangeAccepted.applyChange {c c' : RegistryChange}
    (h : ChangeAccepted cfg g cache c') (hissue : c'.isIssue = true) (hne : c'.name ≠ c.name) :
    ChangeAccepted cfg g (cache.applyChange cfg g nHeight blockHash c) c' := by
  cases c' with
  | reissue => cases hissue
  | issue asset address verifier =>
    have hexists : (cache.applyChange cfg g nHeight blockHash c).checkIfAssetExists cfg g asset.strName true =
        cache.checkIfAssetExists cfg g asset.strName true :=
      CAssetsCache.checkIfAssetExists_congr cfg g (CAssetsCache.entry_applyChange_of_ne hne)
    simp only [ChangeAccepted, contextualCheckNewAsset, CAssetsCache.view] at h ⊢
    rw [hexists]
    exact h

section Induction

variable {P : List RegistryChange → CAssetsCache → Prop}

theorem issues_induction {l done : List RegistryChange} {cache : CAssetsCache}
    (hstep : ∀ done cache, ∀ c ∈ l, P done cache → ChangeAccepted cfg g cache c →
      P (done ++ [c]) (cache.applyChange cfg g nHeight blockHash c))
    (hissues : ∀ c ∈ l, c.isIssue = true) (hnodup : (l.map RegistryChange.name).Nodup)
    (haccepted : ∀ c ∈ l, ChangeAccepted cfg g cache c) (hstart : P done cache) :
    P (done ++ l) (l.foldl (CAssetsCache.applyChange cfg g nHeight blockHash) cache) := by
  induction l generalizing done cache with
  | nil => simpa using hstart
  | cons c l ih =>
    rw [List.map_cons, List.nodup_cons] at hnodup
    have hfirst := hstep done cache c List.mem_cons_self hstart (haccepted c List.mem_cons_self)
    have hrest := ih (fun done cache c' hc' => hstep done cache c' (List.mem_cons_of_mem c hc'))
      (fun c' hc' => hissues c' (List.mem_cons_of_mem c hc')) hnodup.2
      (fun c' hc' => (haccepted c' (List.mem_cons_of_mem c hc')).applyChange (hissues c' (List.mem_cons_of_mem c hc'))
        fun heq => hnodup.1 (heq ▸ List.mem_map_of_mem hc')) hfirst
    rw [List.append_assoc] at hrest
    exact hrest

theorem changes_of_connectTx {st st' : ConnectState} {done : List RegistryChange}
    (hsame : ∀ {done cache cache'}, cache.onlyRegistry = cache'.onlyRegistry → P done cache → P done cache')
    (hstep : ∀ done cache, ∀ c ∈ tx.changes cfg, P done cache → ChangeAccepted cfg g cache c →
      P (done ++ [c]) (cache.applyChange cfg g nHeight blockHash c))
    (htx : checkTransaction cfg tx true false true = .ok ())
    (hcoinbase : tx.isCoinBase = true → tx.changes cfg = [])
    (h : connectTx cfg g nHeight blockHash st tx = .ok st') (hst : P done st.cache) :
    P (done ++ tx.changes cfg) st'.cache := by
  obtain ⟨hchecked, coins, cache, spent, undo, hspent, -, hcache, -, -⟩ := connectTx_ok (nodup_of_checkTransaction htx) h
  have hindex : cache.forgetIndex = st.cache.forgetIndex := by
    split_ifs at hspent
    · rw [hspent.2.1]
    · exact hspent.index
  have haccepted : (cfg.dep.assets = true ∨ tx.changes cfg = []) ∧ ∀ c ∈ tx.changes cfg, ChangeAccepted cfg g cache c := by
    split_ifs at hchecked with hcb
    · simp [hcoinbase hcb]
    · have hassets := hchecked.assets
      unfold checkBlockTxAssets at hassets
      split_ifs at hassets with hdep
      · simp only [bind_eq_ok, pure_eq_ok] at hassets
        obtain ⟨pairs, hcheck, -⟩ := hassets
        obtain ⟨-, -, -, -, -, hkind, -⟩ := checkTxAssets_ok hcheck
        rw [CAssetsCache.view_eq_of_forgetIndex hindex.symm] at hkind
        exact ⟨.inl hdep, changeAccepted_of_checkAssetKind hkind⟩
      · have hnone : tx.changes cfg = [] := by
          refine changes_eq_nil fun out hout => ?_
          have hnot := forM_eq_ok.mp hassets out hout
          simp only [bind_eq_ok, exists_punit, require_eq_ok, Option.isNone_iff_eq_none] at hnot
          exact hnot.1
        simp [hnone]
  obtain ⟨hassets, haccepted⟩ := haccepted
  have hadded : (cache.addCoins cfg g tx nHeight blockHash).1.onlyRegistry = _ := CAssetsCache.onlyRegistry_addCoins tx hassets
  rw [← hcache] at hadded
  have hstart : P done cache := hsame (CAssetsCache.onlyRegistry_of_forgetIndex hindex.symm) hst
  refine hsame hadded.symm ?_
  rcases changes_cases cfg tx with hissues | ⟨c, hone⟩
  · exact issues_induction hstep hissues (nodup_changes htx) haccepted hstart
  · have hc : c ∈ tx.changes cfg := by simp [hone]
    have hfirst := hstep done cache c hc hstart (haccepted c hc)
    rw [hone]
    exact hfirst

theorem changes_of_connectBlock {coins : Coins} {block : CBlock} {st : ConnectState}
    (hsame : ∀ {done cache cache'}, cache.onlyRegistry = cache'.onlyRegistry → P done cache → P done cache')
    (hstep : ∀ done cache, ∀ c ∈ block.changes cfg, P done cache → ChangeAccepted cfg g cache c →
      P (done ++ [c]) (cache.applyChange cfg g nHeight block.hash c))
    (hstart : P [] .empty) (hbare : block.CoinbaseBare) (h : connectBlock cfg g coins nHeight block = .ok st) :
    P (block.changes cfg) st.cache := by
  obtain ⟨hcheck, hfold, -⟩ := connectBlock_ok h
  obtain ⟨-, -, -, -, -, htxs⟩ := checkBlock_ok hcheck
  refine foldlM_prefix_invariant (fun read (s : ConnectState) =>
    P (read.flatMap (CTransaction.changes cfg)) s.cache) ?_ [] ?_ hfold
  swap
  · exact hstart
  intro read s s' tx htx hread hstep'
  rw [List.flatMap_append, List.flatMap_singleton]
  refine changes_of_connectTx hsame (fun done cache c hc => hstep done cache c ?_) (htxs tx htx) ?_ hstep' hread
  · exact List.mem_flatMap.mpr ⟨tx, htx, hc⟩
  · intro hcoinbase
    exact changes_eq_nil fun out hout => (hbare tx htx hcoinbase out hout).1

end Induction

end Blocks

end HempCore
