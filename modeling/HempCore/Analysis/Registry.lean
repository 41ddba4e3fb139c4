import HempCore.Analysis.RegistryChanges

/-!
# The register of assets over a chain

The register gives the data of each asset: those of its issue, as the reissues after it changed
them. While the caches and databases are kept in order, the tip answers with the register of its
chain, whatever was pending and whatever has been written out.
-/

set_option autoImplicit false

namespace HempCore

open Lib Std

variable {cfg : Config} {g : AssetGlobals} {cache : CAssetsCache}

/-! ## Registers -/

abbrev Register := Bytes → Option CNewAsset

/-- An issue enters its asset; a reissue changes one that is there. -/
def RegistryChange.applyTo (H : Register) : RegistryChange → Register
  | .issue asset _ _ => Function.update H asset.strName (some asset)
  | .reissue r _ _ _ => Function.update H r.strName ((H r.strName).map (CAssetsCache.applyReissue · r))

def Register.after (H : Register) (changes : List RegistryChange) : Register :=
  changes.foldl RegistryChange.applyTo H

/-- The changes of a chain that stands tip first, in order. -/
def chainChanges (cfg : Config) (chain : List CBlock) : List RegistryChange :=
  chain.reverse.flatMap (CBlock.changes cfg)

def registerOf (cfg : Config) (chain : List CBlock) : Register :=
  Register.after (fun _ => none) (chainChanges cfg chain)

variable {H : Register}

theorem applyTo_of_ne {c : RegistryChange} {name : Bytes} (hne : name ≠ c.name) : c.applyTo H name = H name := by
  cases c with
  | issue => exact Function.update_of_ne hne _ _
  | reissue => exact Function.update_of_ne hne _ _

theorem after_append (H : Register) (l l' : List RegistryChange) : H.after (l ++ l') = Register.after (H.after l) l' :=
  List.foldl_append

theorem chainChanges_cons (block : CBlock) (chain : List CBlock) :
    chainChanges cfg (block :: chain) = chainChanges cfg chain ++ block.changes cfg := by
  simp [chainChanges]

theorem registerOf_cons (block : CBlock) (chain : List CBlock) :
    registerOf cfg (block :: chain) = Register.after (registerOf cfg chain) (block.changes cfg) := by
  rw [registerOf, chainChanges_cons, after_append]
  rfl

/-! ## What the tip answers -/

def AssetGlobals.register (g : AssetGlobals) : Register := g.passets.getAssetMetaDataIfExists g

/-- The data of an asset whose issue is pending or stored. -/
def issuedAsset (item : Option CAssetCacheNewAsset) (stored : Option CDatabasedAssetData) : Option CNewAsset :=
  (item.map CAssetCacheNewAsset.asset).or (stored.map CDatabasedAssetData.asset)

/-! ## Caches and databases in order -/

/-- Nothing is to be undone, and each reissued asset has a record to be written. An output reissues one
name. -/
structure Growing (nameOf : COutPoint → Bytes) (cache : CAssetsCache) : Prop where
  newAssets : cache.newAssets.OnlyAdds
  newReissue : cache.newReissue.OnlyAdds
  recorded : ∀ name a, cache.mapReissuedAssetData[name]? = some a →
    ∃ out, nameOf out = name ∧ (cache.newReissue.entry out).1 ≠ none
  records : ∀ out record, (cache.newReissue.entry out).1 = some record → record.reissue.strName = nameOf out

def Register.Named (H : Register) : Prop := ∀ name a, H name = some a → a.strName = name

/-- The issues and reissues pending and stored fit together. -/
structure Kept (nameOf : COutPoint → Bytes) (g : AssetGlobals) : Prop where
  agrees : g.passetsCache.Agrees (g.assetData[·]?)
  growing : Growing nameOf g.passets
  /-- The data of a reissued asset belong to an asset that is there. -/
  reissued : ∀ name a, g.passets.mapReissuedAssetData[name]? = some a →
    issuedAsset (g.passets.newAssets.entry name).1 (g.stored name) ≠ none
  named : g.register.Named

variable {nameOf : COutPoint → Bytes}

theorem growing_empty : Growing nameOf .empty where
  newAssets := Pending.onlyAdds_empty
  newReissue := Pending.onlyAdds_empty
  recorded name a h := by simp [CAssetsCache.empty] at h
  records out record h := by simp [CAssetsCache.empty] at h

theorem lookup_eq (hcache : cache.newAssets.OnlyAdds) (hg : g.passets.newAssets.OnlyAdds) (name : Bytes) :
    cache.getAssetMetaDataIfExists g name =
      (cache.mapReissuedAssetData[name]?.or g.passets.mapReissuedAssetData[name]?).or
        (issuedAsset ((cache.newAssets.entry name).1.or (g.passets.newAssets.entry name).1) (g.stored name)) := by
  rw [getAssetMetaDataIfExists_eq, layeredAsset, hcache, hg]
  rfl

theorem Growing.register_eq (h : Growing nameOf g.passets) (name : Bytes) :
    g.register name = g.passets.mapReissuedAssetData[name]?.or
      (issuedAsset (g.passets.newAssets.entry name).1 (g.stored name)) := by
  rw [AssetGlobals.register, lookup_eq h.newAssets h.newAssets, Option.or_self, Option.or_self]

theorem register_empty : AssetGlobals.empty.register = fun _ => none := by
  funext name
  have hgrowing : Growing (fun _ => []) AssetGlobals.empty.passets := growing_empty
  rw [hgrowing.register_eq]
  simp [AssetGlobals.empty, CAssetsCache.empty, AssetGlobals.stored, LRUCache.get?, LRUCache.empty, issuedAsset]

theorem kept_empty : Kept nameOf .empty where
  agrees := LRUCache.agrees_empty _
  growing := growing_empty
  reissued name a h := by simp [AssetGlobals.empty, CAssetsCache.empty] at h
  named name a h := by
    rw [register_empty] at h
    cases h

theorem Kept.stored_eq (h : Kept nameOf g) (name : Bytes) : g.stored name = g.assetData[name]? := h.agrees.or_store name

/-! ## Merging -/

theorem reissued_flush (name : Bytes) :
    (g.flush cache).passets.mapReissuedAssetData[name]? =
      cache.mapReissuedAssetData[name]?.or g.passets.mapReissuedAssetData[name]? :=
  getElem?_overwriteWith _ _ name

section

variable (hcache : Growing nameOf cache) (hg : Growing nameOf g.passets)
include hcache hg

theorem Growing.entry_flush (name : Bytes) :
    (g.flush cache).passets.newAssets.entry name = ((g.passets.newAssets.entry name).1.or (cache.newAssets.entry name).1, none) :=
  hcache.newAssets.entry_flushNewInto name hg.newAssets

theorem Growing.flush :
    Growing nameOf (g.flush cache).passets := by
  have hreissue : ∀ out, (g.flush cache).passets.newReissue.entry out =
      ((g.passets.newReissue.entry out).1.or (cache.newReissue.entry out).1, none) :=
    fun out => hcache.newReissue.entry_flushNewInto out hg.newReissue
  refine ⟨fun name => by rw [hcache.entry_flush hg], fun out => by rw [hreissue], fun name a ha => ?_,
    fun out record hrecord => ?_⟩
  · rw [reissued_flush, Option.or_eq_some_iff] at ha
    rcases ha with ha | ⟨-, ha⟩
    · obtain ⟨out, hout, hentry⟩ := hcache.recorded name a ha
      refine ⟨out, hout, ?_⟩
      rw [hreissue, ne_eq, Option.or_eq_none_iff]
      exact fun hnone => hentry hnone.2
    · obtain ⟨out, hout, hentry⟩ := hg.recorded name a ha
      refine ⟨out, hout, ?_⟩
      rw [hreissue, ne_eq, Option.or_eq_none_iff]
      exact fun hnone => hentry hnone.1
  · rw [hreissue, Option.or_eq_some_iff] at hrecord
    exact hrecord.elim (hg.records out record) fun hnew => hcache.records out record hnew.2

theorem Growing.register_flush (name : Bytes) :
    (g.flush cache).register name =
      (cache.mapReissuedAssetData[name]?.or g.passets.mapReissuedAssetData[name]?).or
        (issuedAsset ((g.passets.newAssets.entry name).1.or (cache.newAssets.entry name).1) (g.stored name)) := by
  rw [(hcache.flush hg).register_eq, reissued_flush, hcache.entry_flush hg]
  rfl

end

/-! ## Connecting a block -/

theorem Register.Named.applyTo (h : H.Named) (c : RegistryChange) : (c.applyTo H).Named := by
  intro name a ha
  by_cases hname : name = c.name
  · cases c with
    | issue asset address verifier =>
      rw [hname, RegistryChange.applyTo, RegistryChange.name, Function.update_self] at ha
      rw [hname, ← Option.some.inj ha]
      rfl
    | reissue r address out verifier =>
      rw [hname, RegistryChange.applyTo, RegistryChange.name, Function.update_self] at ha
      obtain ⟨old, hold, rfl⟩ := Option.map_eq_some_iff.mp ha
      rw [hname]
      exact h _ old hold
  · rw [applyTo_of_ne hname] at ha
    exact h name a ha

theorem Register.Named.after (h : H.Named) (l : List RegistryChange) : (H.after l).Named := by
  induction l generalizing H with
  | nil => exact h
  | cons c l ih => exact ih (h.applyTo c)

/-- What the changes made so far have left in the cache of a block. -/
structure Connecting (nameOf : COutPoint → Bytes) (g : AssetGlobals) (done : List RegistryChange)
    (cache : CAssetsCache) : Prop where
  growing : Growing nameOf cache
  /-- An issued name was new. -/
  fresh : ∀ name, (cache.newAssets.entry name).1 ≠ none →
    issuedAsset (g.passets.newAssets.entry name).1 (g.stored name) = none
  /-- A reissued name was there. -/
  reissued : ∀ name a, cache.mapReissuedAssetData[name]? = some a →
    issuedAsset ((g.passets.newAssets.entry name).1.or (cache.newAssets.entry name).1) (g.stored name) ≠ none
  register : (g.flush cache).register = Register.after g.register done

theorem issuedAsset_eq_none {item : Option CAssetCacheNewAsset} {stored : Option CDatabasedAssetData} :
    issuedAsset item stored = none ↔ item = none ∧ stored = none := by
  simp [issuedAsset]

section Connecting

variable {done : List RegistryChange} {nHeight : Nat} {blockHash : Uint256}

section

variable (hkept : Kept nameOf g)
include hkept

theorem connecting_start : Connecting nameOf g [] .empty where
  growing := growing_empty
  fresh name h := by simp [CAssetsCache.empty] at h
  reissued name a h := by simp [CAssetsCache.empty] at h
  register := by
    funext name
    rw [growing_empty.register_flush hkept.growing]
    simp [CAssetsCache.empty, Register.after, hkept.growing.register_eq]

/-- A lookup from the block finds what the tip answers once the cache is merged. -/
theorem Connecting.lookup (h : Connecting nameOf g done cache) (name : Bytes) :
    cache.getAssetMetaDataIfExists g name = (g.flush cache).register name := by
  rw [lookup_eq h.growing.newAssets hkept.growing.newAssets, h.growing.register_flush hkept.growing]
  cases hissue : (cache.newAssets.entry name).1 with
  | none => rw [Option.none_or, Option.or_none]
  | some item =>
    have hnone := (issuedAsset_eq_none.mp (h.fresh name (by rw [hissue]; simp))).1
    rw [hnone, Option.none_or, Option.or_none]

theorem Connecting.unknown (h : Connecting nameOf g done cache) {name : Bytes}
    (hnew : cache.checkIfAssetExists cfg g name true = false) :
    issuedAsset ((g.passets.newAssets.entry name).1.or (cache.newAssets.entry name).1) (g.stored name) = none ∧
      cache.mapReissuedAssetData[name]? = none ∧ g.passets.mapReissuedAssetData[name]? = none := by
  have hreindex : cfg.fReindex = false := by
    by_contra hre
    simp [CAssetsCache.checkIfAssetExists, hre] at hnew
  rw [checkIfAssetExists_eq _ _ _ _ hreindex, layeredExists, h.growing.newAssets, hkept.growing.newAssets] at hnew
  have hnone : (cache.newAssets.entry name).1 = none ∧ (g.passets.newAssets.entry name).1 = none ∧
      g.stored name = none := by simpa [and_assoc] using hnew
  obtain ⟨hlocal, hglobal, hstored⟩ := hnone
  refine ⟨by rw [hlocal, hglobal, hstored]; rfl, ?_, ?_⟩
  · by_contra hmap
    obtain ⟨a, ha⟩ := Option.ne_none_iff_exists'.mp hmap
    exact h.reissued name a ha (by rw [hlocal, hglobal, hstored]; rfl)
  · by_contra hmap
    obtain ⟨a, ha⟩ := Option.ne_none_iff_exists'.mp hmap
    exact hkept.reissued name a ha (by rw [hglobal, hstored]; rfl)

theorem Connecting.absent (h : Connecting nameOf g done cache) {name : Bytes}
    (hnew : cache.checkIfAssetExists cfg g name true = false) : (g.flush cache).register name = none := by
  obtain ⟨hissued, hlocal, hglobal⟩ := h.unknown hkept hnew
  rw [h.growing.register_flush hkept.growing, hissued, hlocal, hglobal]
  rfl

theorem Connecting.issue (h : Connecting nameOf g done cache) {asset : CNewAsset}
    {address : Bytes} {verifier : Option Bytes} (hnew : cache.checkIfAssetExists cfg g asset.strName true = false) :
    Connecting nameOf g (done ++ [.issue asset address verifier])
      (cache.applyChange cfg g nHeight blockHash (.issue asset address verifier)) := by
  obtain ⟨hissued, hlocal, hglobal⟩ := h.unknown hkept hnew
  obtain ⟨hentries, hstored⟩ := issuedAsset_eq_none.mp hissued
  obtain ⟨hold, hfirst⟩ := Option.or_eq_none_iff.mp hentries
  have happlied : CAssetsCache.IssueApplied cache (cache.applyChange cfg g nHeight blockHash _) _ :=
    CAssetsCache.issueApplied hnew address verifier
  generalize cache.applyChange cfg g nHeight blockHash (.issue asset address verifier) = cache' at happlied ⊢
  have hentry : ∀ name, (cache'.newAssets.entry name).1 =
      if name = asset.strName then some ⟨asset, address, blockHash, nHeight⟩ else (cache.newAssets.entry name).1 := by
    intro name
    rw [happlied.newAssets, Pending.entry_addNew]
    by_cases hname : name = asset.strName
    · rw [if_pos hname, if_pos hname, hname, hfirst, Option.getD_none]
    · rw [if_neg hname, if_neg hname]
  have hgrowing : Growing nameOf cache' := by
    refine ⟨?_, ?_, ?_, ?_⟩
    · rw [happlied.newAssets]
      exact h.growing.newAssets.addNew _ _
    · rw [happlied.newReissue]
      exact h.growing.newReissue
    · rw [happlied.newReissue, happlied.mapReissuedAssetData]
      exact h.growing.recorded
    · rw [happlied.newReissue]
      exact h.growing.records
  refine ⟨hgrowing, fun name hname => ?_, fun name a ha => ?_, ?_⟩
  · rw [hentry] at hname
    split_ifs at hname with heq
    · rw [heq, hold, hstored]
      rfl
    · exact h.fresh name hname
  · rw [happlied.mapReissuedAssetData] at ha
    have hne : name ≠ asset.strName := by
      rintro rfl
      rw [hlocal] at ha
      cases ha
    rw [hentry, if_neg hne]
    exact h.reissued name a ha
  · funext name
    rw [after_append, ← h.register, hgrowing.register_flush hkept.growing, happlied.mapReissuedAssetData, hentry]
    by_cases hname : name = asset.strName
    · subst hname
      rw [if_pos rfl, hlocal, hglobal, hold]
      simp [Register.after, RegistryChange.applyTo, issuedAsset]
    · rw [if_neg hname, ← h.growing.register_flush hkept.growing]
      exact (applyTo_of_ne (c := .issue asset address verifier) hname).symm

theorem Connecting.reissue (h : Connecting nameOf g done cache) {r : CReissueAsset}
    {address : Bytes} {out : COutPoint} {verifier : Option Bytes} {asset : CNewAsset}
    (hmeta : cache.getAssetMetaDataIfExists g r.strName = some asset) (hid : nameOf out = r.strName) :
    Connecting nameOf g (done ++ [.reissue r address out verifier])
      (cache.applyChange cfg g nHeight blockHash (.reissue r address out verifier)) := by
  have hregister := (h.lookup hkept r.strName).symm.trans hmeta
  have hthere : issuedAsset ((g.passets.newAssets.entry r.strName).1.or (cache.newAssets.entry r.strName).1)
      (g.stored r.strName) ≠ none := by
    intro hnone
    rw [h.growing.register_flush hkept.growing, hnone, Option.or_none, Option.or_eq_some_iff] at hregister
    rcases hregister with hlocal | ⟨-, hglobal⟩
    · exact h.reissued _ asset hlocal hnone
    · obtain ⟨hentries, hstored⟩ := issuedAsset_eq_none.mp hnone
      refine hkept.reissued _ asset hglobal ?_
      rw [(Option.or_eq_none_iff.mp hentries).1, hstored]
      rfl
  obtain ⟨⟨asset', issued⟩, hfull, rfl⟩ := Option.map_eq_some_iff.mp hmeta
  have happlied : CAssetsCache.ReissueApplied cache (cache.applyChange cfg g nHeight blockHash _) asset' _ :=
    CAssetsCache.reissueApplied hfull address out verifier
  generalize cache.applyChange cfg g nHeight blockHash (.reissue r address out verifier) = cache' at happlied ⊢
  have hgrowing : Growing nameOf cache' := by
    refine ⟨?_, ?_, fun name a ha => ?_, fun o record hrecord => ?_⟩
    · rw [happlied.newAssets]
      exact h.growing.newAssets
    · rw [happlied.newReissue]
      exact h.growing.newReissue.addNew _ _
    · rw [happlied.mapReissuedAssetData, getElem?_insert_eq] at ha
      rw [happlied.newReissue]
      split_ifs at ha with hname
      · refine ⟨out, hid.trans hname.symm, ?_⟩
        rw [Pending.entry_addNew, if_pos rfl]
        simp
      · obtain ⟨o, ho, hentry⟩ := h.growing.recorded name a ha
        refine ⟨o, ho, ?_⟩
        rw [Pending.entry_addNew]
        split_ifs
        · simp
        · exact hentry
    · rw [happlied.newReissue, Pending.entry_addNew] at hrecord
      split_ifs at hrecord with ho
      · cases hold : (cache.newReissue.entry o).1 with
        | none =>
          rw [hold] at hrecord
          rw [← Option.some.inj hrecord, ho]
          exact hid.symm
        | some older =>
          rw [hold] at hrecord
          rw [← Option.some.inj hrecord]
          exact h.growing.records o older hold
      · exact h.growing.records o record hrecord
  refine ⟨hgrowing, ?_, fun name a ha => ?_, ?_⟩
  · rw [happlied.newAssets]
    exact h.fresh
  · rw [happlied.mapReissuedAssetData, getElem?_insert_eq] at ha
    rw [happlied.newAssets]
    split_ifs at ha with hname
    · rw [hname]
      exact hthere
    · exact h.reissued name a ha
  · funext name
    rw [after_append, ← h.register, hgrowing.register_flush hkept.growing, happlied.mapReissuedAssetData,
      happlied.newAssets, getElem?_insert_eq]
    by_cases hname : name = r.strName
    · subst hname
      simp [Register.after, RegistryChange.applyTo, hregister]
    · rw [if_neg hname, ← h.growing.register_flush hkept.growing]
      exact (applyTo_of_ne (c := .reissue r address out verifier) hname).symm

theorem Connecting.kept (h : Connecting nameOf g done cache) : Kept nameOf (g.flush cache) where
  agrees := hkept.agrees
  growing := h.growing.flush hkept.growing
  reissued name a ha := by
    rw [h.growing.entry_flush hkept.growing]
    rw [reissued_flush, Option.or_eq_some_iff] at ha
    rcases ha with ha | ⟨-, ha⟩
    · exact h.reissued name a ha
    · intro hnone
      obtain ⟨hentries, hstored⟩ := issuedAsset_eq_none.mp hnone
      exact hkept.reissued name a ha (issuedAsset_eq_none.mpr ⟨(Option.or_eq_none_iff.mp hentries).1, hstored⟩)
  named := by
    rw [h.register]
    exact hkept.named.after done

end

theorem Connecting.congr {cache' : CAssetsCache} (heq : cache.onlyRegistry = cache'.onlyRegistry)
    (h : Connecting nameOf g done cache) : Connecting nameOf g done cache' := by
  have hgrowing : ∀ c : CAssetsCache, Growing nameOf c ↔ Growing nameOf c.onlyRegistry := fun c =>
    ⟨fun hc => ⟨hc.newAssets, hc.newReissue, hc.recorded, hc.records⟩,
      fun hc => ⟨hc.newAssets, hc.newReissue, hc.recorded, hc.records⟩⟩
  have honly : ∀ c : CAssetsCache, Connecting nameOf g done c ↔ Connecting nameOf g done c.onlyRegistry := fun c =>
    ⟨fun hc => ⟨(hgrowing c).mp hc.growing, hc.fresh, hc.reissued, hc.register⟩,
      fun hc => ⟨(hgrowing c).mpr hc.growing, hc.fresh, hc.reissued, hc.register⟩⟩
  rw [honly, ← heq, ← honly]
  exact h

end Connecting

/-- The outputs of the block reissue the names they are known for. -/
def ReissuesNamed (cfg : Config) (nameOf : COutPoint → Bytes) (block : CBlock) : Prop :=
  ∀ r address out verifier, RegistryChange.reissue r address out verifier ∈ block.changes cfg → nameOf out = r.strName

theorem changeAccepted_issue {asset : CNewAsset} {address : Bytes} {verifier : Option Bytes}
    (h : ChangeAccepted cfg g cache (.issue asset address verifier)) :
    checkNewAsset cfg asset = .ok () ∧ cache.checkIfAssetExists cfg g asset.strName true = false := by
  simp only [ChangeAccepted, contextualCheckNewAsset, bind_eq_ok, exists_punit, require_eq_ok, Bool.not_eq_true'] at h
  exact ⟨h.2.1, h.2.2.1⟩

/-- What a reissue was checked for against the data found for its name. -/
structure ReissueAllowed (cfg : Config) (prev : CNewAsset) (r : CReissueAsset) : Prop where
  valid : checkReissueAsset cfg r = .ok ()
  reissuable : prev.nReissuable ≠ 0
  amount : prev.nAmount + r.nAmount ≤ maxMoney
  divisible : checkAmountWithUnits r.nAmount prev.units = true
  units : prev.units ≤ r.nUnits ∨ r.nUnits = -1

theorem changeAccepted_reissue {r : CReissueAsset} {address : Bytes} {out : COutPoint}
    {verifier : Option Bytes} (h : ChangeAccepted cfg g cache (.reissue r address out verifier)) :
    ∃ prev, cache.getAssetMetaDataIfExists g r.strName = some prev ∧ ReissueAllowed cfg prev r := by
  obtain ⟨tx, h⟩ := h
  simp only [contextualCheckReissueAsset, bind_eq_ok, exists_punit, require_eq_ok, demand_eq_ok, bne_iff_ne,
    decide_eq_true_eq, Bool.or_eq_true, beq_iff_eq, Prod.exists] at h
  obtain ⟨_, _, -, hvalid, prev, hprev, hreissuable, hamount, hdivisible, hunits, -⟩ := h
  exact ⟨prev, hprev, hvalid, hreissuable, hamount, hdivisible, hunits⟩

/-- An issue enters a new name with valid data; a reissue is allowed by the data of its name. -/
def LawfulChange (cfg : Config) (H : Register) : RegistryChange → Prop
  | .issue asset _ _ => H asset.strName = none ∧ checkNewAsset cfg asset = .ok ()
  | .reissue r _ _ _ => ∃ prev, H r.strName = some prev ∧ ReissueAllowed cfg prev r

def LawfulChanges (cfg : Config) : Register → List RegistryChange → Prop
  | _, [] => True
  | H, c :: l => LawfulChange cfg H c ∧ LawfulChanges cfg (c.applyTo H) l

theorem lawfulChanges_append {l l' : List RegistryChange} :
    LawfulChanges cfg H (l ++ l') ↔ LawfulChanges cfg H l ∧ LawfulChanges cfg (H.after l) l' := by
  induction l generalizing H with
  | nil => simp [LawfulChanges, Register.after]
  | cons c l ih =>
    rw [List.cons_append, LawfulChanges, LawfulChanges, ih, and_assoc]
    rfl

theorem LawfulChanges.of_config {node : Node} {l : List RegistryChange}
    (h : LawfulChanges (node.config cfg) H l) : LawfulChanges cfg H l := by
  induction l generalizing H with
  | nil => trivial
  | cons c l ih =>
    refine ⟨?_, ih h.2⟩
    have hc := h.1
    cases c with
    | issue asset address verifier => exact hc
    | reissue r address out verifier =>
      obtain ⟨prev, hprev, hallowed⟩ := hc
      exact ⟨prev, hprev, hallowed.valid, hallowed.reissuable, hallowed.amount, hallowed.divisible, hallowed.units⟩

theorem Connecting.change {done : List RegistryChange} (h : Connecting nameOf g done cache)
    (hkept : Kept nameOf g) {c : RegistryChange} (haccepted : ChangeAccepted cfg g cache c)
    (hid : ∀ r address out verifier, c = .reissue r address out verifier → nameOf out = r.strName)
    (nHeight : Nat) (blockHash : Uint256) :
    Connecting nameOf g (done ++ [c]) (cache.applyChange cfg g nHeight blockHash c) ∧
      LawfulChange cfg (Register.after g.register done) c := by
  rw [← h.register]
  cases c with
  | issue asset address verifier =>
    obtain ⟨hvalid, hnew⟩ := changeAccepted_issue haccepted
    exact ⟨h.issue hkept hnew, h.absent hkept hnew, hvalid⟩
  | reissue r address out verifier =>
    obtain ⟨prev, hprev, hallowed⟩ := changeAccepted_reissue haccepted
    exact ⟨h.reissue hkept hprev (hid r address out verifier rfl), prev, (h.lookup hkept _).symm.trans hprev, hallowed⟩

theorem connecting_of_connectBlock {coins : Coins} {nHeight : Nat} {block : CBlock} {st : ConnectState}
    (hkept : Kept nameOf g) (hbare : block.CoinbaseBare) (hids : ReissuesNamed cfg nameOf block)
    (h : connectBlock cfg g coins nHeight block = .ok st) :
    Connecting nameOf g (block.changes cfg) st.cache ∧ LawfulChanges cfg g.register (block.changes cfg) := by
  refine changes_of_connectBlock (P := fun done cache => Connecting nameOf g done cache ∧ LawfulChanges cfg g.register done)
    (fun heq hcache => ⟨hcache.1.congr heq, hcache.2⟩) ?_ ⟨connecting_start hkept, trivial⟩ hbare h
  rintro done cache c hc ⟨hread, hlawful⟩ haccepted
  obtain ⟨hread', hchange⟩ := hread.change hkept haccepted
    (fun r address out verifier heq => hids r address out verifier (heq ▸ hc)) nHeight block.hash
  exact ⟨hread', lawfulChanges_append.mpr ⟨hlawful, hchange, trivial⟩⟩

/-! ## Writing out -/

namespace AssetGlobals

/-- What the writing out of issues and reissues reads and writes. -/
def assetTables (g : AssetGlobals) :
    CAssetsCache × LRUCache Bytes CDatabasedAssetData × TreeMap Bytes CDatabasedAssetData :=
  (g.passets, g.passetsCache, g.assetData)

theorem assetTables_dumpVerifiers : g.dumpVerifiers.assetTables = g.assetTables := by
  unfold dumpVerifiers
  simp only
  rw [treeMap_foldl_unchanged assetTables (f := dumpUndoneVerifier) (fun _ _ _ => rfl),
    treeMap_foldl_unchanged assetTables (f := dumpAddedVerifier) (fun _ _ _ => rfl)]

theorem assetTables_dumpAddressIndex : g.dumpAddressIndex.assetTables = g.assetTables := by
  have hsame : ∀ g : AssetGlobals, g.assetTables = g.forgetQuantities.assetTables := fun _ => rfl
  rw [hsame, forgetQuantities_dumpAddressIndex, ← hsame]

/-- What is written before the reissues, where nothing is to be undone. -/
def dumpIssues (g : AssetGlobals) : AssetGlobals := g.passets.newAssets.toAdd.foldl dumpAddedAsset g

theorem passets_dumpReissuedData (record : CAssetCacheReissueAsset) : (g.dumpReissuedData record).passets = g.passets := by
  unfold dumpReissuedData
  split <;> rfl

theorem dumpAssets_eq (h : Growing nameOf g.passets) :
    g.dumpAssets = (g.passets.newReissue.toAdd.toList.map Prod.snd).foldl dumpReissuedData g.dumpIssues := by
  simp only [dumpAssets, dumpIssues, TreeMap.foldl_eq_foldl_toList, h.newAssets.toList_toRemove,
    h.newReissue.toList_toRemove, List.foldl_nil, List.foldl_map]

def storedAsset (g : AssetGlobals) (name : Bytes) : Option CNewAsset :=
  g.assetData[name]?.map CDatabasedAssetData.asset

theorem storedAsset_dumpIssues (name : Bytes) :
    g.dumpIssues.storedAsset name = issuedAsset (g.passets.newAssets.entry name).1 g.assetData[name]? := by
  rw [storedAsset, dumpIssues, treeMap_foldl_keyLocal (fun (t : AssetGlobals) (j : Bytes) => t.assetData[j]?)
    dumpAddedAsset (fun item _ => some ⟨item.asset, item.blockHeight, item.blockHash⟩)
    (fun t k item j => getElem?_insert_eq t.assetData k j ⟨item.asset, item.blockHeight, item.blockHash⟩)]
  simp only [Pending.entry]
  cases g.passets.newAssets.toAdd[name]? <;> rfl

theorem storedAsset_dumpReissuedData (hnamed : Register.Named (g.passets.mapReissuedAssetData[·]?))
    (record : CAssetCacheReissueAsset) (name : Bytes) :
    (g.dumpReissuedData record).storedAsset name =
      if name = record.reissue.strName then g.passets.mapReissuedAssetData[name]?.or (g.storedAsset name)
      else g.storedAsset name := by
  unfold dumpReissuedData storedAsset
  cases hreissued : g.passets.mapReissuedAssetData[record.reissue.strName]? with
  | none =>
    split_ifs with hname
    · rw [hname, hreissued]
      rfl
    · rfl
  | some asset =>
    simp only
    rw [getElem?_insert_eq, hnamed _ asset hreissued]
    split_ifs with hname
    · rw [hname, hreissued]
      rfl
    · rfl

/-- The least-recently-used cache stands in front of the table. -/
def CacheAgrees (g : AssetGlobals) : Prop := g.passetsCache.Agrees (g.assetData[·]?)

theorem CacheAgrees.dumpIssues (h : g.CacheAgrees) : g.dumpIssues.CacheAgrees := by
  rw [AssetGlobals.dumpIssues, TreeMap.foldl_eq_foldl_toList]
  refine List.foldlRecOn (motive := CacheAgrees) _ _ h ?_
  intro t ht p _
  refine LRUCache.Agrees.put ht ?_ fun j hj => ?_
  · exact (getElem?_insert_eq t.assetData p.1 p.1 _).trans (if_pos rfl)
  · exact (getElem?_insert_eq t.assetData p.1 j _).trans (if_neg hj)

theorem CacheAgrees.dumpReissuedData (h : g.CacheAgrees) (hnamed : Register.Named (g.passets.mapReissuedAssetData[·]?))
    (record : CAssetCacheReissueAsset) : (g.dumpReissuedData record).CacheAgrees := by
  unfold AssetGlobals.dumpReissuedData
  cases hreissued : g.passets.mapReissuedAssetData[record.reissue.strName]? with
  | none => exact h
  | some asset =>
    refine LRUCache.Agrees.erase h fun j hj => ?_
    rw [← hnamed _ asset hreissued] at hj
    exact (getElem?_insert_eq g.assetData asset.strName j _).trans (if_neg hj)

theorem dumpReissuedData_foldl (hnamed : Register.Named (g.passets.mapReissuedAssetData[·]?)) (h : g.CacheAgrees)
    (records : List CAssetCacheReissueAsset) :
    (records.foldl dumpReissuedData g).CacheAgrees ∧ ∀ name,
      (records.foldl dumpReissuedData g).storedAsset name =
        if name ∈ records.map (·.reissue.strName) then g.passets.mapReissuedAssetData[name]?.or (g.storedAsset name)
        else g.storedAsset name := by
  induction records generalizing g with
  | nil => exact ⟨h, fun name => rfl⟩
  | cons record records ih =>
    have hpassets : (g.dumpReissuedData record).passets = g.passets := passets_dumpReissuedData record
    obtain ⟨hagrees, hstored⟩ := ih (by rw [hpassets]; exact hnamed) (h.dumpReissuedData hnamed record)
    refine ⟨hagrees, fun name => ?_⟩
    rw [List.foldl_cons, hstored, hpassets, storedAsset_dumpReissuedData hnamed, List.map_cons]
    by_cases hname : name = record.reissue.strName
    · simp [hname, ← Option.or_assoc]
    · simp [hname]

theorem assetTables_dumpCacheToDatabase (cfg : Config) :
    (g.dumpCacheToDatabase cfg).assetTables = (.empty, g.dumpAssets.passetsCache, g.dumpAssets.assetData) := by
  have hverifiers : g.dumpAssets.dumpVerifiers.assetTables = g.dumpAssets.assetTables := assetTables_dumpVerifiers
  have hindex : (if cfg.fAssetIndex then (g.dumpAssets.dumpVerifiers.dumpSwitches cfg).dumpAddressIndex
      else g.dumpAssets.dumpVerifiers.dumpSwitches cfg).assetTables = g.dumpAssets.dumpVerifiers.assetTables := by
    split_ifs
    · exact assetTables_dumpAddressIndex
    · rfl
  have hall := congrArg Prod.snd (hindex.trans hverifiers)
  exact congrArg (Prod.mk CAssetsCache.empty) hall

end AssetGlobals

theorem Kept.dumpAssets (h : Kept nameOf g) :
    g.dumpAssets.CacheAgrees ∧ ∀ name, g.dumpAssets.storedAsset name = g.register name := by
  have hnamed : Register.Named (g.passets.mapReissuedAssetData[·]?) := by
    intro name a ha
    have hreissued : g.passets.mapReissuedAssetData[name]? = some a := ha
    refine h.named name a ?_
    rw [h.growing.register_eq, hreissued]
    rfl
  have hpassets : g.dumpIssues.passets = g.passets :=
    treeMap_foldl_unchanged AssetGlobals.passets (f := AssetGlobals.dumpAddedAsset) (fun _ _ _ => rfl) _ _
  rw [AssetGlobals.dumpAssets_eq h.growing]
  obtain ⟨hagrees, hstored⟩ := AssetGlobals.dumpReissuedData_foldl (g := g.dumpIssues) (by rw [hpassets]; exact hnamed)
    (AssetGlobals.CacheAgrees.dumpIssues h.agrees) (g.passets.newReissue.toAdd.toList.map Prod.snd)
  refine ⟨hagrees, fun name => ?_⟩
  rw [hstored, AssetGlobals.storedAsset_dumpIssues, hpassets, h.growing.register_eq, h.stored_eq]
  split_ifs with hmem
  · rfl
  · -- the data of a reissued asset have a record, which is written
    cases hreissued : g.passets.mapReissuedAssetData[name]? with
    | none => rfl
    | some a =>
      obtain ⟨out, hout, hentry⟩ := h.growing.recorded name a hreissued
      obtain ⟨record, hrecord⟩ := Option.ne_none_iff_exists'.mp hentry
      refine absurd (List.mem_map.mpr ⟨record, List.mem_map.mpr ⟨(out, record), ?_, rfl⟩, ?_⟩) hmem
      · exact TreeMap.mem_toList_iff_getElem?_eq_some.mpr hrecord
      · exact (h.growing.records out record hrecord).trans hout

theorem Kept.dump (h : Kept nameOf g) (cfg : Config) :
    Kept nameOf (g.dumpCacheToDatabase cfg) ∧ (g.dumpCacheToDatabase cfg).register = g.register := by
  obtain ⟨hagrees, hstored⟩ := h.dumpAssets
  have htables := AssetGlobals.assetTables_dumpCacheToDatabase (g := g) cfg
  simp only [AssetGlobals.assetTables, Prod.mk.injEq] at htables
  obtain ⟨hpassets, hcache, hdata⟩ := htables
  have hagrees' : (g.dumpCacheToDatabase cfg).CacheAgrees := by
    rw [AssetGlobals.CacheAgrees, hcache, hdata]
    exact hagrees
  have hgrowing : Growing nameOf (g.dumpCacheToDatabase cfg).passets := by
    rw [hpassets]
    exact growing_empty
  have hregister : (g.dumpCacheToDatabase cfg).register = g.register := by
    funext name
    have hlook : (g.dumpCacheToDatabase cfg).stored name = (g.dumpCacheToDatabase cfg).assetData[name]? := hagrees'.or_store name
    rw [hgrowing.register_eq, hpassets, hlook, hdata, ← hstored]
    simp [CAssetsCache.empty, issuedAsset, AssetGlobals.storedAsset]
  refine ⟨⟨hagrees', hgrowing, ?_, ?_⟩, hregister⟩
  · rw [hpassets]
    intro name a ha
    simp [CAssetsCache.empty] at ha
  · rw [hregister]
    exact h.named

/-! ## Lookups -/

theorem agrees_refill {V : Type} {cache : LRUCache Bytes V} {table : TreeMap Bytes V}
    (h : cache.Agrees (table[·]?)) (name : Bytes) : (AssetGlobals.refill cache table name).Agrees (table[·]?) := by
  unfold AssetGlobals.refill
  split
  · exact h.promote name
  · split
    · next data hdata => exact h.put hdata fun _ _ => rfl
    · exact h

theorem Kept.touch (h : Kept nameOf g) (cfg : Config) (t : AssetGlobals.Touch) :
    Kept nameOf (g.touch cfg t) ∧ (g.touch cfg t).register = g.register := by
  have hagrees : (g.touch cfg t).passetsCache.Agrees (g.assetData[·]?) := by
    unfold AssetGlobals.touch
    cases t.asset with
    | none => exact h.agrees
    | some name => exact agrees_refill h.agrees name
  have hstored : ∀ name, (g.touch cfg t).stored name = g.stored name := fun name =>
    (hagrees.or_store name).trans (h.stored_eq name).symm
  have hgrowing : Growing nameOf (g.touch cfg t).passets := h.growing
  have hregister : (g.touch cfg t).register = g.register := by
    funext name
    rw [hgrowing.register_eq, h.growing.register_eq, hstored]
    rfl
  refine ⟨⟨hagrees, hgrowing, fun name a ha => ?_, by rw [hregister]; exact h.named⟩, hregister⟩
  rw [hstored]
  exact h.reissued name a ha

/-! ## Connecting at the node -/

theorem kept_of_connectTip {node node' : Node} {block : CBlock} (hkept : Kept nameOf node.assets)
    (hcoinbase : CoinbaseChecked node (.connect block)) (hids : ReissuesNamed cfg nameOf block)
    (h : node.connectTip cfg block = .ok node') :
    Kept nameOf node'.assets ∧ node'.assets.register = Register.after node.assets.register (block.changes cfg) ∧
      LawfulChanges cfg node.assets.register (block.changes cfg) := by
  obtain ⟨st, undoData, hblock, -, -, hassets, -⟩ := connectTip_ok h
  have hbare : block.CoinbaseBare :=
    hcoinbase.elim (fun hdeployed => coinbaseBare_of_checkBlock hdeployed (connectBlock_ok hblock).1) id
  have hconnecting : Connecting nameOf node.assets (block.changes cfg) st.cache ∧
      LawfulChanges (node.config cfg) node.assets.register (block.changes cfg) := by
    refine connecting_of_connectBlock hkept hbare ?_ hblock
    exact hids
  obtain ⟨hread, hlawful⟩ := hconnecting
  have hmerged := hread.kept hkept
  rw [hassets]
  exact ⟨⟨hmerged.agrees, hmerged.growing, hmerged.reissued, hmerged.named⟩, hread.register, hlawful.of_config⟩

end HempCore
