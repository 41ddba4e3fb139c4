import HempCore.Analysis.Conservation
import HempCore.Analysis.Creation

/-!
# Who may create assets

Which inputs an accepted issue or reissue has to spend. The parent token is looked for by the
classifier that the last outputs select, in the transfer outputs; conservation carries it over to
the inputs.
-/

set_option autoImplicit false

namespace HempCore

open Lib

variable (cfg : Config) {name : Bytes}

def issuesAsset (name : Bytes) (out : CTxOut) : Prop :=
  ∃ p, assetFromScript cfg out.scriptPubKey = some p ∧ p.1.strName = name

def reissuesAsset (name : Bytes) (out : CTxOut) : Prop :=
  ∃ p, reissueAssetFromScript cfg out.scriptPubKey = some p ∧ p.1.strName = name

/-- Some input spends a coin of the named asset. -/
def spendsAsset (inputs : CoinsView) (tx : CTransaction) (name : Bytes) : Prop :=
  ∃ txin ∈ tx.vin, ∃ data, inputAsset cfg inputs txin = some data ∧ data.assetName = name

/-- The asset whose spending authorises the creation of a name, if the name needs one. -/
def authorityOf (name : Bytes) : Option Bytes :=
  if isAssetNameOfType .SUB name || isAssetNameOfType .UNIQUE name ||
      isAssetNameOfType .MSGCHANNEL name then some (getParentName name ++ ownerTag)
  else if isAssetNameOfType .SUB_QUALIFIER name then some (getParentName name)
  else if isAssetNameOfType .RESTRICTED name then some (name.drop 1 ++ ownerTag)
  else none

/-- The owner token of a name; a restricted name `$T` is reissued with `T!`. -/
def reissueAuthorityOf (name : Bytes) : Bytes :=
  if isAssetNameOfType .RESTRICTED name then name.drop 1 ++ ownerTag else name ++ ownerTag

/-- Every asset a transaction creates is authorised by one of its inputs. -/
structure CreationAuthorised (inputs : CoinsView) (tx : CTransaction) : Prop where
  issue : ∀ out ∈ tx.vout, ∀ name, issuesAsset cfg name out →
    ∀ authority, authorityOf name = some authority → spendsAsset cfg inputs tx authority
  reissue : ∀ out ∈ tx.vout, ∀ name, reissuesAsset cfg name out →
    spendsAsset cfg inputs tx (reissueAuthorityOf name)

/-- The root format, a new asset after its own owner token, does not look for a parent token when
the name is a message channel or a sub-qualifier; here the transaction transfers it all the
same. -/
def RootFormatAuthorised (tx : CTransaction) : Prop :=
  tx.isNewAsset cfg = true → ∀ out, tx.lastOut = some out → ∀ name, issuesAsset cfg name out →
    (isAssetNameOfType .MSGCHANNEL name = true →
      tx.hasTransferOf cfg (getParentName name ++ ownerTag) = true) ∧
    (isAssetNameOfType .SUB_QUALIFIER name = true →
      tx.hasTransferOf cfg (getParentName name) = true)

variable {cfg} {tx : CTransaction} {inputs : CoinsView}

/-! ## Transfers and inputs -/

theorem hasTransferOf_iff : tx.hasTransferOf cfg name = true ↔ name ∈ (tx.transferredAssets cfg).map Prod.fst := by
  simp only [CTransaction.hasTransferOf, List.any_eq_true, isTransferOf, CTransaction.transferredAssets, List.map_map,
    List.mem_map, List.mem_filterMap, transferredAsset, Option.map_eq_some_iff]
  constructor
  · rintro ⟨out, hout, h⟩
    cases hp : transferAssetFromScript cfg out.scriptPubKey with
    | none => simp [hp] at h
    | some p =>
      simp only [hp, beq_iff_eq] at h
      exact ⟨p.1, ⟨out, hout, p, hp, rfl⟩, h⟩
  · rintro ⟨t, ⟨out, hout, p, hp, rfl⟩, h⟩
    exact ⟨out, hout, by simpa [hp, CAssetTransfer.entry] using h⟩

theorem spendsAsset_iff : spendsAsset cfg inputs tx name ↔ name ∈ (tx.inputAssets cfg inputs).map Prod.fst := by
  simp only [spendsAsset, CTransaction.inputAssets, List.map_map, List.mem_map, List.mem_filterMap]
  constructor
  · rintro ⟨txin, hmem, data, hdata, rfl⟩
    exact ⟨data, ⟨txin, hmem, hdata⟩, rfl⟩
  · rintro ⟨data, ⟨txin, hmem, hdata⟩, rfl⟩
    exact ⟨txin, hmem, data, hdata, rfl⟩

/-! ## Names and what authorises them -/

theorem authorityOf_of_unique (h : isAssetNameOfType .UNIQUE name = true) :
    authorityOf name = some (getParentName name ++ ownerTag) := by
  simp [authorityOf, h]

theorem authorityOf_of_msgChannel (h : isAssetNameOfType .MSGCHANNEL name = true) :
    authorityOf name = some (getParentName name ++ ownerTag) := by
  simp [authorityOf, h]

theorem authorityOf_of_qualifier (h : isAssetNameOfType .QUALIFIER name = true) : authorityOf name = none := by
  simp [authorityOf, isAssetNameOfType_eq_false h]

theorem authorityOf_of_subQualifier (h : isAssetNameOfType .SUB_QUALIFIER name = true) :
    authorityOf name = some (getParentName name) := by
  simp [authorityOf, h, isAssetNameOfType_eq_false h]

theorem authorityOf_of_restricted (h : isAssetNameOfType .RESTRICTED name = true) :
    authorityOf name = some (name.drop 1 ++ ownerTag) := by
  simp [authorityOf, h, isAssetNameOfType_eq_false h]

theorem reissueOwnerName_eq (name : Bytes) : CTransaction.reissueOwnerName name = reissueAuthorityOf name := by
  unfold CTransaction.reissueOwnerName reissueAuthorityOf
  by_cases h : isAssetNameOfType .RESTRICTED name = true
  · simp [h, assetTypeOf_of_isAssetNameOfType h]
  · have hne : assetTypeOf .INVALID name ≠ .RESTRICTED := by
      intro htype
      cases hs : (isAssetNameValidTyped name).assetType with
      | none => simp [assetTypeOf, hs] at htype
      | some t =>
        rw [assetTypeOf, hs, Option.getD_some] at htype
        exact h (isAssetNameOfType_of_assetType (by simp) (htype ▸ hs))
    simp [h, hne]

/-! ## Outputs that create -/

theorem mem_issues {issues reissues owners : List CTxOut} {out : CTxOut}
    (hc : Creates tx issues reissues owners) (hout : out ∈ tx.vout) (h : issuesAsset cfg name out) : out ∈ issues := by
  obtain ⟨p, hp, -⟩ := h
  rw [← hc.issues_eq]
  exact List.mem_filter.mpr ⟨hout, isScriptNewAsset_of_asset hp⟩

theorem mem_reissues {issues reissues owners : List CTxOut} {out : CTxOut}
    (hc : Creates tx issues reissues owners) (hout : out ∈ tx.vout)
    (h : reissuesAsset cfg name out) : out ∈ reissues := by
  obtain ⟨p, hp, -⟩ := h
  rw [← hc.reissues_eq]
  exact List.mem_filter.mpr ⟨hout, isScriptReissueAsset_of_reissue hp⟩

theorem name_of_issues {out : CTxOut} {asset : CNewAsset} {address : Bytes}
    (hparse : assetFromScript cfg out.scriptPubKey = some (asset, address))
    (h : issuesAsset cfg name out) : asset.strName = name := by
  obtain ⟨p, hp, rfl⟩ := h
  rw [hparse, Option.some.injEq] at hp
  rw [← hp]

/-- In the root format the parent token is transferred for a sub-asset, and for the other names
exactly when the transaction does so of its own accord. -/
theorem transfer_of_rootFormat {last : CTxOut} {asset : CNewAsset} {address authority : Bytes}
    (hrec : tx.isNewAsset cfg = true) (hlast : tx.lastOut = some last)
    (hparse : assetFromScript cfg last.scriptPubKey = some (asset, address))
    (hparent : assetTypeOf cfg.uninit asset.strName = .SUB →
      tx.hasTransferOf cfg (getParentName asset.strName ++ ownerTag) = true)
    (hroot : RootFormatAuthorised cfg tx) (h : authorityOf asset.strName = some authority) :
    tx.hasTransferOf cfg authority = true := by
  obtain ⟨hmsg, hsub⟩ := hroot hrec last hlast asset.strName ⟨_, hparse, rfl⟩
  have hother : ∀ t ∈ [AssetType.UNIQUE, .RESTRICTED], isAssetNameOfType t asset.strName = false := by
    simp only [CTransaction.isNewAsset, CTransaction.outSatisfies, hlast, isScriptNewUniqueAsset,
      isScriptNewRestrictedAsset, isScriptNewAssetOfType, hparse, Bool.and_eq_true,
      Bool.not_eq_true', Bool.or_eq_false_iff] at hrec
    simpa using hrec.2
  simp only [List.mem_cons, List.not_mem_nil, or_false, forall_eq_or_imp, forall_eq] at hother
  simp only [authorityOf, hother.1, hother.2, Bool.or_false, Bool.or_eq_true, Bool.false_eq_true, if_false] at h
  split_ifs at h with h₁ h₂
  · cases h
    rcases h₁ with h₁ | h₁
    · exact hparent (assetTypeOf_of_isAssetNameOfType h₁)
    · exact hmsg h₁
  · cases h
    exact hsub h₂

/-! ## Authority -/

/-- **Creation authority.** For every transaction that both checkers accept, over any coins and any
asset state: each asset it creates is authorised by an input exactly when the root format, if it
uses it, was not used for a message channel or a sub-qualifier without a transfer of the parent
token. -/
theorem creationAuthorised_iff (cfg : Config) (tx : CTransaction) (inputs : CoinsView)
    (cache : Option AssetView) (fCheckDuplicateInputs fMempoolCheck fBlockCheck fCheckMempool : Bool)
    (pool : MempoolTracking) (fRunningUnitTests : Bool) (pairs : List (Bytes × Uint256))
    (htx : checkTransaction cfg tx fCheckDuplicateInputs fMempoolCheck fBlockCheck = .ok ())
    (hassets : checkTxAssets cfg tx inputs cache fCheckMempool pool fRunningUnitTests = .ok pairs) :
    CreationAuthorised cfg inputs tx ↔ RootFormatAuthorised cfg tx := by
  have hspends : ∀ {name : Bytes},
      spendsAsset cfg inputs tx name ↔ tx.hasTransferOf cfg name = true := by
    intro name
    rw [spendsAsset_iff, hasTransferOf_iff, mem_inputAssets_iff hassets]
  constructor
  · intro hauth hrec out hout name hissues
    have hmem : out ∈ tx.vout := List.mem_of_getLast? hout
    exact ⟨fun h => hspends.mp (hauth.issue out hmem name hissues _ (authorityOf_of_msgChannel h)),
      fun h => hspends.mp (hauth.issue out hmem name hissues _ (authorityOf_of_subQualifier h))⟩
  · intro hroot
    -- what is left to show of a kind with one issue: the transfer its name asks for
    have hsingle : ∀ {last : CTxOut} {owners : List CTxOut} {asset : CNewAsset} {address : Bytes},
        Creates tx [last] [] owners →
        assetFromScript cfg last.scriptPubKey = some (asset, address) →
        (∀ authority, authorityOf asset.strName = some authority →
          tx.hasTransferOf cfg authority = true) → CreationAuthorised cfg inputs tx := by
      intro last owners asset address hc hparse htransfer
      refine ⟨fun out hout name hissues authority hauth => hspends.mpr (htransfer authority ?_),
        fun out hout name hreissues => absurd (mem_reissues hc hout hreissues) (by simp)⟩
      cases List.mem_singleton.mp (mem_issues hc hout hissues)
      rwa [name_of_issues hparse hissues]
    cases creation_of_checkTransaction htx with
    | issue hrec hc hlast hparse _ _ hparent =>
      exact hsingle hc hparse fun authority h =>
        transfer_of_rootFormat hrec hlast hparse hparent hroot h
    | reissue hc hparse _ hparent =>
      refine ⟨fun out hout name hissues => absurd (mem_issues hc hout hissues) (by simp),
        fun out hout name hreissues => hspends.mpr ?_⟩
      cases List.mem_singleton.mp (mem_reissues hc hout hreissues)
      obtain ⟨p, hp, rfl⟩ := hreissues
      rw [hparse, Option.some.injEq] at hp
      rwa [← reissueOwnerName_eq, ← hp]
    | unique hc heach _ hparent =>
      refine ⟨fun out hout name hissues authority hauth => hspends.mpr ?_,
        fun out hout name hreissues => absurd (mem_reissues hc hout hreissues) (by simp)⟩
      obtain ⟨asset, address, hparse, htyped, -, hname⟩ := heach out (mem_issues hc hout hissues)
      rw [← name_of_issues hparse hissues, authorityOf_of_unique htyped, hname] at hauth
      cases hauth
      exact hparent
    | msgChannel hc hparse htyped _ hparent =>
      refine hsingle hc hparse fun authority h => ?_
      rw [authorityOf_of_msgChannel htyped] at h
      cases h
      exact hparent
    | qualifier hc hparse htyped _ hparent =>
      refine hsingle hc hparse fun authority h => ?_
      rcases htyped with htyped | htyped
      · rw [authorityOf_of_qualifier htyped] at h
        cases h
      · rw [authorityOf_of_subQualifier htyped] at h
        cases h
        exact hparent (assetTypeOf_of_isAssetNameOfType htyped)
    | restricted hc hparse htyped _ hparent =>
      refine hsingle hc hparse fun authority h => ?_
      rw [authorityOf_of_restricted htyped] at h
      cases h
      exact hparent
    | transfers hc =>
      exact ⟨fun out hout name hissues => absurd (mem_issues hc hout hissues) (by simp),
        fun out hout name hreissues => absurd (mem_reissues hc hout hreissues) (by simp)⟩

/-! ## Two message channels

`ABC~CH` is created with the owner token of `ABC`, and again in the root format by somebody who
holds no asset at all. -/

def channelAsset : CNewAsset := ⟨str "ABC~CH", COIN, 0, 0, 0, []⟩

/-- Alice holds the owner token of `ABC`, Bob coins alone. -/
def channelCoins : CoinsView := fun outpoint =>
  if outpoint = ⟨1, 0⟩ then some ⟨transferOut aliceKeyID (str "ABC!") COIN, false, 1⟩
  else if outpoint = ⟨2, 0⟩ then some ⟨paymentOut bobKeyID COIN, false, 1⟩
  else none

def channelIssue : CTransaction where
  vin := [⟨⟨1, 0⟩, []⟩, ⟨⟨2, 0⟩, []⟩]
  vout := [paymentOut msgChannelBurnKeyID 5000000, transferOut aliceKeyID (str "ABC!") COIN,
    issueOut aliceKeyID channelAsset]
  hash := 3

/-- The same channel from Bob's coins alone, with an owner token before it. -/
def channelRootIssue : CTransaction where
  vin := [⟨⟨2, 0⟩, []⟩]
  vout := [paymentOut msgChannelBurnKeyID 5000000, ownerOut bobKeyID channelAsset,
    issueOut bobKeyID channelAsset]
  hash := 3

theorem channelIssue_authorised :
    checkTransaction mainAll channelIssue true false true = .ok () ∧
      checkTxAssets mainAll channelIssue channelCoins (some abcView) false .empty false
        = .ok [] ∧
      CreationAuthorised mainAll channelCoins channelIssue := by
  have htx : checkTransaction mainAll channelIssue true false true = .ok () := by
    decide +kernel
  have hassets : checkTxAssets mainAll channelIssue channelCoins (some abcView) false
      .empty false = .ok [] := by decide +kernel
  have hformat : channelIssue.isNewAsset mainAll = false := by decide +kernel
  refine ⟨htx, hassets, (creationAuthorised_iff _ _ _ _ _ _ _ _ _ _ _ htx hassets).mpr ?_⟩
  intro h
  rw [hformat] at h
  cases h

theorem channelRootIssue_unauthorised :
    channelRootIssue.isCoinBase = false ∧
      checkTransaction mainAll channelRootIssue true false true = .ok () ∧
      checkTxAssets mainAll channelRootIssue channelCoins (some abcView) false .empty false
        = .ok [] ∧
      ¬ CreationAuthorised mainAll channelCoins channelRootIssue := by
  refine ⟨by decide, by decide +kernel, by decide +kernel, fun h => ?_⟩
  have hissues : issuesAsset mainAll (str "ABC~CH") (issueOut bobKeyID channelAsset) :=
    ⟨(channelAsset, scriptAddressString mainAll (scriptForKeyID bobKeyID)),
      by decide +kernel, rfl⟩
  have hauthority : authorityOf (str "ABC~CH") = some (str "ABC!") := by decide +kernel
  obtain ⟨txin, hmem, data, hdata, -⟩ :=
    h.issue _ (by simp [channelRootIssue]) _ hissues _ hauthority
  -- the only input carries no asset
  have hnone : inputAsset mainAll channelCoins ⟨⟨2, 0⟩, []⟩ = none := by decide +kernel
  rw [List.mem_singleton.mp hmem, hnone] at hdata
  cases hdata

end HempCore
