import HempCore.Analysis.CreationAuthority
import HempCore.Model.Chain

/-!
# Who may tag and freeze

A command is authorised by a token, and the spending of the token is never looked at:
`CheckTransaction` asks for a transfer of the token among the outputs, and conservation carries the
transfer over to the inputs. A verifier string belongs to the one restricted asset that the
transaction issues or reissues.
-/

set_option autoImplicit false

namespace HempCore

open Lib Std

variable (cfg : Config) {out : CTxOut} {fMempoolCheck fBlockCheck : Bool} {scan : OutputScan}

def createsRestricted (out : CTxOut) : Bool :=
  (assetFromScript cfg out.scriptPubKey).any (fun p => isAssetNameOfType .RESTRICTED p.1.strName) ||
    (reissueAssetFromScript cfg out.scriptPubKey).any fun p =>
      isAssetNameOfType .RESTRICTED p.1.strName

/-- Every command of a transaction is authorised by one of its inputs, and a verifier string by the
one restricted asset that is issued or reissued. -/
structure CommandsAuthorised (inputs : CoinsView) (tx : CTransaction) : Prop where
  /-- An address command is for a qualifier or for a restricted asset. -/
  address : ∀ out ∈ tx.vout, isNullAssetTxDataScript out.scriptPubKey = true →
    ∃ data address, assetNullDataFromScript cfg out.scriptPubKey = some (data, address) ∧
      (isAssetNameAQualifier data.asset_name false = true ∨
        isAssetNameAnRestricted data.asset_name = true)
  tag : ∀ out ∈ tx.vout, ∀ data address,
    assetNullDataFromScript cfg out.scriptPubKey = some (data, address) →
    isAssetNameAQualifier data.asset_name false = true → spendsAsset cfg inputs tx data.asset_name
  freeze : ∀ out ∈ tx.vout, ∀ data address,
    assetNullDataFromScript cfg out.scriptPubKey = some (data, address) →
    ∀ name, data.asset_name = restrictedChar :: name → spendsAsset cfg inputs tx (name ++ ownerTag)
  globalFreeze : ∀ out ∈ tx.vout, ∀ data, globalAssetNullDataFromScript out.scriptPubKey = some data →
    ∀ name, data.asset_name = restrictedChar :: name → spendsAsset cfg inputs tx (name ++ ownerTag)
  verifier : ∀ out ∈ tx.vout, isNullAssetVerifierTxDataScript out.scriptPubKey = true →
    tx.vout.countP (createsRestricted cfg) = 1

variable {cfg} {tx : CTransaction} {inputs : CoinsView}

/-! ## The scan of the outputs -/

/-- What the loop over the outputs has collected of the part it has read. -/
structure Scanned (cfg : Config) (pre : List CTxOut) (st : OutputScan) : Prop where
  transfers : ∀ name ∈ st.setAssetTransferNames, ∃ out ∈ pre, isTransferOf cfg name out = true
  valid : ∀ out ∈ pre, ∀ p, transferAssetFromScript cfg out.scriptPubKey = some p →
    isAssetNameValid p.1.strName = true
  pairs : ∀ out ∈ pre, ∀ data address,
    assetNullDataFromScript cfg out.scriptPubKey = some (data, address) →
    (data.asset_name, address) ∈ st.nullDataPairs
  globals : ∀ out ∈ pre, ∀ data, globalAssetNullDataFromScript out.scriptPubKey = some data →
    data.asset_name ∈ st.setNullGlobalAssetChanges
  verifier : ∀ out ∈ pre, isNullAssetVerifierTxDataScript out.scriptPubKey = true →
    st.fContainsNullAssetVerifierTx = true

/-- The null data of an output are recorded, and nothing that was recorded is lost. -/
theorem checkOutputNullAsset_ok {st st' : OutputScan} (h : checkOutputNullAsset cfg st out = .ok st') :
    st'.setAssetTransferNames = st.setAssetTransferNames ∧ (∀ pair ∈ st.nullDataPairs, pair ∈ st'.nullDataPairs) ∧
      (∀ name ∈ st.setNullGlobalAssetChanges, name ∈ st'.setNullGlobalAssetChanges) ∧
      (st.fContainsNullAssetVerifierTx = true → st'.fContainsNullAssetVerifierTx = true) ∧
      (∀ data address, assetNullDataFromScript cfg out.scriptPubKey = some (data, address) →
        (data.asset_name, address) ∈ st'.nullDataPairs) ∧
      (∀ data, globalAssetNullDataFromScript out.scriptPubKey = some data → data.asset_name ∈ st'.setNullGlobalAssetChanges) ∧
      (isNullAssetVerifierTxDataScript out.scriptPubKey = true → st'.fContainsNullAssetVerifierTx = true) := by
  have hreserved : (0x14 : UInt8) ≠ opReserved := by decide
  unfold checkOutputNullAsset at h
  simp only at h
  split_ifs at h with hdata hglobal hverifier
  · simp only [bind_eq_ok, exists_punit, demand_eq_ok, require_eq_ok, orElseError_eq_ok, pure_eq_ok, Prod.exists] at h
    obtain ⟨data, address, hparse, -, -, rfl⟩ := h
    have hkind := hdata
    simp only [isNullAssetTxDataScript, Bool.and_eq_true, beq_iff_eq] at hkind
    refine ⟨rfl, fun pair hpair => ?_, fun _ hname => hname, id, fun data' address' hparse' => ?_,
      fun data' hparse' => ?_, fun hver => ?_⟩
    · exact TreeSet.mem_insert.mpr (.inr hpair)
    · rw [hparse] at hparse'
      cases hparse'
      exact TreeSet.mem_insert_self
    · simp [globalAssetNullDataFromScript, isNullGlobalRestrictionAssetTxDataScript, hkind.2, hreserved] at hparse'
    · simp [isNullAssetVerifierTxDataScript, hkind.2, hreserved] at hver
  · simp only [bind_eq_ok, exists_punit, demand_eq_ok, require_eq_ok, orElseError_eq_ok, pure_eq_ok] at h
    obtain ⟨data, hparse, -, -, rfl⟩ := h
    have hkind := hglobal
    simp only [isNullGlobalRestrictionAssetTxDataScript, Bool.and_eq_true, beq_iff_eq] at hkind
    refine ⟨rfl, fun _ hpair => hpair, fun name hname => ?_, id, fun data' address' hparse' => ?_,
      fun data' hparse' => ?_, fun hver => ?_⟩
    · exact TreeSet.mem_insert.mpr (.inr hname)
    · simp [assetNullDataFromScript, hdata] at hparse'
    · rw [hparse] at hparse'
      cases hparse'
      exact TreeSet.mem_insert_self
    · simp [isNullAssetVerifierTxDataScript, hkind.2] at hver
  · simp only [bind_eq_ok, exists_punit, require_eq_ok, orElseError_eq_ok, pure_eq_ok] at h
    obtain ⟨-, -, rfl⟩ := h
    refine ⟨rfl, fun _ hpair => hpair, fun _ hname => hname, fun _ => rfl,
      fun data' address' hparse' => ?_, fun data' hparse' => ?_, fun _ => rfl⟩
    · simp [assetNullDataFromScript, hdata] at hparse'
    · simp [globalAssetNullDataFromScript, hglobal] at hparse'
  · rw [pure_eq_ok] at h
    subst h
    refine ⟨rfl, fun _ hpair => hpair, fun _ hname => hname, id,
      fun data' address' hparse' => ?_, fun data' hparse' => ?_, fun hver => absurd hver hverifier⟩
    · simp [assetNullDataFromScript, hdata] at hparse'
    · simp [globalAssetNullDataFromScript, hglobal] at hparse'

theorem checkOutputAsset_ok {st st' : OutputScan}
    (h : checkOutputAsset cfg fMempoolCheck fBlockCheck st out = .ok st') :
    st'.nullDataPairs = st.nullDataPairs ∧ st'.setNullGlobalAssetChanges = st.setNullGlobalAssetChanges ∧
      st'.fContainsNullAssetVerifierTx = st.fContainsNullAssetVerifierTx ∧
      (∀ name ∈ st'.setAssetTransferNames, name ∈ st.setAssetTransferNames ∨ isTransferOf cfg name out = true) ∧
      (∀ p, transferAssetFromScript cfg out.scriptPubKey = some p → isAssetNameValid p.1.strName = true) := by
  have hsame : ∀ {st₁ st₂ : OutputScan}, st₁ = st₂ →
      (∀ start, isAssetScript out.scriptPubKey ≠ some ⟨.TX_TRANSFER_ASSET, false, start⟩) →
      st₂.nullDataPairs = st₁.nullDataPairs ∧ st₂.setNullGlobalAssetChanges = st₁.setNullGlobalAssetChanges ∧
        st₂.fContainsNullAssetVerifierTx = st₁.fContainsNullAssetVerifierTx ∧
        (∀ name ∈ st₂.setAssetTransferNames, name ∈ st₁.setAssetTransferNames ∨ isTransferOf cfg name out = true) ∧
        (∀ p, transferAssetFromScript cfg out.scriptPubKey = some p → isAssetNameValid p.1.strName = true) := by
    rintro st₁ st₂ rfl hnot
    refine ⟨rfl, rfl, rfl, fun _ hname => .inl hname, fun p hp => ?_⟩
    obtain ⟨start, hstart⟩ := isAssetScript_of_transfer hp
    exact absurd hstart (hnot start)
  unfold checkOutputAsset at h
  split at h
  · next hnone => exact hsame (pure_eq_ok.mp h) (by simp [hnone])
  · next a hsome =>
    split at h
    · simp only [checkTransferOutput, bind_eq_ok, exists_punit, demand_eq_ok, require_eq_ok, pure_eq_ok, Prod.exists] at h
      obtain ⟨transfer, address, hparse, hvalid, -, -, -, -, rfl⟩ := h
      refine ⟨rfl, rfl, rfl, fun name hname => ?_, fun p hp => ?_⟩
      · rcases List.mem_cons.mp hname with rfl | hname
        · exact .inr (by simp [isTransferOf, hparse])
        · exact .inl hname
      · rw [hparse] at hp
        cases hp
        exact hvalid
    · next htype =>
      simp only [bind_eq_ok, exists_punit, require_eq_ok, pure_eq_ok] at h
      refine hsame h.2 fun start hstart => ?_
      rw [hsome] at hstart
      cases hstart
      cases htype
    · next htype =>
      simp only [bind_eq_ok, exists_punit, require_eq_ok, pure_eq_ok] at h
      refine hsame h.2.2 fun start hstart => ?_
      rw [hsome] at hstart
      cases hstart
      cases htype
    · cases h

theorem Scanned.checkOutput {pre : List CTxOut} {st st' : OutputScan}
    (hst : Scanned cfg pre st) (hstep : HempCore.checkOutput cfg fMempoolCheck fBlockCheck st out = .ok st') :
    Scanned cfg (pre ++ [out]) st' := by
  simp only [HempCore.checkOutput, bind_eq_ok] at hstep
  obtain ⟨st₁, hvalue, st₂, hnull, hasset⟩ := hstep
  simp only [checkOutputValue, bind_eq_ok, exists_punit, require_eq_ok, pure_eq_ok] at hvalue
  obtain ⟨-, -, -, rfl⟩ := hvalue
  obtain ⟨hnames, hpairs, hglobals, hverifier, hpair, hglobal, hver⟩ := checkOutputNullAsset_ok hnull
  obtain ⟨hpairs', hglobals', hverifier', hnames', hvalid⟩ := checkOutputAsset_ok hasset
  constructor
  · intro name hname
    rcases hnames' name hname with hold | hnew
    · rw [hnames] at hold
      obtain ⟨o, ho, htransfer⟩ := hst.transfers name hold
      exact ⟨o, List.mem_append_left _ ho, htransfer⟩
    · exact ⟨out, by simp, hnew⟩
  · intro o ho
    rcases List.mem_append.mp ho with ho | ho
    · exact hst.valid o ho
    · rw [List.mem_singleton.mp ho]
      exact hvalid
  · intro o ho data address hparse
    rw [hpairs']
    rcases List.mem_append.mp ho with ho | ho
    · exact hpairs _ (hst.pairs o ho data address hparse)
    · exact hpair data address (List.mem_singleton.mp ho ▸ hparse)
  · intro o ho data hparse
    rw [hglobals']
    rcases List.mem_append.mp ho with ho | ho
    · exact hglobals _ (hst.globals o ho data hparse)
    · exact hglobal data (List.mem_singleton.mp ho ▸ hparse)
  · intro o ho hscript
    rw [hverifier']
    rcases List.mem_append.mp ho with ho | ho
    · exact hverifier (hst.verifier o ho hscript)
    · exact hver (List.mem_singleton.mp ho ▸ hscript)

theorem scanned_start : Scanned cfg [] OutputScan.start := ⟨by simp [OutputScan.start], by simp, by simp, by simp, by simp⟩

theorem scanned_of_checkOutputs
    (h : tx.vout.foldlM (checkOutput cfg fMempoolCheck fBlockCheck) OutputScan.start = .ok scan) :
    Scanned cfg tx.vout scan :=
  foldlM_prefix_invariant (Scanned cfg) (fun _ _ _ _ _ hst hstep => hst.checkOutput hstep) [] scanned_start h

theorem hasTransferOf_of_scanned (hscan : Scanned cfg tx.vout scan) {name : Bytes}
    (h : name ∈ scan.setAssetTransferNames) : tx.hasTransferOf cfg name = true := by
  obtain ⟨out, hout, htransfer⟩ := hscan.transfers name h
  exact List.any_eq_true.mpr ⟨out, hout, htransfer⟩

/-! ## Commands -/

theorem transfer_of_checkNullDataOutputs (hscan : Scanned cfg tx.vout scan)
    (h : checkNullDataOutputs cfg tx scan = .ok ()) :
    (∀ name address, (name, address) ∈ scan.nullDataPairs →
      if byteAt name 0 = restrictedChar then tx.hasTransferOf cfg (name.drop 1 ++ ownerTag) = true
      else tx.hasTransferOf cfg name = true) ∧
    ∀ name ∈ scan.setNullGlobalAssetChanges, tx.hasTransferOf cfg (name.drop 1 ++ ownerTag) = true := by
  simp only [checkNullDataOutputs, bind_eq_ok, exists_punit, require_eq_ok, List.forM_eq_forM,
    forM_eq_ok, TreeSet.mem_toList] at h
  obtain ⟨-, hpairs, hglobals⟩ := h
  refine ⟨fun name address hmem => ?_, fun name hmem => ?_⟩
  · have hauthority := hpairs (name, address) hmem
    unfold checkNullDataAuthority at hauthority
    split_ifs at hauthority ⊢ with hfirst
    · rw [require_eq_ok, List.contains_iff_mem] at hauthority
      exact hasTransferOf_of_scanned hscan hauthority
    · rw [require_eq_ok, List.contains_iff_mem] at hauthority
      exact hasTransferOf_of_scanned hscan hauthority
  · have hauthority := hglobals name hmem
    simp only [checkGlobalAuthority, bind_eq_ok, exists_punit, require_eq_ok, List.contains_iff_mem] at hauthority
    exact hasTransferOf_of_scanned hscan hauthority.2

theorem byteAt_of_qualifier {name : Bytes} (h : isAssetNameAQualifier name false = true) : byteAt name 0 ≠ restrictedChar := by
  have hfirst : byteAt name 0 = qualifierChar := by
    simp only [isAssetNameAQualifier, Bool.and_eq_true, Bool.or_eq_true, Bool.not_false, Bool.true_and] at h
    cases name with
    | nil => simp [qualifierIndicator, subQualifierIndicator, ledNameCharacters] at h
    | cons b s =>
      rcases h.2 with h | h
      · simp only [qualifierIndicator, ledNameCharacters, Bool.and_eq_true, beq_iff_eq] at h
        exact h.1
      · simp only [subQualifierIndicator] at h
        split at h
        · simp only [Bool.and_eq_true, beq_iff_eq] at h
          exact h.1.1.1
        · cases h
  rw [hfirst]
  decide

/-- With a cache, an address command is checked against the kinds of names it may have. -/
theorem address_of_checkTxAssets {cache : AssetView} {fCheckMempool fRunningUnitTests : Bool}
    {pool : MempoolTracking} {pairs : List (Bytes × Uint256)}
    (h : checkTxAssets cfg tx inputs (some cache) fCheckMempool pool fRunningUnitTests = .ok pairs)
    (hout : out ∈ tx.vout) (hdata : isNullAssetTxDataScript out.scriptPubKey = true) :
    ∃ data address, assetNullDataFromScript cfg out.scriptPubKey = some (data, address) ∧
      (isAssetNameAQualifier data.asset_name false = true ∨ isAssetNameAnRestricted data.asset_name = true) := by
  obtain ⟨-, totalInputs, st, -, houtputs, -⟩ := checkTxAssets_ok h
  obtain ⟨t, t', hstep⟩ := foldlM_step_of_mem hout houtputs
  have hcontext := (checkAssetOutput_ok hstep).1
  simp only [checkOutputContext, checkNullAssetOutput, isNullAsset, hdata, Bool.true_or, if_true,
    bind_eq_ok, exists_punit, require_eq_ok, orElseError_eq_ok, contextualCheckNullAssetTxOut,
    demand_eq_ok, Prod.exists] at hcontext
  obtain ⟨-, -, data, address, hparse, hkind⟩ := hcontext
  refine ⟨data, address, hparse, ?_⟩
  split_ifs at hkind with hqualifier hrestricted
  · exact .inl hqualifier
  · exact .inr hrestricted

/-! ## Verifier strings -/

theorem script_of_createsRestricted (h : createsRestricted cfg out = true) :
    isScriptNewAsset out.scriptPubKey = true ∨ isScriptReissueAsset out.scriptPubKey = true := by
  simp only [createsRestricted, Bool.or_eq_true, Option.any_eq_true] at h
  rcases h with ⟨p, hp, -⟩ | ⟨p, hp, -⟩
  · exact .inl (isScriptNewAsset_of_asset hp)
  · exact .inr (isScriptReissueAsset_of_reissue hp)

theorem countP_createsRestricted {p : CTxOut → Bool} {last : CTxOut} (hfilter : tx.vout.filter p = [last])
    (hsub : ∀ out ∈ tx.vout, createsRestricted cfg out = true → p out = true)
    (hlast : createsRestricted cfg last = true) : tx.vout.countP (createsRestricted cfg) = 1 := by
  have heq : tx.vout.filter (createsRestricted cfg) = (tx.vout.filter p).filter (createsRestricted cfg) := by
    rw [List.filter_filter]
    refine List.filter_congr fun out hout => ?_
    cases hcreates : createsRestricted cfg out with
    | false => rfl
    | true => rw [hsub out hout hcreates, Bool.and_self]
  rw [List.countP_eq_length_filter, heq, hfilter]
  simp [hlast]

/-- The name of a reissue is short enough to be typed, since its owner token is transferred. -/
theorem restricted_of_reissue {name : Bytes} (hscan : Scanned cfg tx.vout scan)
    (howner : tx.hasTransferOf cfg (CTransaction.reissueOwnerName name) = true)
    (htype : assetTypeOf cfg.uninit name = .RESTRICTED) : isAssetNameOfType .RESTRICTED name = true := by
  simp only [CTransaction.hasTransferOf, List.any_eq_true, isTransferOf] at howner
  obtain ⟨out, hout, hname⟩ := howner
  split at hname
  · next transfer address hparse =>
    rw [beq_iff_eq] at hname
    have hvalid := hscan.valid out hout _ hparse
    have hlength := length_le_of_isAssetNameValid hvalid
    simp only at hlength
    rw [hname, CTransaction.reissueOwnerName, List.length_append] at hlength
    have hshort : name.length ≤ 40 := by
      split_ifs at hlength <;> simp only [List.length_drop, maxNameLength, ownerTag, List.length_singleton] at hlength <;> omega
    exact isAssetNameOfType_of_assetTypeOf (by simp) hshort htype
  · cases hname

theorem createsRestricted_of_checkKind {flags : RestrictedFlags}
    (hscan : Scanned cfg tx.vout scan) (h : checkKind cfg tx = .ok flags)
    (hflags : flags.fContainsRestrictedAssetReissue = true ∨ flags.fContainsNewRestrictedAsset = true) :
    tx.vout.countP (createsRestricted cfg) = 1 := by
  unfold checkKind at h
  split_ifs at h <;> simp only [bind_eq_ok, exists_punit, pure_eq_ok] at h
  · obtain ⟨-, rfl⟩ := h
    simp at hflags
  · obtain ⟨restricted, hreissue, rfl⟩ := h
    obtain ⟨last, reissue, address, hcreates, hparse, -, howner, htype⟩ := checkReissue_ok hreissue
    have hrestricted := restricted_of_reissue hscan howner (htype (by simpa using hflags))
    refine countP_createsRestricted hcreates.reissues_eq (fun out hout hout' => ?_) ?_
    · refine (script_of_createsRestricted hout').resolve_left fun hnew => ?_
      have hmem : out ∈ tx.vout.filter fun out => isScriptNewAsset out.scriptPubKey := List.mem_filter.mpr ⟨hout, hnew⟩
      rw [hcreates.issues_eq] at hmem
      cases hmem
    · simp [createsRestricted, hparse, hrestricted]
  · obtain ⟨-, rfl⟩ := h
    simp at hflags
  · obtain ⟨-, rfl⟩ := h
    simp at hflags
  · obtain ⟨-, rfl⟩ := h
    simp at hflags
  · obtain ⟨hissue, rfl⟩ := h
    obtain ⟨last, asset, address, hcreates, hparse, hrestricted, -⟩ := checkIssueRestricted_ok hissue
    refine countP_createsRestricted hcreates.issues_eq (fun out hout hout' => ?_) ?_
    · refine (script_of_createsRestricted hout').resolve_right fun hre => ?_
      have hmem : out ∈ tx.vout.filter fun out => isScriptReissueAsset out.scriptPubKey := List.mem_filter.mpr ⟨hout, hre⟩
      rw [hcreates.reissues_eq] at hmem
      cases hmem
    · simp [createsRestricted, hparse, hrestricted]
  · obtain ⟨-, rfl⟩ := h
    simp at hflags

/-! ## Authority -/

/-- Every transaction that both checkers accept, over any coins and any asset state, has its tags,
freezes and global freezes authorised by its inputs, and its verifier string by the one restricted
asset it issues or reissues. -/
theorem commandsAuthorised_of_accepted (cfg : Config) (tx : CTransaction) (inputs : CoinsView)
    (cache : AssetView) (fCheckDuplicateInputs fMempoolCheck fBlockCheck fCheckMempool : Bool)
    (pool : MempoolTracking) (fRunningUnitTests : Bool) (pairs : List (Bytes × Uint256))
    (htx : checkTransaction cfg tx fCheckDuplicateInputs fMempoolCheck fBlockCheck = .ok ())
    (hassets : checkTxAssets cfg tx inputs (some cache) fCheckMempool pool fRunningUnitTests =
      .ok pairs) : CommandsAuthorised cfg inputs tx := by
  simp only [checkTransaction, bind_eq_ok, exists_punit, require_eq_ok] at htx
  obtain ⟨-, -, -, scan, hscan, hnull, -, flags, hkind, hverifier, -⟩ := htx
  have hscanned := scanned_of_checkOutputs hscan
  obtain ⟨hpairs, hglobals⟩ := transfer_of_checkNullDataOutputs hscanned hnull
  have hspends : ∀ {name : Bytes}, tx.hasTransferOf cfg name = true → spendsAsset cfg inputs tx name := by
    intro name h
    rw [spendsAsset_iff, mem_inputAssets_iff hassets, ← hasTransferOf_iff]
    exact h
  constructor
  · intro out hout hdata
    exact address_of_checkTxAssets hassets hout hdata
  · intro out hout data address hparse hqualifier
    have htransfer := hpairs _ _ (hscanned.pairs out hout data address hparse)
    rw [if_neg (byteAt_of_qualifier hqualifier)] at htransfer
    exact hspends htransfer
  · intro out hout data address hparse name hname
    have htransfer := hpairs _ _ (hscanned.pairs out hout data address hparse)
    rw [hname] at htransfer
    exact hspends htransfer
  · intro out hout data hparse name hname
    have htransfer := hglobals _ (hscanned.globals out hout data hparse)
    rw [hname] at htransfer
    exact hspends htransfer
  · intro out hout hscript
    refine createsRestricted_of_checkKind hscanned hkind ?_
    simpa [hscanned.verifier out hout hscript] using hverifier

/-! ## A transaction with commands of every kind

Alice tags Bob, freezes `$ABC` at the address of Bob and everywhere, and reissues `$ABC` with a
verifier string. -/

def commandCoins : CoinsView := fun outpoint =>
  if outpoint = ⟨1, 0⟩ then some ⟨transferOut aliceKeyID (str "ABC!") COIN, false, 1⟩
  else if outpoint = ⟨2, 0⟩ then some ⟨transferOut aliceKeyID (str "#TAG") COIN, false, 1⟩
  else none

def commandView : AssetView where
  checkIfAssetExists name := name == str "$ABC" || name == str "#TAG"
  getAssetMetaDataIfExists name :=
    if name = str "$ABC" ∨ name = str "#TAG" then some ⟨name, COIN, 0, 1, 0, []⟩ else none
  getAssetVerifierStringIfExists name _ := if name = str "$ABC" then some (str "true") else none
  checkForAddressQualifier _ _ := false
  checkForAddressRestriction _ _ := false
  checkForGlobalRestriction _ := false

def commandTx : CTransaction where
  vin := [⟨⟨1, 0⟩, []⟩, ⟨⟨2, 0⟩, []⟩]
  vout := [paymentOut addTagBurnKeyID 5000000, paymentOut reissueBurnKeyID 5000000,
    transferOut aliceKeyID (str "ABC!") COIN, transferOut aliceKeyID (str "#TAG") COIN,
    freezeOut bobKeyID (str "#TAG") 1, freezeOut bobKeyID (str "$ABC") 1,
    ⟨0, CNullAssetTxData.constructGlobalRestrictionTransaction ⟨str "$ABC", 1⟩⟩,
    ⟨0, CNullAssetTxVerifierString.constructTransaction ⟨str "true"⟩⟩,
    ⟨0, CReissueAsset.constructTransaction ⟨str "$ABC", 0, 0, 1, []⟩ (scriptForKeyID aliceKeyID)⟩]
  hash := 3

theorem commandTx_commandsAuthorised :
    spendsAsset mainAll commandCoins commandTx (str "#TAG") ∧
      spendsAsset mainAll commandCoins commandTx (str "ABC!") ∧
      commandTx.vout.countP (createsRestricted mainAll) = 1 := by
  have hauthorised : CommandsAuthorised mainAll commandCoins commandTx :=
    commandsAuthorised_of_accepted mainAll commandTx commandCoins commandView true false
      true false .empty false [(str "$ABC", 3)] (by decide +kernel) (by decide +kernel)
  refine ⟨?_, ?_, ?_⟩
  · exact hauthorised.tag (freezeOut bobKeyID (str "#TAG") 1) (by simp [commandTx])
      ⟨str "#TAG", 1⟩ bobAddress (by decide +kernel) (by decide +kernel)
  · exact hauthorised.globalFreeze
      ⟨0, CNullAssetTxData.constructGlobalRestrictionTransaction ⟨str "$ABC", 1⟩⟩
      (by simp [commandTx]) ⟨str "$ABC", 1⟩ (by decide +kernel) (str "ABC") (by decide +kernel)
  · exact hauthorised.verifier ⟨0, CNullAssetTxVerifierString.constructTransaction ⟨str "true"⟩⟩
      (by simp [commandTx]) (by decide +kernel)

end HempCore
