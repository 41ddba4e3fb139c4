import HempCore.Analysis.Acceptance
import HempCore.Analysis.AssetNames

/-!
# What an accepted transaction creates

`CheckTransaction` lets a transaction issue, reissue or do neither. For each kind this module says
which outputs create something, what they carry and which transfer the kind asked for; the results
about authority, supply and undo are case analyses on it.
-/

set_option autoImplicit false

namespace HempCore

open Lib

/-- The outputs that issue, that reissue and that create an owner token, in order. -/
structure Creates (tx : CTransaction) (issues reissues owners : List CTxOut) : Prop where
  issues_eq : tx.vout.filter (fun out => isScriptNewAsset out.scriptPubKey) = issues
  reissues_eq : tx.vout.filter (fun out => isScriptReissueAsset out.scriptPubKey) = reissues
  owners_eq : tx.vout.filter (fun out => isScriptOwnerAsset out.scriptPubKey) = owners

def uniqueName (cfg : Config) (out : CTxOut) : Option Bytes :=
  ((assetFromScript cfg out.scriptPubKey).map fun p => p.1.strName).filter
    (isAssetNameOfType .UNIQUE)

/-- The kind of an accepted transaction, with what the kind establishes. -/
inductive Creation (cfg : Config) (tx : CTransaction) : Prop
  | issue {last secondLast : CTxOut} {asset : CNewAsset} {address : Bytes}
      (recognised : tx.isNewAsset cfg = true) (creates : Creates tx [last] [] [secondLast])
      (isLast : tx.lastOut = some last)
      (parsed : assetFromScript cfg last.scriptPubKey = some (asset, address))
      (owner : ownerAssetFromScript cfg secondLast.scriptPubKey =
        some (asset.strName ++ ownerTag, address))
      (valid : checkNewAsset cfg asset = .ok ())
      (parent : assetTypeOf cfg.uninit asset.strName = .SUB →
        tx.hasTransferOf cfg (getParentName asset.strName ++ ownerTag) = true)
  | reissue {last : CTxOut} {reissue : CReissueAsset} {address : Bytes}
      (creates : Creates tx [] [last] [])
      (parsed : reissueAssetFromScript cfg last.scriptPubKey = some (reissue, address))
      (valid : checkReissueAsset cfg reissue = .ok ())
      (parent : tx.hasTransferOf cfg (CTransaction.reissueOwnerName reissue.strName) = true)
  | unique {issues : List CTxOut} {parentName : Bytes} (creates : Creates tx issues [] [])
      (each : ∀ out ∈ issues, ∃ asset address,
        assetFromScript cfg out.scriptPubKey = some (asset, address) ∧
          isAssetNameOfType .UNIQUE asset.strName = true ∧
          checkNewAsset cfg asset = .ok () ∧ getParentName asset.strName = parentName)
      (nodup : (issues.filterMap (uniqueName cfg)).Nodup)
      (parent : tx.hasTransferOf cfg (parentName ++ ownerTag) = true)
  | msgChannel {last : CTxOut} {asset : CNewAsset} {address : Bytes}
      (creates : Creates tx [last] [] [])
      (parsed : assetFromScript cfg last.scriptPubKey = some (asset, address))
      (typed : isAssetNameOfType .MSGCHANNEL asset.strName = true)
      (valid : checkNewAsset cfg asset = .ok ())
      (parent : tx.hasTransferOf cfg (getParentName asset.strName ++ ownerTag) = true)
  | qualifier {last : CTxOut} {asset : CNewAsset} {address : Bytes}
      (creates : Creates tx [last] [] [])
      (parsed : assetFromScript cfg last.scriptPubKey = some (asset, address))
      (typed : isAssetNameOfType .QUALIFIER asset.strName = true ∨
        isAssetNameOfType .SUB_QUALIFIER asset.strName = true)
      (valid : checkNewAsset cfg asset = .ok ())
      (parent : assetTypeOf cfg.uninit asset.strName = .SUB_QUALIFIER →
        tx.hasTransferOf cfg (getParentName asset.strName) = true)
  | restricted {last : CTxOut} {asset : CNewAsset} {address : Bytes}
      (creates : Creates tx [last] [] [])
      (parsed : assetFromScript cfg last.scriptPubKey = some (asset, address))
      (typed : isAssetNameOfType .RESTRICTED asset.strName = true)
      (valid : checkNewAsset cfg asset = .ok ())
      (parent : tx.hasTransferOf cfg (asset.strName.drop 1 ++ ownerTag) = true)
  | transfers (creates : Creates tx [] [] [])

/-! ## Counting outputs -/

theorem filter_eq_singleton {α : Type} {p : α → Bool} {l : List α} {a : α}
    (h : l.countP p = 1) (ha : a ∈ l) (hpa : p a = true) : l.filter p = [a] := by
  rw [List.countP_eq_length_filter, List.length_eq_one_iff] at h
  obtain ⟨c, hc⟩ := h
  have hmem : a ∈ l.filter p := List.mem_filter.mpr ⟨ha, hpa⟩
  rw [hc, List.mem_singleton] at hmem
  rw [hc, hmem]

theorem filter_eq_nil_of_countP {α : Type} {p : α → Bool} {l : List α} (h : l.countP p = 0) : l.filter p = [] := by
  rwa [List.countP_eq_length_filter, List.length_eq_zero_iff] at h

/-- A predicate that implies another and is met as often selects the same elements. -/
theorem filter_eq_filter_of_countP {α : Type} {p q : α → Bool} {l : List α} (hqp : ∀ a ∈ l, q a = true → p a = true)
    (h : l.countP p = l.countP q) : l.filter p = l.filter q := by
  have hsub : (l.filter q).Sublist (l.filter p) := by
    have hq : l.filter q = (l.filter p).filter q := by
      rw [List.filter_filter]
      refine List.filter_congr fun a ha => ?_
      by_cases hqa : q a = true
      · simp [hqa, hqp a ha hqa]
      · simp [hqa]
    rw [hq]
    exact List.filter_sublist
  refine (hsub.eq_of_length ?_).symm
  rw [← List.countP_eq_length_filter, ← List.countP_eq_length_filter, h]

variable {cfg : Config} {tx : CTransaction} {p : CNewAsset × Bytes}

/-- The formatting checks that count outputs, for a kind with one issue in the last output. -/
theorem creates_of_counts {last : CTxOut} {owners : List CTxOut} (hlast : tx.lastOut = some last)
    (hnew : isScriptNewAsset last.scriptPubKey = true)
    (howners : tx.vout.filter (fun out => isScriptOwnerAsset out.scriptPubKey) = owners)
    (hissues : (getTxOutAssetTypes tx.vout).issues = 1)
    (hreissues : (getTxOutAssetTypes tx.vout).reissues = 0) : Creates tx [last] [] owners where
  issues_eq := filter_eq_singleton hissues (List.mem_of_getLast? hlast) hnew
  reissues_eq := filter_eq_nil_of_countP hreissues
  owners_eq := howners

/-! ## Outputs that decode -/

theorem isScriptNewAsset_of_asset {s : Bytes} (h : assetFromScript cfg s = some p) : isScriptNewAsset s = true := by
  simp only [assetFromScript, Option.bind_eq_bind, Option.bind_eq_some_iff] at h
  obtain ⟨start, hstart, -⟩ := h
  simp [isScriptNewAsset, hstart]

theorem isScriptReissueAsset_of_reissue {s : Bytes} {p : CReissueAsset × Bytes}
    (h : reissueAssetFromScript cfg s = some p) : isScriptReissueAsset s = true := by
  simp only [reissueAssetFromScript, Option.bind_eq_bind, Option.bind_eq_some_iff] at h
  obtain ⟨start, hstart, -⟩ := h
  simp [isScriptReissueAsset, hstart]

theorem isScriptNewAssetOfType_eq_true {types : List AssetType} {s : Bytes} :
    isScriptNewAssetOfType cfg types s = true ↔ ∃ asset address, assetFromScript cfg s = some (asset, address) ∧
      ∃ t ∈ types, isAssetNameOfType t asset.strName = true := by
  unfold isScriptNewAssetOfType
  cases h : assetFromScript cfg s with
  | none => simp
  | some p =>
    obtain ⟨asset, address⟩ := p
    simp [List.any_eq_true]

theorem uniqueName_isSome {out : CTxOut} : (uniqueName cfg out).isSome = isScriptNewUniqueAsset cfg out.scriptPubKey := by
  unfold uniqueName isScriptNewUniqueAsset isScriptNewAssetOfType
  cases h : assetFromScript cfg out.scriptPubKey with
  | none => simp
  | some p =>
    cases hu : isAssetNameOfType .UNIQUE p.1.strName <;> simp [Option.filter, hu]

theorem guardedAssetFromScript_eq_some {guard : Bytes → Bool} {s : Bytes} :
    guardedAssetFromScript cfg guard s = some p ↔ guard s = true ∧ assetFromScript cfg s = some p := by
  simp [guardedAssetFromScript]

/-! ## The kinds -/

theorem eq_of_fromLastOut {α : Type} {recogniser : CTransaction → Bool} {parser : Bytes → Option α} {a a' : α}
    {last : CTxOut} (hlast : tx.lastOut = some last) (hparse : parser last.scriptPubKey = some a)
    (h : CTransaction.fromLastOut recogniser parser tx = some a') : a' = a := by
  unfold CTransaction.fromLastOut at h
  split_ifs at h
  rw [hlast, Option.bind_some, hparse] at h
  exact (Option.some.inj h).symm

theorem creation_of_checkIssue (hrec : tx.isNewAsset cfg = true) (h : checkIssue cfg tx = .ok ()) :
    Creation cfg tx := by
  simp only [checkIssue, CTransaction.verifyNewAsset, bind_eq_ok, exists_punit, orElseError_eq_ok,
    demand_eq_ok, require_eq_ok, Prod.exists, CTransaction.assetFromTransaction,
    Option.bind_eq_some_iff, Bool.and_eq_true, beq_iff_eq, Bool.or_eq_true, bne_iff_ne] at h
  obtain ⟨⟨-, -, -, asset, address, ⟨last, hlast, hparse⟩, ownerName, ownerAddress,
    ⟨second, hsecond, hownerParse⟩, rfl, -, hparent, ⟨howners, hissues⟩, hreissues⟩, asset', address',
    hfrom, howner, hvalid⟩ := h
  cases eq_of_fromLastOut hlast hparse hfrom
  have haddress : ownerAddress = address := by
    simp only [CTransaction.isNewOwnerTxValid, CTransaction.ownerFromTransaction, hrec, if_true,
      hsecond, Option.bind_some, hownerParse, ite_error_eq_ok, not_not] at howner
    exact howner.1
  subst haddress
  have hsecondMem : second ∈ tx.vout := List.dropLast_subset _ (List.mem_of_getLast? hsecond)
  have hsecondOwner : isScriptOwnerAsset second.scriptPubKey = true := by
    simp only [ownerAssetFromScript, Option.bind_eq_bind, Option.bind_eq_some_iff] at hownerParse
    obtain ⟨start, hstart, -⟩ := hownerParse
    simp [isScriptOwnerAsset, hstart]
  exact .issue hrec
    (creates_of_counts hlast (isScriptNewAsset_of_asset hparse)
      (filter_eq_singleton howners hsecondMem hsecondOwner) hissues hreissues)
    hlast hparse hownerParse hvalid fun hsub => hparent.resolve_left (not_not.mpr hsub)

theorem checkReissue_ok {restricted : Bool} (h : checkReissue cfg tx = .ok restricted) :
    ∃ last reissue address, Creates tx [] [last] [] ∧
      reissueAssetFromScript cfg last.scriptPubKey = some (reissue, address) ∧ checkReissueAsset cfg reissue = .ok () ∧
      tx.hasTransferOf cfg (CTransaction.reissueOwnerName reissue.strName) = true ∧
      (restricted = true → assetTypeOf cfg.uninit reissue.strName = .RESTRICTED) := by
  simp only [checkReissue, CTransaction.verifyReissueAsset, bind_eq_ok, exists_punit, orElseError_eq_ok, demand_eq_ok,
    require_eq_ok, Prod.exists, CTransaction.reissueAssetFromTransaction, Option.bind_eq_some_iff, Bool.and_eq_true,
    beq_iff_eq] at h
  obtain ⟨⟨-, -, reissue, address, ⟨last, hlast, hparse⟩, hparent, -, ⟨howners, hreissues⟩, hissues⟩,
    reissue', address', hfrom, hvalid, htype⟩ := h
  cases eq_of_fromLastOut hlast hparse hfrom
  refine ⟨last, reissue, address, ⟨filter_eq_nil_of_countP hissues,
    filter_eq_singleton hreissues (List.mem_of_getLast? hlast) (isScriptReissueAsset_of_reissue hparse),
    filter_eq_nil_of_countP howners⟩, hparse, hvalid, hparent, fun hrestricted => ?_⟩
  by_contra hne
  rw [if_neg hne, hrestricted, pure_eq_ok] at htype
  cases htype

theorem creation_of_checkReissue {restricted : Bool} (h : checkReissue cfg tx = .ok restricted) : Creation cfg tx := by
  obtain ⟨last, reissue, address, hcreates, hparse, hvalid, hparent, -⟩ := checkReissue_ok h
  exact .reissue hcreates hparse hvalid hparent

/-- What the message-channel, qualifier and restricted kinds read: the shape check and the later
parse see the same asset. -/
theorem guardedLastOut_eq_some {types : List AssetType} {recogniser : CTransaction → Bool} {p' : CNewAsset × Bytes}
    (h : (tx.lastOut.bind fun out => guardedAssetFromScript cfg (isScriptNewAssetOfType cfg types) out.scriptPubKey) = some p)
    (h' : CTransaction.fromLastOut recogniser (guardedAssetFromScript cfg (isScriptNewAssetOfType cfg types)) tx = some p') :
    p' = p ∧ ∃ last, tx.lastOut = some last ∧ assetFromScript cfg last.scriptPubKey = some p ∧
      ∃ t ∈ types, isAssetNameOfType t p.1.strName = true := by
  obtain ⟨last, hlast, hguarded⟩ := Option.bind_eq_some_iff.mp h
  obtain ⟨hguard, hparse⟩ := guardedAssetFromScript_eq_some.mp hguarded
  obtain ⟨asset, address, hparse', ht⟩ := isScriptNewAssetOfType_eq_true.mp hguard
  obtain rfl : p = (asset, address) := Option.some.inj (hparse.symm.trans hparse')
  exact ⟨eq_of_fromLastOut hlast hguarded h', last, hlast, hparse, ht⟩

theorem creation_of_checkIssueMsgChannel (h : checkIssueMsgChannel cfg tx = .ok ()) : Creation cfg tx := by
  simp only [checkIssueMsgChannel, CTransaction.verifyNewMsgChannelAsset, bind_eq_ok, exists_punit,
    orElseError_eq_ok, demand_eq_ok, require_eq_ok, Prod.exists, Bool.and_eq_true, beq_iff_eq] at h
  obtain ⟨⟨-, -, asset, address, hasset, -, hparent, ⟨howners, hissues⟩, hreissues⟩, asset', address', hfrom, hvalid⟩ := h
  obtain ⟨heq, last, hlast, hparse, t, ht, htyped⟩ := guardedLastOut_eq_some hasset hfrom
  cases heq
  cases List.mem_singleton.mp ht
  exact .msgChannel
    (creates_of_counts hlast (isScriptNewAsset_of_asset hparse) (filter_eq_nil_of_countP howners) hissues hreissues)
    hparse htyped hvalid hparent

theorem creation_of_checkIssueQualifier (h : checkIssueQualifier cfg tx = .ok ()) : Creation cfg tx := by
  simp only [checkIssueQualifier, CTransaction.verifyNewQualfierAsset, bind_eq_ok, exists_punit, orElseError_eq_ok,
    demand_eq_ok, require_eq_ok, Prod.exists, Bool.and_eq_true, beq_iff_eq, Bool.or_eq_true, bne_iff_ne] at h
  obtain ⟨⟨-, -, asset, address, hasset, -, hparent, ⟨howners, hissues⟩, hreissues⟩, asset', address', hfrom, hvalid⟩ := h
  obtain ⟨heq, last, hlast, hparse, t, ht, htyped⟩ := guardedLastOut_eq_some hasset hfrom
  cases heq
  refine .qualifier
    (creates_of_counts hlast (isScriptNewAsset_of_asset hparse) (filter_eq_nil_of_countP howners) hissues hreissues)
    hparse ?_ hvalid fun hsub => hparent.resolve_left (not_not.mpr hsub)
  rcases List.mem_pair.mp ht with rfl | rfl
  · exact .inl htyped
  · exact .inr htyped

theorem checkIssueRestricted_ok (h : checkIssueRestricted cfg tx = .ok ()) :
    ∃ last asset address, Creates tx [last] [] [] ∧ assetFromScript cfg last.scriptPubKey = some (asset, address) ∧
      isAssetNameOfType .RESTRICTED asset.strName = true ∧ checkNewAsset cfg asset = .ok () ∧
      tx.hasTransferOf cfg (asset.strName.drop 1 ++ ownerTag) = true := by
  simp only [checkIssueRestricted, CTransaction.verifyNewRestrictedAsset, bind_eq_ok, exists_punit, orElseError_eq_ok,
    demand_eq_ok, require_eq_ok, Prod.exists, Bool.and_eq_true, beq_iff_eq] at h
  obtain ⟨⟨-, -, asset, address, hasset, -, hparent, -, -, ⟨howners, hissues⟩, hreissues⟩, asset',
    address', hfrom, hvalid, -⟩ := h
  obtain ⟨heq, last, hlast, hparse, t, ht, htyped⟩ := guardedLastOut_eq_some hasset hfrom
  cases heq
  cases List.mem_singleton.mp ht
  rw [getParentName_of_restricted htyped] at hparent
  exact ⟨last, asset, address,
    creates_of_counts hlast (isScriptNewAsset_of_asset hparse) (filter_eq_nil_of_countP howners) hissues hreissues,
    hparse, htyped, hvalid, hparent⟩

theorem creation_of_checkIssueRestricted (h : checkIssueRestricted cfg tx = .ok ()) : Creation cfg tx := by
  obtain ⟨last, asset, address, hcreates, hparse, htyped, hvalid, hparent⟩ := checkIssueRestricted_ok h
  exact .restricted hcreates hparse htyped hvalid hparent

/-! ## Unique assets -/

/-- What the loop over the unique outputs has established of the part it has read. -/
structure UniqueScan (cfg : Config) (pre : List CTxOut) (st : List Bytes × Bytes) : Prop where
  names : st.1.reverse = pre.filterMap (uniqueName cfg)
  nodup : st.1.Nodup
  typed : ∀ name ∈ st.1, isAssetNameOfType .UNIQUE name = true
  parent : ∀ name ∈ st.1, getParentName name = st.2

theorem uniqueScan_step {pre : List CTxOut} {st st' : List Bytes × Bytes} {out : CTxOut} (hpre : UniqueScan cfg pre st)
    (h : CTransaction.uniqueAssetsStep cfg st out = .ok st') : UniqueScan cfg (pre ++ [out]) st' := by
  unfold CTransaction.uniqueAssetsStep at h
  by_cases hunique : isScriptNewUniqueAsset cfg out.scriptPubKey = true
  · rw [if_pos hunique] at h
    obtain ⟨asset, address, hparse, t, ht, htyped⟩ := isScriptNewAssetOfType_eq_true.mp hunique
    cases List.mem_singleton.mp ht
    simp only [hparse, demand, bind_eq_ok, Except.ok.injEq, exists_eq_left', exists_punit, require_eq_ok, pure_eq_ok,
      beq_iff_eq, Bool.not_eq_true', List.contains_eq_mem, decide_eq_false_iff_not] at h
    obtain ⟨hroot, hfresh, rfl⟩ := h
    refine ⟨?_, List.nodup_cons.mpr ⟨hfresh, hpre.nodup⟩, ?_, ?_⟩
    · simp [hpre.names, uniqueName, hparse, Option.filter, htyped]
    · rintro name (_ | ⟨_, hname⟩)
      · exact htyped
      · exact hpre.typed name hname
    · rintro name (_ | ⟨_, hname⟩)
      · exact hroot.symm
      · -- an earlier name has a parent, so the loop kept it
        have hkept : st.2 ≠ [] := hpre.parent name hname ▸ getParentName_ne_nil_of_unique (hpre.typed name hname)
        rw [if_neg hkept, hpre.parent name hname]
  · rw [if_neg hunique, pure_eq_ok] at h
    subst h
    have hnone : uniqueName cfg out = none := by
      rw [← Option.not_isSome_iff_eq_none, uniqueName_isSome]
      exact hunique
    exact ⟨by simp [hpre.names, hnone], hpre.nodup, hpre.typed, hpre.parent⟩

theorem creation_of_checkIssueUnique (h : checkIssueUnique cfg tx = .ok ()) : Creation cfg tx := by
  simp only [checkIssueUnique, CTransaction.verifyNewUniqueAsset, bind_eq_ok, exists_punit, orElseError_eq_ok,
    require_eq_ok, Prod.exists, Bool.and_eq_true, beq_iff_eq, List.forM_eq_forM, forM_eq_ok] at h
  obtain ⟨⟨-, names, parentName, hscan, -, -, hparent, ⟨howners, hreissues⟩, hissues⟩, hvalid⟩ := h
  have hscan : UniqueScan cfg tx.vout (names, parentName) :=
    foldlM_prefix_invariant (UniqueScan cfg) (fun _ _ _ _ _ => uniqueScan_step) [] ⟨rfl, List.nodup_nil, by simp, by simp⟩ hscan
  have hfilter : tx.vout.filter (fun out => isScriptNewAsset out.scriptPubKey) =
      tx.vout.filter fun out => isScriptNewUniqueAsset cfg out.scriptPubKey := by
    refine filter_eq_filter_of_countP (fun out _ hout => ?_) ?_
    · obtain ⟨_, _, hparse, -⟩ := isScriptNewAssetOfType_eq_true.mp hout
      exact isScriptNewAsset_of_asset hparse
    · have hlen := congrArg List.length hscan.names
      rw [List.length_reverse, List.length_filterMap_eq_countP] at hlen
      simpa [uniqueName_isSome, getTxOutAssetTypes] using hissues.trans hlen
  have hfilterMap : (tx.vout.filter fun out => isScriptNewUniqueAsset cfg out.scriptPubKey).filterMap
      (uniqueName cfg) = tx.vout.filterMap (uniqueName cfg) := by
    rw [List.filterMap_filter]
    refine List.filterMap_congr fun out _ => ?_
    rw [← uniqueName_isSome]
    cases uniqueName cfg out <;> simp
  refine .unique ⟨hfilter, filter_eq_nil_of_countP hreissues, filter_eq_nil_of_countP howners⟩ (fun out hout => ?_) ?_ hparent
  · obtain ⟨hmem, hunique⟩ := List.mem_filter.mp hout
    obtain ⟨asset, address, hparse, t, ht, htyped⟩ := isScriptNewAssetOfType_eq_true.mp hunique
    cases List.mem_singleton.mp ht
    have hname : asset.strName ∈ tx.vout.filterMap (uniqueName cfg) :=
      List.mem_filterMap.mpr ⟨out, hmem, by simp [uniqueName, hparse, Option.filter, htyped]⟩
    rw [← hscan.names, List.mem_reverse] at hname
    have hok := hvalid out hmem
    simp only [hunique, if_true, hparse, demand, bind_eq_ok, Except.ok.injEq, exists_eq_left', orElseError_eq_ok] at hok
    exact ⟨asset, address, hparse, htyped, hok, hscan.parent _ hname⟩
  · rw [hfilterMap, ← hscan.names, List.nodup_reverse]
    exact hscan.nodup

/-! ## All kinds -/

theorem creation_of_checkTransfersOnly (h : checkTransfersOnly tx = .ok ()) : Creation cfg tx := by
  simp only [checkTransfersOnly, List.forM_eq_forM, forM_eq_ok] at h
  have hnone : ∀ (nType : TxnOutType) (fIsOwner : Bool), nType ≠ .TX_TRANSFER_ASSET →
      tx.vout.filter (fun out => (payloadStart nType fIsOwner out.scriptPubKey).isSome) = [] := by
    intro nType fIsOwner hne
    refine List.filter_eq_nil_iff.mpr fun out hout hsome => ?_
    obtain ⟨start, hstart⟩ := Option.isSome_iff_exists.mp hsome
    have hok := h out hout
    simp only [payloadStart_eq_some.mp hstart, require_eq_ok, beq_iff_eq] at hok
    exact hne hok
  exact .transfers ⟨hnone _ _ (by simp), hnone _ _ (by simp), hnone _ _ (by simp)⟩

/-- Every transaction `CheckTransaction` accepts is of one of the kinds. -/
theorem creation_of_checkTransaction {fCheckDuplicateInputs fMempoolCheck fBlockCheck : Bool}
    (h : checkTransaction cfg tx fCheckDuplicateInputs fMempoolCheck fBlockCheck = .ok ()) : Creation cfg tx := by
  obtain ⟨_, _, -, -, -, hkind⟩ := checkTransaction_ok h
  cases checkKind_ok hkind with
  | issue h hok => exact creation_of_checkIssue h hok
  | reissue _ _ hok => exact creation_of_checkReissue hok
  | unique _ _ _ hok => exact creation_of_checkIssueUnique hok
  | msgChannel _ _ _ _ hok => exact creation_of_checkIssueMsgChannel hok
  | qualifier _ _ _ _ _ hok => exact creation_of_checkIssueQualifier hok
  | restricted _ _ _ _ _ _ hok => exact creation_of_checkIssueRestricted hok
  | transfers _ _ _ _ _ _ hok => exact creation_of_checkTransfersOnly hok

/-- The payload of every output that creates something decodes. -/
structure Decodes (cfg : Config) (tx : CTransaction) : Prop where
  issue : ∀ out ∈ tx.vout, isScriptNewAsset out.scriptPubKey = true →
    ∃ p, assetFromScript cfg out.scriptPubKey = some p
  owner : ∀ out ∈ tx.vout, isScriptOwnerAsset out.scriptPubKey = true →
    ∃ p, ownerAssetFromScript cfg out.scriptPubKey = some p
  reissue : ∀ out ∈ tx.vout, isScriptReissueAsset out.scriptPubKey = true →
    ∃ p, reissueAssetFromScript cfg out.scriptPubKey = some p

theorem decodes_of_creates {issues reissues owners : List CTxOut} (hc : Creates tx issues reissues owners)
    (hi : ∀ out ∈ issues, ∃ p, assetFromScript cfg out.scriptPubKey = some p)
    (ho : ∀ out ∈ owners, ∃ p, ownerAssetFromScript cfg out.scriptPubKey = some p)
    (hr : ∀ out ∈ reissues, ∃ p, reissueAssetFromScript cfg out.scriptPubKey = some p) :
    Decodes cfg tx where
  issue out hout h := hi out (hc.issues_eq ▸ List.mem_filter.mpr ⟨hout, h⟩)
  owner out hout h := ho out (hc.owners_eq ▸ List.mem_filter.mpr ⟨hout, h⟩)
  reissue out hout h := hr out (hc.reissues_eq ▸ List.mem_filter.mpr ⟨hout, h⟩)

theorem decodes_of_creation (h : Creation cfg tx) : Decodes cfg tx := by
  cases h with
  | issue _ hc _ hparse howner =>
    exact decodes_of_creates hc (by simp [hparse]) (by simp [howner]) (by simp)
  | reissue hc hparse => exact decodes_of_creates hc (by simp) (by simp) (by simp [hparse])
  | unique hc heach =>
    refine decodes_of_creates hc (fun out hout => ?_) (by simp) (by simp)
    obtain ⟨_, _, hparse, -⟩ := heach out hout
    exact ⟨_, hparse⟩
  | msgChannel hc hparse => exact decodes_of_creates hc (by simp [hparse]) (by simp) (by simp)
  | qualifier hc hparse => exact decodes_of_creates hc (by simp [hparse]) (by simp) (by simp)
  | restricted hc hparse => exact decodes_of_creates hc (by simp [hparse]) (by simp) (by simp)
  | transfers hc => exact decodes_of_creates hc (by simp) (by simp) (by simp)

end HempCore
