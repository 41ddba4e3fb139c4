import HempCore.Analysis.Acceptance
import HempCore.Model.Construct

/-!
# Asset conservation

A transaction that `CheckTxAssets` accepts moves assets and creates none in its transfer outputs:
for every name its inputs and its transfer outputs carry the same amount, and no total computed on
the way leaves `[0, MAX_MONEY]`.
-/

set_option autoImplicit false

namespace HempCore

open Lib

variable (cfg : Config)

/-! ## What a transaction carries -/

def inputAsset (inputs : CoinsView) (txin : CTxIn) : Option CAssetOutputEntry :=
  (inputs txin.prevout).bind fun coin => getAssetData cfg coin.out.scriptPubKey

def transferredAsset (txout : CTxOut) : Option CAssetTransfer :=
  (transferAssetFromScript cfg txout.scriptPubKey).map Prod.fst

def CAssetOutputEntry.entry (data : CAssetOutputEntry) : Bytes × Int :=
  (data.assetName, data.nAmount)

def CAssetTransfer.entry (transfer : CAssetTransfer) : Bytes × Int :=
  (transfer.strName, transfer.nAmount)

namespace CTransaction

def inputAssets (inputs : CoinsView) (tx : CTransaction) : List (Bytes × Int) :=
  (tx.vin.filterMap (inputAsset cfg inputs)).map CAssetOutputEntry.entry

def transferredAssets (tx : CTransaction) : List (Bytes × Int) :=
  (tx.vout.filterMap (transferredAsset cfg)).map CAssetTransfer.entry

def outputAssets (tx : CTransaction) : List CAssetOutputEntry :=
  tx.vout.filterMap fun out => getAssetData cfg out.scriptPubKey

/-- The assets of the issue, owner and reissue outputs. -/
def createdAssets (tx : CTransaction) : List CAssetOutputEntry :=
  (tx.outputAssets cfg).filter fun data => data.type != .TX_TRANSFER_ASSET

end CTransaction

/-- Everything a transaction conserves of one asset. -/
structure Conserves (inputs : CoinsView) (tx : CTransaction) (name : Bytes) : Prop where
  /-- Inputs and transfer outputs carry the same amount. -/
  amount : total name (tx.inputAssets cfg inputs) = total name (tx.transferredAssets cfg)
  /-- An asset is among the inputs exactly when it is among the transfer outputs. -/
  names : name ∈ (tx.inputAssets cfg inputs).map Prod.fst ↔
    name ∈ (tx.transferredAssets cfg).map Prod.fst
  /-- Every partial sum over the inputs is in range. -/
  inputSums : ∀ l, l <+: tx.inputAssets cfg inputs → 0 ≤ total name l ∧ total name l ≤ maxMoney
  /-- Every partial sum over the transfer outputs is in range. -/
  outputSums : ∀ l, l <+: tx.transferredAssets cfg → 0 ≤ total name l ∧ total name l ≤ maxMoney
  /-- What the outputs carry beyond the inputs is in issue, owner and reissue outputs. -/
  created : total name ((tx.outputAssets cfg).map CAssetOutputEntry.entry) =
    total name (tx.inputAssets cfg inputs) +
      total name ((tx.createdAssets cfg).map CAssetOutputEntry.entry)
  /-- An asset that is not among the inputs is in issue, owner and reissue outputs alone. -/
  createdOnly : name ∉ (tx.inputAssets cfg inputs).map Prod.fst →
    ∀ data ∈ tx.outputAssets cfg, data.assetName = name → data ∈ tx.createdAssets cfg

variable {cfg}

/-! ## The two loops -/

section Loops

variable {tx : CTransaction} {inputs : CoinsView} {cache : Option AssetView}
  {fRunningUnitTests : Bool} {pool : MempoolTracking}

theorem accumulates_addAssetTotal {l : List (Bytes × Int)} {totals totals' : AssetTotals} {name : Bytes} {amount : Int}
    (hl : Accumulates maxMoney l totals) (h : addAssetTotal totals name amount = some totals') :
    Accumulates maxMoney (l ++ [(name, amount)]) totals' := by
  obtain ⟨hnonneg, hle, rfl⟩ := addAssetTotal_eq_some h
  rw [hl.getD] at hle ⊢
  exact hl.snoc hnonneg hle

theorem accumulates_checkAssetInput {totals : AssetTotals} (h : tx.vin.foldlM (checkAssetInput cfg inputs cache) ∅ = .ok totals) :
    Accumulates maxMoney (tx.inputAssets cfg inputs) totals := by
  refine foldlM_prefix_invariant
    (fun pre t => Accumulates maxMoney ((pre.filterMap (inputAsset cfg inputs)).map CAssetOutputEntry.entry) t)
    (fun pre t t' txin _ hpre hstep => ?_) [] (Accumulates.nil (by decide)) h
  obtain ⟨coin, hcoin, ⟨hnone, rfl⟩ | ⟨data, hdata, -, -, hadd, -⟩⟩ := checkAssetInput_ok hstep
  · simpa [inputAsset, hcoin, getAssetData, hnone] using hpre
  · simpa [inputAsset, hcoin, hdata, CAssetOutputEntry.entry] using accumulates_addAssetTotal hpre hadd

theorem transferredAsset_eq_none {txout : CTxOut}
    (h : ∀ start, isAssetScript txout.scriptPubKey ≠ some ⟨.TX_TRANSFER_ASSET, false, start⟩) :
    transferredAsset cfg txout = none := by
  rw [transferredAsset, Option.map_eq_none_iff, Option.eq_none_iff_forall_ne_some]
  intro p hp
  obtain ⟨start, hs⟩ := isAssetScript_of_transfer hp
  exact h start hs

theorem accumulates_checkAssetOutput {st : OutputTotals}
    (h : tx.vout.foldlM (checkAssetOutput cfg cache pool fRunningUnitTests tx) ⟨∅, []⟩ = .ok st) :
    Accumulates maxMoney (tx.transferredAssets cfg) st.totalOutputs := by
  refine foldlM_prefix_invariant
    (fun pre (s : OutputTotals) => Accumulates maxMoney
      ((pre.filterMap (transferredAsset cfg)).map CAssetTransfer.entry) s.totalOutputs)
    (fun pre s s' txout _ hpre hstep => ?_) [] (Accumulates.nil (by decide)) h
  obtain ⟨-, ⟨start, -, htransfer⟩ | ⟨hne, hsame⟩⟩ := checkAssetOutput_ok hstep
  · obtain ⟨transfer, address, hparse, -, hadd, -⟩ := checkAssetTransferOutput_ok htransfer
    simpa [transferredAsset, hparse, CAssetTransfer.entry] using accumulates_addAssetTotal hpre hadd
  · simpa [transferredAsset_eq_none hne, hsame] using hpre

end Loops

/-! ## Created amounts -/

theorem getAssetData_type {s : Bytes} {data : CAssetOutputEntry} (h : getAssetData cfg s = some data) :
    if data.type = .TX_TRANSFER_ASSET then
      (transferAssetFromScript cfg s).map (fun p => p.1.entry) = some data.entry
    else transferAssetFromScript cfg s = none := by
  cases hs : isAssetScript s with
  | none => simp [getAssetData, hs] at h
  | some a =>
    obtain ⟨nType, fIsOwner, start⟩ := a
    have hnone : nType ≠ .TX_TRANSFER_ASSET → transferAssetFromScript cfg s = none := by
      intro hne
      refine Option.eq_none_iff_forall_ne_some.mpr fun p hp => ?_
      obtain ⟨i, hi⟩ := isAssetScript_of_transfer hp
      rw [hs] at hi
      simp only [Option.some.injEq, AssetScript.mk.injEq] at hi
      exact hne hi.1
    rcases isAssetScript_cases hs with ⟨rfl, rfl⟩ | ⟨rfl, rfl⟩ | ⟨rfl, rfl⟩ | ⟨rfl, rfl⟩
    · rw [getAssetData_of_transfer hs, Option.map_eq_some_iff] at h
      obtain ⟨p, hp, rfl⟩ := h
      simp [hp, CAssetTransfer.entry, CAssetOutputEntry.entry]
    all_goals
      simp only [getAssetData, hs, Option.map_eq_some_iff] at h
      obtain ⟨p, -, rfl⟩ := h
      simpa using hnone (by simp)

theorem total_outputAssets (tx : CTransaction) (name : Bytes) :
    total name ((tx.outputAssets cfg).map CAssetOutputEntry.entry) =
      total name (tx.transferredAssets cfg) + total name ((tx.createdAssets cfg).map CAssetOutputEntry.entry) := by
  unfold CTransaction.createdAssets CTransaction.transferredAssets CTransaction.outputAssets
  induction tx.vout with
  | nil => simp
  | cons out outs ih =>
    cases hd : getAssetData cfg out.scriptPubKey with
    | none =>
      have hnone : transferredAsset cfg out = none := by
        rw [transferredAsset, Option.map_eq_none_iff, Option.eq_none_iff_forall_ne_some]
        intro p hp
        obtain ⟨start, hs⟩ := isAssetScript_of_transfer hp
        rw [getAssetData_of_transfer hs, hp] at hd
        cases hd
      simpa [hd, hnone] using ih
    | some data =>
      have htype := getAssetData_type hd
      split at htype
      · next heq =>
        rw [Option.map_eq_some_iff] at htype
        obtain ⟨p, hp, hentry⟩ := htype
        simp only [List.filterMap_cons, hd, transferredAsset, hp, Option.map_some, List.map_cons, total_cons, hentry,
          List.filter_cons, heq, bne_self_eq_false, Bool.false_eq_true, if_false]
        rw [ih]
        ring
      · next hne =>
        simp only [List.filterMap_cons, hd, transferredAsset, htype, Option.map_none, List.map_cons,
          total_cons, List.filter_cons, bne_iff_ne, ne_eq, hne, not_false_eq_true, if_true]
        rw [ih]
        ring

theorem mem_transferredAssets_of_output {tx : CTransaction} {data : CAssetOutputEntry} (h : data ∈ tx.outputAssets cfg)
    (htype : data.type = .TX_TRANSFER_ASSET) : data.assetName ∈ (tx.transferredAssets cfg).map Prod.fst := by
  simp only [CTransaction.outputAssets, List.mem_filterMap] at h
  obtain ⟨out, hout, hdata⟩ := h
  have hentry := getAssetData_type hdata
  rw [if_pos htype, Option.map_eq_some_iff] at hentry
  obtain ⟨p, hp, hpe⟩ := hentry
  have hmem : p.1 ∈ tx.vout.filterMap (transferredAsset cfg) := List.mem_filterMap.mpr ⟨out, hout, by simp [transferredAsset, hp]⟩
  have hentry : data.entry ∈ tx.transferredAssets cfg := hpe ▸ List.mem_map_of_mem hmem
  exact List.mem_map_of_mem (f := Prod.fst) hentry

/-! ## Conservation -/

section Accepted

variable {tx : CTransaction} {inputs : CoinsView} {cache : Option AssetView}
  {fCheckMempool fRunningUnitTests : Bool} {pool : MempoolTracking}
  {pairs : List (Bytes × Uint256)}

/-- The two totals of an accepted transaction accumulate its inputs and its transfer outputs, and
they agree on every name. -/
theorem accumulates_of_accepted (h : checkTxAssets cfg tx inputs cache fCheckMempool pool fRunningUnitTests = .ok pairs) :
    ∃ totalInputs totalOutputs : AssetTotals, Accumulates maxMoney (tx.inputAssets cfg inputs) totalInputs ∧
      Accumulates maxMoney (tx.transferredAssets cfg) totalOutputs ∧
      ∀ name : Bytes, totalInputs[name]? = totalOutputs[name]? := by
  obtain ⟨-, totalInputs, st, hin, hout, -, htotals, -⟩ := checkTxAssets_ok h
  exact ⟨totalInputs, st.totalOutputs, accumulates_checkAssetInput hin,
    accumulates_checkAssetOutput hout, fun name => (checkAssetTotals_ok htotals name).symm⟩

theorem mem_inputAssets_iff (h : checkTxAssets cfg tx inputs cache fCheckMempool pool fRunningUnitTests = .ok pairs)
    (name : Bytes) :
    name ∈ (tx.inputAssets cfg inputs).map Prod.fst ↔ name ∈ (tx.transferredAssets cfg).map Prod.fst := by
  obtain ⟨_, _, hin, hout, hagree⟩ := accumulates_of_accepted h
  exact (hin.total_eq hout hagree name).2

end Accepted

/-- Every transaction `CheckTxAssets` accepts, over any coins and any asset state, conserves every
asset. -/
theorem conserves_of_checkTxAssets (cfg : Config) (tx : CTransaction) (inputs : CoinsView)
    (cache : Option AssetView) (fCheckMempool : Bool) (pool : MempoolTracking)
    (fRunningUnitTests : Bool) (pairs : List (Bytes × Uint256))
    (h : checkTxAssets cfg tx inputs cache fCheckMempool pool fRunningUnitTests = .ok pairs)
    (name : Bytes) : Conserves cfg inputs tx name := by
  obtain ⟨_, _, hin, hout, hagree⟩ := accumulates_of_accepted h
  obtain ⟨hamount, hnames⟩ := hin.total_eq hout hagree name
  refine ⟨hamount, hnames, fun l hl => hin.bounded l hl name,
    fun l hl => hout.bounded l hl name, ?_, fun hnot data hdata hname => ?_⟩
  · rw [total_outputAssets, hamount]
  · refine List.mem_filter.mpr ⟨hdata, ?_⟩
    simp only [bne_iff_ne, ne_eq]
    intro htype
    exact hnot (hnames.mpr (hname ▸ mem_transferredAssets_of_output hdata htype))

/-! ## A payment in `ABC`

Two coins with 5 and 3 `ABC` are spent into outputs with 6 and 2. -/

def abcCoins : CoinsView := fun outpoint =>
  if outpoint = ⟨1, 0⟩ then some ⟨transferOut aliceKeyID (str "ABC") (5 * COIN), false, 1⟩
  else if outpoint = ⟨2, 0⟩ then some ⟨transferOut bobKeyID (str "ABC") (3 * COIN), false, 1⟩
  else none

def abcView : AssetView where
  checkIfAssetExists name := name == str "ABC"
  getAssetMetaDataIfExists name :=
    if name = str "ABC" then some ⟨name, 8 * COIN, 0, 1, 0, []⟩ else none
  getAssetVerifierStringIfExists _ _ := none
  checkForAddressQualifier _ _ := false
  checkForAddressRestriction _ _ := false
  checkForGlobalRestriction _ := false

def abcPayment : CTransaction where
  vin := [⟨⟨1, 0⟩, []⟩, ⟨⟨2, 0⟩, []⟩]
  vout := [transferOut bobKeyID (str "ABC") (6 * COIN), transferOut aliceKeyID (str "ABC") (2 * COIN)]
  hash := 3

theorem abcPayment_conserves :
    checkTxAssets mainAll abcPayment abcCoins (some abcView) false .empty false = .ok [] ∧
      Conserves mainAll abcCoins abcPayment (str "ABC") := by
  have h : checkTxAssets mainAll abcPayment abcCoins (some abcView) false .empty false
      = .ok [] := by decide +kernel
  exact ⟨h, conserves_of_checkTxAssets _ _ _ _ _ _ _ _ h _⟩

end HempCore
