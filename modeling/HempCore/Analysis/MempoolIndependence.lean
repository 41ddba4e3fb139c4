import HempCore.Analysis.CreationAuthority

/-!
# What validation reads of the mempool

`ConnectBlock` calls `CheckTxAssets` without the mempool checks, but the test of
`mapReissuedAssets` is made all the same. The verdict splits into that test and everything else,
which reads no tracking map.
-/

set_option autoImplicit false

namespace HempCore

open Lib

variable (cfg : Config)

/-! ## The test and the rest -/

/-- An asset that the output reissues is not tracked for another transaction. -/
def OutputTrackingAllows (pool : MempoolTracking) (tx : CTransaction) (out : CTxOut) : Prop :=
  ∀ p, reissueAssetFromScript cfg out.scriptPubKey = some p →
    ∀ hash, pool.mapReissuedAssets.get? p.1.strName = some hash → hash = tx.hash

/-- No asset the transaction reissues is tracked for another transaction. -/
def TrackingAllows (pool : MempoolTracking) (tx : CTransaction) : Prop :=
  ∀ out ∈ tx.vout, OutputTrackingAllows cfg pool tx out

/-- An output's check without the test of the tracking map. -/
def checkOutputUntracked (cache : Option AssetView) (fRunningUnitTests : Bool)
    (totals : AssetTotals) (txout : CTxOut) : Check AssetTotals := do
  checkOutputContext cfg cache txout
  match (isAssetScript txout.scriptPubKey).map AssetScript.nType with
  | some .TX_TRANSFER_ASSET => checkAssetTransferOutput cfg cache fRunningUnitTests totals txout
  | some .TX_REISSUE_ASSET => do
    let _ ← demand (reissueAssetFromScript cfg txout.scriptPubKey)
      (dos100 "bad-tx-asset-reissue-bad-deserialize")
    pure totals
  | _ => pure totals

/-- Every check of `CheckTxAssets` but the test of the tracking map. -/
def OtherChecksPass (tx : CTransaction) (inputs : CoinsView) (cache : Option AssetView)
    (fRunningUnitTests : Bool) : Prop :=
  haveInputs inputs tx = true ∧ ∃ totalInputs totalOutputs,
    tx.vin.foldlM (checkAssetInput cfg inputs cache) ∅ = .ok totalInputs ∧
    tx.vout.foldlM (checkOutputUntracked cfg cache fRunningUnitTests) ∅ = .ok totalOutputs ∧
    checkKindContext cfg cache false .empty tx = .ok () ∧
    checkAssetTotals totalInputs totalOutputs = .ok ()

/-- A call of `CheckTxAssets` that `ConnectBlock` makes: a transaction of the block, the coins and
the asset state at that point. -/
structure AssetCall where
  tx : CTransaction
  inputs : CoinsView
  cache : Option AssetView

def AssetCall.Accepted (call : AssetCall) (pool : MempoolTracking) : Prop :=
  ∃ pairs, checkTxAssets cfg call.tx call.inputs call.cache false pool false = .ok pairs

variable {cfg}

/-! ## One output -/

theorem checkReissueTracking_isOk {pool : MempoolTracking} {tx : CTransaction} {name : Bytes} (pairs : List (Bytes × Uint256)) :
    (∃ pairs', checkReissueTracking pool tx name pairs = .ok pairs') ↔
      ∀ hash, pool.mapReissuedAssets.get? name = some hash → hash = tx.hash := by
  unfold checkReissueTracking
  cases pool.mapReissuedAssets.get? name with
  | none => simp only [pure_eq_ok, exists_eq', reduceCtorEq, false_implies, implies_true]
  | some hash => simp only [bind_eq_ok, exists_punit, require_eq_ok, beq_iff_eq, pure_eq_ok,
      exists_and_left, exists_eq', and_true, Option.some.injEq, forall_eq']

variable {cache : Option AssetView} {fRunningUnitTests : Bool} {pool : MempoolTracking}
  {tx : CTransaction}

theorem isAssetScript_of_reissue {s : Bytes} {p : CReissueAsset × Bytes} (h : reissueAssetFromScript cfg s = some p) :
    (isAssetScript s).map AssetScript.nType = some .TX_REISSUE_ASSET := by
  simp only [reissueAssetFromScript, Option.bind_eq_bind, Option.bind_eq_some_iff] at h
  obtain ⟨start, hstart, -⟩ := h
  simp [payloadStart_eq_some.mp hstart]

theorem checkAssetOutput_split {st : OutputTotals} {out : CTxOut} {totals : AssetTotals} :
    (∃ pairs, checkAssetOutput cfg cache pool fRunningUnitTests tx st out = .ok ⟨totals, pairs⟩) ↔
      checkOutputUntracked cfg cache fRunningUnitTests st.totalOutputs out = .ok totals ∧
        OutputTrackingAllows cfg pool tx out := by
  have hnone : (isAssetScript out.scriptPubKey).map AssetScript.nType ≠ some .TX_REISSUE_ASSET →
      OutputTrackingAllows cfg pool tx out := fun hne p hp =>
    absurd (isAssetScript_of_reissue hp) hne
  simp only [checkAssetOutput, checkOutputUntracked, checkOutputTransferOrReissue, bind_eq_ok,
    exists_punit, exists_and_left, and_assoc]
  refine and_congr_right fun _ => ?_
  generalize (isAssetScript out.scriptPubKey).map AssetScript.nType = type at hnone ⊢
  split
  · simp only [bind_eq_ok, pure_eq_ok, OutputTotals.mk.injEq, hnone (by simp), and_true]
    constructor
    · rintro ⟨pairs, t, h, rfl, -⟩
      exact h
    · exact fun h => ⟨_, totals, h, rfl, rfl⟩
  · cases hparse : reissueAssetFromScript cfg out.scriptPubKey with
    | none => simp [demand, bind, Except.bind]
    | some p =>
      simp only [demand, bind_eq_ok, pure_eq_ok, Except.ok.injEq, exists_eq_left', OutputTotals.mk.injEq,
        OutputTrackingAllows, hparse, Option.some.injEq, forall_eq', ← checkReissueTracking_isOk st.vPairReissueAssets]
      constructor
      · rintro ⟨pairs, pairs', h, htotals, -⟩
        exact ⟨htotals, pairs', h⟩
      · rintro ⟨htotals, pairs', h⟩
        exact ⟨pairs', pairs', h, htotals, rfl⟩
  · next hne =>
    simp only [pure_eq_ok, hnone hne, and_true]
    constructor
    · rintro ⟨pairs, rfl⟩
      rfl
    · rintro rfl
      exact ⟨_, rfl⟩

/-! ## The loop over the outputs -/

theorem outputs_split {l : List CTxOut} {totals : AssetTotals} (st : OutputTotals) :
    (∃ pairs, l.foldlM (checkAssetOutput cfg cache pool fRunningUnitTests tx) st = .ok ⟨totals, pairs⟩) ↔
      l.foldlM (checkOutputUntracked cfg cache fRunningUnitTests) st.totalOutputs = .ok totals ∧
      ∀ out ∈ l, OutputTrackingAllows cfg pool tx out := by
  induction l generalizing st with
  | nil =>
    simp only [List.foldlM_nil, pure_eq_ok, List.not_mem_nil, false_implies, implies_true, and_true]
    constructor
    · rintro ⟨pairs, rfl⟩
      rfl
    · rintro rfl
      exact ⟨_, rfl⟩
  | cons out l ih =>
    simp only [List.foldlM_cons, bind_eq_ok, List.forall_mem_cons]
    constructor
    · rintro ⟨pairs, st', hstep, hrest⟩
      obtain ⟨hout, hallows⟩ := checkAssetOutput_split.mp ⟨st'.vPairReissueAssets, hstep⟩
      obtain ⟨hl, hallowsRest⟩ := (ih st').mp ⟨pairs, hrest⟩
      exact ⟨⟨_, hout, hl⟩, hallows, hallowsRest⟩
    · rintro ⟨⟨t, hout, hl⟩, hallows, hallowsRest⟩
      obtain ⟨pairs, hstep⟩ := checkAssetOutput_split.mpr ⟨hout, hallows⟩
      obtain ⟨pairs', hrest⟩ := (ih ⟨t, pairs⟩).mpr ⟨hl, hallowsRest⟩
      exact ⟨pairs', _, hstep, hrest⟩

theorem checkKindContext_pool (pool : MempoolTracking) :
    checkKindContext cfg cache false pool tx = checkKindContext cfg cache false .empty tx := by
  cases cache <;> rfl

/-! ## The verdict -/

/-- A transaction is accepted when it passes the test of the tracking map and everything else. -/
theorem accepted_iff (call : AssetCall) :
    call.Accepted cfg pool ↔ OtherChecksPass cfg call.tx call.inputs call.cache false ∧ TrackingAllows cfg pool call.tx := by
  unfold AssetCall.Accepted OtherChecksPass
  constructor
  · rintro ⟨pairs, h⟩
    obtain ⟨hinputs, totalInputs, st, hin, hout, hkind, htotals, -⟩ := checkTxAssets_ok h
    obtain ⟨hloop, hallows⟩ := (outputs_split ⟨∅, []⟩).mp ⟨st.vPairReissueAssets, hout⟩
    rw [checkKindContext_pool] at hkind
    exact ⟨⟨hinputs, totalInputs, st.totalOutputs, hin, hloop, hkind, htotals⟩, hallows⟩
  · rintro ⟨⟨hinputs, totalInputs, totalOutputs, hin, hloop, hkind, htotals⟩, hallows⟩
    obtain ⟨pairs, hout⟩ := (outputs_split ⟨∅, []⟩).mpr ⟨hloop, hallows⟩
    rw [← checkKindContext_pool pool] at hkind
    refine ⟨pairs, ?_⟩
    simp only [checkTxAssets, bind_eq_ok, exists_punit, require_eq_ok, pure_eq_ok]
    exact ⟨hinputs, totalInputs, hin, _, hout, hkind, htotals, rfl⟩

/-- **Mempool independence.** For every block, whatever the coins and the asset state at each of its
transactions, and for every two nodes: they give every transaction the same verdict exactly when,
for each transaction that passes all other checks, their maps of reissued assets agree on whether
the assets it reissues are tracked for another transaction. -/
theorem verdicts_agree_iff (cfg : Config) (block : List AssetCall) (pool pool' : MempoolTracking) :
    (∀ call ∈ block, call.Accepted cfg pool ↔ call.Accepted cfg pool') ↔
      ∀ call ∈ block, OtherChecksPass cfg call.tx call.inputs call.cache false →
        (TrackingAllows cfg pool call.tx ↔ TrackingAllows cfg pool' call.tx) := by
  refine forall₂_congr fun call _ => ?_
  rw [accepted_iff, accepted_iff]
  constructor
  · exact fun h hother => ⟨fun ht => (h.mp ⟨hother, ht⟩).2, fun ht => (h.mpr ⟨hother, ht⟩).2⟩
  · exact fun h => and_congr_right h

/-! ## A reissue of `ABC`

One node has seen another reissue of `ABC` in its mempool; the other has not. -/

def abcReissue : CReissueAsset := ⟨str "ABC", 2 * COIN, -1, 1, []⟩

def abcReissueTx : CTransaction where
  vin := [⟨⟨1, 0⟩, []⟩, ⟨⟨2, 0⟩, []⟩]
  vout := [paymentOut reissueBurnKeyID 5000000, transferOut aliceKeyID (str "ABC!") COIN,
    ⟨0, abcReissue.constructTransaction (scriptForKeyID aliceKeyID)⟩]
  hash := 3

/-- The tracking maps of a node whose mempool holds the reissue with id 4. -/
def otherReissueTracked : MempoolTracking where
  mapReissuedAssets := (∅ : Std.TreeMap Bytes Uint256).insert (str "ABC") 4
  mapReissuedTx := (∅ : Std.TreeMap Uint256 Bytes).insert 4 (str "ABC")
  mapAssetToHash := ∅

theorem abcReissueTx_verdicts_differ :
    checkTransaction mainAll abcReissueTx true false true = .ok () ∧
      ¬ ∀ call ∈ [(⟨abcReissueTx, channelCoins, some abcView⟩ : AssetCall)],
        call.Accepted mainAll .empty ↔
          call.Accepted mainAll otherReissueTracked := by
  refine ⟨by decide +kernel, fun h => ?_⟩
  have haccepted : checkTxAssets mainAll abcReissueTx channelCoins (some abcView) false
      .empty false = .ok [(str "ABC", 3)] := by decide +kernel
  obtain ⟨pairs, hpairs⟩ := (h _ (List.mem_singleton.mpr rfl)).mp ⟨_, haccepted⟩
  have hrejected : checkTxAssets mainAll abcReissueTx channelCoins (some abcView) false
      otherReissueTracked false = .error (dos100 "bad-tx-reissue-chaining-not-allowed") := by
    decide +kernel
  rw [hrejected] at hpairs
  cases hpairs

end HempCore
