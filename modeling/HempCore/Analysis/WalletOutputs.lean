import HempCore.Analysis.AssetOutputs
import HempCore.Analysis.AssetScripts
import HempCore.Analysis.AssetSelection
import HempCore.Model.CreateTransaction

/-!
# The outputs of transactions the wallet builds

The amounts that `CreateTransactionAll` adds up over its recipients, the shares of the fee that they pay,
and what each kind of output transfers of an asset: the payees what was asked for, plain change and issues
nothing.
-/

set_option autoImplicit false

namespace HempCore

open Lib Std

variable {node : CreateNode} {env : CreateEnv} {req : CreateRequest} {cfg : Config} {name : Bytes} {totals : SendTotals}
  {vecSend : List CRecipient} {vout vout' : List CTxOut}

/-! ## Sums of `CAmount` -/

/-- What fits is kept. -/
theorem toCAmount_of_fits {n : Int} (hlo : -2 ^ 63 ≤ n) (hhi : n < 2 ^ 63) : toCAmount n = n := by
  rw [toCAmount, Int.bmod_def]
  split <;> omega

/-- A sum is always in the range of the type. -/
theorem toCAmount_range (n : Int) : -2 ^ 63 ≤ toCAmount n ∧ toCAmount n < 2 ^ 63 := by
  rw [toCAmount, Int.bmod_def]
  split <;> omega

/-- It does not matter where on the way a sum came back into range. -/
theorem toCAmount_add (a b : Int) : toCAmount (toCAmount a + b) = toCAmount (a + b) :=
  Int.bmod_add_bmod ..

/-- One step beyond the range is seen from the sign. -/
theorem lt_of_toCAmount_nonneg {n : Int} (hlo : 0 ≤ n) (hhi : n < 2 ^ 64) (h : 0 ≤ toCAmount n) : n < 2 ^ 63 := by
  rw [toCAmount, Int.bmod_def] at h
  split at h <;> omega

/-! ## The two sides of a transaction -/

section

variable (cfg : Config) (name : Bytes)

/-- What a script transfers of an asset. -/
def transferAmount (script : Bytes) : Int :=
  match transferAssetFromScript cfg script with
  | some (transfer, _) => if transfer.strName = name then transfer.nAmount else 0
  | none => 0

/-- What recipients get of an asset. -/
def sentAmount (vecSend : List CRecipient) : Int :=
  (vecSend.map fun recipient => transferAmount cfg name recipient.scriptPubKey).sum

def transferredBy (vout : List CTxOut) : Int :=
  (vout.map fun out => transferAmount cfg name out.scriptPubKey).sum

def heldBy (coins : List CInputCoin) : Int :=
  (coins.map fun coin => assetWeight cfg name coin.txout).sum

end

/-- Every asset leaves in the amount in which it comes in. -/
def CreatedTransaction.Conserves (tx : CreatedTransaction) (cfg : Config) : Prop :=
  ∀ name, heldBy cfg name tx.inputs = transferredBy cfg name tx.vout

/-! ## The amounts to send -/

/-- What a recipient gets, whoever pays the fee. -/
def CRecipient.payment (recipient : CRecipient) : Bytes × Int := (recipient.scriptPubKey, recipient.nAmount)

def amountSum (vecSend : List CRecipient) : Int := (vecSend.map CRecipient.nAmount).sum

/-- How many are to pay a share of the fee. -/
def payers (vecSend : List CRecipient) : Nat := vecSend.countP CRecipient.fSubtractFeeFromAmount

@[simp] theorem amountSum_append (l l' : List CRecipient) : amountSum (l ++ l') = amountSum l + amountSum l' := by
  simp [amountSum]

theorem amountSum_nonneg {l : List CRecipient} (h : ∀ r ∈ l, 0 ≤ r.nAmount) : 0 ≤ amountSum l :=
  List.sum_nonneg fun x hx => by
    obtain ⟨r, hr, rfl⟩ := List.mem_map.mp hx
    exact h r hr

/-- `mapAssetValue` after a recipient. -/
def addTransfer (cfg : Config) (usesAssets : Bool) (mapAssetValue : AssetTotals) (script : Bytes) : AssetTotals :=
  match if usesAssets then transferAssetFromScript cfg script else none with
  | none => mapAssetValue
  | some (transfer, _) => mapAssetValue.insert transfer.strName
      (toCAmount (mapAssetValue.getD transfer.strName 0 + transfer.nAmount))

/-- A recipient is taken when its amounts are not negative and no earlier sum was. -/
theorem addRecipient_eq_ok {st st' : SendTotals} {recipient : CRecipient} :
    addRecipient cfg req st recipient = .ok st' ↔
      (req.usesAssets → ∀ p ∈ transferAssetFromScript cfg recipient.scriptPubKey, 0 < p.1.nAmount) ∧
      0 ≤ st.nValue ∧ 0 ≤ recipient.nAmount ∧
      st' = ⟨toCAmount (st.nValue + recipient.nAmount),
        addTransfer cfg req.usesAssets st.mapAssetValue recipient.scriptPubKey,
        st.nSubtractFeeFromAmount + if recipient.fSubtractFeeFromAmount then 1 else 0⟩ := by
  rw [addRecipient, addTransfer]
  generalize (if recipient.fSubtractFeeFromAmount then 1 else 0 : Nat) = payer
  cases req.usesAssets with
  | false => simp [-bind_pure_comp, and_assoc, eq_comm (b := st')]
  | true =>
    cases transferAssetFromScript cfg recipient.scriptPubKey with
    | none => simp [-bind_pure_comp, and_assoc, eq_comm (b := st')]
    | some p => simp [-bind_pure_comp, and_assoc, eq_comm (b := st')]

/-- The totals of the recipients read so far. -/
structure Totals (cfg : Config) (usesAssets : Bool) (done : List CRecipient) (st : SendTotals) : Prop where
  value : st.nValue = toCAmount (amountSum done)
  payers : st.nSubtractFeeFromAmount = payers done
  nonneg : ∀ recipient ∈ done, 0 ≤ recipient.nAmount
  /-- Only the last recipient can lead out of the range. -/
  front : (∀ recipient ∈ done, recipient.nAmount < 2 ^ 63) → amountSum done.dropLast < 2 ^ 63
  sent : ∀ name, st.mapAssetValue.getD name 0 = if usesAssets then toCAmount (sentAmount cfg name done) else 0

theorem addTransfer_getD {mapAssetValue : AssetTotals} {usesAssets : Bool} {sum : Int} (script : Bytes)
    (h : mapAssetValue.getD name 0 = if usesAssets then toCAmount sum else 0) :
    (addTransfer cfg usesAssets mapAssetValue script).getD name 0 =
      if usesAssets then toCAmount (sum + transferAmount cfg name script) else 0 := by
  cases usesAssets with
  | false => simpa [addTransfer] using h
  | true =>
    rw [if_pos rfl] at h ⊢
    rw [addTransfer, if_pos rfl, transferAmount]
    cases transferAssetFromScript cfg script with
    | none => simpa using h
    | some p =>
      simp only [TreeMap.getD_eq_getD_getElem?, getElem?_insert_eq] at h ⊢
      split_ifs with heq hne hne
      · rw [Option.getD_some, ← heq, h, toCAmount_add]
      · exact absurd heq.symm hne
      · exact absurd hne.symm heq
      · rw [h, add_zero]

/-- An earlier sum that is not negative is the exact one. -/
theorem Totals.front_step {usesAssets : Bool} {done : List CRecipient} {st : SendTotals}
    (h : Totals cfg usesAssets done st) (hvalue : 0 ≤ st.nValue) (hrange : ∀ r ∈ done, r.nAmount < 2 ^ 63) :
    amountSum done < 2 ^ 63 := by
  refine lt_of_toCAmount_nonneg (amountSum_nonneg h.nonneg) ?_ (h.value ▸ hvalue)
  have hfront := h.front hrange
  by_cases hnil : done = []
  · simp [hnil, amountSum]
  · have hlast := hrange _ (List.getLast_mem hnil)
    rw [← List.dropLast_append_getLast hnil, amountSum_append]
    simp only [amountSum, List.map_cons, List.map_nil, List.sum_singleton] at hfront ⊢
    omega

/-- What the first loop adds up. -/
theorem sendTotals_spec (h : sendTotals cfg req = .ok totals) :
    Totals cfg req.usesAssets req.vecSend totals := by
  simp only [sendTotals, bind_eq_ok, exists_punit, pure_eq_ok] at h
  obtain ⟨-, -, -, -, totals', hloop, -, rfl⟩ := h
  have hstart : Totals cfg req.usesAssets [] ⟨0, ∅, 0⟩ := by
    refine ⟨rfl, rfl, by simp, fun _ => by simp [amountSum], fun name => ?_⟩
    simp [sentAmount, show toCAmount 0 = 0 from rfl]
  refine foldlM_prefix_invariant (Totals cfg req.usesAssets) ?_ [] hstart hloop
  intro done st st' recipient _ hst hstep
  obtain ⟨-, hvalue, hamount, rfl⟩ := addRecipient_eq_ok.mp hstep
  constructor
  · rw [hst.value, toCAmount_add, amountSum_append]
    simp [amountSum]
  · simp only [hst.payers, payers, List.countP_append, List.countP_singleton]
  · intro r hr
    rcases List.mem_append.mp hr with hr | hr
    · exact hst.nonneg r hr
    · rw [List.mem_singleton.mp hr]
      exact hamount
  · intro hrange
    rw [List.dropLast_concat]
    exact hst.front_step hvalue fun r hr => hrange r (List.mem_append_left _ hr)
  · intro name
    rw [addTransfer_getD _ (hst.sent name)]
    simp [sentAmount]

/-- The totals do not depend on who pays the fee. -/
theorem foldlM_addRecipient_congr {req' : CreateRequest} (huses : req'.usesAssets = req.usesAssets)
    {vecSend' : List CRecipient} (hsame : vecSend'.map CRecipient.payment = vecSend.map CRecipient.payment)
    {st st' : SendTotals} (hvalue : st'.nValue = st.nValue) (hmap : st'.mapAssetValue = st.mapAssetValue)
    (h : vecSend.foldlM (addRecipient cfg req) st = .ok totals) :
    ∃ totals', vecSend'.foldlM (addRecipient cfg req') st' = .ok totals' ∧ totals'.nValue = totals.nValue ∧
      totals'.mapAssetValue = totals.mapAssetValue := by
  induction vecSend generalizing vecSend' st st' with
  | nil =>
    obtain rfl := List.map_eq_nil_iff.mp hsame
    obtain rfl := pure_eq_ok.mp h
    exact ⟨st', rfl, hvalue, hmap⟩
  | cons recipient vecSend ih =>
    obtain ⟨recipient', vecSend', rfl, hpayment, hsame⟩ := List.map_eq_cons_iff.mp hsame
    obtain ⟨hscript, hamount⟩ := Prod.mk.inj hpayment
    rw [List.foldlM_cons, bind_eq_ok] at h
    obtain ⟨next, hstep, h⟩ := h
    obtain ⟨hsent, hold, hpos, rfl⟩ := addRecipient_eq_ok.mp hstep
    have hstep' : addRecipient cfg req' st' recipient' = .ok _ := addRecipient_eq_ok.mpr
      ⟨by rwa [huses, hscript], by rwa [hvalue], by rwa [hamount], rfl⟩
    rw [List.foldlM_cons, hstep']
    exact ih hsame (by rw [hvalue, hamount]) (by rw [huses, hmap, hscript]) h

/-! ## The payees -/

/-- Null asset data is counted among the payers of the fee, and pays nothing. -/
def CRecipient.paysFee (recipient : CRecipient) : Bool :=
  recipient.fSubtractFeeFromAmount && !isNullAssetTxDataScript recipient.scriptPubKey

/-- Each recipient with its share of the fee: equal parts, and the remainder with the first one that pays. -/
def feeShares (nSubtractFeeFromAmount : Nat) (nFeeRet : Int) : Bool → List CRecipient → List (CRecipient × Int)
  | _, [] => []
  | fFirst, recipient :: vecSend =>
    (recipient, if recipient.paysFee then nFeeRet.tdiv nSubtractFeeFromAmount +
        if fFirst then nFeeRet.tmod nSubtractFeeFromAmount else 0 else 0) ::
      feeShares nSubtractFeeFromAmount nFeeRet (fFirst && !recipient.paysFee) vecSend

/-- What is left to a recipient can be sent: null asset data carries nothing, and no plain output is
dust. An asset output is not checked. -/
def Payable (dustRelayFee : Nat → Int) (share : CRecipient × Int) : Prop :=
  if isNullAssetTxDataScript share.1.scriptPubKey then share.1.nAmount = 0
  else isAssetScript share.1.scriptPubKey = none →
    getDustThreshold ⟨0, share.1.scriptPubKey⟩ dustRelayFee ≤ share.1.nAmount - share.2

def payeeOut (share : CRecipient × Int) : CTxOut := ⟨share.1.nAmount - share.2, share.1.scriptPubKey⟩

variable {n : Nat} {nFeeRet : Int} {dustRelayFee : Nat → Int}

theorem feeShares_fst (fFirst : Bool) (vecSend : List CRecipient) :
    (feeShares n nFeeRet fFirst vecSend).map Prod.fst = vecSend := by
  induction vecSend generalizing fFirst with
  | nil => rfl
  | cons recipient vecSend ih => rw [feeShares, List.map_cons, ih]

/-- Only those that pay have a share. -/
theorem mem_feeShares {p : CRecipient × Int} {fFirst : Bool}
    (h : p ∈ feeShares n nFeeRet fFirst vecSend) : p.1 ∈ vecSend ∧ (p.1.paysFee = false → p.2 = 0) := by
  induction vecSend generalizing fFirst with
  | nil => cases h
  | cons recipient vecSend ih =>
    rcases List.mem_cons.mp h with rfl | h
    · exact ⟨List.mem_cons_self, fun hpays => by simp [hpays]⟩
    · exact ⟨List.mem_cons_of_mem _ (ih h).1, (ih h).2⟩

/-- Without a fee nobody has a share. -/
theorem share_eq_zero {p : CRecipient × Int} {fFirst : Bool} (h : p ∈ feeShares n 0 fFirst vecSend) : p.2 = 0 := by
  induction vecSend generalizing fFirst with
  | nil => cases h
  | cons recipient vecSend ih =>
    rcases List.mem_cons.mp h with rfl | h
    · simp
    · exact ih h

theorem forall_feeShares_zero {P : CRecipient × Int → Prop} :
    (∀ p ∈ feeShares n 0 true vecSend, P p) ↔ ∀ recipient ∈ vecSend, P (recipient, 0) := by
  constructor
  · intro h recipient hmem
    have hfst : (feeShares n 0 true vecSend).map Prod.fst = vecSend := feeShares_fst true vecSend
    rw [← hfst] at hmem
    obtain ⟨p, hp, rfl⟩ := List.mem_map.mp hmem
    rw [← share_eq_zero hp]
    exact h p hp
  · intro h p hp
    rw [← Prod.mk.eta (p := p), share_eq_zero hp]
    exact h p.1 (mem_feeShares hp).1

/-- The loop over the payees gives each one what is left of its amount. -/
theorem foldlM_addPayee_eq_ok {fFirst : Bool} :
    (∃ rest, vecSend.foldlM (addPayee dustRelayFee n nFeeRet) (vout, fFirst) = .ok (vout', rest)) ↔
      (∀ p ∈ feeShares n nFeeRet fFirst vecSend, Payable dustRelayFee p) ∧
        vout' = vout ++ (feeShares n nFeeRet fFirst vecSend).map payeeOut := by
  induction vecSend generalizing vout fFirst with
  | nil =>
    constructor
    · rintro ⟨rest, h⟩
      cases pure_eq_ok.mp h
      simp [feeShares]
    · rintro ⟨-, rfl⟩
      exact ⟨fFirst, by simp [feeShares]⟩
  | cons recipient vecSend ih =>
    have hstep : ∀ st, addPayee dustRelayFee n nFeeRet (vout, fFirst) recipient = .ok st ↔
        Payable dustRelayFee (recipient, if recipient.paysFee then nFeeRet.tdiv n +
          if fFirst then nFeeRet.tmod n else 0 else 0) ∧
        st = (vout ++ [payeeOut (recipient, if recipient.paysFee then nFeeRet.tdiv n +
          if fFirst then nFeeRet.tmod n else 0 else 0)], fFirst && !recipient.paysFee) := by
      intro st
      simp only [addPayee, Payable, payeeOut, CRecipient.paysFee]
      by_cases hnull : isNullAssetTxDataScript recipient.scriptPubKey
      · simp [hnull, -bind_pure_comp, eq_comm (b := st)]
      · have hdust : ∀ value, (isDust ⟨value, recipient.scriptPubKey⟩ dustRelayFee &&
            !isScriptTransferAsset recipient.scriptPubKey) = false ↔
              (isAssetScript recipient.scriptPubKey = none →
                getDustThreshold ⟨0, recipient.scriptPubKey⟩ dustRelayFee ≤ value) := by
          intro value
          cases hscript : isAssetScript recipient.scriptPubKey with
          | none => simp [isDust, isScriptTransferAsset, payloadStart, hscript, getDustThreshold]
          | some a => simp [isDust, hscript]
        simp only [hnull, Bool.false_eq_true, if_false, Bool.not_false, Bool.and_true, ite_error_eq_ok,
          Bool.not_eq_true, hdust, Except.ok.injEq, eq_comm (b := st)]
    simp only [List.foldlM_cons, bind_eq_ok, hstep, and_assoc, feeShares, List.forall_mem_cons, List.map_cons]
    constructor
    · rintro ⟨rest, st, hpay, rfl, h⟩
      obtain ⟨hall, rfl⟩ := ih.mp ⟨rest, h⟩
      exact ⟨hpay, hall, by simp⟩
    · rintro ⟨hpay, hall, rfl⟩
      obtain ⟨rest, h⟩ := ih.mpr ⟨hall, List.append_cons ..⟩
      exact ⟨rest, _, hpay, rfl, h⟩

/-- The outputs to the payees are made when each share leaves something that can be sent. -/
theorem payees_eq_ok :
    payees dustRelayFee vecSend n nFeeRet = .ok vout ↔
      (∀ p ∈ feeShares n nFeeRet true vecSend, Payable dustRelayFee p) ∧
        vout = (feeShares n nFeeRet true vecSend).map payeeOut := by
  have hloop : (∃ rest, vecSend.foldlM (addPayee dustRelayFee n nFeeRet) ([], true) = .ok (vout, rest)) ↔ _ :=
    foldlM_addPayee_eq_ok
  rw [List.nil_append] at hloop
  rw [← hloop, payees, bind_eq_ok]
  constructor
  · rintro ⟨⟨vout', rest⟩, h, heq⟩
    obtain rfl := pure_eq_ok.mp heq
    exact ⟨rest, h⟩
  · rintro ⟨rest, h⟩
    exact ⟨(vout, rest), h, rfl⟩

/-- What is sent of an asset goes to the payees, whatever the fee. -/
theorem payeeOut_transferredBy : transferredBy cfg name ((feeShares n nFeeRet true req.vecSend).map payeeOut) =
    sentAmount cfg name req.vecSend := by
  have hfst : (feeShares n nFeeRet true req.vecSend).map Prod.fst = req.vecSend := feeShares_fst true req.vecSend
  rw [sentAmount, transferredBy, List.map_map, ← hfst, List.map_map, hfst]
  rfl

/-! ## The other outputs -/

@[simp] theorem transferredBy_append (vout more : List CTxOut) :
    transferredBy cfg name (vout ++ more) = transferredBy cfg name vout + transferredBy cfg name more := by
  simp [transferredBy]

theorem transferredBy_eq_zero
    (h : ∀ out ∈ vout, transferAssetFromScript cfg out.scriptPubKey = none) : transferredBy cfg name vout = 0 := by
  refine List.sum_eq_zero fun x hx => ?_
  obtain ⟨out, hout, rfl⟩ := List.mem_map.mp hx
  simp [transferAmount, h out hout]

theorem transferredBy_congr (h : vout.map CTxOut.scriptPubKey = vout'.map CTxOut.scriptPubKey) :
    transferredBy cfg name vout = transferredBy cfg name vout' := by
  have hscripts : ∀ l : List CTxOut, transferredBy cfg name l =
      ((l.map CTxOut.scriptPubKey).map (transferAmount cfg name)).sum := by
    intro l
    rw [List.map_map]
    rfl
  rw [hscripts, hscripts, h]

theorem not_transfer_of_short {script : Bytes} (h : script.length ≤ 31) : transferAssetFromScript cfg script = none := by
  have hnone : isAssetScript script = none := if_neg fun hlong => by omega
  simp [transferAssetFromScript, payloadStart, hnone]

/-- The bytes of a destination are those of a `uint160`. -/
def CTxDestination.HasUint160 : CTxDestination → Prop
  | .noDestination => True
  | .keyID id => id.length = 20
  | .scriptID id => id.length = 20

theorem CTxDestination.HasUint160.length_le {dest : CTxDestination} (h : dest.HasUint160) :
    (getScriptForDestination dest).length ≤ 25 := by
  cases dest with
  | noDestination => simp [getScriptForDestination]
  | keyID id => exact (scriptForKeyID_length h).le
  | scriptID id =>
    simp only [CTxDestination.HasUint160] at h
    simp [getScriptForDestination, pushData, opPushdata1, writeLE_length, h]

theorem coinChange_transferredBy {pass : Nat} {nChangePosRequest pos : Option Nat} {nChange nFeeRet fee : Int}
    {scriptChange : Bytes} (hscript : scriptChange.length ≤ 31)
    (h : coinChange env pass nChangePosRequest nChange scriptChange vout nFeeRet = .ok (vout', pos, fee)) :
    transferredBy cfg name vout' = transferredBy cfg name vout := by
  rw [coinChange] at h
  simp only at h
  split_ifs at h with hpos hdust hrange
  · cases h
    rfl
  · cases h
    have hperm := List.perm_insertIdx (⟨nChange, scriptChange⟩ : CTxOut) vout (Nat.not_lt.mp hrange)
    rw [transferredBy, (hperm.map _).sum_eq, List.map_cons, List.sum_cons]
    simp [transferAmount, not_transfer_of_short hscript, transferredBy]
  · cases h
    rfl

/-- An output made for an address that issues or reissues is not a transfer. -/
theorem not_transfer_to {dest : CTxDestination} (hdest : dest.HasUint160) (hne : dest ≠ .noDestination)
    {type : UInt8} (htype : type ≠ hempT) {payload : Bytes} (hmax : payload.length + 4 < opHempAsset.toNat) :
    transferAssetFromScript cfg (appendAsset (getScriptForDestination dest) type payload) = none := by
  have hmax' : payload.length + 4 ≤ 255 := hmax.le.trans (by decide)
  cases dest with
  | noDestination => exact absurd rfl hne
  | keyID id => exact not_transfer_of_appendAsset (scriptForKeyID_length hdest) hmax' htype cfg
  | scriptID id =>
    have hlength : (getScriptForDestination (.scriptID id)).length = 23 := by
      simp [getScriptForDestination, pushData, opPushdata1, writeLE_length, show id.length = 20 from hdest]
    simp [transferAssetFromScript, payloadStart, not_asset_of_scriptID hlength hmax]

/-- The ids of a call are those of a `uint160`, and the names it issues are not longer than the checks
of names let pass. -/
structure WellTyped (node : CreateNode) (req : CreateRequest) : Prop where
  change : ∀ dest, req.coinControl.destChange = some dest → dest.HasUint160
  reserved : ∀ keyID, node.reservedKey = some keyID → keyID.length = 20
  destination : req.destination.HasUint160
  names : ∀ asset ∈ req.assets, asset.strName.length ≤ 62
  reissue : req.reissueAsset.strName.length ≤ 62

/-- Issues and reissues transfer nothing. -/
theorem issueOutputs_transferredBy (htyped : WellTyped node req)
    (h : sendTotals cfg req = .ok totals) : transferredBy cfg name (issueOutputs req) = 0 := by
  simp only [sendTotals, bind_eq_ok, exists_punit, require_eq_ok] at h
  obtain ⟨-, hnew, -, hreissue, -⟩ := h
  have hdest : req.fNewAsset = true ∨ req.fReissueAsset = true → req.destination ≠ .noDestination := by
    rintro (h | h) heq
    · simp [h, heq] at hnew
    · simp [h, heq] at hreissue
  have hmax : opHempAsset.toNat = 192 := rfl
  apply transferredBy_eq_zero
  intro out hout
  rw [issueOutputs] at hout
  by_cases hnew : req.fNewAsset
  · rw [if_pos hnew] at hout
    obtain ⟨asset, hasset, hout⟩ := List.mem_flatMap.mp hout
    have hname := htyped.names asset hasset
    rcases List.mem_append.mp hout with hout | hout
    · split_ifs at hout
      · rw [List.mem_singleton.mp hout]
        refine not_transfer_to htyped.destination (hdest (.inl hnew)) (by decide) ?_
        rw [writeString_length (by simp [ownerTag]; omega)]
        simp [ownerTag]
        omega
      · cases hout
    · rw [List.mem_singleton.mp hout]
      refine not_transfer_to htyped.destination (hdest (.inl hnew)) (by decide) ?_
      have hhash := writeAssetHash_length asset.strIPFSHash
      split_ifs <;> simp [writeString_length (s := asset.strName) (by omega), writeLE_length] <;> omega
  · rw [if_neg hnew] at hout
    split_ifs at hout with hreissue
    · rw [List.mem_singleton.mp hout]
      have hname := htyped.reissue
      refine not_transfer_to htyped.destination (hdest (.inr hreissue)) (by decide) ?_
      have hhash := writeAssetHash_length req.reissueAsset.strIPFSHash
      simp [writeString_length (s := req.reissueAsset.strName) (by omega), writeLE_length]
      omega
    · cases hout

variable {mapAssetValue mapAssetsIn : AssetTotals}

theorem mem_mapAssetChange {p : Bytes × Int} : p ∈ mapAssetChange mapAssetValue mapAssetsIn ↔
    ∃ value amountIn, mapAssetValue[p.1]? = some value ∧ mapAssetsIn[p.1]? = some amountIn ∧ p.2 = amountIn - value := by
  simp only [mapAssetChange, List.mem_filterMap, Option.map_eq_some_iff]
  constructor
  · rintro ⟨asset, hasset, amountIn, hin, rfl⟩
    exact ⟨asset.2, amountIn, TreeMap.mem_toList_iff_getElem?_eq_some.mp hasset, hin, rfl⟩
  · rintro ⟨value, amountIn, hvalue, hin, hp⟩
    exact ⟨(p.1, value), TreeMap.mem_toList_iff_getElem?_eq_some.mpr hvalue, amountIn, hin, Prod.ext rfl hp.symm⟩

end HempCore
