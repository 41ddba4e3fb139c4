import HempCore.Model.CoinSelection
import HempCore.Model.Coins
import HempCore.Model.Construct

/-!
# Building a transaction in the wallet

`CWallet::CreateTransactionAll`: a loop that builds the transaction, asks for its fee and starts
over until the fee is paid. The answers of the fee estimator, one for each pass, the random choices
and the results of signing are parameters. The lock time is left out.
Lines without a file are those of `wallet/wallet.cpp`.
-/

set_option autoImplicit false

namespace HempCore

open Lib (require demand)

/-- script/standard.cpp:292-353 -/
def getScriptForDestination : CTxDestination → Bytes
  | .noDestination => []
  | .keyID id => scriptForKeyID id
  | .scriptID id => opHash160 :: pushData id ++ [opEqual]

/-- A rate is given by the fee it asks for each size. policy/policy.cpp:19-51 -/
def getDustThreshold (txout : CTxOut) (rate : Nat → Int) : Int :=
  if isUnspendable txout.scriptPubKey then 0
  else
    let nSize := 8 + (writeString txout.scriptPubKey).length
    rate (nSize + if (isWitnessProgram txout.scriptPubKey).isSome then 32 + 4 + 1 + 107 / 4 + 4
      else 32 + 4 + 1 + 107 + 4)

def isDust (txout : CTxOut) (rate : Nat → Int) : Bool :=
  (isAssetScript txout.scriptPubKey).isNone && decide (txout.nValue < getDustThreshold txout rate)

/-- `CAmount` is an `int64_t`: a sum that leaves its range comes back in at the other end.
amount.h:13 -/
def toCAmount (n : Int) : Int := n.bmod (2 ^ 64)

/-- wallet/wallet.h:164-169 -/
structure CRecipient where
  scriptPubKey : Bytes
  nAmount : Int
  fSubtractFeeFromAmount : Bool

/-- The arguments of a call. -/
structure CreateRequest where
  vecSend : List CRecipient
  nChangePosRequest : Option Nat
  coinControl : CCoinControl
  fNewAsset : Bool
  assets : List CNewAsset
  destination : CTxDestination
  fTransferAsset : Bool
  fReissueAsset : Bool
  reissueAsset : CReissueAsset
  assetType : AssetType
  sign : Bool

/-- The chain, the wallet and the key that `CreateNewChangeAddress` reserves, as a call finds them. -/
structure CreateNode where
  cfg : Config
  passets : AssetView
  wallet : CWallet
  reservedKey : Option Bytes

/-- The fee rates, the answers of the fee estimator and what is drawn and signed during a call; passes
are counted from `0`. -/
structure CreateAnswers where
  dustRelayFee : Nat → Int
  discardRate : Nat → Int
  nFeeNeeded : Nat → Int
  minRelayFee : Nat → Int
  feeNeededWithChange : Nat → Int
  coinChoices : Nat → Nat → KnapsackChoices
  assetChoices : Nat → Bytes → Nat → KnapsackChoices
  shuffleCoins : Nat → List CInputCoin → List CInputCoin
  shuffle_perm : ∀ pass coins, (shuffleCoins pass coins).Perm coins
  randInt : Nat → Nat
  produceSignature : CInputCoin → Bool
  weightBelowLimit : Bool
  withinMempoolChainLimits : Bool

structure CreateEnv extends CreateNode, CreateAnswers

/-- The calls that choose assets. L3389, 3470 -/
def CreateRequest.usesAssets (req : CreateRequest) : Bool :=
  req.fTransferAsset || req.fReissueAsset || req.assetType == .SUB || req.assetType == .UNIQUE ||
    req.assetType == .MSGCHANNEL || req.assetType == .SUB_QUALIFIER || req.assetType == .RESTRICTED

/-! ## The amounts to send -/

/-- `nValue`, `mapAssetValue` and `nSubtractFeeFromAmount`. -/
structure SendTotals where
  nValue : Int
  mapAssetValue : AssetTotals
  nSubtractFeeFromAmount : Nat

/-- L3387-3418 -/
def addRecipient (cfg : Config) (req : CreateRequest) (st : SendTotals) (recipient : CRecipient) :
    Except String SendTotals := do
  let mapAssetValue ←
    if req.usesAssets then
      match transferAssetFromScript cfg recipient.scriptPubKey with
      | none => pure st.mapAssetValue
      | some (assetTransfer, _) => do
        require (!decide (assetTransfer.nAmount ≤ 0)) "Asset Transfer amounts must be greater than 0"
        pure (st.mapAssetValue.insert assetTransfer.strName
          (toCAmount (st.mapAssetValue.getD assetTransfer.strName 0 + assetTransfer.nAmount)))
    else pure st.mapAssetValue
  require (!(decide (st.nValue < 0) || decide (recipient.nAmount < 0)))
    "Transaction amounts must not be negative"
  pure ⟨toCAmount (st.nValue + recipient.nAmount), mapAssetValue,
    st.nSubtractFeeFromAmount + if recipient.fSubtractFeeFromAmount then 1 else 0⟩

/-- L3366-3424 -/
def sendTotals (cfg : Config) (req : CreateRequest) : Except String SendTotals := do
  require (cfg.dep.assets || !(req.fTransferAsset || req.fNewAsset || req.fReissueAsset)) ""
  require (!(req.fNewAsset && (req.assets.isEmpty || req.destination == .noDestination)))
    ("Tried creating a new asset transaction and the asset was null or the destination was invalid")
  require (!((req.fNewAsset && req.fTransferAsset) || (req.fReissueAsset && req.fTransferAsset) ||
    (req.fReissueAsset && req.fNewAsset))) "Only one type of asset transaction allowed per transaction"
  require (!(req.fReissueAsset && (req.reissueAsset.strName.isEmpty ||
      decide (req.reissueAsset.nAmount < 0) || req.destination == .noDestination)))
    "Tried reissuing an asset and the reissue data was null or the destination was invalid"
  let totals ← req.vecSend.foldlM (addRecipient cfg req) ⟨0, ∅, 0⟩
  require (!req.vecSend.isEmpty) "Transaction must have at least one recipient"
  pure totals

/-! ## The outputs -/

/-- One payee; the first one that pays the fee pays the remainder. L3524-3565 -/
def addPayee (dustRelayFee : Nat → Int) (nSubtractFeeFromAmount : Nat) (nFeeRet : Int)
    (st : List CTxOut × Bool) (recipient : CRecipient) : Except String (List CTxOut × Bool) :=
  let (vout, fFirst) := st
  if isNullAssetTxDataScript recipient.scriptPubKey then do
    require (recipient.nAmount == 0) "assert(txout.nValue == 0)"
    pure (vout ++ [⟨recipient.nAmount, recipient.scriptPubKey⟩], fFirst)
  else
    let fee : Int :=
      if recipient.fSubtractFeeFromAmount then
        nFeeRet.tdiv nSubtractFeeFromAmount + if fFirst then nFeeRet.tmod nSubtractFeeFromAmount else 0
      else 0
    let txout : CTxOut := ⟨recipient.nAmount - fee, recipient.scriptPubKey⟩
    if isDust txout dustRelayFee && !isScriptTransferAsset recipient.scriptPubKey then
      .error (if recipient.fSubtractFeeFromAmount && decide (0 < nFeeRet) then
          if txout.nValue < 0 then "The transaction amount is too small to pay the fee"
          else "The transaction amount is too small to send after the fee has been deducted"
        else "Transaction amount too small")
    else .ok (vout ++ [txout], fFirst && !recipient.fSubtractFeeFromAmount)

def payees (dustRelayFee : Nat → Int) (vecSend : List CRecipient) (nSubtractFeeFromAmount : Nat)
    (nFeeRet : Int) : Except String (List CTxOut) := do
  let (vout, _) ← vecSend.foldlM (addPayee dustRelayFee nSubtractFeeFromAmount nFeeRet) ([], true)
  pure vout

/-- `CAssetTransfer(name, amount).ConstructTransaction(script)` in an output of value `0`. -/
def assetChangeOut (name : Bytes) (amount : Int) (script : Bytes) : CTxOut :=
  ⟨0, CAssetTransfer.constructTransaction ⟨name, amount, [], 0⟩ script⟩

/-- Looks for a coin of the asset whose address satisfies the verifier.
L3634-3664 -/
def findChangeCoin (node : CreateNode) (name verifier : Bytes) (found : Option CTxOut)
    (coin : COutPoint × CTxOut) : Except String (Option CTxOut) :=
  if found.isSome || (isAssetScript coin.2.scriptPubKey).isNone then pure found
  else do
    let outputData ← demand (getAssetData node.cfg coin.2.scriptPubKey) "Failed to get asset data from script"
    pure (if outputData.assetName = name ∧
        (contextualCheckVerifierString node.passets verifier outputData.address).toBool then some coin.2
      else none)

section

variable (node : CreateNode) (setAssets : CoinSet)

/-- The address of a coin that may receive the change of a restricted asset. -/
def restrictedChangeScript (name verifier : Bytes) :
    Except String Bytes := do
  let found ← setAssets.toList.foldlM (findChangeCoin node name verifier) none
  let txout ← demand found "Failed to find restricted asset change address from inputs"
  pure (getScriptForDestination ((extractDestination node.cfg txout.scriptPubKey).getD .noDestination))

/-- The script that receives the change of an asset. L3609-3683 -/
def assetChangeScript (assetScriptChange name : Bytes) :
    Except String Bytes :=
  if isAssetNameAnRestricted name then do
    let verifier ← demand (node.passets.getAssetVerifierStringIfExists name false)
      "Verifier String for asset trasnfer, not found"
    let dest ← demand (extractDestination node.cfg assetScriptChange)
      "Failed to extract destination from change script"
    if (contextualCheckVerifierString node.passets verifier (encodeDestination node.cfg dest)).toBool then
      pure assetScriptChange
    else restrictedChangeScript node setAssets name verifier
  else pure assetScriptChange

/-- The change of one asset. -/
def addAssetChange (assetScriptChange : Bytes)
    (vout : List CTxOut) (assetChange : Bytes × Int) : Except String (List CTxOut) :=
  if 0 < assetChange.2 then do
    let script ← assetChangeScript node setAssets assetScriptChange assetChange.1
    pure (vout ++ [assetChangeOut assetChange.1 assetChange.2 script])
  else pure vout

end

/-- The change of each asset sent, as far as `mapAssetsIn` knows it. L3598-3605 -/
def mapAssetChange (mapAssetValue mapAssetsIn : AssetTotals) : List (Bytes × Int) :=
  mapAssetValue.toList.filterMap fun asset =>
    mapAssetsIn[asset.1]?.map fun amountIn => (asset.1, amountIn - asset.2)

variable (env : CreateEnv)

/-- The outputs with the change in them, its place, and the fee with a change too small to be made.
L3693-3725 -/
def coinChange (pass : Nat) (nChangePosRequest : Option Nat) (nChange : Int)
    (scriptChange : Bytes) (vout : List CTxOut) (nFeeRet : Int) :
    Except String (List CTxOut × Option Nat × Int) :=
  if 0 < nChange then
    let newTxOut : CTxOut := ⟨nChange, scriptChange⟩
    if isDust newTxOut env.discardRate then .ok (vout, none, nFeeRet + nChange)
    else
      let pos := nChangePosRequest.getD (env.randInt pass % (vout.length + 1))
      if vout.length < pos then .error "Change index out of range"
      else .ok (vout.insertIdx pos newTxOut, some pos, nFeeRet)
  else .ok (vout, none, nFeeRet)

/-- The outputs that issue or reissue. L3727-3757 -/
def issueOutputs (req : CreateRequest) : List CTxOut :=
  if req.fNewAsset then
    req.assets.flatMap fun asset =>
      (if req.assetType != .UNIQUE && req.assetType != .MSGCHANNEL && req.assetType != .QUALIFIER &&
          req.assetType != .SUB_QUALIFIER && req.assetType != .RESTRICTED then
        [⟨0, asset.constructOwnerTransaction (getScriptForDestination req.destination)⟩]
      else []) ++ [⟨0, asset.constructTransaction (getScriptForDestination req.destination)⟩]
  else if req.fReissueAsset then
    [⟨0, req.reissueAsset.constructTransaction (getScriptForDestination req.destination)⟩]
  else []

/-! ## The loop -/

/-- What the passes hand on. `mapAssetsIn` is not among it: it is a local of the loop body. -/
structure LoopState where
  nFeeRet : Int
  pick_new_inputs : Bool
  setCoins : CoinSet
  nValueIn : Int
  setAssets : CoinSet

/-- The coins of a set, in its order. -/
def CoinSet.coins (s : CoinSet) : List CInputCoin := s.toList.map fun p => ⟨p.1, p.2⟩

/-- A transaction with the coins its inputs spend. -/
structure CreatedTransaction where
  inputs : List CInputCoin
  vout : List CTxOut
  nFeeRet : Int

/-- What stays the same in all passes. -/
structure LoopSetup where
  totals : SendTotals
  vAvailableCoins : List COutput
  mapAssetCoins : Std.TreeMap Bytes (List COutput)
  scriptChange : Bytes
  assetScriptChange : Bytes

/-- What the coins have to reach: the fee is added when no recipient pays it. L3520-3523 -/
def LoopSetup.nValueToSelect (setup : LoopSetup) (nFeeRet : Int) : Int :=
  toCAmount (setup.totals.nValue + if setup.totals.nSubtractFeeFromAmount = 0 then nFeeRet else 0)

/-- The inputs of a pass and `mapAssetsIn`. L3567-3587 -/
def chooseInputs (req : CreateRequest) (setup : LoopSetup) (pass : Nat)
    (st : LoopState) : Except String (LoopState × AssetTotals) :=
  if st.pick_new_inputs then do
    let (setCoins, nValueIn) ← demand (env.wallet.selectCoins setup.vAvailableCoins
      (setup.nValueToSelect st.nFeeRet) (env.coinChoices pass) req.coinControl) "Insufficient funds"
    if env.cfg.dep.assets then do
      let (setAssets, mapAssetsIn) ← demand (env.wallet.selectAssets env.cfg setup.mapAssetCoins
        setup.totals.mapAssetValue (env.assetChoices pass)) "Insufficient asset funds"
      pure ({ st with setCoins := setCoins, nValueIn := nValueIn, setAssets := setAssets }, mapAssetsIn)
    else pure ({ st with setCoins := setCoins, nValueIn := nValueIn }, ∅)
  else pure (st, ∅)

/-- The outputs that give back what was chosen of the assets above the amounts sent. L3600-3691 -/
def assetChangeOutputs (node : CreateNode) (setup : LoopSetup) (setAssets : CoinSet)
    (mapAssetsIn : AssetTotals) : Except String (List CTxOut) :=
  if node.cfg.dep.assets then
    (mapAssetChange setup.totals.mapAssetValue mapAssetsIn).foldlM
      (addAssetChange node setAssets setup.assetScriptChange) []
  else pure []

/-- Adds to the value of the change. -/
def addToChange (vout : List CTxOut) (pos : Nat) (extra : Int) : List CTxOut :=
  vout.modify pos fun out => { out with nValue := out.nValue + extra }

/-- What a pass has built: the outputs, the place of the change and the fee; and which outputs are
asset change. -/
structure BuiltPass where
  st : LoopState
  vout : List CTxOut
  nChangePosInOut : Option Nat
  nFeeRet : Int
  assetChange : List CTxOut

/-- One pass up to the question for the fee. L3507-3757 -/
def buildPass (req : CreateRequest) (setup : LoopSetup) (pass : Nat)
    (st : LoopState) : Except String BuiltPass := do
  let vout ← payees env.dustRelayFee req.vecSend setup.totals.nSubtractFeeFromAmount st.nFeeRet
  let (st, mapAssetsIn) ← chooseInputs env req setup pass st
  let nChange := toCAmount (st.nValueIn - setup.nValueToSelect st.nFeeRet)
  let assetChange ← assetChangeOutputs env.toCreateNode setup st.setAssets mapAssetsIn
  let (vout, pos, nFeeRet) ← coinChange env pass req.nChangePosRequest nChange setup.scriptChange
    (vout ++ assetChange) st.nFeeRet
  pure ⟨st, vout ++ if env.cfg.dep.assets then issueOutputs req else [], pos, nFeeRet, assetChange⟩

/-- The inputs in the order of the transaction. -/
def CreateEnv.inputs (pass : Nat) (st : LoopState) : List CInputCoin :=
  env.shuffleCoins pass st.setCoins.coins ++
    if env.cfg.dep.assets then env.shuffleCoins pass st.setAssets.coins else []

/-- What follows a pass: another one, or the end of the loop. -/
inductive PassResult where
  | again (st : LoopState)
  | done (tx : CreatedTransaction)

/-- The decision at the end of a pass. L3791-3867 -/
def decidePass (setup : LoopSetup) (pass : Nat) (built : BuiltPass) :
    Except String PassResult := do
  let nFeeNeeded := env.nFeeNeeded pass
  let nFeeRet := built.nFeeRet
  let noSubtract := setup.totals.nSubtractFeeFromAmount = 0
  let inputs := env.inputs pass built.st
  require (!decide (nFeeNeeded < env.minRelayFee pass)) "Transaction too large for fee policy"
  if nFeeNeeded ≤ nFeeRet then
    let minimum_value_for_change := getDustThreshold ⟨0, setup.scriptChange⟩ env.discardRate
    if built.nChangePosInOut.isNone ∧ noSubtract ∧ built.st.pick_new_inputs ∧
        env.feeNeededWithChange pass + minimum_value_for_change ≤ nFeeRet then
      pure (.again { built.st with pick_new_inputs := false, nFeeRet := env.feeNeededWithChange pass })
    else
      match built.nChangePosInOut with
      | some pos =>
        if nFeeNeeded < nFeeRet ∧ noSubtract then
          pure (.done ⟨inputs, addToChange built.vout pos (nFeeRet - nFeeNeeded), nFeeNeeded⟩)
        else pure (.done ⟨inputs, built.vout, nFeeRet⟩)
      | none => pure (.done ⟨inputs, built.vout, nFeeRet⟩)
  else if !built.st.pick_new_inputs then .error "Transaction fee and change calculation failed"
  else
    let more : PassResult := .again { built.st with
      pick_new_inputs := decide noSubtract, nFeeRet := nFeeNeeded }
    match built.nChangePosInOut with
    | some pos =>
      let additionalFeeNeeded := nFeeNeeded - nFeeRet
      if noSubtract ∧ MIN_FINAL_CHANGE + additionalFeeNeeded ≤
          (built.vout[pos]?.map CTxOut.nValue).getD 0 then
        pure (.done ⟨inputs, addToChange built.vout pos (-additionalFeeNeeded), nFeeNeeded⟩)
      else pure more
    | none => pure more

/-- The loop, over as many passes as it takes, with what the last one has built. L3511-3868 -/
def feeLoop (env : CreateEnv) (req : CreateRequest) (setup : LoopSetup) :
    Nat → Nat → LoopState → Except String (BuiltPass × CreatedTransaction)
  | 0, _, _ => .error "the loop goes on"
  | fuel + 1, pass, st => do
    let built ← buildPass env req setup pass st
    match ← decidePass env setup pass built with
    | .again st => feeLoop env req setup fuel (pass + 1) st
    | .done tx => pure (built, tx)

/-! ## The reserved key -/

/-- The key that `CreateNewChangeAddress` takes out of the pool; `returned` is a key that is in the pool
again. L4521-4554 -/
inductive CReserveKey where
  | empty
  | reserved (keyID : Bytes)
  | returned (keyID : Bytes)
deriving DecidableEq

/-- L4547-4554 -/
def CReserveKey.returnKey : CReserveKey → CReserveKey
  | .reserved keyID => .returned keyID
  | key => key

/-- A key is reserved when the coin control gives no change address. L3481-3492 -/
def getReservedKey (node : CreateNode) (req : CreateRequest) : CReserveKey :=
  match req.coinControl.destChange, node.reservedKey with
  | none, some keyID => .reserved keyID
  | _, _ => .empty

/-! ## The call -/

/-- What is fixed before the loop: the amounts, the coins that are available and the scripts for the
change. L3366-3505 -/
def loopSetup (node : CreateNode) (req : CreateRequest) : Except String LoopSetup := do
  let totals ← sendTotals node.cfg req
  let available := availableCoinsAll node.cfg node.passets node.wallet req.coinControl
    (req.usesAssets && node.cfg.dep.assets)
  let scriptChange ← match req.coinControl.destChange with
    | some dest => pure (getScriptForDestination dest)
    | none => do
      let keyID ← demand node.reservedKey "Keypool ran out, please call keypoolrefill first"
      pure (getScriptForDestination (.keyID keyID))
  let assetScriptChange := match req.coinControl.assetDestChange with
    | some dest => getScriptForDestination dest
    | none => scriptChange
  pure ⟨totals, available.1, available.2, scriptChange, assetScriptChange⟩

/-- What a call leaves behind: its transaction, the pass that built it and the reserved key. -/
structure CompletedCall where
  tx : CreatedTransaction
  built : BuiltPass
  reservekey : CReserveKey

/-- The reserved key is given back when there is no change in coins. L3360-3942 -/
def createTransactionAll (req : CreateRequest) (fuel : Nat) :
    Except String CompletedCall := do
  let setup ← loopSetup env.toCreateNode req
  let (built, tx) ← feeLoop env req setup fuel 0 ⟨0, true, ∅, 0, ∅⟩
  let reservekey := getReservedKey env.toCreateNode req
  let reservekey := if built.nChangePosInOut.isNone then reservekey.returnKey else reservekey
  require (!req.sign || tx.inputs.all env.produceSignature) "Signing transaction failed"
  require env.weightBelowLimit "Transaction too large"
  require (!env.wallet.fRejectLongChains || env.withinMempoolChainLimits)
    "Transaction has too long of a mempool chain"
  pure ⟨tx, built, reservekey⟩

end HempCore
