import HempCore.Lib.SubsetSum
import HempCore.Model.CheckTxAssets

/-!
# Coin selection of the wallet

Which outputs of the wallet are available (`AvailableCoinsAll`) and how coins and assets are chosen
among them. The shuffles and the random bits of the subset search are parameters.
Lines without a file are those of `wallet/wallet.cpp`.
-/

set_option autoImplicit false

namespace HempCore

open Std

/-! ## The wallet -/

/-- The values `IsMine` returns. script/ismine.h:18-28 -/
inductive IsMineType where
  | ISMINE_NO
  | ISMINE_WATCH_UNSOLVABLE
  | ISMINE_WATCH_SOLVABLE
  | ISMINE_SPENDABLE
deriving DecidableEq

/-- A transaction of the wallet, with what the wallet asks the chain and the mempool about it. -/
structure CWalletTx where
  tx : CTransaction
  nDepth : Int
  checkFinalTx : Bool
  blocksToMaturity : Nat
  inMempool : Bool
  isTrusted : Bool
  replacesTxid : Bool
  replacedByTxid : Bool
  isFromMe : Bool

/-- The wallet, its transactions in the order of their ids. -/
structure CWallet where
  mapWallet : List CWalletTx
  isLockedCoin : COutPoint → Bool
  isSpent : COutPoint → Bool
  isMine : CTxOut → IsMineType
  bSpendZeroConfChange : Bool
  fRejectLongChains : Bool
  nMaxChainLength : Nat
  transactionWithinChainLimit : Uint256 → Nat → Bool
  distinct : (mapWallet.map (·.tx.hash)).Nodup

/-- wallet/wallet.h:507-534 -/
structure CInputCoin where
  outpoint : COutPoint
  txout : CTxOut
deriving DecidableEq

/-- An output of the wallet. wallet/wallet.h:536-562 -/
structure COutput where
  coin : CInputCoin
  nDepth : Int
  fSpendable : Bool
  isFromMe : Bool

/-- `CNoDestination` is the missing change address. wallet/coincontrol.h:17-43, 129-130 -/
structure CCoinControl where
  destChange : Option CTxDestination
  assetDestChange : Option CTxDestination
  fAllowOtherInputs : Bool
  fAllowWatchOnly : Bool
  setSelected : List COutPoint
  setAssetsSelected : List COutPoint

/-! ## Available coins -/

section Available

variable (cfg : Config) (passets : AssetView) (wallet : CWallet) (coinControl : CCoinControl)

/-- With `fOnlySafe` and the default depths. L2451-2503 -/
def CWalletTx.isAvailable (pcoin : CWalletTx) : Bool :=
  let safeTx := pcoin.isTrusted &&
    !(pcoin.nDepth == 0 && (pcoin.replacesTxid || pcoin.replacedByTxid))
  pcoin.checkFinalTx && !(pcoin.tx.isCoinBase && decide (0 < pcoin.blocksToMaturity)) &&
    decide (0 ≤ pcoin.nDepth) && !(pcoin.nDepth == 0 && !pcoin.inMempool) && safeTx &&
    decide (pcoin.nDepth ≤ 9999999)

/-- The outputs of the transactions that pass. -/
def CWallet.outputs : List (CWalletTx × CInputCoin) :=
  (wallet.mapWallet.filter CWalletTx.isAvailable).flatMap fun pcoin =>
    pcoin.tx.vout.zipIdx.map fun p => (pcoin, ⟨⟨pcoin.tx.hash, p.2⟩, p.1⟩)

/-- L2507-2530 -/
def passesCoinControl (coin : CInputCoin) : Bool :=
  let isAssetScript := (isAssetScript coin.txout.scriptPubKey).isSome
  !(!isAssetScript && !coinControl.setSelected.isEmpty && !coinControl.fAllowOtherInputs &&
      !coinControl.setSelected.contains coin.outpoint) &&
    !(isAssetScript && !coinControl.setAssetsSelected.isEmpty && !coinControl.fAllowOtherInputs &&
      !coinControl.setAssetsSelected.contains coin.outpoint) &&
    !wallet.isLockedCoin coin.outpoint && !wallet.isSpent coin.outpoint &&
    wallet.isMine coin.txout != .ISMINE_NO

/-- L2532-2536 -/
def CWallet.toOutput (pcoin : CWalletTx) (coin : CInputCoin) : COutput :=
  ⟨coin, pcoin.nDepth, wallet.isMine coin.txout == .ISMINE_SPENDABLE ||
    (coinControl.fAllowWatchOnly && wallet.isMine coin.txout == .ISMINE_WATCH_SOLVABLE), pcoin.isFromMe⟩

/-- The name under which an asset output is available. L2541-2561 -/
def availableAssetName (s : Bytes) : Option Bytes := do
  let data ← getAssetData cfg s
  if isAssetNameAnRestricted data.assetName &&
      passets.checkForAddressRestriction data.assetName data.address then none
  else some data.assetName

/-- One output that the coin control lets pass. L2538-2609 -/
def addAvailable (fGetAssets : Bool) (st : List COutput × TreeMap Bytes (List COutput))
    (p : CWalletTx × CInputCoin) : List COutput × TreeMap Bytes (List COutput) :=
  let output := wallet.toOutput coinControl p.1 p.2
  if (isAssetScript p.2.txout.scriptPubKey).isSome then
    if fGetAssets && cfg.dep.assets then
      match availableAssetName cfg passets p.2.txout.scriptPubKey with
      | none => st
      | some name => (st.1, st.2.insert name (st.2.getD name [] ++ [output]))
    else st
  else (st.1 ++ [output], st.2)

/-- Both results of `AvailableCoinsAll`; the limits on sums and counts are not set by its callers
here. L2434-2617 -/
def availableCoinsAll (fGetAssets : Bool) : List COutput × TreeMap Bytes (List COutput) :=
  (wallet.outputs.filter fun p => passesCoinControl wallet coinControl p.2).foldl
    (addAvailable cfg passets wallet coinControl fGetAssets) ([], ∅)

end Available

/-! ## The subset search -/

/-- amount.h:16, wallet/wallet.h:67-69 -/
def CENT : Int := 1000000
def MIN_CHANGE : Int := CENT
def MIN_FINAL_CHANGE : Int := MIN_CHANGE / 2

/-- The locals of `ApproximateBestAssetSubset`. -/
structure SubsetSearch where
  nTotal : Int
  vfIncluded : List Bool
  fReachedTarget : Bool
  vfBest : List Bool
  nBest : Int

section

variable (values : List Int) (nTargetValue : Int)

/-- One turn of the inner loop. L2795-2819 -/
def SubsetSearch.step (includes : SubsetSearch → Nat → Bool)
    (st : SubsetSearch) (i : Nat) : SubsetSearch :=
  if includes st i then
    let nTotal := st.nTotal + values.getD i 0
    let vfIncluded := st.vfIncluded.set i true
    if nTargetValue ≤ nTotal then
      { nTotal := nTotal - values.getD i 0
        vfIncluded := vfIncluded.set i false
        fReachedTarget := true
        vfBest := if nTotal < st.nBest then vfIncluded else st.vfBest
        nBest := if nTotal < st.nBest then nTotal else st.nBest }
    else { st with nTotal := nTotal, vfIncluded := vfIncluded }
  else st

/-- The first pass draws the coins, the second one takes those left out. -/
def SubsetSearch.pass (includes : SubsetSearch → Nat → Bool)
    (st : SubsetSearch) : SubsetSearch :=
  (List.range values.length).foldl (SubsetSearch.step values nTargetValue includes) st

/-- One repetition. L2788-2822 -/
def SubsetSearch.repetition (randbool : Nat → Bool)
    (st : SubsetSearch) : SubsetSearch :=
  let st := { st with
    nTotal := 0, vfIncluded := List.replicate values.length false, fReachedTarget := false }
  let st := st.pass values nTargetValue fun _ i => randbool i
  if st.fReachedTarget then st
  else st.pass values nTargetValue fun st i => !st.vfIncluded.getD i false

end

/-- `ApproximateBestSubset` is the same function over coins. L2733-2823 -/
def approximateBestAssetSubset (values : List Int) (nTotalLower nTargetValue : Int)
    (randbool : Nat → Nat → Bool) : List Bool × Int :=
  let start : SubsetSearch := ⟨0, [], false, List.replicate values.length true, nTotalLower⟩
  let st := (List.range 1000).foldl (fun st nRep =>
    if st.nBest ≠ nTargetValue then st.repetition values nTargetValue (randbool nRep) else st) start
  (st.vfBest, st.nBest)

/-! ## Selection by confirmations -/

/-- What one call draws at random. -/
structure KnapsackChoices where
  shuffle : List COutput → List COutput
  perm : ∀ vCoins, (shuffle vCoins).Perm vCoins
  randbool : Nat → Nat → Nat → Bool

/-- `nConfMine`, `nConfTheirs` and `nMaxAncestors`. -/
structure MinConf where
  nConfMine : Int
  nConfTheirs : Int
  nMaxAncestors : Nat

/-- The seven attempts. L2984-2990, 3212-3218 -/
def CWallet.attempts (wallet : CWallet) : List MinConf :=
  [⟨1, 6, 0⟩, ⟨1, 1, 0⟩] ++
    (if wallet.bSpendZeroConfChange then
      [⟨0, 1, 2⟩, ⟨0, 1, min 4 (wallet.nMaxChainLength / 3)⟩, ⟨0, 1, wallet.nMaxChainLength / 2⟩,
        ⟨0, 1, wallet.nMaxChainLength⟩] else []) ++
    (if wallet.bSpendZeroConfChange && !wallet.fRejectLongChains then [⟨0, 1, 2 ^ 64 - 1⟩] else [])

/-- L3041-3050 -/
def CWallet.isEligible (wallet : CWallet) (conf : MinConf) (output : COutput) : Bool :=
  output.fSpendable && !decide (output.nDepth < if output.isFromMe then conf.nConfMine else conf.nConfTheirs) &&
    wallet.transactionWithinChainLimit output.coin.outpoint.hash conf.nMaxAncestors

/-- The locals of the loop over the coins: the smaller ones, and the least of the larger ones. -/
structure Candidates where
  vValue : List (CInputCoin × Int)
  nTotalLower : Int
  coinLowestLarger : Option (CInputCoin × Int)

/-- The loop over the coins; a coin of just the target ends it. L3095-3110 -/
def scanCandidates (nTargetValue : Int) :
    Candidates → List (CInputCoin × Int) → (CInputCoin × Int) ⊕ Candidates
  | st, [] => .inr st
  | st, coin :: coins =>
    if coin.2 = nTargetValue then .inl coin
    else if coin.2 < nTargetValue + MIN_CHANGE then
      scanCandidates nTargetValue
        { st with vValue := st.vValue ++ [coin], nTotalLower := st.nTotalLower + coin.2 } coins
    else
      scanCandidates nTargetValue
        { st with coinLowestLarger := match st.coinLowestLarger with
          | none => some coin
          | some lowest => if coin.2 < lowest.2 then some coin else some lowest } coins

/-- The search, made again for a sum that leaves a change. L3137-3144 -/
def bestSubset (values : List Int) (nTotalLower nTargetValue : Int)
    (randbool : Nat → Nat → Nat → Bool) : List Bool × Int :=
  let best := approximateBestAssetSubset values nTotalLower nTargetValue (randbool 0)
  if best.2 ≠ nTargetValue ∧ nTargetValue + MIN_CHANGE ≤ nTotalLower then
    approximateBestAssetSubset values nTotalLower (nTargetValue + MIN_CHANGE) (randbool 1)
  else best

/-- The choice among the candidates. L3112-3170 -/
def chooseCandidates (nTargetValue : Int) (randbool : Nat → Nat → Nat → Bool) (st : Candidates) :
    Option (List (CInputCoin × Int)) :=
  if st.nTotalLower = nTargetValue then some st.vValue
  else if st.nTotalLower < nTargetValue then st.coinLowestLarger.map fun coin => [coin]
  else
    let vValue := st.vValue.mergeSort fun a b => decide (b.2 ≤ a.2)
    let best := bestSubset (vValue.map (·.2)) st.nTotalLower nTargetValue randbool
    match st.coinLowestLarger with
    | some coin =>
      if (best.2 ≠ nTargetValue ∧ best.2 < nTargetValue + MIN_CHANGE) ∨ coin.2 ≤ best.2 then some [coin]
      else some (Lib.chosen vValue best.1)
    | none => some (Lib.chosen vValue best.1)

/-- `std::set<CInputCoin>`. -/
abbrev CoinSet := TreeMap COutPoint CTxOut

/-- `setCoinsRet.insert(coin); nValueRet += amount` -/
def insertCoins (coins : List (CInputCoin × Int)) : CoinSet × Int :=
  coins.foldl (fun (setCoinsRet, nValueRet) coin =>
    (setCoinsRet.insertIfNew coin.1.outpoint coin.1.txout, nValueRet + coin.2)) (∅, 0)

section

variable (wallet : CWallet) (amount : CTxOut → Option Int)

/-- The coins that a call considers, with their amounts. L3041-3093 -/
def CWallet.offers (conf : MinConf)
    (vCoins : List COutput) : List (CInputCoin × Int) :=
  vCoins.filterMap fun output =>
    if wallet.isEligible conf output then (amount output.coin.txout).map fun a => (output.coin, a) else none

/-- `SelectCoinsMinConf` and `SelectAssetsMinConf`, which differ in the amount of a coin alone; a coin
without one is passed over. L2826-2930, 3027-3173 -/
def CWallet.selectMinConf (nTargetValue : Int)
    (conf : MinConf) (choices : KnapsackChoices) (vCoins : List COutput) : Option (CoinSet × Int) :=
  match scanCandidates nTargetValue ⟨[], 0, none⟩
      (wallet.offers amount conf (choices.shuffle vCoins)) with
  | .inl coin => some (insertCoins [coin])
  | .inr st => (chooseCandidates nTargetValue choices.randbool st).map insertCoins

/-- The attempts in order, up to the first that succeeds. -/
def CWallet.selectByAttempts (nTargetValue : Int)
    (choices : Nat → KnapsackChoices) (vCoins : List COutput) : Option (CoinSet × Int) :=
  wallet.attempts.zipIdx.findSome? fun p =>
    wallet.selectMinConf amount nTargetValue p.1 (choices p.2) vCoins

end

/-! ## Coins and assets -/

/-- The coin control lists what must be spent; what the wallet does not know is left out.
L2949-2967 -/
def CWallet.presetCoins (wallet : CWallet) (selected : List COutPoint) : Option (CoinSet × Int) :=
  selected.foldlM (fun (setPresetCoins, nValueFromPresetInputs) outpoint =>
    match wallet.mapWallet.find? fun pcoin => pcoin.tx.hash == outpoint.hash with
    | none => some (setPresetCoins, nValueFromPresetInputs)
    | some pcoin => do
      let txout ← pcoin.tx.vout[outpoint.n]?
      some (setPresetCoins.insertIfNew outpoint txout, nValueFromPresetInputs + txout.nValue)) (∅, 0)

/-- A failure of all attempts is a failure of the call. L2932-2999 -/
def CWallet.selectCoins (wallet : CWallet) (vAvailableCoins : List COutput) (nTargetValue : Int)
    (choices : Nat → KnapsackChoices) (coinControl : CCoinControl) : Option (CoinSet × Int) :=
  if !coinControl.setSelected.isEmpty && !coinControl.fAllowOtherInputs then
    let all := insertCoins ((vAvailableCoins.filter (·.fSpendable)).map fun out =>
      (out.coin, out.coin.txout.nValue))
    if nTargetValue ≤ all.2 then some all else none
  else do
    let (setPresetCoins, nValueFromPresetInputs) ← wallet.presetCoins coinControl.setSelected
    let vCoins := vAvailableCoins.filter fun out => !setPresetCoins.contains out.coin.outpoint
    let (setCoinsRet, nValueRet) ←
      (if nTargetValue ≤ nValueFromPresetInputs then some (∅, 0)
      else wallet.selectByAttempts (fun txout => some txout.nValue)
        (nTargetValue - nValueFromPresetInputs) choices vCoins : Option (CoinSet × Int))
    some (setPresetCoins.foldl (fun s outpoint txout => s.insertIfNew outpoint txout) setCoinsRet,
      nValueRet + nValueFromPresetInputs)

/-- The amount of an asset output. L3056-3093 -/
def assetAmount (cfg : Config) (txout : CTxOut) : Option Int :=
  (getAssetData cfg txout.scriptPubKey).map (·.nAmount)

/-- One turn of `SelectAssets`. L3184-3225 -/
def CWallet.selectAsset (wallet : CWallet) (cfg : Config) (mapAssetTargetValue : AssetTotals)
    (choices : Bytes → Nat → KnapsackChoices) (st : CoinSet × AssetTotals)
    (assetVector : Bytes × List COutput) : Option (CoinSet × AssetTotals) :=
  match mapAssetTargetValue[assetVector.1]? with
  | none => some st
  | some nTempTargetValue =>
    if nTempTargetValue ≤ 0 then some st
    else do
      let (tempCoinsRet, nTempAmountRet) ← wallet.selectByAttempts (assetAmount cfg) nTempTargetValue
        (choices assetVector.1) assetVector.2
      some (tempCoinsRet.foldl (fun s outpoint txout => s.insertIfNew outpoint txout) st.1,
        st.2.insert assetVector.1 nTempAmountRet)

/-- L3176-3229 -/
def CWallet.selectAssets (wallet : CWallet) (cfg : Config)
    (mapAvailableAssets : TreeMap Bytes (List COutput)) (mapAssetTargetValue : AssetTotals)
    (choices : Bytes → Nat → KnapsackChoices) : Option (CoinSet × AssetTotals) :=
  if !cfg.dep.assets then none
  else mapAvailableAssets.toList.foldlM (wallet.selectAsset cfg mapAssetTargetValue choices) (∅, ∅)

end HempCore
