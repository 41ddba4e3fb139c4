import HempCore.Model.Snapshots

/-!
# Rewards

`DistributeRewardSnapshot` and `GenerateDistributionList` of `assets/rewards.cpp`, for one request.
The amount of a reward is a parameter. What the wallet does is told to each call: whether it is
locked, how deep its transactions are, which transactions it can make and commit. The status of the
request, which is not part of its hash, is left out.
Lines without a file are those of `assets/rewards.cpp`.
-/

set_option autoImplicit false

namespace HempCore

/-- assets/rewards.h:81-142 -/
structure CRewardSnapshot where
  strOwnershipAsset : Bytes
  strDistributionAsset : Bytes
  strExceptionAddresses : Bytes
  nDistributionAmount : Int
  nHeight : Nat

/-- assets/rewards.h:30-48 -/
structure OwnerAndAmount where
  address : Bytes
  amount : Int
deriving DecidableEq

/-- The comma. assets/rewards.h:26 -/
def addressCommaDelimiter : UInt8 := 44

/-- assets/rewards.h:27 -/
def maxPaymentsPerTransaction : Nat := 1000

/-- chainparams.h:116-134 -/
def ChainParams.isBurnAddress (params : ChainParams) (address : Bytes) : Bool :=
  [params.strIssueAssetBurnAddress, params.strReissueAssetBurnAddress, params.strIssueSubAssetBurnAddress,
    params.strIssueUniqueAssetBurnAddress, params.strIssueMsgChannelAssetBurnAddress,
    params.strIssueQualifierAssetBurnAddress, params.strIssueSubQualifierAssetBurnAddress,
    params.strIssueRestrictedAssetBurnAddress, params.strAddNullQualifierTagBurnAddress,
    params.strGlobalBurnAddress].contains address

/-- What `RetrieveOwnershipSnapshot` and `GetAssetMetaDataIfExists` answer for the assets of the
request. -/
structure RewardBasis where
  snapshotEntry : Option CAssetSnapshotDBEntry
  /-- The units of the distribution asset, if it exists. -/
  distributionUnits : Option Int
  ownershipAssetExists : Bool
deriving DecidableEq

/-- The amount of a reward, from the snapshot, the units of the distribution asset (none for `HEMP`),
the request and the address. -/
abbrev RewardAmount := CAssetSnapshotDBEntry → Option Int → CRewardSnapshot → Bytes → Int

variable (params : ChainParams) (reward : RewardAmount) (request : CRewardSnapshot)

/-- The set is ordered by the addresses alone, so the first amount of an address is kept.
L109-132 -/
def nonExceptionOwnerships (entry : CAssetSnapshotDBEntry) : Std.TreeMap Bytes Int :=
  let exceptionAddressSet := request.strExceptionAddresses.splitOn addressCommaDelimiter
  entry.ownersAndAmounts.foldl (fun owners p =>
    if exceptionAddressSet.contains p.1 || params.isBurnAddress p.1 then owners
    else owners.insertIfNew p.1 p.2) ∅

/-- The units of the asset that is paid out; `HEMP` has none. L71-88 -/
def RewardBasis.units (basis : RewardBasis) : Option (Option Int) :=
  if request.strDistributionAsset = str "HEMP" then some none else basis.distributionUnits.map some

/-- The rewards above zero, in the order of the addresses. L146-167 -/
def rewardsOf (entry : CAssetSnapshotDBEntry) (units : Option Int) : List OwnerAndAmount :=
  (nonExceptionOwnerships params request entry).keys.filterMap fun address =>
    let rewardAmt := reward entry units request address
    if 0 < rewardAmt then some ⟨address, rewardAmt⟩ else none

/-- L44-177 -/
def generateDistributionList (basis : RewardBasis) : Option (List OwnerAndAmount) := do
  let units ← basis.units request
  let entry ← basis.snapshotEntry
  if !basis.ownershipAssetExists || (nonExceptionOwnerships params request entry).isEmpty then none
  else some (rewardsOf params reward request entry units)

/-! ## Distribution -/

/-- Where a process stops while it works on a batch. -/
inductive CrashPoint where
  | beforeCommit
  | beforeRecord
deriving DecidableEq

/-- What a call finds: the wallet, and the batch and point at which the process stops, if it does. -/
structure RewardCall where
  isLocked : Bool
  isInitialBlockDownload : Bool
  /-- `GetDepthInMainChain` of a transaction of the wallet. -/
  depth : Uint256 → Option Int
  /-- The transaction made and committed for a batch. -/
  build : Nat → Option Uint256
  crash : Option (Nat × CrashPoint)

/-- A payment transaction that was committed, with what its list was generated from. -/
structure RewardPayment where
  basis : RewardBasis
  txid : Uint256
  payments : List OwnerAndAmount

/-- `transactions` are the records of `pDistributeSnapshotDb` for the request; `committed` and
`attempted` say what was handed to the wallet and with what effect. -/
structure RewardState where
  basis : RewardBasis
  transactions : Std.TreeMap Nat Uint256
  committed : List RewardPayment
  attempted : List (List OwnerAndAmount)

namespace RewardState

/-- No payment was made yet. -/
def start (basis : RewardBasis) : RewardState := ⟨basis, ∅, [], []⟩

/-- The payments of a batch. L233, 256, 285-287, 337-339 -/
def batchOf (paymentDetails : List OwnerAndAmount) (i : Nat) : List OwnerAndAmount :=
  (paymentDetails.drop (i * maxPaymentsPerTransaction)).take maxPaymentsPerTransaction

/-- One batch, and whether the loop goes on. The transaction is committed before its record is
written. L211-242 -/
def distributeBatch (paymentDetails : List OwnerAndAmount) (call : RewardCall) (st : RewardState) (i : Nat) :
    RewardState × Bool :=
  match st.transactions[i]? with
  | some txid =>
    match call.depth txid with
    | some depth => (st, 0 < depth)
    | none => (st, true)
  | none =>
    let batch := batchOf paymentDetails i
    let st := { st with attempted := st.attempted ++ [batch] }
    if call.crash = some (i, .beforeCommit) then (st, false)
    else
      match call.build i with
      | none => (st, false)
      | some txid =>
        let st := { st with committed := st.committed ++ [⟨st.basis, txid, batch⟩] }
        if call.crash = some (i, .beforeRecord) then (st, false)
        else ({ st with transactions := st.transactions.insert i txid }, true)

/-- L210-243 -/
def distributeBatches (paymentDetails : List OwnerAndAmount) (call : RewardCall) : List Nat → RewardState → RewardState
  | [], st => st
  | i :: rest, st =>
    match distributeBatch paymentDetails call st i with
    | (st, true) => distributeBatches paymentDetails call rest st
    | (st, false) => st

/-- L181-244 -/
def distributeRewardSnapshot (st : RewardState) (call : RewardCall) : RewardState :=
  if call.isLocked || call.isInitialBlockDownload then st
  else
    match generateDistributionList params reward request st.basis with
    | none => st
    | some paymentDetails =>
      let nNumberOfTransactions := paymentDetails.length / maxPaymentsPerTransaction + 1
      distributeBatches paymentDetails call (List.range nNumberOfTransactions) st

/-- A call, or blocks and reorganisations that leave another snapshot or other metadata. -/
inductive Event where
  | distribute (call : RewardCall)
  | change (basis : RewardBasis)

def perform (st : RewardState) : Event → RewardState
  | .distribute call => st.distributeRewardSnapshot params reward request call
  | .change basis => { st with basis }

end RewardState

end HempCore
