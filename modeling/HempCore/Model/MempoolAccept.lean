import HempCore.Model.Mempool

/-!
# Entering and leaving the memory pool

`AcceptToMemoryPoolWorker` (`validation.cpp`) and `removeForBlock` (`txmempool.cpp`). The policy on
fees, sizes, standard forms, lock times and scripts only refuses transactions; its verdicts are
arguments, as are the choices of what expires and what is trimmed.
Lines without a file are those of `validation.cpp`.
-/

set_option autoImplicit false

namespace HempCore

open Std

open Lib (require demand onlyWhen)

/-! ## Acceptance -/

/-- The flags of a call, with what policy says about the transaction. -/
structure AcceptArgs where
  bypass_limits : Bool
  test_accept : Bool
  /-- `IsStandardTx`, `CheckFinalTx` and the rule on early witnesses. -/
  isStandard : Bool
  /-- For a transaction of the pool that spends the same output. -/
  fReplacementOptOut : CTransaction → Bool
  checkSequenceLocks : Bool
  /-- `AreInputsStandard`, `IsWitnessStandard` and the limit on signature operations. -/
  inputsStandard : Bool
  feesSuffice : Bool
  /-- The limits of `CalculateMemPoolAncestors`. -/
  withinChainLimits : Bool
  /-- The rules on the fees of a replacement and on how much it replaces. -/
  replacementPays : Bool
  checkInputs : Bool
  expired : List Uint256
  trimmed : List Uint256

/-- txmempool.h:37 -/
def MEMPOOL_HEIGHT : Nat := 0x7FFFFFFF

variable (cfg : Config)

namespace CTxMemPool

variable (pool : CTxMemPool)

/-- `CCoinsViewMemPool` over the tip. txmempool.cpp:1346-1360 -/
def coinsView (coins : Coins) : CoinsView := fun outpoint =>
  match pool.mapTx[outpoint.hash]? with
  | some tx => tx.vout[outpoint.n]?.map fun out => ⟨out, false, MEMPOOL_HEIGHT⟩
  | none => coins[outpoint]?

/-- The transactions of the pool that spend an input of this one. L568-612 -/
def conflictsOf (tx : CTransaction) : List CTransaction :=
  tx.vin.filterMap fun txin => pool.mapNextTx[txin.prevout]?

/-- An input that a replacement takes from the pool is one its conflicts had too.
L858-874 -/
def addsUnconfirmed (conflicts : List CTransaction) (tx : CTransaction) : Bool :=
  tx.vin.any fun txin =>
    !(conflicts.any fun conflict => conflict.vin.any fun other => other.prevout.hash == txin.prevout.hash) &&
      pool.existsTx txin.prevout.hash

variable (node : Node)

/-- Everything `AcceptToMemoryPoolWorker` checks before it changes the pool: the entries to be replaced
and `vReissueAssets`. L526-946 -/
def preChecks (args : AcceptArgs) (tx : CTransaction) :
    Check (TreeSet Uint256 × List (Bytes × Uint256)) := do
  checkTransaction cfg tx true true false
  require (!tx.isCoinBase) (dos100 "coinbase")
  require args.isStandard (.reject 0 "non-standard")
  require (!pool.existsTx tx.hash) (.reject 0 "txn-already-in-mempool")
  let conflicts := pool.conflictsOf tx
  require (!conflicts.any args.fReplacementOptOut) (.reject 0 "txn-mempool-conflict")
  let view := pool.coinsView node.coins
  require (tx.vin.all fun txin => (view txin.prevout).isSome) (.abort "fMissingInputs")
  require args.checkSequenceLocks (.reject 0 "non-BIP68-final")
  let _ ← checkTxInputs cfg tx view (node.height + 1)
  onlyWhen (!cfg.dep.assets) (tx.vout.forM fun out =>
    require (isAssetScript out.scriptPubKey).isNone (dos100 "bad-txns-contained-asset-when-not-active"))
  let vReissueAssets ←
    if cfg.dep.assets then
      checkTxAssets cfg tx view (some (node.assets.passets.view cfg node.assets)) true
        pool.toMempoolTracking false
    else pure []
  require args.inputsStandard (.reject 0 "bad-txns-nonstandard-inputs")
  require args.feesSuffice (.reject 0 "mempool min fee not met")
  require args.withinChainLimits (.reject 0 "too-long-mempool-chain")
  let setAncestors := pool.calculateMemPoolAncestors tx
  require (!conflicts.any fun conflict => setAncestors.contains conflict.hash)
    (.reject 10 "bad-txns-spends-conflicting-tx")
  require (conflicts.isEmpty || (args.replacementPays && !pool.addsUnconfirmed conflicts tx))
    (.reject 0 "replacement-adds-unconfirmed")
  require args.checkInputs (.reject 0 "mandatory-script-verify-flag-failed")
  pure (((conflicts.map CTransaction.hash).filter pool.existsTx).foldl pool.calculateDescendants ∅, vReissueAssets)

/-- What has expired goes, then whatever keeps the pool too large. L405-415,
txmempool.cpp:1376-1390, 1470-1511 -/
def limitMempoolSize (args : AcceptArgs) : CTxMemPool :=
  args.trimmed.foldl (fun pool hash => pool.removeWithDescendants ([hash].filter pool.existsTx))
    (pool.removeWithDescendants (args.expired.filter pool.existsTx))

/-- L991-994 -/
def trackReissues (vReissueAssets : List (Bytes × Uint256)) : CTxMemPool :=
  vReissueAssets.foldl (fun pool out => { pool with
    mapReissuedAssets := pool.mapReissuedAssets.insertIfNew out.1 out.2
    mapReissuedTx := pool.mapReissuedTx.insertIfNew out.2 out.1 }) pool

/-- L1002-1018 -/
def trackAsset (hash : Uint256) (data : CAssetOutputEntry) : CTxMemPool :=
  let pool := if data.type = .TX_NEW_ASSET ∧ !isAssetNameAnOwner data.assetName then
    { pool with
      mapAssetToHash := pool.mapAssetToHash.insert data.assetName hash
      mapHashToAsset := pool.mapHashToAsset.insert hash data.assetName }
    else pool
  if cfg.dep.restrictedAssets && isAssetNameAnRestricted data.assetName then
    { pool with
      mapAddressesQualifiersChanged := pool.mapAddressesQualifiersChanged.insert hash data.address
      mapAssetVerifierChanged := pool.mapAssetVerifierChanged.insert hash data.assetName }
  else pool

/-- One command at a time for a key: a key that is tracked already refuses the transaction. -/
def trackOnce {K : Type} [Ord K] (tracked : Tracked K) (hash : Uint256) (key : K) (reason : String) :
    Check (Tracked K) :=
  if tracked.byKey.contains key then .error (.reject 0 reason) else .ok (tracked.insert hash key)

/-- L1020-1039 -/
def trackGlobal (hash : Uint256) (data : CNullAssetTxData) : Check CTxMemPool :=
  if data.flag = 1 then do
    let t ← trackOnce pool.mapGlobalFreezingAssetTransactions hash data.asset_name
      "bad-txns-global-freeze-already-in-mempool"
    pure { pool with mapGlobalFreezingAssetTransactions := t }
  else if data.flag = 0 then do
    let t ← trackOnce pool.mapGlobalUnFreezingAssetTransactions hash data.asset_name
      "bad-txns-global-unfreeze-already-in-mempool"
    pure { pool with mapGlobalUnFreezingAssetTransactions := t }
  else pure pool

/-- L1045-1066 -/
def trackTag (hash : Uint256) (data : CNullAssetTxData) (address : Bytes) : Check CTxMemPool :=
  if !isAssetNameAQualifier data.asset_name false then pure pool
  else if data.flag = 1 then do
    let t ← trackOnce pool.mapAddressAddedTag hash (address, data.asset_name)
      "bad-txns-adding-tag-already-in-mempool"
    pure { pool with mapAddressAddedTag := t }
  else do
    let t ← trackOnce pool.mapAddressRemoveTag hash (address, data.asset_name)
      "bad-txns-remove-tag-already-in-mempool"
    pure { pool with mapAddressRemoveTag := t }

/-- L997-1069 -/
def trackOutput (hash : Uint256) (out : CTxOut) : Check CTxMemPool :=
  if (isAssetScript out.scriptPubKey).isSome then
    match getAssetData cfg out.scriptPubKey with
    | none => pure pool
    | some data => pure (pool.trackAsset cfg hash data)
  else if isNullGlobalRestrictionAssetTxDataScript out.scriptPubKey then
    match globalAssetNullDataFromScript out.scriptPubKey with
    | none => pure pool
    | some data => pool.trackGlobal hash data
  else if isNullAssetTxDataScript out.scriptPubKey then
    match assetNullDataFromScript cfg out.scriptPubKey with
    | none => pure pool
    | some (data, address) => pool.trackTag hash data address
  else pure pool

/-- An output that is refused ends the loop; what was tracked before it stays. -/
def trackOutputs (hash : Uint256) : List CTxOut → CTxMemPool → CTxMemPool × Check Unit
  | [], pool => (pool, .ok ())
  | out :: vout, pool =>
    match pool.trackOutput cfg hash out with
    | .error e => (pool, .error e)
    | .ok pool => trackOutputs hash vout pool

/-- L1074-1093 -/
def trackInput (coins : Coins) (hash : Uint256) (pool : CTxMemPool) (txin : CTxIn) : CTxMemPool :=
  match coins[txin.prevout]?.bind fun coin => getAssetData cfg coin.out.scriptPubKey with
  | none => pool
  | some data =>
    if isAssetNameAnRestricted data.assetName then
      { pool with
        mapAssetMarkedGlobalFrozen := pool.mapAssetMarkedGlobalFrozen.insert hash data.assetName
        mapAddressesMarkedFrozen :=
          pool.mapAddressesMarkedFrozen.insert hash (data.address, data.assetName) }
    else pool

/-- What follows the insertion. L990-1094 -/
def track (coins : Coins) (tx : CTransaction) (vReissueAssets : List (Bytes × Uint256)) :
    CTxMemPool × Check Unit :=
  let pool := pool.trackReissues vReissueAssets
  let (pool, result) := if cfg.dep.assets then trackOutputs cfg tx.hash tx.vout pool else (pool, .ok ())
  match result with
  | .error e => (pool, .error e)
  | .ok _ =>
    (if cfg.dep.restrictedAssets then tx.vin.foldl (trackInput cfg coins tx.hash) pool else pool, .ok ())

/-- The pool with the transaction in it and what it replaces out of it. L962-989 -/
def store (args : AcceptArgs) (tx : CTransaction) (allConflicting : TreeSet Uint256) : CTxMemPool :=
  let stored := (pool.removeStaged allConflicting).addUnchecked tx
  if args.bypass_limits then stored else stored.limitMempoolSize args

/-- The pool after the call, whatever it returns. L526-1094 -/
def acceptToMemoryPoolWorker (args : AcceptArgs) (tx : CTransaction) :
    CTxMemPool × Check Unit :=
  match pool.preChecks cfg node args tx with
  | .error e => (pool, .error e)
  | .ok (allConflicting, vReissueAssets) =>
    if args.test_accept then (pool, .ok ())
    else
      let stored := pool.store args tx allConflicting
      if !args.bypass_limits && !stored.existsTx tx.hash then (stored, .error (.reject 0 "mempool full"))
      else stored.track cfg node.coins tx vReissueAssets

/-! ## Connected blocks -/

/-- `mapTx.find(hash)` for a hash that is not among those to be removed yet. -/
def markIf (test : CTransaction → Bool) (trans : List CTransaction) (hash : Uint256) : List CTransaction :=
  match pool.mapTx[hash]? with
  | none => trans
  | some tx => if trans.all (·.hash != hash) && test tx then trans ++ [tx] else trans

/-- The same for all transactions tracked under a key. -/
def markTracked {K : Type} [Ord K] (tracked : Tracked K) (test : CTransaction → Bool)
    (trans : List CTransaction) (key : K) : List CTransaction :=
  (tracked.byKey.getD key ∅).toList.foldl (pool.markIf test) trans

/-- txmempool.cpp:873-884 -/
def markIssue (trans : List CTransaction) (name : Bytes) : List CTransaction :=
  match pool.mapAssetToHash[name]?.bind fun hash => pool.mapTx[hash]? with
  | none => trans
  | some tx => trans ++ [tx]

/-- `passets` stands where `CheckTransaction` expects the flag for duplicate inputs, so nothing is asked
of the assets. txmempool.cpp:886-914 -/
def failsCheckTransaction (tx : CTransaction) : Bool := !(checkTransaction cfg tx true false false).toBool

/-- txmempool.cpp:916-958 -/
def markGlobal (trans : List CTransaction) (command : Bytes × RestrictedType) : List CTransaction :=
  match command.2 with
  | .GLOBAL_FREEZE =>
    pool.markTracked pool.mapGlobalFreezingAssetTransactions (fun _ => true)
      (pool.markTracked pool.mapAssetMarkedGlobalFrozen (failsCheckTransaction cfg) trans command.1) command.1
  | .GLOBAL_UNFREEZE =>
    pool.markTracked pool.mapGlobalUnFreezingAssetTransactions (fun _ => true) trans command.1
  | _ => trans

/-- txmempool.cpp:960-981 -/
def markFrozen (trans : List CTransaction) (command : NameAddress × RestrictedType) :
    List CTransaction :=
  match command.2 with
  | .FREEZE_ADDRESS =>
    pool.markTracked pool.mapAddressesMarkedFrozen (fun tx => !(checkTxAssets cfg tx node.coins.view
      (some (node.assets.passets.view cfg node.assets)) false pool.toMempoolTracking false).toBool)
      trans (command.1.2, command.1.1)
  | _ => trans

/-- `trans`: what the asset data of a block make invalid, the chain being as the block leaves it.
txmempool.cpp:873-981 -/
def markedBy (data : CAssetsCache) : List CTransaction :=
  let trans := data.newAssets.toAdd.keys.foldl pool.markIssue []
  let trans := data.restrictedVerifier.toAdd.keys.foldl
    (pool.markTracked pool.mapAssetVerifierChanged (failsCheckTransaction cfg)) trans
  let trans := (data.qualifierAddress.toAdd.keys.map Prod.snd).foldl
    (pool.markTracked pool.mapAddressesQualifiersChanged (failsCheckTransaction cfg)) trans
  let trans := data.restrictedGlobal.toAdd.toList.foldl (pool.markGlobal cfg) trans
  data.restrictedAddress.toAdd.toList.foldl (pool.markFrozen cfg node) trans

/-- A transaction of a block, or one of `trans`, leaves without its descendants.
txmempool.cpp:986-997, 1001-1012 -/
def removeAlone (pool : CTxMemPool) (tx : CTransaction) : CTxMemPool :=
  (if pool.existsTx tx.hash then pool.removeStaged (TreeSet.empty.insert tx.hash) else pool).removeConflicts tx

/-- txmempool.cpp:857-1016 -/
def removeForBlock (vtx : List CTransaction) (data : CAssetsCache) : CTxMemPool :=
  (pool.markedBy cfg node data).foldl removeAlone (vtx.foldl removeAlone pool)

/-- The reissues of a block are free again. L3381-3388 -/
def freeReissuesOf (vtx : List CTransaction) : CTxMemPool :=
  vtx.foldl (fun pool tx => match pool.mapReissuedTx[tx.hash]? with
    | none => pool
    | some name => { pool with
      mapReissuedAssets := pool.mapReissuedAssets.erase name
      mapReissuedTx := pool.mapReissuedTx.erase tx.hash }) pool

end CTxMemPool

/-! ## The node with its pool -/

structure PoolNode where
  node : Node
  pool : CTxMemPool

namespace PoolNode

/-- A transaction that is accepted, a block, or anything else a node does but disconnect. -/
inductive Action where
  | accept (args : AcceptArgs) (tx : CTransaction)
  | connect (block : CBlock)
  | other (action : Node.Action)

variable (s : PoolNode)

/-- The block's own cache is what `ConnectTip` hands to `removeForBlock`.
L3326-3415 -/
def connectTip (block : CBlock) : Check PoolNode := do
  let node ← s.node.connectTip cfg block
  let st ← connectBlock (s.node.config cfg) s.node.assets s.node.coins (s.node.height + 1) block
  pure ⟨node, (s.pool.freeReissuesOf block.vtx).removeForBlock (node.config cfg) node block.vtx st.cache⟩

/-- `none` for what does not happen. -/
def step : Action → Option PoolNode
  | .accept args tx =>
    match s.pool.acceptToMemoryPoolWorker (s.node.config cfg) s.node args tx with
    | (pool, .ok _) => some { s with pool := pool }
    | (_, .error _) => none
  | .connect block => (s.connectTip cfg block).toOption
  | .other (.connect _) => none
  | .other .disconnect => none
  | .other action => (s.node.step cfg action).map fun node => { s with node := node }

def run (actions : List Action) : Option PoolNode := actions.foldlM (step cfg) s

end PoolNode

/-! ## Sample calls -/

/-- A call that policy lets through. -/
def AcceptArgs.lenient : AcceptArgs where
  bypass_limits := false
  test_accept := false
  isStandard := true
  fReplacementOptOut := fun _ => false
  checkSequenceLocks := true
  inputsStandard := true
  feesSuffice := true
  withinChainLimits := true
  replacementPays := true
  checkInputs := true
  expired := []
  trimmed := []

end HempCore
