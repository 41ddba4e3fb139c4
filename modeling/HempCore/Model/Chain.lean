import HempCore.Model.Coins
import HempCore.Model.Construct

/-!
# Blocks and the active chain

`ConnectTip` and `DisconnectTip` with what they call: a block's transactions are checked and
applied one by one over a fresh asset cache, which is then merged into `passets`; disconnecting
runs the other way, with the undo data stored when the block was first connected.

The checks that read neither coins nor assets are left out: proof of work, the Merkle root, block
weight, lock times, signatures and signature counts. They only refuse blocks, so whatever holds of
the blocks accepted here holds of those the node accepts. A block carries its hash and a
transaction its id, as stored.
Lines without a file are those of `validation.cpp`.
-/

set_option autoImplicit false

namespace HempCore

open Lib (require demand onlyWhen orElseError)

/-- primitives/block.h:115-174 -/
structure CBlock where
  hash : Uint256
  vtx : List CTransaction
deriving DecidableEq, Repr

variable (cfg : Config)

/-- L1329-1341 -/
def getBlockSubsidy (nHeight : Nat) : Int :=
  let halvings := nHeight / cfg.params.nSubsidyHalvingInterval
  if 64 ≤ halvings then 0 else (10 * COIN) / 2 ^ halvings

/-- L4059-4120 -/
def checkBlock (block : CBlock) : Check Unit := do
  match block.vtx with
  | [] => .error (dos100 "bad-cb-missing")
  | coinbase :: rest =>
    require coinbase.isCoinBase (dos100 "bad-cb-missing")
    require (rest.all fun tx => !tx.isCoinBase) (dos100 "bad-cb-multiple")
    block.vtx.forM fun tx => checkTransaction cfg tx true false true

/-! ## Connecting -/

/-- What the loop over the transactions carries. L2510-2540 -/
structure ConnectState where
  coins : Coins
  cache : CAssetsCache
  nFees : Int
  vtxundo : List (List Coin)
  vUndoAssetData : List (Bytes × CBlockAssetUndo)

/-- L2566-2573 -/
def checkAssetsNotActive (tx : CTransaction) : Check Unit :=
  tx.vout.forM fun out => do
    require (isAssetScript out.scriptPubKey).isNone (dos100 "bad-txns-assets-not-active")
    require (!isNullAsset out.scriptPubKey) (dos100 "bad-txns-null-data-assets-not-active")

section

variable (g : AssetGlobals)

/-- What the node tracks of its own memory pool only refuses more. L2565-2584 -/
def checkBlockTxAssets (st : ConnectState) (tx : CTransaction) : Check Unit :=
  if cfg.dep.assets then do
    let _ ← checkTxAssets cfg tx st.coins.view (some (st.cache.view cfg g)) false .empty false
    pure ()
  else checkAssetsNotActive tx

/-- The fees so far, with a transaction's own. L2548-2584 -/
def checkBlockTx (nHeight : Nat) (st : ConnectState) (tx : CTransaction) :
    Check Int := do
  let txfee ← checkTxInputs cfg tx st.coins.view nHeight
  require (moneyRange (st.nFees + txfee)) (dos100 "bad-txns-accumulated-fee-outofrange")
  checkBlockTxAssets cfg g st tx
  pure (st.nFees + txfee)

/-- A coinbase is not checked here. L2548-2584 -/
def checkTxInBlock (nHeight : Nat) (st : ConnectState) (tx : CTransaction) :
    Check Int :=
  if tx.isCoinBase then pure st.nFees else checkBlockTx cfg g nHeight st tx

/-- L2541-2763 -/
def connectTx (nHeight : Nat) (blockHash : Uint256) (st : ConnectState)
    (tx : CTransaction) : Check ConnectState := do
  let nFees ← checkTxInBlock cfg g nHeight st tx
  let updated ← demand (updateCoins cfg g st.coins st.cache tx nHeight blockHash)
    (.abort "assert(is_spent)")
  pure {
    coins := updated.coins
    cache := updated.cache
    nFees := nFees
    vtxundo := if tx.isCoinBase then st.vtxundo else st.vtxundo ++ [updated.spent]
    vUndoAssetData := st.vUndoAssetData ++ (updated.undo.filter fun item => item.1 ≠ []).toList }

/-- L2410-2780 -/
def connectBlock (coins : Coins) (nHeight : Nat) (block : CBlock) :
    Check ConnectState := do
  checkBlock cfg block
  let st ← block.vtx.foldlM (connectTx cfg g nHeight block.hash) ⟨coins, .empty, 0, [], []⟩
  match block.vtx with
  | [] => pure st
  | coinbase :: _ =>
    let paid ← coinbase.getValueOut cfg.dep.enforcedValues
    require (paid ≤ st.nFees + getBlockSubsidy cfg nHeight) (dos100 "bad-cb-amount")
    pure st

end

/-! ## Disconnecting -/

/-- What `DisconnectBlock` carries; `none` stands for `DISCONNECT_FAILED`. -/
structure DisconnectState where
  coins : Coins
  cache : CAssetsCache
  fClean : Bool

/-- The spend of an output goes through a copy of the cache that is dropped, so only its success
matters. L1925-1932 -/
def unspendOutput (g : AssetGlobals) (nHeight : Nat) (tx : CTransaction) (st : DisconnectState)
    (out : COutPoint × CTxOut) : DisconnectState :=
  if isUnspendable out.2.scriptPubKey then st
  else
    let matching := match st.coins[out.1]? with
      | none => false
      | some coin =>
        decide (coin.out = out.2 ∧ coin.nHeight = nHeight ∧ coin.fCoinBase = tx.isCoinBase) &&
          (!cfg.dep.assets || (st.cache.trySpendCoin cfg g coin.out).isSome)
    { st with coins := st.coins.erase out.1, fClean := st.fClean && matching }

namespace CAssetsCache

variable (g : AssetGlobals) (cache : CAssetsCache)

/-- L1968-1973, 2026-2031, 2047-2052, 2062-2067, 2079-2084 -/
def removeIfContained (asset : CNewAsset) (address : Bytes) : Option CAssetsCache :=
  if cache.checkIfAssetExists cfg g asset.strName true then
    cache.removeNewAsset cfg g asset address
  else some cache

/-- The asset a parser read is removed; a parser that fails fails the disconnect. -/
def removeParsed (parsed : Option (CNewAsset × Bytes)) : Option CAssetsCache := do
  let (asset, address) ← parsed
  cache.removeIfContained cfg g asset address

variable (tx : CTransaction)

/-- L1994-2011 -/
def removeReissue (vUndoData : List (Bytes × CBlockAssetUndo)) :
    Option CAssetsCache := do
  let (reissue, strAddress) ← tx.reissueAssetFromTransaction cfg
  if cache.checkIfAssetExists cfg g reissue.strName true then
    cache.removeReissueAsset cfg g reissue strAddress ⟨tx.hash, tx.vout.length - 1⟩ vUndoData
  else some cache

/-- The verifier string a restricted issue is undone with: the last one among the unspendable
outputs. L1941-1953 -/
def lastVerifier : Option Bytes :=
  if cfg.dep.restrictedAssets then do
    let out ← (tx.vout.filter fun out =>
      isUnspendable out.scriptPubKey && isNullAssetVerifierTxDataScript out.scriptPubKey).getLast?
    let verifier ← assetNullVerifierDataFromScript out.scriptPubKey
    pure verifier.verifier_string
  else none

/-- L1957-2103 -/
def removeKind (vUndoData : List (Bytes × CBlockAssetUndo)) :
    Option CAssetsCache :=
  if tx.isNewAsset cfg then do
    let removed ← cache.removeParsed cfg g (tx.assetFromTransaction cfg)
    let (ownerName, ownerAddress) ← tx.ownerFromTransaction cfg
    pure (removed.removeOwnerAsset cfg ownerName ownerAddress)
  else if tx.isReissueAsset then cache.removeReissue cfg g tx vUndoData
  else if tx.isNewUniqueAsset cfg then
    tx.vout.foldlM (fun cache out =>
      if isScriptNewUniqueAsset cfg out.scriptPubKey then
        cache.removeParsed cfg g (assetFromScript cfg out.scriptPubKey)
      else some cache) cache
  else if tx.isNewMsgChannelAsset cfg then
    cache.removeParsed cfg g (tx.msgChannelAssetFromTransaction cfg)
  else if tx.isNewQualifierAsset cfg then
    cache.removeParsed cfg g (tx.qualifierAssetFromTransaction cfg)
  else if tx.isNewRestrictedAsset cfg then do
    let removed ← cache.removeParsed cfg g (tx.restrictedAssetFromTransaction cfg)
    let (asset, _) ← tx.restrictedAssetFromTransaction cfg
    let verifier ← lastVerifier cfg tx
    pure (removed.removeRestrictedVerifier asset.strName verifier false)
  else some cache

/-- L2105-2134 -/
def removeTransferOutput (out : COutPoint × CTxOut) : Option CAssetsCache :=
  if !isUnspendable out.2.scriptPubKey && isScriptTransferAsset out.2.scriptPubKey then do
    let (transfer, address) ← transferAssetFromScript cfg out.2.scriptPubKey
    cache.removeTransfer cfg g transfer address out.1
  else some cache

/-- The data of a null asset output can be read. -/
def nullAssetDataReadable (s : Bytes) : Bool :=
  if isNullAssetTxDataScript s then (assetNullDataFromScript cfg s).isSome
  else if isNullGlobalRestrictionAssetTxDataScript s then (globalAssetNullDataFromScript s).isSome
  else true

/-- L2136-2187 -/
def removeNullOutput (out : CTxOut) : Option CAssetsCache :=
  if !cfg.dep.restrictedAssets || !isUnspendable out.scriptPubKey then some cache
  else if !nullAssetDataReadable cfg out.scriptPubKey then none
  else
    match nullAssetCommand cfg out.scriptPubKey with
    | some command => some (cache.undoCommand command)
    | none => some cache

/-- L1955-2191 -/
def removeCoins (vUndoData : List (Bytes × CBlockAssetUndo)) :
    Option CAssetsCache :=
  if cfg.dep.assets then do
    let cache ← cache.removeKind cfg g tx vUndoData
    let cache ← (Coins.outputsOf tx).foldlM (fun cache out => cache.removeTransferOutput cfg g out) cache
    tx.vout.foldlM (fun cache out => cache.removeNullOutput cfg out) cache
  else some cache

end CAssetsCache

/-- The first unspent output of a transaction. coins.cpp:537-546 -/
def accessByTxid (coins : Coins) (hash : Uint256) : Option Coin :=
  (coins.toList.find? fun p => p.1.hash = hash).map Prod.snd

/-- Height `0` marks an undo record without height, to be taken from another output.
L1803-1815 -/
def completeUndo (coins : Coins) (out : COutPoint) (undo : Coin) : Option Coin :=
  if undo.nHeight = 0 then
    (accessByTxid coins out.hash).map fun alternate =>
      { undo with nHeight := alternate.nHeight, fCoinBase := alternate.fCoinBase }
  else some undo

/-- L1791-1835 -/
def applyTxInUndo (g : AssetGlobals) (st : DisconnectState) (input : COutPoint × Coin) :
    Option DisconnectState := do
  let (out, undo) := input
  let coin ← completeUndo st.coins out undo
  let restored :=
    if cfg.dep.assets && (isAssetScript undo.out.scriptPubKey).isSome then
      st.cache.undoAssetCoin cfg g undo
    else some st.cache
  pure {
    coins := st.coins.addCoin out coin
    cache := restored.getD st.cache
    fClean := st.fClean && !st.coins.contains out && restored.isSome }

/-- One transaction; a coinbase comes without undo data. L1867-2243 -/
def disconnectTx (g : AssetGlobals) (nHeight : Nat) (vUndoData : List (Bytes × CBlockAssetUndo))
    (st : DisconnectState) (item : CTransaction × Option (List Coin)) : Option DisconnectState := do
  let (tx, txundo) := item
  let st := (Coins.outputsOf tx).foldl (unspendOutput cfg g nHeight tx) st
  let cache ← st.cache.removeCoins cfg g tx vUndoData
  let st := { st with cache := cache }
  match txundo with
  | none => pure st
  | some vprevout =>
    if vprevout.length ≠ tx.vin.length then none
    else ((tx.vin.map CTxIn.prevout).zip vprevout).reverse.foldlM (applyTxInUndo cfg g) st

/-- L1839-2285 -/
def disconnectBlock (g : AssetGlobals) (coins : Coins) (nHeight : Nat) (block : CBlock)
    (vtxundo : List (List Coin)) : Option DisconnectState :=
  if vtxundo.length + 1 ≠ block.vtx.length then none
  else
    (block.vtx.zip (none :: vtxundo.map some)).reverse.foldlM
      (disconnectTx cfg g nHeight ((g.blockUndoAssetData[block.hash]?).getD []))
      ⟨coins, .empty, true⟩

/-! ## The node -/

/-- Every flag that is set stays set. -/
def Deployments.le (a b : Deployments) : Bool :=
  (!a.assets || b.assets) && (!a.messages || b.messages) &&
    (!a.restrictedAssets || b.restrictedAssets) &&
    (!a.transferScriptsSize || b.transferScriptsSize) && (!a.enforcedValues || b.enforcedValues) &&
    (!a.coinbaseCheckAssets || b.coinbaseCheckAssets)

/-- The state that connecting and disconnecting read and write. The chain stands tip first, above
a genesis block that creates no coin; `undo` holds the undo data by block. -/
structure Node where
  dep : Deployments
  coins : Coins
  assets : AssetGlobals
  chain : List CBlock
  undo : Std.TreeMap Uint256 (List (List Coin))

namespace Node

/-- A node with the genesis block alone. -/
def genesis (dep : Deployments) : Node := ⟨dep, ∅, .empty, [], ∅⟩

/-- The settings with the flags that are active now. -/
def config (node : Node) : Config := { cfg with dep := node.dep }

/-- The height of the tip. -/
def height (node : Node) : Nat := node.chain.length

variable (node : Node)

/-- Undo data are stored when the block has none yet. L3326-3450, 2784-2806 -/
def connectTip (block : CBlock) : Check Node := do
  let st ← connectBlock (node.config cfg) node.assets node.coins (node.height + 1) block
  let first := !node.undo.contains block.hash
  let assets := node.assets.flush st.cache
  pure {
    dep := node.dep
    coins := st.coins
    assets := { assets with
      blockUndoAssetData :=
        if first && !st.vUndoAssetData.isEmpty then
          assets.blockUndoAssetData.insert block.hash st.vUndoAssetData
        else assets.blockUndoAssetData }
    chain := block :: node.chain
    undo := if first then node.undo.insert block.hash st.vtxundo else node.undo }

/-- Anything but a clean result leaves the node as it was. L3197-3246 -/
def disconnectTip : Option Node :=
  match node.chain with
  | [] => none
  | block :: rest => do
    let vtxundo ← node.undo[block.hash]?
    let st ← disconnectBlock (node.config cfg) node.assets node.coins node.height block vtxundo
    if st.fClean then
      some { node with coins := st.coins, assets := node.assets.flush st.cache, chain := rest }
    else none

/-- One thing a node does: a block, a write to the databases, a lookup that refills a cache, or a
rule change that becomes active and stays so. -/
inductive Action where
  | connect (block : CBlock)
  | disconnect
  | dump
  | touch (t : AssetGlobals.Touch)
  | activate (dep : Deployments)

/-- `none` for what does not happen. The databases are written once assets are deployed.
L3056-3065 -/
def step : Action → Option Node
  | .connect block => (node.connectTip cfg block).toOption
  | .disconnect => node.disconnectTip cfg
  | .dump =>
    some (if node.dep.assets then
      { node with assets := node.assets.dumpCacheToDatabase (node.config cfg) } else node)
  | .touch t => some { node with assets := node.assets.touch cfg t }
  | .activate dep => if node.dep.le dep then some { node with dep := dep } else none

/-- A whole run. -/
def run (actions : List Action) : Option Node := actions.foldlM (step cfg) node

end Node

/-! ## A sample chain

A hundred blocks with a coinbase each, and one that issues `ABC`. -/

/-- A coinbase that pays the subsidy to Alice. -/
def coinbaseAt (height : Nat) : CTransaction where
  vin := [⟨⟨0, 2 ^ 32 - 1⟩, [0x51, 0x51]⟩]
  vout := [paymentOut aliceKeyID (10 * COIN)]
  hash := 1000 + height

/-- A hundred blocks, after which the first coinbase may be spent. -/
def maturedChain : List Node.Action :=
  (List.range 100).map fun i => .connect ⟨i + 1, [coinbaseAt (i + 1)]⟩

def abcAsset : CNewAsset := ⟨str "ABC", 1000 * COIN, 0, 1, 0, []⟩

def abcIssueTx : CTransaction where
  vin := [⟨⟨1001, 0⟩, []⟩]
  vout := [paymentOut issueBurnKeyID 25000000, ownerOut aliceKeyID abcAsset,
    issueOut aliceKeyID abcAsset]
  hash := 2001

def abcIssueBlock : CBlock := ⟨101, [coinbaseAt 101, abcIssueTx]⟩

def abcIssueRun : List Node.Action := maturedChain ++ [.connect abcIssueBlock]

def bobAddress : Bytes := encodeDestination mainAll (.keyID bobKeyID)

end HempCore
