import HempCore.Model.Chain
import HempCore.Model.Messages

/-!
# Messages in blocks

The messages of a block are found twice in the source: by `CheckTxAssets` while the block is
connected, from the coins its inputs spend, and by `ExtractMessagesFromBlock` when old blocks are
scanned again, from the block's undo data. A block's time is passed beside it.
Lines without a file are those of `rpc/messages.cpp`.
-/

set_option autoImplicit false

namespace HempCore

open Lib (demand)

variable (cfg : Config)

/-- The addresses that the assets among the inputs came from. -/
abbrev InputAddresses := Std.TreeMap Bytes Bytes

/-- `std::set<CMessage>`, which compares outpoints: the first message of an outpoint is kept. -/
abbrev MessageSet := Std.TreeMap COutPoint CMessage

/-! ## While connecting -/

/-- consensus/tx_verify.cpp:634-664 -/
def addInputAddress (mapAddresses : InputAddresses) (coin : Coin) : InputAddresses :=
  match getAssetData cfg coin.out.scriptPubKey with
  | some data =>
    if cfg.dep.messages then mapAddresses.insertIfNew data.assetName data.address else mapAddresses
  | none => mapAddresses

/-- The addresses of the inputs in the coins view. consensus/tx_verify.cpp:632-674 -/
def viewAddresses (inputs : CoinsView) (tx : CTransaction) : InputAddresses :=
  tx.vin.foldl (fun mapAddresses txin =>
    match inputs txin.prevout with
    | some coin => addInputAddress cfg mapAddresses coin
    | none => mapAddresses) ∅

/-- consensus/tx_verify.cpp:718-771 -/
def collectMessage (fMessaging : Bool) (currentTime nBlocktime : Int) (mapAddresses : InputAddresses)
    (setMessages : MessageSet) (out : COutPoint × CTxOut) : MessageSet :=
  match transferAssetFromScript cfg out.2.scriptPubKey with
  | some (transfer, address) =>
    if cfg.dep.messages && fMessaging &&
        (isAssetNameAnOwner transfer.strName || isAssetNameAnMsgChannel transfer.strName) &&
        !transfer.message.isEmpty && (transfer.nExpireTime == 0 || currentTime < transfer.nExpireTime) &&
        mapAddresses[transfer.strName]? == some address then
      setMessages.insertIfNew out.1
        (.make out.1 transfer.strName transfer.message transfer.nExpireTime nBlocktime)
    else setMessages
  | none => setMessages

/-- What an accepted `CheckTxAssets` adds to the messages. consensus/tx_verify.cpp:631-787 -/
def collectMessages (fMessaging : Bool) (currentTime nBlocktime : Int) (inputs : CoinsView) (tx : CTransaction)
    (setMessages : MessageSet) : MessageSet :=
  (Coins.outputsOf tx).foldl
    (collectMessage cfg fMessaging currentTime nBlocktime (viewAddresses cfg inputs tx)) setMessages

/-- A transaction of a block, with the messages found so far. validation.cpp:2541-2763 -/
def connectTxMessages (g : AssetGlobals) (nHeight : Nat) (blockHash : Uint256) (fMessaging : Bool)
    (currentTime nBlocktime : Int) (st : ConnectState × MessageSet) (tx : CTransaction) :
    Check (ConnectState × MessageSet) := do
  let next ← connectTx cfg g nHeight blockHash st.1 tx
  pure (next,
    if !tx.isCoinBase && cfg.dep.assets then
      collectMessages cfg fMessaging currentTime nBlocktime st.1.coins.view tx st.2
    else st.2)

/-- Connecting a block, with the messages its transactions carry. validation.cpp:2410-2780 -/
def connectBlockMessages (g : AssetGlobals) (coins : Coins) (nHeight : Nat) (block : CBlock) (fMessaging : Bool)
    (currentTime nBlocktime : Int) : Check (ConnectState × MessageSet) := do
  let st ← connectBlock cfg g coins nHeight block
  let (_, setMessages) ← block.vtx.foldlM
    (connectTxMessages cfg g nHeight block.hash fMessaging currentTime nBlocktime) (⟨coins, .empty, 0, [], []⟩, ∅)
  pure (st, setMessages)

/-! ## From undo data -/

/-- One input. L151-170 -/
def extractAddress (nHeight txi : Nat) (mapAddresses : InputAddresses) (input : Coin × Nat) :
    Except String InputAddresses :=
  let coin := input.1
  if coin.isSpent || (isAssetScript coin.out.scriptPubKey).isNone then pure mapAddresses
  else
    match getAssetData cfg coin.out.scriptPubKey with
    | none => .error ("GetAssetData failed for spent asset coin at block " ++ toString nHeight ++ " tx " ++ toString txi ++ " input " ++ toString (input.2))
    | some data => pure (mapAddresses.insertIfNew data.assetName data.address)

/-- The addresses of the inputs in the undo data; a coinbase has none.
L137-171 -/
def undoAddresses (nHeight txi : Nat) (tx : CTransaction) (txundo : Option (List Coin)) :
    Except String InputAddresses :=
  match txundo with
  | none => pure ∅
  | some vprevout =>
    if vprevout.length ≠ tx.vin.length then
      .error ("undo input count mismatch at block " ++ toString nHeight ++ " tx " ++ toString txi ++ ": undo " ++ toString (vprevout.length) ++ " vs vin " ++ toString (tx.vin.length))
    else vprevout.zipIdx.foldlM (extractAddress cfg nHeight txi) ∅

/-- One output. L173-228 -/
def extractOutput (nHeight txi : Nat) (nBlockTime : Int) (mapAddresses : InputAddresses)
    (vMessages : List CMessage) (out : COutPoint × CTxOut) : Except String (List CMessage) :=
  if (isAssetScript out.2.scriptPubKey).map AssetScript.nType = some .TX_TRANSFER_ASSET then
    match transferAssetFromScript cfg out.2.scriptPubKey with
    | none => .error ("TransferAssetFromScript failed for transfer output at block " ++ toString nHeight ++ " tx " ++ toString txi ++ " vout " ++ toString (out.1.n))
    | some (transfer, strAddress) =>
      if transfer.message.isEmpty then pure vMessages
      else if !(isAssetNameAnOwner transfer.strName || isAssetNameAnMsgChannel transfer.strName) then pure vMessages
      else if transfer.nExpireTime ≠ 0 ∧ transfer.nExpireTime ≤ nBlockTime then pure vMessages
      else if mapAddresses[transfer.strName]? ≠ some strAddress then pure vMessages
      else
        let message : CMessage := .make out.1 transfer.strName transfer.message transfer.nExpireTime nBlockTime
        pure (vMessages ++ [{ message with nBlockHeight := nHeight }])
  else pure vMessages

/-- One transaction with its undo data. L130-229 -/
def extractTx (nHeight : Nat) (nBlockTime : Int) (vMessages : List CMessage)
    (item : (CTransaction × Option (List Coin)) × Nat) : Except String (List CMessage) := do
  let ((tx, txundo), txi) := item
  let mapAddresses ← undoAddresses cfg nHeight txi tx txundo
  (Coins.outputsOf tx).foldlM (extractOutput cfg nHeight txi nBlockTime mapAddresses) vMessages

/-- L108-232 -/
def extractMessagesFromBlock (block : CBlock) (nHeight : Nat) (nBlockTime : Int)
    (blockUndo : Option (List (List Coin))) : Except String (List CMessage) :=
  match blockUndo with
  | none => .error ("undo data pointer is null for block " ++ toString nHeight)
  | some vtxundo =>
    if block.vtx.length < 1 then .error ("block " ++ toString nHeight ++ " has no transactions")
    else if vtxundo.length ≠ block.vtx.length - 1 then
      .error ("undo shape mismatch at block " ++ toString nHeight ++ ": vtxundo size " ++ toString (vtxundo.length) ++ " does not match non-coinbase tx count " ++ toString (block.vtx.length - 1))
    else (block.vtx.zip (none :: vtxundo.map some)).zipIdx.foldlM (extractTx cfg nHeight nBlockTime) []

end HempCore
