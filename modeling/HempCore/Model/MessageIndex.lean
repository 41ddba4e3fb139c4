import HempCore.Model.MessageScan

/-!
# The message index and its synced height

With `-messageindex` a node stores every message of the chain and keeps the height up to which it has
them all. Blocks that are connected and disconnected, rescans of old blocks, `clearmessages`, flushes and
restarts change the store and the height. A rescan runs beside the rest: it holds `cs_main` only to look
up the next block, and the block it found is stored later.

A block appears here by what connecting it collects, at a wall-clock time equal to its own, and by the
outputs that disconnecting it marks. Writes to the databases succeed, and a restart follows a shutdown
that flushes.
Lines without a file are those of `rpc/messages.cpp`.
-/

set_option autoImplicit false

namespace HempCore

/-! ## Blocks -/

/-- The outputs whose messages `DisconnectBlock` marks as orphans, with their channels.
validation.cpp:1936-1952, 2103-2131 -/
def messageCarriers (cfg : Config) (block : CBlock) : List (COutPoint × Bytes) :=
  (block.vtx.flatMap Coins.outputsOf).filterMap fun out =>
    if isUnspendable out.2.scriptPubKey then none
    else if !isScriptTransferAsset out.2.scriptPubKey then none
    else
      match transferAssetFromScript cfg out.2.scriptPubKey with
      | some (transfer, _) =>
        if !transfer.message.isEmpty &&
            (isAssetNameAnOwner transfer.strName || isAssetNameAnMsgChannel transfer.strName) then
          some (out.1, transfer.strName)
        else none
      | none => none

/-- A block as the message layer sees it. -/
structure MessageBlock where
  /-- What connecting it collects. -/
  messages : List CMessage
  /-- What disconnecting it marks. -/
  carriers : List (COutPoint × Bytes)
deriving DecidableEq

/-- A block with the messages that connecting it collected. -/
def MessageBlock.ofBlock (cfg : Config) (block : CBlock) (setMessages : MessageSet) : MessageBlock :=
  ⟨setMessages.toList.map Prod.snd, messageCarriers cfg block⟩

/-! ## State -/

/-- A running `rescanmessages`; `fetched` is the block it has looked up at `nHeight` and not stored yet.
L1210-1300 -/
structure MessageRescan where
  nStartHeight : Nat
  nStopHeight : Nat
  nHeight : Nat
  channelFilter : Option Bytes
  fetched : Option MessageBlock

/-- The chain stands above a genesis block without messages, oldest block first.
assets/messages.cpp:27-40, validation.cpp:105 -/
structure MessageIndex where
  chain : List MessageBlock
  store : MessageStore
  fMessageIndex : Bool
  nMessageIndexSyncedHeight : Nat
  /-- `MSG_META_SYNCED_HEIGHT` in the database. -/
  metaSyncedHeight : Option Nat
  /-- `MSG_META_INDEX_ENABLED` in the database. -/
  metaIndexEnabled : Option Bool
  /-- `g_message_rescan.fInProgress`. -/
  fInProgress : Bool
  rescans : List MessageRescan

namespace MessageStore

variable (store : MessageStore)

/-- L783-792 -/
def clear : MessageStore := .start store.pMessagesCache.maxSize

/-- The messages of a connected block. validation.cpp:2849-2865 -/
def addMessages (nHeight : Nat) (wanted : Bytes → Bool) (messages : List CMessage) : MessageStore :=
  messages.foldl (fun store message =>
    if wanted message.strName then store.addMessage { message with nBlockHeight := nHeight } else store) store

/-- The messages of a disconnected block. validation.cpp:2119-2131 -/
def orphanMessages (wanted : Bytes → Bool) (carriers : List (COutPoint × Bytes)) : MessageStore :=
  carriers.foldl (fun store carrier => if wanted carrier.2 then store.orphanMessage carrier.1 else store) store

/-- The messages of a block that is scanned again: one that is stored already is left as it is.
L1453-1473 -/
def rescanMessages (nHeight : Nat) (shouldStore : Bytes → Bool) (messages : List CMessage) : MessageStore :=
  messages.foldl (fun store message =>
    if shouldStore message.strName then
      match store.getMessage message.out with
      | (some _, store) => store
      | (none, store) => store.addMessage { message with nBlockHeight := nHeight }
    else store) store

end MessageStore

/-- What happens to the index; `subscribed` is what `IsChannelSubscribed` answers at the time, and the
number names a running rescan. -/
inductive MessageEvent where
  | connect (block : MessageBlock) (subscribed : Bytes → Bool)
  | disconnect (subscribed : Bytes → Bool)
  | startRescan (start stop : Option Nat) (channelFilter : Option Bytes)
  | lookUp (i : Nat)
  | scan (i : Nat) (subscribed : Bytes → Bool)
  | finishRescan (i : Nat)
  | failRescan (i : Nat)
  | clearMessages
  | flush
  | restart (fMessageIndex : Bool)

namespace MessageIndex

/-- A new node: the flag is written at its first start. assets/messages.cpp:449-483 -/
def start (maxSize : Nat) (fMessageIndex : Bool) : MessageIndex :=
  ⟨[], .start maxSize, fMessageIndex, 0, none, some fMessageIndex, false, []⟩

variable (nActivation : Nat) (s : MessageIndex)

/-- `chainActive[nHeight]`. -/
def blockAt (nHeight : Nat) : Option MessageBlock :=
  if nHeight = 0 then some ⟨[], []⟩ else s.chain[nHeight - 1]?

/-- assets/messages.cpp:402-425 -/
def advanceSyncedHeightIfContiguous (nHeight : Nat) : Nat :=
  if nHeight ≤ nActivation then max s.nMessageIndexSyncedHeight nHeight
  else if nHeight - 1 ≤ s.nMessageIndexSyncedHeight then max s.nMessageIndexSyncedHeight nHeight
  else s.nMessageIndexSyncedHeight

/-- Ids are hashes, so an output stands in one block of a chain, and before the activation no message is
collected; other blocks do not come up. validation.cpp:2847-2888 -/
def connect (block : MessageBlock) (subscribed : Bytes → Bool) : Option MessageIndex :=
  let nHeight := s.chain.length + 1
  if (nHeight < nActivation ∧ block.messages ≠ []) ∨
      ∃ b ∈ s.chain, ∃ c ∈ b.carriers, ∃ c' ∈ block.carriers, c.1 = c'.1 then none
  else
    some { s with
      chain := s.chain ++ [block]
      store := s.store.addMessages nHeight (fun name => s.fMessageIndex || subscribed name) block.messages
      nMessageIndexSyncedHeight :=
        if s.fMessageIndex then s.advanceSyncedHeightIfContiguous nActivation nHeight
        else s.nMessageIndexSyncedHeight }

/-- The synced height is not lowered. validation.cpp:2119-2131 -/
def disconnect (subscribed : Bytes → Bool) : Option MessageIndex :=
  match s.chain.getLast? with
  | none => none
  | some block =>
    some { s with
      chain := s.chain.dropLast
      store := s.store.orphanMessages (fun name => s.fMessageIndex || subscribed name) block.carriers }

/-- L1221-1284 -/
def startRescan (start stop : Option Nat) (channelFilter : Option Bytes) : Option MessageIndex :=
  let nStartHeight := max nActivation (start.getD nActivation)
  let nStopHeight := min (stop.getD s.chain.length) s.chain.length
  if nStopHeight < nStartHeight ∨ s.fInProgress then none
  else
    some { s with
      fInProgress := true
      rescans := s.rescans ++ [⟨nStartHeight, nStopHeight, nStartHeight, channelFilter, none⟩] }

/-- L1334-1384 -/
def failRescan (i : Nat) : Option MessageIndex :=
  if i < s.rescans.length then some { s with fInProgress := false, rescans := s.rescans.eraseIdx i } else none

/-- The lookup of the next block; a height that is gone from the chain fails the rescan.
L1402-1410 -/
def lookUp (i : Nat) : Option MessageIndex :=
  match s.rescans[i]? with
  | none => none
  | some r =>
    if r.fetched.isSome ∨ r.nStopHeight < r.nHeight then none
    else
      match s.blockAt r.nHeight with
      | none => s.failRescan i
      | some block => some { s with rescans := s.rescans.set i { r with fetched := some block } }

/-- L1254-1263 -/
def shouldStore (r : MessageRescan) (subscribed : Bytes → Bool) (name : Bytes) : Bool :=
  match r.channelFilter with
  | some channel => name == channel
  | none => s.fMessageIndex || subscribed name

/-- L1412-1492 -/
def scan (i : Nat) (subscribed : Bytes → Bool) : Option MessageIndex :=
  match s.rescans[i]? with
  | none => none
  | some r =>
    match r.fetched with
    | none => none
    | some block =>
      some { s with
        store := s.store.rescanMessages r.nHeight (s.shouldStore r subscribed) block.messages
        rescans := s.rescans.set i { r with nHeight := r.nHeight + 1, fetched := none } }

/-- L1533-1616 -/
def finishRescan (i : Nat) : Option MessageIndex :=
  match s.rescans[i]? with
  | none => none
  | some r =>
    if r.fetched.isSome ∨ r.nHeight ≠ r.nStopHeight + 1 then none
    else
      let nSynced :=
        if s.fMessageIndex ∧ r.channelFilter.isNone ∧
            (r.nStartHeight ≤ nActivation ∨ r.nStartHeight ≤ s.nMessageIndexSyncedHeight + 1) then
          max s.nMessageIndexSyncedHeight r.nStopHeight
        else s.nMessageIndexSyncedHeight
      some { s with
        store := s.store.flush
        nMessageIndexSyncedHeight := nSynced
        metaSyncedHeight := if s.fMessageIndex then some nSynced else s.metaSyncedHeight
        metaIndexEnabled := if s.fMessageIndex then some true else s.metaIndexEnabled
        fInProgress := false
        rescans := s.rescans.eraseIdx i }

/-- The flag of a running rescan is reset and the rescan goes on. L783-801 -/
def clearMessages : MessageIndex :=
  { s with
    store := s.store.clear
    nMessageIndexSyncedHeight := 0
    metaSyncedHeight := some 0
    fInProgress := false }

/-- validation.cpp:3071-3092 -/
def flush : MessageIndex :=
  { s with
    store := s.store.flush
    metaSyncedHeight := if s.fMessageIndex then some s.nMessageIndexSyncedHeight else s.metaSyncedHeight
    metaIndexEnabled := if s.fMessageIndex then some true else s.metaIndexEnabled }

/-- assets/messages.cpp:449-483 -/
def load (fMessageIndex : Bool) : MessageIndex :=
  { s with
    store := { MessageStore.start s.store.pMessagesCache.maxSize with pmessagedb := s.store.pmessagedb }
    fMessageIndex := fMessageIndex
    nMessageIndexSyncedHeight :=
      if s.metaIndexEnabled = some (!fMessageIndex) then 0 else s.metaSyncedHeight.getD 0
    metaIndexEnabled := some fMessageIndex
    fInProgress := false
    rescans := [] }

def step : MessageEvent → Option MessageIndex
  | .connect block subscribed => s.connect nActivation block subscribed
  | .disconnect subscribed => s.disconnect subscribed
  | .startRescan start stop channelFilter => s.startRescan nActivation start stop channelFilter
  | .lookUp i => s.lookUp i
  | .scan i subscribed => s.scan i subscribed
  | .finishRescan i => s.finishRescan nActivation i
  | .failRescan i => s.failRescan i
  | .clearMessages => some s.clearMessages
  | .flush => some s.flush
  | .restart fMessageIndex => some (s.flush.load fMessageIndex)

end MessageIndex

end HempCore
