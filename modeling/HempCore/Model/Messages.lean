import HempCore.Lib.LRUCache
import HempCore.Model.Basic

/-!
# The message store

The messages a node keeps, the channels it is subscribed to and the addresses it has seen, as
`assets/messages.cpp` and `assets/myassetsdb.cpp` keep them: what is not written yet, a cache of
what was read, what was asked for in vain, and the databases. All writes to the databases succeed
here, and the keys of the message cache, serialised outpoints, are the outpoints themselves.
Lines without a file are those of `assets/messages.cpp`.
-/

set_option autoImplicit false

namespace HempCore

open Std

open Lib (LRUCache)

/-- assets/messages.h:141-149 -/
inductive MessageStatus where
  | READ
  | UNREAD
  | EXPIRED
  | SPAM
  | HIDDEN
  | ORPHAN
  | MSG_ERROR
deriving DecidableEq

/-- assets/messages.h:156-210 -/
structure CMessage where
  out : COutPoint
  strName : Bytes
  ipfsHash : Bytes
  time : Int
  nExpiredTime : Int
  status : MessageStatus
  nBlockHeight : Int
deriving DecidableEq

namespace CMessage

/-- L61-70 -/
def make (out : COutPoint) (strName ipfsHash : Bytes) (nExpiredTime time : Int) : CMessage :=
  ⟨out, strName, ipfsHash, time, nExpiredTime, .UNREAD, 0⟩

/-- The message as an orphan. assets/myassetsdb.cpp:112-113 -/
def orphaned (message : CMessage) : CMessage := { message with status := .ORPHAN }

end CMessage

/-! ## Messages -/

/-- L17-19, assets/myassetsdb.cpp:20-36 -/
structure MessageStore where
  setDirtyMessagesRemove : TreeSet COutPoint
  mapDirtyMessagesAdd : TreeMap COutPoint CMessage
  mapDirtyMessagesOrphaned : TreeMap COutPoint CMessage
  pMessagesCache : LRUCache COutPoint CMessage
  pmessagedb : TreeMap COutPoint CMessage

namespace MessageStore

/-- An empty store whose cache has room for a number of messages. -/
def start (maxSize : Nat) : MessageStore := ⟨∅, ∅, ∅, .empty maxSize, ∅⟩

variable (store : MessageStore)

/-- The answer, and the store with what the question left in the cache.
L107-137 -/
def getMessage (out : COutPoint) : Option CMessage × MessageStore :=
  match store.mapDirtyMessagesAdd[out]? with
  | some message => (some message, store)
  | none =>
    if store.setDirtyMessagesRemove.contains out then (none, store)
    else
      match store.pMessagesCache.get? out with
      | some message => (some message, { store with pMessagesCache := store.pMessagesCache.promote out })
      | none =>
        match store.pmessagedb[out]? with
        | some message => (some message, { store with pMessagesCache := store.pMessagesCache.put out message })
        | none => (none, store)

/-- A message that waits to be written already is kept. L162-172 -/
def addMessage (message : CMessage) : MessageStore :=
  { store with
    mapDirtyMessagesAdd := store.mapDirtyMessagesAdd.insertIfNew message.out message
    setDirtyMessagesRemove := store.setDirtyMessagesRemove.erase message.out
    mapDirtyMessagesOrphaned := store.mapDirtyMessagesOrphaned.erase message.out }

/-- L179-189 -/
def removeMessage (out : COutPoint) : MessageStore :=
  { store with
    setDirtyMessagesRemove := store.setDirtyMessagesRemove.insert out
    mapDirtyMessagesAdd := store.mapDirtyMessagesAdd.erase out
    mapDirtyMessagesOrphaned := store.mapDirtyMessagesOrphaned.erase out }

/-- L198-206 -/
def orphan (message : CMessage) : MessageStore :=
  { store with
    mapDirtyMessagesOrphaned := store.mapDirtyMessagesOrphaned.insert message.out message
    mapDirtyMessagesAdd := store.mapDirtyMessagesAdd.erase message.out }

/-- L191-196 -/
def orphanMessage (out : COutPoint) : MessageStore :=
  match store.getMessage out with
  | (some message, store) => store.orphan message
  | (none, store) => store

def writeMessage (db : TreeMap COutPoint CMessage) (message : CMessage) : TreeMap COutPoint CMessage :=
  db.insert message.out message

/-- The cache is left as it is. assets/myassetsdb.cpp:96-126 -/
def flush : MessageStore :=
  let erased := store.setDirtyMessagesRemove.foldl (fun db out => db.erase out) store.pmessagedb
  let added := store.mapDirtyMessagesAdd.foldl (fun db _ message => writeMessage db message) erased
  let orphans := store.mapDirtyMessagesAdd.foldl (fun orphans out _ => orphans.erase out)
    store.mapDirtyMessagesOrphaned
  { store with
    pmessagedb := orphans.foldl (fun db _ message => writeMessage db message.orphaned) added
    setDirtyMessagesRemove := ∅
    mapDirtyMessagesAdd := ∅
    mapDirtyMessagesOrphaned := ∅ }

end MessageStore

/-! ## Channels and addresses -/

/-- L21-26, assets/myassetsdb.cpp:128-147, 191-203 -/
structure ChannelStore where
  setDirtyChannelsAdd : TreeSet Bytes
  setDirtyChannelsRemove : TreeSet Bytes
  setSubscribedChannelsAskedForFalse : TreeSet Bytes
  pMessageSubscribedChannelsCache : LRUCache Bytes Int
  setDirtySeenAddressAdd : TreeSet Bytes
  setAddressAskedForFalse : TreeSet Bytes
  pMessagesSeenAddressCache : LRUCache Bytes Int
  /-- The records `MY_MESSAGE_CHANNEL` of `pmessagechanneldb`. -/
  myMessageChannels : TreeSet Bytes
  /-- The records `MY_SEEN_ADDRESSES` of `pmessagechanneldb`. -/
  usedAddresses : TreeSet Bytes

namespace ChannelStore

/-- An empty store whose caches have room for a number of entries. -/
def start (maxSize : Nat) : ChannelStore := ⟨∅, ∅, ∅, .empty maxSize, ∅, ∅, .empty maxSize, ∅, ∅⟩

variable (store : ChannelStore)

/-- L72-105 -/
def isChannelSubscribed (name : Bytes) : Bool × ChannelStore :=
  if store.setDirtyChannelsAdd.contains name then (true, store)
  else if store.setDirtyChannelsRemove.contains name then (false, store)
  else if (store.pMessageSubscribedChannelsCache.get? name).isSome then (true, store)
  else if store.setSubscribedChannelsAskedForFalse.contains name then (false, store)
  else if store.myMessageChannels.contains name then
    (true, { store with pMessageSubscribedChannelsCache := store.pMessageSubscribedChannelsCache.put name 1 })
  else
    (false, { store with
      setSubscribedChannelsAskedForFalse := store.setSubscribedChannelsAskedForFalse.insert name })

/-- L139-149 -/
def addChannel (name : Bytes) : ChannelStore :=
  { store with
    setDirtyChannelsAdd := store.setDirtyChannelsAdd.insert name
    setDirtyChannelsRemove := store.setDirtyChannelsRemove.erase name
    setSubscribedChannelsAskedForFalse := store.setSubscribedChannelsAskedForFalse.erase name }

/-- L151-160 -/
def removeChannel (name : Bytes) : ChannelStore :=
  { store with
    setDirtyChannelsRemove := store.setDirtyChannelsRemove.insert name
    setDirtyChannelsAdd := store.setDirtyChannelsAdd.erase name }

/-- L328-353 -/
def isAddressSeen (address : Bytes) : Bool × ChannelStore :=
  if store.setDirtySeenAddressAdd.contains address then (true, store)
  else if (store.pMessagesSeenAddressCache.get? address).isSome then (true, store)
  else if store.setAddressAskedForFalse.contains address then (false, store)
  else if store.usedAddresses.contains address then
    (true, { store with pMessagesSeenAddressCache := store.pMessagesSeenAddressCache.put address 1 })
  else (false, { store with setAddressAskedForFalse := store.setAddressAskedForFalse.insert address })

/-- The set of channels, not that of addresses, is corrected. L355-361 -/
def addAddressSeen (address : Bytes) : ChannelStore :=
  { store with
    setDirtySeenAddressAdd := store.setDirtySeenAddressAdd.insert address
    setSubscribedChannelsAskedForFalse := store.setSubscribedChannelsAskedForFalse.erase address }

/-- The caches are left as they are. assets/myassetsdb.cpp:222-251 -/
def flush : ChannelStore :=
  let erased := store.setDirtyChannelsRemove.foldl (fun db name => db.erase name) store.myMessageChannels
  { store with
    myMessageChannels := store.setDirtyChannelsAdd.foldl (fun db name => db.insert name) erased
    usedAddresses := store.setDirtySeenAddressAdd.foldl (fun db address => db.insert address) store.usedAddresses
    setDirtyChannelsRemove := ∅
    setDirtyChannelsAdd := ∅
    setDirtySeenAddressAdd := ∅
    setSubscribedChannelsAskedForFalse := ∅
    setAddressAskedForFalse := ∅ }

end ChannelStore

/-! ## Calls -/

/-- The globals of the messaging layer. -/
structure Messaging where
  messages : MessageStore
  channels : ChannelStore

inductive MessagingCall where
  | addMessage (message : CMessage)
  | removeMessage (out : COutPoint)
  | orphanMessage (out : COutPoint)
  | getMessage (out : COutPoint)
  | addChannel (name : Bytes)
  | removeChannel (name : Bytes)
  | isChannelSubscribed (name : Bytes)
  | addAddressSeen (address : Bytes)
  | isAddressSeen (address : Bytes)
  | flushMessages
  | flushChannels

namespace Messaging

def start (maxSize : Nat) : Messaging := ⟨.start maxSize, .start maxSize⟩

variable (globals : Messaging)

def perform : MessagingCall → Messaging
  | .addMessage message => { globals with messages := globals.messages.addMessage message }
  | .removeMessage out => { globals with messages := globals.messages.removeMessage out }
  | .orphanMessage out => { globals with messages := globals.messages.orphanMessage out }
  | .getMessage out => { globals with messages := (globals.messages.getMessage out).2 }
  | .addChannel name => { globals with channels := globals.channels.addChannel name }
  | .removeChannel name => { globals with channels := globals.channels.removeChannel name }
  | .isChannelSubscribed name => { globals with channels := (globals.channels.isChannelSubscribed name).2 }
  | .addAddressSeen address => { globals with channels := globals.channels.addAddressSeen address }
  | .isAddressSeen address => { globals with channels := (globals.channels.isAddressSeen address).2 }
  | .flushMessages => { globals with messages := globals.messages.flush }
  | .flushChannels => { globals with channels := globals.channels.flush }

end Messaging

/-! ## Channel patterns -/

/-- The table of `GlobMatchChannel`, `false` where nothing was written. -/
abbrev GlobTable := Nat → Nat → Bool

def GlobTable.set (dp : GlobTable) (i j : Nat) (value : Bool) : GlobTable :=
  fun i' j' => if i' = i ∧ j' = j then value else dp i' j'

section GlobMatchChannel

variable (pattern channel : Bytes)

/-- The first column. The loops count from zero: `i` and `j` stand for `i - 1` and `j - 1` of the
source. L217-220 -/
def globColumn (dp : GlobTable) (i : Nat) : GlobTable :=
  if pattern[i]? = some 42 then dp.set (i + 1) 0 (dp i 0) else dp

/-- L223-227 -/
def globCell (i : Nat) (dp : GlobTable) (j : Nat) : GlobTable :=
  if pattern[i]? = some 42 then dp.set (i + 1) (j + 1) (dp i (j + 1) || dp (i + 1) j)
  else if pattern[i]? = channel[j]? then dp.set (i + 1) (j + 1) (dp i j)
  else dp

/-- L208-231 -/
def globMatchChannel : Bool :=
  if pattern.isEmpty then true
  else
    let m := pattern.length
    let n := channel.length
    let dp : GlobTable := GlobTable.set (fun _ _ => false) 0 0 true
    let dp := (List.range m).foldl (globColumn pattern) dp
    let dp := (List.range m).foldl
      (fun dp i => (List.range n).foldl (globCell pattern channel i) dp) dp
    dp m n

end GlobMatchChannel

end HempCore
