import HempCore.Lib.Run
import HempCore.Lib.WriteBack
import HempCore.Model.Messages

/-!
# The message store as plain maps

Read through its layers, the store is a map of messages and two sets. The layers hide three kinds of
change: a message that waits to be written is not replaced, an orphan that waits to be written is not
looked up, and a cache is not told what a flush writes. Away from these every answer is that of the
plain maps.
-/

set_option autoImplicit false

namespace HempCore

open Lib Std Function

/-! ## Plain maps -/

structure PlainMessaging where
  messages : COutPoint → Option CMessage
  channels : Set Bytes
  seen : Set Bytes

namespace PlainMessaging

def start : PlainMessaging := ⟨fun _ => none, ∅, ∅⟩

variable (plain : PlainMessaging)

/-- Questions and flushes change nothing. -/
def perform : MessagingCall → PlainMessaging
  | .addMessage message => { plain with messages := update plain.messages message.out (some message) }
  | .removeMessage out => { plain with messages := update plain.messages out none }
  | .orphanMessage out =>
    { plain with messages := update plain.messages out ((plain.messages out).map CMessage.orphaned) }
  | .addChannel name => { plain with channels := insert name plain.channels }
  | .removeChannel name => { plain with channels := plain.channels \ {name} }
  | .addAddressSeen address => { plain with seen := insert address plain.seen }
  | _ => plain

end PlainMessaging

/-! ## Messages -/

namespace MessageStore

variable {store : MessageStore} {messages : COutPoint → Option CMessage} {out : COutPoint}

/-- What the layers other than the cache and the orphans say about an outpoint. -/
def view (store : MessageStore) (out : COutPoint) : Option CMessage :=
  store.mapDirtyMessagesAdd[out]?.or
    (if store.setDirtyMessagesRemove.contains out then none else store.pmessagedb[out]?)

/-- The store holds the messages of a map. -/
structure Tracks (store : MessageStore) (messages : COutPoint → Option CMessage) : Prop where
  agrees : store.pMessagesCache.Agrees (store.pmessagedb[·]?)
  view : ∀ out, store.view out = messages out
  added : ∀ out (m : CMessage), store.mapDirtyMessagesAdd[out]? = some m →
    m.out = out ∧ store.setDirtyMessagesRemove.contains out = false
  stored : ∀ out (m : CMessage), store.pmessagedb[out]? = some m → m.out = out
  /-- What waits to be written as an orphan is an orphan in the database. -/
  orphans : ∀ out (m : CMessage), store.mapDirtyMessagesOrphaned[out]? = some m →
    m.out = out ∧ store.mapDirtyMessagesAdd[out]? = none ∧ store.setDirtyMessagesRemove.contains out = false ∧
      store.pmessagedb[out]? = some m.orphaned

theorem tracks_start (maxSize : Nat) : (start maxSize).Tracks fun _ => none where
  agrees := LRUCache.agrees_empty maxSize
  view out := by simp [MessageStore.view, start]
  added out m h := by simp [start] at h
  stored out m h := by simp [start] at h
  orphans out m h := by simp [start] at h

theorem getMessage_eq (hagrees : store.pMessagesCache.Agrees (store.pmessagedb[·]?)) (out : COutPoint) :
    ∃ cache, cache.Agrees (store.pmessagedb[·]?) ∧
      store.getMessage out = (store.view out, { store with pMessagesCache := cache }) := by
  unfold getMessage view
  cases hadd : store.mapDirtyMessagesAdd[out]? with
  | some m => exact ⟨_, hagrees, rfl⟩
  | none =>
    simp only [Option.none_or]
    split_ifs with hremove
    · exact ⟨_, hagrees, rfl⟩
    · cases hcache : store.pMessagesCache.get? out with
      | some m => exact ⟨_, hagrees.promote out, by simp only [hagrees out m hcache]⟩
      | none =>
        cases hdb : store.pmessagedb[out]? with
        | some m => exact ⟨_, hagrees.put hdb fun _ _ => rfl, by simp only⟩
        | none => exact ⟨_, hagrees, by simp only⟩

section

variable (h : store.Tracks messages)
include h

theorem Tracks.withCache {cache : LRUCache COutPoint CMessage}
    (hcache : cache.Agrees (store.pmessagedb[·]?)) : { store with pMessagesCache := cache }.Tracks messages :=
  ⟨hcache, h.view, h.added, h.stored, h.orphans⟩

theorem Tracks.getMessage (out : COutPoint) :
    (store.getMessage out).1 = messages out ∧ (store.getMessage out).2.Tracks messages := by
  obtain ⟨cache, hcache, heq⟩ := getMessage_eq h.agrees out
  rw [heq]
  exact ⟨h.view out, h.withCache hcache⟩

theorem Tracks.addMessage {message : CMessage}
    (hnew : ∀ old ∈ store.mapDirtyMessagesAdd[message.out]?, old = message) :
    (store.addMessage message).Tracks (update messages message.out (some message)) := by
  have hadd : ∀ out, (store.addMessage message).mapDirtyMessagesAdd[out]? =
      if out = message.out then some message else store.mapDirtyMessagesAdd[out]? := by
    intro out
    simp only [MessageStore.addMessage, getElem?_insertIfNew_eq]
    split_ifs with hout
    · subst hout
      cases hold : store.mapDirtyMessagesAdd[message.out]? with
      | none => rfl
      | some old => rw [hnew old hold, Option.getD_some]
    · rfl
  have hmem : ∀ out, (store.addMessage message).setDirtyMessagesRemove.contains out = true ↔
      out ≠ message.out ∧ store.setDirtyMessagesRemove.contains out = true := by
    intro out
    rw [TreeSet.contains_iff_mem, TreeSet.contains_iff_mem, MessageStore.addMessage, mem_erase_iff]
  have hremove : ∀ out, out ≠ message.out →
      (store.addMessage message).setDirtyMessagesRemove.contains out = store.setDirtyMessagesRemove.contains out := by
    intro out hout
    rw [Bool.eq_iff_iff, hmem, and_iff_right hout]
  refine ⟨h.agrees, fun out => ?_, fun out m hm => ?_, h.stored, fun out m hm => ?_⟩
  · by_cases hout : out = message.out
    · rw [MessageStore.view, hadd, if_pos hout, hout, update_self, Option.some_or]
    · rw [MessageStore.view, hadd, if_neg hout, hremove out hout, update_of_ne hout, ← h.view out]
      rfl
  · rw [hadd] at hm
    split_ifs at hm with hout
    · refine ⟨by rw [← Option.some.inj hm, hout], ?_⟩
      rw [Bool.eq_false_iff, ne_eq, hmem]
      exact fun hcontains => hcontains.1 hout
    · rw [hremove out hout]
      exact h.added out m hm
  · simp only [MessageStore.addMessage, getElem?_erase_eq] at hm
    split_ifs at hm with hout
    rw [hadd, if_neg hout, hremove out hout]
    exact h.orphans out m hm

theorem Tracks.removeMessage (out : COutPoint) :
    (store.removeMessage out).Tracks (update messages out none) := by
  have hadd : ∀ j, (store.removeMessage out).mapDirtyMessagesAdd[j]? =
      if j = out then none else store.mapDirtyMessagesAdd[j]? := by
    intro j
    rw [MessageStore.removeMessage, getElem?_erase_eq]
  have hremove : ∀ j, (store.removeMessage out).setDirtyMessagesRemove.contains j = true ↔
      j = out ∨ store.setDirtyMessagesRemove.contains j = true := by
    intro j
    rw [TreeSet.contains_iff_mem, TreeSet.contains_iff_mem, MessageStore.removeMessage, mem_insert_iff]
  have hkept : ∀ j, j ≠ out → store.setDirtyMessagesRemove.contains j = false →
      (store.removeMessage out).setDirtyMessagesRemove.contains j = false := by
    intro j hj hcontains
    rw [Bool.eq_false_iff, ne_eq, hremove, not_or]
    exact ⟨hj, by simp [hcontains]⟩
  refine ⟨h.agrees, fun j => ?_, fun j m hm => ?_, h.stored, fun j m hm => ?_⟩
  · by_cases hj : j = out
    · rw [MessageStore.view, hadd, if_pos hj, if_pos ((hremove j).mpr (.inl hj)), hj, update_self]
      rfl
    · rw [MessageStore.view, hadd, if_neg hj, update_of_ne hj, ← h.view j, MessageStore.view]
      simp only [hremove, hj, false_or]
      rfl
  · rw [hadd] at hm
    split_ifs at hm with hj
    exact (h.added j m hm).imp_right (hkept j hj)
  · simp only [MessageStore.removeMessage, getElem?_erase_eq] at hm
    split_ifs at hm with hj
    obtain ⟨hout, hnone, hcontains, hdb⟩ := h.orphans j m hm
    exact ⟨hout, by rw [hadd, if_neg hj, hnone], hkept j hj hcontains, hdb⟩

end

/-- What lies under the messages that wait to be written is the orphan of the message seen. -/
def OrphanBelow (store : MessageStore) (out : COutPoint) : Prop :=
  match store.mapDirtyMessagesAdd[out]? with
  | some m => store.pmessagedb[out]? = some m.orphaned
  | none => store.setDirtyMessagesRemove.contains out = true ∨
      ∀ m ∈ store.pmessagedb[out]?, m.status = .ORPHAN

instance (store : MessageStore) (out : COutPoint) : Decidable (store.OrphanBelow out) :=
  match h : store.mapDirtyMessagesAdd[out]? with
  | some m => decidable_of_iff (store.pmessagedb[out]? = some m.orphaned) (by simp [OrphanBelow, h])
  | none => decidable_of_iff (store.setDirtyMessagesRemove.contains out = true ∨
      ∀ m ∈ store.pmessagedb[out]?, m.status = .ORPHAN) (by simp [OrphanBelow, h])

theorem OrphanBelow.stored {m : CMessage} (h : store.OrphanBelow out)
    (hview : store.view out = some m) : store.pmessagedb[out]? = some m.orphaned := by
  unfold OrphanBelow at h
  unfold view at hview
  cases hadd : store.mapDirtyMessagesAdd[out]? with
  | some m' =>
    rw [hadd] at h hview
    rw [← Option.some.inj hview]
    exact h
  | none =>
    rw [hadd, Option.none_or] at hview
    rw [hadd] at h
    split_ifs at hview with hremove
    have hstatus := h.resolve_left hremove m hview
    rw [hview]
    cases m
    subst hstatus
    rfl

theorem Tracks.not_removed (h : store.Tracks messages) {m : CMessage} (hm : store.view out = some m) :
    store.setDirtyMessagesRemove.contains out = false := by
  unfold MessageStore.view at hm
  cases hadd : store.mapDirtyMessagesAdd[out]? with
  | some m' => exact (h.added out m' hadd).2
  | none =>
    rw [hadd, Option.none_or] at hm
    split_ifs at hm with hremove
    exact Bool.eq_false_iff.mpr hremove

theorem Tracks.orphan (h : store.Tracks messages) {m : CMessage} (hbelow : store.OrphanBelow out)
    (hm : store.view out = some m) : (store.orphan m).Tracks (update messages out (some m.orphaned)) := by
  have hdb := hbelow.stored hm
  have hout : m.out = out := h.stored out m.orphaned hdb
  have hkept : store.setDirtyMessagesRemove.contains out = false := h.not_removed hm
  have hadd : ∀ j, (store.orphan m).mapDirtyMessagesAdd[j]? = if j = out then none else store.mapDirtyMessagesAdd[j]? := by
    intro j
    rw [MessageStore.orphan, getElem?_erase_eq, hout]
  refine ⟨h.agrees, fun j => ?_, fun j m' hm' => ?_, h.stored, fun j m' hm' => ?_⟩
  · by_cases hj : j = out
    · subst hj
      rw [MessageStore.view, hadd, if_pos rfl, Option.none_or, update_self]
      show (if store.setDirtyMessagesRemove.contains j then none else store.pmessagedb[j]?) = _
      rw [hkept, hdb]
      rfl
    · rw [MessageStore.view, hadd, if_neg hj, update_of_ne hj, ← h.view j]
      rfl
  · rw [hadd] at hm'
    split_ifs at hm' with hj
    exact h.added j m' hm'
  · simp only [MessageStore.orphan, getElem?_insert_eq, hout] at hm'
    rw [hadd]
    split_ifs at hm' ⊢ with hj
    · rw [← Option.some.inj hm', hj]
      exact ⟨hout, rfl, hkept, hdb⟩
    · exact h.orphans j m' hm'

theorem Tracks.orphanMessage (h : store.Tracks messages) (hbelow : store.OrphanBelow out) :
    (store.orphanMessage out).Tracks (update messages out ((messages out).map CMessage.orphaned)) := by
  obtain ⟨cache, hcache, heq⟩ := getMessage_eq h.agrees out
  unfold MessageStore.orphanMessage
  rw [heq, ← h.view out]
  cases hm : store.view out with
  | some m => exact (h.withCache hcache).orphan hbelow hm
  | none =>
    have hsame : update messages out none = messages := by
      rw [← hm, h.view out, update_eq_self]
    rw [Option.map_none, hsame]
    exact h.withCache hcache

/-- No message that is cached is removed or replaced by a flush. -/
def CacheCurrent (store : MessageStore) : Prop :=
  (∀ out ∈ store.setDirtyMessagesRemove.toList, store.pMessagesCache.get? out = none) ∧
    ∀ p ∈ store.mapDirtyMessagesAdd.toList, ∀ old ∈ store.pMessagesCache.get? p.1, old = p.2

/-- A flush writes the orphans over the stored messages, and the new messages over both. -/
theorem getElem?_flush (hadded : ∀ out (m : CMessage), store.mapDirtyMessagesAdd[out]? = some m → m.out = out)
    (horphans : ∀ out (m : CMessage), store.mapDirtyMessagesOrphaned[out]? = some m → m.out = out) (out : COutPoint) :
    store.flush.pmessagedb[out]? =
      store.mapDirtyMessagesAdd[out]?.or ((store.mapDirtyMessagesOrphaned[out]?.map CMessage.orphaned).or
        (if store.setDirtyMessagesRemove.contains out then none else store.pmessagedb[out]?)) := by
  have hrest : ∀ (k : COutPoint) (m : CMessage),
      (store.mapDirtyMessagesAdd.foldl (fun orphans out _ => orphans.erase out) store.mapDirtyMessagesOrphaned)[k]? =
        some m → m.orphaned.out = k := by
    intro k m hm
    rw [getElem?_foldl_eraseKeys] at hm
    split_ifs at hm
    exact horphans k m hm
  rw [MessageStore.flush]
  simp only [writeMessage]
  rw [getElem?_foldl_write (fun m : CMessage => m.orphaned.out) CMessage.orphaned hrest,
    getElem?_foldl_write CMessage.out (fun m => m) hadded, getElem?_foldl_erase, getElem?_foldl_eraseKeys,
    Option.map_id_fun']
  cases store.mapDirtyMessagesAdd[out]? <;> simp

theorem Tracks.flush_getElem? (h : store.Tracks messages) (out : COutPoint) : store.flush.pmessagedb[out]? = store.view out := by
  rw [getElem?_flush (fun k m hm => (h.added k m hm).1) (fun k m hm => (h.orphans k m hm).1), MessageStore.view]
  cases hm : store.mapDirtyMessagesOrphaned[out]? with
  | none => rfl
  | some m =>
    obtain ⟨-, -, hkept, hdb⟩ := h.orphans out m hm
    rw [hkept, hdb]
    rfl

theorem Tracks.flush (h : store.Tracks messages) (hcurrent : store.CacheCurrent) : store.flush.Tracks messages := by
  refine ⟨fun out m hm => ?_, fun out => ?_, fun out m hm => ?_, fun out m hm => ?_, fun out m hm => ?_⟩
  · show store.flush.pmessagedb[out]? = some m
    have hm' : store.pMessagesCache.get? out = some m := hm
    rw [h.flush_getElem?, MessageStore.view]
    cases hadd : store.mapDirtyMessagesAdd[out]? with
    | some m' =>
      rw [hcurrent.2 (out, m') (TreeMap.mem_toList_iff_getElem?_eq_some.mpr hadd) m hm']
      rfl
    | none =>
      have hkept : store.setDirtyMessagesRemove.contains out = false := by
        rw [Bool.eq_false_iff, ne_eq, TreeSet.contains_iff_mem, ← TreeSet.mem_toList]
        intro hmem
        rw [hcurrent.1 out hmem] at hm'
        cases hm'
      rw [hkept]
      exact h.agrees out m hm'
  · rw [← h.view out, ← h.flush_getElem? out]
    simp [MessageStore.view, MessageStore.flush]
  · simp [MessageStore.flush] at hm
  · rw [h.flush_getElem?, MessageStore.view] at hm
    cases hadd : store.mapDirtyMessagesAdd[out]? with
    | some m' =>
      rw [hadd] at hm
      exact Option.some.inj hm ▸ (h.added out m' hadd).1
    | none =>
      rw [hadd, Option.none_or] at hm
      split_ifs at hm
      exact h.stored out m hm
  · simp [MessageStore.flush] at hm

end MessageStore

/-! ## Channels and addresses -/

namespace ChannelStore

variable {store : ChannelStore} {channels seen : Set Bytes}

/-- The store holds the channels and addresses of two sets. -/
structure Tracks (store : ChannelStore) (channels seen : Set Bytes) : Prop where
  channelsRead : Remembers store.pMessageSubscribedChannelsCache store.setSubscribedChannelsAskedForFalse
    store.myMessageChannels
  channelsHeld : ∀ name, name ∈ channels ↔
    name ∈ store.setDirtyChannelsAdd ∨ name ∉ store.setDirtyChannelsRemove ∧ name ∈ store.myMessageChannels
  addressesRead : Remembers store.pMessagesSeenAddressCache store.setAddressAskedForFalse store.usedAddresses
  addressesHeld : ∀ address, address ∈ seen ↔
    address ∈ store.setDirtySeenAddressAdd ∨ address ∈ store.usedAddresses

theorem tracks_start (maxSize : Nat) : (start maxSize).Tracks ∅ ∅ where
  channelsRead := Remembers.empty maxSize
  channelsHeld name := by simp [start]
  addressesRead := Remembers.empty maxSize
  addressesHeld address := by simp [start]

section

variable (h : store.Tracks channels seen)
include h

theorem Tracks.isChannelSubscribed (name : Bytes) :
    ((store.isChannelSubscribed name).1 = true ↔ name ∈ channels) ∧ (store.isChannelSubscribed name).2.Tracks channels seen := by
  rw [h.channelsHeld]
  unfold ChannelStore.isChannelSubscribed
  simp only [TreeSet.contains_iff_mem]
  split_ifs with hadd hremove hcache hmissed hdb
  · exact ⟨by simp [hadd], h⟩
  · exact ⟨by simp [hadd, hremove], h⟩
  · exact ⟨by simp [hremove, h.channelsRead.1 name hcache], h⟩
  · exact ⟨by simp [hadd, h.channelsRead.2 name hmissed], h⟩
  · exact ⟨by simp [hremove, hdb], ⟨h.channelsRead.found hdb, h.channelsHeld, h.addressesRead, h.addressesHeld⟩⟩
  · exact ⟨by simp [hadd, hdb], ⟨h.channelsRead.insert hdb, h.channelsHeld, h.addressesRead, h.addressesHeld⟩⟩

theorem Tracks.isAddressSeen (address : Bytes) :
    ((store.isAddressSeen address).1 = true ↔ address ∈ seen) ∧ (store.isAddressSeen address).2.Tracks channels seen := by
  rw [h.addressesHeld]
  unfold ChannelStore.isAddressSeen
  simp only [TreeSet.contains_iff_mem]
  split_ifs with hadd hcache hmissed hdb
  · exact ⟨by simp [hadd], h⟩
  · exact ⟨by simp [h.addressesRead.1 address hcache], h⟩
  · exact ⟨by simp [hadd, h.addressesRead.2 address hmissed], h⟩
  · exact ⟨by simp [hdb], ⟨h.channelsRead, h.channelsHeld, h.addressesRead.found hdb, h.addressesHeld⟩⟩
  · exact ⟨by simp [hadd, hdb], ⟨h.channelsRead, h.channelsHeld, h.addressesRead.insert hdb, h.addressesHeld⟩⟩

theorem Tracks.addChannel (name : Bytes) :
    (store.addChannel name).Tracks (insert name channels) seen := by
  refine ⟨h.channelsRead.erase name, fun j => ?_, h.addressesRead, h.addressesHeld⟩
  rw [Set.mem_insert_iff, h.channelsHeld]
  simp only [ChannelStore.addChannel, mem_insert_iff, mem_erase_iff]
  tauto

theorem Tracks.removeChannel (name : Bytes) :
    (store.removeChannel name).Tracks (channels \ {name}) seen := by
  refine ⟨h.channelsRead, fun j => ?_, h.addressesRead, h.addressesHeld⟩
  rw [Set.mem_sdiff, Set.mem_singleton_iff, h.channelsHeld]
  simp only [ChannelStore.removeChannel, mem_insert_iff, mem_erase_iff]
  tauto

/-- The set of missed addresses keeps the address, which the waiting addresses hide until the flush
empties both. -/
theorem Tracks.addAddressSeen (address : Bytes) :
    (store.addAddressSeen address).Tracks channels (insert address seen) := by
  refine ⟨h.channelsRead.erase address, h.channelsHeld, h.addressesRead, fun j => ?_⟩
  rw [Set.mem_insert_iff, h.addressesHeld]
  simp only [ChannelStore.addAddressSeen, mem_insert_iff]
  tauto

end

/-- No channel that is cached is removed by a flush. -/
def CacheCurrent (store : ChannelStore) : Prop :=
  ∀ name ∈ store.setDirtyChannelsRemove.toList, store.pMessageSubscribedChannelsCache.get? name = none

theorem Tracks.flush (h : store.Tracks channels seen) (hcurrent : store.CacheCurrent) : store.flush.Tracks channels seen := by
  have hchannels : ∀ name, name ∈ store.flush.myMessageChannels ↔ name ∈ channels := by
    intro name
    rw [h.channelsHeld, ChannelStore.flush, mem_foldl_insert, mem_foldl_erase]
  have haddresses : ∀ address, address ∈ store.flush.usedAddresses ↔ address ∈ seen := by
    intro address
    rw [h.addressesHeld, ChannelStore.flush, mem_foldl_insert]
  refine ⟨⟨fun name hname => ?_, fun name hname => ?_⟩, fun name => ?_,
    ⟨fun address haddress => ?_, fun address haddress => ?_⟩, fun address => ?_⟩
  · rw [hchannels, h.channelsHeld]
    refine .inr ⟨fun hremove => ?_, h.channelsRead.1 name hname⟩
    have hnone := hcurrent name (TreeSet.mem_toList.mpr hremove)
    have hsome : (store.pMessageSubscribedChannelsCache.get? name).isSome = true := hname
    rw [hnone] at hsome
    cases hsome
  · simp [ChannelStore.flush] at hname
  · rw [hchannels]
    simp [ChannelStore.flush]
  · rw [haddresses, h.addressesHeld]
    exact .inr (h.addressesRead.1 address haddress)
  · simp [ChannelStore.flush] at haddress
  · rw [haddresses]
    simp [ChannelStore.flush]

end ChannelStore

/-! ## Runs -/

namespace Messaging

/-- A call the layers do not hide: a message that waits to be written is not replaced by another, an
orphan is one in the database, and a flush changes nothing that is cached. -/
def Visible (globals : Messaging) : MessagingCall → Prop
  | .addMessage message => ∀ old ∈ globals.messages.mapDirtyMessagesAdd[message.out]?, old = message
  | .orphanMessage out => globals.messages.OrphanBelow out
  | .flushMessages => globals.messages.CacheCurrent
  | .flushChannels => globals.channels.CacheCurrent
  | _ => True

/-- The globals hold what the plain maps hold. -/
def Tracks (globals : Messaging) (plain : PlainMessaging) : Prop :=
  globals.messages.Tracks plain.messages ∧ globals.channels.Tracks plain.channels plain.seen

variable {globals : Messaging} {plain : PlainMessaging}

theorem Tracks.perform (h : globals.Tracks plain) {call : MessagingCall} (hcall : globals.Visible call) :
    (globals.perform call).Tracks (plain.perform call) := by
  cases call with
  | addMessage message => exact ⟨h.1.addMessage hcall, h.2⟩
  | removeMessage out => exact ⟨h.1.removeMessage out, h.2⟩
  | orphanMessage out => exact ⟨h.1.orphanMessage hcall, h.2⟩
  | getMessage out => exact ⟨(h.1.getMessage out).2, h.2⟩
  | addChannel name => exact ⟨h.1, h.2.addChannel name⟩
  | removeChannel name => exact ⟨h.1, h.2.removeChannel name⟩
  | isChannelSubscribed name => exact ⟨h.1, (h.2.isChannelSubscribed name).2⟩
  | addAddressSeen address => exact ⟨h.1, h.2.addAddressSeen address⟩
  | isAddressSeen address => exact ⟨h.1, (h.2.isAddressSeen address).2⟩
  | flushMessages => exact ⟨h.1.flush hcall, h.2⟩
  | flushChannels => exact ⟨h.1, h.2.flush hcall⟩

theorem Tracks.foldl (h : globals.Tracks plain) {calls : List MessagingCall}
    (hcalls : Along (fun g c => some (g.perform c)) Visible globals calls) :
    (calls.foldl Messaging.perform globals).Tracks (calls.foldl PlainMessaging.perform plain) := by
  induction calls generalizing globals plain with
  | nil => exact h
  | cons call calls ih => exact ih (h.perform hcalls.1) (hcalls.2 _ rfl)

def Answers (globals : Messaging) (plain : PlainMessaging) : Prop :=
  (∀ out, (globals.messages.getMessage out).1 = plain.messages out) ∧
    (∀ name, (globals.channels.isChannelSubscribed name).1 = true ↔ name ∈ plain.channels) ∧
    ∀ address, (globals.channels.isAddressSeen address).1 = true ↔ address ∈ plain.seen

theorem Tracks.answers (h : globals.Tracks plain) : globals.Answers plain :=
  ⟨fun out => (h.1.getMessage out).1, fun name => (h.2.isChannelSubscribed name).1, fun address => (h.2.isAddressSeen address).1⟩

/-- After calls the layers do not hide, every answer is that of the plain maps, and a flush that
hides nothing leaves all of them. -/
theorem answers_of_visible (maxSize : Nat) (calls : List MessagingCall)
    (hcalls : Along (fun g c => some (g.perform c)) Visible (start maxSize) calls) :
    (calls.foldl perform (start maxSize)).Answers (calls.foldl PlainMessaging.perform .start) ∧
      ∀ flush, flush = .flushMessages ∨ flush = .flushChannels → (calls.foldl perform (start maxSize)).Visible flush →
        ((calls.foldl perform (start maxSize)).perform flush).Answers (calls.foldl PlainMessaging.perform .start) := by
  have hstart : (start maxSize).Tracks .start :=
    ⟨MessageStore.tracks_start maxSize, ChannelStore.tracks_start maxSize⟩
  have htracks := hstart.foldl hcalls
  refine ⟨htracks.answers, ?_⟩
  rintro flush (rfl | rfl) hvisible
  · exact (htracks.perform hvisible).answers
  · exact (htracks.perform hvisible).answers

instance (globals : Messaging) : (call : MessagingCall) → Decidable (globals.Visible call)
  | .addMessage message => inferInstanceAs (Decidable
      (∀ old ∈ globals.messages.mapDirtyMessagesAdd[message.out]?, old = message))
  | .orphanMessage out => inferInstanceAs (Decidable (globals.messages.OrphanBelow out))
  | .flushMessages => inferInstanceAs (Decidable (_ ∧ ∀ p ∈ globals.messages.mapDirtyMessagesAdd.toList,
      ∀ old ∈ globals.messages.pMessagesCache.get? p.1, old = p.2))
  | .flushChannels => inferInstanceAs (Decidable (∀ name ∈ globals.channels.setDirtyChannelsRemove.toList,
      globals.channels.pMessageSubscribedChannelsCache.get? name = none))
  | .removeMessage _ | .getMessage _ | .addChannel _ | .removeChannel _ | .isChannelSubscribed _
  | .addAddressSeen _ | .isAddressSeen _ => isTrue trivial

def newsMessage : CMessage := .make ⟨1, 0⟩ (str "ABC~NEWS") [] 0 10

/-- A message that is stored as an orphan is added again, orphaned once more and read; its channel is subscribed and
left. -/
def newsCalls : List MessagingCall :=
  [.addChannel newsMessage.strName, .addMessage newsMessage.orphaned, .flushMessages, .flushChannels,
    .addMessage newsMessage, .orphanMessage newsMessage.out, .flushMessages, .getMessage newsMessage.out,
    .addAddressSeen (str "alice"), .removeChannel newsMessage.strName, .flushChannels]

theorem newsCalls_answers :
    ((newsCalls.foldl perform (start 1000)).messages.getMessage newsMessage.out).1 = some newsMessage.orphaned ∧
      ((newsCalls.foldl perform (start 1000)).channels.isChannelSubscribed newsMessage.strName).1 = false := by
  obtain ⟨⟨hmessages, hchannels, -⟩, -⟩ := answers_of_visible 1000 newsCalls (by decide +kernel)
  rw [hmessages, Bool.eq_false_iff, ne_eq, hchannels]
  constructor
  · decide +kernel
  · simp [newsCalls, PlainMessaging.perform, PlainMessaging.start]

/-- After some calls from the start the answers are those of the plain sets. -/
def AnswersAfter (calls : List MessagingCall) : Prop :=
  (calls.foldl perform (start 1000)).Answers (calls.foldl PlainMessaging.perform .start)

/-- A message orphaned before it was written is gone, one orphaned after it was read stays as it
was, and a channel that was looked up stays subscribed. -/
theorem stale_answers :
    ¬AnswersAfter [.addMessage newsMessage, .orphanMessage newsMessage.out] ∧
    ¬AnswersAfter [.addMessage newsMessage, .flushMessages, .getMessage newsMessage.out, .orphanMessage newsMessage.out,
      .flushMessages] ∧
    ¬AnswersAfter [.addChannel newsMessage.strName, .flushChannels, .isChannelSubscribed newsMessage.strName,
      .removeChannel newsMessage.strName, .flushChannels] := by
  refine ⟨fun h => absurd (h.1 newsMessage.out) (by decide +kernel),
    fun h => absurd (h.1 newsMessage.out) (by decide +kernel), fun h => ?_⟩
  have hmember := (h.2.1 newsMessage.strName).mp (by decide +kernel)
  simp [PlainMessaging.perform, PlainMessaging.start] at hmember

end Messaging

end HempCore
