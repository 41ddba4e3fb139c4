import HempCore.Analysis.MessageScan
import HempCore.Analysis.Messages
import HempCore.Model.MessageIndex

/-!
# Soundness of the message index

What a run must avoid for the synced height to mean what it says: while `-messageindex` is off, blocks whose
messages the store knows under another status must not come and go; a rescan must store the block it looked
up while that block is still active; and `clearmessages` must not run beside a rescan.
-/

set_option autoImplicit false

namespace HempCore

open Lib Std

/-! ## The store -/

namespace MessageStore

variable {store : MessageStore}

section

variable (store : MessageStore) (out : COutPoint)

/-- What a flush would leave in the database, when nothing is to be removed. -/
def recorded : Option CMessage :=
  store.mapDirtyMessagesAdd[out]?.or
    ((store.mapDirtyMessagesOrphaned[out]?.map CMessage.orphaned).or store.pmessagedb[out]?)

/-- A message is stored with a status other than `ORPHAN`. -/
def Held : Prop := ∃ m ∈ store.recorded out, m.status ≠ .ORPHAN

def Orphaned : Prop := ∃ m ∈ store.recorded out, m.status = .ORPHAN

end

instance (store : MessageStore) (out : COutPoint) : Decidable (store.Held out) :=
  inferInstanceAs (Decidable (∃ m ∈ _, _))

instance (store : MessageStore) (out : COutPoint) : Decidable (store.Orphaned out) :=
  inferInstanceAs (Decidable (∃ m ∈ _, _))

/-- The keys are those of the messages, nothing waits to be removed or is added as an orphan, and the cache
holds only what the database has. -/
structure Orderly (store : MessageStore) : Prop where
  kept : ∀ out, store.setDirtyMessagesRemove.contains out = false
  added : ∀ out (m : CMessage), store.mapDirtyMessagesAdd[out]? = some m → m.out = out ∧ m.status ≠ .ORPHAN
  orphans : ∀ out (m : CMessage), store.mapDirtyMessagesOrphaned[out]? = some m → m.out = out
  stored : ∀ out (m : CMessage), store.pmessagedb[out]? = some m → m.out = out
  cached : ∀ out (m : CMessage), store.pMessagesCache.get? out = some m → m.out = out ∧ store.pmessagedb[out]? ≠ none

theorem orderly_start (maxSize : Nat) : (start maxSize).Orderly where
  kept out := by simp [start]
  added out m h := by simp [start] at h
  orphans out m h := by simp [start] at h
  stored out m h := by simp [start] at h
  cached out m h := by simp [start, LRUCache.empty, LRUCache.get?] at h

theorem held_or_orphaned {out : COutPoint} (h : store.recorded out ≠ none) : store.Held out ∨ store.Orphaned out := by
  obtain ⟨m, hm⟩ := Option.ne_none_iff_exists'.mp h
  by_cases hstatus : m.status = .ORPHAN
  · exact .inr ⟨m, hm, hstatus⟩
  · exact .inl ⟨m, hm, hstatus⟩

theorem not_orphaned_of_held {out : COutPoint} (h : store.Held out) : ¬ store.Orphaned out := by
  obtain ⟨m, hm, hstatus⟩ := h
  rintro ⟨m', hm', hstatus'⟩
  cases hm.symm.trans hm'
  exact hstatus hstatus'

/-! ### One message -/

theorem Orderly.withCache (h : store.Orderly) {cache : LRUCache COutPoint CMessage}
    (hcache : ∀ out m, cache.get? out = some m → m.out = out ∧ store.pmessagedb[out]? ≠ none) :
    { store with pMessagesCache := cache }.Orderly := ⟨h.kept, h.added, h.orphans, h.stored, hcache⟩

/-- A lookup changes the cache alone; what it finds is recorded, and what it misses is not or waits to be written
as an orphan. -/
theorem Orderly.getMessage (h : store.Orderly) (out : COutPoint) :
    ∃ cache, (store.getMessage out).2 = { store with pMessagesCache := cache } ∧ { store with pMessagesCache := cache }.Orderly ∧
      (∀ m, (store.getMessage out).1 = some m → m.out = out ∧ store.recorded out ≠ none) ∧
      ((store.getMessage out).1 = none → ¬ store.Held out) := by
  have hrecorded : store.pmessagedb[out]? ≠ none → store.recorded out ≠ none := by
    intro hdb
    unfold recorded
    cases store.mapDirtyMessagesAdd[out]? <;> cases store.mapDirtyMessagesOrphaned[out]? <;> simp_all
  unfold MessageStore.getMessage
  cases hadd : store.mapDirtyMessagesAdd[out]? with
  | some m =>
    refine ⟨store.pMessagesCache, rfl, h, ?_, by rintro ⟨⟩⟩
    rintro _ ⟨⟩
    exact ⟨(h.added out m hadd).1, by simp [recorded, hadd]⟩
  | none =>
    simp only [h.kept out, Bool.false_eq_true, if_false]
    cases hcache : store.pMessagesCache.get? out with
    | some m =>
      refine ⟨store.pMessagesCache.promote out, rfl, h.withCache fun j m' hm' => ?_, ?_, by rintro ⟨⟩⟩
      · rw [LRUCache.get?_promote] at hm'
        exact h.cached j m' hm'
      · rintro _ ⟨⟩
        exact ⟨(h.cached out m hcache).1, hrecorded (h.cached out m hcache).2⟩
    | none =>
      cases hdb : store.pmessagedb[out]? with
      | some m =>
        refine ⟨store.pMessagesCache.put out m, rfl, h.withCache fun j m' hm' => ?_, ?_, by rintro ⟨⟩⟩
        · have hput := LRUCache.get?_of_get?_put hm'
          split_ifs at hput with hj
          · rw [hput, ← hj]
            exact ⟨h.stored out m hdb, by simp [hdb]⟩
          · exact h.cached j m' hput
        · rintro _ ⟨⟩
          exact ⟨h.stored out m hdb, hrecorded (by simp [hdb])⟩
      | none =>
        refine ⟨store.pMessagesCache, rfl, h, by rintro _ ⟨⟩, fun _ => ?_⟩
        rintro ⟨m, hm, hstatus⟩
        simp only [recorded, hadd, hdb, Option.none_or, Option.or_none, Option.mem_def, Option.map_eq_some_iff] at hm
        obtain ⟨m', -, rfl⟩ := hm
        exact hstatus rfl

/-- Some messages are stored: nothing is lost or becomes an orphan, they alone may become held, and those wanted are
held; a rescan leaves orphans as they are. -/
structure Stores (store store' : MessageStore) (messages : List CMessage) (wanted : CMessage → Prop) (rescan : Prop) :
    Prop where
  orderly : store'.Orderly
  kept : ∀ out, store.Held out → store'.Held out
  new : ∀ out, store'.Held out → store.Held out ∨ ∃ m ∈ messages, m.out = out
  orphaned : ∀ out, store'.Orphaned out → store.Orphaned out
  held : ∀ m ∈ messages, wanted m → (rescan → ¬ store.Orphaned m.out) → store'.Held m.out

variable {messages : List CMessage} {wanted : CMessage → Prop} {rescan : Prop} {m : CMessage}

theorem Orderly.addMessage (h : store.Orderly) {message : CMessage} (hm : message.out = m.out)
    (hstatus : message.status ≠ .ORPHAN) :
    Stores store (store.addMessage message) [m] wanted rescan := by
  have hadd : ∀ out, (store.addMessage message).mapDirtyMessagesAdd[out]? =
      if out = m.out then some (store.mapDirtyMessagesAdd[out]?.getD message) else store.mapDirtyMessagesAdd[out]? := by
    intro out
    rw [← hm]
    exact getElem?_insertIfNew_eq ..
  have hrecorded : ∀ out, out ≠ m.out → (store.addMessage message).recorded out = store.recorded out := by
    intro out hout
    unfold recorded
    rw [hadd, if_neg hout]
    simp [MessageStore.addMessage, getElem?_erase_eq, hm, hout]
  have hheld : (store.addMessage message).Held m.out := by
    refine ⟨store.mapDirtyMessagesAdd[m.out]?.getD message, ?_, ?_⟩
    · unfold recorded
      rw [hadd, if_pos rfl]
      rfl
    · cases hold : store.mapDirtyMessagesAdd[m.out]? with
      | none => exact hstatus
      | some m' => exact (h.added _ m' hold).2
  refine ⟨⟨fun out => ?_, fun out m' hm' => ?_, fun out m' hm' => ?_, h.stored, h.cached⟩, fun out hold => ?_,
    fun out hnew => ?_, fun out horph => ?_, fun m' hm' _ _ => List.mem_singleton.mp hm' ▸ hheld⟩
  · rw [Bool.eq_false_iff, ne_eq, TreeSet.contains_iff_mem]
    intro hmem
    have hold := (mem_erase_iff.mp hmem).2
    rw [← TreeSet.contains_iff_mem, h.kept out] at hold
    cases hold
  · rw [hadd] at hm'
    split_ifs at hm' with hout
    · cases hold : store.mapDirtyMessagesAdd[out]? with
      | none =>
        rw [hold] at hm'
        cases hm'
        exact ⟨hm.trans hout.symm, hstatus⟩
      | some old =>
        rw [hold] at hm'
        obtain rfl := Option.some.inj hm'
        exact h.added out _ hold
    · exact h.added out m' hm'
  · simp only [MessageStore.addMessage, getElem?_erase_eq] at hm'
    split_ifs at hm'
    exact h.orphans out m' hm'
  · by_cases hout : out = m.out
    · rwa [hout]
    · rwa [Held, hrecorded out hout]
  · by_cases hout : out = m.out
    · exact .inr ⟨m, List.mem_cons_self, hout.symm⟩
    · rw [Held, hrecorded out hout] at hnew
      exact .inl hnew
  · by_cases hout : out = m.out
    · rw [hout] at horph
      exact absurd horph (not_orphaned_of_held hheld)
    · rwa [Orphaned, hrecorded out hout] at horph

theorem Orderly.orphan (h : store.Orderly) (message : CMessage) :
    (store.orphan message).Orderly ∧ (∀ out, (store.orphan message).Held out ↔ out ≠ message.out ∧ store.Held out) ∧
      ∀ out, (store.orphan message).Orphaned out ↔ out = message.out ∨ store.Orphaned out := by
  have hrecorded : ∀ out, out ≠ message.out → (store.orphan message).recorded out = store.recorded out := by
    intro out hout
    simp [recorded, MessageStore.orphan, getElem?_erase_eq, getElem?_insert_eq, hout]
  have horphaned : (store.orphan message).Orphaned message.out := by
    refine ⟨message.orphaned, ?_, rfl⟩
    simp [recorded, MessageStore.orphan]
  refine ⟨⟨h.kept, fun out m hm => ?_, fun out m hm => ?_, h.stored, h.cached⟩, fun out => ?_, fun out => ?_⟩
  · simp only [MessageStore.orphan, getElem?_erase_eq] at hm
    split_ifs at hm
    exact h.added out m hm
  · simp only [MessageStore.orphan, getElem?_insert_eq] at hm
    split_ifs at hm with hout
    · cases hm
      exact hout.symm
    · exact h.orphans out m hm
  · by_cases hout : out = message.out
    · subst hout
      simpa using fun hheld => not_orphaned_of_held hheld horphaned
    · simp [Held, hrecorded out hout, hout]
  · by_cases hout : out = message.out
    · subst hout
      simp [horphaned]
    · simp [Orphaned, hrecorded out hout, hout]

theorem Orderly.orphanMessage (h : store.Orderly) (o : COutPoint) :
    (store.orphanMessage o).Orderly ∧ (∀ out, (store.orphanMessage o).Held out ↔ out ≠ o ∧ store.Held out) ∧
      ∀ out, (store.orphanMessage o).Orphaned out → out = o ∨ store.Orphaned out := by
  obtain ⟨cache, hsnd, horderly, hfound, hmissed⟩ := h.getMessage o
  unfold MessageStore.orphanMessage
  cases hget : store.getMessage o with
  | mk found after =>
    rw [hget] at hsnd hfound hmissed
    simp only at hsnd hfound hmissed
    subst hsnd
    cases found with
    | none =>
      refine ⟨horderly, fun out => ⟨fun hheld => ⟨?_, hheld⟩, fun hheld => hheld.2⟩, fun out => .inr⟩
      rintro rfl
      exact hmissed rfl hheld
    | some m =>
      obtain ⟨hout, -⟩ := hfound m rfl
      obtain ⟨hord, hheld, horph⟩ := horderly.orphan m
      rw [hout] at hheld horph
      exact ⟨hord, hheld, fun out hout' => (horph out).mp hout'⟩

theorem Orderly.flush (h : store.Orderly) : store.flush.Orderly ∧ ∀ out, store.flush.recorded out = store.recorded out := by
  have hdb : ∀ out, store.flush.pmessagedb[out]? = store.recorded out := by
    intro out
    rw [getElem?_flush (fun k m hm => (h.added k m hm).1) h.orphans, h.kept out]
    rfl
  have hkey : ∀ out m, store.recorded out = some m → m.out = out := by
    intro out m hm
    rw [recorded, Option.or_eq_some_iff, Option.or_eq_some_iff] at hm
    rcases hm with hm | ⟨-, hm | ⟨-, hm⟩⟩
    · exact (h.added out m hm).1
    · obtain ⟨m', hm', rfl⟩ := Option.map_eq_some_iff.mp hm
      exact h.orphans out m' hm'
    · exact h.stored out m hm
  refine ⟨⟨fun out => ?_, fun out m hm => ?_, fun out m hm => ?_, fun out m hm => ?_, fun out m hm => ?_⟩, fun out => ?_⟩
  · simp [MessageStore.flush]
  · simp [MessageStore.flush] at hm
  · simp [MessageStore.flush] at hm
  · exact hkey out m (hdb out ▸ hm)
  · obtain ⟨hout, hold⟩ := h.cached out m hm
    refine ⟨hout, ?_⟩
    rw [hdb, recorded]
    cases store.mapDirtyMessagesAdd[out]? <;> cases store.mapDirtyMessagesOrphaned[out]? <;> simp_all
  · rw [← hdb out]
    simp [recorded, MessageStore.flush]

/-! ### The messages of a block -/

theorem Stores.cons {store' store'' : MessageStore} (h : Stores store store' [m] wanted rescan)
    (h' : Stores store' store'' messages wanted rescan) : Stores store store'' (m :: messages) wanted rescan where
  orderly := h'.orderly
  kept out hout := h'.kept out (h.kept out hout)
  new out hout := by
    rcases h'.new out hout with hout | ⟨m', hm', hout⟩
    · exact (h.new out hout).imp_right fun ⟨m', hm', hout⟩ => ⟨m, List.mem_cons_self, List.mem_singleton.mp hm' ▸ hout⟩
    · exact .inr ⟨m', List.mem_cons_of_mem m hm', hout⟩
  orphaned out hout := h.orphaned out (h'.orphaned out hout)
  held m' hm' hwanted hno := by
    rcases List.mem_cons.mp hm' with rfl | hm'
    · exact h'.kept _ (h.held m' List.mem_cons_self hwanted hno)
    · exact h'.held m' hm' hwanted fun hrescan hout => hno hrescan (h.orphaned _ hout)

/-- A loop stores what each of its rounds stores. -/
theorem Orderly.foldl {f : MessageStore → CMessage → MessageStore}
    (hstep : ∀ store m, store.Orderly → m.status ≠ .ORPHAN → Stores store (f store m) [m] wanted rescan)
    (hstatus : ∀ m ∈ messages, m.status ≠ .ORPHAN) (h : store.Orderly) :
    Stores store (messages.foldl f store) messages wanted rescan := by
  induction messages generalizing store with
  | nil => exact ⟨h, fun _ => id, fun _ => .inl, fun _ => id, fun m hm => nomatch hm⟩
  | cons m rest ih =>
    have hm := hstep store m h (hstatus m List.mem_cons_self)
    exact hm.cons (ih (fun m' hm' => hstatus m' (List.mem_cons_of_mem m hm')) hm.orderly)

/-- A message that is not wanted, or that is known, is left as it is. -/
theorem Orderly.leave (h : store.Orderly) (hheld : wanted m → (rescan → ¬ store.Orphaned m.out) → store.Held m.out) :
    Stores store store [m] wanted rescan :=
  ⟨h, fun _ => id, fun _ => .inl, fun _ => id, fun _ hm' => List.mem_singleton.mp hm' ▸ hheld⟩

theorem Orderly.addMessages (h : store.Orderly) (nHeight : Nat) (wanted : Bytes → Bool)
    (hstatus : ∀ m ∈ messages, m.status ≠ .ORPHAN) :
    Stores store (store.addMessages nHeight wanted messages) messages (fun m => wanted m.strName = true) False := by
  refine Orderly.foldl (fun store m h hm => ?_) hstatus h
  split_ifs with hwanted
  · exact h.addMessage rfl hm
  · exact h.leave fun hw => absurd hw hwanted

theorem Orderly.rescanMessages (h : store.Orderly) (nHeight : Nat) (shouldStore : Bytes → Bool)
    (hstatus : ∀ m ∈ messages, m.status ≠ .ORPHAN) :
    Stores store (store.rescanMessages nHeight shouldStore messages) messages (fun m => shouldStore m.strName = true)
      True := by
  refine Orderly.foldl (fun store m h hm => ?_) hstatus h
  split_ifs with hstore
  · obtain ⟨cache, hsnd, horderly, hfound, -⟩ := h.getMessage m.out
    cases hget : store.getMessage m.out with
    | mk found after =>
      rw [hget] at hsnd hfound
      simp only at hsnd hfound
      subst hsnd
      cases found with
      | some m' =>
        exact { horderly.leave fun _ hno => (held_or_orphaned (hfound m' rfl).2).resolve_right (hno trivial) with }
      | none =>
        have hadd : Stores _ (MessageStore.addMessage _ { m with nBlockHeight := nHeight }) [m] (fun _ => True) True :=
          horderly.addMessage rfl hm
        exact { hadd with held := fun m' hm' _ => hadd.held m' hm' trivial }
  · exact h.leave fun hw => absurd hw hstore

theorem Orderly.orphanMessages (h : store.Orderly) (wanted : Bytes → Bool) (carriers : List (COutPoint × Bytes)) :
    (store.orphanMessages wanted carriers).Orderly ∧
      (∀ out, (store.orphanMessages wanted carriers).Held out ↔ store.Held out ∧ ∀ c ∈ carriers, wanted c.2 = true → c.1 ≠ out) ∧
      ∀ out, (store.orphanMessages wanted carriers).Orphaned out → store.Orphaned out ∨ ∃ c ∈ carriers, c.1 = out := by
  unfold MessageStore.orphanMessages
  induction carriers generalizing store with
  | nil => exact ⟨h, fun out => by simp, fun out => .inl⟩
  | cons c rest ih =>
    rw [List.foldl_cons]
    split_ifs with hwanted
    · obtain ⟨hord, hheld, horph⟩ := h.orphanMessage c.1
      obtain ⟨hord', hheld', horph'⟩ := ih hord
      refine ⟨hord', fun out => ?_, fun out hout => ?_⟩
      · rw [hheld', hheld]
        simp only [List.mem_cons, forall_eq_or_imp, hwanted, true_imp_iff, ne_comm (a := out)]
        rw [and_assoc, and_left_comm]
      · rcases horph' out hout with hout | ⟨c', hc', hout⟩
        · rcases horph out hout with rfl | hout
          · exact .inr ⟨c, List.mem_cons_self, rfl⟩
          · exact .inl hout
        · exact .inr ⟨c', List.mem_cons_of_mem c hc', hout⟩
    · obtain ⟨hord', hheld', horph'⟩ := ih h
      refine ⟨hord', fun out => ?_, fun out hout => ?_⟩
      · rw [hheld']
        simp [hwanted]
      · exact (horph' out hout).imp_right fun ⟨c', hc', hout⟩ => ⟨c', List.mem_cons_of_mem c hc', hout⟩

end MessageStore

/-! ## The index -/

namespace MessageIndex

open MessageStore (Held Orphaned)

/-- A block's messages are new, and disconnecting the block marks all of them. -/
def Carried (block : MessageBlock) : Prop :=
  ∀ m ∈ block.messages, m.status = .UNREAD ∧ (m.out, m.strName) ∈ block.carriers

/-- What the claim of the synced height is: with `-messageindex`, the messages of the blocks up to it are stored
with a status other than `ORPHAN`, and no other message is. -/
def Sound (s : MessageIndex) : Prop :=
  s.fMessageIndex = true →
    (∀ n ≤ s.nMessageIndexSyncedHeight, ∀ block ∈ s.blockAt n, ∀ m ∈ block.messages, s.store.Held m.out) ∧
    ∀ out, s.store.Held out → ∃ block ∈ s.chain, ∃ m ∈ block.messages, m.out = out

/-- What a step must meet. -/
def Proper (s : MessageIndex) : MessageEvent → Prop
  | .connect block subscribed => Carried block ∧
      (s.fMessageIndex = true ∨ ∀ m ∈ block.messages, subscribed m.strName = true ∨ ¬ s.store.Orphaned m.out)
  | .disconnect subscribed => s.fMessageIndex = true ∨
      ∀ block ∈ s.chain.getLast?, ∀ c ∈ block.carriers, subscribed c.2 = true ∨ ¬ s.store.Held c.1
  | .scan i _ => ∀ r ∈ s.rescans[i]?, r.fetched = s.blockAt r.nHeight
  | .clearMessages => s.rescans = []
  | _ => True

instance (block : MessageBlock) : Decidable (Carried block) := inferInstanceAs (Decidable (∀ m ∈ _, _))

instance (s : MessageIndex) : ∀ event, Decidable (s.Proper event)
  | .connect _ _ => inferInstanceAs (Decidable (_ ∧ _))
  | .disconnect _ => inferInstanceAs (Decidable (_ ∨ _))
  | .scan _ _ => inferInstanceAs (Decidable (∀ r ∈ _, _))
  | .clearMessages => inferInstanceAs (Decidable (_ = _))
  | .startRescan .. | .lookUp _ | .finishRescan _ | .failRescan _ | .flush | .restart _ => .isTrue trivial

def Covers (s : MessageIndex) (P : Nat → Prop) : Prop :=
  ∀ n, P n → ∀ block ∈ s.blockAt n, ∀ m ∈ block.messages, s.store.Held m.out

/-- What all proper steps keep. -/
structure Inv (nActivation : Nat) (s : MessageIndex) : Prop where
  orderly : s.store.Orderly
  carried : ∀ block ∈ s.chain, Carried block
  early : ∀ n < nActivation, ∀ block ∈ s.blockAt n, block.messages = []
  apart : s.chain.Pairwise fun b b' => ∀ c ∈ b.carriers, ∀ c' ∈ b'.carriers, c.1 ≠ c'.1
  active : ∀ out, s.store.Held out → ∃ block ∈ s.chain, ∃ m ∈ block.messages, m.out = out
  live : ∀ block ∈ s.chain, ∀ m ∈ block.messages, ¬ s.store.Orphaned m.out
  synced : s.fMessageIndex = true → s.Covers (· ≤ s.nMessageIndexSyncedHeight)
  scanned : s.fMessageIndex = true → ∀ r ∈ s.rescans, r.channelFilter = none →
    s.Covers fun n => r.nStartHeight ≤ n ∧ n < r.nHeight
  flag : s.metaIndexEnabled = some s.fMessageIndex

variable {nActivation : Nat} {s s' : MessageIndex} {block : MessageBlock} {subscribed : Bytes → Bool}

theorem Inv.sound (h : s.Inv nActivation) : s.Sound := fun hindex => ⟨h.synced hindex, h.active⟩

theorem mem_of_blockAt {n : Nat} (h : s.blockAt n = some block) {m : CMessage}
    (hm : m ∈ block.messages) : block ∈ s.chain := by
  unfold blockAt at h
  split_ifs at h
  · cases h
    cases hm
  · exact List.mem_of_getElem? h

theorem inv_start (maxSize : Nat) (fMessageIndex : Bool) : (start maxSize fMessageIndex).Inv nActivation where
  orderly := MessageStore.orderly_start maxSize
  carried _ hb := nomatch hb
  early n _ block hb := by
    by_contra hne
    obtain ⟨m, hm⟩ := List.exists_mem_of_ne_nil _ hne
    exact nomatch mem_of_blockAt hb hm
  apart := .nil
  active out hout := by
    obtain ⟨m, hm, -⟩ := hout
    simp [MessageStore.recorded, start, MessageStore.start] at hm
  live _ hb := nomatch hb
  synced _ n _ block hb m hm := nomatch mem_of_blockAt hb hm
  scanned _ r hr := nomatch hr
  flag := rfl

/-! ### Blocks -/

/-- The blocks of a chain that has grown by one. -/
theorem blockAt_of_append {b : MessageBlock} {n : Nat} (hchain : s'.chain = s.chain ++ [block])
    (hb : s'.blockAt n = some b) : s.blockAt n = some b ∨ n = s.chain.length + 1 ∧ b = block := by
  unfold blockAt at hb ⊢
  rw [hchain] at hb
  split_ifs at hb ⊢ with hn
  · exact .inl hb
  · rw [List.getElem?_append] at hb
    split_ifs at hb with hlt
    · exact .inl hb
    · obtain ⟨hlt', hget⟩ := List.getElem?_eq_some_iff.mp hb
      rw [List.length_singleton] at hlt'
      refine .inr ⟨by omega, ?_⟩
      rw [← hget]
      simp

theorem Inv.connect (h : s.Inv nActivation)
    (hproper : s.Proper (.connect block subscribed)) (hstep : s.connect nActivation block subscribed = some s') :
    s'.Inv nActivation := by
  obtain ⟨hcarried, hoff⟩ := hproper
  by_cases hguard : (s.chain.length + 1 < nActivation ∧ block.messages ≠ []) ∨
      ∃ b ∈ s.chain, ∃ c ∈ b.carriers, ∃ c' ∈ block.carriers, c.1 = c'.1
  · rw [MessageIndex.connect, if_pos hguard] at hstep
    cases hstep
  rw [MessageIndex.connect, if_neg hguard] at hstep
  cases hstep
  push Not at hguard
  obtain ⟨hearly, hapart⟩ := hguard
  obtain ⟨horderly, hkept, hnew, horph, hheld⟩ := h.orderly.addMessages (s.chain.length + 1)
    (fun name => s.fMessageIndex || subscribed name) fun m hm => by simp [(hcarried m hm).1]
  refine ⟨horderly, ?_, ?_, ?_, ?_, ?_, fun hindex n hn b hb m hm => ?_, fun hindex r hr hfilter n hn b hb m hm => ?_, h.flag⟩
  · intro b hb
    rcases List.mem_append.mp hb with hb | hb
    · exact h.carried b hb
    · exact List.mem_singleton.mp hb ▸ hcarried
  · intro n hn b hb
    rcases blockAt_of_append (s := s) rfl hb with hold | ⟨rfl, rfl⟩
    · exact h.early n hn b hold
    · exact hearly hn
  · rw [List.pairwise_append]
    refine ⟨h.apart, List.pairwise_singleton _ _, fun b hb b' hb' c hc c' hc' => ?_⟩
    rw [List.mem_singleton.mp hb'] at hc'
    exact hapart b hb c hc c' hc'
  · intro out hout
    rcases hnew out hout with hold | ⟨m, hm, rfl⟩
    · obtain ⟨b, hb, m, hm, hout⟩ := h.active out hold
      exact ⟨b, List.mem_append_left _ hb, m, hm, hout⟩
    · exact ⟨block, List.mem_append_right _ List.mem_cons_self, m, hm, rfl⟩
  · intro b hb m hm horphaned
    rcases List.mem_append.mp hb with hb | hb
    · exact h.live b hb m hm (horph m.out horphaned)
    · rw [List.mem_singleton.mp hb] at hm
      have hwanted : s.fMessageIndex = true ∨ subscribed m.strName = true := by
        rcases hoff with hindex | hoff
        · exact .inl hindex
        · exact .inr ((hoff m hm).resolve_right (not_not_intro (horph m.out horphaned)))
      exact MessageStore.not_orphaned_of_held (hheld m hm (by simpa using hwanted) False.elim) horphaned
  · -- what was stored of the old blocks stays, and the new block is stored as a whole
    have hindex' : s.fMessageIndex = true := hindex
    rcases blockAt_of_append (s := s) rfl hb with hold | ⟨-, rfl⟩
    swap
    · exact hheld m hm (by simp [hindex']) False.elim
    apply hkept
    replace hn : n ≤ s.advanceSyncedHeightIfContiguous nActivation (s.chain.length + 1) := by
      simpa only [if_pos hindex'] using hn
    have hlast : n ≤ s.chain.length := by
      unfold blockAt at hold
      split_ifs at hold with hzero
      · omega
      · have hlt := (List.getElem?_eq_some_iff.mp hold).1
        omega
    unfold advanceSyncedHeightIfContiguous at hn
    by_cases hle : n ≤ s.nMessageIndexSyncedHeight
    · exact h.synced hindex' n hle b hold m hm
    · split_ifs at hn with hact hcont
      · rw [h.early n (by omega) b hold] at hm
        cases hm
      · exact h.synced hindex' n (show n ≤ s.nMessageIndexSyncedHeight by omega) b hold m hm
      · exact absurd hn hle
  · rcases blockAt_of_append (s := s) rfl hb with hold | ⟨-, rfl⟩
    · exact hkept _ (h.scanned hindex r hr hfilter n hn b hold m hm)
    · exact hheld m hm (by simp [show s.fMessageIndex = true from hindex]) False.elim

theorem Inv.disconnect (h : s.Inv nActivation) (hproper : s.Proper (.disconnect subscribed))
    (hstep : s.disconnect subscribed = some s') : s'.Inv nActivation := by
  unfold MessageIndex.disconnect at hstep
  cases hlast : s.chain.getLast? with
  | none => rw [hlast] at hstep; cases hstep
  | some block =>
    rw [hlast] at hstep
    cases hstep
    obtain ⟨rest, hchain⟩ : ∃ rest, s.chain = rest ++ [block] := ⟨_, List.getLast?_eq_some_iff.mp hlast |>.choose_spec⟩
    obtain ⟨horderly, hheld, horph⟩ := h.orderly.orphanMessages (fun name => s.fMessageIndex || subscribed name) block.carriers
    rw [hchain, List.dropLast_concat]
    have hfront : ∀ b ∈ rest, b ∈ s.chain := fun b hb => hchain ▸ List.mem_append_left _ hb
    have happart := h.apart
    rw [hchain, List.pairwise_append] at happart
    -- an output of an earlier block is none that the last block marks
    have hother : ∀ b ∈ rest, ∀ m ∈ b.messages, ∀ c ∈ block.carriers, c.1 ≠ m.out := fun b hb m hm c hc heq =>
      happart.2.2 b hb block List.mem_cons_self _ (h.carried b (hfront b hb) m hm).2 c hc heq.symm
    have hat : ∀ n b, (if n = 0 then some ⟨[], []⟩ else rest[n - 1]?) = some b →
        s.blockAt n = some b ∧ (∀ m ∈ b.messages, ∀ c ∈ block.carriers, c.1 ≠ m.out) := by
      intro n b hb
      unfold blockAt
      split_ifs at hb ⊢ with hn
      · cases hb
        exact ⟨rfl, fun m hm => nomatch hm⟩
      · have hlt := (List.getElem?_eq_some_iff.mp hb).1
        rw [hchain, List.getElem?_append_left hlt]
        exact ⟨hb, hother b (List.mem_of_getElem? hb)⟩
    refine ⟨horderly, fun b hb => h.carried b (hfront b hb), fun n hn b hb => h.early n hn b (hat n b hb).1, happart.1, ?_,
      ?_, fun hindex n hn b hb m hm => ?_, fun hindex r hr hfilter n hn b hb m hm => ?_, h.flag⟩
    · intro out hout
      obtain ⟨hold, hunmarked⟩ := (hheld out).mp hout
      obtain ⟨b, hb, m, hm, rfl⟩ := h.active out hold
      have hmem := (h.carried b hb m hm).2
      rw [hchain] at hb
      rcases List.mem_append.mp hb with hb | hb
      · exact ⟨b, hb, m, hm, rfl⟩
      · obtain rfl := List.mem_singleton.mp hb
        exfalso
        rcases hproper with hindex | hoff
        · exact hunmarked _ hmem (by simp [hindex]) rfl
        · rcases hoff b hlast _ hmem with hsub | hno
          · exact hunmarked _ hmem (by simp [hsub]) rfl
          · exact hno hold
    · intro b hb m hm horphaned
      rcases horph m.out horphaned with hold | ⟨c, hc, hout⟩
      · exact h.live b (hfront b hb) m hm hold
      · exact hother b hb m hm c hc hout
    · obtain ⟨hb', hapart⟩ := hat n b hb
      exact (hheld m.out).mpr ⟨h.synced hindex n hn b hb' m hm, fun c hc _ => hapart m hm c hc⟩
    · obtain ⟨hb', hapart⟩ := hat n b hb
      exact (hheld m.out).mpr ⟨h.scanned hindex r hr hfilter n hn b hb' m hm, fun c hc _ => hapart m hm c hc⟩

/-! ### Steps between blocks -/

section

variable (h : s.Inv nActivation)
include h

/-- A step that leaves the chain and does not lose or bring back a message: what is left to show is about the
height and the rescans. -/
theorem Inv.transport (hchain : s'.chain = s.chain) (horderly : s'.store.Orderly)
    (hrecorded : ∀ out, s'.store.recorded out = s.store.recorded out)
    (hsynced : s'.fMessageIndex = true → s.Covers (· ≤ s'.nMessageIndexSyncedHeight))
    (hscanned : s'.fMessageIndex = true → ∀ r ∈ s'.rescans, r.channelFilter = none →
      s.Covers fun n => r.nStartHeight ≤ n ∧ n < r.nHeight)
    (hflag : s'.metaIndexEnabled = some s'.fMessageIndex) : s'.Inv nActivation := by
  have hheld : ∀ out, s'.store.Held out ↔ s.store.Held out := fun out => by simp only [Held, hrecorded]
  have horph : ∀ out, s'.store.Orphaned out ↔ s.store.Orphaned out := fun out => by simp only [Orphaned, hrecorded]
  have hat : ∀ n, s'.blockAt n = s.blockAt n := fun n => by simp only [blockAt, hchain]
  have hcovers : ∀ P, s.Covers P → s'.Covers P := by
    intro P hP n hn block hb m hm
    rw [hat] at hb
    exact (hheld m.out).mpr (hP n hn block hb m hm)
  refine ⟨horderly, hchain ▸ h.carried, fun n hn block hb => h.early n hn block (hat n ▸ hb), hchain ▸ h.apart, ?_, ?_,
    fun hindex => hcovers _ (hsynced hindex), fun hindex r hr hfilter => hcovers _ (hscanned hindex r hr hfilter), hflag⟩
  · intro out hout
    rw [hchain]
    exact h.active out ((hheld out).mp hout)
  · intro block hb m hm horphaned
    rw [hchain] at hb
    exact h.live block hb m hm ((horph m.out).mp horphaned)

theorem Inv.startRescan {start stop : Option Nat} {channelFilter : Option Bytes}
    (hstep : s.startRescan nActivation start stop channelFilter = some s') : s'.Inv nActivation := by
  simp only [MessageIndex.startRescan] at hstep
  split_ifs at hstep
  cases hstep
  refine h.transport rfl h.orderly (fun _ => rfl) h.synced (fun hindex r hr hfilter => ?_) h.flag
  rcases List.mem_append.mp hr with hr | hr
  · exact h.scanned hindex r hr hfilter
  · -- nothing is scanned yet
    obtain rfl := List.mem_singleton.mp hr
    intro n hn
    dsimp only at hn
    omega

theorem Inv.failRescan {i : Nat} (hstep : s.failRescan i = some s') : s'.Inv nActivation := by
  simp only [MessageIndex.failRescan] at hstep
  split_ifs at hstep
  cases hstep
  refine h.transport rfl h.orderly (fun _ => rfl) h.synced (fun hindex r hr => ?_) h.flag
  exact h.scanned hindex r (List.mem_of_mem_eraseIdx hr)

theorem Inv.lookUp {i : Nat} (hstep : s.lookUp i = some s') : s'.Inv nActivation := by
  simp only [MessageIndex.lookUp] at hstep
  cases hr : s.rescans[i]? with
  | none => rw [hr] at hstep; cases hstep
  | some r =>
    rw [hr] at hstep
    simp only at hstep
    split_ifs at hstep
    cases hb : s.blockAt r.nHeight with
    | none =>
      rw [hb] at hstep
      exact h.failRescan hstep
    | some block =>
      rw [hb] at hstep
      cases hstep
      refine h.transport rfl h.orderly (fun _ => rfl) h.synced (fun hindex r' hr' hfilter => ?_) h.flag
      rcases List.mem_or_eq_of_mem_set hr' with hr' | rfl
      · exact h.scanned hindex r' hr' hfilter
      · exact h.scanned hindex r (List.mem_of_getElem? hr) hfilter

/-- The block that is stored is still active, so its messages are none that a disconnect has marked. -/
theorem Inv.scan {i : Nat}
    (hproper : s.Proper (.scan i subscribed)) (hstep : s.scan i subscribed = some s') : s'.Inv nActivation := by
  simp only [MessageIndex.scan] at hstep
  cases hr : s.rescans[i]? with
  | none => rw [hr] at hstep; cases hstep
  | some r =>
    rw [hr] at hstep
    simp only at hstep
    have hfetched : r.fetched = s.blockAt r.nHeight := hproper r hr
    cases hb : r.fetched with
    | none => rw [hb] at hstep; cases hstep
    | some block =>
      rw [hb] at hstep
      cases hstep
      rw [hb] at hfetched
      have hmem : ∀ m ∈ block.messages, block ∈ s.chain := fun m hm => mem_of_blockAt hfetched.symm hm
      have hstatus : ∀ m ∈ block.messages, m.status ≠ .ORPHAN := fun m hm => by
        simp [(h.carried block (hmem m hm) m hm).1]
      obtain ⟨horderly, hmono, hnew, horph, hall⟩ := h.orderly.rescanMessages r.nHeight (s.shouldStore r subscribed) hstatus
      have hcovers : ∀ P, s.Covers P → ∀ n, P n → ∀ b ∈ s.blockAt n, ∀ m ∈ b.messages,
          (s.store.rescanMessages r.nHeight (s.shouldStore r subscribed) block.messages).Held m.out :=
        fun P hP n hn b hb m hm => hmono m.out (hP n hn b hb m hm)
      refine ⟨horderly, h.carried, h.early, h.apart, ?_, ?_, fun hindex => hcovers _ (h.synced hindex), ?_, h.flag⟩
      · intro out hout
        rcases hnew out hout with hold | ⟨m, hm, rfl⟩
        · exact h.active out hold
        · exact ⟨block, hmem m hm, m, hm, rfl⟩
      · intro b hb m hm horphaned
        exact h.live b hb m hm (horph m.out horphaned)
      · intro hindex r' hr' hfilter
        rcases List.mem_or_eq_of_mem_set hr' with hr' | rfl
        · exact hcovers _ (h.scanned hindex r' hr' hfilter)
        · intro n hn b hb m hm
          have hold := h.scanned hindex r (List.mem_of_getElem? hr) hfilter
          dsimp only at hn
          by_cases hlast : n = r.nHeight
          · subst hlast
            cases hfetched.trans hb
            refine hall m hm ?_ fun _ => h.live _ (hmem m hm) m hm
            have hon : s.fMessageIndex = true := hindex
            have hfilter' : r.channelFilter = none := hfilter
            simp [shouldStore, hfilter', hon]
          · exact hmono m.out (hold n ⟨hn.1, by omega⟩ b hb m hm)

theorem Inv.finishRescan {i : Nat} (hstep : s.finishRescan nActivation i = some s') :
    s'.Inv nActivation := by
  simp only [MessageIndex.finishRescan] at hstep
  cases hr : s.rescans[i]? with
  | none => rw [hr] at hstep; cases hstep
  | some r =>
    rw [hr] at hstep
    by_cases hrun : r.fetched.isSome = true ∨ r.nHeight ≠ r.nStopHeight + 1
    · simp only [if_pos hrun] at hstep
      cases hstep
    simp only [if_neg hrun] at hstep
    cases hstep
    push Not at hrun
    obtain ⟨horderly, hrecorded⟩ := h.orderly.flush
    refine h.transport rfl horderly hrecorded (fun hindex n hn block hb m hm => ?_) (fun hindex r' hr' => ?_) ?_
    · dsimp only at hn
      have hindex' : s.fMessageIndex = true := hindex
      split_ifs at hn with hclose
      · obtain ⟨-, hfilter, hstart⟩ := hclose
        by_cases hle : n ≤ s.nMessageIndexSyncedHeight
        · exact h.synced hindex' n hle block hb m hm
        · by_cases hscanned : r.nStartHeight ≤ n
          · refine h.scanned hindex' r (List.mem_of_getElem? hr) (Option.isNone_iff_eq_none.mp hfilter) n ?_ block hb m hm
            exact ⟨hscanned, by omega⟩
          · -- below the first block that was scanned nothing is missing: no message can be there
            rw [h.early n (by omega) block hb] at hm
            cases hm
      · exact h.synced hindex' n hn block hb m hm
    · exact h.scanned hindex r' (List.mem_of_mem_eraseIdx hr')
    · dsimp only
      split_ifs with hon
      · rw [hon]
      · exact h.flag

theorem Inv.clearMessages (hproper : s.Proper .clearMessages) : s.clearMessages.Inv nActivation := by
  have hnone : ∀ out, s.store.clear.recorded out = none := by
    intro out
    simp [MessageStore.recorded, MessageStore.clear, MessageStore.start]
  refine ⟨MessageStore.orderly_start _, h.carried, h.early, h.apart, ?_, ?_, ?_, ?_, h.flag⟩
  · rintro out ⟨m, hm, -⟩
    cases (hnone out).symm.trans hm
  · rintro block hb m hm ⟨m', hm', -⟩
    cases (hnone m.out).symm.trans hm'
  · intro hindex n hn block hb m hm
    obtain rfl : n = 0 := Nat.le_zero.mp hn
    cases hb
    cases hm
  · intro hindex r hr
    have hr' : r ∈ s.rescans := hr
    rw [show s.rescans = [] from hproper] at hr'
    cases hr'

theorem Inv.flush : s.flush.Inv nActivation := by
  obtain ⟨horderly, hrecorded⟩ := h.orderly.flush
  refine h.transport rfl horderly hrecorded h.synced h.scanned ?_
  show (if s.fMessageIndex = true then some true else s.metaIndexEnabled) = some s.fMessageIndex
  split_ifs with hon
  · rw [hon]
  · exact h.flag

/-- The height is kept only when the flag was on before, and then the flush has written it. -/
theorem Inv.restart (fMessageIndex : Bool) : (s.flush.load fMessageIndex).Inv nActivation := by
  obtain ⟨horderly, hrecorded⟩ := h.orderly.flush
  have hflag := h.flush.flag
  have hfresh : (s.flush.load fMessageIndex).store.Orderly := by
    refine ⟨fun out => ?_, fun out m hm => ?_, fun out m hm => ?_, horderly.stored, fun out m hm => ?_⟩
    · simp [load, MessageStore.start]
    · simp [load, MessageStore.start] at hm
    · simp [load, MessageStore.start] at hm
    · simp [load, MessageStore.start, LRUCache.empty, LRUCache.get?] at hm
  refine h.transport rfl hfresh (fun out => ?_) (fun hindex n hn => ?_) (by rintro _ r ⟨⟩) rfl
  · rw [← hrecorded out]
    simp [load, MessageStore.recorded, MessageStore.start, MessageIndex.flush, MessageStore.flush]
  · replace hindex : fMessageIndex = true := hindex
    simp only [load, hflag, hindex] at hn
    cases hon : s.fMessageIndex with
    | true =>
      simp [MessageIndex.flush, hon] at hn
      exact h.synced hon n hn
    | false =>
      simp [MessageIndex.flush, hon] at hn
      rw [hn]
      rintro block ⟨⟩ m hm
      cases hm

theorem Inv.step {event : MessageEvent} (hproper : s.Proper event)
    (hstep : s.step nActivation event = some s') : s'.Inv nActivation := by
  cases event with
  | connect block subscribed => exact h.connect hproper hstep
  | disconnect subscribed => exact h.disconnect hproper hstep
  | startRescan start stop channelFilter => exact h.startRescan hstep
  | lookUp i => exact h.lookUp hstep
  | scan i subscribed => exact h.scan hproper hstep
  | finishRescan i => exact h.finishRescan hstep
  | failRescan i => exact h.failRescan hstep
  | clearMessages =>
    cases hstep
    exact h.clearMessages hproper
  | flush =>
    cases hstep
    exact h.flush
  | restart fMessageIndex =>
    cases hstep
    exact h.restart fMessageIndex

end

end MessageIndex

/-! ## Accepted blocks -/

/-- What the index is told of an accepted block: scanning the block again finds the messages that connecting it
collected, and disconnecting it marks them when no script that carries one is unspendable. -/
theorem ofBlock_of_accepted {cfg : Config} {t : Int} {g : AssetGlobals} {nHeight : Nat}
    (hmessages : cfg.dep.messages = true) {coins : Coins} (hcoins : coins.All (Steady cfg cfg.dep)) {block : CBlock}
    {st : ConnectState} {setMessages : MessageSet}
    (h : connectBlockMessages cfg g coins nHeight block true t t = .ok (st, setMessages))
    (hids : (block.vtx.map CTransaction.hash).Nodup) {dep : Deployments} (hdep : cfg.dep.le dep = true) :
    (∃ vMessages, extractMessagesFromBlock { cfg with dep := dep } block nHeight t (some st.vtxundo) = .ok vMessages ∧
      ∀ message, message ∈ vMessages ↔
        ∃ m ∈ (MessageBlock.ofBlock cfg block setMessages).messages, message = m.atHeight nHeight) ∧
    ((∀ out ∈ block.vtx.flatMap Coins.outputsOf, isScriptTransferAsset out.2.scriptPubKey = true →
        isUnspendable out.2.scriptPubKey = false) →
      MessageIndex.Carried (.ofBlock cfg block setMessages)) := by
  obtain ⟨messages, hmem, hout, hextract⟩ := extractMessagesFromBlock_eq hmessages hcoins h hids hdep
  have hlisted : ∀ m, m ∈ (MessageBlock.ofBlock cfg block setMessages).messages ↔ setMessages[m.out]? = some m := by
    intro m
    simp only [MessageBlock.ofBlock, List.mem_map, Prod.exists, exists_eq_right, TreeMap.mem_toList_iff_getElem?_eq_some]
    exact ⟨fun ⟨out, hm⟩ => by rw [hout out m hm]; exact hm, fun hm => ⟨_, hm⟩⟩
  refine ⟨⟨_, hextract, fun message => ?_⟩, fun hspendable m hm => ?_⟩
  · simp only [List.mem_map, hmem, hlisted, eq_comm]
  · obtain ⟨coinbase, rest, undos, hvtx, -, -, -, -, rfl⟩ := connectBlockMessages_ok hmessages hcoins h
    rw [hlisted, MessageSet.getElem?_addAll, TreeMap.getElem?_emptyc, Option.none_or] at hm
    obtain ⟨p, hp, hcarried⟩ := List.mem_flatMap.mp (List.mem_of_find?_eq_some hm)
    obtain ⟨out, hpout, hcarried⟩ := List.mem_filterMap.mp hcarried
    have hblock : out ∈ block.vtx.flatMap Coins.outputsOf := by
      rw [hvtx]
      exact List.mem_flatMap.mpr ⟨p.1, List.mem_cons_of_mem _ (List.of_mem_zip hp).1, hpout⟩
    unfold carriedMessage at hcarried
    cases htransfer : transferAssetFromScript cfg out.2.scriptPubKey with
    | none => rw [htransfer] at hcarried; cases hcarried
    | some found =>
      rw [htransfer] at hcarried
      simp only at hcarried
      split_ifs at hcarried with hcollected
      obtain ⟨hchannel, hnonempty, -, -⟩ := hcollected
      cases hcarried
      have hscript : isScriptTransferAsset out.2.scriptPubKey = true := by
        unfold transferAssetFromScript at htransfer
        obtain ⟨start, hstart, -⟩ := Option.bind_eq_some_iff.mp htransfer
        rw [isScriptTransferAsset, hstart, Option.isSome_some]
      refine ⟨rfl, List.mem_filterMap.mpr ⟨out, hblock, ?_⟩⟩
      simp [hspendable out hblock hscript, hscript, htransfer, hnonempty, hchannel, CMessage.make]

theorem newsBlock_carried :
    ∃ node st setMessages,
      (Node.genesis .all).run mainAll abcIssueRun = some node ∧
      connectBlockMessages mainAll node.assets node.coins 102 newsBlock true 1000 1000 =
        .ok (st, setMessages) ∧ setMessages.size = 1 ∧
      MessageIndex.Carried (.ofBlock mainAll newsBlock setMessages) := by
  have h : ((Node.genesis .all).run mainAll abcIssueRun).bind (fun node =>
      (connectBlockMessages mainAll node.assets node.coins 102 newsBlock true 1000 1000).toOption.map fun p =>
        (node.dep, p.2.size)) = some (.all, 1) := by decide +kernel
  obtain ⟨node, hrun, hnode⟩ := Option.bind_eq_some_iff.mp h
  obtain ⟨⟨st, setMessages⟩, hconnect, hvalues⟩ := Option.map_eq_some_iff.mp hnode
  obtain ⟨hdep, hsize⟩ := Prod.mk.inj hvalues
  have hblock : connectBlockMessages mainAll node.assets node.coins 102 newsBlock true 1000 1000 =
      .ok (st, setMessages) := by
    revert hconnect
    cases connectBlockMessages mainAll node.assets node.coins 102 newsBlock true 1000 1000 <;>
      simp [Except.toOption]
  have hcoins := (Node.all_steady_of_run hrun).coins
  rw [hdep] at hcoins
  exact ⟨node, st, setMessages, hrun, hblock, hsize,
    (ofBlock_of_accepted rfl hcoins hblock (by decide) (show Deployments.le .all .all = true from rfl)).2 (by decide +kernel)⟩

/-! ## Runs -/

/-- In every run of proper steps the synced height is right: with `-messageindex`, the messages of the blocks up
to it, and of active blocks alone, are stored as other than orphans. -/
theorem messageIndex_sound {nActivation maxSize : Nat} {fMessageIndex : Bool} {events : List MessageEvent}
    {s : MessageIndex}
    (hproper : Along (MessageIndex.step nActivation) MessageIndex.Proper (.start maxSize fMessageIndex) events)
    (hrun : events.foldlM (MessageIndex.step nActivation) (.start maxSize fMessageIndex) = some s) : s.Sound :=
  MessageIndex.Inv.sound <| run_invariant (fun _ _ _ h hp hs => h.step hp hs)
    (MessageIndex.inv_start maxSize fMessageIndex) hproper hrun

namespace MessageIndexRuns

def news : CMessage := .make ⟨1, 0⟩ (str "NEWS!") [] 0 1000
def alert : CMessage := .make ⟨2, 0⟩ (str "ALERT!") [] 0 2000
def dailyBlock : MessageBlock := ⟨[news], [(news.out, news.strName)]⟩
def alertBlock : MessageBlock := ⟨[alert], [(alert.out, alert.strName)]⟩

def fullRescan (nBlocks : Nat) : List MessageEvent :=
  [.startRescan none none none] ++ (List.replicate nBlocks [.lookUp 0, .scan 0 fun _ => false]).flatten ++
    [.finishRescan 0]

/-- A block is connected, disconnected, and connected again while the index is off; a full rescan then leaves its
message the orphan that the store has. -/
def orphanKept : List MessageEvent :=
  [.connect dailyBlock fun _ => false, .disconnect fun _ => false, .restart false, .connect dailyBlock fun _ => false,
    .restart true] ++ fullRescan 1

/-- A block is disconnected while the index is off. -/
def staleKept : List MessageEvent :=
  [.connect dailyBlock fun _ => false, .restart false, .disconnect fun _ => false, .restart true]

/-- The messages are cleared while a rescan is half way. -/
def clearedMidway : List MessageEvent :=
  [.connect dailyBlock fun _ => false, .connect alertBlock fun _ => false, .startRescan none none none, .lookUp 0,
    .scan 0 fun _ => false, .clearMessages, .lookUp 0, .scan 0 fun _ => false, .finishRescan 0]

/-- Two blocks, of which one is gone when the node starts without the index and then with it again. -/
def reindexed : List MessageEvent :=
  [.connect dailyBlock fun _ => false, .connect alertBlock fun _ => false, .disconnect fun _ => false, .restart false,
    .restart true] ++ fullRescan 1

end MessageIndexRuns

open MessageIndexRuns in
theorem messageIndex_sound_reindexed :
    ∃ s, reindexed.foldlM (MessageIndex.step 1) (.start 10 true) = some s ∧ s.fMessageIndex = true ∧
      s.nMessageIndexSyncedHeight = 1 ∧ s.blockAt 1 = some dailyBlock ∧ s.Sound := by
  have h : (reindexed.foldlM (MessageIndex.step 1) (.start 10 true)).map (fun s => (s.fMessageIndex,
      s.nMessageIndexSyncedHeight, s.blockAt 1)) = some (true, 1, some dailyBlock) := by decide +kernel
  obtain ⟨s, hrun, hvalues⟩ := Option.map_eq_some_iff.mp h
  simp only [Prod.mk.injEq] at hvalues
  obtain ⟨hindex, hsynced, hat⟩ := hvalues
  exact ⟨s, hrun, hindex, hsynced, hat, messageIndex_sound (by decide +kernel) hrun⟩

open MessageIndexRuns in
/-- Three runs after which the height is wrong: it counts a message that is stored as an orphan, a message of a
block that is gone is still held, and it counts a message that is not stored. -/
theorem messageIndex_unsound :
    (∃ s, orphanKept.foldlM (MessageIndex.step 1) (.start 10 true) = some s ∧ s.nMessageIndexSyncedHeight = 1 ∧
      s.blockAt 1 = some dailyBlock ∧ (s.store.recorded news.out).map CMessage.status = some .ORPHAN ∧ ¬ s.Sound) ∧
    (∃ s, staleKept.foldlM (MessageIndex.step 1) (.start 10 true) = some s ∧ s.chain = [] ∧
      (s.store.recorded news.out).map CMessage.status = some .UNREAD ∧ ¬ s.Sound) ∧
    ∃ s, clearedMidway.foldlM (MessageIndex.step 1) (.start 10 true) = some s ∧ s.nMessageIndexSyncedHeight = 2 ∧
      s.blockAt 1 = some dailyBlock ∧ s.store.recorded news.out = none ∧ ¬ s.Sound := by
  have hmissing : ∀ s : MessageIndex, s.fMessageIndex = true → 1 ≤ s.nMessageIndexSyncedHeight →
      s.blockAt 1 = some dailyBlock → ¬ s.store.Held news.out → ¬ s.Sound := by
    intro s hindex hsynced hat hheld hsound
    exact hheld ((hsound hindex).1 1 hsynced dailyBlock hat news List.mem_cons_self)
  refine ⟨?_, ?_, ?_⟩
  · have h : (orphanKept.foldlM (MessageIndex.step 1) (.start 10 true)).map (fun s => (s.fMessageIndex,
        s.nMessageIndexSyncedHeight, s.blockAt 1, (s.store.recorded news.out).map CMessage.status)) =
        some (true, 1, some dailyBlock, some .ORPHAN) := by decide +kernel
    obtain ⟨s, hrun, hvalues⟩ := Option.map_eq_some_iff.mp h
    simp only [Prod.mk.injEq] at hvalues
    obtain ⟨hindex, hsynced, hat, hstatus⟩ := hvalues
    refine ⟨s, hrun, hsynced, hat, hstatus, hmissing s hindex hsynced.ge hat ?_⟩
    rintro ⟨m, hm, hne⟩
    rw [Option.mem_def.mp hm] at hstatus
    exact hne (Option.some.inj hstatus)
  · have h : (staleKept.foldlM (MessageIndex.step 1) (.start 10 true)).map (fun s => (s.fMessageIndex, s.chain,
        (s.store.recorded news.out).map CMessage.status)) = some (true, [], some .UNREAD) := by decide +kernel
    obtain ⟨s, hrun, hvalues⟩ := Option.map_eq_some_iff.mp h
    simp only [Prod.mk.injEq] at hvalues
    obtain ⟨hindex, hchain, hstatus⟩ := hvalues
    refine ⟨s, hrun, hchain, hstatus, fun hsound => ?_⟩
    obtain ⟨m, hm, hm'⟩ := Option.map_eq_some_iff.mp hstatus
    obtain ⟨block, hb, -⟩ := (hsound hindex).2 news.out ⟨m, hm, by simp [hm']⟩
    rw [hchain] at hb
    cases hb
  · have h : (clearedMidway.foldlM (MessageIndex.step 1) (.start 10 true)).map (fun s => (s.fMessageIndex,
        s.nMessageIndexSyncedHeight, s.blockAt 1, s.store.recorded news.out)) =
        some (true, 2, some dailyBlock, none) := by decide +kernel
    obtain ⟨s, hrun, hvalues⟩ := Option.map_eq_some_iff.mp h
    simp only [Prod.mk.injEq] at hvalues
    obtain ⟨hindex, hsynced, hat, hnone⟩ := hvalues
    refine ⟨s, hrun, hsynced, hat, hnone, hmissing s hindex (by omega) hat ?_⟩
    rintro ⟨m, hm, -⟩
    cases hnone.symm.trans hm

end HempCore
