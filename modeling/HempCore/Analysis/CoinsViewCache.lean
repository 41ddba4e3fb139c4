import HempCore.Lib.Run
import HempCore.Model.CoinsViewCache

/-!
# The coins cache as a flat map

What a view answers is a map of the unspent coins. A cache over a view is a view again, with its
entries laid over the answers of the view below: every entry fits what lies under it, so no flag
claims what is not so, and a write from above finds every entry as its flags say. From one layer the
statement goes to any number of them, and from one call to any list of calls.
-/

set_option autoImplicit false

namespace HempCore

open Lib Function

/-! ## Entries -/

namespace CCoinsCacheEntry

def answer (entry : CCoinsCacheEntry) : Option Coin :=
  if entry.coin.isSpent then none else some entry.coin

/-- The entry says the truth about what lies under it. -/
structure Fits (below : Option Coin) (entry : CCoinsCacheEntry) : Prop where
  clean : entry.dirty = false → below = some entry.coin
  fresh : entry.fresh = true → below = none
  spent : entry.coin.isSpent = true → entry.coin = .empty ∧ entry.fresh = false

/-- What lies at an outpoint once an entry that fits is written over it. -/
def merged (entry : CCoinsCacheEntry) (us : Option CCoinsCacheEntry) : Option CCoinsCacheEntry :=
  if entry.dirty then
    if us.any (·.fresh) && entry.coin.isSpent then none
    else some ⟨entry.coin, true, us.elim entry.fresh (·.fresh)⟩
  else us

end CCoinsCacheEntry

/-- A possible entry over what lies under it. -/
def answerAt (entry : Option CCoinsCacheEntry) (below : Option Coin) : Option Coin :=
  entry.elim below CCoinsCacheEntry.answer

section Entries

variable {below : Option Coin} {entry : CCoinsCacheEntry} {us : Option CCoinsCacheEntry}

theorem CCoinsCacheEntry.answer_getD (h : entry.Fits below) : entry.answer.getD .empty = entry.coin := by
  unfold answer
  split
  · rename_i hspent
    exact (h.spent hspent).1.symm
  · rfl

theorem CCoinsCacheEntry.answer_eq_none : entry.answer = none ↔ entry.coin.isSpent = true := by
  simp [answer]

theorem answerAt_unspent (hbelow : ∀ coin, below = some coin → coin.isSpent = false) {coin : Coin}
    (h : answerAt us below = some coin) : coin.isSpent = false := by
  cases us with
  | none => exact hbelow coin h
  | some e =>
    simp only [answerAt, Option.elim_some, CCoinsCacheEntry.answer] at h
    split at h
    · cases h
    · rename_i hspent
      cases h
      exact Bool.eq_false_iff.mpr hspent

theorem answerAt_merged (hbelow : ∀ coin, below = some coin → coin.isSpent = false)
    (hus : ∀ e, us = some e → e.Fits below) (h : entry.Fits (answerAt us below)) :
    answerAt (entry.merged us) below = entry.answer := by
  unfold CCoinsCacheEntry.merged
  split
  · split
    · rename_i herase
      obtain ⟨hfresh, hspent⟩ := Bool.and_eq_true_iff.mp herase
      cases us with
      | none => cases hfresh
      | some e =>
        exact ((hus e rfl).fresh hfresh).trans (CCoinsCacheEntry.answer_eq_none.mpr hspent).symm
    · rfl
  · rename_i hclean
    have heq := h.clean (Bool.eq_false_iff.mpr hclean)
    simp [heq, CCoinsCacheEntry.answer, answerAt_unspent hbelow heq]

theorem fits_merged (hus : ∀ e, us = some e → e.Fits below) (h : entry.Fits (answerAt us below)) :
    ∀ e, entry.merged us = some e → e.Fits below := by
  intro e he
  unfold CCoinsCacheEntry.merged at he
  split at he
  · split at he
    · cases he
    · rename_i hkeep
      cases he
      cases us with
      | none => exact ⟨by simp, h.fresh, h.spent⟩
      | some u =>
        refine ⟨by simp, (hus u rfl).fresh, fun hspent => ⟨(h.spent hspent).1, ?_⟩⟩
        simpa [show entry.coin.isSpent = true from hspent] using hkeep
  · exact hus e he

theorem writeEntry_eq_ok {cacheCoins : CCoinsMap} {out : COutPoint} (h : entry.Fits (answerAt cacheCoins[out]? below)) :
    ∃ cacheCoins', CCoinsViewCache.writeEntry cacheCoins out entry = .ok cacheCoins' ∧
      ∀ j, cacheCoins'[j]? = if j = out then entry.merged cacheCoins[j]? else cacheCoins[j]? := by
  have hat : ∀ value, entry.merged cacheCoins[out]? = value → ∀ j,
      (if j = out then value else cacheCoins[j]?) = if j = out then entry.merged cacheCoins[j]? else cacheCoins[j]? := by
    rintro _ rfl j
    split
    · rename_i hj
      rw [hj]
    · rfl
  unfold CCoinsViewCache.writeEntry
  split
  · rename_i hdirty
    cases hus : cacheCoins[out]? with
    | none =>
      have hkeep : (entry.fresh && entry.coin.isSpent) = false :=
        Bool.and_eq_false_imp.mpr fun hfresh => Bool.eq_false_iff.mpr fun hspent =>
          Bool.false_ne_true ((h.spent hspent).2.symm.trans hfresh)
      simp only [hkeep]
      refine ⟨_, rfl, fun j => (getElem?_insert_eq ..).trans (hat _ ?_ j)⟩
      simp [CCoinsCacheEntry.merged, hus, hdirty]
    | some us =>
      have hno : (entry.fresh && !us.coin.isSpent) = false := by
        rw [hus] at h
        refine Bool.and_eq_false_imp.mpr fun hfresh => ?_
        simp [CCoinsCacheEntry.answer_eq_none.mp (h.fresh hfresh)]
      simp only [hno, Bool.false_eq_true, if_false]
      split
      · rename_i herase
        refine ⟨_, rfl, fun j => (getElem?_erase_eq ..).trans (hat _ ?_ j)⟩
        simp [CCoinsCacheEntry.merged, hus, hdirty, Bool.and_eq_true_iff.mp herase]
      · rename_i hkeep
        refine ⟨_, rfl, fun j => (getElem?_insert_eq ..).trans (hat _ ?_ j)⟩
        simp only [CCoinsCacheEntry.merged, hus, hdirty, Option.any_some, hkeep]
        rfl
  · rename_i hdirty
    exact ⟨cacheCoins, rfl, fun j => by simp [CCoinsCacheEntry.merged, hdirty]⟩

end Entries

/-! ## Views -/

/-- The entries of a map over the answers of a view. -/
def overlay (mapCoins : CCoinsMap) (coins : CoinsView) : CoinsView :=
  fun out => answerAt mapCoins[out]? (coins out)

def FitsOn (coins : CoinsView) (mapCoins : CCoinsMap) : Prop :=
  ∀ (out : COutPoint) (entry : CCoinsCacheEntry), mapCoins[out]? = some entry → entry.Fits (coins out)

/-- A relation between the states of a view and maps of unspent coins: a read answers from the map
and keeps it, and a write lays the written entries over it. -/
structure CCoinsView.Represents {σ : Type} (view : CCoinsView σ) (R : σ → CoinsView → Prop) :
    Prop where
  unspent : ∀ {s coins}, R s coins → ∀ out coin, coins out = some coin → coin.isSpent = false
  getCoin : ∀ {s coins}, R s coins → ∀ out,
    (view.getCoin s out).1 = coins out ∧ R (view.getCoin s out).2 coins
  batchWrite : ∀ {s coins}, R s coins → ∀ mapCoins, FitsOn coins mapCoins →
    ∃ s', view.batchWrite s mapCoins = .ok s' ∧ R s' (overlay mapCoins coins)

/-- The database is read as the map it is, and keeps unspent coins. -/
def OfDB (db : Coins) (coins : CoinsView) : Prop :=
  db.view = coins ∧ ∀ out coin, coins out = some coin → coin.isSpent = false

theorem represents_db : CCoinsViewDB.Represents OfDB where
  unspent h := h.2
  getCoin h out := ⟨congrFun h.1 out, h⟩
  batchWrite := by
    rintro db coins ⟨rfl, h⟩ mapCoins hfits
    refine ⟨_, rfl, funext fun out => ?_, fun out coin => answerAt_unspent (h out)⟩
    refine (treeMap_foldl_keyLocal (fun (db : Coins) out => db[out]?) _
      (fun entry coin => if entry.dirty then entry.answer else coin) ?_ mapCoins db out).trans ?_
    · intro db k entry j
      split_ifs <;> simp_all [getElem?_insert_eq, getElem?_erase_eq, CCoinsCacheEntry.answer]
    · unfold overlay
      cases hentry : mapCoins[out]? with
      | none => rfl
      | some entry =>
        dsimp only
        split
        · rfl
        · rename_i hclean
          have heq := (hfits out entry hentry).clean (Bool.eq_false_iff.mpr hclean)
          exact heq.trans (by simp [answerAt, CCoinsCacheEntry.answer, h out _ heq])

/-! ## One cache -/

section Cache

variable {σ : Type} {view : CCoinsView σ} {R : σ → CoinsView → Prop} {cache : CCoinsViewCache σ}
  {below coins : CoinsView} {out : COutPoint}

/-- The entries of a cache fit on what the view below answers, and are laid over it. -/
def Cached (R : σ → CoinsView → Prop) (cache : CCoinsViewCache σ) (coins : CoinsView) : Prop :=
  ∃ below, R cache.base below ∧ FitsOn below cache.cacheCoins ∧ overlay cache.cacheCoins below = coins

theorem cached_insert {entry : CCoinsCacheEntry} (hbase : R cache.base below)
    (hfits : FitsOn below cache.cacheCoins) (hentry : entry.Fits (below out)) :
    Cached R { cache with cacheCoins := cache.cacheCoins.insert out entry }
      (update (overlay cache.cacheCoins below) out entry.answer) := by
  refine ⟨below, hbase, fun j e he => ?_, funext fun j => ?_⟩
  · rw [getElem?_insert_eq] at he
    split at he
    · rename_i hj
      cases he
      exact hj ▸ hentry
    · exact hfits j e he
  · simp only [overlay, getElem?_insert_eq, update_apply]
    split <;> rfl

/-- A `FRESH` entry may be forgotten: there is nothing below it. -/
theorem cached_erase (hbase : R cache.base below) (hfits : FitsOn below cache.cacheCoins) (hnone : below out = none) :
    Cached R { cache with cacheCoins := cache.cacheCoins.erase out }
      (update (overlay cache.cacheCoins below) out none) := by
  refine ⟨below, hbase, fun j e he => ?_, funext fun j => ?_⟩
  · rw [getElem?_erase_eq] at he
    split at he
    · cases he
    · exact hfits j e he
  · simp only [overlay, getElem?_erase_eq, update_apply]
    split
    · rename_i hj
      exact hj ▸ hnone
    · rfl

theorem overlay_of_some {mapCoins : CCoinsMap} {entry : CCoinsCacheEntry}
    (h : mapCoins[out]? = some entry) : overlay mapCoins below out = entry.answer := by
  simp [overlay, h, answerAt]

theorem overlay_of_none {mapCoins : CCoinsMap} (h : mapCoins[out]? = none) : overlay mapCoins below out = below out := by
  simp [overlay, h, answerAt]

section

variable (hview : view.Represents R) (h : Cached R cache coins)
include hview h

section

variable (out : COutPoint)

/-- A fetch fills the cache, and finds nothing only if there is nothing. -/
theorem fetchCoin_cases :
    ∃ cache', Cached R cache' coins ∧
      (cache.fetchCoin view out = (none, cache') ∧ coins out = none ∨
        ∃ entry, cache.fetchCoin view out = (some entry, cache') ∧ cache'.cacheCoins[out]? = some entry) := by
  obtain ⟨below, hbase, hfits, rfl⟩ := h
  unfold CCoinsViewCache.fetchCoin
  cases hentry : cache.cacheCoins[out]? with
  | some entry => exact ⟨cache, ⟨below, hbase, hfits, rfl⟩, .inr ⟨entry, rfl, hentry⟩⟩
  | none =>
    obtain ⟨hcoin, hbase'⟩ := hview.getCoin hbase out
    have hread : overlay cache.cacheCoins below out = below out := overlay_of_none hentry
    generalize view.getCoin cache.base out = r at hcoin hbase'
    obtain ⟨coin, base⟩ := r
    dsimp only at hcoin hbase'
    cases coin with
    | none =>
      exact ⟨⟨cache.cacheCoins, base⟩, ⟨below, hbase', hfits, rfl⟩, .inl ⟨rfl, hread.trans hcoin.symm⟩⟩
    | some tmp =>
      have hunspent := hview.unspent hbase out tmp hcoin.symm
      have hentryFits : CCoinsCacheEntry.Fits (below out) ⟨tmp, false, tmp.isSpent⟩ :=
        ⟨fun _ => hcoin.symm, by simp [hunspent], by simp [hunspent]⟩
      have hput := @cached_insert _ _ ⟨cache.cacheCoins, base⟩ _ _ _ hbase' hfits hentryFits
      refine ⟨_, ?_, .inr ⟨_, rfl, by simp⟩⟩
      rwa [update_eq_self_iff.mpr] at hput
      rw [hread, ← hcoin]
      simp [CCoinsCacheEntry.answer, hunspent]

theorem getCoin_spec :
    (cache.getCoin view out).1 = coins out ∧ Cached R (cache.getCoin view out).2 coins := by
  obtain ⟨cache', h', ⟨hfetch, hnone⟩ | ⟨entry, hfetch, hentry⟩⟩ := fetchCoin_cases hview h out
  · simp only [CCoinsViewCache.getCoin, hfetch]
    exact ⟨hnone.symm, h'⟩
  · simp only [CCoinsViewCache.getCoin, hfetch]
    obtain ⟨below, -, -, rfl⟩ := id h'
    exact ⟨(overlay_of_some hentry).symm, h'⟩

theorem haveCoin_spec :
    (cache.haveCoin view out).1 = (coins out).isSome ∧ Cached R (cache.haveCoin view out).2 coins := by
  obtain ⟨cache', h', ⟨hfetch, hnone⟩ | ⟨entry, hfetch, hentry⟩⟩ := fetchCoin_cases hview h out
  · simp only [CCoinsViewCache.haveCoin, hfetch, hnone]
    exact ⟨rfl, h'⟩
  · simp only [CCoinsViewCache.haveCoin, hfetch]
    obtain ⟨below, -, -, rfl⟩ := id h'
    rw [overlay_of_some hentry]
    refine ⟨?_, h'⟩
    cases hspent : entry.coin.isSpent <;> simp [CCoinsCacheEntry.answer, hspent]

theorem accessCoin_spec :
    (cache.accessCoin view out).1 = (coins out).getD .empty ∧ Cached R (cache.accessCoin view out).2 coins := by
  obtain ⟨cache', h', ⟨hfetch, hnone⟩ | ⟨entry, hfetch, hentry⟩⟩ := fetchCoin_cases hview h out
  · simp only [CCoinsViewCache.accessCoin, hfetch, hnone]
    exact ⟨rfl, h'⟩
  · simp only [CCoinsViewCache.accessCoin, hfetch]
    obtain ⟨below, -, hfits, rfl⟩ := id h'
    rw [overlay_of_some hentry]
    exact ⟨(CCoinsCacheEntry.answer_getD (hfits out entry hentry)).symm, h'⟩

theorem spendCoin_spec :
    Cached R (cache.spendCoin view out).2 (update coins out none) := by
  obtain ⟨cache', h', ⟨hfetch, hnone⟩ | ⟨entry, hfetch, hentry⟩⟩ := fetchCoin_cases hview h out
  · simp only [CCoinsViewCache.spendCoin, hfetch]
    rwa [update_eq_self_iff.mpr hnone.symm]
  · simp only [CCoinsViewCache.spendCoin, hfetch]
    obtain ⟨below, hbase, hfits, rfl⟩ := h'
    split
    · rename_i hfresh
      exact cached_erase hbase hfits ((hfits out entry hentry).fresh hfresh)
    · rename_i hfresh
      exact cached_insert hbase hfits ⟨nofun, fun h => absurd h hfresh, fun _ => ⟨rfl, Bool.eq_false_iff.mpr hfresh⟩⟩

end

/-- A coin is `FRESH` only where nothing lies below: a clean entry is unspent. -/
theorem addCoin_spec {coin : Coin}
    {possible_overwrite : Bool} (hcoin : coin.isSpent = false)
    (hallowed : possible_overwrite = false → coins out = none) :
    ∃ cache', cache.addCoin out coin possible_overwrite = .ok cache' ∧ Cached R cache'
      (if isUnspendable coin.out.scriptPubKey then coins
        else update coins out (some coin)) := by
  unfold CCoinsViewCache.addCoin
  rw [if_neg (by simp [hcoin])]
  split
  · exact ⟨cache, rfl, h⟩
  · obtain ⟨below, hbase, hfits, rfl⟩ := h
    have hput : ∀ fresh, (fresh = true → below out = none) →
        Cached R { cache with cacheCoins := cache.cacheCoins.insert out ⟨coin, true, fresh⟩ }
          (update (overlay cache.cacheCoins below) out (some coin)) := by
      intro fresh hfresh
      have hanswer : CCoinsCacheEntry.answer ⟨coin, true, fresh⟩ = some coin := by
        simp [CCoinsCacheEntry.answer, hcoin]
      exact hanswer ▸ cached_insert hbase hfits ⟨nofun, hfresh, by simp [hcoin]⟩
    cases hentry : cache.cacheCoins[out]? with
    | none =>
      refine ⟨_, by simp [Coin.empty, Coin.isSpent]; rfl, hput _ fun hfresh => ?_⟩
      exact (overlay_of_none hentry).symm.trans (hallowed (by simpa using hfresh))
    | some entry =>
      have hspent : possible_overwrite = false → entry.coin.isSpent = true := fun hno =>
        CCoinsCacheEntry.answer_eq_none.mp ((overlay_of_some hentry).symm.trans (hallowed hno))
      have hguard : (!possible_overwrite && !entry.coin.isSpent) = false := by
        cases hno : possible_overwrite <;> simp [hno, hspent]
      refine ⟨_, by simp only [Option.getD_some, hguard]; rfl, hput _ fun hfresh => ?_⟩
      have hentryFits := hfits out entry hentry
      rcases Bool.or_eq_true_iff.mp hfresh with hfresh | hfresh
      · exact hentryFits.fresh hfresh
      · obtain ⟨hno, hclean⟩ := Bool.and_eq_true_iff.mp hfresh
        have hunspent := hview.unspent hbase out _ (hentryFits.clean (by simpa using hclean))
        exact absurd (hunspent.symm.trans (hspent (by simpa using hno))) Bool.false_ne_true

/-- A write from above finds every entry as its flags say, so it does not throw. -/
theorem batchWrite_spec
    (mapCoins : CCoinsMap) (hmap : FitsOn coins mapCoins) :
    ∃ cache', cache.batchWrite mapCoins = .ok cache' ∧ Cached R cache' (overlay mapCoins coins) := by
  obtain ⟨below, hbase, hfits, rfl⟩ := h
  obtain ⟨cacheCoins, hrun, hentries⟩ := treeMap_foldlM_keyLocal
    (fun (cacheCoins : CCoinsMap) j => cacheCoins[j]?) CCoinsViewCache.writeEntry
    CCoinsCacheEntry.merged (fun entry us => ∃ below, entry.Fits (answerAt us below))
    (fun _ _ _ hentry => writeEntry_eq_ok hentry.choose_spec) mapCoins cache.cacheCoins
    fun out entry hentry => ⟨below out, hmap out entry hentry⟩
  refine ⟨⟨cacheCoins, cache.base⟩, by
    unfold CCoinsViewCache.batchWrite
    rw [hrun]
    rfl, below, hbase, fun out e he => ?_, funext fun out => ?_⟩
  · have he' := (hentries out).symm.trans he
    cases hentry : mapCoins[out]? with
    | none =>
      rw [hentry] at he'
      exact hfits out e he'
    | some entry =>
      rw [hentry] at he'
      exact fits_merged (hfits out) (hmap out entry hentry) e he'
  · have hread := congrArg (answerAt · (below out)) (hentries out)
    refine hread.trans ?_
    cases hentry : mapCoins[out]? with
    | none =>
      rw [overlay_of_none hentry]
      rfl
    | some entry =>
      rw [overlay_of_some hentry]
      exact answerAt_merged (hview.unspent hbase out) (hfits out) (hmap out entry hentry)

end

theorem represents_cached (hview : view.Represents R) :
    (CCoinsViewCache.asView view).Represents (Cached R) where
  unspent := by
    rintro cache _ ⟨below, hbase, -, rfl⟩ out coin
    exact answerAt_unspent (hview.unspent hbase out)
  getCoin h out := getCoin_spec hview h out
  batchWrite h mapCoins hmap := batchWrite_spec hview h mapCoins hmap

theorem flush_spec (hview : view.Represents R) (h : Cached R cache coins) :
    ∃ cache', cache.flush view = .ok cache' ∧ Cached R cache' coins := by
  obtain ⟨below, hbase, hfits, rfl⟩ := h
  obtain ⟨base, hwrite, hbase'⟩ := hview.batchWrite hbase cache.cacheCoins hfits
  refine ⟨⟨∅, base⟩, by
    unfold CCoinsViewCache.flush
    rw [hwrite]
    rfl, _, hbase', fun out entry hentry => ?_, funext fun out => overlay_of_none ?_⟩
  · simp at hentry
  · simp

end Cache

/-! ## Stacks -/

section Stacks

variable {σ : Type} {view : CCoinsView σ} {R : σ → CoinsView → Prop} {n : Nat} {coins : CoinsView}
  {stack : CoinsStack σ (n + 1)}

def Stacked (R : σ → CoinsView → Prop) : (n : Nat) → CoinsStack σ n → CoinsView → Prop
  | 0 => R
  | n + 1 => Cached (Stacked R n)

theorem represents_stacked (hview : view.Represents R) : ∀ n, (CoinsStack.asView view n).Represents (Stacked R n)
  | 0 => hview
  | n + 1 => represents_cached (represents_stacked hview n)

theorem stacked_start {base : σ} (h : R base coins) : ∀ n, Stacked R n (CoinsStack.start base n) coins
  | 0 => h
  | n + 1 => by
    refine ⟨coins, stacked_start h n, fun out entry hentry => ?_, funext fun out => overlay_of_none ?_⟩
    · simp [CoinsStack.start] at hentry
    · simp [CoinsStack.start]

/-- A flush of a cache at any depth is not seen from the top. -/
theorem stacked_flush (hview : view.Represents R) : ∀ (n depth : Nat) {stack : CoinsStack σ n}
    {coins : CoinsView}, Stacked R n stack coins →
    ∃ stack', CoinsStack.flush view n depth stack = .ok stack' ∧ Stacked R n stack' coins
  | 0, _, stack, _, h => ⟨stack, rfl, h⟩
  | n + 1, 0, _, _, h => flush_spec (represents_stacked hview n) h
  | n + 1, depth + 1, stack, _, ⟨below, hbase, hfits⟩ => by
    obtain ⟨base, hflush, hbase'⟩ := stacked_flush hview n depth hbase
    refine ⟨{ stack with base := base }, ?_, below, hbase', hfits⟩
    unfold CoinsStack.flush
    rw [hflush]
    rfl

/-- The calls the source allows: a coin that is added is unspent, and it replaces an unspent coin
only where that is said to be possible. -/
def CoinsCall.Allowed (coins : CoinsView) : CoinsCall → Prop
  | .addCoin out coin possible_overwrite =>
    coin.isSpent = false ∧ (possible_overwrite = false → coins out = none)
  | _ => True

theorem stacked_perform (hview : view.Represents R) (h : Stacked R (n + 1) stack coins)
    {call : CoinsCall} (hallowed : call.Allowed coins) :
    ∃ stack', CoinsStack.perform view n stack call = .ok stack' ∧ Stacked R (n + 1) stack' (call.apply coins) := by
  have hbelow := represents_stacked hview n
  cases call with
  | addCoin out coin possible_overwrite => exact addCoin_spec hbelow h hallowed.1 hallowed.2
  | spendCoin out => exact ⟨_, rfl, spendCoin_spec hbelow h out⟩
  | accessCoin out => exact ⟨_, rfl, (accessCoin_spec hbelow h out).2⟩
  | haveCoin out => exact ⟨_, rfl, (haveCoin_spec hbelow h out).2⟩
  | flush depth => exact stacked_flush hview (n + 1) depth h

theorem stacked_run (hview : view.Represents R) {calls : List CoinsCall} (h : Stacked R (n + 1) stack coins)
    (hallowed : Along (fun coins call => some (call.apply coins)) CoinsCall.Allowed coins calls) :
    ∃ stack', calls.foldlM (CoinsStack.perform view n) stack = .ok stack' ∧
      Stacked R (n + 1) stack' (calls.foldl CoinsCall.apply coins) := by
  induction calls generalizing stack coins with
  | nil => exact ⟨stack, rfl, h⟩
  | cons call calls ih =>
    obtain ⟨next, hstep, hnext⟩ := stacked_perform hview h hallowed.1
    obtain ⟨stack', hrun, h'⟩ := ih hnext (hallowed.2 _ rfl)
    refine ⟨stack', ?_, h'⟩
    rw [List.foldlM_cons, hstep]
    exact hrun

/-- In no layer is an entry `FRESH` while the layer below finds an unspent coin. -/
def FreshIsTrue (view : CCoinsView σ) : (n : Nat) → CoinsStack σ n → Prop
  | 0, _ => True
  | n + 1, cache => (∀ (out : COutPoint) (entry : CCoinsCacheEntry),
      cache.cacheCoins[out]? = some entry → entry.fresh = true →
        ((CoinsStack.asView view n).getCoin cache.base out).1 = none) ∧ FreshIsTrue view n cache.base

theorem freshIsTrue (hview : view.Represents R) : ∀ (n : Nat) {stack : CoinsStack σ n}
    {coins : CoinsView}, Stacked R n stack coins → FreshIsTrue view n stack
  | 0, _, _, _ => trivial
  | n + 1, _, _, ⟨_, hbase, hfits, _⟩ => ⟨fun out entry hentry hfresh =>
      ((represents_stacked hview n).getCoin hbase out).1.trans ((hfits out entry hentry).fresh hfresh),
    freshIsTrue hview n hbase⟩

/-- The topmost cache answers as a map of the unspent coins. -/
def ReadsAs (view : CCoinsView σ) (stack : CoinsStack σ (n + 1)) (coins : CoinsView) : Prop :=
  ∀ out, (CCoinsViewCache.haveCoin (CoinsStack.asView view n) stack out).1 = (coins out).isSome ∧
    (CCoinsViewCache.accessCoin (CoinsStack.asView view n) stack out).1 = (coins out).getD .empty

theorem readsAs (hview : view.Represents R) (h : Stacked R (n + 1) stack coins) : ReadsAs view stack coins := fun out =>
  ⟨(haveCoin_spec (represents_stacked hview n) h out).1, (accessCoin_spec (represents_stacked hview n) h out).1⟩

/-- Over any view, any number of caches answers, after any calls, as the map that the same calls
make of the view's answers. A flush of any of them does not throw and changes no answer, and no
entry of any of them is `FRESH` without right. -/
theorem coinsStack_refines (hview : view.Represents R) {base : σ} (hbase : R base coins) (n : Nat)
    (calls : List CoinsCall)
    (hallowed : Along (fun coins call => some (call.apply coins)) CoinsCall.Allowed coins calls) :
    ∃ stack, calls.foldlM (CoinsStack.perform view n) (CoinsStack.start base (n + 1)) = .ok stack ∧
      ReadsAs view stack (calls.foldl CoinsCall.apply coins) ∧
      (∀ depth, ∃ stack', CoinsStack.flush view (n + 1) depth stack = .ok stack' ∧
        ReadsAs view stack' (calls.foldl CoinsCall.apply coins)) ∧
      FreshIsTrue view (n + 1) stack := by
  obtain ⟨stack, hrun, hstack⟩ := stacked_run hview (stacked_start hbase (n + 1)) hallowed
  refine ⟨stack, hrun, readsAs hview hstack, fun depth => ?_, freshIsTrue hview (n + 1) hstack⟩
  obtain ⟨stack', hflush, hstack'⟩ := stacked_flush hview (n + 1) depth hstack
  exact ⟨stack', hflush, readsAs hview hstack'⟩

end Stacks

/-- A coin is spent and another put in its place, which is spent as well once it was flushed. -/
def spentAndReplaced : List CoinsCall :=
  [.spendCoin ⟨1, 0⟩, .addCoin ⟨1, 0⟩ ⟨⟨7, []⟩, false, 3⟩ false, .flush 0, .spendCoin ⟨1, 0⟩, .flush 1,
    .flush 0]

theorem spentAndReplaced_refines : ∃ stack,
    spentAndReplaced.foldlM (CoinsStack.perform CCoinsViewDB 1)
        (CoinsStack.start ((∅ : Coins).insert ⟨1, 0⟩ ⟨⟨5, []⟩, true, 2⟩) 2) = .ok stack ∧
      ReadsAs CCoinsViewDB stack fun _ => none := by
  have hbase : OfDB ((∅ : Coins).insert ⟨1, 0⟩ ⟨⟨5, []⟩, true, 2⟩)
      (update (fun _ => none) ⟨1, 0⟩ (some ⟨⟨5, []⟩, true, 2⟩)) := by
    refine ⟨funext fun out => ?_, fun out coin hcoin => ?_⟩
    · simp [Coins.view, getElem?_insert_eq, update_apply]
    · rw [update_apply] at hcoin
      split at hcoin <;> cases hcoin
      rfl
  obtain ⟨stack, hrun, hanswers, -⟩ := coinsStack_refines represents_db hbase 1 spentAndReplaced (by
    simp [spentAndReplaced, Along, CoinsCall.Allowed, CoinsCall.apply, Coin.isSpent])
  refine ⟨stack, hrun, fun out => ?_⟩
  have hspendable : isUnspendable [] = false := by decide
  have hout := hanswers out
  simp only [spentAndReplaced, List.foldl_cons, List.foldl_nil, CoinsCall.apply, hspendable] at hout
  simpa [update_idem] using hout

end HempCore
