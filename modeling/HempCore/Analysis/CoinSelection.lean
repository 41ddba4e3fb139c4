import HempCore.Lib.MapSum
import HempCore.Lib.Totals
import HempCore.Model.CoinSelection
import HempCore.Model.Construct

/-!
# What coin selection returns

Whatever the random choices are, the coins chosen are among those offered, each of them once, and
they add up to the value returned, which reaches the target.
-/

set_option autoImplicit false

namespace HempCore

open Lib

variable {values : List Int} {nTargetValue nTotalLower : Int} {picked : List (CInputCoin × Int)}
  {conf : MinConf} {choices : KnapsackChoices}

/-! ## The subset search -/

/-- The flags and the sums of a search agree, and the best sum reaches the target. -/
structure Searching (values : List Int) (nTargetValue : Int) (st : SubsetSearch) : Prop where
  length : st.vfIncluded.length = values.length
  total : chosenSum values st.vfIncluded = st.nTotal
  best : chosenSum values st.vfBest = st.nBest
  reaches : nTargetValue ≤ st.nBest

variable {includes : SubsetSearch → Nat → Bool} {st : SubsetSearch}

theorem Searching.step (h : Searching values nTargetValue st) {i : Nat} (hi : i < values.length)
    (hout : includes st i = true → st.vfIncluded.getD i false = false) :
    Searching values nTargetValue (st.step values nTargetValue includes i) := by
  unfold SubsetSearch.step
  by_cases hinc : includes st i = true
  · have hi' : i < st.vfIncluded.length := by rw [h.length]; exact hi
    have hadd := chosenSum_set hi' h.length true
    rw [hout hinc] at hadd
    simp only [Bool.false_eq_true, if_false, if_true, sub_zero, h.total] at hadd
    rw [if_pos hinc]
    by_cases hreach : nTargetValue ≤ st.nTotal + values.getD i 0
    · have hlen : (st.vfIncluded.set i true).length = values.length := by
        rw [List.length_set, h.length]
      have hsub := chosenSum_set (by rw [hlen]; exact hi) hlen false
      have hflag : (st.vfIncluded.set i true).getD i false = true := by
        simp [List.getD_eq_getElem?_getD, hi']
      rw [hflag, hadd] at hsub
      simp only [if_pos hreach]
      refine ⟨by simpa using h.length, by simpa using hsub, ?_, ?_⟩
      · by_cases hbetter : st.nTotal + values.getD i 0 < st.nBest
        · simpa only [if_pos hbetter] using hadd
        · simpa only [if_neg hbetter] using h.best
      · by_cases hbetter : st.nTotal + values.getD i 0 < st.nBest
        · simpa only [if_pos hbetter] using hreach
        · simpa only [if_neg hbetter] using h.reaches
    · simp only [if_neg hreach]
      exact ⟨by simpa using h.length, hadd, h.best, h.reaches⟩
  · rw [if_neg hinc]
    exact h

theorem getD_step {i j : Nat} (hne : j ≠ i) :
    (st.step values nTargetValue includes i).vfIncluded.getD j false = st.vfIncluded.getD j false := by
  unfold SubsetSearch.step
  simp only
  split_ifs <;> simp [List.getD_eq_getElem?_getD, List.getElem?_set_ne (Ne.symm hne)]

theorem Searching.pass (h : Searching values nTargetValue st)
    (hout : (∀ i, st.vfIncluded.getD i false = false) ∨ ∀ st i, includes st i = true → st.vfIncluded.getD i false = false) :
    Searching values nTargetValue (st.pass values nTargetValue includes) := by
  have hloop : ∀ (l : List Nat) (st : SubsetSearch), Searching values nTargetValue st → l.Nodup → (∀ i ∈ l, i < values.length) →
      ((∀ i ∈ l, st.vfIncluded.getD i false = false) ∨ ∀ st i, includes st i = true → st.vfIncluded.getD i false = false) →
      Searching values nTargetValue (l.foldl (SubsetSearch.step values nTargetValue includes) st) := by
    intro l
    induction l with
    | nil => intro st h _ _ _; exact h
    | cons i l ih =>
      intro st h hnodup hlt hout
      obtain ⟨hi, hnodup⟩ := List.nodup_cons.mp hnodup
      refine ih _ (h.step (hlt i List.mem_cons_self) ?_) hnodup (fun j hj => hlt j (List.mem_cons_of_mem _ hj)) ?_
      · intro hinc
        exact hout.elim (fun hall => hall i List.mem_cons_self) fun hlook => hlook st i hinc
      · refine hout.imp_left fun hall j hj => ?_
        have hne : j ≠ i := fun heq => hi (heq ▸ hj)
        rw [getD_step hne]
        exact hall j (List.mem_cons_of_mem _ hj)
  exact hloop _ st h List.nodup_range (fun i hi => List.mem_range.mp hi) (hout.imp_left fun hall i _ => hall i)

theorem Searching.repetition (randbool : Nat → Bool) (hbest : chosenSum values st.vfBest = st.nBest)
    (hreach : nTargetValue ≤ st.nBest) :
    Searching values nTargetValue (st.repetition values nTargetValue randbool) := by
  have hstart : Searching values nTargetValue { st with
      nTotal := 0, vfIncluded := List.replicate values.length false, fReachedTarget := false } :=
    ⟨List.length_replicate, chosenSum_none values, hbest, hreach⟩
  have hfirst : Searching values nTargetValue (SubsetSearch.pass values nTargetValue
      (fun _ i => randbool i) _) := hstart.pass (.inl fun i => by
    rw [List.getD_eq_getElem?_getD, List.getElem?_replicate]
    split_ifs <;> rfl)
  unfold SubsetSearch.repetition
  simp only
  split_ifs
  · exact hfirst
  · exact hfirst.pass (.inr fun st i hinc => by simpa using hinc)

theorem approximateBestAssetSubset_spec (htotal : values.sum = nTotalLower)
    (hreach : nTargetValue ≤ nTotalLower) (randbool : Nat → Nat → Bool) :
    let best := approximateBestAssetSubset values nTotalLower nTargetValue randbool
    chosenSum values best.1 = best.2 ∧ nTargetValue ≤ best.2 := by
  have hloop : ∀ (l : List Nat) (st : SubsetSearch), chosenSum values st.vfBest = st.nBest ∧ nTargetValue ≤ st.nBest →
      let st := l.foldl (fun st nRep => if st.nBest ≠ nTargetValue then
        st.repetition values nTargetValue (randbool nRep) else st) st
      chosenSum values st.vfBest = st.nBest ∧ nTargetValue ≤ st.nBest := by
    intro l
    induction l with
    | nil => intro st h; exact h
    | cons nRep l ih =>
      intro st h
      refine ih _ ?_
      by_cases hgoes : st.nBest ≠ nTargetValue
      · simp only [if_pos hgoes]
        have hrep := Searching.repetition (randbool nRep) h.1 h.2
        exact ⟨hrep.best, hrep.reaches⟩
      · simpa only [if_neg hgoes] using h
  unfold approximateBestAssetSubset
  generalize List.range 1000 = l
  exact hloop l _ ⟨(chosenSum_all values).trans htotal, hreach⟩

/-! ## Candidates -/

/-- Some of the coins offered, that reach the target. -/
structure Reaches (coins : List (CInputCoin × Int)) (nTargetValue : Int)
    (picked : List (CInputCoin × Int)) : Prop where
  offered : List.Subperm picked coins
  reaches : nTargetValue ≤ (picked.map (·.2)).sum

variable {coins : List (CInputCoin × Int)} {st : Candidates}

theorem reaches_singleton {coin : CInputCoin × Int} (hmem : coin ∈ coins)
    (h : nTargetValue ≤ coin.2) : Reaches coins nTargetValue [coin] :=
  ⟨List.singleton_subperm_iff.mpr hmem, by simpa using h⟩

structure Sorted (coins : List (CInputCoin × Int)) (nTargetValue : Int) (st : Candidates) : Prop where
  lower : List.Sublist st.vValue coins
  total : st.nTotalLower = (st.vValue.map (·.2)).sum
  larger : ∀ coin ∈ st.coinLowestLarger, coin ∈ coins ∧ nTargetValue + MIN_CHANGE ≤ coin.2

theorem Sorted.append_lower (h : Sorted coins nTargetValue st)
    (coin : CInputCoin × Int) : Sorted (coins ++ [coin]) nTargetValue
      { st with vValue := st.vValue ++ [coin], nTotalLower := st.nTotalLower + coin.2 } where
  lower := h.lower.append (List.Sublist.refl [coin])
  total := by simp [h.total]
  larger c hc := ⟨List.mem_append_left _ (h.larger c hc).1, (h.larger c hc).2⟩

theorem Sorted.append_larger (h : Sorted coins nTargetValue st)
    {coin : CInputCoin × Int} (hcoin : nTargetValue + MIN_CHANGE ≤ coin.2) :
    Sorted (coins ++ [coin]) nTargetValue { st with
      coinLowestLarger := match st.coinLowestLarger with
        | none => some coin
        | some lowest => if coin.2 < lowest.2 then some coin else some lowest } where
  lower := h.lower.trans (List.sublist_append_left _ _)
  total := h.total
  larger c hc := by
    have hnew : coin ∈ coins ++ [coin] := List.mem_append_right _ List.mem_cons_self
    cases hlowest : st.coinLowestLarger with
    | none =>
      simp only [hlowest, Option.mem_def, Option.some.injEq] at hc
      exact hc ▸ ⟨hnew, hcoin⟩
    | some lowest =>
      simp only [hlowest] at hc
      split_ifs at hc
      · obtain rfl := Option.some.inj hc
        exact ⟨hnew, hcoin⟩
      · obtain rfl := Option.some.inj hc
        exact ⟨List.mem_append_left _ (h.larger lowest hlowest).1, (h.larger lowest hlowest).2⟩

/-- The loop over the coins: it ends at a coin of just the target, or sorts them all. -/
theorem scanCandidates_spec {done : List (CInputCoin × Int)}
    (h : Sorted done nTargetValue st) (rest : List (CInputCoin × Int)) :
    (∃ coin ∈ rest, coin.2 = nTargetValue ∧ scanCandidates nTargetValue st rest = .inl coin) ∨
    ∃ st', scanCandidates nTargetValue st rest = .inr st' ∧ Sorted (done ++ rest) nTargetValue st' := by
  induction rest generalizing done st with
  | nil => exact .inr ⟨st, rfl, by simpa using h⟩
  | cons coin rest ih =>
    rw [scanCandidates]
    split_ifs with hexact hlower
    · exact .inl ⟨coin, List.mem_cons_self, hexact, rfl⟩
    · rcases ih (h.append_lower coin) with ⟨c, hc, hrest⟩ | ⟨st', hst', hsorted⟩
      · exact .inl ⟨c, List.mem_cons_of_mem _ hc, hrest⟩
      · exact .inr ⟨st', hst', by simpa using hsorted⟩
    · rcases ih (h.append_larger (Int.not_lt.mp hlower)) with ⟨c, hc, hrest⟩ | ⟨st', hst', hsorted⟩
      · exact .inl ⟨c, List.mem_cons_of_mem _ hc, hrest⟩
      · exact .inr ⟨st', hst', by simpa using hsorted⟩

theorem MIN_CHANGE_nonneg : 0 ≤ MIN_CHANGE := by decide

theorem bestSubset_spec (htotal : values.sum = nTotalLower) (hreach : nTargetValue ≤ nTotalLower)
    (randbool : Nat → Nat → Nat → Bool) :
    let best := bestSubset values nTotalLower nTargetValue randbool
    chosenSum values best.1 = best.2 ∧ nTargetValue ≤ best.2 := by
  have hmin := MIN_CHANGE_nonneg
  unfold bestSubset
  simp only
  split_ifs with hagain
  · obtain ⟨hbest, hmore⟩ := approximateBestAssetSubset_spec htotal hagain.2 (randbool 1)
    exact ⟨hbest, by omega⟩
  · exact approximateBestAssetSubset_spec htotal hreach (randbool 0)

theorem Sorted.reaches_chosen (h : Sorted coins nTargetValue st) (vf : List Bool)
    (hreach : nTargetValue ≤ chosenSum ((st.vValue.mergeSort fun a b => decide (b.2 ≤ a.2)).map (·.2)) vf) :
    Reaches coins nTargetValue (chosen (st.vValue.mergeSort fun a b => decide (b.2 ≤ a.2)) vf) := by
  refine ⟨?_, ?_⟩
  · exact (chosen_sublist _ vf).subperm.trans ((List.mergeSort_perm st.vValue _).subperm.trans h.lower.subperm)
  · rw [chosen_map]
    exact hreach

theorem chooseCandidates_spec (h : Sorted coins nTargetValue st) {randbool : Nat → Nat → Nat → Bool}
    (hpicked : chooseCandidates nTargetValue randbool st = some picked) :
    Reaches coins nTargetValue picked := by
  have hmin := MIN_CHANGE_nonneg
  have hlarger : ∀ coin ∈ st.coinLowestLarger, Reaches coins nTargetValue [coin] := by
    intro coin hcoin
    obtain ⟨hmem, hvalue⟩ := h.larger coin hcoin
    exact reaches_singleton hmem (by omega)
  rw [chooseCandidates] at hpicked
  split_ifs at hpicked with hexact hless
  · obtain rfl := Option.some.inj hpicked
    exact ⟨h.lower.subperm, by rw [← h.total, hexact]⟩
  · obtain ⟨coin, hcoin, rfl⟩ := Option.map_eq_some_iff.mp hpicked
    exact hlarger coin hcoin
  · have hsum : ((st.vValue.mergeSort fun a b => decide (b.2 ≤ a.2)).map (·.2)).sum = st.nTotalLower := by
      rw [h.total]
      exact ((List.mergeSort_perm st.vValue _).map _).sum_eq
    obtain ⟨hbest, hreach⟩ := bestSubset_spec hsum (Int.not_lt.mp hless) randbool
    have hchosen := h.reaches_chosen _ (hbest.symm ▸ hreach)
    cases hlowest : st.coinLowestLarger with
    | none =>
      simp only [hlowest, Option.some.injEq] at hpicked
      exact hpicked ▸ hchosen
    | some coin =>
      simp only [hlowest] at hpicked
      split_ifs at hpicked
      · exact Option.some.inj hpicked ▸ hlarger coin hlowest
      · exact Option.some.inj hpicked ▸ hchosen

/-! ## Sets of coins -/

def Holds (s : CoinSet) (l : List CInputCoin) : Prop := ∀ o x, s[o]? = some x ↔ ⟨o, x⟩ ∈ l

variable {s t : CoinSet} {l m : List CInputCoin}

theorem holds_empty : Holds ∅ [] := by simp [Holds]

theorem Holds.getElem?_eq_none (h : Holds s l) {o : COutPoint} (ho : o ∉ l.map (·.outpoint)) : s[o]? = none := by
  cases hget : s[o]? with
  | none => rfl
  | some x => exact absurd (List.mem_map.mpr ⟨_, (h o x).mp hget, rfl⟩) ho

theorem Holds.union (hs : Holds s l) (ht : Holds t m) (hdisjoint : ∀ c ∈ m, c.outpoint ∉ l.map (·.outpoint)) :
    Holds (t.foldl (fun s o x => s.insertIfNew o x) s) (l ++ m) := by
  intro o x
  have hget := treeMap_foldl_keyLocal (fun (s : CoinSet) o => s[o]?) (fun s o x => s.insertIfNew o x) (fun v r => some (r.getD v))
    (fun s k v j => getElem?_insertIfNew_eq s k j v) t s o
  rw [hget, List.mem_append, ← hs o x, ← ht o x]
  cases hto : t[o]? with
  | none => simp
  | some y =>
    rw [hs.getElem?_eq_none (hdisjoint _ ((ht o y).mp hto))]
    simp

theorem Holds.insertIfNew (h : Holds s l) {coin : CInputCoin} (hnew : coin.outpoint ∉ l.map (·.outpoint)) :
    Holds (s.insertIfNew coin.outpoint coin.txout) (l ++ [coin]) := by
  intro o x
  rw [getElem?_insertIfNew_eq, List.mem_append, ← h o x, List.mem_singleton]
  split_ifs with ho
  · subst ho
    rw [h.getElem?_eq_none hnew]
    cases coin
    simp [eq_comm]
  · refine ⟨Or.inl, fun hor => hor.resolve_right ?_⟩
    rintro rfl
    exact ho rfl

theorem mapSum_eq_of_holds (h : Holds s l) (hnodup : (l.map (·.outpoint)).Nodup) (f : CTxOut → Int) :
    mapSum f s = (l.map fun coin => f coin.txout).sum := by
  have hkeys : ∀ o, s[o]? ≠ none → o ∈ (l.map (·.outpoint)).toFinset := by
    intro o ho
    rw [List.mem_toFinset]
    exact not_imp_comm.mp h.getElem?_eq_none ho
  rw [mapSum_eq_sum f hkeys, List.sum_toFinset _ hnodup, List.map_map]
  congr 1
  refine List.map_congr_left fun coin hcoin => ?_
  have hget : s[coin.outpoint]? = some coin.txout := (h _ _).mpr hcoin
  simp [weightAt, hget]

theorem holds_insertCoins (hnodup : (picked.map (·.1.outpoint)).Nodup) :
    Holds (insertCoins picked).1 (picked.map (·.1)) ∧ (insertCoins picked).2 = (picked.map (·.2)).sum := by
  induction picked using List.reverseRecOn with
  | nil => exact ⟨holds_empty, rfl⟩
  | append_singleton picked coin ih =>
    rw [List.map_append, List.nodup_append] at hnodup
    obtain ⟨hset, hsum⟩ := ih hnodup.1
    have hstep : insertCoins (picked ++ [coin]) =
        ((insertCoins picked).1.insertIfNew coin.1.outpoint coin.1.txout, (insertCoins picked).2 + coin.2) := by
      simp [insertCoins]
    have hnew : coin.1.outpoint ∉ (picked.map (·.1)).map (·.outpoint) := by
      intro hmem
      rw [List.map_map] at hmem
      exact hnodup.2.2 _ hmem _ (List.mem_singleton_self _) rfl
    rw [hstep, List.map_append, List.map_append, List.sum_append]
    exact ⟨hset.insertIfNew hnew, by simp [hsum]⟩

/-! ## One call -/

theorem subperm_map {α β : Type} (f : α → β) {l m : List α} (h : List.Subperm l m) : List.Subperm (l.map f) (m.map f) := by
  obtain ⟨k, hperm, hsub⟩ := h
  exact ⟨k.map f, hperm.map f, hsub.map f⟩


/-- What a call that succeeded has chosen among the coins offered. -/
structure Selects (vCoins : List COutput) (amount : CTxOut → Option Int) (nTargetValue : Int)
    (s : CoinSet) (nValueRet : Int) (l : List CInputCoin) : Prop where
  offered : List.Subperm l (vCoins.map (·.coin))
  holds : Holds s l
  counted : ∀ coin ∈ l, (amount coin.txout).isSome
  value : nValueRet = (l.map fun coin => (amount coin.txout).getD 0).sum
  reaches : nTargetValue ≤ nValueRet

variable {wallet : CWallet} {amount : CTxOut → Option Int} {vCoins : List COutput}

theorem Reaches.selects {offers : List (CInputCoin × Int)} (h : Reaches offers nTargetValue picked)
    (hoffers : List.Subperm (offers.map (·.1)) (vCoins.map (·.coin)))
    (hamount : ∀ p ∈ offers, amount p.1.txout = some p.2) (hnodup : (vCoins.map (·.coin.outpoint)).Nodup) :
    Selects vCoins amount nTargetValue (insertCoins picked).1 (insertCoins picked).2 (picked.map (·.1)) := by
  have hpicked : ∀ p ∈ picked, amount p.1.txout = some p.2 := fun p hp => hamount p (h.offered.subset hp)
  have hsub : List.Subperm (picked.map (·.1)) (vCoins.map (·.coin)) := (subperm_map _ h.offered).trans hoffers
  have hdistinct : (picked.map (·.1.outpoint)).Nodup := by
    have hmap := subperm_map (·.outpoint) hsub
    rw [List.map_map, List.map_map] at hmap
    obtain ⟨l, hperm, hl⟩ := hmap
    exact hperm.nodup_iff.mp (hl.nodup hnodup)
  obtain ⟨hset, hsum⟩ := holds_insertCoins hdistinct
  have hvalue : (picked.map (·.2)).sum = ((picked.map (·.1)).map fun coin => (amount coin.txout).getD 0).sum := by
    rw [List.map_map]
    congr 1
    refine List.map_congr_left fun p hp => ?_
    simp [hpicked p hp]
  refine ⟨hsub, hset, ?_, hsum.trans hvalue, hsum ▸ h.reaches⟩
  intro coin hcoin
  obtain ⟨p, hp, rfl⟩ := List.mem_map.mp hcoin
  rw [hpicked p hp]
  rfl

theorem offers_sublist (wallet : CWallet) (amount : CTxOut → Option Int) (conf : MinConf) (vCoins : List COutput) :
    List.Sublist ((wallet.offers amount conf vCoins).map (·.1)) (vCoins.map (·.coin)) := by
  induction vCoins with
  | nil => exact List.Sublist.slnil
  | cons output vCoins ih =>
    rw [CWallet.offers, List.filterMap_cons, List.map_cons]
    split
    · exact ih.cons _
    · rename_i offer hoffer
      have hcoin : offer.1 = output.coin := by
        split_ifs at hoffer
        obtain ⟨a, -, rfl⟩ := Option.map_eq_some_iff.mp hoffer
        rfl
      rw [List.map_cons, hcoin]
      exact ih.cons_cons _

theorem of_mem_offers {p : CInputCoin × Int} (h : p ∈ wallet.offers amount conf vCoins) :
    ∃ output ∈ vCoins, output.coin = p.1 ∧ wallet.isEligible conf output ∧ amount p.1.txout = some p.2 := by
  obtain ⟨output, houtput, hp⟩ := List.mem_filterMap.mp h
  split_ifs at hp with heligible
  obtain ⟨a, ha, rfl⟩ := Option.map_eq_some_iff.mp hp
  exact ⟨output, houtput, rfl, heligible, ha⟩

theorem reaches_of_selectMinConf {r : CoinSet × Int}
    (h : wallet.selectMinConf amount nTargetValue conf choices vCoins = some r) :
    ∃ picked, Reaches (wallet.offers amount conf (choices.shuffle vCoins)) nTargetValue picked ∧ insertCoins picked = r := by
  rw [CWallet.selectMinConf] at h
  generalize wallet.offers amount conf (choices.shuffle vCoins) = offers at h ⊢
  have hstart : Sorted [] nTargetValue ⟨[], 0, none⟩ := ⟨List.Sublist.slnil, rfl, by simp⟩
  rcases scanCandidates_spec hstart offers with ⟨coin, hcoin, hexact, hscan⟩ | ⟨st, hscan, hsorted⟩
  · rw [hscan] at h
    exact ⟨[coin], reaches_singleton hcoin (le_of_eq hexact.symm), Option.some.inj h⟩
  · rw [hscan] at h
    obtain ⟨picked, hpicked, hins⟩ := Option.map_eq_some_iff.mp h
    have hreaches := chooseCandidates_spec hsorted hpicked
    rw [List.nil_append] at hreaches
    exact ⟨picked, hreaches, hins⟩

theorem selectMinConf_spec (hnodup : (vCoins.map (·.coin.outpoint)).Nodup)
    {nValueRet : Int} (h : wallet.selectMinConf amount nTargetValue conf choices vCoins = some (s, nValueRet)) :
    ∃ picked, Reaches (wallet.offers amount conf (choices.shuffle vCoins)) nTargetValue picked ∧
      Selects vCoins amount nTargetValue s nValueRet (picked.map (·.1)) := by
  obtain ⟨picked, hreaches, hins⟩ := reaches_of_selectMinConf h
  have hsub := (offers_sublist wallet amount conf (choices.shuffle vCoins)).subperm.trans
    ((choices.perm vCoins).map (·.coin)).subperm
  have hselects := hreaches.selects hsub (fun p hp => (of_mem_offers hp).choose_spec.2.2.2) hnodup
  rw [hins] at hselects
  exact ⟨picked, hreaches, hselects⟩

theorem selectByAttempts_spec {choices : Nat → KnapsackChoices} (hnodup : (vCoins.map (·.coin.outpoint)).Nodup)
    {nValueRet : Int} (h : wallet.selectByAttempts amount nTargetValue choices vCoins = some (s, nValueRet)) :
    ∃ l, Selects vCoins amount nTargetValue s nValueRet l := by
  obtain ⟨p, -, hp⟩ := List.exists_of_findSome?_eq_some h
  obtain ⟨picked, -, hselects⟩ := selectMinConf_spec hnodup hp
  exact ⟨_, hselects⟩

/-! ## When a call fails -/

theorem vValue_of_scanCandidates {st' : Candidates} {rest : List (CInputCoin × Int)}
    (h : scanCandidates nTargetValue st rest = .inr st') (hnone : st'.coinLowestLarger = none) :
    st.coinLowestLarger = none ∧ st'.vValue = st.vValue ++ rest := by
  induction rest generalizing st with
  | nil =>
    obtain rfl := Sum.inr.inj h
    exact ⟨hnone, (List.append_nil _).symm⟩
  | cons coin rest ih =>
    rw [scanCandidates] at h
    split_ifs at h with hexact hlower
    · obtain ⟨hstart, hvalue⟩ := ih h
      exact ⟨hstart, by rw [hvalue, List.append_assoc, List.singleton_append]⟩
    · -- a larger coin is kept once it was seen
      obtain ⟨hstart, -⟩ := ih h
      simp only at hstart
      split at hstart
      · simp at hstart
      · split_ifs at hstart

theorem offers_lt_of_selectMinConf (h : wallet.selectMinConf amount nTargetValue conf choices vCoins = none) :
    ((wallet.offers amount conf (choices.shuffle vCoins)).map (·.2)).sum < nTargetValue := by
  rw [CWallet.selectMinConf] at h
  generalize wallet.offers amount conf (choices.shuffle vCoins) = offers at h ⊢
  have hstart : Sorted [] nTargetValue ⟨[], 0, none⟩ := ⟨List.Sublist.slnil, rfl, by simp⟩
  rcases scanCandidates_spec hstart offers with ⟨coin, -, -, hscan⟩ | ⟨st, hscan, hsorted⟩
  · rw [hscan] at h
    exact absurd h (Option.some_ne_none _)
  · simp only [hscan, Option.map_eq_none_iff] at h
    rw [chooseCandidates] at h
    split_ifs at h with hexact hless
    · obtain ⟨-, hvalue⟩ := vValue_of_scanCandidates hscan (Option.map_eq_none_iff.mp h)
      rw [List.nil_append] at hvalue
      rw [← hvalue, ← hsorted.total]
      exact hless
    · simp only at h
      split at h
      · split_ifs at h
      · exact absurd h (Option.some_ne_none _)

theorem offers_perm (wallet : CWallet) (amount : CTxOut → Option Int) (conf : MinConf)
    (choices : KnapsackChoices) (vCoins : List COutput) :
    (wallet.offers amount conf (choices.shuffle vCoins)).Perm (wallet.offers amount conf vCoins) :=
  (choices.perm vCoins).filterMap _

theorem Reaches.le_sum {offers : List (CInputCoin × Int)} (h : Reaches offers nTargetValue picked)
    (hnonneg : ∀ p ∈ offers, 0 ≤ p.2) : nTargetValue ≤ (offers.map (·.2)).sum := by
  obtain ⟨l, hperm, hsub⟩ := h.offered
  have hle : (l.map (·.2)).sum ≤ (offers.map (·.2)).sum := by
    apply (hsub.map (·.2)).sum_le_sum
    intro a ha
    obtain ⟨p, hp, rfl⟩ := List.mem_map.mp ha
    exact hnonneg p hp
  rw [(hperm.map (·.2)).sum_eq] at hle
  exact h.reaches.trans hle

/-- The asset outputs that a call of `SelectAssetsMinConf` may spend reach the target just when the
call succeeds, whatever it draws; and then it has chosen some of them, which add up to the value
returned. -/
theorem selectAssetsMinConf_sound_complete (cfg : Config) (wallet : CWallet) (conf : MinConf)
    (choices : KnapsackChoices) (vCoins : List COutput) (nTargetValue : Int)
    (hnodup : (vCoins.map (·.coin.outpoint)).Nodup)
    (hnonneg : ∀ output ∈ vCoins, ∀ a ∈ assetAmount cfg output.coin.txout, 0 ≤ a) :
    ((wallet.selectMinConf (assetAmount cfg) nTargetValue conf choices vCoins).isSome ↔
      nTargetValue ≤ ((wallet.offers (assetAmount cfg) conf vCoins).map (·.2)).sum) ∧
    ∀ s nValueRet,
      wallet.selectMinConf (assetAmount cfg) nTargetValue conf choices vCoins = some (s, nValueRet) →
      (∀ o x, s[o]? = some x → ∃ output ∈ vCoins, output.coin = ⟨o, x⟩ ∧
        wallet.isEligible conf output ∧ (assetAmount cfg x).isSome) ∧
      nValueRet = mapSum (fun x => (assetAmount cfg x).getD 0) s ∧ nTargetValue ≤ nValueRet := by
  have hperm := offers_perm wallet (assetAmount cfg) conf choices vCoins
  refine ⟨⟨?_, ?_⟩, ?_⟩
  · intro hsome
    obtain ⟨r, hr⟩ := Option.isSome_iff_exists.mp hsome
    obtain ⟨picked, hreaches, -⟩ := reaches_of_selectMinConf hr
    rw [← (hperm.map (·.2)).sum_eq]
    apply hreaches.le_sum
    intro p hp
    obtain ⟨output, houtput, hcoin, -, ha⟩ := of_mem_offers (hperm.mem_iff.mp hp)
    rw [← hcoin] at ha
    exact hnonneg output houtput p.2 ha
  · intro hle
    rw [Option.isSome_iff_ne_none]
    intro hnone
    have hlt := offers_lt_of_selectMinConf hnone
    rw [(hperm.map (·.2)).sum_eq] at hlt
    exact absurd hle (Int.not_le.mpr hlt)
  · intro s nValueRet hselect
    obtain ⟨picked, hreaches, hselects⟩ := selectMinConf_spec hnodup hselect
    refine ⟨?_, ?_, hselects.reaches⟩
    · intro o x hget
      obtain ⟨p, hp, hcoin⟩ := List.mem_map.mp ((hselects.holds o x).mp hget)
      obtain ⟨output, houtput, heq, heligible, ha⟩ := of_mem_offers (hperm.mem_iff.mp (hreaches.offered.subset hp))
      rw [hcoin] at heq ha
      exact ⟨output, houtput, heq, heligible, by rw [ha]; rfl⟩
    · have hdistinct : ((picked.map (·.1)).map (·.outpoint)).Nodup := by
        obtain ⟨l, hl, hlsub⟩ := subperm_map (·.outpoint) hselects.offered
        rw [List.map_map] at hlsub
        exact hl.nodup_iff.mp (hlsub.nodup hnodup)
      have hsum := mapSum_eq_of_holds hselects.holds hdistinct fun x => (assetAmount cfg x).getD 0
      exact hselects.value.trans hsum.symm

/-! A wallet with 100 `ABC`. -/

def keepOrder : KnapsackChoices := ⟨id, fun _ => List.Perm.refl _, fun _ _ _ => false⟩

def abcWallet : CWallet where
  mapWallet := [⟨⟨[], [paymentOut aliceKeyID (10 * COIN), transferOut aliceKeyID (str "ABC") (100 * COIN)], 1⟩,
    10, true, 0, false, true, false, false, false⟩]
  isLockedCoin _ := false
  isSpent _ := false
  isMine _ := .ISMINE_SPENDABLE
  bSpendZeroConfChange := true
  fRejectLongChains := false
  nMaxChainLength := 25
  transactionWithinChainLimit _ _ := true
  distinct := by simp

/-- Outputs of 30, 25, 20, 7 and 500 `ABC`. -/
def abcOffers : List (CInputCoin × Int) :=
  [30, 25, 20, 7, 500].zipIdx.map fun p => (⟨⟨1, p.2⟩, transferOut aliceKeyID (str "ABC") (p.1 * COIN)⟩, p.1 * COIN)

def abcOutputs : List COutput := abcOffers.map fun p => ⟨p.1, 10, true, false⟩

/-- None of them holds 50 `ABC`: the search among the smaller ones finds the first and the third. -/
theorem abcOutputs_selected : ∃ s nValueRet,
    abcWallet.selectMinConf (assetAmount mainAll) (50 * COIN) ⟨1, 6, 0⟩ keepOrder abcOutputs =
      some (s, nValueRet) ∧ s.keys = [⟨1, 0⟩, ⟨1, 2⟩] ∧
    nValueRet = mapSum (fun x => (assetAmount mainAll x).getD 0) s ∧ 50 * COIN ≤ nValueRet := by
  have hoffers : abcWallet.offers (assetAmount mainAll) ⟨1, 6, 0⟩ (keepOrder.shuffle abcOutputs) = abcOffers := by
    decide +kernel
  have hscan : scanCandidates (50 * COIN) ⟨[], 0, none⟩ abcOffers = .inr ⟨abcOffers.take 4, 82 * COIN, abcOffers[4]?⟩ := rfl
  have hsorted : (abcOffers.take 4).mergeSort (fun a b => decide (b.2 ≤ a.2)) = abcOffers.take 4 :=
    List.mergeSort_of_pairwise (by decide +kernel)
  have hselect : ((abcWallet.selectMinConf (assetAmount mainAll) (50 * COIN) ⟨1, 6, 0⟩ keepOrder
      abcOutputs).map fun r => r.1.keys) = some [⟨1, 0⟩, ⟨1, 2⟩] := by
    simp only [CWallet.selectMinConf, hoffers, hscan, chooseCandidates, hsorted]
    decide +kernel
  have hnonneg : ∀ output ∈ abcOutputs, ∀ a ∈ assetAmount mainAll output.coin.txout, 0 ≤ a := by
    decide +kernel
  obtain ⟨⟨s, nValueRet⟩, hs, hkeys⟩ := Option.map_eq_some_iff.mp hselect
  obtain ⟨-, hvalue, hreaches⟩ := (selectAssetsMinConf_sound_complete mainAll abcWallet ⟨1, 6, 0⟩ keepOrder
    abcOutputs (50 * COIN) (by decide) hnonneg).2 s nValueRet hs
  exact ⟨s, nValueRet, hs, hkeys, hvalue, hreaches⟩

end HempCore
