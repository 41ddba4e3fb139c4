import HempCore.Model.LRUCache

/-!
# The cache in memory keeps the most recent entries

The list and the index are followed separately, as `Put` lets them differ while it runs: `Listed`
says which entries the lists hold and where their nodes are, `Indexed` which entries an index
knows. Both are stated against the same lists of entries between two calls, and the entries without
their addresses are those of the reference cache.
-/

set_option autoImplicit false

namespace HempCore

open Function

variable {ι K V : Type} {e : Nat × K × V} {l : List (Nat × K × V)}

/-! ## Lists with a key -/

section Keyed

variable {α β : Type} [DecidableEq β] {f : α → β} {l : List α} {e : α}

theorem filter_ne_of_notMem (h : f e ∉ l.map f) : (l.filter fun x => f x ≠ f e) = l := by
  rw [List.filter_eq_self]
  intro x hx
  simp only [ne_eq, decide_not, Bool.not_eq_eq_eq_not, Bool.not_true, decide_eq_false_iff_not]
  intro hxe
  exact h (List.mem_map.mpr ⟨x, hx, hxe⟩)

theorem filter_ne_congr {γ : Type} [DecidableEq γ] {g : α → γ} (hf : (l.map f).Nodup) (hg : (l.map g).Nodup) (he : e ∈ l) :
    (l.filter fun x => f x ≠ f e) = l.filter fun x => g x ≠ g e := by
  apply List.filter_congr
  intro x hx
  have hfx : f x = f e ↔ x = e := ⟨fun h => List.inj_on_of_nodup_map hf hx he h, fun h => h ▸ rfl⟩
  have hgx : g x = g e ↔ x = e := ⟨fun h => List.inj_on_of_nodup_map hg hx he h, fun h => h ▸ rfl⟩
  simp [hfx, hgx]

theorem filter_ne_last {l : List α} (hf : ((l ++ [e]).map f).Nodup) : ((l ++ [e]).filter fun x => f x ≠ f e) = l := by
  rw [List.map_append, List.map_singleton, List.nodup_append] at hf
  have hnot : f e ∉ l.map f := fun h => hf.2.2 _ h _ (List.mem_singleton_self _) rfl
  rw [List.filter_append, filter_ne_of_notMem hnot]
  simp

theorem perm_cons_filter_ne (hf : (l.map f).Nodup) (he : e ∈ l) : l.Perm (e :: l.filter fun x => f x ≠ f e) := by
  induction l with
  | nil => simp at he
  | cons x l ih =>
    rw [List.map_cons, List.nodup_cons] at hf
    rcases List.mem_cons.mp he with rfl | he
    · rw [List.filter_cons_of_neg (by simp), filter_ne_of_notMem hf.1]
    · have hne : f x ≠ f e := fun h => hf.1 (h ▸ List.mem_map_of_mem he)
      rw [List.filter_cons_of_pos (by simpa using hne)]
      exact ((ih hf.2 he).cons x).trans (List.Perm.swap _ _ _)

end Keyed

/-! ## The lists -/

/-- Which nodes the lists hold, and what is stored there: no node is in two places. -/
structure Listed (m : CacheMemory ι K V) (E : ι → List (Nat × K × V)) : Prop where
  list : ∀ i, (m.cache i).cacheItemsList = (E i).map Prod.fst
  stored : ∀ i, ∀ e ∈ E i, m.node e.1 = some e.2
  nodup : ∀ i, ((E i).map Prod.fst).Nodup
  apart : ∀ i j, i ≠ j → ∀ e ∈ E i, ∀ e' ∈ E j, e.1 ≠ e'.1
  unused : ∀ n, m.used ≤ n → m.node n = none

variable {m m' : CacheMemory ι K V} {E : ι → List (Nat × K × V)} {i : ι}

theorem Listed.lt_used (h : Listed m E) {j : ι} (he : e ∈ E j) : e.1 < m.used := by
  by_contra hge
  have hnone := h.unused e.1 (by omega)
  rw [h.stored j e he] at hnone
  exact Option.some_ne_none _ hnone

variable [DecidableEq ι]

theorem Listed.modify (h : Listed m E) {f : CLRUCache K → CLRUCache K}
    (hf : (f (m.cache i)).cacheItemsList = (m.cache i).cacheItemsList) : Listed (m.modify i f) E where
  list j := by
    by_cases hj : j = i
    · subst hj
      simp only [CacheMemory.modify, update_self, hf, h.list]
    · simp only [CacheMemory.modify, update_of_ne hj, h.list]
  stored := h.stored
  nodup := h.nodup
  apart := h.apart
  unused := h.unused

theorem update_cases {P : ι → List (Nat × K × V) → Prop} (hself : P i l)
    (hother : ∀ j, j ≠ i → P j (E j)) (j : ι) : P j (update E i l j) := by
  by_cases hj : j = i
  · subst hj
    rwa [update_self]
  · rw [update_of_ne hj]
    exact hother j hj

section

variable (h : Listed m E)
include h

/-- The entries of the other lists stay apart from a list that holds nothing of theirs. -/
theorem Listed.apart_update
    (hl : ∀ j, j ≠ i → ∀ e ∈ l, ∀ e' ∈ E j, e.1 ≠ e'.1) (j j' : ι) (hne : j ≠ j') :
    ∀ e ∈ update E i l j, ∀ e' ∈ update E i l j', e.1 ≠ e'.1 := by
  intro e he e' he'
  by_cases hj : j = i
  · subst hj
    rw [update_self] at he
    rw [update_of_ne (Ne.symm hne)] at he'
    exact hl j' (Ne.symm hne) e he e' he'
  · rw [update_of_ne hj] at he
    by_cases hj' : j' = i
    · subst hj'
      rw [update_self] at he'
      exact (hl j hne e' he' e he).symm
    · rw [update_of_ne hj'] at he'
      exact h.apart j j' hne e he e' he'

theorem Listed.pushFront (item : K × V) :
    Listed (m.pushFront i item) (update E i ((m.used, item) :: E i)) where
  list := by
    apply update_cases (P := fun j l => ((m.pushFront i item).cache j).cacheItemsList = l.map Prod.fst)
    · simp [CacheMemory.pushFront, CacheMemory.modify, h.list]
    · intro j hj
      simp only [CacheMemory.pushFront, CacheMemory.modify, update_of_ne hj, h.list]
  stored := by
    have hold : ∀ j, ∀ e ∈ E j, (m.pushFront i item).node e.1 = some e.2 := by
      intro j e he
      have hne : e.1 ≠ m.used := Nat.ne_of_lt (h.lt_used he)
      show update m.node m.used (some item) e.1 = some e.2
      rw [update_of_ne hne, h.stored j e he]
    apply update_cases (P := fun _ l => ∀ e ∈ l, (m.pushFront i item).node e.1 = some e.2)
    · intro e he
      rcases List.mem_cons.mp he with rfl | he
      · exact update_self ..
      · exact hold i e he
    · intro j _
      exact hold j
  nodup := by
    apply update_cases (P := fun _ l => (l.map Prod.fst).Nodup)
    · rw [List.map_cons, List.nodup_cons]
      refine ⟨?_, h.nodup i⟩
      intro hmem
      obtain ⟨e, he, heq⟩ := List.mem_map.mp hmem
      exact Nat.ne_of_lt (h.lt_used he) heq
    · intro j _
      exact h.nodup j
  apart := by
    apply h.apart_update
    intro j hj e he e' he'
    rcases List.mem_cons.mp he with rfl | he
    · exact (Nat.ne_of_lt (h.lt_used he')).symm
    · exact h.apart i j hj.symm e he e' he'
  unused n hn := by
    have hn' : m.used + 1 ≤ n := hn
    show update m.node m.used (some item) n = none
    rw [update_of_ne (by omega), h.unused n (by omega)]

theorem Listed.unlink_list (he : e ∈ E i) (j : ι) :
    ((m.unlink e.1).cache j).cacheItemsList = (update E i ((E i).filter fun x => x.1 ≠ e.1) j).map Prod.fst := by
  apply update_cases (P := fun j l => ((m.unlink e.1).cache j).cacheItemsList = l.map Prod.fst)
  · show (m.cache i).cacheItemsList.erase e.1 = _
    rw [h.list, (h.nodup i).erase_eq_filter, List.filter_map]
    simp [Function.comp_def, bne, beq_eq_decide]
  · intro j hj
    show (m.cache j).cacheItemsList.erase e.1 = _
    rw [h.list, List.erase_of_not_mem]
    intro hmem
    obtain ⟨e', he', heq⟩ := List.mem_map.mp hmem
    exact h.apart i j hj.symm e he e' he' heq.symm

theorem Listed.eraseNode (he : e ∈ E i) :
    ∃ m', m.eraseNode e.1 = some m' ∧ Listed m' (update E i ((E i).filter fun x => x.1 ≠ e.1)) ∧
      ∀ j, (m'.cache j).cacheItemsMap = (m.cache j).cacheItemsMap ∧ (m'.cache j).maxSize = (m.cache j).maxSize := by
  refine ⟨{ m.unlink e.1 with node := update m.node e.1 none }, ?_, ⟨?_, ?_, ?_, ?_, ?_⟩, ?_⟩
  · rw [CacheMemory.eraseNode, h.stored i e he]
  · exact h.unlink_list he
  · apply update_cases (P := fun _ l => ∀ x ∈ l, update m.node e.1 none x.1 = some x.2)
    · intro x hx
      obtain ⟨hx, hne⟩ := List.mem_filter.mp hx
      rw [update_of_ne (by simpa using hne), h.stored i x hx]
    · intro j hj x hx
      rw [update_of_ne (h.apart j i hj x hx e he), h.stored j x hx]
  · apply update_cases (P := fun _ l => (l.map Prod.fst).Nodup)
    · exact (h.nodup i).sublist (List.filter_sublist.map Prod.fst)
    · intro j _
      exact h.nodup j
  · apply h.apart_update
    intro j hj x hx x' hx'
    exact h.apart i j hj.symm x (List.mem_of_mem_filter hx) x' hx'
  · intro n hn
    show update m.node e.1 none n = none
    by_cases hne : n = e.1
    · rw [hne, update_self]
    · rw [update_of_ne hne, h.unused n hn]
  · intro j
    exact ⟨rfl, rfl⟩

theorem Listed.spliceFront (he : e ∈ E i) :
    ∃ m', m.spliceFront i e.1 = some m' ∧ m'.node = m.node ∧
      Listed m' (update E i (e :: (E i).filter fun x => x.1 ≠ e.1)) ∧
      ∀ j, (m'.cache j).cacheItemsMap = (m.cache j).cacheItemsMap ∧ (m'.cache j).maxSize = (m.cache j).maxSize := by
  refine ⟨(m.unlink e.1).modify i fun c => { c with cacheItemsList := e.1 :: c.cacheItemsList },
    ?_, rfl, ⟨?_, ?_, ?_, ?_, h.unused⟩, ?_⟩
  · rw [CacheMemory.spliceFront, h.stored i e he]
  · apply update_cases (P := fun j l => (CacheMemory.cache _ j).cacheItemsList = l.map Prod.fst)
    · have hi := h.unlink_list he i
      rw [update_self] at hi
      simp only [CacheMemory.modify, update_self, hi, List.map_cons]
    · intro j hj
      have hi := h.unlink_list he j
      rw [update_of_ne hj] at hi
      simp only [CacheMemory.modify, update_of_ne hj, hi]
  · apply update_cases (P := fun _ l => ∀ x ∈ l, m.node x.1 = some x.2)
    · intro x hx
      rcases List.mem_cons.mp hx with rfl | hx
      · exact h.stored i x he
      · exact h.stored i x (List.mem_of_mem_filter hx)
    · intro j _
      exact h.stored j
  · apply update_cases (P := fun _ l => (l.map Prod.fst).Nodup)
    · exact ((perm_cons_filter_ne (h.nodup i) he).map Prod.fst).nodup_iff.mp (h.nodup i)
    · intro j _
      exact h.nodup j
  · apply h.apart_update
    intro j hj x hx x' hx'
    rcases List.mem_cons.mp hx with rfl | hx
    · exact h.apart i j hj.symm x he x' hx'
    · exact h.apart i j hj.symm x (List.mem_of_mem_filter hx) x' hx'
  · intro j
    by_cases hj : j = i
    · subst hj
      simp [CacheMemory.modify, CacheMemory.unlink]
    · simp [CacheMemory.modify, CacheMemory.unlink, update_of_ne hj]

theorem Listed.clear : Listed (m.clear i) (update E i []) where
  list := by
    apply update_cases (P := fun j l => ((m.clear i).cache j).cacheItemsList = l.map Prod.fst)
    · simp [CacheMemory.clear, CacheMemory.modify]
    · intro j hj
      simp only [CacheMemory.clear, CacheMemory.modify, update_of_ne hj, h.list]
  stored := by
    apply update_cases (P := fun _ l => ∀ x ∈ l, (m.clear i).node x.1 = some x.2)
    · intro x hx
      simp at hx
    · intro j hj x hx
      have hnot : x.1 ∉ (m.cache i).cacheItemsList := by
        rw [h.list]
        intro hmem
        obtain ⟨e, he, heq⟩ := List.mem_map.mp hmem
        exact h.apart i j hj.symm e he x hx heq
      show (if x.1 ∈ (m.cache i).cacheItemsList then none else m.node x.1) = _
      rw [if_neg hnot, h.stored j x hx]
  nodup := by
    apply update_cases (P := fun _ l => (l.map Prod.fst).Nodup)
    · exact List.nodup_nil
    · intro j _
      exact h.nodup j
  apart := by
    apply h.apart_update
    intro j _ x hx
    simp at hx
  unused n hn := by
    show (if n ∈ (m.cache i).cacheItemsList then none else m.node n) = none
    rw [h.unused n hn, ite_self]

end

/-! ## The index -/

/-- The index knows each entry under its key, and nothing else. -/
structure Indexed (c : CLRUCache K) (l : List (Nat × K × V)) : Prop where
  index : c.cacheItemsMap.Perm (l.map fun e => (e.2.1, e.1))
  keys : (l.map fun e => e.2.1).Nodup

variable [DecidableEq K] {c : CLRUCache K}

section

variable (h : Indexed c l)
include h

omit [DecidableEq K] in
theorem Indexed.of_map_eq {c' : CLRUCache K} (hc : c'.cacheItemsMap = c.cacheItemsMap) : Indexed c' l :=
  ⟨hc ▸ h.index, h.keys⟩

omit [DecidableEq K] in
theorem Indexed.mem {p : K × Nat} : p ∈ c.cacheItemsMap ↔ ∃ v, (p.2, p.1, v) ∈ l := by
  rw [h.index.mem_iff, List.mem_map]
  constructor
  · rintro ⟨e, he, rfl⟩
    exact ⟨e.2.2, he⟩
  · rintro ⟨v, hv⟩
    exact ⟨_, hv, rfl⟩

omit [DecidableEq K] in
theorem Indexed.nodup_index : (c.cacheItemsMap.map Prod.fst).Nodup := by
  rw [(h.index.map Prod.fst).nodup_iff, List.map_map]
  exact h.keys

theorem Indexed.find_eq_some (he : e ∈ l) : c.find e.2.1 = some e.1 := by
  have hmem : (e.2.1, e.1) ∈ c.cacheItemsMap := h.mem.mpr ⟨e.2.2, he⟩
  cases hfind : c.find e.2.1 with
  | none =>
    rw [CLRUCache.find, List.lookup_eq_none_iff] at hfind
    simpa using hfind _ hmem
  | some n =>
    obtain ⟨l₁, l₂, hsplit, -⟩ := List.lookup_eq_some_iff.mp hfind
    have hn : (e.2.1, n) ∈ c.cacheItemsMap := by simp [hsplit]
    have heq := List.inj_on_of_nodup_map h.nodup_index hn hmem rfl
    rw [(Prod.mk.inj heq).2]

theorem Indexed.find_eq_none {key : K} (hkey : ∀ e ∈ l, e.2.1 ≠ key) : c.find key = none := by
  rw [CLRUCache.find, List.lookup_eq_none_iff]
  intro p hp
  obtain ⟨v, hv⟩ := h.mem.mp hp
  simpa using (hkey _ hv).symm

theorem Indexed.eraseIndex (key : K) :
    Indexed (c.eraseIndex key) (l.filter fun e => e.2.1 ≠ key) where
  index := by
    have hperm := h.index.filter fun p => p.1 ≠ key
    rw [List.filter_map] at hperm
    exact hperm
  keys := h.keys.sublist (List.filter_sublist.map _)

theorem Indexed.setIndex (e : Nat × K × V) :
    Indexed (c.setIndex e.2.1 e.1) (e :: l.filter fun x => x.2.1 ≠ e.2.1) where
  index := (h.eraseIndex e.2.1).index.cons _
  keys := by
    rw [List.map_cons, List.nodup_cons]
    refine ⟨?_, (h.eraseIndex e.2.1).keys⟩
    intro hmem
    obtain ⟨x, hx, heq⟩ := List.mem_map.mp hmem
    simp only [List.mem_filter, decide_eq_true_eq] at hx
    exact hx.2 heq

end

/-! ## The calls against the reference -/

/-- What a call on cache `i` leaves alone beside the lists. -/
structure Elsewhere (m m' : CacheMemory ι K V) (i : ι) : Prop where
  index : ∀ j, j ≠ i → (m'.cache j).cacheItemsMap = (m.cache j).cacheItemsMap
  maxSize : ∀ j, (m'.cache j).maxSize = (m.cache j).maxSize

omit [DecidableEq ι] [DecidableEq K] in
theorem Elsewhere.trans {m'' : CacheMemory ι K V} (h : Elsewhere m m' i) (h' : Elsewhere m' m'' i) :
    Elsewhere m m'' i where
  index j hj := (h'.index j hj).trans (h.index j hj)
  maxSize j := (h'.maxSize j).trans (h.maxSize j)

omit [DecidableEq K] in
theorem cache_modify_self (m : CacheMemory ι K V) (i : ι) (f : CLRUCache K → CLRUCache K) :
    (m.modify i f).cache i = f (m.cache i) := update_self ..

omit [DecidableEq K] in
theorem elsewhere_of_update {c : CLRUCache K} (hm : m'.cache = update m.cache i c)
    (hc : c.maxSize = (m.cache i).maxSize) : Elsewhere m m' i where
  index j hj := by rw [hm, update_of_ne hj]
  maxSize j := by
    by_cases hj : j = i
    · subst hj
      rw [hm, update_self, hc]
    · rw [hm, update_of_ne hj]

theorem Listed.drop (h : Listed m E) (he : e ∈ E i) (hl : Indexed (m.cache i) l) :
    ∃ m', m.drop i e.2.1 (some e.1) = some m' ∧ Listed m' (update E i ((E i).filter fun x => x.1 ≠ e.1)) ∧
      Indexed (m'.cache i) (l.filter fun x => x.2.1 ≠ e.2.1) ∧ Elsewhere m m' i := by
  obtain ⟨m₁, hm₁, hlisted, hsame⟩ := h.eraseNode he
  have helse : Elsewhere m m₁ i := ⟨fun j _ => (hsame j).1, fun j => (hsame j).2⟩
  refine ⟨m₁.modify i (·.eraseIndex e.2.1), ?_, hlisted.modify rfl, ?_, helse.trans (elsewhere_of_update rfl rfl)⟩
  · rw [CacheMemory.drop, hm₁]
    rfl
  · rw [cache_modify_self]
    exact (hl.of_map_eq (hsame i).1).eraseIndex e.2.1

theorem Listed.evict (h : Listed m E) (hi : Indexed (m.cache i) (E i)) (hE : E i = l ++ [e]) :
    ∃ m', m.evict i = some m' ∧ Listed m' (update E i l) ∧ Indexed (m'.cache i) l ∧ Elsewhere m m' i := by
  have he : e ∈ E i := by simp [hE]
  have hmod : Listed (m.modify i (·.eraseIndex e.2.1)) E := h.modify rfl
  obtain ⟨m', hm', hlisted, hsame⟩ := hmod.eraseNode he
  have helse : Elsewhere m (m.modify i (·.eraseIndex e.2.1)) i := elsewhere_of_update rfl rfl
  have hnode : ((E i).filter fun x => x.1 ≠ e.1) = l := by
    have hnodup := h.nodup i
    rw [hE] at hnodup ⊢
    exact filter_ne_last (f := Prod.fst) hnodup
  have hkey : ((E i).filter fun x => x.2.1 ≠ e.2.1) = l := by
    have hnodup := hi.keys
    rw [hE] at hnodup ⊢
    exact filter_ne_last (f := fun x : Nat × K × V => x.2.1) hnodup
  refine ⟨m', ?_, hnode ▸ hlisted, ?_, helse.trans ⟨fun j _ => (hsame j).1, fun j => (hsame j).2⟩⟩
  · have hlast : (m.cache i).cacheItemsList.getLast? = some e.1 := by simp [h.list, hE]
    rw [CacheMemory.evict, hlast, Option.bind_eq_bind, Option.bind_some, h.stored i e he]
    exact hm'
  · have hindex := hi.eraseIndex e.2.1
    rw [hkey] at hindex
    apply hindex.of_map_eq
    rw [(hsame i).1, cache_modify_self]

/-- The reference answers from a list of items, the most recent one first. -/
def referenceCall (c : Lib.LRUCache K V) : CacheCall K V → Lib.LRUCache K V × CacheAnswer V
  | .put key value => (c.put key value, .done)
  | .get key => (c.promote key, .ofGet (c.get? key))
  | .erase key => (c.erase key, .done)
  | .hasKey key => (c, .found (c.get? key).isSome)
  | .clear => ({ c with items := [] }, .done)
  | .size => (c, .count c.items.length)

/-- The memory holds the items of the reference caches, each under an address of its own. -/
structure Simulates (m : CacheMemory ι K V) (r : ι → Lib.LRUCache K V)
    (E : ι → List (Nat × K × V)) : Prop where
  listed : Listed m E
  indexed : ∀ i, Indexed (m.cache i) (E i)
  items : ∀ i, (r i).items = (E i).map Prod.snd
  maxSize : ∀ i, (r i).maxSize = (m.cache i).maxSize
  bounded : ∀ i, (E i).length ≤ (m.cache i).maxSize

variable {r : ι → Lib.LRUCache K V}

section

variable (h : Simulates m r E)
include h

omit [DecidableEq K] in
/-- After a call on cache `i` only its own entries have to be looked at. -/
theorem Simulates.replace {c : Lib.LRUCache K V}
    (hlisted : Listed m' (update E i l)) (hindexed : Indexed (m'.cache i) l)
    (helse : Elsewhere m m' i) (hitems : c.items = l.map Prod.snd)
    (hmax : c.maxSize = (r i).maxSize) (hsize : l.length ≤ (m.cache i).maxSize) :
    Simulates m' (update r i c) (update E i l) where
  listed := hlisted
  indexed := by
    apply update_cases (P := fun j l => Indexed (m'.cache j) l)
    · exact hindexed
    · intro j hj
      exact (h.indexed j).of_map_eq (helse.index j hj)
  items j := by
    by_cases hj : j = i
    · subst hj
      simp only [update_self, hitems]
    · simp only [update_of_ne hj, h.items]
  maxSize j := by
    rw [helse.maxSize]
    by_cases hj : j = i
    · subst hj
      rw [update_self, hmax, h.maxSize]
    · rw [update_of_ne hj, h.maxSize]
  bounded := by
    apply update_cases (P := fun j l => l.length ≤ (m'.cache j).maxSize)
    · rw [helse.maxSize]
      exact hsize
    · intro j _
      rw [helse.maxSize]
      exact h.bounded j

omit [DecidableEq ι] in
theorem Simulates.items_erase (key : K) :
    ((r i).erase key).items = ((E i).filter fun e => e.2.1 ≠ key).map Prod.snd := by
  show ((r i).items.filter fun p => p.1 ≠ key) = _
  rw [h.items, List.filter_map]
  rfl

omit [DecidableEq ι] in
theorem Simulates.get?_of_mem (he : e ∈ E i) : (r i).get? e.2.1 = some e.2.2 := by
  have hmem : e.2 ∈ (r i).items := by
    rw [h.items]
    exact List.mem_map_of_mem he
  have hkeys : ((r i).items.map Prod.fst).Nodup := by
    rw [h.items, List.map_map]
    exact (h.indexed i).keys
  cases hfind : (r i).items.find? (·.1 = e.2.1) with
  | none => simpa using List.find?_eq_none.mp hfind _ hmem
  | some p =>
    have hp : p = e.2 := List.inj_on_of_nodup_map hkeys (List.mem_of_find?_eq_some hfind) hmem
      (by simpa using List.find?_some hfind)
    rw [Lib.LRUCache.get?, hfind, hp, Option.map_some]

omit [DecidableEq ι] in
theorem Simulates.get?_eq_none {key : K} (hkey : ∀ e ∈ E i, e.2.1 ≠ key) : (r i).get? key = none := by
  rw [Lib.LRUCache.get?, Option.map_eq_none_iff, List.find?_eq_none, h.items]
  intro p hp
  obtain ⟨e, he, rfl⟩ := List.mem_map.mp hp
  simpa using hkey e he

omit [DecidableEq ι] in
theorem Simulates.find (i : ι) (key : K) :
    (∃ n v, (n, key, v) ∈ E i ∧ (m.cache i).find key = some n ∧ (r i).get? key = some v) ∨
      ((∀ e ∈ E i, e.2.1 ≠ key) ∧ (m.cache i).find key = none ∧ (r i).get? key = none) := by
  by_cases hex : ∃ e ∈ E i, e.2.1 = key
  · obtain ⟨⟨n, key, v⟩, he, rfl⟩ := hex
    exact .inl ⟨n, v, he, (h.indexed i).find_eq_some he, h.get?_of_mem he⟩
  · push Not at hex
    exact .inr ⟨hex, (h.indexed i).find_eq_none hex, h.get?_eq_none hex⟩

end

omit [DecidableEq ι] in
theorem filter_key_eq_self {key : K} (h : ∀ e ∈ l, e.2.1 ≠ key) :
    (l.filter fun e => e.2.1 ≠ key) = l := by
  rw [List.filter_eq_self]
  intro e he
  simpa using h e he

section

variable (h : Simulates m r E)
include h

omit [DecidableEq ι] in
theorem Simulates.filter_node (he : e ∈ E i) :
    ((E i).filter fun x => x.1 ≠ e.1) = (E i).filter fun x => x.2.1 ≠ e.2.1 :=
  filter_ne_congr (f := Prod.fst) (g := fun x : Nat × K × V => x.2.1) (h.listed.nodup i) (h.indexed i).keys he

theorem Simulates.erase (i : ι) (key : K) :
    ∃ m' E', m.erase i key = some m' ∧ Simulates m' (update r i ((r i).erase key)) E' := by
  have hsize : ((E i).filter fun e => e.2.1 ≠ key).length ≤ (m.cache i).maxSize := (List.length_filter_le _ _).trans (h.bounded i)
  rcases h.find i key with ⟨n, v, he, hfind, -⟩ | ⟨hnone, hfind, -⟩
  · obtain ⟨m', hm', hlisted, hindexed, helse⟩ := h.listed.drop he (h.indexed i)
    rw [h.filter_node he] at hlisted
    refine ⟨m', _, ?_, h.replace hlisted hindexed helse (h.items_erase key) rfl hsize⟩
    rw [CacheMemory.erase, hfind]
    exact hm'
  · refine ⟨m, _, by rw [CacheMemory.erase, hfind]; rfl,
      h.replace (l := E i) ?_ (h.indexed i) ⟨fun _ _ => rfl, fun _ => rfl⟩ ?_ rfl (h.bounded i)⟩
    · rw [update_eq_self]
      exact h.listed
    · rw [h.items_erase, filter_key_eq_self hnone]

theorem Simulates.get (i : ι) (key : K) :
    ∃ m' E', m.get i key = some (m', (r i).get? key) ∧ Simulates m' (update r i ((r i).promote key)) E' := by
  rcases h.find i key with ⟨n, v, he, hfind, hget⟩ | ⟨-, hfind, hget⟩
  · obtain ⟨m', hm', hnode, hlisted, hsame⟩ := h.listed.spliceFront he
    rw [h.filter_node he] at hlisted
    have hperm : (E i).Perm ((n, key, v) :: (E i).filter fun x => x.2.1 ≠ key) :=
      perm_cons_filter_ne (f := fun x : Nat × K × V => x.2.1) (h.indexed i).keys he
    have hindexed : Indexed (m'.cache i) ((n, key, v) :: (E i).filter fun x => x.2.1 ≠ key) := by
      refine ⟨?_, (hperm.map _).nodup_iff.mp (h.indexed i).keys⟩
      rw [(hsame i).1]
      exact (h.indexed i).index.trans (hperm.map _)
    refine ⟨m', _, ?_, h.replace hlisted hindexed ⟨fun j _ => (hsame j).1, fun j => (hsame j).2⟩ ?_ ?_ ?_⟩
    · have hv : m'.node n = some (key, v) := by rw [hnode, h.listed.stored i _ he]
      rw [CacheMemory.get, hfind]
      simp only [hm', Option.bind_eq_bind, Option.bind_some, hv, hget, Option.pure_def]
    · rw [Lib.LRUCache.promote, hget]
      show (key, v) :: ((r i).erase key).items = _
      rw [h.items_erase, List.map_cons]
    · rw [Lib.LRUCache.promote, hget]
    · rw [← hperm.length_eq]
      exact h.bounded i
  · refine ⟨m, E, ?_, ?_⟩
    · rw [CacheMemory.get, hfind, hget]
      rfl
    · rw [Lib.LRUCache.promote, hget, update_eq_self]
      exact h

/-- `Put` up to its new index entry: the new node is in front and the old one of the key is gone. -/
theorem Simulates.pushFront (i : ι) (key : K) (value : V) :
    ∃ m', (m.pushFront i (key, value)).drop i key ((m.cache i).find key) = some m' ∧
      Listed m' (update E i ((m.used, key, value) :: (E i).filter fun x => x.2.1 ≠ key)) ∧
      Indexed (m'.cache i) ((E i).filter fun x => x.2.1 ≠ key) ∧ Elsewhere m m' i := by
  have hpush := h.listed.pushFront (i := i) (key, value)
  have hsame : Elsewhere m (m.pushFront i (key, value)) i := elsewhere_of_update rfl rfl
  have hindex : Indexed ((m.pushFront i (key, value)).cache i) (E i) := by
    apply (h.indexed i).of_map_eq
    simp [CacheMemory.pushFront, CacheMemory.modify]
  rcases h.find i key with ⟨n, v, he, hfind, -⟩ | ⟨hnone, hfind, -⟩
  · have hmem : (n, key, v) ∈ update E i ((m.used, key, value) :: E i) i := by
      rw [update_self]
      exact List.mem_cons_of_mem _ he
    obtain ⟨m', hm', hlisted, hindexed, helse⟩ := hpush.drop hmem hindex
    refine ⟨m', by rw [hfind]; exact hm', ?_, hindexed, hsame.trans helse⟩
    -- the new node is not the one that goes
    have hne : m.used ≠ n := (Nat.ne_of_lt (h.listed.lt_used he)).symm
    rw [update_self, update_idem, List.filter_cons_of_pos (by simpa using hne),
      h.filter_node he] at hlisted
    exact hlisted
  · refine ⟨_, by rw [hfind]; rfl, ?_, ?_, hsame⟩
    · rw [filter_key_eq_self hnone]
      exact hpush
    · rw [filter_key_eq_self hnone]
      exact hindex

theorem Simulates.put (i : ι) (key : K) (value : V) :
    ∃ m' E', m.put i key value = some m' ∧ Simulates m' (update r i ((r i).put key value)) E' := by
  obtain ⟨m₁, hm₁, hlisted₁, hindexed₁, helse₁⟩ := h.pushFront i key value
  set l := (m.used, key, value) :: (E i).filter fun x => x.2.1 ≠ key with hl
  have hhead : (m₁.cache i).cacheItemsList.head? = some m.used := by
    rw [hlisted₁.list, update_self, hl]
    rfl
  set m₂ := m₁.modify i (·.setIndex key m.used) with hm₂
  have hlisted₂ : Listed m₂ (update E i l) := hlisted₁.modify rfl
  have hindexed₂ : Indexed (m₂.cache i) l := by
    rw [hm₂, cache_modify_self]
    have hset := hindexed₁.setIndex (m.used, key, value)
    rw [List.filter_filter] at hset
    simpa only [Bool.and_self, hl] using hset
  have helse₂ : Elsewhere m m₂ i := helse₁.trans (elsewhere_of_update rfl rfl)
  have hlength : (m₂.cache i).cacheItemsMap.length = l.length := by
    rw [hindexed₂.index.length_eq, List.length_map]
  have hitems : (key, value) :: ((r i).erase key).items = l.map Prod.snd := by
    rw [hl, List.map_cons, h.items_erase]
  have hput : m.put i key value = if (m₂.cache i).maxSize < (m₂.cache i).cacheItemsMap.length then m₂.evict i else some m₂ := by
    simp only [CacheMemory.put, hm₁, hhead, Option.bind_eq_bind, Option.bind_some, ← hm₂, Option.pure_def]
  have hreference : ((r i).put key value).items =
      if (m.cache i).maxSize < l.length then (l.map Prod.snd).dropLast else l.map Prod.snd := by
    simp only [Lib.LRUCache.put, hitems, List.length_map, h.maxSize, gt_iff_lt]
  rw [hput, hlength, helse₂.maxSize]
  by_cases hfull : (m.cache i).maxSize < l.length
  · rw [if_pos hfull]
    rw [if_pos hfull] at hreference
    have hsplit : update E i l i = l.dropLast ++ [l.getLast (by simp [hl])] := by
      rw [update_self, List.dropLast_append_getLast]
    obtain ⟨m₃, hm₃, hlisted₃, hindexed₃, helse₃⟩ := hlisted₂.evict (by rw [update_self]; exact hindexed₂) hsplit
    rw [update_idem] at hlisted₃
    refine ⟨m₃, _, hm₃, h.replace hlisted₃ hindexed₃ (helse₂.trans helse₃) ?_ rfl ?_⟩
    · rw [hreference, List.map_dropLast]
    · have hle : ((E i).filter fun x => x.2.1 ≠ key).length ≤ (m.cache i).maxSize :=
        (List.length_filter_le _ _).trans (h.bounded i)
      simpa [hl] using hle
  · rw [if_neg hfull]
    rw [if_neg hfull] at hreference
    exact ⟨m₂, _, rfl, h.replace hlisted₂ hindexed₂ helse₂ hreference rfl (not_lt.mp hfull)⟩

omit [DecidableEq K] in
theorem Simulates.clear (i : ι) :
    ∃ E', Simulates (m.clear i) (update r i { r i with items := [] }) E' := by
  refine ⟨_, h.replace h.listed.clear ⟨?_, List.nodup_nil⟩ (elsewhere_of_update rfl rfl) rfl rfl (Nat.zero_le _)⟩
  simp [CacheMemory.clear, CacheMemory.modify]

omit [DecidableEq ι] in
theorem Simulates.hasKey (i : ι) (key : K) : m.hasKey i key = ((r i).get? key).isSome := by
  rcases h.find i key with ⟨n, v, -, hfind, hget⟩ | ⟨-, hfind, hget⟩ <;>
    simp [CacheMemory.hasKey, hfind, hget]

omit [DecidableEq ι] [DecidableEq K] in
theorem Simulates.size (i : ι) : m.size i = (r i).items.length := by
  rw [CacheMemory.size, (h.indexed i).index.length_eq, h.items, List.length_map, List.length_map]

omit [DecidableEq ι] [DecidableEq K] in
theorem Simulates.items_eq (i : ι) : m.items i = (r i).items := by
  rw [CacheMemory.items, h.listed.list, h.items, List.filterMap_map]
  have hmap : ∀ e ∈ E i, (m.node ∘ Prod.fst) e = (some ∘ Prod.snd) e := fun e he => h.listed.stored i e he
  rw [List.filterMap_congr hmap, List.filterMap_eq_map]

theorem Simulates.call (i : ι) (c : CacheCall K V) :
    ∃ m' E', m.call i c = some (m', (referenceCall (r i) c).2) ∧
      Simulates m' (update r i (referenceCall (r i) c).1) E' := by
  cases c with
  | put key value =>
    obtain ⟨m', E', hm', hsim⟩ := h.put i key value
    exact ⟨m', E', by rw [CacheMemory.call, hm']; rfl, hsim⟩
  | get key =>
    obtain ⟨m', E', hm', hsim⟩ := h.get i key
    exact ⟨m', E', by rw [CacheMemory.call, hm']; rfl, hsim⟩
  | erase key =>
    obtain ⟨m', E', hm', hsim⟩ := h.erase i key
    exact ⟨m', E', by rw [CacheMemory.call, hm']; rfl, hsim⟩
  | hasKey key =>
    refine ⟨m, E, by rw [CacheMemory.call, h.hasKey]; rfl, ?_⟩
    simpa only [referenceCall, update_eq_self] using h
  | clear =>
    obtain ⟨E', hsim⟩ := h.clear i
    exact ⟨m.clear i, E', rfl, hsim⟩
  | size =>
    refine ⟨m, E, by rw [CacheMemory.call, h.size]; rfl, ?_⟩
    simpa only [referenceCall, update_eq_self] using h

end

def referenceRun (r : ι → Lib.LRUCache K V) :
    List (ι × CacheCall K V) → (ι → Lib.LRUCache K V) × List (CacheAnswer V)
  | [] => (r, [])
  | (i, c) :: calls =>
    let (c', answer) := referenceCall (r i) c
    let (r, answers) := referenceRun (update r i c') calls
    (r, answer :: answers)

theorem Simulates.run (h : Simulates m r E) (calls : List (ι × CacheCall K V)) :
    ∃ m' E', m.run calls = some (m', (referenceRun r calls).2) ∧ Simulates m' (referenceRun r calls).1 E' := by
  induction calls generalizing m r E with
  | nil => exact ⟨m, E, rfl, h⟩
  | cons c calls ih =>
    obtain ⟨m₁, E₁, hm₁, hsim₁⟩ := h.call c.1 c.2
    obtain ⟨m₂, E₂, hm₂, hsim₂⟩ := ih hsim₁
    refine ⟨m₂, E₂, ?_, hsim₂⟩
    simp only [CacheMemory.run, hm₁, hm₂, Option.bind_eq_bind, Option.bind_some, Option.pure_def, referenceRun]

omit [DecidableEq ι] [DecidableEq K] in
theorem simulates_ofSizes (maxSize : ι → Nat) :
    Simulates (CacheMemory.ofSizes maxSize : CacheMemory ι K V)
      (fun i => Lib.LRUCache.empty (maxSize i)) fun _ => [] where
  listed :=
    { list := fun _ => rfl
      stored := by simp
      nodup := by simp
      apart := by simp
      unused := fun _ _ => rfl }
  indexed _ := ⟨List.Perm.nil, List.nodup_nil⟩
  items _ := rfl
  maxSize _ := rfl
  bounded _ := Nat.zero_le _

/-! ## A bounded map -/

/-- The list and the index hold the same keys, and each entry leads to the node of its key. -/
structure WellIndexed (m : CacheMemory ι K V) (i : ι) : Prop where
  list_nodup : (m.cache i).cacheItemsList.Nodup
  keys_nodup : ((m.cache i).cacheItemsMap.map Prod.fst).Nodup
  same_keys : ((m.items i).map Prod.fst).Perm ((m.cache i).cacheItemsMap.map Prod.fst)
  points : ∀ p ∈ (m.cache i).cacheItemsMap,
    p.2 ∈ (m.cache i).cacheItemsList ∧ ∃ v, m.node p.2 = some (p.1, v)
  known : ∀ n ∈ (m.cache i).cacheItemsList,
    ∃ k v, m.node n = some (k, v) ∧ (k, n) ∈ (m.cache i).cacheItemsMap

omit [DecidableEq ι] [DecidableEq K] in
theorem Simulates.mem_list (h : Simulates m r E) {p : K × Nat} (hp : p ∈ (m.cache i).cacheItemsMap) :
    p.2 ∈ (m.cache i).cacheItemsList ∧ ∃ v, m.node p.2 = some (p.1, v) := by
  obtain ⟨v, hv⟩ := (h.indexed i).mem.mp hp
  refine ⟨?_, v, h.listed.stored i _ hv⟩
  rw [h.listed.list]
  exact List.mem_map_of_mem (f := Prod.fst) hv

omit [DecidableEq ι] [DecidableEq K] in
theorem Simulates.wellIndexed (h : Simulates m r E) (i : ι) : WellIndexed m i where
  list_nodup := by
    rw [h.listed.list]
    exact h.listed.nodup i
  keys_nodup := (h.indexed i).nodup_index
  same_keys := by
    have hperm := ((h.indexed i).index.map Prod.fst).symm
    rw [List.map_map] at hperm
    rw [h.items_eq, h.items, List.map_map]
    exact hperm
  points _ hp := h.mem_list hp
  known n hn := by
    rw [h.listed.list] at hn
    obtain ⟨e, he, rfl⟩ := List.mem_map.mp hn
    exact ⟨e.2.1, e.2.2, h.listed.stored i e he, (h.indexed i).mem.mpr ⟨e.2.2, he⟩⟩

/-- A new key beyond the capacity takes the place of the item at the back, which is the one that was
put or read least recently. -/
theorem Simulates.items_put (h : Simulates m r E) (i : ι) (key : K) (value : V) :
    ∃ m', m.put i key value = some m' ∧
      m'.items i =
        if m.hasKey i key ∨ m.size i < (m.cache i).maxSize then
          (key, value) :: (m.items i).filter fun p => p.1 ≠ key
        else ((key, value) :: m.items i).dropLast := by
  obtain ⟨m', E', hm', hsim⟩ := h.put i key value
  refine ⟨m', hm', ?_⟩
  have hsize := h.bounded i
  have hlength : (r i).items.length = (E i).length := by rw [h.items, List.length_map]
  rw [hsim.items_eq, update_self, h.items_eq, h.size, h.hasKey]
  rcases h.find i key with ⟨n, v, he, -, hget⟩ | ⟨hnone, -, hget⟩
  · -- the entry of the key makes room
    have hperm := perm_cons_filter_ne (f := fun x : Nat × K × V => x.2.1) (h.indexed i).keys he
    have hroom : ((r i).erase key).items.length + 1 = (E i).length := by
      rw [hperm.length_eq, h.items_erase, List.length_map, List.length_cons]
    have hfits : ¬(r i).maxSize < ((key, value) :: ((r i).erase key).items).length := by
      rw [List.length_cons, hroom, h.maxSize]
      omega
    rw [hget, if_pos (by simp)]
    simp only [Lib.LRUCache.put, gt_iff_lt, if_neg hfits]
    rfl
  · have hself : ((r i).erase key).items = (r i).items := by
      rw [h.items_erase, filter_key_eq_self hnone, h.items]
    simp only [Lib.LRUCache.put, hself, List.length_cons, h.maxSize, hget,
      hlength, gt_iff_lt, Option.isSome_none, Bool.false_eq_true, false_or]
    by_cases hfull : (E i).length < (m.cache i).maxSize
    · rw [if_pos hfull, if_neg (by omega)]
      exact congrArg _ hself.symm
    · rw [if_neg hfull, if_pos (by omega)]

theorem referenceRun_maxSize (r : ι → Lib.LRUCache K V) (calls : List (ι × CacheCall K V)) (i : ι) :
    ((referenceRun r calls).1 i).maxSize = (r i).maxSize := by
  induction calls generalizing r with
  | nil => rfl
  | cons c calls ih =>
    have hcall : (referenceCall (r c.1) c.2).1.maxSize = (r c.1).maxSize := by
      cases c.2 with
      | get key =>
        simp only [referenceCall, Lib.LRUCache.promote]
        split <;> rfl
      | _ => rfl
    show ((referenceRun (update r c.1 (referenceCall (r c.1) c.2).1) calls).1 i).maxSize = _
    rw [ih]
    by_cases hi : i = c.1
    · rw [hi, update_self, hcall]
    · rw [update_of_ne hi]

/-- Any calls on caches of any sizes: no call is undefined, all answers are those of the reference
lists, and whenever the calls stop each cache is well indexed, within its size and holds the items
of its reference list in the same order. -/
theorem cLRUCache_refines_reference (maxSize : ι → Nat) (calls : List (ι × CacheCall K V)) :
    ∃ m r, referenceRun (fun i => Lib.LRUCache.empty (maxSize i)) calls = r ∧
      (CacheMemory.ofSizes maxSize : CacheMemory ι K V).run calls = some (m, r.2) ∧
      ∀ i, WellIndexed m i ∧ m.size i ≤ maxSize i ∧ m.items i = (r.1 i).items ∧
        ∀ key value, ∃ m', m.put i key value = some m' ∧
          m'.items i =
            if m.hasKey i key ∨ m.size i < maxSize i then
              (key, value) :: (m.items i).filter fun p => p.1 ≠ key
            else ((key, value) :: m.items i).dropLast := by
  obtain ⟨m, E, hrun, hsim⟩ := (simulates_ofSizes (K := K) (V := V) maxSize).run calls
  refine ⟨m, _, rfl, hrun, ?_⟩
  intro i
  have hmax : (m.cache i).maxSize = maxSize i := by
    rw [← hsim.maxSize, referenceRun_maxSize]
    rfl
  refine ⟨hsim.wellIndexed i, ?_, hsim.items_eq i, ?_⟩
  · rw [hsim.size, hsim.items, List.length_map, ← hmax]
    exact hsim.bounded i
  · rw [← hmax]
    exact hsim.items_put i

/-! ## Copies -/

structure AnswersAs (m m' : CacheMemory ι K V) (i : ι) : Prop where
  hasKey : ∀ key, m.hasKey i key = m'.hasKey i key
  get : ∀ key, (m.get i key).map Prod.snd = (m'.get i key).map Prod.snd
  size : m.size i = m'.size i
  items : m.items i = m'.items i

/-- Whatever was called: no call is undefined or changes an answer of the other cache, and no
iterator leads to a node of the other cache or to one that was freed. -/
structure Independent (m : CacheMemory CacheSide K V) : Prop where
  defined : ∀ calls, (m.run calls).isSome
  answers : ∀ calls m₁ a₁ s c m₂ a₂, m.run calls = some (m₁, a₁) → m₁.call s c = some (m₂, a₂) →
    AnswersAs m₂ m₁ s.other
  iterators : ∀ calls m₁ a₁, m.run calls = some (m₁, a₁) → ∀ s, ∀ p ∈ (m₁.cache s).cacheItemsMap,
    p.2 ∉ (m₁.cache s.other).cacheItemsList ∧ (m₁.node p.2).isSome

theorem CacheSide.other_ne (s : CacheSide) : s.other ≠ s := by
  cases s <;> decide

theorem Simulates.answersAs (h : Simulates m r E) {r' : ι → Lib.LRUCache K V}
    {E' : ι → List (Nat × K × V)} (h' : Simulates m' r' E') (hi : r i = r' i) : AnswersAs m m' i where
  hasKey key := by rw [h.hasKey, h'.hasKey, hi]
  get key := by
    obtain ⟨m₁, E₁, hm₁, -⟩ := h.get i key
    obtain ⟨m₂, E₂, hm₂, -⟩ := h'.get i key
    rw [hm₁, hm₂, hi]
    rfl
  size := by rw [h.size, h'.size, hi]
  items := by rw [h.items_eq, h'.items_eq, hi]

theorem Simulates.independent {m : CacheMemory CacheSide K V} {r : CacheSide → Lib.LRUCache K V}
    {E : CacheSide → List (Nat × K × V)} (h : Simulates m r E) : Independent m where
  defined calls := by
    obtain ⟨m₁, E₁, hrun, -⟩ := h.run calls
    rw [hrun]
    rfl
  answers calls m₁ a₁ s c m₂ a₂ hrun hcall := by
    obtain ⟨m₁', E₁, hrun', hsim₁⟩ := h.run calls
    rw [hrun] at hrun'
    obtain ⟨rfl, -⟩ := Prod.mk.inj (Option.some.inj hrun')
    obtain ⟨m₂', E₂, hcall', hsim₂⟩ := hsim₁.call s c
    rw [hcall] at hcall'
    obtain ⟨rfl, -⟩ := Prod.mk.inj (Option.some.inj hcall')
    exact hsim₂.answersAs hsim₁ (update_of_ne s.other_ne ..)
  iterators calls m₁ a₁ hrun s p hp := by
    obtain ⟨m₁', E₁, hrun', hsim⟩ := h.run calls
    rw [hrun] at hrun'
    obtain ⟨rfl, -⟩ := Prod.mk.inj (Option.some.inj hrun')
    obtain ⟨v, hv⟩ := (hsim.indexed s).mem.mp hp
    constructor
    · rw [hsim.listed.list]
      intro hmem
      obtain ⟨e, he, heq⟩ := List.mem_map.mp hmem
      exact hsim.listed.apart _ _ s.other_ne e he _ hv heq
    · rw [hsim.listed.stored s _ hv]
      rfl

omit [DecidableEq K] in
theorem Simulates.copyCache {m : CacheMemory CacheSide K V} {r : CacheSide → Lib.LRUCache K V}
    {E : CacheSide → List (Nat × K × V)} (h : Simulates m r E) (hempty : E .original = []) :
    ∃ r' E', Simulates m.copyCache r' E' := by
  have hitems : m.items .original = [] := by rw [h.items_eq, h.items, hempty]; rfl
  have hmap : (m.cache .original).cacheItemsMap = [] := by
    have hperm := (h.indexed .original).index
    rw [hempty] at hperm
    exact hperm.eq_nil
  have hnode : m.copyCache.node = m.node := by
    funext n
    by_cases hn : n < m.used
    · simp only [CacheMemory.copyCache, if_pos hn]
    · simp only [CacheMemory.copyCache, if_neg hn, hitems, List.getElem?_nil, h.listed.unused n (not_lt.mp hn)]
  have hcopy : m.copyCache.cache .copy = ⟨[], [], (m.cache .original).maxSize⟩ := by
    simp [CacheMemory.copyCache, hitems, hmap]
  have horiginal : m.copyCache.cache .original = m.cache .original := by
    simp [CacheMemory.copyCache]
  refine ⟨fun _ => r .original, fun _ => [], ⟨⟨?_, by simp, by simp, by simp, ?_⟩, ?_, ?_, ?_, ?_⟩⟩
  · rintro (_ | _)
    · rw [horiginal, h.listed.list, hempty]
    · rw [hcopy]
      rfl
  · intro n hn
    rw [hnode]
    exact h.listed.unused n (by simpa [CacheMemory.copyCache, hitems] using hn)
  · rintro (_ | _)
    · rw [horiginal]
      exact hempty ▸ h.indexed .original
    · rw [hcopy]
      exact ⟨List.Perm.nil, List.nodup_nil⟩
  · intro _
    rw [h.items, hempty]
  · rintro (_ | _)
    · rw [horiginal, h.maxSize]
    · rw [hcopy, h.maxSize]
  · intro _
    exact Nat.zero_le _

/-- A cache that was built by any calls and then copied: the two are independent just when there was
nothing in it. -/
theorem independent_copyCache_iff (maxSize : Nat) (calls : List (CacheCall K V))
    (m : CacheMemory CacheSide K V) (answers : List (CacheAnswer V))
    (hrun : (CacheMemory.ofSizes fun _ => maxSize).run (calls.map fun c => (CacheSide.original, c)) =
      some (m, answers)) :
    Independent m.copyCache ↔ m.size .original = 0 := by
  obtain ⟨m', E, hrun', hsim⟩ := (simulates_ofSizes (K := K) (V := V) fun _ => maxSize).run
    (calls.map fun c => (CacheSide.original, c))
  rw [hrun] at hrun'
  obtain ⟨rfl, -⟩ := Prod.mk.inj (Option.some.inj hrun')
  constructor
  · intro h
    by_contra hsize
    -- any entry of the copied index leads to a node of the original
    obtain ⟨p, hp⟩ := List.exists_mem_of_length_pos (Nat.pos_of_ne_zero hsize)
    have hcopied : p ∈ (m.copyCache.cache .copy).cacheItemsMap := by
      simpa [CacheMemory.copyCache] using hp
    apply (h.iterators [] _ _ rfl .copy p hcopied).1
    show p.2 ∈ (m.copyCache.cache .original).cacheItemsList
    simpa [CacheMemory.copyCache] using (hsim.mem_list hp).1
  · intro hsize
    rw [hsim.size, hsim.items, List.length_map] at hsize
    obtain ⟨r', E', hcopy⟩ := hsim.copyCache (List.eq_nil_of_length_eq_zero hsize)
    exact hcopy.independent

/-- A copy that erases its only key takes the node out of the list of the original, whose own index
still leads there: its next `Get` of the key is undefined. -/
theorem copiedCache_dangles :
    ∃ m m' : CacheMemory CacheSide Nat Nat,
      ((CacheMemory.ofSizes fun _ => 2).run [(.original, .put 1 10)]).map Prod.fst = some m ∧
        m.copyCache.erase .copy 1 = some m' ∧ m.copyCache.items .original = [(1, 10)] ∧
        m'.items .original = [] ∧ m'.hasKey .original 1 = true ∧ (m'.get .original 1).isNone := by
  refine ⟨_, _, rfl, rfl, ?_, ?_, ?_, ?_⟩ <;> decide

theorem clearedCache_independent :
    ∃ m : CacheMemory CacheSide Nat Nat, Independent m.copyCache ∧
      (CacheMemory.ofSizes fun _ => 2).run [(.original, .put 1 10), (.original, .clear)] =
        some (m, [.done, .done]) := by
  refine ⟨_, ?_, rfl⟩
  exact (independent_copyCache_iff 2 [.put 1 10, .clear] _ _ rfl).mpr rfl

end HempCore
