import HempCore.Analysis.MempoolLinks
import HempCore.Analysis.MempoolTracking

/-!
# The inputs of the memory pool

Every input of a transaction in the pool is an output of another one or an unspent coin of the tip.
Sets that are closed under children can leave the pool; `removeForBlock` also takes single
transactions, those of a block and those that its asset data make invalid.
-/

set_option autoImplicit false

namespace HempCore

open Lib CTxMemPool Std

variable {pool : CTxMemPool} {hash : Uint256} {tx : CTransaction} {cfg : Config} {stage : TreeSet Uint256}
  {o : COutPoint} {action : PoolNode.Action}

/-! ## Descendants -/

theorem length_rest_le (pool : CTxMemPool) (done : TreeSet Uint256) :
    (rest pool.mapTx.keys.toFinset done).card ≤ pool.mapTx.size := by
  calc (rest pool.mapTx.keys.toFinset done).card
      ≤ pool.mapTx.keys.toFinset.card := Finset.card_le_card (Finset.filter_subset _ _)
    _ ≤ pool.mapTx.keys.length := List.toFinset_card_le _
    _ = pool.mapTx.size := TreeMap.length_keys

theorem mem_nodes {k : Uint256} : k ∈ pool.mapTx.keys.toFinset ↔ k ∈ pool.mapTx := by
  rw [List.mem_toFinset, TreeMap.mem_keys]

/-- The links of a pool lead from entries to entries. -/
structure Linked (pool : CTxMemPool) : Prop where
  keys : ∀ k, k ∈ pool.mapLinks ↔ k ∈ pool.mapTx
  symm : ∀ p c, pool.Child p c ↔ pool.Parent c p

theorem Linked.child_mem (h : Linked pool) {p c : Uint256} (hchild : pool.Child p c) : c ∈ pool.mapTx := by
  obtain ⟨links, hlinks, -⟩ := (h.symm p c).mp hchild
  exact (h.keys _).mp (mem_of_getElem? hlinks)

theorem Linked.parent_mem (h : Linked pool) {p c : Uint256} (hparent : pool.Parent c p) : p ∈ pool.mapTx := by
  obtain ⟨links, hlinks, -⟩ := (h.symm p c).mpr hparent
  exact (h.keys _).mp (mem_of_getElem? hlinks)

/-- A set of entries that is closed under children. -/
structure ClosedIn (pool : CTxMemPool) (stage : TreeSet Uint256) : Prop where
  mem : ∀ hash ∈ stage, hash ∈ pool.mapTx
  closed : ∀ p ∈ stage, ∀ c, pool.Child p c → c ∈ stage

theorem Linked.calculateDescendants (h : Linked pool) (hstage : ClosedIn pool stage)
    {entry : Uint256} (hentry : entry ∈ pool.mapTx) :
    ClosedIn pool (pool.calculateDescendants stage entry) ∧ entry ∈ pool.calculateDescendants stage entry ∧
      ∀ hash ∈ stage, hash ∈ pool.calculateDescendants stage entry := by
  rw [CTxMemPool.calculateDescendants]
  split_ifs with hcontains
  · exact ⟨hstage, TreeSet.contains_iff_mem.mp hcontains, fun _ hmem => hmem⟩
  · have hstart : ∀ k ∈ (TreeSet.empty.insert entry : TreeSet Uint256), k = entry := by
      intro k hk
      exact (mem_insert_iff.mp hk).resolve_right TreeSet.not_mem_emptyc
    have hwalking : Walking pool.getMemPoolChildren pool.mapTx.keys.toFinset (TreeSet.empty.insert entry) stage := by
      refine ⟨fun k hk => ?_, fun k hk => mem_nodes.mpr (hstage.mem k hk), fun k _ j hj => ?_, fun k hk j hj => ?_⟩
      · obtain rfl := hstart k hk
        exact ⟨mem_nodes.mpr hentry, fun hdone => hcontains (TreeSet.contains_iff_mem.mpr hdone)⟩
      · exact mem_nodes.mpr (h.child_mem (mem_getMemPoolChildren.mp hj))
      · exact .inl (hstage.closed k hk j (mem_getMemPoolChildren.mp hj))
    obtain ⟨hsub, hclosed⟩ := hwalking.walk_closed (length_rest_le pool stage)
    refine ⟨⟨?_, fun p hp c hc => hclosed p hp c (mem_getMemPoolChildren.mpr hc)⟩,
      hsub entry (.inr (mem_insert_iff.mpr (.inl rfl))), fun k hk => hsub k (.inl hk)⟩
    refine walk_least (P := fun k => k ∈ pool.mapTx) ?_ ?_ hstage.mem
    · exact fun k _ j hj => h.child_mem (mem_getMemPoolChildren.mp hj)
    · intro k hk
      exact hstart k hk ▸ hentry

theorem Linked.descendants (h : Linked pool) (entries : List Uint256)
    (hstage : ClosedIn pool stage) (hentries : ∀ entry ∈ entries, entry ∈ pool.mapTx) :
    ClosedIn pool (entries.foldl pool.calculateDescendants stage) ∧
      (∀ entry ∈ entries, entry ∈ entries.foldl pool.calculateDescendants stage) ∧
      ∀ hash ∈ stage, hash ∈ entries.foldl pool.calculateDescendants stage := by
  induction entries generalizing stage with
  | nil => exact ⟨hstage, by simp, fun _ hmem => hmem⟩
  | cons entry entries ih =>
    obtain ⟨hclosed, hself, hold⟩ := h.calculateDescendants hstage (hentries entry List.mem_cons_self)
    obtain ⟨hclosed', hmem, hold'⟩ := ih hclosed fun other hother => hentries other (List.mem_cons_of_mem entry hother)
    refine ⟨hclosed', fun other hother => ?_, fun k hk => hold' k (hold k hk)⟩
    rcases List.mem_cons.mp hother with rfl | hother
    · exact hold' other hself
    · exact hmem other hother

theorem closedIn_empty (pool : CTxMemPool) : ClosedIn pool ∅ := ⟨fun hash hmem => by simp at hmem, fun p hp => by simp at hp⟩

/-! ## Pools with their inputs -/

/-- The output with this index exists and becomes a coin. -/
def CTransaction.Spendable (tx : CTransaction) (n : Nat) : Prop :=
  ∃ out, tx.vout[n]? = some out ∧ isUnspendable out.scriptPubKey = false

def Keyed (pool : CTxMemPool) : Prop :=
  ∀ (hash : Uint256) (tx : CTransaction), pool.mapTx[hash]? = some tx → tx.hash = hash

/-- The entries are found by their hashes and by what they spend, their links are in order, and each
input is available or an output of a parent. -/
structure Wired (avail : COutPoint → Prop) (pool : CTxMemPool) : Prop where
  keyed : Keyed pool
  next : ∀ (o : COutPoint) (tx : CTransaction), pool.mapNextTx[o]? = some tx ↔
    pool.mapTx[tx.hash]? = some tx ∧ o ∈ tx.vin.map CTxIn.prevout
  linked : Linked pool
  supported : ∀ (hash : Uint256) (tx : CTransaction), pool.mapTx[hash]? = some tx →
    ∀ o ∈ tx.vin.map CTxIn.prevout, avail o ∨
      pool.Parent hash o.hash ∧ o.hash ≠ hash ∧ ∃ parent, pool.mapTx[o.hash]? = some parent ∧ parent.Spendable o.n

variable {avail : COutPoint → Prop}

/-- Whatever leaves, the rest stays in order, if what it spends of it is available. -/
theorem Wired.removeStaged (h : Wired avail pool) (stage : TreeSet Uint256)
    (hleft : ∀ hash o parent, hash ∉ stage → pool.Parent hash o.hash → o.hash ∈ stage →
      pool.mapTx[o.hash]? = some parent → parent.Spendable o.n → avail o) :
    Wired avail (pool.removeStaged stage) := by
  have hget : ∀ k t, (pool.removeStaged stage).mapTx[k]? = some t ↔ k ∉ stage ∧ pool.mapTx[k]? = some t := by
    intro k t
    rw [removeStaged_mapTx]
    by_cases hk : k ∈ stage <;> simp [hk]
  obtain ⟨hchild, hparent, hmem⟩ := links_removeStaged stage h.linked.symm h.linked.keys
  refine ⟨fun k t ht => h.keyed k t ((hget k t).mp ht).2, fun o t => ?_, ⟨fun k => ?_, fun p c => ?_⟩, ?_⟩
  · obtain ⟨hspent, hunspent⟩ := removeStaged_mapNextTx pool stage o
    rw [hget]
    by_cases hby : pool.SpentBy stage.toList o
    · rw [hspent hby]
      simp only [reduceCtorEq, false_iff]
      rintro ⟨⟨hstay, ht⟩, ho⟩
      -- the output has one spender, and that one left
      obtain ⟨k, hk, other, hother, ho'⟩ := hby
      obtain rfl := h.keyed k other hother
      have heq := ((h.next o t).mpr ⟨ht, ho⟩).symm.trans ((h.next o other).mpr ⟨hother, ho'⟩)
      obtain rfl := Option.some.inj heq
      exact hstay (TreeSet.mem_toList.mp hk)
    · rw [hunspent hby, h.next]
      constructor
      · rintro ⟨ht, ho⟩
        exact ⟨⟨fun hstage => hby ⟨t.hash, TreeSet.mem_toList.mpr hstage, t, ht, ho⟩, ht⟩, ho⟩
      · rintro ⟨⟨-, ht⟩, ho⟩
        exact ⟨ht, ho⟩
  · rw [hmem, h.linked.keys, TreeMap.mem_iff_isSome_getElem?, TreeMap.mem_iff_isSome_getElem?, removeStaged_mapTx]
    by_cases hk : k ∈ stage <;> simp [hk]
  · rw [hchild, hparent, h.linked.symm]
  · intro k t ht o ho
    obtain ⟨hstay, ht⟩ := (hget k t).mp ht
    rcases h.supported k t ht o ho with havail | ⟨hpar, hne, parent, hp, hspend⟩
    · exact .inl havail
    · by_cases hgone : o.hash ∈ stage
      · exact .inl (hleft k o parent hstay hpar hgone hp hspend)
      · exact .inr ⟨(hparent k o.hash).mpr ⟨hpar, hgone, hstay⟩, hne, parent, (hget _ _).mpr ⟨hgone, hp⟩, hspend⟩

theorem Wired.removeClosed (h : Wired avail pool) (hstage : ClosedIn pool stage) :
    Wired avail (pool.removeStaged stage) := by
  refine h.removeStaged stage fun hash o parent hstay hparent hgone => ?_
  exact absurd (hstage.closed o.hash hgone hash ((h.linked.symm _ _).mpr hparent)) hstay

theorem Wired.removeWithDescendants (h : Wired avail pool) {entries : List Uint256}
    (hentries : ∀ entry ∈ entries, entry ∈ pool.mapTx) : Wired avail (pool.removeWithDescendants entries) :=
  h.removeClosed (h.linked.descendants entries (closedIn_empty pool) hentries).1

theorem mem_of_existsTx (h : pool.existsTx hash) : hash ∈ pool.mapTx := TreeMap.contains_iff_mem.mp h

theorem Wired.limitMempoolSize (h : Wired avail pool) (args : AcceptArgs) : Wired avail (pool.limitMempoolSize args) := by
  have hfilter : ∀ (pool : CTxMemPool) (l : List Uint256), ∀ entry ∈ l.filter pool.existsTx, entry ∈ pool.mapTx :=
    fun pool l entry hentry => mem_of_existsTx (List.mem_filter.mp hentry).2
  refine List.foldlRecOn (motive := Wired avail) _ _ (h.removeWithDescendants (hfilter pool args.expired)) ?_
  intro q hq hash _
  exact hq.removeWithDescendants (hfilter q [hash])

theorem Wired.mem_of_next (h : Wired avail pool) (hnext : pool.mapNextTx[o]? = some tx) :
    tx.hash ∈ pool.mapTx := mem_of_getElem? ((h.next o tx).mp hnext).1

/-- The spender of an output leaves with its descendants. -/
theorem Wired.removeConflict (h : Wired avail pool) (hnext : pool.mapNextTx[o]? = some tx) :
    Wired avail (pool.removeRecursive tx) ∧ (pool.removeRecursive tx).mapTx[tx.hash]? = none := by
  have hmem := h.mem_of_next hnext
  have hexists : pool.existsTx tx.hash := TreeMap.contains_iff_mem.mpr hmem
  have hentries : ∀ entry ∈ [tx.hash], entry ∈ pool.mapTx := fun entry hentry => List.mem_singleton.mp hentry ▸ hmem
  rw [removeRecursive, if_pos hexists]
  refine ⟨h.removeWithDescendants hentries, ?_⟩
  rw [CTxMemPool.removeWithDescendants, removeStaged_mapTx, if_pos]
  exact (h.linked.descendants [tx.hash] (closedIn_empty pool) hentries).2.1 _ List.mem_cons_self

/-! ## Single transactions -/

/-- A pool that has nothing but what another one has. -/
structure Within (pool' pool : CTxMemPool) : Prop where
  mapTx : ∀ (hash : Uint256) (tx : CTransaction), pool'.mapTx[hash]? = some tx → pool.mapTx[hash]? = some tx
  mapNextTx : ∀ o : COutPoint, pool.mapNextTx[o]? = none → pool'.mapNextTx[o]? = none

theorem Within.refl (pool : CTxMemPool) : Within pool pool := ⟨fun _ _ h => h, fun _ h => h⟩

theorem Within.trans {a b c : CTxMemPool} (hab : Within a b) (hbc : Within b c) : Within a c :=
  ⟨fun hash tx h => hbc.mapTx hash tx (hab.mapTx hash tx h), fun o h => hab.mapNextTx o (hbc.mapNextTx o h)⟩

theorem Within.mapTx_none {pool' : CTxMemPool} (h : Within pool' pool) (hnone : pool.mapTx[hash]? = none) :
    pool'.mapTx[hash]? = none := by
  by_contra hsome
  obtain ⟨tx, htx⟩ := Option.ne_none_iff_exists'.mp hsome
  cases (h.mapTx hash tx htx).symm.trans hnone

theorem within_removeStaged (pool : CTxMemPool) (stage : TreeSet Uint256) : Within (pool.removeStaged stage) pool := by
  refine ⟨fun hash tx h => ?_, fun o h => ?_⟩
  · rw [removeStaged_mapTx] at h
    split_ifs at h
    exact h
  · by_cases hspent : pool.SpentBy stage.toList o
    · exact (removeStaged_mapNextTx pool stage o).1 hspent
    · rw [(removeStaged_mapNextTx pool stage o).2 hspent, h]

theorem within_removeRecursive (pool : CTxMemPool) (tx : CTransaction) : Within (pool.removeRecursive tx) pool := by
  rw [removeRecursive]
  split_ifs <;> exact within_removeStaged pool _

/-- One input in the loop of `removeConflicts`. -/
def clearInput (hash : Uint256) (pool : CTxMemPool) (txin : CTxIn) : CTxMemPool :=
  match pool.mapNextTx[txin.prevout]? with
  | none => pool
  | some txConflict => if txConflict.hash ≠ hash then pool.removeRecursive txConflict else pool

theorem removeConflicts_eq (pool : CTxMemPool) (tx : CTransaction) :
    pool.removeConflicts tx = tx.vin.foldl (clearInput tx.hash) pool := rfl

theorem within_clearInputs (hash : Uint256) (vin : List CTxIn) (pool : CTxMemPool) :
    Within (vin.foldl (clearInput hash) pool) pool := by
  refine List.foldlRecOn (motive := fun q => Within q pool) _ _ (.refl pool) ?_
  intro q hq txin _
  rw [clearInput]
  split
  · exact hq
  · split_ifs
    · exact (within_removeRecursive q _).trans hq
    · exact hq

theorem Wired.removeConflict_unspent (h : Wired avail pool)
    (hnext : pool.mapNextTx[o]? = some tx) : (pool.removeRecursive tx).mapNextTx[o]? = none := by
  obtain ⟨hwired, hgone⟩ := h.removeConflict hnext
  by_contra hsome
  obtain ⟨other, hother⟩ := Option.ne_none_iff_exists'.mp hsome
  obtain ⟨hin, ho⟩ := (hwired.next o other).mp hother
  have hold := (h.next o other).mpr ⟨(within_removeRecursive pool tx).mapTx _ _ hin, ho⟩
  obtain rfl := Option.some.inj (hnext.symm.trans hold)
  cases hgone.symm.trans hin

theorem Wired.clearInput (h : Wired avail pool) (hgone : pool.mapTx[hash]? = none) (txin : CTxIn) :
    Wired avail (clearInput hash pool txin) ∧ (clearInput hash pool txin).mapNextTx[txin.prevout]? = none := by
  rw [HempCore.clearInput]
  cases hnext : pool.mapNextTx[txin.prevout]? with
  | none => exact ⟨h, hnext⟩
  | some conflict =>
    have hne : conflict.hash ≠ hash := by
      rintro rfl
      cases hgone.symm.trans ((h.next _ _).mp hnext).1
    simp only [hne, ne_eq, not_false_eq_true, if_true]
    exact ⟨(h.removeConflict hnext).1, h.removeConflict_unspent hnext⟩

theorem Wired.clearInputs (vin : List CTxIn) (h : Wired avail pool) (hgone : pool.mapTx[hash]? = none) :
    Wired avail (vin.foldl (HempCore.clearInput hash) pool) ∧
      ∀ o ∈ vin.map CTxIn.prevout, (vin.foldl (HempCore.clearInput hash) pool).mapNextTx[o]? = none := by
  induction vin generalizing pool with
  | nil => exact ⟨h, by simp⟩
  | cons txin vin ih =>
    obtain ⟨hwired, hunspent⟩ := h.clearInput hgone txin
    have hwithin : Within (HempCore.clearInput hash pool txin) pool := within_clearInputs hash [txin] pool
    obtain ⟨hrest, hall⟩ := ih hwired (hwithin.mapTx_none hgone)
    rw [List.foldl_cons]
    refine ⟨hrest, fun o ho => ?_⟩
    rcases List.mem_cons.mp ho with rfl | ho
    · exact (within_clearInputs hash vin _).mapNextTx _ hunspent
    · exact hall o ho

/-- What is left when some transactions are taken out alone: their children keep what becomes available. -/
structure LeftAll (avail : COutPoint → Prop) (pool' pool : CTxMemPool) (txs : List CTransaction) : Prop where
  wired : Wired avail pool'
  within : Within pool' pool
  gone : ∀ tx ∈ txs, pool'.mapTx[tx.hash]? = none
  unspent : ∀ tx ∈ txs, ∀ o ∈ tx.vin.map CTxIn.prevout, pool'.mapNextTx[o]? = none

theorem Wired.mono (h : Wired avail pool) (avail' : COutPoint → Prop) (hmono : ∀ o, avail o → avail' o) : Wired avail' pool :=
  { h with supported := fun k t ht o ho => (h.supported k t ht o ho).imp_left (hmono o) }

theorem Wired.removeAlone (h : Wired avail pool) (tx : CTransaction)
    (hfreed : ∀ o parent, o.hash = tx.hash → pool.mapTx[tx.hash]? = some parent → parent.Spendable o.n → avail o) :
    LeftAll avail (pool.removeAlone tx) pool [tx] := by
  suffices hfirst : ∃ q, (if pool.existsTx tx.hash then pool.removeStaged (TreeSet.empty.insert tx.hash) else pool) = q ∧
      Wired avail q ∧ Within q pool ∧ q.mapTx[tx.hash]? = none by
    obtain ⟨q, hq, hwired, hwithin, hgone⟩ := hfirst
    rw [CTxMemPool.removeAlone, hq, removeConflicts_eq]
    obtain ⟨hcleared, hunspent⟩ := hwired.clearInputs tx.vin hgone
    have hrest := within_clearInputs tx.hash tx.vin q
    exact ⟨hcleared, hrest.trans hwithin, by simpa using hrest.mapTx_none hgone, by simpa using hunspent⟩
  have hsingle : ∀ k, k ∈ (TreeSet.empty.insert tx.hash : TreeSet Uint256) ↔ k = tx.hash := by
    intro k
    rw [mem_insert_iff]
    exact or_iff_left TreeSet.not_mem_emptyc
  refine ⟨_, rfl, ?_⟩
  split_ifs with hexists
  · refine ⟨h.removeStaged _ ?_, within_removeStaged pool _, ?_⟩
    · intro hash o parent _ _ hstage hparent hspend
      have heq := (hsingle _).mp hstage
      exact hfreed o parent heq (heq ▸ hparent) hspend
    · rw [removeStaged_mapTx, if_pos ((hsingle _).mpr rfl)]
  · exact ⟨h, .refl pool, not_not.mp (mt existsTx_iff_ne_none.mpr hexists)⟩

/-! ## Adding a transaction -/

theorem Wired.addUnchecked (h : Wired avail pool) (hnew : pool.mapTx[tx.hash]? = none)
    (hfree : ∀ o ∈ tx.vin.map CTxIn.prevout, pool.mapNextTx[o]? = none)
    (hinputs : ∀ o ∈ tx.vin.map CTxIn.prevout, avail o ∨ ∃ parent, pool.mapTx[o.hash]? = some parent ∧ parent.Spendable o.n) :
    Wired avail (pool.addUnchecked tx) := by
  obtain ⟨hparent, hchild, hmem⟩ := links_addUnchecked h.linked.keys hnew
  have hget : ∀ k, (pool.addUnchecked tx).mapTx[k]? = if k = tx.hash then some tx else pool.mapTx[k]? := by
    intro k
    rw [addUnchecked_sameButLinks, getElem?_insertIfNew_eq]
    by_cases heq : k = tx.hash
    · simp [heq, hnew]
    · simp [heq]
  have hnext : ∀ o, (pool.addUnchecked tx).mapNextTx[o]? =
      if o ∈ tx.vin.map CTxIn.prevout then some tx else pool.mapNextTx[o]? := by
    intro o
    rw [addUnchecked_sameButLinks, getElem?_insertInputs]
    by_cases ho : o ∈ tx.vin.map CTxIn.prevout
    · rw [if_pos ho, if_pos ho, hfree o ho]
      rfl
    · rw [if_neg ho, if_neg ho]
  have hold : ∀ k t, pool.mapTx[k]? = some t → k ≠ tx.hash := by
    rintro k t ht rfl
    cases hnew.symm.trans ht
  refine ⟨fun k t ht => ?_, fun o t => ?_, ⟨fun k => ?_, fun p c => ?_⟩, fun k t ht o ho => ?_⟩
  · rw [hget] at ht
    split_ifs at ht with heq
    · rw [← Option.some.inj ht, heq]
    · exact h.keyed k t ht
  · rw [hnext, hget]
    by_cases ho : o ∈ tx.vin.map CTxIn.prevout
    · rw [if_pos ho]
      constructor
      · intro heq
        obtain rfl := Option.some.inj heq
        exact ⟨if_pos rfl, ho⟩
      · rintro ⟨ht, hot⟩
        split_ifs at ht with heq
        · exact ht
        · cases (hfree o ho).symm.trans ((h.next o t).mpr ⟨ht, hot⟩)
    · rw [if_neg ho, h.next]
      constructor
      · rintro ⟨ht, hot⟩
        rw [if_neg (hold _ _ ht)]
        exact ⟨ht, hot⟩
      · rintro ⟨ht, hot⟩
        split_ifs at ht with heq
        · exact absurd (Option.some.inj ht ▸ hot) ho
        · exact ⟨ht, hot⟩
  · rw [hmem, h.linked.keys, TreeMap.mem_iff_isSome_getElem?, TreeMap.mem_iff_isSome_getElem?, hget]
    by_cases heq : k = tx.hash <;> simp [heq]
  · rw [hchild, hparent, h.linked.symm]
  · rw [hget] at ht
    split_ifs at ht with heq
    · obtain rfl := Option.some.inj ht
      subst heq
      rcases hinputs o ho with havail | ⟨parent, hp, hspend⟩
      · exact .inl havail
      · have hne := hold _ _ hp
        exact .inr ⟨(hparent _ _).mpr (.inr ⟨rfl, ⟨o, ho, rfl⟩, .inl (mem_of_getElem? hp)⟩), hne, parent,
          by rw [hget, if_neg hne]; exact hp, hspend⟩
    · rcases h.supported k t ht o ho with havail | ⟨hpar, hne, parent, hp, hspend⟩
      · exact .inl havail
      · exact .inr ⟨(hparent _ _).mpr (.inl hpar), hne, parent, by rw [hget, if_neg (hold _ _ hp)]; exact hp, hspend⟩

/-! ## Ancestors and conflicts -/

theorem descendants_least {P : Uint256 → Prop} (hchild : ∀ p, P p → ∀ c, pool.Child p c → P c)
    (entries : List Uint256) (hstage : ∀ hash ∈ stage, P hash)
    (hentries : ∀ entry ∈ entries, P entry) : ∀ hash ∈ entries.foldl pool.calculateDescendants stage, P hash := by
  refine List.foldlRecOn (motive := fun stage : TreeSet Uint256 => ∀ hash ∈ stage, P hash) _ _ hstage ?_
  intro stage hstage entry hentry
  rw [CTxMemPool.calculateDescendants]
  split_ifs
  · exact hstage
  · refine walk_least (fun k hk j hj => hchild k hk j (mem_getMemPoolChildren.mp hj)) ?_ hstage
    intro k hk
    rw [(mem_insert_iff.mp hk).resolve_right TreeSet.not_mem_emptyc]
    exact hentries entry hentry

theorem mem_foldl_parents (pool : CTxMemPool) (vin : List CTxIn) (s : TreeSet Uint256) (p : Uint256) :
    p ∈ vin.foldl (fun (s : TreeSet Uint256) txin =>
        if pool.existsTx txin.prevout.hash then s.insert txin.prevout.hash else s) s ↔
      (∃ o ∈ vin.map CTxIn.prevout, o.hash = p ∧ p ∈ pool.mapTx) ∨ p ∈ s := by
  induction vin generalizing s with
  | nil => simp
  | cons txin vin ih =>
    rw [List.foldl_cons, ih]
    simp only [List.map_cons, List.mem_cons, exists_eq_or_imp]
    by_cases hexists : pool.existsTx txin.prevout.hash
    · have hin := mem_of_existsTx hexists
      rw [if_pos hexists, mem_insert_iff]
      constructor
      · rintro (h | rfl | h)
        · exact .inl (.inr h)
        · exact .inl (.inl ⟨rfl, hin⟩)
        · exact .inr h
      · rintro ((⟨rfl, -⟩ | h) | h)
        · exact .inr (.inl rfl)
        · exact .inl h
        · exact .inr (.inr h)
    · have hout : ¬(txin.prevout.hash = p ∧ p ∈ pool.mapTx) := by
        rintro ⟨rfl, hin⟩
        exact hexists (TreeMap.contains_iff_mem.mpr hin)
      rw [if_neg hexists, or_iff_right hout]

theorem Linked.ancestors (h : Linked pool) (tx : CTransaction) :
    (∀ o ∈ tx.vin.map CTxIn.prevout, o.hash ∈ pool.mapTx → o.hash ∈ pool.calculateMemPoolAncestors tx) ∧
      ∀ c ∈ pool.calculateMemPoolAncestors tx, ∀ p, pool.Parent c p → p ∈ pool.calculateMemPoolAncestors tx := by
  rw [calculateMemPoolAncestors]
  have hstart := mem_foldl_parents pool tx.vin ∅
  generalize tx.vin.foldl (fun (s : TreeSet Uint256) txin =>
    if pool.existsTx txin.prevout.hash then s.insert txin.prevout.hash else s) ∅ = parents at hstart
  have hwalking : Walking pool.getMemPoolParents pool.mapTx.keys.toFinset parents ∅ := by
    refine ⟨fun k hk => ?_, fun k hk => absurd hk TreeSet.not_mem_emptyc, fun k _ j hj => ?_,
      fun k hk => absurd hk TreeSet.not_mem_emptyc⟩
    · rcases (hstart k).mp hk with ⟨o, -, -, hin⟩ | hk
      · exact ⟨mem_nodes.mpr hin, TreeSet.not_mem_emptyc⟩
      · exact absurd hk TreeSet.not_mem_emptyc
    · exact mem_nodes.mpr (h.parent_mem (mem_getMemPoolParents.mp hj))
  obtain ⟨hsub, hclosed⟩ := hwalking.walk_closed (length_rest_le pool ∅)
  exact ⟨fun o ho hin => hsub o.hash (.inr ((hstart _).mpr (.inl ⟨o, ho, rfl, hin⟩))),
    fun c hc p hp => hclosed c hc p (mem_getMemPoolParents.mpr hp)⟩

theorem Wired.of_same {pool' : CTxMemPool} (h : Wired avail pool) (hsame : pool'.wires = pool.wires) : Wired avail pool' := by
  simp only [CTxMemPool.wires, Prod.mk.injEq] at hsame
  obtain ⟨htx, hnext, hlinks⟩ := hsame
  have hlink : ∀ get k j, pool'.Link get k j ↔ pool.Link get k j := by
    intro get k j
    rw [Link, Link, hlinks]
  refine ⟨?_, ?_, ⟨?_, fun p c => ?_⟩, ?_⟩
  · rw [Keyed, htx]
    exact h.keyed
  · rw [htx, hnext]
    exact h.next
  · rw [htx, hlinks]
    exact h.linked.keys
  · exact (hlink _ p c).trans ((h.linked.symm p c).trans (hlink _ c p).symm)
  · simp only [htx, Parent, hlink]
    exact h.supported

theorem track_wires (cfg : Config) (coins : Coins) (tx : CTransaction) (pool : CTxMemPool)
    (vReissueAssets : List (Bytes × Uint256)) : (pool.track cfg coins tx vReissueAssets).1.wires = pool.wires := by
  refine track_induction (P := fun p => p.wires = pool.wires) ?_ fun p txin hp => ?_
  · refine Eq.trans ?_ (trackReissues_same vReissueAssets pool).1
    split_ifs
    · exact trackOutputs_wires tx.vout _
    · rfl
  · rw [CTxMemPool.trackInput]
    split
    · exact hp
    · split_ifs <;> exact hp

def Coins.Has (coins : Coins) (o : COutPoint) : Prop := (coins[o]?).isSome

/-- The transaction spends no output of the pool's that never becomes a coin. -/
def SpendsSpendable (pool : CTxMemPool) (tx : CTransaction) : Prop :=
  ∀ o ∈ tx.vin.map CTxIn.prevout, ∀ parent, pool.mapTx[o.hash]? = some parent →
    ∀ out, parent.vout[o.n]? = some out → isUnspendable out.scriptPubKey = false

/-- An input that the checks have seen is a coin or an output of the pool's. -/
theorem inputs_of_preChecked {node : Node} {allConflicting : TreeSet Uint256} {vReissueAssets : List (Bytes × Uint256)}
    (h : PreChecked cfg pool node tx allConflicting vReissueAssets) (hspendable : SpendsSpendable pool tx) :
    ∀ o ∈ tx.vin.map CTxIn.prevout, node.coins.Has o ∨ ∃ parent, pool.mapTx[o.hash]? = some parent ∧ parent.Spendable o.n := by
  intro o ho
  obtain ⟨txin, htxin, rfl⟩ := List.mem_map.mp ho
  have hseen := h.inputs txin htxin
  rw [coinsView] at hseen
  cases hparent : pool.mapTx[txin.prevout.hash]? with
  | none =>
    rw [hparent] at hseen
    exact .inl hseen
  | some parent =>
    simp only [hparent, Option.isSome_map] at hseen
    obtain ⟨out, hout⟩ := Option.isSome_iff_exists.mp hseen
    exact .inr ⟨parent, rfl, out, hout, hspendable _ ho parent hparent out hout⟩

theorem Wired.store {node : Node} (h : Wired avail pool) {allConflicting : TreeSet Uint256}
    {vReissueAssets : List (Bytes × Uint256)} (hchecked : PreChecked cfg pool node tx allConflicting vReissueAssets)
    (hinputs : ∀ o ∈ tx.vin.map CTxIn.prevout, avail o ∨ ∃ parent, pool.mapTx[o.hash]? = some parent ∧ parent.Spendable o.n)
    (args : AcceptArgs) : Wired avail (pool.store args tx allConflicting) := by
  obtain ⟨hin, hup⟩ := h.linked.ancestors tx
  have hconflicts : ∀ o ∈ tx.vin.map CTxIn.prevout, ∀ t, pool.mapNextTx[o]? = some t → t ∈ pool.conflictsOf tx := by
    intro o ho t ht
    obtain ⟨txin, htxin, rfl⟩ := List.mem_map.mp ho
    exact List.mem_filterMap.mpr ⟨txin, htxin, ht⟩
  have hentries : ∀ entry ∈ ((pool.conflictsOf tx).map CTransaction.hash).filter pool.existsTx, entry ∈ pool.mapTx :=
    fun entry hentry => mem_of_existsTx (List.mem_filter.mp hentry).2
  obtain ⟨hclosed, hall, -⟩ := h.linked.descendants _ (closedIn_empty pool) hentries
  -- no ancestor of the transaction is among what it replaces
  have hkept : ∀ hash ∈ allConflicting, hash ∉ pool.calculateMemPoolAncestors tx := by
    rw [hchecked.replaced]
    refine descendants_least (P := fun hash => hash ∉ pool.calculateMemPoolAncestors tx) ?_ _
      (fun _ hmem => absurd hmem TreeSet.not_mem_emptyc) ?_
    · exact fun p hp c hc hanc => hp (hup c hanc p ((h.linked.symm p c).mp hc))
    · intro entry hentry
      obtain ⟨conflict, hmem, rfl⟩ := List.mem_map.mp (List.mem_filter.mp hentry).1
      exact hchecked.unrelated conflict hmem
  rw [← hchecked.replaced] at hclosed hall
  have hremoved := h.removeClosed hclosed
  have hwithin := within_removeStaged pool allConflicting
  have hadded : Wired avail ((pool.removeStaged allConflicting).addUnchecked tx) := by
    refine hremoved.addUnchecked (hwithin.mapTx_none hchecked.new) (fun o ho => ?_) (fun o ho => ?_)
    · by_contra hsome
      obtain ⟨t, ht⟩ := Option.ne_none_iff_exists'.mp hsome
      obtain ⟨hstay, hot⟩ := (hremoved.next o t).mp ht
      have hold := hwithin.mapTx _ _ hstay
      have hconflict := hconflicts o ho t ((h.next o t).mpr ⟨hold, hot⟩)
      rw [removeStaged_mapTx, if_pos] at hstay
      · cases hstay
      · exact hall _ (List.mem_filter.mpr ⟨List.mem_map_of_mem hconflict, existsTx_iff.mpr ⟨t, hold⟩⟩)
    · rcases hinputs o ho with havail | ⟨parent, hparent, hspend⟩
      · exact .inl havail
      · refine .inr ⟨parent, ?_, hspend⟩
        rw [removeStaged_mapTx, if_neg fun hgone => hkept _ hgone (hin _ ho (mem_of_getElem? hparent)), hparent]
  rw [CTxMemPool.store]
  split_ifs
  · exact hadded
  · exact hadded.limitMempoolSize args

theorem Wired.accept {node : Node} (h : Wired avail pool) (args : AcceptArgs)
    (hinputs : ∀ allConflicting vReissueAssets, PreChecked cfg pool node tx allConflicting vReissueAssets →
      ∀ o ∈ tx.vin.map CTxIn.prevout, avail o ∨ ∃ parent, pool.mapTx[o.hash]? = some parent ∧ parent.Spendable o.n) :
    Wired avail (pool.acceptToMemoryPoolWorker cfg node args tx).1 := by
  rw [acceptToMemoryPoolWorker]
  cases hpre : pool.preChecks cfg node args tx with
  | error e => exact h
  | ok result =>
    obtain ⟨allConflicting, vReissueAssets⟩ := result
    have hstored := h.store (preChecks_ok hpre) (hinputs _ _ (preChecks_ok hpre)) args
    simp only
    split_ifs
    · exact h
    · exact hstored
    · exact hstored.of_same (track_wires cfg node.coins tx _ vReissueAssets)

/-! ## What the asset data of a block make invalid -/

/-- The transactions of the pool with a property are those listed. -/
def Marks (pool : CTxMemPool) (trans : List CTransaction) (P : CTransaction → Prop) : Prop :=
  ∀ tx, tx ∈ trans ↔ pool.mapTx[tx.hash]? = some tx ∧ P tx

section Marks

variable {trans : List CTransaction} {P : CTransaction → Prop}

theorem marks_foldl {α : Type} {f : List CTransaction → α → List CTransaction} {Q : α → CTransaction → Prop}
    (hf : ∀ trans P a, Marks pool trans P → Marks pool (f trans a) fun tx => P tx ∨ Q a tx) (l : List α)
    (h : Marks pool trans P) : Marks pool (l.foldl f trans) fun tx => P tx ∨ ∃ a ∈ l, Q a tx := by
  induction l generalizing trans P with
  | nil => simpa [Marks] using h
  | cons a l ih =>
    intro tx
    rw [List.foldl_cons, ih (hf trans P a h) tx]
    simp [or_assoc]

theorem marks_markIf (hkeyed : Keyed pool) (test : CTransaction → Bool) (hash : Uint256) (h : Marks pool trans P) :
    Marks pool (pool.markIf test trans hash) fun tx => P tx ∨ tx.hash = hash ∧ test tx = true := by
  intro tx
  rw [markIf]
  cases hget : pool.mapTx[hash]? with
  | none =>
    rw [h tx]
    refine and_congr_right fun htx => ⟨.inl, ?_⟩
    rintro (hp | ⟨rfl, -⟩)
    · exact hp
    · cases hget.symm.trans htx
  | some found =>
    obtain rfl := hkeyed hash found hget
    -- a transaction of this hash is the one that was found
    have hsame : pool.mapTx[tx.hash]? = some tx → tx.hash = found.hash → tx = found := by
      intro htx heq
      rw [heq, hget] at htx
      exact (Option.some.inj htx).symm
    simp only [Bool.and_eq_true, List.all_eq_true, bne_iff_ne, ne_eq]
    split_ifs with hmark
    · rw [List.mem_append, List.mem_singleton, h tx]
      constructor
      · rintro (⟨htx, hp⟩ | rfl)
        · exact ⟨htx, .inl hp⟩
        · exact ⟨hget, .inr ⟨rfl, hmark.2⟩⟩
      · rintro ⟨htx, hp | ⟨heq, -⟩⟩
        · exact .inl ⟨htx, hp⟩
        · exact .inr (hsame htx heq)
    · rw [h tx]
      refine and_congr_right fun htx => ⟨.inl, ?_⟩
      rintro (hp | ⟨heq, htest⟩)
      · exact hp
      · obtain rfl := hsame htx heq
        by_contra hp
        refine hmark ⟨fun other hother hhash => ?_, htest⟩
        obtain ⟨hget', hp'⟩ := (h other).mp hother
        rw [hhash, hget] at hget'
        exact hp (Option.some.inj hget' ▸ hp')

theorem marks_markTracked {K : Type} [Ord K] (hkeyed : Keyed pool)
    (tracked : Tracked K) (test : CTransaction → Bool) (key : K) (h : Marks pool trans P) :
    Marks pool (pool.markTracked tracked test trans key) fun tx =>
      P tx ∨ tx.hash ∈ tracked.byKey.getD key ∅ ∧ test tx = true := by
  intro tx
  rw [markTracked, marks_foldl (fun _ _ hash hmarks => marks_markIf hkeyed test hash hmarks) _ h tx]
  simp

theorem marks_markIssue (hkeyed : Keyed pool) (name : Bytes) (h : Marks pool trans P) :
    Marks pool (pool.markIssue trans name) fun tx => P tx ∨ pool.mapAssetToHash[name]? = some tx.hash := by
  intro tx
  rw [markIssue]
  cases hget : pool.mapAssetToHash[name]?.bind fun hash => pool.mapTx[hash]? with
  | none =>
    rw [h tx]
    refine and_congr_right fun htx => ⟨.inl, ?_⟩
    rintro (hp | hname)
    · exact hp
    · rw [hname, Option.bind_some, htx] at hget
      cases hget
  | some found =>
    obtain ⟨hash, hname, hfound⟩ := Option.bind_eq_some_iff.mp hget
    obtain rfl := hkeyed hash found hfound
    rw [List.mem_append, List.mem_singleton, h tx]
    constructor
    · rintro (⟨htx, hp⟩ | rfl)
      · exact ⟨htx, .inl hp⟩
      · exact ⟨hfound, .inr hname⟩
    · rintro ⟨htx, hp | hname'⟩
      · exact .inl ⟨htx, hp⟩
      · refine .inr ?_
        rw [← Option.some.inj (hname.symm.trans hname'), hfound] at htx
        exact (Option.some.inj htx).symm

/-- The transaction is tracked for the command on a whole asset, and fails the check that is made then, or it carries
the same command. -/
def GlobalMark (cfg : Config) (pool : CTxMemPool) (command : Bytes × RestrictedType) (tx : CTransaction) : Prop :=
  command.2 = .GLOBAL_FREEZE ∧
    (tx.hash ∈ pool.mapAssetMarkedGlobalFrozen.byKey.getD command.1 ∅ ∧ failsCheckTransaction cfg tx = true ∨
      tx.hash ∈ pool.mapGlobalFreezingAssetTransactions.byKey.getD command.1 ∅) ∨
  command.2 = .GLOBAL_UNFREEZE ∧ tx.hash ∈ pool.mapGlobalUnFreezingAssetTransactions.byKey.getD command.1 ∅

/-- The transaction spends at an address that is frozen, and does not pass the check of its assets. -/
def FrozenMark (cfg : Config) (node : Node) (pool : CTxMemPool) (command : NameAddress × RestrictedType)
    (tx : CTransaction) : Prop :=
  command.2 = .FREEZE_ADDRESS ∧ tx.hash ∈ pool.mapAddressesMarkedFrozen.byKey.getD (command.1.2, command.1.1) ∅ ∧
    (checkTxAssets cfg tx node.coins.view (some (node.assets.passets.view cfg node.assets)) false
      pool.toMempoolTracking false).toBool = false

/-- The block issues a name that the transaction issues; or it changes a verifier, a tag or a freeze that
the transaction is tracked under, and the transaction does not pass the check that is made then; or it
carries the same command on a whole asset. -/
def InvalidatedBy (cfg : Config) (node : Node) (data : CAssetsCache) (pool : CTxMemPool) (tx : CTransaction) : Prop :=
  (∃ name ∈ data.newAssets.toAdd.keys, pool.mapAssetToHash[name]? = some tx.hash) ∨
  (∃ name ∈ data.restrictedVerifier.toAdd.keys, tx.hash ∈ pool.mapAssetVerifierChanged.byKey.getD name ∅ ∧
    failsCheckTransaction cfg tx = true) ∨
  (∃ address ∈ data.qualifierAddress.toAdd.keys.map Prod.snd,
    tx.hash ∈ pool.mapAddressesQualifiersChanged.byKey.getD address ∅ ∧ failsCheckTransaction cfg tx = true) ∨
  (∃ command ∈ data.restrictedGlobal.toAdd.toList, GlobalMark cfg pool command tx) ∨
  ∃ command ∈ data.restrictedAddress.toAdd.toList, FrozenMark cfg node pool command tx

theorem marks_markGlobal (hkeyed : Keyed pool) (cfg : Config) (command : Bytes × RestrictedType) (h : Marks pool trans P) :
    Marks pool (pool.markGlobal cfg trans command) fun tx => P tx ∨ GlobalMark cfg pool command tx := by
  obtain ⟨name, type⟩ := command
  intro tx
  cases type with
  | GLOBAL_FREEZE =>
    rw [markGlobal, marks_markTracked hkeyed _ _ _ (marks_markTracked hkeyed _ _ _ h) tx]
    simp [or_assoc, GlobalMark]
  | GLOBAL_UNFREEZE =>
    rw [markGlobal, marks_markTracked hkeyed _ _ _ h tx]
    simp [GlobalMark]
  | FREEZE_ADDRESS | UNFREEZE_ADDRESS =>
    rw [markGlobal, h tx]
    simp [GlobalMark]

theorem marks_markFrozen (hkeyed : Keyed pool) (cfg : Config) (node : Node) (command : NameAddress × RestrictedType)
    (h : Marks pool trans P) :
    Marks pool (pool.markFrozen cfg node trans command) fun tx => P tx ∨ FrozenMark cfg node pool command tx := by
  obtain ⟨pair, type⟩ := command
  intro tx
  cases type with
  | FREEZE_ADDRESS =>
    rw [markFrozen, marks_markTracked hkeyed _ _ _ h tx]
    simp [FrozenMark]
  | GLOBAL_FREEZE | GLOBAL_UNFREEZE | UNFREEZE_ADDRESS =>
    rw [markFrozen, h tx]
    simp [FrozenMark]

end Marks

theorem mem_markedBy (hkeyed : Keyed pool) (cfg : Config) (node : Node) (data : CAssetsCache) (tx : CTransaction) :
    tx ∈ pool.markedBy cfg node data ↔ pool.mapTx[tx.hash]? = some tx ∧ InvalidatedBy cfg node data pool tx := by
  have hstart : Marks pool [] fun _ => False := fun tx => by simp
  have hissues := marks_foldl (fun _ _ name h => marks_markIssue hkeyed name h) data.newAssets.toAdd.keys hstart
  have hverifiers := marks_foldl (fun _ _ name h => marks_markTracked hkeyed pool.mapAssetVerifierChanged
    (failsCheckTransaction cfg) name h) data.restrictedVerifier.toAdd.keys hissues
  have hqualifiers := marks_foldl (fun _ _ address h => marks_markTracked hkeyed pool.mapAddressesQualifiersChanged
    (failsCheckTransaction cfg) address h) (data.qualifierAddress.toAdd.keys.map Prod.snd) hverifiers
  have hglobals := marks_foldl (fun _ _ command h => marks_markGlobal hkeyed cfg command h)
    data.restrictedGlobal.toAdd.toList hqualifiers
  have hfrozen := marks_foldl (fun _ _ command h => marks_markFrozen hkeyed cfg node command h)
    data.restrictedAddress.toAdd.toList hglobals
  rw [markedBy, hfrozen tx, InvalidatedBy]
  simp only [false_or, or_assoc]

/-! ## Connected blocks -/

theorem has_of_connectBlock {g : AssetGlobals} {coins : Coins} {nHeight : Nat} {block : CBlock}
    {st : ConnectState} (h : connectBlock cfg g coins nHeight block = .ok st)
    (hunspent : ∀ b ∈ block.vtx, o ∉ b.vin.map CTxIn.prevout)
    (hsource : coins.Has o ∨ ∃ b ∈ block.vtx, o.hash = b.hash ∧ b.Spendable o.n) : st.coins.Has o := by
  obtain ⟨hcheck, hloop, -⟩ := connectBlock_ok h
  obtain ⟨_, _, -, -, -, hchecked⟩ := checkBlock_ok hcheck
  refine foldlM_prefix_invariant (fun (pre : List CTransaction) (st : ConnectState) =>
    (coins.Has o ∨ ∃ b ∈ pre, o.hash = b.hash ∧ b.Spendable o.n) → st.coins.Has o) ?_ []
    (fun hsource => hsource.resolve_right (by simp)) hloop hsource
  intro pre st st' b hb hpre hstep hsource
  obtain ⟨-, mid, _, _, _, hspends, hcoins, -⟩ := connectTx_ok (nodup_of_checkTransaction (hchecked b hb)) hstep
  have hmid : mid[o]? = st.coins[o]? := by
    split_ifs at hspends
    · rw [hspends.1]
    · rw [hspends.left, if_neg (hunspent b hb)]
  rw [Coins.Has, hcoins, getElem?_addOutputs, hmid]
  by_cases hown : o.hash = b.hash ∧ b.Spendable o.n
  · obtain ⟨hhash, out, hout, hspend⟩ := hown
    simp [hhash, hout, hspend]
  · -- an earlier coin stays unless an output takes its place
    have hold : (st.coins[o]?).isSome := by
      refine hpre (hsource.imp_right ?_)
      rintro ⟨b', hb', hb'own⟩
      rcases List.mem_append.mp hb' with hmem | hlast
      · exact ⟨b', hmem, hb'own⟩
      · obtain rfl := List.mem_singleton.mp hlast
        exact absurd hb'own hown
    split
    · split_ifs
      · exact hold
      · rfl
    · exact hold

variable {s s' : PoolNode} {block : CBlock}

/-- The transactions that are in the pool and in the block pay the same outputs, and what spends an
output of a transaction that the block makes invalid, and does not hold, is made invalid too or in the
block. -/
structure ConnectsClosed (cfg : Config) (s : PoolNode) (block : CBlock) : Prop where
  ids : ∀ b ∈ block.vtx, ∀ entry, s.pool.mapTx[b.hash]? = some entry → entry.vout = b.vout
  invalidated : ∀ node st, s.node.connectTip cfg block = .ok node →
    connectBlock (s.node.config cfg) s.node.assets s.node.coins (s.node.height + 1) block = .ok st →
    ∀ parent child : CTransaction, s.pool.mapTx[parent.hash]? = some parent →
      s.pool.mapTx[child.hash]? = some child →
      InvalidatedBy (node.config cfg) node st.cache (s.pool.freeReissuesOf block.vtx) parent →
      (∀ b ∈ block.vtx, b.hash ≠ parent.hash) → (∃ o ∈ child.vin.map CTxIn.prevout, o.hash = parent.hash) →
      InvalidatedBy (node.config cfg) node st.cache (s.pool.freeReissuesOf block.vtx) child ∨
        ∃ b ∈ block.vtx, b.hash = child.hash

theorem Wired.removeAll (txs : List CTransaction) (h : Wired avail pool)
    (hfreed : ∀ tx ∈ txs, ∀ o parent, o.hash = tx.hash → pool.mapTx[tx.hash]? = some parent → parent.Spendable o.n → avail o) :
    LeftAll avail (txs.foldl CTxMemPool.removeAlone pool) pool txs := by
  induction txs generalizing pool with
  | nil => exact ⟨h, .refl pool, by simp, by simp⟩
  | cons tx txs ih =>
    have hone := h.removeAlone tx (hfreed tx List.mem_cons_self)
    have hrest := ih hone.wired fun other hother o parent heq hparent =>
      hfreed other (List.mem_cons_of_mem tx hother) o parent heq (hone.within.mapTx _ _ hparent)
    rw [List.foldl_cons]
    refine ⟨hrest.wired, hrest.within.trans hone.within, fun other hother => ?_, fun other hother o ho => ?_⟩
    · rcases List.mem_cons.mp hother with rfl | hother
      · exact hrest.within.mapTx_none (hone.gone other List.mem_cons_self)
      · exact hrest.gone other hother
    · rcases List.mem_cons.mp hother with rfl | hother
      · exact hrest.within.mapNextTx o (hone.unspent other List.mem_cons_self o ho)
      · exact hrest.unspent other hother o ho

theorem freeReissuesOf_wires (pool : CTxMemPool) (vtx : List CTransaction) : (pool.freeReissuesOf vtx).wires = pool.wires := by
  refine List.foldlRecOn (motive := fun p : CTxMemPool => p.wires = pool.wires) _ _ rfl fun p hp tx _ => ?_
  split <;> exact hp

theorem Wired.connect (h : Wired s.node.coins.Has s.pool) (hclosed : ConnectsClosed cfg s block)
    (hstep : s.connectTip cfg block = .ok s') : Wired s'.node.coins.Has s'.pool := by
  simp only [PoolNode.connectTip, bind_eq_ok, pure_eq_ok] at hstep
  obtain ⟨node, hnode, st, hst, rfl⟩ := hstep
  obtain ⟨st', _, hst', -, hcoins, -⟩ := connectTip_ok hnode
  obtain rfl := Except.ok.inj (hst.symm.trans hst')
  have hwires := freeReissuesOf_wires s.pool block.vtx
  have hpool := h.of_same hwires
  have hsame : (s.pool.freeReissuesOf block.vtx).mapTx = s.pool.mapTx := congrArg Prod.fst hwires
  generalize hfreed : s.pool.freeReissuesOf block.vtx = pool at hsame hpool
  -- what the block pays becomes available
  have hblock := (hpool.mono (fun o => s.node.coins.Has o ∨ ∃ b ∈ block.vtx, o.hash = b.hash ∧ b.Spendable o.n)
    fun _ => .inl).removeAll block.vtx <| by
    intro b hb o parent heq hparent hspend
    rw [hsame] at hparent
    refine .inr ⟨b, hb, heq, ?_⟩
    rw [CTransaction.Spendable, ← hclosed.ids b hb parent hparent]
    exact hspend
  -- for a while, what was made invalid counts as available
  have hmarked := (hblock.wired.mono (fun o =>
    (s.node.coins.Has o ∨ ∃ b ∈ block.vtx, o.hash = b.hash ∧ b.Spendable o.n) ∨
      ∃ m ∈ pool.markedBy (node.config cfg) node st.cache, o.hash = m.hash ∧ ∀ b ∈ block.vtx, b.hash ≠ m.hash)
    fun _ => .inl).removeAll (pool.markedBy (node.config cfg) node st.cache) <| by
    intro m hm o parent heq hparent _
    refine .inr ⟨m, hm, heq, fun b hb hhash => ?_⟩
    rw [← hhash, hblock.gone b hb] at hparent
    cases hparent
  have hwired := hmarked.wired
  show Wired node.coins.Has (pool.removeForBlock (node.config cfg) node block.vtx st.cache)
  refine ⟨hwired.keyed, hwired.next, hwired.linked, fun k t ht o ho => ?_⟩
  obtain rfl := hwired.keyed k t ht
  refine (hwired.supported _ t ht o ho).imp_left ?_
  have hold := hblock.within.mapTx _ _ (hmarked.within.mapTx _ _ ht)
  have hunspent : ∀ b ∈ block.vtx, o ∉ b.vin.map CTxIn.prevout := by
    intro b hb hob
    have hnone := hmarked.within.mapNextTx o (hblock.unspent b hb o hob)
    cases hnone.symm.trans ((hwired.next o t).mpr ⟨ht, ho⟩)
  rintro (hsource | ⟨m, hm, heq, hout⟩)
  · rw [hcoins]
    exact has_of_connectBlock hst hunspent hsource
  · exfalso
    obtain ⟨hm', hinvalid⟩ := (mem_markedBy hpool.keyed _ _ _ m).mp hm
    rw [← hfreed] at hinvalid
    rcases hclosed.invalidated node st hnode hst m t (hsame ▸ hm') (hsame ▸ hold) hinvalid hout
      ⟨o, ho, heq⟩ with hchild | ⟨b, hb, hhash⟩
    · rw [hfreed] at hchild
      cases (hmarked.gone t ((mem_markedBy hpool.keyed _ _ _ t).mpr ⟨hold, hchild⟩)).symm.trans ht
    · have hnone := hmarked.within.mapTx_none (hblock.gone b hb)
      rw [hhash] at hnone
      cases hnone.symm.trans ht

/-! ## Runs -/

/-- Every input of a transaction in the pool is an output of another one or a coin. -/
def InputClosed (coins : Coins) (pool : CTxMemPool) : Prop :=
  ∀ (hash : Uint256) (tx : CTransaction), pool.mapTx[hash]? = some tx → ∀ txin ∈ tx.vin,
    (txin.prevout.hash ≠ hash ∧ ∃ parent, pool.mapTx[txin.prevout.hash]? = some parent ∧
      txin.prevout.n < parent.vout.length) ∨ (coins[txin.prevout]?).isSome

theorem Wired.inputClosed {coins : Coins} (h : Wired coins.Has pool) : InputClosed coins pool := by
  intro hash tx htx txin htxin
  rcases h.supported hash tx htx txin.prevout (List.mem_map_of_mem htxin) with hcoin | ⟨-, hne, parent, hp, out, hout, -⟩
  · exact .inr hcoin
  · exact .inl ⟨hne, parent, hp, (List.getElem?_eq_some_iff.mp hout).1⟩

theorem wired_empty : Wired avail .empty := by
  refine ⟨fun hash tx h => ?_, fun o tx => ?_, ⟨fun k => ?_, fun p c => ?_⟩, fun hash tx h => ?_⟩
  · simp [CTxMemPool.empty] at h
  · simp [CTxMemPool.empty]
  · simp [CTxMemPool.empty]
  · simp [Link, CTxMemPool.empty]
  · simp [CTxMemPool.empty] at h

/-- A transaction spends outputs that become coins, and a block is as `ConnectsClosed` says. -/
def PoolNode.ClosedAction (cfg : Config) (s : PoolNode) : PoolNode.Action → Prop
  | .accept _ tx => SpendsSpendable s.pool tx
  | .connect block => ConnectsClosed cfg s block
  | .other _ => True

/-- An action accepts a transaction, connects a block, or leaves the coins and the pool alone. -/
theorem PoolNode.step_cases (h : s.step cfg action = some s') :
    (∃ args tx, action = .accept args tx ∧
      s' = ⟨s.node, (s.pool.acceptToMemoryPoolWorker (s.node.config cfg) s.node args tx).1⟩) ∨
    (∃ block, action = .connect block ∧ s.connectTip cfg block = .ok s') ∨
    s'.node.coins = s.node.coins ∧ s'.pool = s.pool := by
  cases action with
  | accept args tx =>
    refine .inl ⟨args, tx, rfl, ?_⟩
    rw [PoolNode.step] at h
    split at h
    · next pool _ hresult => rw [← Option.some.inj h, hresult]
    · cases h
  | connect block =>
    refine .inr (.inl ⟨block, rfl, ?_⟩)
    cases hconnect : s.connectTip cfg block with
    | error e =>
      rw [PoolNode.step, hconnect] at h
      cases h
    | ok t =>
      rw [PoolNode.step, hconnect] at h
      rw [Option.some.inj h]
  | other action =>
    refine .inr (.inr ?_)
    cases action with
    | connect block => cases h
    | disconnect => cases h
    | dump =>
      obtain rfl := Option.some.inj h
      exact ⟨by dsimp only; split_ifs <;> rfl, rfl⟩
    | touch t =>
      obtain rfl := Option.some.inj h
      exact ⟨rfl, rfl⟩
    | activate dep =>
      simp only [PoolNode.step, Node.step] at h
      split_ifs at h
      · obtain rfl := Option.some.inj h
        exact ⟨rfl, rfl⟩
      · cases h

theorem wired_step (h : Wired s.node.coins.Has s.pool) (hclosed : s.ClosedAction cfg action)
    (hstep : s.step cfg action = some s') : Wired s'.node.coins.Has s'.pool := by
  rcases PoolNode.step_cases hstep with ⟨args, tx, rfl, rfl⟩ | ⟨block, rfl, hconnect⟩ | ⟨hcoins, hpool⟩
  · exact h.accept args fun _ _ hchecked => inputs_of_preChecked hchecked hclosed
  · exact h.connect hclosed hconnect
  · rwa [hcoins, hpool]

/-- Whatever happens, the entries are found by what they spend: only that their inputs are there asks for more. -/
theorem wired_true_step (h : Wired (fun _ => True) s.pool) (hstep : s.step cfg action = some s') :
    Wired (fun _ => True) s'.pool := by
  rcases PoolNode.step_cases hstep with ⟨args, tx, rfl, rfl⟩ | ⟨block, rfl, hconnect⟩ | ⟨-, hpool⟩
  · exact h.accept args fun _ _ _ _ _ => .inl trivial
  · simp only [PoolNode.connectTip, bind_eq_ok, pure_eq_ok] at hconnect
    obtain ⟨node, -, st, -, rfl⟩ := hconnect
    have hblock := (h.of_same (freeReissuesOf_wires s.pool block.vtx)).removeAll block.vtx fun _ _ _ _ _ _ _ => trivial
    exact (hblock.wired.removeAll _ fun _ _ _ _ _ _ _ => trivial).wired
  · rwa [hpool]

/-- In every run of such actions the pool stays closed under inputs. -/
theorem pool_inputClosed (cfg : Config) (s s' : PoolNode) (actions : List PoolNode.Action)
    (hempty : s.pool = .empty) (hclosed : Along (PoolNode.step cfg) (PoolNode.ClosedAction cfg) s actions)
    (hrun : s.run cfg actions = some s') : InputClosed s'.node.coins s'.pool := by
  have hstart : Wired s.node.coins.Has s.pool := hempty ▸ wired_empty
  exact Wired.inputClosed (run_invariant (I := fun s : PoolNode => Wired s.node.coins.Has s.pool)
    (fun _ _ _ hs hok hstep => wired_step hs hok hstep) hstart hclosed hrun)

def abcIssueFrom (coinbase hash : Uint256) : CTransaction where
  vin := [⟨⟨coinbase, 0⟩, []⟩]
  vout := [paymentOut issueBurnKeyID 25000000, paymentOut aliceKeyID (9 * COIN), ownerOut aliceKeyID abcAsset,
    issueOut aliceKeyID abcAsset]
  hash := hash

def paymentFrom (prevout : COutPoint) (hash : Uint256) : CTransaction where
  vin := [⟨prevout, []⟩]
  vout := [paymentOut aliceKeyID (8 * COIN)]
  hash := hash

def threeMatured : Option Node :=
  (Node.genesis .all).run mainAll
    (maturedChain ++ [.connect ⟨101, [coinbaseAt 101]⟩, .connect ⟨102, [coinbaseAt 102]⟩])

/-- The pool issues `ABC`, and so does the block, which also holds the parent of a payment. -/
def issuePayments : List PoolNode.Action :=
  [.accept .lenient (abcIssueFrom 1001 3201), .accept .lenient (paymentFrom ⟨1002, 0⟩ 3202),
    .accept .lenient (paymentFrom ⟨3202, 0⟩ 3203),
    .connect ⟨103, [coinbaseAt 103, paymentFrom ⟨1002, 0⟩ 3202, abcIssueFrom 1003 3204]⟩]

/-- A condition on the pool alone that can be evaluated: what is spent inside the pool can be spent, and a
block holds the transactions that the pool's own spend from. -/
def PoolNode.PlainAction (s : PoolNode) : PoolNode.Action → Prop
  | .accept _ tx => ∀ o ∈ tx.vin.map CTxIn.prevout,
    ∀ out ∈ (s.pool.mapTx[o.hash]?.bind fun parent => parent.vout[o.n]?).toList,
      isUnspendable out.scriptPubKey = false
  | .connect block =>
    (∀ b ∈ block.vtx, ∀ entry ∈ (s.pool.mapTx[b.hash]?).toList, entry.vout = b.vout) ∧
    ∀ entry ∈ s.pool.mapTx.toList, ∀ txin ∈ entry.2.vin,
      s.pool.mapTx.contains txin.prevout.hash = true → ∃ b ∈ block.vtx, b.hash = txin.prevout.hash
  | .other _ => True

instance (s : PoolNode) (action : PoolNode.Action) : Decidable (s.PlainAction action) :=
  match action with
  | .accept _ _ => inferInstanceAs (Decidable (∀ _ ∈ _, ∀ _ ∈ _, _ = _))
  | .connect _ => inferInstanceAs (Decidable ((∀ _ ∈ _, ∀ _ ∈ _, _ = _) ∧ ∀ _ ∈ _, ∀ _ ∈ _, _ → ∃ _ ∈ _, _ = _))
  | .other _ => isTrue trivial

theorem PoolNode.PlainAction.closed (cfg : Config) {s : PoolNode}
    (h : s.PlainAction action) : s.ClosedAction cfg action := by
  cases action with
  | accept args tx =>
    intro o ho parent hparent out hout
    exact h o ho out (by simp [hparent, hout])
  | connect block =>
    obtain ⟨hids, hmined⟩ := h
    refine ⟨fun b hb entry hentry => hids b hb entry (by simp [hentry]), ?_⟩
    intro _ _ _ _ parent child hparent hchild _ hout hspends
    obtain ⟨o, ho, heq⟩ := hspends
    obtain ⟨txin, htxin, rfl⟩ := List.mem_map.mp ho
    obtain ⟨b, hb, hhash⟩ := hmined (child.hash, child) (TreeMap.mem_toList_iff_getElem?_eq_some.mpr hchild) txin htxin
      (by rw [heq, TreeMap.contains_eq_isSome_getElem?, hparent]; rfl)
    exact absurd (hhash.trans heq) (hout b hb)
  | other action => trivial

theorem issuePayments_inputClosed :
    ∃ node s, threeMatured = some node ∧
      Along (PoolNode.step mainAll) (PoolNode.ClosedAction mainAll) ⟨node, .empty⟩ issuePayments ∧
      PoolNode.run mainAll ⟨node, .empty⟩ issuePayments = some s ∧
      s.pool.mapTx.keys = [3203] ∧ InputClosed s.node.coins s.pool := by
  have hrun : (threeMatured.bind fun node => (PoolNode.run mainAll ⟨node, .empty⟩ issuePayments).map
      fun s => (s.pool.mapTx.keys,
        decide (Along (PoolNode.step mainAll) PoolNode.PlainAction ⟨node, .empty⟩ issuePayments))) =
      some ([3203], true) := by decide +kernel
  obtain ⟨node, hnode, hmap⟩ := Option.bind_eq_some_iff.mp hrun
  obtain ⟨s, hs, hvalues⟩ := Option.map_eq_some_iff.mp hmap
  obtain ⟨hkeys, hplain⟩ := Prod.mk.inj hvalues
  have halong := (of_decide_eq_true hplain).imp fun _ _ h => PoolNode.PlainAction.closed mainAll h
  exact ⟨node, s, hnode, halong, hs, hkeys, pool_inputClosed mainAll _ s issuePayments rfl halong hs⟩

/-- **One spender.** In every run no two transactions of the pool spend one output. -/
theorem pool_conflictFree (cfg : Config) (s s' : PoolNode) (actions : List PoolNode.Action)
    (hempty : s.pool = .empty) (hrun : s.run cfg actions = some s') {hash hash' : Uint256} {tx tx' : CTransaction}
    (htx : s'.pool.mapTx[hash]? = some tx) (htx' : s'.pool.mapTx[hash']? = some tx')
    (ho : o ∈ tx.vin.map CTxIn.prevout) (ho' : o ∈ tx'.vin.map CTxIn.prevout) : hash = hash' := by
  have hwired := foldlM_some_invariant (fun s : PoolNode => Wired (fun _ => True) s.pool)
    (fun _ _ _ _ hs hstep => wired_true_step hs hstep) (hempty ▸ wired_empty) hrun
  obtain rfl := hwired.keyed hash tx htx
  obtain rfl := hwired.keyed hash' tx' htx'
  have hnext := (hwired.next o tx).mpr ⟨htx, ho⟩
  rw [(hwired.next o tx').mpr ⟨htx', ho'⟩] at hnext
  rw [Option.some.inj hnext]

/-- A payment with the change of an issue that a block makes invalid stays when the issue leaves. -/
def issueThenPayment : List PoolNode.Action :=
  [.accept .lenient (abcIssueFrom 1001 3201), .accept .lenient (paymentFrom ⟨3201, 1⟩ 3202),
    .connect ⟨103, [coinbaseAt 103, abcIssueFrom 1003 3204]⟩]

/-- It is the only one that spends the change. -/
theorem issueThenPayment_conflictFree :
    ∃ node s, threeMatured = some node ∧ PoolNode.run mainAll ⟨node, .empty⟩ issueThenPayment = some s ∧
      s.pool.mapTx[3202]? = some (paymentFrom ⟨3201, 1⟩ 3202) ∧ ∀ hash tx, s.pool.mapTx[hash]? = some tx →
        ⟨3201, 1⟩ ∈ tx.vin.map CTxIn.prevout → hash = 3202 := by
  have hrun : (threeMatured.bind fun node => (PoolNode.run mainAll ⟨node, .empty⟩ issueThenPayment).map
      fun s => s.pool.mapTx[3202]?) = some (some (paymentFrom ⟨3201, 1⟩ 3202)) := by decide +kernel
  obtain ⟨node, hnode, hmap⟩ := Option.bind_eq_some_iff.mp hrun
  obtain ⟨s, hs, hpaid⟩ := Option.map_eq_some_iff.mp hmap
  exact ⟨node, s, hnode, hs, hpaid, fun hash tx htx ho =>
    pool_conflictFree mainAll _ s issueThenPayment rfl hs htx hpaid ho List.mem_cons_self⟩

theorem orphaned_payment :
    ∃ node s, threeMatured = some node ∧
      PoolNode.run mainAll ⟨node, .empty⟩ issueThenPayment = some s ∧
      s.pool.mapTx.keys = [3202] ∧ ¬InputClosed s.node.coins s.pool := by
  have hrun : (threeMatured.bind fun node => (PoolNode.run mainAll ⟨node, .empty⟩ issueThenPayment).map
      fun s => (s.pool.mapTx.keys, s.pool.mapTx[3202]?.map CTransaction.vin,
        s.pool.mapTx.contains 3201, (s.node.coins[(⟨3201, 1⟩ : COutPoint)]?).isSome)) =
      some ([3202], some [⟨⟨3201, 1⟩, []⟩], false, false) := by decide +kernel
  obtain ⟨node, hnode, hmap⟩ := Option.bind_eq_some_iff.mp hrun
  obtain ⟨s, hs, hvalues⟩ := Option.map_eq_some_iff.mp hmap
  simp only [Prod.mk.injEq] at hvalues
  obtain ⟨hkeys, hvin, hgone, hspent⟩ := hvalues
  obtain ⟨tx, htx, hvin⟩ := Option.map_eq_some_iff.mp hvin
  refine ⟨node, s, hnode, hs, hkeys, fun hclosed => ?_⟩
  rcases hclosed 3202 tx htx ⟨⟨3201, 1⟩, []⟩ (by simp [hvin]) with ⟨-, parent, hparent, -⟩ | hcoin
  · rw [TreeMap.contains_eq_isSome_getElem?, hparent] at hgone
    cases hgone
  · cases hspent.symm.trans hcoin

end HempCore
