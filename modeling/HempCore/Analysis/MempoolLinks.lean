import HempCore.Analysis.Mempool

/-!
# Parents and children in the memory pool

What each routine that touches `mapLinks` does to the relation between a transaction and those that
spend its outputs, and what a removal leaves of a pool.
-/

set_option autoImplicit false

namespace HempCore

open Lib Std

/-- The two sides of the links of an entry. -/
inductive Side where
  | parents
  | children
deriving DecidableEq

def Side.flip : Side → Side
  | .parents => .children
  | .children => .parents

def TxLinks.on (links : TxLinks) : Side → TreeSet Uint256
  | .parents => links.parents
  | .children => links.children

namespace CTxMemPool

variable {pool : CTxMemPool} {hash : Uint256} {tx : CTransaction}

/-! ## The two relations -/

/-- `mapLinks` has `j` on a side of `k`. -/
def Link (pool : CTxMemPool) (side : Side) (k j : Uint256) : Prop :=
  ∃ links, pool.mapLinks[k]? = some links ∧ j ∈ links.on side

abbrev Child (pool : CTxMemPool) (p c : Uint256) : Prop := pool.Link .children p c

abbrev Parent (pool : CTxMemPool) (c p : Uint256) : Prop := pool.Link .parents c p

theorem mem_getMemPoolChildren {p c : Uint256} : c ∈ pool.getMemPoolChildren p ↔ pool.Child p c := by
  rw [getMemPoolChildren, Child, Link]
  cases pool.mapLinks[p]? <;> simp [TxLinks.on]

theorem mem_getMemPoolParents {c p : Uint256} : p ∈ pool.getMemPoolParents c ↔ pool.Parent c p := by
  rw [getMemPoolParents, Parent, Link]
  cases pool.mapLinks[c]? <;> simp [TxLinks.on]

def linksOf (pool : CTxMemPool) (k : Uint256) : Side → List Uint256
  | .parents => pool.getMemPoolParents k
  | .children => pool.getMemPoolChildren k

theorem mem_linksOf {side : Side} {k j : Uint256} : j ∈ pool.linksOf k side ↔ pool.Link side k j := by
  cases side with
  | parents => exact mem_getMemPoolParents
  | children => exact mem_getMemPoolChildren

/-! ## Updates of links -/

def update (pool : CTxMemPool) (entry j : Uint256) (add : Bool) : Side → CTxMemPool
  | .parents => pool.updateParent entry j add
  | .children => pool.updateChild entry j add

theorem mem_update {side : Side} {entry j k : Uint256} {add : Bool} :
    k ∈ (pool.update entry j add side).mapLinks ↔ k ∈ pool.mapLinks := by
  cases side with
  | parents => exact TreeMap.mem_modify
  | children => exact TreeMap.mem_modify

theorem link_update {side side' : Side} {entry j k i : Uint256} {add : Bool} :
    (pool.update entry j add side).Link side' k i ↔
      if add then pool.Link side' k i ∨ (side' = side ∧ k = entry ∧ i = j) ∧ k ∈ pool.mapLinks
      else pool.Link side' k i ∧ ¬(side' = side ∧ k = entry ∧ i = j) := by
  have hget : ∀ f : TxLinks → TxLinks, (pool.mapLinks.modify entry f)[k]? =
      if k = entry then pool.mapLinks[k]?.map f else pool.mapLinks[k]? := by
    intro f
    rw [TreeMap.getElem?_modify]
    by_cases heq : k = entry
    · simp [heq]
    · rw [if_neg heq, if_neg fun hc => heq (LawfulEqOrd.eq_of_compare hc).symm]
  rw [TreeMap.mem_iff_isSome_getElem?]
  cases hlinks : pool.mapLinks[k]? with
  | none =>
    cases side <;> cases add <;> simp [Link, update, updateParent, updateChild, hget, hlinks]
  | some links =>
    by_cases heq : k = entry
    · subst heq
      cases side <;> cases side' <;> cases add <;>
        simp [Link, update, updateParent, updateChild, hget, hlinks, TxLinks.on, and_comm, or_comm, eq_comm (a := i)]
    · cases side <;> cases add <;> simp [Link, update, updateParent, updateChild, hget, heq]

/-- A loop over entries that have `hash` on one side of their links. -/
theorem link_updates (side : Side) (hash : Uint256) (add : Bool) (l : List Uint256) (pool : CTxMemPool) :
    (∀ side' k i, (l.foldl (fun pool k => pool.update k hash add side) pool).Link side' k i ↔
      if add then pool.Link side' k i ∨ (side' = side ∧ k ∈ l ∧ i = hash) ∧ k ∈ pool.mapLinks
      else pool.Link side' k i ∧ ¬(side' = side ∧ k ∈ l ∧ i = hash)) ∧
    ∀ k, k ∈ (l.foldl (fun pool k => pool.update k hash add side) pool).mapLinks ↔ k ∈ pool.mapLinks := by
  induction l generalizing pool with
  | nil => simp
  | cons entry l ih =>
    obtain ⟨hlink, hmem⟩ := ih (pool.update entry hash add side)
    rw [List.foldl_cons]
    refine ⟨fun side' k i => ?_, fun k => (hmem k).trans mem_update⟩
    rw [hlink, link_update, mem_update, List.mem_cons]
    cases add <;> simp only [Bool.false_eq_true, if_true, if_false] <;> tauto

/-- The links to `hash` are taken from the entries on the other side of it. -/
def unlink (pool : CTxMemPool) (side : Side) (hash : Uint256) : CTxMemPool :=
  (pool.linksOf hash side.flip).foldl (fun pool k => pool.update k hash false side) pool

theorem link_unlinks (side : Side) (l : List Uint256) (pool : CTxMemPool) :
    (∀ side' k i, (l.foldl (fun pool hash => pool.unlink side hash) pool).Link side' k i ↔
      pool.Link side' k i ∧ ¬(side' = side ∧ i ∈ l ∧ pool.Link side.flip i k)) ∧
    ∀ k, k ∈ (l.foldl (fun pool hash => pool.unlink side hash) pool).mapLinks ↔ k ∈ pool.mapLinks := by
  induction l generalizing pool with
  | nil => simp
  | cons hash l ih =>
    obtain ⟨hlink, hmem⟩ := ih (pool.unlink side hash)
    obtain ⟨hone, hmem'⟩ := link_updates side hash false (pool.linksOf hash side.flip) pool
    have hflip : ∀ k i, (pool.unlink side hash).Link side.flip k i ↔ pool.Link side.flip k i := by
      intro k i
      rw [unlink, hone]
      cases side <;> simp [Side.flip]
    rw [List.foldl_cons]
    refine ⟨fun side' k i => ?_, fun k => (hmem k).trans (hmem' k)⟩
    rw [hlink, hflip, unlink, hone, mem_linksOf, List.mem_cons]
    simp only [Bool.false_eq_true, if_false]
    by_cases hi : i = hash
    · subst hi
      tauto
    · simp [hi]

/-- When the relations agree, what leaves is cut off from what stays on both sides. -/
theorem links_updateForRemove (hsymm : ∀ p c, pool.Child p c ↔ pool.Parent c p) (l : List Uint256) :
    (∀ p c, (pool.updateForRemoveFromMempool l).Child p c ↔ pool.Child p c ∧ c ∉ l) ∧
    (∀ c p, (pool.updateForRemoveFromMempool l).Parent c p ↔ pool.Parent c p ∧ (p ∈ l → c ∈ l)) ∧
    ∀ k, k ∈ (pool.updateForRemoveFromMempool l).mapLinks ↔ k ∈ pool.mapLinks := by
  obtain ⟨hfirst, hmem⟩ := link_unlinks .children l pool
  obtain ⟨hlink, hmem'⟩ := link_unlinks .parents l (l.foldl (fun pool hash => pool.unlink .children hash) pool)
  have heq : pool.updateForRemoveFromMempool l = l.foldl (fun pool hash => pool.unlink .parents hash)
      (l.foldl (fun pool hash => pool.unlink .children hash) pool) := rfl
  rw [heq]
  refine ⟨fun p c => ?_, fun c p => ?_, fun k => (hmem' k).trans (hmem k)⟩
  · have hsym := hsymm p c
    rw [Child, hlink, hfirst]
    simp only [Side.flip, reduceCtorEq, false_and, not_false_eq_true, and_true, true_and]
    tauto
  · have hsym := hsymm p c
    rw [Parent, hlink, hfirst, Side.flip, hfirst]
    simp only [Side.flip, reduceCtorEq, false_and, not_false_eq_true, and_true, true_and]
    tauto

/-! ## Removals -/

theorem removeUnchecked_mapLinks (pool : CTxMemPool) (hash k : Uint256) :
    (pool.removeUnchecked hash).mapLinks[k]? = if k = hash ∧ hash ∈ pool.mapTx then none else pool.mapLinks[k]? := by
  cases h : pool.mapTx[hash]? with
  | none =>
    rw [removeUnchecked_of_none h, if_neg]
    rw [TreeMap.mem_iff_isSome_getElem?, h]
    simp
  | some tx =>
    rw [removeUnchecked, h]
    simp only [(untrack_eq _ hash).2.2, getElem?_erase_eq, TreeMap.mem_iff_isSome_getElem?, h, Option.isSome_some, and_true]

/-- The output is spent by an entry among those listed. -/
def SpentBy (pool : CTxMemPool) (l : List Uint256) (o : COutPoint) : Prop :=
  ∃ hash ∈ l, ∃ tx, pool.mapTx[hash]? = some tx ∧ o ∈ tx.vin.map CTxIn.prevout

section

variable (l : List Uint256) (pool : CTxMemPool)

theorem foldl_removeUnchecked_mapTx (k : Uint256) :
    (l.foldl removeUnchecked pool).mapTx[k]? = if k ∈ l then none else pool.mapTx[k]? := by
  induction l generalizing pool with
  | nil => simp
  | cons hash l ih =>
    rw [List.foldl_cons, ih, removeUnchecked_mapTx]
    by_cases hmem : k ∈ l
    · simp [hmem]
    · simp [hmem]

theorem foldl_removeUnchecked_mapNextTx (o : COutPoint) :
    (pool.SpentBy l o → (l.foldl removeUnchecked pool).mapNextTx[o]? = none) ∧
      (¬pool.SpentBy l o → (l.foldl removeUnchecked pool).mapNextTx[o]? = pool.mapNextTx[o]?) := by
  induction l generalizing pool with
  | nil => simp [SpentBy]
  | cons hash l ih =>
    obtain ⟨hspent, hunspent⟩ := ih (pool.removeUnchecked hash)
    rw [List.foldl_cons]
    -- what the rest spends is what it spent before, but for the entry that has left
    have hrest : (pool.removeUnchecked hash).SpentBy l o ↔
        ∃ other ∈ l, other ≠ hash ∧ ∃ tx, pool.mapTx[other]? = some tx ∧ o ∈ tx.vin.map CTxIn.prevout := by
      refine exists_congr fun other => and_congr_right fun _ => ?_
      rw [removeUnchecked_mapTx]
      by_cases heq : other = hash
      · simp [heq]
      · simp [heq]
    by_cases hself : ∃ tx, pool.mapTx[hash]? = some tx ∧ o ∈ tx.vin.map CTxIn.prevout
    · have hnone : (pool.removeUnchecked hash).mapNextTx[o]? = none := by
        rw [removeUnchecked_mapNextTx, if_pos hself]
      refine ⟨fun _ => ?_, fun hnot => absurd ⟨hash, List.mem_cons_self, hself⟩ hnot⟩
      by_cases hother : (pool.removeUnchecked hash).SpentBy l o
      · exact hspent hother
      · exact (hunspent hother).trans hnone
    · have hsame : (pool.removeUnchecked hash).mapNextTx[o]? = pool.mapNextTx[o]? := by
        rw [removeUnchecked_mapNextTx, if_neg hself]
      constructor
      · rintro ⟨other, hother, htx⟩
        rcases List.mem_cons.mp hother with rfl | hother
        · exact absurd htx hself
        · refine hspent (hrest.mpr ⟨other, hother, ?_, htx⟩)
          rintro rfl
          exact hself htx
      · intro hnot
        refine (hunspent fun hother => hnot ?_).trans hsame
        obtain ⟨other, hmem, -, htx⟩ := hrest.mp hother
        exact ⟨other, List.mem_cons_of_mem hash hmem, htx⟩

theorem foldl_removeUnchecked_mapLinks (k : Uint256) :
    (l.foldl removeUnchecked pool).mapLinks[k]? = if k ∈ l ∧ k ∈ pool.mapTx then none else pool.mapLinks[k]? := by
  induction l generalizing pool with
  | nil => simp
  | cons hash l ih =>
    have hmem : k ∈ (pool.removeUnchecked hash).mapTx ↔ k ≠ hash ∧ k ∈ pool.mapTx := by
      rw [TreeMap.mem_iff_isSome_getElem?, removeUnchecked_mapTx, TreeMap.mem_iff_isSome_getElem?]
      by_cases heq : k = hash <;> simp [heq]
    simp only [List.foldl_cons, ih, removeUnchecked_mapLinks, hmem, List.mem_cons]
    by_cases heq : k = hash
    · subst heq
      by_cases hin : k ∈ pool.mapTx <;> simp [hin]
    · simp [heq]

end

variable (pool) (stage : TreeSet Uint256)

theorem removeStaged_mapTx (k : Uint256) : (pool.removeStaged stage).mapTx[k]? = if k ∈ stage then none else pool.mapTx[k]? := by
  simp only [removeStaged, foldl_removeUnchecked_mapTx, TreeSet.mem_toList]
  rw [sameButLinks_updateForRemove stage.toList pool]

theorem removeStaged_mapNextTx (o : COutPoint) :
    (pool.SpentBy stage.toList o → (pool.removeStaged stage).mapNextTx[o]? = none) ∧
      (¬pool.SpentBy stage.toList o → (pool.removeStaged stage).mapNextTx[o]? = pool.mapNextTx[o]?) := by
  have hfold := foldl_removeUnchecked_mapNextTx stage.toList (pool.updateForRemoveFromMempool stage.toList) o
  have hsame := sameButLinks_updateForRemove stage.toList pool
  have hspent : (pool.updateForRemoveFromMempool stage.toList).SpentBy stage.toList o ↔ pool.SpentBy stage.toList o := by
    rw [SpentBy, hsame]
    rfl
  rw [hspent] at hfold
  refine ⟨hfold.1, fun hnot => (hfold.2 hnot).trans ?_⟩
  rw [hsame]

variable {pool}

theorem links_removeStaged (hsymm : ∀ p c, pool.Child p c ↔ pool.Parent c p) (hkeys : ∀ k, k ∈ pool.mapLinks ↔ k ∈ pool.mapTx) :
    (∀ p c, (pool.removeStaged stage).Child p c ↔ pool.Child p c ∧ p ∉ stage ∧ c ∉ stage) ∧
    (∀ c p, (pool.removeStaged stage).Parent c p ↔ pool.Parent c p ∧ p ∉ stage ∧ c ∉ stage) ∧
    ∀ k, k ∈ (pool.removeStaged stage).mapLinks ↔ k ∈ pool.mapLinks ∧ k ∉ stage := by
  obtain ⟨hchild, hparent, hmem⟩ := links_updateForRemove hsymm stage.toList
  have hsame := sameButLinks_updateForRemove stage.toList pool
  have htx : ∀ k, k ∈ (pool.updateForRemoveFromMempool stage.toList).mapTx ↔
      k ∈ (pool.updateForRemoveFromMempool stage.toList).mapLinks := by
    intro k
    rw [hmem, hkeys, hsame]
  have hget : ∀ k, (pool.removeStaged stage).mapLinks[k]? =
      if k ∈ stage then none else (pool.updateForRemoveFromMempool stage.toList).mapLinks[k]? := by
    intro k
    simp only [removeStaged, foldl_removeUnchecked_mapLinks, TreeSet.mem_toList, htx]
    by_cases hstage : k ∈ stage
    · by_cases hin : k ∈ (pool.updateForRemoveFromMempool stage.toList).mapLinks
      · simp [hstage, hin]
      · simp [hstage, hin]
    · simp [hstage]
  refine ⟨fun p c => ?_, fun c p => ?_, fun k => ?_⟩
  · by_cases hstage : p ∈ stage
    · simp [Link, hget, hstage]
    · have hsame : (pool.removeStaged stage).Child p c ↔ (pool.updateForRemoveFromMempool stage.toList).Child p c := by
        simp [Link, hget, hstage]
      rw [hsame, hchild, TreeSet.mem_toList]
      simp [hstage]
  · by_cases hstage : c ∈ stage
    · simp [Link, hget, hstage]
    · have hsame : (pool.removeStaged stage).Parent c p ↔ (pool.updateForRemoveFromMempool stage.toList).Parent c p := by
        simp [Link, hget, hstage]
      rw [hsame, hparent, TreeSet.mem_toList, TreeSet.mem_toList]
      simp [hstage]
  · rw [TreeMap.mem_iff_isSome_getElem?, hget]
    by_cases hstage : k ∈ stage
    · simp [hstage]
    · rw [if_neg hstage, ← TreeMap.mem_iff_isSome_getElem?, hmem]
      simp [hstage]

/-! ## Adding -/

theorem mem_foldl_insert_hash (vin : List CTxIn) (s : TreeSet Uint256) (p : Uint256) :
    p ∈ vin.foldl (fun s (txin : CTxIn) => s.insert txin.prevout.hash) s ↔ (∃ o ∈ vin.map CTxIn.prevout, o.hash = p) ∨ p ∈ s := by
  induction vin generalizing s with
  | nil => simp
  | cons txin vin ih =>
    rw [List.foldl_cons, ih, mem_insert_iff]
    simp only [List.map_cons, List.mem_cons, exists_eq_or_imp]
    rw [eq_comm (a := p), or_left_comm, or_assoc]

theorem links_addParents (hash : Uint256) (l : List Uint256) (pool : CTxMemPool) (hin : hash ∈ pool.mapLinks) :
    let linked := l.foldl (fun pool phash => if pool.existsTx phash then pool.updateParent hash phash true else pool) pool
    (∀ c p, linked.Parent c p ↔ pool.Parent c p ∨ c = hash ∧ p ∈ l ∧ p ∈ pool.mapTx) ∧
    (∀ p c, linked.Child p c ↔ pool.Child p c) ∧ ∀ k, k ∈ linked.mapLinks ↔ k ∈ pool.mapLinks := by
  induction l generalizing pool with
  | nil => simp
  | cons phash l ih =>
    simp only [List.foldl_cons]
    by_cases hexists : pool.existsTx phash
    · rw [if_pos hexists]
      have hp : phash ∈ pool.mapTx := TreeMap.contains_iff_mem.mp hexists
      obtain ⟨hparent, hchild, hmem⟩ := ih (pool.update hash phash true .parents) (mem_update.mpr hin)
      refine ⟨fun c p => ?_, fun p c => ?_, fun k => (hmem k).trans mem_update⟩
      · refine (hparent c p).trans ?_
        have hnew : (pool.update hash phash true .parents).Parent c p ↔
            pool.Parent c p ∨ (c = hash ∧ p = phash) ∧ c ∈ pool.mapLinks := by simp [link_update]
        have htx : (pool.update hash phash true .parents).mapTx = pool.mapTx := rfl
        rw [hnew, htx, List.mem_cons]
        constructor
        · rintro ((h | ⟨⟨rfl, rfl⟩, -⟩) | ⟨rfl, hl, hmem⟩)
          · exact .inl h
          · exact .inr ⟨rfl, .inl rfl, hp⟩
          · exact .inr ⟨rfl, .inr hl, hmem⟩
        · rintro (h | ⟨rfl, rfl | hl, hmem⟩)
          · exact .inl (.inl h)
          · exact .inl (.inr ⟨⟨rfl, rfl⟩, hin⟩)
          · exact .inr ⟨rfl, hl, hmem⟩
      · exact (hchild p c).trans (by simp [link_update])
    · rw [if_neg hexists]
      obtain ⟨hparent, hchild, hmem⟩ := ih pool hin
      refine ⟨fun c p => ?_, hchild, hmem⟩
      rw [hparent, List.mem_cons]
      constructor
      · rintro (h | ⟨rfl, hl, hmem⟩)
        · exact .inl h
        · exact .inr ⟨rfl, .inr hl, hmem⟩
      · rintro (h | ⟨rfl, rfl | hl, hmem⟩)
        · exact .inl h
        · exact absurd (TreeMap.contains_iff_mem.mpr hmem) hexists
        · exact .inr ⟨rfl, hl, hmem⟩

theorem links_addAncestors (hash : Uint256) (l : List Uint256) (hkeys : ∀ k, k ∈ pool.mapLinks ↔ k ∈ pool.mapTx)
    (hin : hash ∈ pool.mapLinks) (hnone : ∀ p, ¬pool.Parent hash p) :
    let linked := (l.foldl (fun pool phash =>
      if pool.existsTx phash then pool.updateParent hash phash true else pool) pool).updateAncestorsOf true hash
    (∀ c p, linked.Parent c p ↔ pool.Parent c p ∨ c = hash ∧ p ∈ l ∧ p ∈ pool.mapTx) ∧
    (∀ p c, linked.Child p c ↔ pool.Child p c ∨ c = hash ∧ p ∈ l ∧ p ∈ pool.mapTx) ∧
    ∀ k, k ∈ linked.mapLinks ↔ k ∈ pool.mapLinks := by
  obtain ⟨hparent, hchild, hmem⟩ := links_addParents hash l pool hin
  generalize (l.foldl (fun pool phash =>
    if pool.existsTx phash then pool.updateParent hash phash true else pool) pool) = added at hparent hchild hmem
  obtain ⟨hlink, hmem'⟩ := link_updates .children hash true (added.linksOf hash .parents) added
  have heq : added.updateAncestorsOf true hash =
      (added.linksOf hash .parents).foldl (fun pool k => pool.update k hash true .children) added := rfl
  rw [heq]
  refine ⟨fun c p => ?_, fun p c => ?_, fun k => (hmem' k).trans (hmem k)⟩
  · exact (hlink _ _ _).trans (by simpa using hparent c p)
  · refine (hlink _ _ _).trans ?_
    simp only [if_true, true_and, mem_linksOf, hmem, hkeys]
    rw [← Parent, ← Child, hparent, hchild]
    have := hnone p
    tauto

/-- The entry as it is stored first, with empty links. -/
def storeEntry (pool : CTxMemPool) (tx : CTransaction) : CTxMemPool :=
  { pool with
    mapTx := pool.mapTx.insertIfNew tx.hash tx
    mapLinks := pool.mapLinks.insertIfNew tx.hash ⟨∅, ∅⟩
    mapNextTx := tx.vin.foldl (fun m (txin : CTxIn) => m.insertIfNew txin.prevout tx) pool.mapNextTx }

def parentHashes (tx : CTransaction) : TreeSet Uint256 :=
  tx.vin.foldl (fun s txin => s.insert txin.prevout.hash) ∅

theorem addUnchecked_eq (pool : CTxMemPool) (tx : CTransaction) :
    pool.addUnchecked tx = ((parentHashes tx).toList.foldl (fun pool phash =>
      if pool.existsTx phash then pool.updateParent tx.hash phash true else pool)
      (pool.storeEntry tx)).updateAncestorsOf true tx.hash := rfl

theorem links_storeEntry (hfree : pool.mapLinks[tx.hash]? = none) : (∀ c p, (pool.storeEntry tx).Parent c p ↔ pool.Parent c p) ∧
    (∀ p c, (pool.storeEntry tx).Child p c ↔ pool.Child p c) ∧
    (∀ k, k ∈ (pool.storeEntry tx).mapLinks ↔ k ∈ pool.mapLinks ∨ k = tx.hash) ∧
    ∀ k, k ∈ (pool.storeEntry tx).mapTx ↔ k ∈ pool.mapTx ∨ k = tx.hash := by
  have hget : ∀ k, (pool.storeEntry tx).mapLinks[k]? = if k = tx.hash then some ⟨∅, ∅⟩ else pool.mapLinks[k]? := by
    intro k
    rw [storeEntry, getElem?_insertIfNew_eq]
    by_cases heq : k = tx.hash
    · simp [heq, hfree]
    · simp [heq]
  refine ⟨fun c p => ?_, fun p c => ?_, fun k => ?_, fun k => ?_⟩
  · by_cases heq : c = tx.hash <;> simp [Link, hget, TxLinks.on, heq, hfree]
  · by_cases heq : p = tx.hash <;> simp [Link, hget, TxLinks.on, heq, hfree]
  · rw [storeEntry, TreeMap.mem_insertIfNew, LawfulEqOrd.compare_eq_iff_eq, eq_comm, or_comm]
  · rw [storeEntry, TreeMap.mem_insertIfNew, LawfulEqOrd.compare_eq_iff_eq, eq_comm, or_comm]

/-- A transaction is linked to those of the pool that it spends, and to itself if it spends itself. -/
theorem links_addUnchecked (hkeys : ∀ k, k ∈ pool.mapLinks ↔ k ∈ pool.mapTx) (hnew : pool.mapTx[tx.hash]? = none) :
    (∀ c p, (pool.addUnchecked tx).Parent c p ↔ pool.Parent c p ∨
      c = tx.hash ∧ (∃ o ∈ tx.vin.map CTxIn.prevout, o.hash = p) ∧ (p ∈ pool.mapTx ∨ p = tx.hash)) ∧
    (∀ p c, (pool.addUnchecked tx).Child p c ↔ pool.Child p c ∨
      c = tx.hash ∧ (∃ o ∈ tx.vin.map CTxIn.prevout, o.hash = p) ∧ (p ∈ pool.mapTx ∨ p = tx.hash)) ∧
    ∀ k, k ∈ (pool.addUnchecked tx).mapLinks ↔ k ∈ pool.mapLinks ∨ k = tx.hash := by
  have hfree : pool.mapLinks[tx.hash]? = none := by
    refine TreeMap.getElem?_eq_none ?_
    rw [hkeys, TreeMap.mem_iff_isSome_getElem?, hnew]
    exact Bool.false_ne_true
  obtain ⟨hparent₀, hchild₀, hmem₀, htx₀⟩ := links_storeEntry hfree
  have hkeys₀ : ∀ k, k ∈ (pool.storeEntry tx).mapLinks ↔ k ∈ (pool.storeEntry tx).mapTx := by
    intro k
    rw [hmem₀, htx₀, hkeys]
  have hnone : ∀ p, ¬(pool.storeEntry tx).Parent tx.hash p := by
    intro p hp
    obtain ⟨links, hlinks, -⟩ := (hparent₀ _ _).mp hp
    cases hfree.symm.trans hlinks
  have hset : ∀ p, p ∈ (parentHashes tx).toList ↔ ∃ o ∈ tx.vin.map CTxIn.prevout, o.hash = p := by
    intro p
    rw [TreeSet.mem_toList]
    exact (mem_foldl_insert_hash tx.vin ∅ p).trans (or_iff_left TreeSet.not_mem_emptyc)
  obtain ⟨hparent, hchild, hmem⟩ := links_addAncestors tx.hash (parentHashes tx).toList hkeys₀ ((hmem₀ _).mpr (.inr rfl)) hnone
  rw [addUnchecked_eq]
  refine ⟨fun c p => ?_, fun p c => ?_, fun k => (hmem k).trans (hmem₀ k)⟩
  · rw [hparent, hparent₀, hset, htx₀]
  · rw [hchild, hchild₀, hset, htx₀]

end CTxMemPool

end HempCore
