import HempCore.Lib.KeyOrder

/-!
# Pending changes

A cache that will be merged into a larger one keeps, for each kind of record, what was added and
what was undone. Two disciplines are in use: an addition may keep an earlier one for the same key,
or replace it. The lemmas give every operation, the merge included, by its effect at each key.
-/

set_option autoImplicit false

namespace HempCore.Lib

open Std

universe u v w

section Fold

variable {K : Type u} {V : Type v} {S : Type w} {β : Type*} [DecidableEq K]

variable (get : S → K → β)

/-- A loop over entries with distinct keys, each of which changes what is seen at its own key
alone. A step may fail, but none of the entries makes it fail. -/
theorem foldlM_keyLocal {ε : Type*} (f : S → K → V → Except ε S) (u : V → β → β)
    (Fits : V → β → Prop) (hf : ∀ s k v, Fits v (get s k) →
      ∃ s', f s k v = .ok s' ∧ ∀ j, get s' j = if j = k then u v (get s j) else get s j)
    {l : List (K × V)} (hl : (l.map Prod.fst).Nodup) (s : S)
    (hfits : ∀ k v, (k, v) ∈ l → Fits v (get s k)) :
    ∃ s', l.foldlM (fun s p => f s p.1 p.2) s = .ok s' ∧ ∀ j,
      (∀ v, (j, v) ∈ l → get s' j = u v (get s j)) ∧ (j ∉ l.map Prod.fst → get s' j = get s j) := by
  induction l generalizing s with
  | nil => exact ⟨s, rfl, by simp⟩
  | cons p l ih =>
    rw [List.map_cons, List.nodup_cons] at hl
    have hkey : ∀ k v, (k, v) ∈ l → k ≠ p.1 := by
      rintro k v hv rfl
      exact hl.1 (List.mem_map.mpr ⟨(p.1, v), hv, rfl⟩)
    obtain ⟨t, hstep, ht⟩ := hf s p.1 p.2 (hfits p.1 p.2 List.mem_cons_self)
    obtain ⟨s', hrun, hs'⟩ := ih hl.2 t fun k v hv => by
      rw [ht, if_neg (hkey k v hv)]
      exact hfits k v (List.mem_cons_of_mem p hv)
    refine ⟨s', by rw [List.foldlM_cons, hstep]; exact hrun, fun j => ⟨fun v hv => ?_, fun hj => ?_⟩⟩
    · rcases List.mem_cons.mp hv with rfl | hv
      · rw [(hs' _).2 hl.1, ht, if_pos rfl]
      · rw [(hs' j).1 v hv, ht, if_neg (hkey j v hv)]
    · rw [List.map_cons, List.mem_cons, not_or] at hj
      rw [(hs' j).2 hj.2, ht, if_neg hj.1]

theorem foldl_keyLocal (f : S → K → V → S) (u : V → β → β)
    (hf : ∀ s k v j, get (f s k v) j = if j = k then u v (get s j) else get s j)
    {l : List (K × V)} (hl : (l.map Prod.fst).Nodup) (s : S) (j : K) :
    (∀ v, (j, v) ∈ l → get (l.foldl (fun s p => f s p.1 p.2) s) j = u v (get s j)) ∧
      (j ∉ l.map Prod.fst → get (l.foldl (fun s p => f s p.1 p.2) s) j = get s j) := by
  obtain ⟨s', hrun, hs'⟩ := foldlM_keyLocal get (fun s k v => (pure (f s k v) : Except Empty S)) u
    (fun _ _ => True) (fun s k v _ => ⟨_, rfl, hf s k v⟩) hl s fun _ _ _ => trivial
  rw [List.foldlM_pure] at hrun
  cases hrun
  exact hs' j

variable [Ord K] [TransOrd K] [LawfulEqOrd K]

omit [DecidableEq K] in
theorem treeMap_nodup_keys (m : TreeMap K V) : (m.toList.map Prod.fst).Nodup := by
  rw [TreeMap.map_fst_toList_eq_keys]
  exact m.distinct_keys.imp fun {a b} hne (heq : a = b) => hne (by
    rw [heq]
    exact ReflOrd.compare_self)

theorem treeMap_foldlM_keyLocal {ε : Type*} (f : S → K → V → Except ε S)
    (u : V → β → β) (Fits : V → β → Prop) (hf : ∀ s k v, Fits v (get s k) →
      ∃ s', f s k v = .ok s' ∧ ∀ j, get s' j = if j = k then u v (get s j) else get s j)
    (m : TreeMap K V) (s : S) (hfits : ∀ k v, m[k]? = some v → Fits v (get s k)) :
    ∃ s', m.toList.foldlM (fun s p => f s p.1 p.2) s = .ok s' ∧ ∀ j, get s' j = match m[j]? with
      | some v => u v (get s j)
      | none => get s j := by
  obtain ⟨s', hrun, hs'⟩ := foldlM_keyLocal get f u Fits hf (treeMap_nodup_keys m) s fun k v hv =>
    hfits k v (TreeMap.mem_toList_iff_getElem?_eq_some.mp hv)
  refine ⟨s', hrun, fun j => ?_⟩
  cases hj : m[j]? with
  | some v => exact (hs' j).1 v (TreeMap.mem_toList_iff_getElem?_eq_some.mpr hj)
  | none =>
    refine (hs' j).2 fun hmem => ?_
    rw [TreeMap.map_fst_toList_eq_keys, TreeMap.mem_keys, TreeMap.mem_iff_isSome_getElem?, hj] at hmem
    cases hmem

theorem treeMap_foldl_keyLocal (f : S → K → V → S) (u : V → β → β)
    (hf : ∀ s k v j, get (f s k v) j = if j = k then u v (get s j) else get s j)
    (m : TreeMap K V) (s : S) (j : K) :
    get (m.foldl f s) j = match m[j]? with
      | some v => u v (get s j)
      | none => get s j := by
  obtain ⟨s', hrun, hs'⟩ := treeMap_foldlM_keyLocal get (fun s k v => (pure (f s k v) : Except Empty S)) u (fun _ _ => True)
    (fun s k v _ => ⟨_, rfl, hf s k v⟩) m s fun _ _ _ => trivial
  rw [List.foldlM_pure, ← TreeMap.foldl_eq_foldl_toList] at hrun
  cases hrun
  exact hs' j

omit [DecidableEq K] [TransOrd K] [LawfulEqOrd K] in
/-- What no step of a loop over a map changes, the loop does not change. -/
theorem treeMap_foldl_unchanged (get : S → β) {f : S → K → V → S} (hf : ∀ s k v, get (f s k v) = get s)
    (m : TreeMap K V) (s : S) : get (m.foldl f s) = get s := by
  rw [TreeMap.foldl_eq_foldl_toList]
  exact List.foldlRecOn (motive := fun t => get t = get s) _ _ rfl fun t ht p _ => (hf t p.1 p.2).trans ht

end Fold

section Maps

variable {K : Type u} {V : Type v} [DecidableEq K] [Ord K] [TransOrd K] [LawfulEqOrd K]
  (m : TreeMap K V) (k j : K) (v : V)

theorem getElem?_insert_eq : (m.insert k v)[j]? = if j = k then some v else m[j]? := by
  rw [TreeMap.getElem?_insert]
  by_cases h : j = k
  · simp [h]
  · rw [if_neg h, if_neg fun hc => h (LawfulEqOrd.eq_of_compare hc).symm]

theorem getElem?_insertIfNew_eq : (m.insertIfNew k v)[j]? = if j = k then some (m[j]?.getD v) else m[j]? := by
  rw [TreeMap.getElem?_insertIfNew]
  by_cases h : j = k
  · subst h
    cases hj : m[j]? with
    | none => simp [TreeMap.mem_iff_isSome_getElem?, hj]
    | some w => simp [TreeMap.mem_iff_isSome_getElem?, hj]
  · rw [if_neg h, if_neg fun hc => h (LawfulEqOrd.eq_of_compare hc.1).symm]

theorem getElem?_erase_eq : (m.erase k)[j]? = if j = k then none else m[j]? := by
  rw [TreeMap.getElem?_erase]
  by_cases h : j = k
  · simp [h]
  · rw [if_neg h, if_neg fun hc => h (LawfulEqOrd.eq_of_compare hc).symm]

variable {m k j v}

omit [DecidableEq K] [LawfulEqOrd K] in
theorem mem_of_getElem? (h : m[k]? = some v) : k ∈ m :=
  TreeMap.isSome_getElem?_iff_mem.mp (by rw [h]; rfl)

omit [DecidableEq K] in
theorem mem_insert_key : j ∈ m.insert k v ↔ j = k ∨ j ∈ m := by
  rw [TreeMap.mem_insert, LawfulEqOrd.compare_eq_iff_eq, eq_comm]

omit [DecidableEq K] in
theorem mem_erase_key : j ∈ m.erase k ↔ j ≠ k ∧ j ∈ m := by
  rw [TreeMap.mem_erase, ne_eq, LawfulEqOrd.compare_eq_iff_eq, ne_comm]

omit [DecidableEq K] in
theorem mem_insert_iff {s : TreeSet K} : j ∈ s.insert k ↔ j = k ∨ j ∈ s := by
  rw [TreeSet.mem_insert, LawfulEqOrd.compare_eq_iff_eq, eq_comm]

omit [DecidableEq K] in
theorem mem_erase_iff {s : TreeSet K} : j ∈ s.erase k ↔ j ≠ k ∧ j ∈ s := by
  rw [TreeSet.mem_erase, ne_eq, LawfulEqOrd.compare_eq_iff_eq, ne_comm]

end Maps

/-- What was added and what was undone since the last merge. -/
structure Pending (K : Type u) (V : Type v) [Ord K] where
  toAdd : TreeMap K V
  toRemove : TreeMap K V

namespace Pending

section Operations

variable {K : Type u} {V : Type v} [Ord K]

def empty : Pending K V := ⟨∅, ∅⟩

section

variable (p : Pending K V)

/-- An addition that keeps an earlier one. -/
def addNew (k : K) (v : V) : Pending K V :=
  ⟨p.toAdd.insertIfNew k v, p.toRemove.erase k⟩

/-- An undo that keeps an earlier one. -/
def undoNew (k : K) (v : V) : Pending K V :=
  ⟨p.toAdd.erase k, p.toRemove.insertIfNew k v⟩

/-- An addition that replaces an earlier one. -/
def add (k : K) (v : V) : Pending K V :=
  ⟨p.toAdd.insert k v, p.toRemove.erase k⟩

/-- An undo that replaces an earlier one. -/
def undo (k : K) (v : V) : Pending K V :=
  ⟨p.toAdd.erase k, p.toRemove.insert k v⟩

/-- Merges `p` into `q`, additions first; what `q` holds already is kept. -/
def flushNewInto (q : Pending K V) : Pending K V :=
  p.toRemove.foldl undoNew (p.toAdd.foldl addNew q)

/-- Merges `p` into `q`, additions first; what `q` holds already is replaced. -/
def flushInto (q : Pending K V) : Pending K V :=
  p.toRemove.foldl undo (p.toAdd.foldl add q)

def entry (k : K) : Option V × Option V := (p.toAdd[k]?, p.toRemove[k]?)

end

@[simp] theorem entry_empty [TransOrd K] (k : K) : (empty : Pending K V).entry k = (none, none) := by simp [entry, empty]

/-- What two entries for one key merge to, when the older one is kept. -/
def mergeNew : Option V × Option V → Option V × Option V → Option V × Option V
  | (some v, _), older => (some (older.1.getD v), none)
  | (none, some v), older => (none, some (older.2.getD v))
  | (none, none), older => older

/-- What two entries for one key merge to, when the older one is replaced. -/
def merge : Option V × Option V → Option V × Option V → Option V × Option V
  | (none, none), older => older
  | newer, _ => newer

/-- No key is both added and undone. -/
def Exclusive (p : Pending K V) : Prop := ∀ k, (p.entry k).1 = none ∨ (p.entry k).2 = none

/-- Nothing is undone. -/
def OnlyAdds (p : Pending K V) : Prop := ∀ k, (p.entry k).2 = none

theorem OnlyAdds.toList_toRemove [TransOrd K] [LawfulEqOrd K] {p : Pending K V}
    (hp : p.OnlyAdds) : p.toRemove.toList = [] := by
  refine List.eq_nil_iff_forall_not_mem.mpr fun kv hkv => ?_
  have hget := TreeMap.mem_toList_iff_getElem?_eq_some.mp hkv
  exact absurd (hget.symm.trans (hp kv.1)) (by simp)

theorem onlyAdds_empty [TransOrd K] : (empty : Pending K V).OnlyAdds := fun k => by simp

end Operations

section Lookup

variable {K : Type u} {V : Type v} [DecidableEq K] [Ord K] [TransOrd K] [LawfulEqOrd K]
  (p q : Pending K V) (k j : K) (v : V)

theorem entry_addNew : (p.addNew k v).entry j = if j = k then (some ((p.entry j).1.getD v), none) else p.entry j := by
  simp only [entry, addNew, getElem?_insertIfNew_eq, getElem?_erase_eq]
  split_ifs <;> rfl

theorem entry_undoNew : (p.undoNew k v).entry j = if j = k then (none, some ((p.entry j).2.getD v)) else p.entry j := by
  simp only [entry, undoNew, getElem?_insertIfNew_eq, getElem?_erase_eq]
  split_ifs <;> rfl

theorem entry_add : (p.add k v).entry j = if j = k then (some v, none) else p.entry j := by
  simp only [entry, add, getElem?_insert_eq, getElem?_erase_eq]
  split_ifs <;> rfl

theorem entry_undo : (p.undo k v).entry j = if j = k then (none, some v) else p.entry j := by
  simp only [entry, undo, getElem?_insert_eq, getElem?_erase_eq]
  split_ifs <;> rfl

variable {p} in
theorem Exclusive.addNew (hp : p.Exclusive) : (p.addNew k v).Exclusive := by
  intro j
  rw [entry_addNew]
  split_ifs
  · exact .inr rfl
  · exact hp j

variable {p} in
theorem Exclusive.undoNew (hp : p.Exclusive) : (p.undoNew k v).Exclusive := by
  intro j
  rw [entry_undoNew]
  split_ifs
  · exact .inl rfl
  · exact hp j

theorem entry_flushNewInto (hp : p.Exclusive) : (p.flushNewInto q).entry j = mergeNew (p.entry j) (q.entry j) := by
  rw [flushNewInto, treeMap_foldl_keyLocal entry undoNew (fun v e => (none, some (e.2.getD v)))
      (fun s k v j => entry_undoNew s k j v),
    treeMap_foldl_keyLocal entry addNew (fun v e => (some (e.1.getD v), none)) (fun s k v j => entry_addNew s k j v)]
  have hj := hp j
  simp only [entry] at hj ⊢
  cases ha : p.toAdd[j]? with
  | some a =>
    have hr : p.toRemove[j]? = none := by simpa [ha] using hj
    simp [hr, mergeNew]
  | none => cases hr : p.toRemove[j]? <;> simp [mergeNew]

variable {p q} in
theorem OnlyAdds.addNew (hp : p.OnlyAdds) : (p.addNew k v).OnlyAdds := by
  intro j
  rw [entry_addNew]
  split_ifs
  · rfl
  · exact hp j

variable {p q} in
theorem OnlyAdds.entry_flushNewInto (hp : p.OnlyAdds) (hq : q.OnlyAdds) :
    (p.flushNewInto q).entry j = ((q.entry j).1.or (p.entry j).1, none) := by
  rw [Pending.entry_flushNewInto _ _ _ fun k => .inr (hp k)]
  have hq := hq j
  rcases hnew : p.entry j with ⟨_ | v, _ | gone⟩
  · rw [mergeNew, Option.or_none, ← hq]
  · exact absurd (congrArg Prod.snd hnew) (by simp [hp j])
  · rw [mergeNew]
    cases (q.entry j).1 <;> rfl
  · rw [mergeNew]
    cases (q.entry j).1 <;> rfl

theorem entry_flushInto (hp : p.Exclusive) : (p.flushInto q).entry j = merge (p.entry j) (q.entry j) := by
  rw [flushInto, treeMap_foldl_keyLocal entry undo (fun v _ => (none, some v)) (fun s k v j => entry_undo s k j v),
    treeMap_foldl_keyLocal entry add (fun v _ => (some v, none)) (fun s k v j => entry_add s k j v)]
  have hj := hp j
  simp only [entry] at hj ⊢
  cases ha : p.toAdd[j]? with
  | some a =>
    have hr : p.toRemove[j]? = none := by simpa [ha] using hj
    simp [hr, merge]
  | none => cases hr : p.toRemove[j]? <;> simp [merge]

end Lookup

end Pending

end HempCore.Lib
