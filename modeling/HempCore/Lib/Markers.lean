import HempCore.Lib.LRUCache
import HempCore.Lib.Pending

/-!
# Switches: pending commands over a set of markers

A switch is on when a marker for it is stored. Markers live in a database, behind a bounded cache
of the digests of marked keys; commands to turn switches on or off wait in a `Pending` until they
are written out. The commands decide the answer at their own keys, and writing them out changes
no answer, provided the digest separates the keys in use.
-/

set_option autoImplicit false

namespace HempCore.Lib

open Std

universe u v w

/-- Markers in a database, with a cache of the digests of marked keys in front. -/
structure Markers (K : Type u) (H : Type v) [Ord K] where
  cache : LRUCache H Unit
  db : TreeMap K Unit

namespace Markers

section Operations

variable {K : Type u} {H : Type v} {C : Type w} [Ord K] [DecidableEq H]

def empty (maxSize : Nat) : Markers K H := ⟨.empty maxSize, ∅⟩

section

variable (digest : K → H) (m : Markers K H) (k : K)

def mark (on : Bool) : Markers K H :=
  if on then ⟨m.cache.put (digest k) (), m.db.insert k ()⟩
  else ⟨m.cache.erase (digest k), m.db.erase k⟩

def has : Bool :=
  (m.cache.get? (digest k)).isSome || m.db.contains k

/-- What a read that went to the database leaves in the cache. -/
def refill : Markers K H :=
  if (m.cache.get? (digest k)).isNone && m.db.contains k then
    { m with cache := m.cache.put (digest k) () }
  else m

end

/-- Writes pending commands out, the undone ones in the opposite direction. -/
def dump (digest : K → H) (on : C → Bool) (p : Pending K C) (m : Markers K H) : Markers K H :=
  p.toRemove.foldl (fun m k c => m.mark digest k (!on c))
    (p.toAdd.foldl (fun m k c => m.mark digest k (on c)) m)

end Operations

end Markers

/-- The state the pending commands leave a switch in, when there is one for it. -/
def Pending.status {K : Type u} {C : Type w} [Ord K] (on : C → Bool) (p : Pending K C) (k : K) :
    Option Bool :=
  match p.entry k with
  | (_, some c) => some (!on c)
  | (some c, none) => some (on c)
  | (none, none) => none

section Status

variable {K : Type u} {C : Type w} [Ord K] [TransOrd K] (on : C → Bool) (k j : K) (c : C)

namespace Pending

theorem status_empty : (empty : Pending K C).status on k = none := by simp [status]

theorem exclusive_empty : (empty : Pending K C).Exclusive := fun k => by simp

variable [DecidableEq K] [LawfulEqOrd K] (p q : Pending K C)

theorem status_add : (p.add k c).status on j = if j = k then some (on c) else p.status on j := by
  simp only [status, entry_add]
  split_ifs <;> rfl

theorem status_undo : (p.undo k c).status on j = if j = k then some (!on c) else p.status on j := by
  simp only [status, entry_undo]
  split_ifs <;> rfl

variable {p} in
theorem Exclusive.add (hp : p.Exclusive) : (p.add k c).Exclusive := by
  intro j
  rw [entry_add]
  split_ifs
  · exact .inr rfl
  · exact hp j

variable {p} in
theorem Exclusive.undo (hp : p.Exclusive) : (p.undo k c).Exclusive := by
  intro j
  rw [entry_undo]
  split_ifs
  · exact .inl rfl
  · exact hp j

variable {p} in
/-- A merge lets the merged commands decide where there are any. -/
theorem status_flushInto (hp : p.Exclusive) : (p.flushInto q).status on j = (p.status on j).or (q.status on j) := by
  simp only [status, entry_flushInto p q j hp]
  rcases hj : p.entry j with ⟨_ | a, _ | r⟩ <;> rfl

variable {p q} in
theorem Exclusive.flushInto (hp : p.Exclusive) (hq : q.Exclusive) : (p.flushInto q).Exclusive := by
  intro j
  rw [entry_flushInto p q j hp]
  have hpj := hp j
  rcases hj : p.entry j with ⟨_ | a, _ | r⟩
  · exact hq j
  · exact .inl rfl
  · exact .inr rfl
  · simp [hj] at hpj

end Pending

end Status

namespace Markers

section Answers

variable {K : Type u} {H : Type v} {C : Type w} [Ord K] [DecidableEq H] {digest : K → H}
  {keys : Set K} {m : Markers K H}

/-- Every marked key is in use, and every cached digest is that of a marked key. -/
structure Sound (digest : K → H) (keys : Set K) (m : Markers K H) : Prop where
  marked : ∀ k, m.db.contains k = true → k ∈ keys
  cached : ∀ x, m.cache.get? x ≠ none → ∃ k, digest k = x ∧ m.db.contains k = true

theorem sound_empty (n : Nat) : (empty n : Markers K H).Sound digest keys where
  marked k h := by simp [empty] at h
  cached x h := by simp [empty, LRUCache.empty, LRUCache.get?] at h

/-- With a digest that separates the keys in use, the cache answers as the database does. -/
theorem Sound.has_eq (hm : m.Sound digest keys) (hinj : Set.InjOn digest keys) {k : K}
    (hk : k ∈ keys) : m.has digest k = m.db.contains k := by
  unfold has
  cases hc : m.cache.get? (digest k) with
  | none => rfl
  | some v =>
    obtain ⟨j, hj, hdb⟩ := hm.cached (digest k) (by simp [hc])
    rw [hinj (hm.marked j hdb) hk hj] at hdb
    simp [hdb]

theorem Sound.refill (hm : m.Sound digest keys) (k : K) : (m.refill digest k).Sound digest keys := by
  unfold Markers.refill
  split_ifs with h
  · refine ⟨hm.marked, fun x hx => ?_⟩
    obtain ⟨v, hv⟩ := Option.ne_none_iff_exists'.mp hx
    have hput := LRUCache.get?_of_get?_put hv
    split_ifs at hput with hkx
    · rw [Bool.and_eq_true] at h
      exact ⟨k, hkx, h.2⟩
    · exact hm.cached x (by simp [hput])
  · exact hm

variable [DecidableEq K] [TransOrd K] [LawfulEqOrd K]

theorem contains_mark (k j : K) (on : Bool) : (m.mark digest k on).db.contains j = if j = k then on else m.db.contains j := by
  rw [← TreeMap.isSome_getElem?_eq_contains, ← TreeMap.isSome_getElem?_eq_contains]
  cases on
  · simp only [mark, Bool.false_eq_true, if_false, getElem?_erase_eq]
    split_ifs <;> rfl
  · simp only [mark, if_true, getElem?_insert_eq]
    split_ifs <;> rfl

theorem Sound.mark (hm : m.Sound digest keys) {k : K} (hk : k ∈ keys) (on : Bool) :
    (m.mark digest k on).Sound digest keys where
  marked j hj := by
    rw [contains_mark] at hj
    split_ifs at hj with hjk
    · rwa [hjk]
    · exact hm.marked j hj
  cached x hx := by
    cases on with
    | true =>
      obtain ⟨v, hv⟩ := Option.ne_none_iff_exists'.mp hx
      have hput := LRUCache.get?_of_get?_put (by simpa [Markers.mark] using hv)
      split_ifs at hput with hkx
      · exact ⟨k, hkx, by simp [contains_mark]⟩
      · obtain ⟨j, hj, hdb⟩ := hm.cached x (by simp [hput])
        refine ⟨j, hj, ?_⟩
        rw [contains_mark]
        split_ifs
        · rfl
        · exact hdb
    | false =>
      simp only [Markers.mark, Bool.false_eq_true, if_false, LRUCache.get?_erase] at hx
      split_ifs at hx with hkx
      · exact absurd rfl hx
      · obtain ⟨j, hj, hdb⟩ := hm.cached x hx
        refine ⟨j, hj, ?_⟩
        rw [contains_mark, if_neg]
        · exact hdb
        · rintro rfl
          exact hkx hj.symm

/-- Writing out leaves at each key what the pending commands say there. -/
theorem contains_dump (on : C → Bool) {p : Pending K C} (hp : p.Exclusive) (j : K) :
    (m.dump digest on p).db.contains j = (p.status on j).getD (m.db.contains j) := by
  rw [dump, treeMap_foldl_keyLocal (fun m : Markers K H => m.db.contains)
      (fun m k c => m.mark digest k (!on c)) (fun c _ => !on c)
      (fun m k c j => contains_mark k j _),
    treeMap_foldl_keyLocal (fun m : Markers K H => m.db.contains)
      (fun m k c => m.mark digest k (on c)) (fun c _ => on c) (fun m k c j => contains_mark k j _)]
  have hj := hp j
  simp only [Pending.status, Pending.entry] at hj ⊢
  cases ha : p.toAdd[j]? <;> cases hr : p.toRemove[j]? <;> simp_all

/-- Writing out marks only keys in use. -/
theorem Sound.dump (hm : m.Sound digest keys) {on : C → Bool} {p : Pending K C}
    (hused : ∀ k, p.status on k ≠ none → k ∈ keys) : (m.dump digest on p).Sound digest keys := by
  have hadd : ∀ k c, (k, c) ∈ p.toAdd.toList → k ∈ keys := by
    intro k c h
    rw [TreeMap.mem_toList_iff_getElem?_eq_some] at h
    refine hused k ?_
    simp only [Pending.status, Pending.entry, h]
    cases p.toRemove[k]? <;> simp
  have hremove : ∀ k c, (k, c) ∈ p.toRemove.toList → k ∈ keys := by
    intro k c h
    rw [TreeMap.mem_toList_iff_getElem?_eq_some] at h
    refine hused k ?_
    simp [Pending.status, Pending.entry, h]
  rw [Markers.dump, TreeMap.foldl_eq_foldl_toList, TreeMap.foldl_eq_foldl_toList]
  refine List.foldlRecOn _ _ (List.foldlRecOn _ _ hm ?_) ?_
  · intro m' hm' c hc
    exact hm'.mark (hadd c.1 c.2 hc) _
  · intro m' hm' c hc
    exact hm'.mark (hremove c.1 c.2 hc) _

end Answers

end Markers

end HempCore.Lib
