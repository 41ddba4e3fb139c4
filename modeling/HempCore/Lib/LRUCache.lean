import Mathlib.Tactic

/-!
# A bounded cache with least-recently-used eviction

Entries stand most recent first. An insertion may evict, so the only thing a user may rely on is
that the cache holds nothing it was not given: `Agrees` states it against a backing store, and
every operation keeps it.
-/

set_option autoImplicit false

namespace HempCore.Lib

universe u v

structure LRUCache (K : Type u) (V : Type v) where
  maxSize : Nat
  items : List (K × V)

namespace LRUCache

variable {K : Type u} {V : Type v} [DecidableEq K]

def empty (maxSize : Nat) : LRUCache K V := ⟨maxSize, []⟩

section

variable (c : LRUCache K V) (k : K)

/-- The cached value, its entry left where it is. -/
def get? : Option V := (c.items.find? (·.1 = k)).map Prod.snd

def erase : LRUCache K V :=
  { c with items := c.items.filter fun p => p.1 ≠ k }

/-- Inserts or replaces at the front, and evicts the last entry of a cache that became too
large. -/
def put (v : V) : LRUCache K V :=
  let items := (k, v) :: (c.erase k).items
  { c with items := if items.length > c.maxSize then items.dropLast else items }

/-- What a read does to the order of the entries. -/
def promote : LRUCache K V :=
  match c.get? k with
  | some v => { c with items := (k, v) :: (c.erase k).items }
  | none => c

theorem get?_erase (j : K) : (c.erase k).get? j = if j = k then none else c.get? j := by
  simp only [get?, erase, List.find?_filter]
  split_ifs with h
  · have hnone : c.items.find? (fun p => decide (decide (p.1 ≠ k) = true ∧
        decide (p.1 = j) = true)) = none := by
      rw [List.find?_eq_none]
      intro p _
      simp only [decide_eq_true_eq, not_and]
      intro hk hj
      exact hk (hj.trans h)
    rw [hnone]
    rfl
  · congr 2
    funext p
    by_cases hj : p.1 = j
    · simp [hj, h]
    · simp [hj]

end

theorem get?_cons (n : Nat) (k j : K) (v : V) (l : List (K × V)) :
    (⟨n, (k, v) :: l⟩ : LRUCache K V).get? j = if k = j then some v else get? ⟨n, l⟩ j := by
  by_cases h : k = j <;> simp [get?, h]

theorem get?_of_get?_dropLast {n : Nat} {l : List (K × V)} {j : K} {w : V}
    (h : get? ⟨n, l.dropLast⟩ j = some w) : get? ⟨n, l⟩ j = some w := by
  rcases l.eq_nil_or_concat' with rfl | ⟨l, p, rfl⟩
  · exact h
  · rw [List.dropLast_concat] at h
    simp only [get?, Option.map_eq_some_iff] at h ⊢
    obtain ⟨q, hq, rfl⟩ := h
    exact ⟨q, by rw [List.find?_append, hq, Option.some_or], rfl⟩

theorem get?_of_get?_put {c : LRUCache K V} {k j : K} {v w : V} (h : (c.put k v).get? j = some w) :
    if k = j then w = v else c.get? j = some w := by
  have hcons : get? ⟨c.maxSize, (k, v) :: (c.erase k).items⟩ j = some w := by
    simp only [put] at h
    split_ifs at h with hsize
    · exact get?_of_get?_dropLast h
    · exact h
  rw [get?_cons] at hcons
  split_ifs at hcons ⊢ with hk
  · exact (Option.some.inj hcons).symm
  · have herase : (c.erase k).get? j = some w := hcons
    rwa [get?_erase, if_neg (Ne.symm hk)] at herase

theorem get?_promote (c : LRUCache K V) (k j : K) : (c.promote k).get? j = c.get? j := by
  unfold promote
  cases hk : c.get? k with
  | none => rfl
  | some v =>
    show get? ⟨c.maxSize, (k, v) :: (c.erase k).items⟩ j = _
    rw [get?_cons]
    split_ifs with h
    · rw [← h, hk]
    · have herase : get? ⟨c.maxSize, (c.erase k).items⟩ j = (c.erase k).get? j := rfl
      rw [herase, get?_erase, if_neg (Ne.symm h)]

/-- Everything cached is what the backing store holds. -/
def Agrees (c : LRUCache K V) (store : K → Option V) : Prop :=
  ∀ k v, c.get? k = some v → store k = some v

variable {c : LRUCache K V} {store store' : K → Option V}

theorem agrees_empty (n : Nat) : (empty n : LRUCache K V).Agrees store := by
  intro k v h
  simp [empty, get?] at h

/-- A read goes to the cache first, and answers as the store does. -/
theorem Agrees.or_store (hc : c.Agrees store) (k : K) : (c.get? k).or (store k) = store k := by
  cases h : c.get? k with
  | none => rfl
  | some v => rw [hc k v h, Option.some_or]

theorem Agrees.put (hc : c.Agrees store) {k : K} {v : V} (hk : store' k = some v)
    (hother : ∀ j, j ≠ k → store' j = store j) : (c.put k v).Agrees store' := by
  intro j w h
  have hput := get?_of_get?_put h
  split_ifs at hput with hj
  · rw [← hj, hk, hput]
  · rw [hother j (Ne.symm hj), hc j w hput]

theorem Agrees.erase (hc : c.Agrees store) {k : K} (hother : ∀ j, j ≠ k → store' j = store j) : (c.erase k).Agrees store' := by
  intro j w h
  rw [get?_erase] at h
  split_ifs at h with hj
  rw [hother j hj, hc j w h]

theorem Agrees.promote (hc : c.Agrees store) (k : K) : (c.promote k).Agrees store := by
  intro j w h
  rw [get?_promote] at h
  exact hc j w h

end LRUCache

end HempCore.Lib
