import HempCore.Lib.KeyOrder

/-!
# Bounded totals per key

A ledger reads entries `(key, amount)` one at a time and keeps the total of each key in a finite
map, refusing an entry that would take a total out of `[0, M]`. The map then holds the totals of
what was read, no prefix ever left the range, and two ledgers of which one covers the other entry
by entry with the same number of keys agree on every key.
-/

set_option autoImplicit false

namespace HempCore.Lib

open Std

universe u

section Total

variable {K : Type u} [DecidableEq K]

def total (k : K) (l : List (K × Int)) : Int := (l.map fun p => if p.1 = k then p.2 else 0).sum

@[simp] theorem total_nil (k : K) : total k [] = 0 := rfl

@[simp] theorem total_append (k : K) (l l' : List (K × Int)) : total k (l ++ l') = total k l + total k l' := by
  simp [total]

@[simp] theorem total_cons (k : K) (p : K × Int) (l : List (K × Int)) :
    total k (p :: l) = (if p.1 = k then p.2 else 0) + total k l := by
  simp [total]

theorem total_eq_zero_of_notMem {k : K} {l : List (K × Int)} (h : k ∉ l.map Prod.fst) : total k l = 0 := by
  induction l with
  | nil => rfl
  | cons p l ih =>
    simp only [List.map_cons, List.mem_cons, not_or] at h
    rw [total_cons, if_neg (Ne.symm h.1), ih h.2, add_zero]

end Total

section Maps

variable {K : Type u} [Ord K] [TransOrd K] [LawfulEqOrd K]

theorem nodup_keys {V : Type*} (m : TreeMap K V) : m.keys.Nodup := m.distinct_keys.imp fun {a b} hne (heq : a = b) => hne (by
    rw [heq]
    exact ReflOrd.compare_self)

/-- A map all of whose entries occur in another one with as many keys has the same entries. -/
theorem getElem?_eq_of_covered {V : Type*} {m n : TreeMap K V} (hcov : ∀ p ∈ m.toList, n[p.1]? = some p.2)
    (hsize : m.size = n.size) (k : K) : m[k]? = n[k]? := by
  have hsome : ∀ j v, m[j]? = some v → n[j]? = some v := fun j v hj =>
    hcov (j, v) (TreeMap.mem_toList_iff_getElem?_eq_some.mpr hj)
  have hsub : m.keys ⊆ n.keys := by
    intro j hj
    rw [TreeMap.mem_keys, TreeMap.mem_iff_isSome_getElem?, Option.isSome_iff_exists] at hj ⊢
    exact hj.imp fun v => hsome j v
  have hperm : m.keys.Perm n.keys := ((nodup_keys m).subperm hsub).perm_of_length_le (by simp [hsize])
  cases hm : m[k]? with
  | some v => exact (hsome k v hm).symm
  | none =>
    have hnot : k ∉ m.keys := by
      rw [TreeMap.mem_keys, TreeMap.mem_iff_isSome_getElem?]
      simp [hm]
    rw [hperm.mem_iff, TreeMap.mem_keys, TreeMap.mem_iff_isSome_getElem?] at hnot
    exact (Option.not_isSome_iff_eq_none.mp hnot).symm

end Maps

section Ledger

variable {K : Type u} [Ord K] [TransOrd K] [DecidableEq K]

/-- The map holds the totals of the entries read, and every total of every prefix is in range. -/
structure Accumulates (M : Int) (l : List (K × Int)) (m : TreeMap K Int) : Prop where
  get? : ∀ k, m[k]? = if k ∈ l.map Prod.fst then some (total k l) else none
  bounded : ∀ l', l' <+: l → ∀ k, 0 ≤ total k l' ∧ total k l' ≤ M

namespace Accumulates

variable {M : Int} {l : List (K × Int)} {m : TreeMap K Int}

theorem nil (hM : 0 ≤ M) : Accumulates M ([] : List (K × Int)) ∅ where
  get? k := by simp
  bounded l' hl' k := by simp [List.prefix_nil.mp hl', hM]

/-- The value a reader of the map uses for a key is its total, absent keys counting as zero. -/
theorem getD (h : Accumulates M l m) (k : K) : m.getD k 0 = total k l := by
  rw [TreeMap.getD_eq_getD_getElem?, h.get? k]
  by_cases hk : k ∈ l.map Prod.fst
  · simp [hk]
  · rw [if_neg hk, Option.getD_none, total_eq_zero_of_notMem hk]

/-- Reading one more entry whose new total is in range. -/
theorem snoc [LawfulEqOrd K] (h : Accumulates M l m) {k : K} {v : Int} (hv : 0 ≤ v) (hle : total k l + v ≤ M) :
    Accumulates M (l ++ [(k, v)]) (m.insert k (total k l + v)) where
  get? j := by
    rw [TreeMap.getElem?_insert]
    by_cases hjk : k = j
    · subst hjk
      simp
    · have hcmp : compare k j ≠ .eq := fun hc => hjk (LawfulEqOrd.eq_of_compare hc)
      simp only [hcmp, if_false, h.get? j, List.map_append, List.map_cons, List.map_nil, List.mem_append,
        List.mem_singleton, Ne.symm hjk, or_false, total_append, total_cons, hjk, total_nil, add_zero]
  bounded l' hl' j := by
    rcases List.prefix_concat_iff.mp hl' with rfl | hl'
    · have hj := h.bounded l (List.prefix_refl l) j
      by_cases hjk : k = j
      · subst hjk
        simp only [total_append, total_cons, total_nil, if_pos]
        omega
      · simpa [hjk] using hj
    · exact h.bounded l' hl' j

theorem mem_iff (h : Accumulates M l m) (k : K) : k ∈ m ↔ k ∈ l.map Prod.fst := by
  rw [TreeMap.mem_iff_isSome_getElem?, h.get? k]
  by_cases hk : k ∈ l.map Prod.fst <;> simp [hk]

end Accumulates

/-- Two ledgers with the same entries read the same keys with the same totals. -/
theorem Accumulates.total_eq {M M' : Int} {l l' : List (K × Int)} {m m' : TreeMap K Int}
    (h : Accumulates M l m) (h' : Accumulates M' l' m') (heq : ∀ k : K, m[k]? = m'[k]?) (k : K) :
    total k l = total k l' ∧ (k ∈ l.map Prod.fst ↔ k ∈ l'.map Prod.fst) := by
  refine ⟨?_, ?_⟩
  · rw [← h.getD k, ← h'.getD k, TreeMap.getD_eq_getD_getElem?, TreeMap.getD_eq_getD_getElem?, heq k]
  · rw [← h.mem_iff k, ← h'.mem_iff k, TreeMap.mem_iff_isSome_getElem?, TreeMap.mem_iff_isSome_getElem?, heq k]

end Ledger

end HempCore.Lib
