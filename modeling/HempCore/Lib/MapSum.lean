import HempCore.Lib.Pending

/-!
# Sums over the values of a map

The sum is taken over the keys, so that a change at one key is seen at that key alone.
-/

set_option autoImplicit false

namespace HempCore.Lib

open Std

universe u v

variable {K : Type u} {V : Type v} [DecidableEq K] [Ord K]

def weightAt (f : V → Int) (m : TreeMap K V) (k : K) : Int := (m[k]?).elim 0 f

def mapSum (f : V → Int) (m : TreeMap K V) : Int := ∑ k ∈ m.keys.toFinset, weightAt f m k

variable (f : V → Int)

@[simp] theorem mapSum_empty : mapSum f (∅ : TreeMap K V) = 0 := by
  have hkeys : (∅ : TreeMap K V).keys = [] := rfl
  simp [mapSum, hkeys]

variable [TransOrd K] [LawfulEqOrd K] {m m' : TreeMap K V} {k : K}

/-- The sum may be taken over any set that has all the keys. -/
theorem mapSum_eq_sum {S : Finset K} (hS : ∀ k, m[k]? ≠ none → k ∈ S) : mapSum f m = ∑ k ∈ S, weightAt f m k := by
  refine Finset.sum_subset (fun j hj => hS j ?_) fun j _ hj => ?_
  · rw [List.mem_toFinset, TreeMap.mem_keys, TreeMap.mem_iff_isSome_getElem?] at hj
    exact Option.isSome_iff_ne_none.mp hj
  · rw [List.mem_toFinset, TreeMap.mem_keys, TreeMap.mem_iff_isSome_getElem?, Option.not_isSome_iff_eq_none] at hj
    simp [weightAt, hj]

theorem mapSum_of_update (h : ∀ j, j ≠ k → m'[j]? = m[j]?) : mapSum f m' = mapSum f m - weightAt f m k + weightAt f m' k := by
  have hkeys : ∀ j, j ∉ insert k m.keys.toFinset → m[j]? = none := by
    intro j hj
    rw [Finset.mem_insert, not_or, List.mem_toFinset, TreeMap.mem_keys,
      TreeMap.mem_iff_isSome_getElem?, Option.not_isSome_iff_eq_none] at hj
    exact hj.2
  have hS : ∀ j, m[j]? ≠ none → j ∈ insert k m.keys.toFinset := fun j hj => by
    by_contra hnot
    exact hj (hkeys j hnot)
  have hS' : ∀ j, m'[j]? ≠ none → j ∈ insert k m.keys.toFinset := fun j hj => by
    by_contra hnot
    have hne : j ≠ k := fun he => hnot (he ▸ Finset.mem_insert_self _ _)
    exact hj ((h j hne).trans (hkeys j hnot))
  rw [mapSum_eq_sum f hS, mapSum_eq_sum f hS', ← Finset.add_sum_erase _ _ (Finset.mem_insert_self k m.keys.toFinset),
    ← Finset.add_sum_erase _ (weightAt f m) (Finset.mem_insert_self k m.keys.toFinset)]
  have hrest : ∑ j ∈ (insert k m.keys.toFinset).erase k, weightAt f m' j =
      ∑ j ∈ (insert k m.keys.toFinset).erase k, weightAt f m j :=
    Finset.sum_congr rfl fun j hj => by rw [weightAt, h j (Finset.ne_of_mem_erase hj), weightAt]
  rw [hrest]
  ring

theorem mapSum_insert (v : V) : mapSum f (m.insert k v) = mapSum f m - weightAt f m k + f v := by
  have hother : ∀ j, j ≠ k → (m.insert k v)[j]? = m[j]? := fun j hj => by
    rw [getElem?_insert_eq, if_neg hj]
  rw [mapSum_of_update f hother]
  simp [weightAt]

theorem mapSum_erase : mapSum f (m.erase k) = mapSum f m - weightAt f m k := by
  have hother : ∀ j, j ≠ k → (m.erase k)[j]? = m[j]? := fun j hj => by
    rw [getElem?_erase_eq, if_neg hj]
  rw [mapSum_of_update f hother]
  simp [weightAt]

end HempCore.Lib
