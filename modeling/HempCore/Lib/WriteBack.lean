import HempCore.Lib.LRUCache
import HempCore.Lib.Pending

/-!
# Writing back what a cache holds

Loops that erase or write the entries of a set or map in a store, given by their effect at each key,
and lookups that remember what was found and what was missed.
-/

set_option autoImplicit false

namespace HempCore.Lib

open Std

universe u v w

section Sets

variable {K : Type u} {V : Type v} [DecidableEq K] [Ord K] [TransOrd K] [LawfulEqOrd K]

omit [DecidableEq K] in
theorem mem_foldl_insert (keys db : TreeSet K) (j : K) : j ∈ keys.foldl (fun db k => db.insert k) db ↔ j ∈ keys ∨ j ∈ db := by
  rw [TreeSet.foldl_eq_foldl_toList, ← TreeSet.mem_toList (t := keys)]
  induction keys.toList generalizing db with
  | nil => simp
  | cons k l ih => rw [List.foldl_cons, ih, mem_insert_iff, List.mem_cons, or_left_comm, or_assoc]

omit [DecidableEq K] in
theorem mem_foldl_erase (keys db : TreeSet K) (j : K) : j ∈ keys.foldl (fun db k => db.erase k) db ↔ j ∉ keys ∧ j ∈ db := by
  rw [TreeSet.foldl_eq_foldl_toList, ← TreeSet.mem_toList (t := keys)]
  induction keys.toList generalizing db with
  | nil => simp
  | cons k l ih =>
    rw [List.foldl_cons, ih, mem_erase_iff, List.mem_cons, not_or, and_left_comm, and_assoc]

theorem getElem?_foldl_erase (keys : TreeSet K) (db : TreeMap K V) (j : K) :
    (keys.foldl (fun db k => db.erase k) db)[j]? = if keys.contains j then none else db[j]? := by
  have hmem : keys.contains j = true ↔ j ∈ keys.toList := by
    rw [TreeSet.contains_iff_mem, TreeSet.mem_toList]
  rw [TreeSet.foldl_eq_foldl_toList]
  simp only [hmem]
  induction keys.toList generalizing db with
  | nil => simp
  | cons k l ih =>
    rw [List.foldl_cons, ih, getElem?_erase_eq]
    by_cases hk : j = k
    · simp [hk]
    · simp [hk]

theorem getElem?_foldl_eraseKeys {W : Type w} (keys : TreeMap K W) (db : TreeMap K V) (j : K) :
    (keys.foldl (fun db k _ => db.erase k) db)[j]? = if keys[j]?.isSome then none else db[j]? := by
  rw [treeMap_foldl_keyLocal (fun db j => db[j]?) (fun db k _ => db.erase k) (fun _ _ => none)
    (fun db k _ j => getElem?_erase_eq db k j)]
  cases keys[j]? <;> rfl

/-- Entries are written under a key of their own, which is the one they are held under. -/
theorem getElem?_foldl_write {W : Type w} (key : W → K) (f : W → V) {entries : TreeMap K W}
    (hkey : ∀ k w, entries[k]? = some w → key w = k) (db : TreeMap K V) (j : K) :
    (entries.foldl (fun db _ w => db.insert (key w) (f w)) db)[j]? = (entries[j]?.map f).or db[j]? := by
  have hown : entries.foldl (fun db _ w => db.insert (key w) (f w)) db = entries.foldl (fun db k w => db.insert k (f w)) db := by
    rw [TreeMap.foldl_eq_foldl_toList, TreeMap.foldl_eq_foldl_toList]
    refine List.foldl_ext _ _ _ fun db p hp => ?_
    rw [hkey p.1 p.2 (TreeMap.mem_toList_iff_getElem?_eq_some.mp hp)]
  rw [hown, treeMap_foldl_keyLocal (fun db j => db[j]?) (fun db k w => db.insert k (f w)) (fun w _ => some (f w))
    (fun db k w j => getElem?_insert_eq db k j (f w))]
  cases entries[j]? <;> rfl

end Sets

section Lookup

variable {K : Type u} {V : Type v} [DecidableEq K] [Ord K] {cache : LRUCache K V} {missed db : TreeSet K}

/-- What was found is in the store, what was missed is not. -/
def Remembers (cache : LRUCache K V) (missed db : TreeSet K) : Prop :=
  (∀ k, (cache.get? k).isSome → k ∈ db) ∧ ∀ k ∈ missed, k ∉ db

theorem Remembers.empty (maxSize : Nat) : Remembers (.empty maxSize : LRUCache K V) ∅ db :=
  ⟨fun k hk => by simp [LRUCache.empty, LRUCache.get?] at hk, fun k hk => by simp at hk⟩

theorem Remembers.found (h : Remembers cache missed db) {k : K} {v : V} (hk : k ∈ db) : Remembers (cache.put k v) missed db := by
  refine ⟨fun j hj => ?_, h.2⟩
  obtain ⟨w, hw⟩ := Option.isSome_iff_exists.mp hj
  have hput := LRUCache.get?_of_get?_put hw
  split_ifs at hput with hkj
  · rwa [← hkj]
  · exact h.1 j (by rw [hput]; rfl)

variable [TransOrd K] [LawfulEqOrd K]

theorem Remembers.insert (h : Remembers cache missed db) {k : K} (hk : k ∉ db) : Remembers cache (missed.insert k) db := by
  refine ⟨h.1, fun j hj => ?_⟩
  rcases mem_insert_iff.mp hj with rfl | hj
  · exact hk
  · exact h.2 j hj

theorem Remembers.erase (h : Remembers cache missed db) (k : K) : Remembers cache (missed.erase k) db :=
  ⟨h.1, fun j hj => h.2 j (mem_erase_iff.mp hj).2⟩

end Lookup

end HempCore.Lib
