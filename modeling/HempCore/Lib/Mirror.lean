import HempCore.Lib.Worklist

/-!
# Maps with a map back

Two ways to keep a relation between keys and owners from both sides: a pair of maps of which each is
the other's inverse, and a pair of maps to sets.
-/

set_option autoImplicit false

namespace HempCore.Lib

open Std

variable {K H : Type} [Ord K] [Ord H]

/-! ## One owner for a key -/

/-- Each of two maps is the inverse of the other. -/
def Inverse (m : TreeMap K H) (back : TreeMap H K) : Prop :=
  ∀ (k : K) (h : H), m[k]? = some h ↔ back[h]? = some k

theorem inverse_empty [TransOrd K] [TransOrd H] : Inverse (∅ : TreeMap K H) ∅ := by
  intro k h
  simp

section Inverse

variable [TransOrd K] [LawfulEqOrd K] [DecidableEq K] [TransOrd H] [LawfulEqOrd H]
  [DecidableEq H] {m : TreeMap K H} {back : TreeMap H K} {k : K} {h : H}

omit [TransOrd K] [LawfulEqOrd K] [TransOrd H] [LawfulEqOrd H] in
/-- A key and an owner that are both new are put together. -/
theorem Inverse.put {m' : TreeMap K H} {back' : TreeMap H K} (hinv : Inverse m back)
    (hk : m[k]? = none) (hh : back[h]? = none) (hm' : ∀ j, m'[j]? = if j = k then some h else m[j]?)
    (hback' : ∀ j, back'[j]? = if j = h then some k else back[j]?) : Inverse m' back' := by
  intro k' h'
  have hpair := hinv k' h'
  rw [hm', hback']
  by_cases hk' : k' = k <;> by_cases hh' : h' = h
  · simp [hk', hh']
  · subst hk'
    simpa [hk, hh', Ne.symm hh'] using hpair
  · subst hh'
    simpa [hh, hk', Ne.symm hk'] using hpair
  · simpa [hk', hh'] using hpair

theorem Inverse.insertIfNew (hinv : Inverse m back) (hk : m[k]? = none) (hh : back[h]? = none) :
    Inverse (m.insertIfNew k h) (back.insertIfNew h k) := by
  refine hinv.put hk hh (fun j => ?_) (fun j => ?_)
  · rw [getElem?_insertIfNew_eq]
    split_ifs with hj
    · rw [hj, hk, Option.getD_none]
    · rfl
  · rw [getElem?_insertIfNew_eq]
    split_ifs with hj
    · rw [hj, hh, Option.getD_none]
    · rfl

theorem Inverse.erase (hinv : Inverse m back) (hm : m[k]? = some h) : Inverse (m.erase k) (back.erase h) := by
  have hback := (hinv k h).mp hm
  intro k' h'
  rw [getElem?_erase_eq, getElem?_erase_eq]
  have hpair := hinv k' h'
  by_cases hk' : k' = k
  · subst hk'
    rw [hm] at hpair
    by_cases hh' : h' = h
    · simp [hh']
    · simpa [hh', Ne.symm hh'] using hpair
  · by_cases hh' : h' = h
    · subst hh'
      simp [hk', hpair, hback, Ne.symm hk']
    · simpa [hk', hh'] using hpair

end Inverse

/-! ## Many owners for a key -/

/-- Each of two maps to sets lists what the other one does. -/
def Mirror (byKey : TreeMap K (TreeSet H)) (byOwner : TreeMap H (TreeSet K)) : Prop :=
  ∀ (k : K) (h : H), h ∈ byKey.getD k ∅ ↔ k ∈ byOwner.getD h ∅

theorem mirror_empty [TransOrd K] [TransOrd H] : Mirror (∅ : TreeMap K (TreeSet H)) ∅ := by
  intro k h
  simp

/-- Taking an owner from the sets of some keys, one key at a time. -/
theorem mem_getD_foldl_drop {f : TreeMap K (TreeSet H) → K → TreeMap K (TreeSet H)} {owner : H}
    (hf : ∀ m key k h, h ∈ (f m key).getD k ∅ ↔ h ∈ m.getD k ∅ ∧ ¬(k = key ∧ h = owner)) (keys : List K)
    (m : TreeMap K (TreeSet H)) (k : K) (h : H) :
    h ∈ (keys.foldl f m).getD k ∅ ↔ h ∈ m.getD k ∅ ∧ ¬(k ∈ keys ∧ h = owner) := by
  induction keys generalizing m with
  | nil => simp
  | cons key keys ih =>
    rw [List.foldl_cons, ih, hf, List.mem_cons]
    tauto

section Mirror

variable [TransOrd K] [LawfulEqOrd K] [TransOrd H] [LawfulEqOrd H]
  {byKey : TreeMap K (TreeSet H)} {byOwner : TreeMap H (TreeSet K)}

theorem Mirror.insert (hmirror : Mirror byKey byOwner) (k : K) (h : H) :
    Mirror (byKey.insert k ((byKey.getD k ∅).insert h)) (byOwner.insert h ((byOwner.getD h ∅).insert k)) := by
  intro k' h'
  have hpair := hmirror k' h'
  rw [TreeMap.getD_insert, TreeMap.getD_insert]
  split_ifs with hk hh hh
  · simp [← LawfulEqOrd.eq_of_compare hk, ← LawfulEqOrd.eq_of_compare hh]
  · obtain rfl := LawfulEqOrd.eq_of_compare hk
    rw [TreeSet.mem_insert, hpair]
    simp [hh]
  · obtain rfl := LawfulEqOrd.eq_of_compare hh
    rw [TreeSet.mem_insert, hpair]
    simp [hk]
  · exact hpair

/-- An owner that is taken from the sets of all its keys is gone from both sides. -/
theorem Mirror.erase {byKey' : TreeMap K (TreeSet H)} {owner : H} (hmirror : Mirror byKey byOwner)
    (hdrop : ∀ k h, h ∈ byKey'.getD k ∅ ↔ h ∈ byKey.getD k ∅ ∧ ¬(k ∈ (byOwner.getD owner ∅).toList ∧ h = owner)) :
    Mirror byKey' (byOwner.erase owner) := by
  intro k h
  rw [hdrop, TreeMap.getD_erase, TreeSet.mem_toList]
  have hpair := hmirror k h
  split_ifs with heq
  · obtain rfl := LawfulEqOrd.eq_of_compare heq
    simp [hpair]
  · have hne : h ≠ owner := by
      rintro rfl
      simp at heq
    simp [hpair, hne]

end Mirror

end HempCore.Lib
