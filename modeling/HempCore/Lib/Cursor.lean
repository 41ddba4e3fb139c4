import Mathlib.Tactic

/-!
# Cursors over ordered keys

A database hands out its records in the byte order of their keys. A listing seeks to a key, walks
on while the records belong to it, leaves the first ones out and loads the next. The lemmas say
what such a walk loads, and that the records with one key prefix stand together.
-/

set_option autoImplicit false

namespace HempCore.Lib

universe u

variable {α : Type u}

/-! ## Loading -/

/-- Walks on while the records are of the table, skips matching ones and loads as many as wanted. -/
def loadPage (inTable isMatch : α → Bool) (skip count : Nat) : Nat → Nat → List α → List α
  | _, _, [] => []
  | offset, loaded, r :: rest =>
    if loaded < count then
      if inTable r then
        if isMatch r then
          if offset < skip then loadPage inTable isMatch skip count (offset + 1) loaded rest
          else r :: loadPage inTable isMatch skip count offset (loaded + 1) rest
        else loadPage inTable isMatch skip count offset loaded rest
      else []
    else []

theorem loadPage_eq (inTable isMatch : α → Bool) (skip count offset loaded : Nat) (l : List α) :
    loadPage inTable isMatch skip count offset loaded l =
      (((l.takeWhile inTable).filter isMatch).drop (skip - offset)).take (count - loaded) := by
  induction l generalizing offset loaded with
  | nil => simp [loadPage]
  | cons r rest ih =>
    rw [loadPage]
    by_cases hmore : loaded < count
    · rw [if_pos hmore]
      cases htable : inTable r with
      | false => simp [htable]
      | true =>
        rw [if_pos rfl, List.takeWhile_cons_of_pos htable]
        cases hmatch : isMatch r with
        | false =>
          rw [if_neg (by simp), ih, List.filter_cons_of_neg (by simp [hmatch])]
        | true =>
          rw [if_pos rfl, List.filter_cons_of_pos hmatch]
          by_cases hskip : offset < skip
          · rw [if_pos hskip, ih]
            have hleft : skip - offset = skip - (offset + 1) + 1 := by omega
            rw [hleft, List.drop_succ_cons]
          · have hzero : skip - offset = 0 := by omega
            have hone : count - loaded = count - (loaded + 1) + 1 := by omega
            rw [if_neg hskip, ih, hzero, hone, List.drop_zero, List.drop_zero, List.take_succ_cons]
    · have hzero : count - loaded = 0 := by omega
      rw [if_neg hmore, hzero, List.take_zero]

/-- The part of a list from a position on, which is counted from the end when it is negative. -/
def slice (start : Int) (count : Nat) (l : List α) : List α :=
  (l.drop (if 0 ≤ start then start else l.length + start).toNat).take count

/-- Some position before the end is meant unless the list is empty. -/
theorem slice_eq_nil_iff {start : Int} {count : Nat} {l : List α} (hstart : start < 0) :
    slice start count l = [] ↔ l = [] ∨ count = 0 := by
  have hpos : l ≠ [] → ((l.length : Int) + start).toNat < l.length := by
    intro hne
    have hlen := List.length_pos_iff.mpr hne
    omega
  rw [slice, if_neg (by omega), List.take_eq_nil_iff, List.drop_eq_nil_iff]
  constructor
  · rintro (hzero | hend)
    · exact .inr hzero
    · by_contra hne
      rw [not_or] at hne
      have hlt := hpos hne.1
      omega
  · rintro (rfl | rfl)
    · simp
    · exact .inl rfl

/-- Reading the loaded records is loading from what was read. -/
theorem filterMap_take_drop {β : Type*} {f : α → Option β} {l : List α} (h : ∀ a ∈ l, (f a).isSome = true)
    (skip count : Nat) : ((l.drop skip).take count).filterMap f = ((l.filterMap f).drop skip).take count := by
  induction l generalizing skip count with
  | nil => simp
  | cons a l ih =>
    obtain ⟨b, hb⟩ := Option.isSome_iff_exists.mp (h a List.mem_cons_self)
    have hrest := ih fun c hc => h c (List.mem_cons_of_mem a hc)
    rw [List.filterMap_cons_some hb]
    cases skip with
    | succ skip => exact hrest skip count
    | zero =>
      cases count with
      | zero => simp
      | succ count =>
        have htail := hrest 0 count
        rw [List.drop_zero, List.drop_zero] at htail
        rw [List.drop_zero, List.drop_zero, List.take_succ_cons, List.take_succ_cons, List.filterMap_cons_some hb, htail]

/-- Pages in a row make up the beginning of a list. -/
theorem flatMap_pages (l : List α) (size n : Nat) :
    (List.range n).flatMap (fun i => (l.drop (i * size)).take size) = l.take (n * size) := by
  induction n with
  | zero => simp
  | succ n ih =>
    rw [List.range_succ, List.flatMap_append, ih, List.flatMap_singleton, Nat.succ_mul, List.take_add]

/-! ## Seeking -/

section Seek

variable {l : List α} {p : α → Bool}

/-- What is before a record of a block belongs to it too: then the block is a prefix. -/
theorem takeWhile_eq_filter (h : l.Pairwise fun a b => p b = true → p a = true) : l.takeWhile p = l.filter p := by
  induction l with
  | nil => rfl
  | cons a l ih =>
    obtain ⟨hhead, htail⟩ := List.pairwise_cons.mp h
    cases ha : p a with
    | true => rw [List.takeWhile_cons_of_pos ha, List.filter_cons_of_pos ha, ih htail]
    | false =>
      have hnone : ∀ b ∈ l, ¬p b = true := by
        intro b hb hp
        rw [hhead b hb hp] at ha
        cases ha
      rw [List.takeWhile_cons_of_neg (by simp [ha]), List.filter_cons_of_neg (by simp [ha]),
        List.filter_eq_nil_iff.mpr hnone]

theorem filter_dropWhile {q : α → Bool} (h : ∀ a ∈ l, p a = true → q a = false) : (l.dropWhile q).filter p = l.filter p := by
  induction l with
  | nil => rfl
  | cons a l ih =>
    cases hq : q a with
    | false => rw [List.dropWhile_cons_of_neg (by simp [hq])]
    | true =>
      have hp : ¬p a = true := by
        intro hp
        rw [h a List.mem_cons_self hp] at hq
        cases hq
      rw [List.dropWhile_cons_of_pos hq, List.filter_cons_of_neg hp, ih fun b hb => h b (List.mem_cons_of_mem a hb)]

theorem not_of_mem_dropWhile {q : α → Bool} (h : l.Pairwise fun a b => q b = true → q a = true) :
    ∀ a ∈ l.dropWhile q, q a = false := by
  induction l with
  | nil => simp
  | cons a l ih =>
    obtain ⟨hhead, htail⟩ := List.pairwise_cons.mp h
    cases hq : q a with
    | true =>
      rw [List.dropWhile_cons_of_pos hq]
      exact ih htail
    | false =>
      rw [List.dropWhile_cons_of_neg (by simp [hq])]
      intro b hb
      rcases List.mem_cons.mp hb with rfl | hb
      · exact hq
      · by_contra hb'
        rw [hhead b hb (by simpa using hb')] at hq
        cases hq

end Seek

/-! ## Keys with a common beginning -/

section Keys

variable [LT α]

theorem isPrefix_of_between {s x y k : List α} (hlow : ¬k < s ++ x) (hhigh : k < s ++ y) : s <+: k := by
  induction s generalizing k with
  | nil => exact List.nil_prefix
  | cons a s ih =>
    cases k with
    | nil => exact absurd (List.nil_lt_cons a _) hlow
    | cons c k =>
      rw [List.cons_append, List.cons_lt_cons_iff] at hlow hhigh
      rw [not_or, not_and] at hlow
      rcases hhigh with hlt | ⟨rfl, hlt⟩
      · exact absurd hlt hlow.1
      · exact List.cons_prefix_cons.mpr ⟨rfl, ih (hlow.2 rfl) hlt⟩

end Keys

end HempCore.Lib
