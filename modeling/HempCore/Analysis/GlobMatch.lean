import HempCore.Lib.Glob
import HempCore.Model.Messages

/-!
# Patterns for channels

`GlobMatchChannel` fills a table from the beginnings of the pattern and the channel. The entries
that were written agree with the meaning of the pattern, and so does the last one.
-/

set_option autoImplicit false

namespace HempCore

open Lib.Glob

section Table

variable {pattern channel : Bytes} {dp : GlobTable} {Done : Nat → Nat → Prop} {i j k : Nat}

/-- The entries that are done say which beginnings match, and all others are `false`. -/
def Filled (pattern channel : Bytes) (Done : Nat → Nat → Prop) (dp : GlobTable) : Prop :=
  ∀ i j, i ≤ pattern.length → j ≤ channel.length →
    (dp i j = true ↔ Done i j ∧ Matches 42 (pattern.take i) (channel.take j))

theorem Filled.congr {Done' : Nat → Nat → Prop} (h : Filled pattern channel Done dp)
    (hdone : ∀ i j, i ≤ pattern.length → j ≤ channel.length → (Done i j ↔ Done' i j)) :
    Filled pattern channel Done' dp := by
  intro i j hi hj
  rw [h i j hi hj, hdone i j hi hj]

theorem Filled.set {value : Bool} (h : Filled pattern channel Done dp)
    (hvalue : value = true ↔ Matches 42 (pattern.take i) (channel.take j)) :
    Filled pattern channel (fun i' j' => Done i' j' ∨ i' = i ∧ j' = j) (dp.set i j value) := by
  intro i' j' hi' hj'
  by_cases hat : i' = i ∧ j' = j
  · obtain ⟨rfl, rfl⟩ := hat
    simp [GlobTable.set, hvalue]
  · simp [GlobTable.set, hat, h i' j' hi' hj']

/-- An entry that is not written stays `false`. -/
theorem Filled.skip (h : Filled pattern channel Done dp) (hno : ¬Matches 42 (pattern.take i) (channel.take j)) :
    Filled pattern channel (fun i' j' => Done i' j' ∨ i' = i ∧ j' = j) dp := by
  intro i' j' hi' hj'
  rw [h i' j' hi' hj', or_and_right]
  refine (or_iff_left ?_).symm
  rintro ⟨⟨rfl, rfl⟩, hmatch⟩
  exact hno hmatch

theorem filled_start : Filled pattern channel (fun i _ => i = 0) (GlobTable.set (fun _ _ => false) 0 0 true) := by
  intro i j hi hj
  cases i with
  | succ i => simp [GlobTable.set]
  | zero =>
    rw [List.take_zero, matches_nil, List.take_eq_nil_iff]
    simp only [GlobTable.set, true_and, Bool.if_false_right, Bool.and_true, decide_eq_true_eq]
    refine ⟨.inl, fun h => h.elim id ?_⟩
    rintro rfl
    exact Nat.le_zero.mp hj

theorem filled_globColumn (hi : i < pattern.length) (h : Filled pattern channel Done dp) (hdone : Done i 0) :
    Filled pattern channel (fun i' j' => Done i' j' ∨ i' = i + 1 ∧ j' = 0) (globColumn pattern dp i) := by
  have htake : pattern.take (i + 1) = pattern.take i ++ [pattern[i]] := List.take_succ_eq_append_getElem hi
  unfold globColumn
  simp only [List.getElem?_eq_getElem hi, Option.some_inj]
  split
  · rename_i hstar
    refine h.set ?_
    rw [h i 0 hi.le (Nat.zero_le _), and_iff_right hdone, htake, hstar, List.take_zero, matches_star_nil]
  · rename_i hstar
    refine h.skip ?_
    rw [htake, List.take_zero]
    exact not_matches_nil hstar

/-- One more entry of a row, once the row above and the entry before it are done. -/
theorem filled_globCell (hi : i < pattern.length) (hj : j < channel.length)
    (h : Filled pattern channel Done dp) (habove : ∀ j, Done i j) (hbefore : Done (i + 1) j) :
    Filled pattern channel (fun i' j' => Done i' j' ∨ i' = i + 1 ∧ j' = j + 1) (globCell pattern channel i dp j) := by
  have hpattern : pattern.take (i + 1) = pattern.take i ++ [pattern[i]] := List.take_succ_eq_append_getElem hi
  have hchannel : channel.take (j + 1) = channel.take j ++ [channel[j]] := List.take_succ_eq_append_getElem hj
  unfold globCell
  simp only [List.getElem?_eq_getElem hi, List.getElem?_eq_getElem hj, Option.some_inj]
  split
  · rename_i hstar
    refine h.set ?_
    rw [Bool.or_eq_true, h i (j + 1) hi.le hj, h (i + 1) j hi hj.le, and_iff_right (habove _),
      and_iff_right hbefore, hpattern, hstar, hchannel, matches_star_concat]
  · rename_i hstar
    have hcell : Matches 42 (pattern.take (i + 1)) (channel.take (j + 1)) ↔
        pattern[i] = channel[j] ∧ Matches 42 (pattern.take i) (channel.take j) := by
      rw [hpattern, hchannel, matches_symbol_concat hstar]
    split
    · rename_i heq
      refine h.set ?_
      rw [h i j hi.le hj.le, and_iff_right (habove j), hcell, and_iff_right heq]
    · rename_i hne
      exact h.skip fun hmatch => hne (hcell.mp hmatch).1

theorem filled_column (hk : k ≤ pattern.length) (h : Filled pattern channel (fun i _ => i = 0) dp) :
    Filled pattern channel (fun i j => i = 0 ∨ j = 0 ∧ i ≤ k) ((List.range k).foldl (globColumn pattern) dp) := by
  induction k with
  | zero => exact h.congr (by omega)
  | succ k ih =>
    rw [List.range_succ, List.foldl_concat]
    exact (filled_globColumn hk (ih (by omega)) (by omega)).congr (by omega)

theorem filled_row (hi : i < pattern.length) (hk : k ≤ channel.length)
    (h : Filled pattern channel (fun i' j' => i' ≤ i ∨ j' = 0) dp) :
    Filled pattern channel (fun i' j' => i' ≤ i ∨ j' = 0 ∨ i' = i + 1 ∧ j' ≤ k)
      ((List.range k).foldl (globCell pattern channel i) dp) := by
  induction k with
  | zero => exact h.congr (by omega)
  | succ k ih =>
    rw [List.range_succ, List.foldl_concat]
    exact (filled_globCell hi hk (ih (by omega)) (by omega) (by omega)).congr (by omega)

theorem filled_rows (hk : k ≤ pattern.length) (h : Filled pattern channel (fun i j => i ≤ 0 ∨ j = 0) dp) :
    Filled pattern channel (fun i j => i ≤ k ∨ j = 0) ((List.range k).foldl
      (fun dp i => (List.range channel.length).foldl (globCell pattern channel i) dp) dp) := by
  induction k with
  | zero => exact h
  | succ k ih =>
    rw [List.range_succ, List.foldl_concat]
    exact (filled_row hk le_rfl (ih (by omega))).congr (by omega)

end Table

/-- A channel is found by a pattern exactly when the pattern is empty or the channel is the pattern
with some string in the place of each star. -/
theorem globMatchChannel_iff (pattern channel : Bytes) :
    globMatchChannel pattern channel = true ↔ pattern = [] ∨ Matches 42 pattern channel := by
  unfold globMatchChannel
  split
  · rename_i hempty
    simp [List.isEmpty_iff.mp hempty]
  · rename_i hne
    have hcolumn := filled_column le_rfl (@filled_start pattern channel)
    have hrows := filled_rows le_rfl (hcolumn.congr (by omega))
    rw [hrows _ _ le_rfl le_rfl, List.take_length, List.take_length]
    simp [List.isEmpty_iff.not.mp hne]

end HempCore
