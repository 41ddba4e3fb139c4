import Mathlib.Data.List.TakeWhile
import Mathlib.Tactic

/-!
# Searching a text

`indexOf` is the first place at which a pattern occurs in a text. A part of the text is `clear` of a
pattern when no occurrence can begin in it, whatever text follows.
-/

set_option autoImplicit false

namespace HempCore.Lib

universe u

variable {α : Type u} [DecidableEq α]

def indexOf (pattern : List α) : List α → Option Nat
  | [] => if pattern.isEmpty then some 0 else none
  | b :: s =>
    if pattern.isPrefixOf (b :: s) then some 0 else (indexOf pattern s).map (· + 1)

/-- No occurrence begins in the text, continued in any way. -/
def clear (pattern : List α) : List α → Bool
  | [] => true
  | b :: s =>
    !pattern.isPrefixOf (b :: s) && !(b :: s).isPrefixOf pattern && clear pattern s

variable {pattern a s t : List α} {q b : α}

theorem indexOf_append_of_clear (h : clear pattern a = true) (s : List α) :
    indexOf pattern (a ++ s) = (indexOf pattern s).map (· + a.length) := by
  induction a with
  | nil => simp
  | cons b a ih =>
    simp only [clear, Bool.and_eq_true, Bool.not_eq_true'] at h
    obtain ⟨⟨hpre, hext⟩, hrest⟩ := h
    have hmiss : pattern.isPrefixOf (b :: (a ++ s)) = false := by
      rw [Bool.eq_false_iff] at hpre hext ⊢
      intro hmatch
      rw [ne_eq, List.isPrefixOf_iff_prefix] at hpre hext
      have hwhole : b :: a <+: (b :: a) ++ s := List.prefix_append _ _
      exact (List.prefix_or_prefix_of_prefix (List.isPrefixOf_iff_prefix.mp hmatch) hwhole).elim hpre hext
    rw [List.cons_append, indexOf, hmiss, ih hrest]
    simp [Option.map_map, Function.comp_def, Nat.add_assoc]

/-- A text without the pattern's first character is clear of the pattern, but for what follows. -/
theorem indexOf_append_of_notMem (h : q ∉ a) (s : List α) :
    indexOf (q :: pattern) (a ++ s) = (indexOf (q :: pattern) s).map (· + a.length) := by
  refine indexOf_append_of_clear ?_ s
  induction a with
  | nil => rfl
  | cons b a ih =>
    simp only [List.mem_cons, not_or] at h
    simp [clear, List.isPrefixOf, h.1, Ne.symm h.1, ih h.2]

theorem indexOf_self (pattern s : List α) : indexOf pattern (pattern ++ s) = some 0 := by
  cases hp : pattern ++ s with
  | nil =>
    obtain ⟨rfl, rfl⟩ := List.append_eq_nil_iff.mp hp
    rfl
  | cons b t =>
    have hmatch : pattern.isPrefixOf (b :: t) = true := by
      rw [List.isPrefixOf_iff_prefix, ← hp]
      exact List.prefix_append _ _
    rw [indexOf, if_pos hmatch]

theorem indexOf_of_clear (h : clear pattern a = true) (s : List α) : indexOf pattern (a ++ (pattern ++ s)) = some a.length := by
  rw [indexOf_append_of_clear h, indexOf_self]
  simp

/-! ## Quoted words -/

def quoted (q : α) (word : List α) : List α := q :: word ++ [q]

/-- Behind a mark, a word up to the next one: there the quoted pattern occurs, or it does not. -/
theorem quoted_isPrefixOf_iff {word : List α} (hs : q ∉ s) (hword : q ∉ word) :
    (quoted q word).isPrefixOf (q :: (s ++ q :: t)) = true ↔ word = s := by
  rw [List.isPrefixOf_iff_prefix, quoted, List.cons_append, List.cons_prefix_cons]
  simp only [true_and]
  constructor
  · intro h
    induction word generalizing s with
    | nil =>
      cases s with
      | nil => rfl
      | cons c s =>
        rw [List.nil_append, List.cons_append, List.cons_prefix_cons] at h
        exact absurd (h.1 ▸ List.mem_cons_self) hs
    | cons c word ih =>
      cases s with
      | nil =>
        rw [List.nil_append, List.cons_append, List.cons_prefix_cons] at h
        exact absurd (h.1 ▸ List.mem_cons_self) hword
      | cons c' s =>
        rw [List.cons_append, List.cons_append, List.cons_prefix_cons] at h
        rw [h.1, ih (fun hmem => hs (List.mem_cons_of_mem _ hmem)) (fun hmem => hword (List.mem_cons_of_mem _ hmem)) h.2]
  · rintro rfl
    exact ⟨t, by simp⟩

/-- A quoted word other than the pattern is passed over, up to its closing mark. -/
theorem indexOf_quoted_of_ne {word : List α} (hs : q ∉ s) (hword : q ∉ word) (hne : word ≠ s) :
    indexOf (quoted q word) (q :: (s ++ q :: t)) = (indexOf (quoted q word) (q :: t)).map (· + (s.length + 1)) := by
  have hmiss : (quoted q word).isPrefixOf (q :: (s ++ q :: t)) = false :=
    Bool.eq_false_iff.mpr fun h => hne ((quoted_isPrefixOf_iff hs hword).mp h)
  rw [indexOf, hmiss]
  have hskip : indexOf (quoted q word) (s ++ q :: t) =
      (indexOf (quoted q word) (q :: t)).map (· + s.length) := indexOf_append_of_notMem hs _
  rw [hskip]
  simp [Option.map_map, Function.comp_def, Nat.add_assoc]

/-! ## Separators -/

/-- Two texts are cut at the first separator in the same way. -/
theorem append_cons_inj_of_notMem_left {a a' : List α} (h : q ∉ a) (h' : q ∉ a')
    (heq : a ++ q :: s = a' ++ q :: t) : a = a' ∧ s = t := by
  have hcut : ∀ {a : List α} (s : List α), q ∉ a → (a ++ q :: s).takeWhile (· ≠ q) = a := by
    intro a s ha
    rw [List.takeWhile_append_of_pos]
    · simp
    · intro b hb
      simp only [ne_eq, decide_not, Bool.not_eq_eq_eq_not, Bool.not_true, decide_eq_false_iff_not]
      rintro rfl
      exact ha hb
  have haa : a = a' := by rw [← hcut s h, heq, hcut t h']
  refine ⟨haa, ?_⟩
  rw [haa] at heq
  exact List.cons_injective (List.append_cancel_left heq)

/-! ## Pieces

A loop that reads up to the next separator and steps over it sees the parts of the text, except that
it does not see an empty one at the end. -/

def pieces (q : α) (s : List α) : List (List α) :=
  if s = [] then []
  else
    let w := s.takeWhile (· != q)
    w :: pieces q (s.drop (w.length + 1))
termination_by s.length
decreasing_by
  have hpos : 0 < s.length := List.length_pos_iff.mpr ‹_›
  rw [List.length_drop]
  omega

theorem pieces_nil (q : α) : pieces q [] = [] := by
  rw [pieces, if_pos rfl]

theorem pieces_of_ne_nil (q : α) (hs : s ≠ []) :
    pieces q s = s.takeWhile (· != q) :: pieces q (s.drop ((s.takeWhile (· != q)).length + 1)) := by
  rw [pieces, if_neg hs]

theorem splitOn_eq_pieces (q : α) (s : List α) : s.splitOn q = pieces q s ∨ s.splitOn q = pieces q s ++ [[]] := by
  induction hn : s.length using Nat.strong_induction_on generalizing s with
  | _ n ih =>
    by_cases hs : s = []
    · subst hs
      right
      simp [pieces_nil]
    rw [pieces_of_ne_nil q hs]
    have hw : q ∉ s.takeWhile (· != q) := by
      intro hmem
      simpa using List.mem_takeWhile_imp hmem
    have hsplit : s.takeWhile (· != q) ++ s.dropWhile (· != q) = s := List.takeWhile_append_dropWhile
    cases hrest : s.dropWhile (· != q) with
    | nil =>
      -- no separator is left
      rw [hrest, List.append_nil] at hsplit
      left
      rw [hsplit, List.drop_eq_nil_of_le (Nat.le_succ _), pieces_nil]
      rw [hsplit] at hw
      exact List.splitOn_eq_singleton hw
    | cons b rest =>
      have hb : b = q := by
        have hhead := List.head?_dropWhile_not (· != q) s
        rw [hrest] at hhead
        simpa using hhead
      subst hb
      rw [hrest] at hsplit
      generalize s.takeWhile (· != b) = w at hsplit hw ⊢
      subst hsplit
      have hdrop : (w ++ b :: rest).drop (w.length + 1) = rest := by
        rw [List.drop_append, List.drop_eq_nil_of_le (Nat.le_succ _)]
        simp
      rw [hdrop, List.splitOn_append_cons_self_of_not_mem hw]
      have hlt : rest.length < n := by
        rw [← hn, List.length_append, List.length_cons]
        omega
      rcases ih rest.length hlt rest rfl with h | h
      · exact .inl (by rw [h])
      · exact .inr (by rw [h, List.cons_append])

theorem length_splitOn (q : α) (s : List α) : (s.splitOn q).length = s.count q + 1 := by
  induction s with
  | nil => rfl
  | cons b s ih =>
    rw [List.splitOn_cons_eq_if_modifyHead, List.count_cons]
    split_ifs with hb
    · rw [List.length_cons, ih]
    · rw [List.length_modifyHead, ih]

/-- Parts that are not empty are read back. -/
theorem pieces_intercalate (q : α) {ls : List (List α)} (hls : ls ≠ [])
    (h : ∀ l ∈ ls, q ∉ l ∧ l ≠ []) : pieces q ([q].intercalate ls) = ls := by
  have hsplit := List.splitOn_intercalate q (fun l hl => (h l hl).1) hls
  rcases splitOn_eq_pieces q ([q].intercalate ls) with heq | heq
  · rw [← heq, hsplit]
  · rw [hsplit] at heq
    exact absurd rfl (h [] (by rw [heq]; simp)).2

/-- As many parts as the separators make: nothing was missed. -/
theorem intercalate_pieces (q : α) (h : (pieces q s).length = s.count q + 1) : [q].intercalate (pieces q s) = s := by
  rcases splitOn_eq_pieces q s with heq | heq
  · rw [← heq, List.intercalate_splitOn]
  · have hlength := congrArg List.length heq
    rw [length_splitOn, List.length_append, h] at hlength
    simp at hlength

end HempCore.Lib
