import Mathlib.Tactic

/-!
# Patterns with a star

A text matches a pattern when it is the pattern with some string in the place of each star. The
lemmas say how this looks from the last symbols of the two, which is how a table is filled.
-/

set_option autoImplicit false

namespace HempCore.Lib.Glob

universe u

variable {α : Type u} {star a b : α} {pattern text : List α}

/-- What a symbol of a pattern may stand for. -/
def Stands (star a : α) (part : List α) : Prop := a = star ∨ part = [a]

/-- The text is put together from what the symbols of the pattern stand for. -/
def Matches (star : α) (pattern text : List α) : Prop :=
  ∃ parts : List (List α), List.Forall₂ (Stands star) pattern parts ∧ parts.flatten = text

theorem matches_nil : Matches star [] text ↔ text = [] := by
  simp [Matches, eq_comm]

theorem matches_concat : Matches star (pattern ++ [a]) text ↔
    ∃ front part, Matches star pattern front ∧ Stands star a part ∧ front ++ part = text := by
  constructor
  · rintro ⟨parts, hparts, rfl⟩
    rw [← List.forall₂_reverse_iff, List.reverse_append, List.reverse_singleton,
      List.singleton_append, List.forall₂_cons_left_iff] at hparts
    obtain ⟨part, rest, hpart, hrest, hrev⟩ := hparts
    rw [List.reverse_eq_iff, List.reverse_cons] at hrev
    refine ⟨rest.reverse.flatten, part, ⟨rest.reverse, ?_, rfl⟩, hpart, by simp [hrev]⟩
    exact List.forall₂_reverse_iff.mp (by rwa [List.reverse_reverse])
  · rintro ⟨_, part, ⟨parts, hparts, rfl⟩, hpart, rfl⟩
    exact ⟨parts ++ [part], List.rel_append hparts (.cons hpart .nil), by simp⟩

theorem matches_star_nil : Matches star (pattern ++ [star]) [] ↔ Matches star pattern [] := by
  simp [matches_concat, Stands]

/-- The star stands for nothing, or for a string that ends in the last symbol. -/
theorem matches_star_concat : Matches star (pattern ++ [star]) (text ++ [b]) ↔
    Matches star pattern (text ++ [b]) ∨ Matches star (pattern ++ [star]) text := by
  simp only [matches_concat, Stands, true_or, true_and]
  constructor
  · rintro ⟨front, part, hfront, heq⟩
    rcases part.eq_nil_or_concat' with rfl | ⟨part, last, rfl⟩
    · rw [List.append_nil] at heq
      exact .inl (heq ▸ hfront)
    · rw [← List.append_assoc] at heq
      exact .inr ⟨front, part, hfront, (List.append_inj' heq rfl).1⟩
  · rintro (hfront | ⟨front, part, hfront, rfl⟩)
    · exact ⟨_, [], hfront, List.append_nil _⟩
    · exact ⟨front, part ++ [b], hfront, (List.append_assoc ..).symm⟩

theorem not_matches_nil (ha : a ≠ star) : ¬Matches star (pattern ++ [a]) [] := by
  simp [matches_concat, Stands, ha]

theorem matches_symbol_concat (ha : a ≠ star) :
    Matches star (pattern ++ [a]) (text ++ [b]) ↔ a = b ∧ Matches star pattern text := by
  simp only [matches_concat, Stands, ha, false_or]
  constructor
  · rintro ⟨front, _, hfront, rfl, heq⟩
    obtain ⟨rfl, hb⟩ := List.append_inj' heq rfl
    exact ⟨List.singleton_inj.mp hb, hfront⟩
  · rintro ⟨rfl, htext⟩
    exact ⟨text, [a], htext, rfl, rfl⟩

end HempCore.Lib.Glob
