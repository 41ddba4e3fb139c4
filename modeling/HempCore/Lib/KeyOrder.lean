import Mathlib.Tactic

/-!
# Orders on composite keys

Ordered maps need a comparison that is transitive and separates distinct keys. Pairs compare
lexicographically; a record compares through an injective key.
-/

set_option autoImplicit false

namespace HempCore.Lib

open Std

universe u v

variable {α : Type u} {β : Type v}

instance instOrdProd [Ord α] [Ord β] : Ord (α × β) :=
  ⟨compareLex (compareOn Prod.fst) (compareOn Prod.snd)⟩

instance instTransOrdProd [Ord α] [Ord β] [TransOrd α] [TransOrd β] :
    TransOrd (α × β) :=
  inferInstanceAs (TransCmp (compareLex (compareOn Prod.fst) (compareOn Prod.snd)))

instance instLawfulEqOrdProd [Ord α] [Ord β] [LawfulEqOrd α] [LawfulEqOrd β] :
    LawfulEqOrd (α × β) where
  compare_self {a} := by
    simp [compare, compareLex, compareOn]
  eq_of_compare {a b} h := by
    simp only [compare, compareLex_eq_eq, compareOn] at h
    exact Prod.ext (LawfulEqOrd.eq_of_compare h.1) (LawfulEqOrd.eq_of_compare h.2)

theorem transOrd_of_key [Ord α] [Ord β] [TransOrd β] (key : α → β)
    (hcmp : ∀ a b : α, compare a b = compare (key a) (key b)) : TransOrd α where
  eq_swap {a b} := by
    rw [hcmp a b, hcmp b a]
    exact OrientedOrd.eq_swap
  isLE_trans {a b c} hab hbc := by
    rw [hcmp] at hab hbc ⊢
    exact TransOrd.isLE_trans hab hbc

theorem lawfulEqOrd_of_key [Ord α] [Ord β] [LawfulEqOrd β] (key : α → β) (hkey : Function.Injective key)
    (hcmp : ∀ a b : α, compare a b = compare (key a) (key b)) : LawfulEqOrd α where
  compare_self {a} := by
    rw [hcmp]
    exact ReflOrd.compare_self
  eq_of_compare {a b} h := by
    rw [hcmp] at h
    exact hkey (LawfulEqOrd.eq_of_compare h)

end HempCore.Lib
