import Mathlib.Tactic

/-!
# Nested text

A text over an alphabet with an opening and a closing bracket. `depth` counts the brackets a text
leaves open, and `outer` collects the characters outside every bracket: the ones a scanner looks at
when it splits a text at a separator.
-/

set_option autoImplicit false

namespace HempCore.Lib.Nesting

universe u

variable {α : Type u} [DecidableEq α] (l r : α)

/-- The brackets left open; negative when more are closed than opened. -/
def depth (s : List α) : ℤ := s.count l - s.count r

/-- The characters at depth `0`, brackets apart, of a text that starts at depth `d`. -/
def outer : ℤ → List α → List α
  | _, [] => []
  | d, b :: s =>
    if b = l then outer (d + 1) s
    else if b = r then outer (d - 1) s
    else if d = 0 then b :: outer d s
    else outer d s

@[simp] theorem depth_nil : depth l r [] = 0 := by simp [depth]

@[simp] theorem depth_append (s t : List α) : depth l r (s ++ t) = depth l r s + depth l r t := by
  simp only [depth, List.count_append]
  omega

theorem depth_cons (b : α) (s : List α) : depth l r (b :: s) = depth l r [b] + depth l r s := depth_append l r [b] s

variable {l r} {b op : α} {s t : List α} {d : ℤ} {ps : List (List α)}

theorem depth_open (h : l ≠ r) : depth l r [l] = 1 := by simp [depth, h]

theorem depth_close (h : l ≠ r) : depth l r [r] = -1 := by simp [depth, h.symm]

theorem depth_other (hl : b ≠ l) (hr : b ≠ r) : depth l r [b] = 0 := by simp [depth, hl, hr]

theorem depth_eq_zero_of_forall (hl : l ∉ s) (hr : r ∉ s) : depth l r s = 0 := by
  simp [depth, List.count_eq_zero_of_not_mem hl, List.count_eq_zero_of_not_mem hr]

/-- Nothing is opened, so the depth only tells whether something is closed. -/
theorem not_mem_close_of_depth (hl : l ∉ s) (h : depth l r s = 0) : r ∉ s := by
  rw [depth, List.count_eq_zero_of_not_mem hl] at h
  exact List.count_eq_zero.mp (by omega)

theorem outer_append (h : l ≠ r) (d : ℤ) (s t : List α) :
    outer l r d (s ++ t) = outer l r d s ++ outer l r (d + depth l r s) t := by
  induction s generalizing d with
  | nil => simp [outer]
  | cons b s ih =>
    rw [depth_cons, ← add_assoc]
    simp only [List.cons_append, outer]
    split_ifs with hl hr hd
    · rw [hl, depth_open h, ih]
    · rw [hr, depth_close h, ih, sub_eq_add_neg]
    · rw [depth_other hl hr, ih, add_zero, List.cons_append]
    · rw [depth_other hl hr, ih, add_zero]

theorem outer_eq_self (hl : l ∉ s) (hr : r ∉ s) : outer l r 0 s = s := by
  induction s with
  | nil => rfl
  | cons b s ih =>
    simp only [List.mem_cons, not_or] at hl hr
    simp [outer, Ne.symm hl.1, Ne.symm hr.1, ih hl.2 hr.2]

theorem outer_eq_nil (hl : l ∉ s) (hr : r ∉ s) (hd : d ≠ 0) : outer l r d s = [] := by
  induction s with
  | nil => rfl
  | cons b s ih =>
    simp only [List.mem_cons, not_or] at hl hr
    simp [outer, Ne.symm hl.1, Ne.symm hr.1, hd, ih hl.2 hr.2]

/-! ## Lists of balanced pieces -/

omit [DecidableEq α] in
theorem intercalate_concat {sep : List α} (ps : List (List α)) (p : List α) :
    sep.intercalate (ps ++ [p]) = ps.flatMap (· ++ sep) ++ p := by
  induction ps with
  | nil => simp
  | cons q ps ih =>
    rw [List.cons_append, List.intercalate_cons_of_ne_nil (by simp), ih]
    simp

theorem depth_intercalate (hop : op ≠ l ∧ op ≠ r) (hps : ∀ p ∈ ps, depth l r p = 0) : depth l r ([op].intercalate ps) = 0 := by
  induction ps with
  | nil => simp
  | cons p ps ih =>
    have hp := hps p List.mem_cons_self
    have hrest := ih fun q hq => hps q (List.mem_cons_of_mem _ hq)
    cases ps with
    | nil => simpa using hp
    | cons q ps =>
      rw [List.intercalate_cons_cons, depth_append, depth_append, hrest, hp, depth_other hop.1 hop.2]
      rfl

theorem mem_outer_intercalate (h : l ≠ r) (hop : op ≠ l ∧ op ≠ r) (hps : ∀ p ∈ ps, depth l r p = 0) :
    b ∈ outer l r 0 ([op].intercalate ps) ↔ (b = op ∧ 2 ≤ ps.length) ∨ ∃ p ∈ ps, b ∈ outer l r 0 p := by
  induction ps with
  | nil => simp [outer]
  | cons p ps ih =>
    have hp := hps p List.mem_cons_self
    have hrest := ih fun q hq => hps q (List.mem_cons_of_mem _ hq)
    cases ps with
    | nil => simp
    | cons q ps =>
      have hsep : outer l r 0 [op] = [op] := by simp [outer, hop.1, hop.2]
      rw [List.intercalate_cons_cons, outer_append h, outer_append h, depth_append, hp, depth_other hop.1 hop.2,
        add_zero, add_zero, hsep, List.mem_append, List.mem_append, hrest, List.mem_singleton]
      simp only [List.length_cons, List.mem_cons, exists_eq_or_imp]
      constructor
      · rintro ((hb | hb) | ⟨hb, -⟩ | hb)
        · exact .inr (.inl hb)
        · exact .inl ⟨hb, by omega⟩
        · exact .inl ⟨hb, by omega⟩
        · exact .inr (.inr hb)
      · rintro (⟨hb, -⟩ | hb | hb)
        · exact .inl (.inr hb)
        · exact .inl (.inl hb)
        · exact .inr (.inr hb)

omit [DecidableEq α] in
theorem mem_intercalate_of_mem {p : List α} (hp : p ∈ ps) (hb : b ∈ p) : b ∈ [op].intercalate ps := by
  induction ps with
  | nil => cases hp
  | cons q ps ih =>
    cases ps with
    | nil =>
      rw [List.intercalate_singleton]
      rwa [← List.mem_singleton.mp hp]
    | cons q' ps =>
      rw [List.intercalate_cons_cons]
      rcases List.mem_cons.mp hp with rfl | hp
      · simp [hb]
      · simp [ih hp]

omit [DecidableEq α] in
theorem length_lt_intercalate (op : α) {p : List α} (hp : p ∈ ps) (hlen : 2 ≤ ps.length) :
    p.length < ([op].intercalate ps).length := by
  induction ps with
  | nil => cases hp
  | cons q ps ih =>
    cases ps with
    | nil => simp at hlen
    | cons q' ps =>
      rw [List.intercalate_cons_cons, List.length_append, List.length_append, List.length_singleton]
      rcases List.mem_cons.mp hp with rfl | hp
      · omega
      · cases ps with
        | nil =>
          rw [List.mem_singleton.mp hp, List.intercalate_singleton]
          omega
        | cons q'' ps =>
          have := ih hp (by simp)
          omega

/-! ## Enclosed texts -/

/-- A balanced text of which nothing is outside when it stands inside a bracket. -/
structure Enclosed (l r : α) (s : List α) : Prop where
  balanced : depth l r s = 0
  inside : ∀ d, 0 < d → outer l r d s = []

namespace Enclosed

theorem of_notMem (hl : l ∉ s) (hr : r ∉ s) : Enclosed l r s :=
  ⟨depth_eq_zero_of_forall hl hr, fun _ hd => outer_eq_nil hl hr hd.ne'⟩

variable (h : l ≠ r)

include h

theorem append (hs : Enclosed l r s) (ht : Enclosed l r t) : Enclosed l r (s ++ t) := by
  refine ⟨by rw [depth_append, hs.balanced, ht.balanced, add_zero], fun d hd => ?_⟩
  rw [outer_append h, hs.balanced, add_zero, hs.inside d hd, ht.inside d hd, List.append_nil]

theorem intercalate (hop : op ≠ l ∧ op ≠ r) (hps : ∀ p ∈ ps, Enclosed l r p) : Enclosed l r ([op].intercalate ps) := by
  induction ps with
  | nil => exact of_notMem (by simp) (by simp)
  | cons p ps ih =>
    have hp := hps p List.mem_cons_self
    have hrest := ih fun q hq => hps q (List.mem_cons_of_mem _ hq)
    cases ps with
    | nil => simpa using hp
    | cons q ps =>
      rw [List.intercalate_cons_cons]
      have hsep : Enclosed l r [op] := of_notMem (by simpa using Ne.symm hop.1) (by simpa using Ne.symm hop.2)
      exact (hp.append h hsep).append h hrest

theorem outer_bracket (hs : Enclosed l r s) {d : ℤ} (hd : 0 ≤ d) : outer l r d (l :: (s ++ [r])) = [] := by
  have hinside : outer l r (d + 1) (s ++ [r]) = [] := by
    rw [outer_append h, hs.inside _ (by omega)]
    simp [outer, h.symm]
  simpa [outer] using hinside

theorem bracket (hs : Enclosed l r s) : Enclosed l r (l :: (s ++ [r])) := by
  refine ⟨?_, fun d hd => hs.outer_bracket h hd.le⟩
  rw [depth_cons, depth_append, hs.balanced, depth_open h, depth_close h]
  rfl

end Enclosed

end HempCore.Lib.Nesting
