import Mathlib.Tactic

/-!
# Chains of checks

A validator is a computation in `Except`: it goes on while its conditions hold and stops at the
first one that fails. These lemmas turn "the validator accepts" into the conjunction of its
conditions, and give the invariant rule for a loop of checks.
-/

set_option autoImplicit false

namespace HempCore.Lib

universe u v w

variable {ε : Type u} {α β σ : Type v} {f : σ → α → Except ε σ} {l : List α}

/-- Stops with `e` unless the condition holds. -/
def require (c : Bool) (e : ε) : Except ε PUnit.{v + 1} := if c then .ok ⟨⟩ else .error e

/-- Stops with `e` unless there is a value. -/
def demand (o : Option α) (e : ε) : Except ε α :=
  match o with
  | some a => .ok a
  | none => .error e

/-- Runs a check only under a condition. -/
def onlyWhen (c : Bool) (x : Except ε PUnit.{v + 1}) : Except ε PUnit.{v + 1} :=
  if c then x else .ok ⟨⟩

/-- Renames the error of a check. -/
def orElseError {ε' : Type w} (f : ε → ε') : Except ε α → Except ε' α
  | .ok a => .ok a
  | .error e => .error (f e)

@[simp] theorem require_eq_ok {c : Bool} {e : ε} {u : PUnit} : require c e = .ok u ↔ c = true := by
  cases c <;> simp [require]

@[simp] theorem demand_eq_ok {o : Option α} {e : ε} {a : α} : demand o e = .ok a ↔ o = some a := by
  cases o <;> simp [demand]

@[simp] theorem onlyWhen_eq_ok {c : Bool} {x : Except ε PUnit} {u : PUnit} : onlyWhen c x = .ok u ↔ (c = true → x = .ok u) := by
  cases c <;> simp [onlyWhen]

@[simp] theorem orElseError_eq_ok {ε' : Type w} {f : ε → ε'} {x : Except ε α} {a : α} : orElseError f x = .ok a ↔ x = .ok a := by
  cases x <;> simp [orElseError]

@[simp] theorem bind_eq_ok {x : Except ε α} {f : α → Except ε β} {b : β} : (x >>= f) = .ok b ↔ ∃ a, x = .ok a ∧ f a = .ok b := by
  cases x with
  | error e => simp [bind, Except.bind]
  | ok a => simp [bind, Except.bind]

@[simp] theorem exists_punit {p : PUnit → Prop} : (∃ u, p u) ↔ p ⟨⟩ := ⟨fun ⟨⟨⟩, h⟩ => h, fun h => ⟨⟨⟩, h⟩⟩

@[simp] theorem pure_eq_ok {a b : α} : (pure a : Except ε α) = .ok b ↔ a = b := by
  simp [pure, Except.pure]

@[simp] theorem ite_error_eq_ok {c : Prop} [Decidable c] {e : ε} {x : Except ε α} {a : α} :
    (if c then .error e else x) = .ok a ↔ ¬c ∧ x = .ok a := by
  by_cases h : c <;> simp [h]

/-- The loop rule: an invariant of the part already read and the accumulator, kept by every
accepted iteration, holds of the whole list after an accepted loop. -/
theorem foldlM_prefix_invariant (I : List α → σ → Prop)
    (hstep : ∀ pre s s' a, a ∈ l → I pre s → f s a = .ok s' → I (pre ++ [a]) s')
    (pre : List α) {s s' : σ} (hs : I pre s) (h : l.foldlM f s = .ok s') : I (pre ++ l) s' := by
  induction l generalizing pre s with
  | nil =>
    rw [List.foldlM_nil, pure_eq_ok] at h
    simpa [h] using hs
  | cons a l ih =>
    rw [List.foldlM_cons, bind_eq_ok] at h
    obtain ⟨t, ht, h⟩ := h
    have hpre := hstep pre s t a List.mem_cons_self hs ht
    simpa using ih (fun pre s s' b hb => hstep pre s s' b (List.mem_cons_of_mem a hb)) _ hpre h

/-- The loop rule for an invariant of the accumulator alone. -/
theorem foldlM_invariant (I : σ → Prop)
    (hstep : ∀ s s' a, a ∈ l → I s → f s a = .ok s' → I s') {s s' : σ} (hs : I s) (h : l.foldlM f s = .ok s') : I s' :=
  foldlM_prefix_invariant (fun _ => I) (fun _ => hstep) [] hs h

/-- The loop rule for a loop that may stop without an error; a step knows what has been read and what
is still to come. -/
theorem foldlM_some_split_invariant {f : σ → α → Option σ} (I : List α → σ → Prop)
    (hstep : ∀ pre a post s s', l = pre ++ a :: post → I pre s → f s a = some s' → I (pre ++ [a]) s')
    {s s' : σ} (hs : I [] s) (h : l.foldlM f s = some s') : I l s' := by
  have hloop : ∀ rest pre s, l = pre ++ rest → I pre s → rest.foldlM f s = some s' → I l s' := by
    intro rest
    induction rest with
    | nil =>
      intro pre s hl hs h
      rw [List.foldlM_nil] at h
      cases h
      rwa [hl, List.append_nil]
    | cons a rest ih =>
      intro pre s hl hs h
      rw [List.foldlM_cons] at h
      obtain ⟨t, ht, h⟩ := Option.bind_eq_some_iff.mp h
      exact ih (pre ++ [a]) t (by rw [hl, List.append_assoc]; rfl) (hstep pre a rest s t hl hs ht) h
  exact hloop l [] s rfl hs h

theorem foldlM_some_invariant {f : σ → α → Option σ} (I : σ → Prop)
    (hstep : ∀ s s' a, a ∈ l → I s → f s a = some s' → I s') {s s' : σ} (hs : I s)
    (h : l.foldlM f s = some s') : I s' :=
  foldlM_some_split_invariant (fun _ => I) (fun pre a post s s' hl => hstep s s' a (by rw [hl]; simp)) hs h

/-- A loop that adds up weights and checks each sum it forms: it returns the total, and no sum of
the first so many weights left the range. -/
theorem foldlM_boundedSum {α : Type} {f : Int → α → Except ε Int} {l : List α} {w : α → Int}
    {R : Int → Prop} (hzero : R 0) (hstep : ∀ s s' a, a ∈ l → f s a = .ok s' → s' = s + w a ∧ R s') {t : Int}
    (h : l.foldlM f 0 = .ok t) : t = (l.map w).sum ∧ ∀ k, R ((l.take k).map w).sum := by
  have hnil : (0 : Int) = (([] : List α).map w).sum ∧ ∀ k, R ((([] : List α).take k).map w).sum := by simpa using hzero
  refine foldlM_prefix_invariant (fun read s => s = (read.map w).sum ∧ ∀ k, R ((read.take k).map w).sum) ?_ [] hnil h
  rintro read s s' a ha ⟨rfl, hread⟩ hs
  obtain ⟨rfl, hrange⟩ := hstep _ s' a ha hs
  refine ⟨by simp, fun k => ?_⟩
  rcases Nat.lt_or_ge k (read.length + 1) with hk | hk
  · rw [List.take_append_of_le_length (Nat.lt_succ_iff.mp hk)]
    exact hread k
  · rw [List.take_of_length_le (by simpa using hk)]
    simpa using hrange

theorem foldlM_step_of_mem {s s' : σ} {a : α} (ha : a ∈ l) (h : l.foldlM f s = .ok s') : ∃ t t', f t a = .ok t' := by
  induction l generalizing s with
  | nil => cases ha
  | cons b l ih =>
    rw [List.foldlM_cons, bind_eq_ok] at h
    obtain ⟨t, ht, h⟩ := h
    rcases List.mem_cons.mp ha with rfl | ha
    · exact ⟨s, t, ht⟩
    · exact ih ha h

@[simp] theorem forM_eq_ok {f : α → Except ε PUnit} {u : PUnit} : forM l f = .ok u ↔ ∀ a ∈ l, f a = .ok ⟨⟩ := by
  induction l with
  | nil => simp
  | cons a l ih => simp [ih]

end HempCore.Lib
