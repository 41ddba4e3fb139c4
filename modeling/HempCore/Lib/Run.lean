import Mathlib.Tactic

/-!
# Runs of a partial step function

A run takes one action after another and stops at the first that is refused. `Along` says that
every step taken meets a condition on the state it is taken in.
-/

set_option autoImplicit false

namespace HempCore.Lib

universe u v

variable {S : Type u} {A : Type v} (step : S → A → Option S) {P : S → A → Prop} {as : List A}

/-- Every action of the list is taken in a state where the condition holds. -/
def Along (P : S → A → Prop) : S → List A → Prop
  | _, [] => True
  | s, a :: as => P s a ∧ ∀ s', step s a = some s' → Along P s' as

variable {step}

/-- The steps of a run are looked at one after another. -/
instance Along.decidable {P : S → A → Prop} [∀ s a, Decidable (P s a)] :
    ∀ (s : S) (as : List A), Decidable (Along step P s as)
  | _, [] => isTrue trivial
  | s, a :: as =>
    match hstep : step s a with
    | none => decidable_of_iff (P s a) ⟨fun h => ⟨h, fun s' hs' => by cases hstep.symm.trans hs'⟩, fun h => h.1⟩
    | some t =>
      have := Along.decidable (P := P) t as
      decidable_of_iff (P s a ∧ Along step P t as)
        ⟨fun h => ⟨h.1, fun s' hs' => Option.some.inj (hstep.symm.trans hs') ▸ h.2⟩,
          fun h => ⟨h.1, h.2 t hstep⟩⟩

theorem Along.imp {Q : S → A → Prop} (h : ∀ s a, P s a → Q s a) {s : S}
    (halong : Along step P s as) : Along step Q s as := by
  induction as generalizing s with
  | nil => trivial
  | cons a as ih => exact ⟨h s a halong.1, fun s' hstep => ih (halong.2 s' hstep)⟩

/-- What every step keeps, every run keeps. -/
theorem run_invariant {I : S → Prop} (hstep : ∀ s a s', I s → P s a → step s a = some s' → I s')
    {s s' : S} (hs : I s) (halong : Along step P s as) (hrun : as.foldlM step s = some s') : I s' := by
  induction as generalizing s with
  | nil =>
    rw [List.foldlM_nil] at hrun
    cases hrun
    exact hs
  | cons a as ih =>
    rw [List.foldlM_cons] at hrun
    obtain ⟨t, hstept, hrest⟩ := Option.bind_eq_some_iff.mp hrun
    exact ih (hstep s a t hs halong.1 hstept) (halong.2 t hstept) hrest

/-- The actions of a run are those of the list. -/
theorem Along.and_mem {s : S} (h : Along step P s as) :
    Along step (fun s a => P s a ∧ a ∈ as) s as := by
  suffices hsub : ∀ (bs : List A) (s : S), (∀ b ∈ bs, b ∈ as) → Along step P s bs →
      Along step (fun s a => P s a ∧ a ∈ as) s bs from hsub as s (fun _ hb => hb) h
  intro bs
  induction bs with
  | nil => intros; trivial
  | cons b bs ih =>
    intro s hsub hbs
    exact ⟨⟨hbs.1, hsub b List.mem_cons_self⟩, fun s' hstep =>
      ih s' (fun c hc => hsub c (List.mem_cons_of_mem b hc)) (hbs.2 s' hstep)⟩

/-- A condition that follows from what the steps keep holds along every run. -/
theorem along_of_invariant {I : S → Prop} (hstep : ∀ s, ∀ a ∈ as, ∀ s', I s → step s a = some s' → I s')
    (h : ∀ s, ∀ a ∈ as, I s → P s a) {s : S} (hs : I s) : Along step P s as := by
  induction as generalizing s with
  | nil => trivial
  | cons a as ih =>
    refine ⟨h s a List.mem_cons_self hs, fun s' hstep' => ?_⟩
    exact ih (fun t b hb => hstep t b (List.mem_cons_of_mem a hb))
      (fun t b hb => h t b (List.mem_cons_of_mem a hb)) (hstep s a List.mem_cons_self s' hs hstep')

end HempCore.Lib
