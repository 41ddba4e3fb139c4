import Mathlib.Tactic

/-!
# Sums of flagged values

A vector of flags chooses some of the values of a list; `chosenSum` is what they add up to.
-/

set_option autoImplicit false

namespace HempCore.Lib

universe u

variable {α : Type u}

def chosen (values : List α) (flags : List Bool) : List α :=
  (values.zip flags).filterMap fun p => if p.2 then some p.1 else none

def chosenSum (values : List Int) (flags : List Bool) : Int := (chosen values flags).sum

variable {values : List Int} {flags : List Bool}

theorem chosen_cons (v : α) (values : List α) (b : Bool) (flags : List Bool) :
    chosen (v :: values) (b :: flags) = if b then v :: chosen values flags else chosen values flags := by
  cases b <;> rfl

theorem chosen_map (f : α → Int) (values : List α) (flags : List Bool) :
    (chosen values flags).map f = chosen (values.map f) flags := by
  induction values generalizing flags with
  | nil => rfl
  | cons v values ih =>
    cases flags with
    | nil => rfl
    | cons b flags =>
      rw [chosen_cons, List.map_cons, chosen_cons, ← ih]
      cases b <;> rfl

theorem chosen_sublist (values : List α) (flags : List Bool) : List.Sublist (chosen values flags) values := by
  induction values generalizing flags with
  | nil => exact List.Sublist.slnil
  | cons v values ih =>
    cases flags with
    | nil => exact List.nil_sublist _
    | cons b flags =>
      rw [chosen_cons]
      cases b with
      | true => exact (ih flags).cons_cons v
      | false => exact (ih flags).cons v

theorem chosenSum_all (values : List Int) : chosenSum values (List.replicate values.length true) = values.sum := by
  induction values with
  | nil => rfl
  | cons v values ih =>
    rw [List.length_cons, List.replicate_succ, chosenSum, chosen_cons, if_pos rfl, List.sum_cons, List.sum_cons, ← ih, chosenSum]

theorem chosenSum_none (values : List Int) : chosenSum values (List.replicate values.length false) = 0 := by
  induction values with
  | nil => rfl
  | cons v values ih =>
    rw [List.length_cons, List.replicate_succ, chosenSum, chosen_cons]
    exact ih

theorem chosenSum_set {i : Nat} (hi : i < flags.length) (hlen : flags.length = values.length)
    (b : Bool) : chosenSum values (flags.set i b) = chosenSum values flags -
      (if flags.getD i false then values.getD i 0 else 0) + if b then values.getD i 0 else 0 := by
  induction values generalizing flags i with
  | nil =>
    rw [List.length_nil] at hlen
    omega
  | cons v values ih =>
    obtain ⟨c, flags, rfl⟩ := List.exists_cons_of_length_pos (Nat.zero_lt_of_lt hi)
    rw [List.length_cons, List.length_cons, Nat.add_right_cancel_iff] at hlen
    cases i with
    | zero =>
      simp only [chosenSum, List.set_cons_zero, chosen_cons, List.getD_cons_zero]
      cases b <;> cases c <;> simp [add_comm]
    | succ i =>
      have hrest := ih (Nat.lt_of_succ_lt_succ hi) hlen
      simp only [chosenSum] at hrest
      simp only [chosenSum, List.set_cons_succ, chosen_cons, List.getD_cons_succ]
      cases c with
      | true =>
        simp only [if_true, List.sum_cons, hrest]
        ring
      | false => simpa using hrest

end HempCore.Lib
