import HempCore.Analysis.VerifierParser

/-!
# The language of verifier strings

`LibBoolEE.h` describes formulas over names, `!`, `&`, `|` and brackets, and says that nothing else
is one. The parser accepts more: where it looks for the first operand of a list with several, it
passes over anything that starts no operand. `Loose` is the language it accepts, `Generates` the
language described, and the two differ exactly at operands that do not start where they should.
-/

set_option autoImplicit false

namespace HempCore

open LibBoolEE Lib.Nesting

/-! ## The two languages -/

/-- The symbols of the grammar of `LibBoolEE.h`. -/
inductive Symbol where
  | expr
  | term
  | factor

/-- A name of the grammar: `#` in front of it is a qualifier. -/
def isVerifierName (n : Bytes) : Prop :=
  (∀ b ∈ n, isNameChar b = true) ∧ isQualifierNameValid (qualifierChar :: n) = true

/-- The grammar: `E := T ('|' T)*`, `T := F ('&' F)*`, `F := '!' F | '(' E ')' | name`. What
surrounds a name in a formula is no name character, so the names are maximal runs. -/
inductive Generates : Symbol → Bytes → Prop
  | expr {ts : List Bytes} (hne : ts ≠ []) (hts : ∀ t ∈ ts, Generates .term t) :
      Generates .expr ([124].intercalate ts)
  | term {fs : List Bytes} (hne : fs ≠ []) (hfs : ∀ f ∈ fs, Generates .factor f) :
      Generates .term ([38].intercalate fs)
  | not {f : Bytes} (hf : Generates .factor f) : Generates .factor (33 :: f)
  | paren {e : Bytes} (he : Generates .expr e) : Generates .factor (40 :: (e ++ [41]))
  | name {n : Bytes} (hn : isVerifierName n) : Generates .factor n

/-- The levels of the language the parser accepts. -/
inductive Level where
  | formula
  | operand
  | term
  | factor

/-- The language the parser accepts. A list of several operands may stand behind skipped text; the
list of an operand of `|` only behind `&`s, the one operator that is not looked at there. -/
inductive Loose : Level → Bytes → Prop
  | disjunction {J t : Bytes} {ts : List Bytes} (hJ : ∀ b ∈ J, isSkipped b = true) (hne : ts ≠ [])
      (ht : Loose .term t) (hts : ∀ t ∈ ts, Loose .operand t) :
      Loose .formula (J ++ [124].intercalate (t :: ts))
  | conjunction {J : Bytes} {fs : List Bytes} (hJ : ∀ b ∈ J, isSkipped b = true)
      (hlen : 2 ≤ fs.length) (hfs : ∀ f ∈ fs, Loose .factor f) :
      Loose .formula (J ++ [38].intercalate fs)
  | single {t : Bytes} (ht : Loose .term t) : Loose .formula t
  | behind {n : Nat} {fs : List Bytes} (hlen : 2 ≤ fs.length) (hfs : ∀ f ∈ fs, Loose .factor f) :
      Loose .operand (List.replicate n 38 ++ [38].intercalate fs)
  | operand {t : Bytes} (ht : Loose .term t) : Loose .operand t
  | term {fs : List Bytes} (hne : fs ≠ []) (hfs : ∀ f ∈ fs, Loose .factor f) :
      Loose .term ([38].intercalate fs)
  | not {f : Bytes} (hf : Loose .factor f) : Loose .factor (33 :: f)
  | paren {e : Bytes} (he : Loose .formula e) : Loose .factor (40 :: (e ++ [41]))
  | name {n : Bytes} (hn : isVerifierName n) : Loose .factor n

variable {lvl : Level} {s w p J : Bytes} {op b : UInt8} {ps : List Bytes}

/-! ## What stands outside the brackets -/

theorem inName_of_isNameChar (h : isNameChar b = true) : inName b = true := by
  simp only [isNameChar, isPunct, Bool.or_eq_true, beq_iff_eq] at h
  simp only [inName, belongsToName, Bool.or_eq_true, beq_iff_eq]
  tauto

theorem isVerifierName.three_le {n : Bytes} (hn : isVerifierName n) : 3 ≤ n.length := by
  have h := hn.2
  simp only [isQualifierNameValid, ledNameCharacters, nameCharacters, Bool.and_eq_true, decide_eq_true_eq] at h
  tauto

theorem isVerifierName.brackets {n : Bytes} (hn : isVerifierName n) : 40 ∉ n ∧ 41 ∉ n :=
  ⟨fun hmem => absurd (hn.1 _ hmem) (by decide), fun hmem => absurd (hn.1 _ hmem) (by decide)⟩

theorem brackets_of_skipped (hJ : ∀ b ∈ J, isSkipped b = true) : 40 ∉ J ∧ 41 ∉ J :=
  ⟨fun hmem => absurd (hJ _ hmem) (by decide), fun hmem => absurd (hJ _ hmem) (by decide)⟩

theorem outside_behind (hJ : ∀ b ∈ J, isSkipped b = true) (s : Bytes) : outside (J ++ s) = J ++ outside s := by
  obtain ⟨hopen, hclose⟩ := brackets_of_skipped hJ
  rw [outside, outer_append (by decide), outer_eq_self hopen hclose,
    depth_eq_zero_of_forall hopen hclose, add_zero]

theorem isSkipped_of_mem_replicate {n : Nat} (h : b ∈ List.replicate n 38) : isSkipped b = true := by
  rw [List.eq_of_mem_replicate h]
  decide

theorem Loose.enclosed (h : Loose lvl s) : Enclosed 40 41 s := by
  have hbar : (124 : UInt8) ≠ 40 ∧ (124 : UInt8) ≠ 41 := by decide
  have hamp : (38 : UInt8) ≠ 40 ∧ (38 : UInt8) ≠ 41 := by decide
  have hskip : ∀ {J}, (∀ b ∈ J, isSkipped b = true) → Enclosed 40 41 J := fun hJ =>
    .of_notMem (brackets_of_skipped hJ).1 (brackets_of_skipped hJ).2
  induction h with
  | disjunction hJ hne ht hts iht ihts =>
    exact (hskip hJ).append (by decide)
      (.intercalate (by decide) hbar (List.forall_mem_cons.mpr ⟨iht, ihts⟩))
  | conjunction hJ hlen hfs ih => exact (hskip hJ).append (by decide) (.intercalate (by decide) hamp ih)
  | single ht ih => exact ih
  | behind hlen hfs ih =>
    exact (hskip fun _ => isSkipped_of_mem_replicate).append (by decide)
      (.intercalate (by decide) hamp ih)
  | operand ht ih => exact ih
  | term hne hfs ih => exact .intercalate (by decide) hamp ih
  | not hf ih =>
    have hnot : Enclosed 40 41 [(33 : UInt8)] := .of_notMem (by decide) (by decide)
    exact hnot.append (by decide) ih
  | paren he ih => exact ih.bracket (by decide)
  | name hn => exact .of_notMem hn.brackets.1 hn.brackets.2

/-- The characters outside the brackets of a text of each level. -/
def Level.allows : Level → UInt8 → Bool
  | .formula, _ => true
  | .operand, b => isInner 124 b
  | .term, b => isInner 124 b
  | .factor, b => inName b

theorem isInner_of_factors (hps : ∀ p ∈ ps, Enclosed 40 41 p) (hin : ∀ p ∈ ps, ∀ b ∈ outside p, inName b = true) :
    ∀ b ∈ outside ([38].intercalate ps), isInner 124 b = true := by
  intro b hb
  rcases (mem_outer_intercalate (by decide) (by decide) fun p hp => (hps p hp).balanced).mp hb with
    ⟨rfl, -⟩ | ⟨p, hp, hb⟩
  · decide
  · exact isInner_of_inName (hin p hp b hb)

theorem Loose.outside (h : Loose lvl s) : ∀ b ∈ outside s, lvl.allows b = true := by
  induction h with
  | disjunction => exact fun _ _ => rfl
  | conjunction => exact fun _ _ => rfl
  | single => exact fun _ _ => rfl
  | behind hlen hfs ih =>
    intro b hb
    rw [outside_behind fun _ => isSkipped_of_mem_replicate] at hb
    rcases List.mem_append.mp hb with hb | hb
    · rw [List.eq_of_mem_replicate hb]
      decide
    · exact isInner_of_factors (fun f hf => (hfs f hf).enclosed) ih b hb
  | operand ht ih => exact ih
  | term hne hfs ih => exact isInner_of_factors (fun f hf => (hfs f hf).enclosed) ih
  | not hf ih =>
    intro b hb
    rcases List.mem_cons.mp hb with rfl | hb
    · rfl
    · exact ih b hb
  | paren he ih =>
    intro b hb
    rw [LibBoolEE.outside, he.enclosed.outer_bracket (by decide) le_rfl] at hb
    cases hb
  | name hn =>
    intro b hb
    rw [LibBoolEE.outside, outer_eq_self hn.brackets.1 hn.brackets.2] at hb
    exact inName_of_isNameChar (hn.1 b hb)

def Starts (s : Bytes) : Prop := ∃ b t, s = b :: t ∧ startsOperand b = true

theorem Starts.append (h : Starts s) (t : Bytes) : Starts (s ++ t) := by
  obtain ⟨b, t', rfl, hb⟩ := h
  exact ⟨b, t' ++ t, rfl, hb⟩

theorem Starts.intercalate (h : Starts p) : Starts ([op].intercalate (p :: ps)) := by
  cases ps with
  | nil => simpa using h
  | cons q ps =>
    rw [List.intercalate_cons_cons, List.append_assoc]
    exact h.append _

theorem Loose.starts_factor (h : Loose .factor s) : Starts s := by
  cases h with
  | not hf => exact ⟨33, _, rfl, by decide⟩
  | paren he => exact ⟨40, _, rfl, by decide⟩
  | name hn =>
    cases s with
    | nil => exact absurd hn.three_le (by simp)
    | cons b t =>
      exact ⟨b, t, rfl, by simp [startsOperand, inName_of_isNameChar (hn.1 b List.mem_cons_self)]⟩

theorem Loose.starts_factors (hne : ps ≠ []) (h : ∀ p ∈ ps, Loose .factor p) : Starts ([38].intercalate ps) := by
  cases ps with
  | nil => exact absurd rfl hne
  | cons p ps => exact (h p List.mem_cons_self).starts_factor.intercalate

theorem Loose.starts_term (h : Loose .term s) : Starts s := by
  cases h with
  | term hne hfs => exact Loose.starts_factors hne hfs

/-! ## Which level a formula has -/

theorem op_mem_outside (hop : op ≠ 40 ∧ op ≠ 41) (hlen : 2 ≤ ps.length) (hps : ∀ p ∈ ps, parity p = 0)
    (hJ : ∀ b ∈ J, isSkipped b = true) : op ∈ outside (J ++ [op].intercalate ps) := by
  rw [outside_behind hJ]
  exact List.mem_append_right _ ((mem_outer_intercalate (by decide) hop hps).mpr (.inl ⟨rfl, hlen⟩))

theorem eq_nil_of_starts (hJ : ∀ b ∈ J, isSkipped b = true) (h : Starts (J ++ s)) : J = [] := by
  cases J with
  | nil => rfl
  | cons b J =>
    obtain ⟨b', t, heq, hb'⟩ := h
    obtain rfl : b = b' := (List.cons.inj heq).1
    have hb := (isSkipped_iff.mp (hJ b List.mem_cons_self)).1
    rw [hb] at hb'
    cases hb'

theorem Loose.parity_of_mem (h : ∀ p ∈ ps, Loose lvl p) : ∀ p ∈ ps, parity p = 0 := fun p hp => (h p hp).enclosed.balanced

theorem Loose.term_of_factor (h : Loose .factor s) : Loose .term s := by
  have hone : Loose .term ([38].intercalate [s]) := .term (by simp) (by simpa using h)
  rwa [List.intercalate_singleton] at hone

theorem Loose.factor_of_term (h : Loose .term s) (hout : 38 ∉ LibBoolEE.outside s) : Loose .factor s := by
  cases h with
  | @term fs hne hfs =>
    match fs, hne with
    | [f], _ =>
      rw [List.intercalate_singleton]
      exact hfs f List.mem_cons_self
    | f :: f' :: fs, _ =>
      exact absurd (op_mem_outside (J := []) (by decide) (by simp) (Loose.parity_of_mem hfs)
        (by simp)) hout

theorem bar_mem_outside {t : Bytes} (hJ : ∀ b ∈ J, isSkipped b = true) (hne : ps ≠ []) (ht : Loose .term t)
    (hts : ∀ t ∈ ps, Loose .operand t) : 124 ∈ outside (J ++ [124].intercalate (t :: ps)) := by
  refine op_mem_outside (by decide) ?_ ?_ hJ
  · have := List.length_pos_iff.mpr hne
    simp only [List.length_cons]
    omega
  · exact List.forall_mem_cons.mpr ⟨ht.enclosed.balanced, Loose.parity_of_mem hts⟩

theorem Loose.term_of_formula (h : Loose .formula s) (hout : 124 ∉ LibBoolEE.outside s) (hstart : Starts s) : Loose .term s := by
  cases h with
  | disjunction hJ hne ht hts => exact absurd (bar_mem_outside hJ hne ht hts) hout
  | conjunction hJ hlen hfs =>
    rw [eq_nil_of_starts hJ hstart]
    exact .term (List.ne_nil_of_length_pos (by omega)) hfs
  | single ht => exact ht

theorem Loose.operand_of_formula (h : Loose .formula s)
    (hout : ∀ b ∈ LibBoolEE.outside s, isInner 124 b = true) : Loose .operand s := by
  have hbar : 124 ∉ LibBoolEE.outside s := fun hmem => absurd (hout _ hmem) (by decide)
  cases h with
  | disjunction hJ hne ht hts => exact absurd (bar_mem_outside hJ hne ht hts) hbar
  | @conjunction J fs hJ hlen hfs =>
    have hamp : J = List.replicate J.length 38 := by
      refine List.eq_replicate_length.mpr fun b hb => ?_
      have hinner := hout b (by rw [outside_behind hJ]; exact List.mem_append_left _ hb)
      have hskip := (isSkipped_iff.mp (hJ b hb)).1
      simp only [startsOperand, Bool.or_eq_false_iff] at hskip
      simp only [isInner, hskip.1, Bool.false_or, Bool.and_eq_true, Bool.or_eq_true, beq_iff_eq, bne_iff_ne] at hinner
      exact hinner.1.resolve_right hinner.2
    rw [hamp]
    exact .behind hlen hfs
  | single ht => exact .operand ht

theorem Loose.factor_of_formula (h : Loose .formula s) (hout : ∀ b ∈ LibBoolEE.outside s, inName b = true) : Loose .factor s := by
  have hamp : 38 ∉ LibBoolEE.outside s := fun hmem => absurd (hout _ hmem) (by decide)
  cases h with
  | disjunction hJ hne ht hts =>
    exact absurd (hout _ (bar_mem_outside hJ hne ht hts)) (by decide)
  | conjunction hJ hlen hfs =>
    exact absurd (op_mem_outside (by decide) hlen (Loose.parity_of_mem hfs) hJ) hamp
  | single ht => exact ht.factor_of_term hamp

/-! ## The names of a formula -/

theorem nameRuns_append (run : Bytes) (hb : isNameChar b = false) (s t : Bytes) :
    nameRuns run (s ++ b :: t) = nameRuns run s ++ nameRuns [] t := by
  induction s generalizing run with
  | nil =>
    simp only [List.nil_append, nameRuns, hb, Bool.false_eq_true, if_false]
    split_ifs <;> rfl
  | cons c s ih =>
    simp only [List.cons_append, nameRuns]
    split_ifs
    · exact ih _
    · exact ih []
    · rw [ih [], List.cons_append]

theorem nameRuns_cons (hb : isNameChar b = false) (s : Bytes) : nameRuns [] (b :: s) = nameRuns [] s := nameRuns_append [] hb [] s

theorem not_isNameChar_of_isSkipped (h : isSkipped b = true) : isNameChar b = false := by
  have hstart := (isSkipped_iff.mp h).1
  simp only [startsOperand, Bool.or_eq_false_iff] at hstart
  exact Bool.eq_false_iff.mpr fun hname => by simp [inName_of_isNameChar hname] at hstart

theorem nameRuns_behind (hJ : ∀ b ∈ J, isSkipped b = true) (s : Bytes) : nameRuns [] (J ++ s) = nameRuns [] s := by
  induction J with
  | nil => rfl
  | cons b J ih =>
    rw [List.cons_append, nameRuns_cons (not_isNameChar_of_isSkipped (hJ b List.mem_cons_self))]
    exact ih fun c hc => hJ c (List.mem_cons_of_mem _ hc)

theorem mem_nameRuns_intercalate (hop : isNameChar op = false) {q : Bytes} :
    q ∈ nameRuns [] ([op].intercalate ps) ↔ ∃ p ∈ ps, q ∈ nameRuns [] p := by
  induction ps with
  | nil => simp [nameRuns]
  | cons p ps ih =>
    cases ps with
    | nil => simp
    | cons p' ps =>
      rw [List.intercalate_cons_cons, List.append_assoc, List.singleton_append, nameRuns_append [] hop, List.mem_append, ih]
      simp only [List.mem_cons, exists_eq_or_imp]

theorem nameRuns_of_all (h : ∀ b ∈ s, isNameChar b = true) (run : Bytes) (hne : run ++ s ≠ []) :
    nameRuns run s = [run.reverse ++ s] := by
  induction s generalizing run with
  | nil => simpa [nameRuns] using hne
  | cons b s ih =>
    rw [nameRuns, if_pos (h b List.mem_cons_self), ih (fun c hc => h c (List.mem_cons_of_mem _ hc)) (b :: run) (by simp)]
    simp

theorem isNameChar_of_mem_nameRuns {q run : Bytes} (hrun : ∀ b ∈ run, isNameChar b = true)
    (hq : q ∈ nameRuns run s) : ∀ b ∈ q, isNameChar b = true := by
  have hreverse : ∀ b ∈ run.reverse, isNameChar b = true := fun b hb => hrun b (List.mem_reverse.mp hb)
  induction s generalizing run with
  | nil =>
    rw [nameRuns] at hq
    split_ifs at hq
    · cases hq
    · rwa [List.mem_singleton.mp hq]
  | cons c s ih =>
    rw [nameRuns] at hq
    split_ifs at hq with hc hempty
    · have hrun' : ∀ b ∈ c :: run, isNameChar b = true := List.forall_mem_cons.mpr ⟨hc, hrun⟩
      exact ih hrun' hq fun b hb => hrun' b (List.mem_reverse.mp hb)
    · exact ih (by simp) hq (by simp)
    · rcases List.mem_cons.mp hq with rfl | hq
      · exact hreverse
      · exact ih (by simp) hq (by simp)

theorem isVerifierName.nameRuns {n : Bytes} (hn : isVerifierName n) : nameRuns [] n = [n] :=
  nameRuns_of_all hn.1 [] (List.ne_nil_of_length_pos (by have := hn.three_le; simp; omega))

theorem Loose.isVerifierName_of_mem (h : Loose lvl s) : ∀ q ∈ HempCore.nameRuns [] s, isVerifierName q := by
  have hlist : ∀ {op : UInt8} {ps : List Bytes}, isNameChar op = false →
      (∀ p ∈ ps, ∀ q ∈ HempCore.nameRuns [] p, isVerifierName q) →
      ∀ q ∈ HempCore.nameRuns [] ([op].intercalate ps), isVerifierName q := by
    intro op ps hop hps q hq
    obtain ⟨p, hp, hq⟩ := (mem_nameRuns_intercalate hop).mp hq
    exact hps p hp q hq
  induction h with
  | disjunction hJ hne ht hts iht ihts =>
    rw [nameRuns_behind hJ]
    exact hlist (by decide) (List.forall_mem_cons.mpr ⟨iht, ihts⟩)
  | conjunction hJ hlen hfs ih =>
    rw [nameRuns_behind hJ]
    exact hlist (by decide) ih
  | single ht ih => exact ih
  | behind hlen hfs ih =>
    rw [nameRuns_behind fun _ => isSkipped_of_mem_replicate]
    exact hlist (by decide) ih
  | operand ht ih => exact ih
  | term hne hfs ih => exact hlist (by decide) ih
  | not hf ih =>
    rw [nameRuns_cons (by decide)]
    exact ih
  | paren he ih =>
    rw [nameRuns_cons (by decide), nameRuns_append [] (by decide)]
    simpa [HempCore.nameRuns] using ih
  | name hn =>
    rw [hn.nameRuns]
    intro q hq
    rwa [List.mem_singleton.mp hq]

/-! ## The parser accepts loose formulas -/

def allTrue (names : List Bytes) (q : Bytes) : Option Bool :=
  if names.contains q then some true else none

section Parser

variable {valuation : Bytes → Option Bool} {names : List Bytes} {fuel : Nat}

theorem byteAt_zero (b : UInt8) (s : Bytes) : byteAt (b :: s) 0 = b := rfl

theorem removeWhitespaces_eq_self (h : ∀ b ∈ s, isSpace b = false) : removeWhitespaces s = s :=
  List.filter_eq_self.mpr fun b hb => by simp [h b hb]

theorem parity_of_resolves (h : Resolves valuation fuel w) : parity w = 0 := by
  cases fuel with
  | zero =>
    obtain ⟨b, hb⟩ := h
    cases hb
  | succ fuel =>
    obtain ⟨-, ⟨ps, hps, hlen, -⟩ | ⟨p, hp, -⟩⟩ := resolves_succ_iff.mp h
    · exact (splits_of_singleParse (by decide) hps (List.ne_nil_of_length_pos (by omega))).1
    · exact (splits_of_singleParse (by decide) hp (by simp)).1

theorem splits_of_balanced (hop : op ≠ 40 ∧ op ≠ 41) (h : singleParse w op = .ok ps) (hne : ps ≠ [])
    (hps : ∀ p ∈ ps, parity p = 0) :
    ∃ J, (∀ b ∈ J, isSkipped b = true) ∧ w = J ++ [op].intercalate ps ∧ Splits op ps := by
  obtain ⟨hparity, J, hpassed, hw, hsplits⟩ := splits_of_singleParse hop h hne
  rw [hw, LibBoolEE.parity, depth_append, depth_intercalate hop hps, add_zero] at hparity
  have hclose : 41 ∉ J := not_mem_close_of_depth hpassed.1 hparity
  exact ⟨J, hpassed.skipped hclose, hw, hsplits hclose⟩

theorem skipped_unique {a t t' : Bytes} {x y : UInt8} (ha : ∀ b ∈ a, isSkipped b = true)
    (hJ : ∀ b ∈ J, isSkipped b = true) (hx : isSkipped x = false) (hy : isSkipped y = false)
    (h : a ++ x :: t = J ++ y :: t') : a = J ∧ x = y ∧ t = t' := by
  induction a generalizing J with
  | nil =>
    cases J with
    | nil => simpa using h
    | cons b J =>
      have hb := hJ b List.mem_cons_self
      rw [← (List.cons.inj h).1, hx] at hb
      cases hb
  | cons c a ih =>
    cases J with
    | nil =>
      have hc := ha c List.mem_cons_self
      rw [(List.cons.inj h).1, hy] at hc
      cases hc
    | cons b J =>
      obtain ⟨hcb, hrest⟩ := List.cons.inj h
      obtain ⟨haJ, hxy⟩ := ih (fun b hb => ha b (List.mem_cons_of_mem _ hb)) (fun b hb => hJ b (List.mem_cons_of_mem _ hb)) hrest
      exact ⟨by rw [hcb, haJ], hxy⟩

theorem isSkipped_of_startsOperand (h : startsOperand b = true) : isSkipped b = false := by
  simp [isSkipped, h]

/-- A text that is one piece: behind skipped text, a first operand begins it. -/
theorem splits_of_singleton (hop : op ≠ 40 ∧ op ≠ 41) (h : singleParse (J ++ s) op = .ok [p])
    (hJ : ∀ b ∈ J, isSkipped b = true) (hs : Starts s) : Splits op [s] := by
  obtain ⟨-, J', hpassed, hw, hsplits⟩ := splits_of_singleParse hop h (by simp)
  obtain ⟨b, t, rfl, hb⟩ := hs
  have hclose : 41 ∉ J' := by
    intro hmem
    rcases hpassed.2 with hskip | ⟨a, t', rfl, ha⟩
    · exact absurd (hskip _ hmem) (by decide)
    · rw [List.append_assoc, List.cons_append] at hw
      obtain ⟨-, rfl, -⟩ := skipped_unique hJ ha (isSkipped_of_startsOperand hb) (by decide) hw
      exact absurd hb (by decide)
  obtain ⟨b', t', htext, hb'⟩ := (hsplits hclose).start
  rw [htext] at hw
  obtain ⟨-, rfl, rfl⟩ := skipped_unique hJ (hpassed.skipped hclose) (isSkipped_of_startsOperand hb)
    (isSkipped_of_startsOperand hb') hw
  rw [List.intercalate_singleton] at htext
  exact htext ▸ hsplits hclose

/-- A stripped text whose names are all known. -/
structure Readable (names : List Bytes) (w : Bytes) : Prop where
  dense : ∀ b ∈ w, isSpace b = false
  known : ∀ q ∈ nameRuns [] w, q ∈ names

theorem Readable.piece (h : Readable names (J ++ [op].intercalate ps)) (hop : isNameChar op = false)
    (hJ : ∀ b ∈ J, isSkipped b = true) (hp : p ∈ ps) : Readable names p := by
  refine ⟨fun b hb => h.dense b (List.mem_append_right _ (mem_intercalate_of_mem hp hb)), fun q hq => h.known q ?_⟩
  rw [nameRuns_behind hJ]
  exact (mem_nameRuns_intercalate hop).mpr ⟨p, hp, hq⟩

theorem Readable.not (h : Readable names (33 :: s)) : Readable names s := by
  refine ⟨fun b hb => h.dense b (List.mem_cons_of_mem _ hb), fun q hq => h.known q ?_⟩
  rwa [nameRuns_cons (by decide)]

theorem Readable.paren (h : Readable names (40 :: (s ++ [41]))) : Readable names s := by
  refine ⟨fun b hb => h.dense b (List.mem_cons_of_mem _ (List.mem_append_left _ hb)), fun q hq => h.known q ?_⟩
  rw [nameRuns_cons (by decide), nameRuns_append [] (by decide)]
  exact List.mem_append_left _ hq

theorem splits_of_resolves (hop : op ≠ 40 ∧ op ≠ 41) (h : singleParse w op = .ok ps) (hlen : 2 ≤ ps.length)
    (hdense : ∀ b ∈ w, isSpace b = false) (hall : ∀ p ∈ ps, Resolves valuation fuel (removeWhitespaces p)) :
    (∀ p ∈ ps, Resolves valuation fuel p) ∧ ∃ J, (∀ b ∈ J, isSkipped b = true) ∧ w = J ++ [op].intercalate ps ∧
      Splits op ps := by
  have hne : ps ≠ [] := List.ne_nil_of_length_pos (by omega)
  obtain ⟨-, J, -, hw, -⟩ := splits_of_singleParse hop h hne
  have hall' : ∀ p ∈ ps, Resolves valuation fuel p := by
    intro p hp
    have hdense' : ∀ b ∈ p, isSpace b = false := fun b hb =>
      hdense b (hw ▸ List.mem_append_right _ (mem_intercalate_of_mem hp hb))
    simpa only [removeWhitespaces_eq_self hdense'] using hall p hp
  exact ⟨hall', splits_of_balanced hop h hne fun p hp => parity_of_resolves (hall' p hp)⟩

theorem inName_of_isInner (hbar : isInner 124 b = true) (hamp : isInner 38 b = true) : inName b = true := by
  simp only [isInner, Bool.or_eq_true, Bool.and_eq_true, beq_iff_eq, bne_iff_ne] at hbar hamp
  rcases hbar with h | ⟨rfl | rfl, hne⟩
  · exact h
  · exact hamp.resolve_right fun h => h.2 rfl
  · exact absurd rfl hne

theorem outside_of_atom (hbar : singleParse w 124 = .ok [p]) {q : Bytes}
    (hamp : singleParse w 38 = .ok [q]) (hw : Starts w) : ∀ b ∈ outside w, inName b = true := by
  have hbar' := splits_of_singleton (J := []) (by decide) hbar (by simp) hw
  have hamp' := splits_of_singleton (J := []) (by decide) hamp (by simp) hw
  exact fun b hb => inName_of_isInner (hbar'.inner w (by simp) b hb) (hamp'.inner w (by simp) b hb)

/-- A bracket that opens the formula and an inside that is balanced: the last character closes it. -/
theorem eq_bracket (h : parity (40 :: s) = 0) (hin : parity s.dropLast = 0) : s = s.dropLast ++ [41] := by
  have hs : s ≠ [] := by
    rintro rfl
    exact absurd h (by decide)
  have hlast := List.dropLast_append_getLast hs
  rw [LibBoolEE.parity] at h hin
  rw [depth_cons, ← hlast, depth_append, hin, zero_add] at h
  have hclose : s.getLast hs = 41 := by
    by_contra hne
    by_cases hopen : s.getLast hs = 40
    · rw [hopen] at h
      exact absurd h (by decide)
    · rw [depth_other hopen hne] at h
      exact absurd h (by decide)
  rw [hclose] at hlast
  exact hlast.symm

theorem loose_of_resolvesAtom (hnames : ∀ q ∈ names, isVerifierName q) (hw : Readable names w)
    (hne : w ≠ []) (hparity : parity w = 0) (hout : Starts w → ∀ b ∈ outside w, inName b = true)
    (ih : ∀ {s}, Readable names s → Resolves (allTrue names) fuel s → Loose .formula s)
    (h : ResolvesAtom (allTrue names) fuel w) : Loose .factor w := by
  obtain ⟨c, s, rfl⟩ := List.exists_cons_of_ne_nil hne
  rw [ResolvesAtom, byteAt_zero] at h
  split_ifs at h with hnot hparen
  · subst hnot
    rw [List.drop_one, List.tail_cons, removeWhitespaces_eq_self hw.not.dense] at h
    refine .not ((ih hw.not h).factor_of_formula fun b hb => ?_)
    exact hout ⟨33, s, rfl, by decide⟩ b (List.mem_cons_of_mem _ hb)
  · subst hparen
    have hinner : ((40 :: s).drop 1).take ((40 :: s).length - 2) = s.dropLast := by
      rw [List.drop_one, List.tail_cons, List.dropLast_eq_take]
      rfl
    have hdense : ∀ b ∈ s.dropLast, isSpace b = false := fun b hb =>
      hw.dense b (List.mem_cons_of_mem _ (List.dropLast_subset _ hb))
    rw [hinner, removeWhitespaces_eq_self hdense] at h
    have hs := eq_bracket hparity (parity_of_resolves h)
    rw [hs] at hw ⊢
    exact .paren (ih hw.paren h)
  · have hmem : c :: s ∈ names := by
      rcases h with h | h | h
      · exact hw.known _ (by rw [h]; decide)
      · exact hw.known _ (by rw [h]; decide)
      · simpa [allTrue] using h
    exact .name (hnames _ hmem)

/-- The parser evaluates loose formulas only: by induction on the fuel, a piece being resolved with
less of it. -/
theorem loose_of_resolves (hnames : ∀ q ∈ names, isVerifierName q) (hw : Readable names w)
    (h : Resolves (allTrue names) fuel w) : Loose .formula w := by
  have hparity := parity_of_resolves h
  induction fuel generalizing w with
  | zero =>
    obtain ⟨b, hb⟩ := h
    cases hb
  | succ fuel ih =>
    have ih : ∀ {s}, Readable names s → Resolves (allTrue names) fuel s → Loose .formula s :=
      fun hs h => ih hs h (parity_of_resolves h)
    obtain ⟨hne, ⟨ps, hps, hlen, hall⟩ | ⟨p, hp, ⟨qs, hqs, hlen, hall⟩ | ⟨q, hq, hatom⟩⟩⟩ := resolves_succ_iff.mp h
    · obtain ⟨hall, J, hJ, rfl, hsplits⟩ := splits_of_resolves (by decide) hps hlen hw.dense hall
      have hloose := fun p hp => ih (hw.piece (by decide) hJ hp) (hall p hp)
      match ps, hlen with
      | t :: t' :: ts, _ =>
        have hstart : Starts t := by
          obtain ⟨b, rest, htext, hb⟩ := hsplits.start
          cases t with
          | nil =>
            obtain rfl : b = 124 := by simpa using (congrArg List.head? htext).symm
            exact absurd hb (by decide)
          | cons c t =>
            obtain rfl : b = c := by simpa using (congrArg List.head? htext).symm
            exact ⟨b, t, rfl, hb⟩
        have hbar : 124 ∉ outside t := fun hmem =>
          absurd (hsplits.inner t List.mem_cons_self _ hmem) (by decide)
        exact .disjunction hJ (by simp) ((hloose t List.mem_cons_self).term_of_formula hbar hstart)
          fun p hp => (hloose p (List.mem_cons_of_mem _ hp)).operand_of_formula (hsplits.inner p (List.mem_cons_of_mem _ hp))
    · obtain ⟨hall, J, hJ, rfl, hsplits⟩ := splits_of_resolves (by decide) hqs hlen hw.dense hall
      have hloose := fun q hq => ih (hw.piece (by decide) hJ hq) (hall q hq)
      have hwhole := splits_of_singleton (by decide) hp hJ hsplits.start
      refine .conjunction hJ hlen fun q hq => (hloose q hq).factor_of_formula fun b hb => ?_
      refine inName_of_isInner (hwhole.inner _ List.mem_cons_self b ?_) (hsplits.inner q hq b hb)
      exact (mem_outer_intercalate (by decide) (by decide) hsplits.balanced).mpr (.inr ⟨q, hq, hb⟩)
    · have hfactor := loose_of_resolvesAtom hnames hw hne hparity (outside_of_atom hp hq) ih hatom
      exact .single hfactor.term_of_factor

/-! ## Loose formulas are accepted -/

theorem singleParse_self (hop : op = 38 ∨ op = 124) (hJ : ∀ b ∈ J, isSkipped b = true) (hs : Enclosed 40 41 s)
    (hstart : Starts s) (hinner : ∀ b ∈ outside s, isInner op b = true) : singleParse (J ++ s) op = .ok [s] := by
  have hsplits : Splits op [s] := ⟨by simpa using hs.balanced, by simpa using hinner, by simpa [Starts] using hstart⟩
  simpa using singleParse_of_splits hop hJ hsplits

/-- Readable pieces of a list are resolved, as they need less fuel than the list. -/
theorem resolves_pieces (hop : isNameChar op = false) (hJ : ∀ b ∈ J, isSkipped b = true) (hlen : 2 ≤ ps.length)
    (hw : Readable names (J ++ [op].intercalate ps)) (hfuel : (J ++ [op].intercalate ps).length < fuel + 1)
    (ih : ∀ p ∈ ps, ∀ {fuel}, Readable names p → p.length < fuel → Resolves valuation fuel p) :
    ∀ p ∈ ps, Resolves valuation fuel (removeWhitespaces p) := by
  intro p hp
  have hpiece := hw.piece hop hJ hp
  have hshorter := length_lt_intercalate op hp hlen
  rw [List.length_append] at hfuel
  rw [removeWhitespaces_eq_self hpiece.dense]
  exact ih p hp hpiece (by omega)

theorem resolves_factors (hJ : ∀ b ∈ J, isSkipped b = true) (hlen : 2 ≤ ps.length) (hps : ∀ p ∈ ps, Loose .factor p)
    (hw : Readable names (J ++ [38].intercalate ps)) (hfuel : (J ++ [38].intercalate ps).length < fuel)
    (ih : ∀ p ∈ ps, ∀ {fuel}, Readable names p → p.length < fuel → Resolves valuation fuel p) :
    Resolves valuation fuel (J ++ [38].intercalate ps) := by
  obtain ⟨fuel, rfl⟩ := Nat.exists_eq_add_one_of_ne_zero (Nat.ne_zero_of_lt hfuel)
  have hne : ps ≠ [] := List.ne_nil_of_length_pos (by omega)
  have hstart := Loose.starts_factors hne hps
  have hwhole := singleParse_self (.inr rfl) hJ (.intercalate (by decide) (by decide)
    fun p hp => (hps p hp).enclosed) hstart (isInner_of_factors (fun p hp => (hps p hp).enclosed)
    fun p hp => (hps p hp).outside)
  have hsplits : Splits 38 ps := ⟨Loose.parity_of_mem hps, fun p hp b hb => isInner_of_inName ((hps p hp).outside b hb), hstart⟩
  refine resolves_succ_iff.mpr ⟨?_, .inr ⟨_, hwhole, .inl ⟨ps, ?_, hlen, ?_⟩⟩⟩
  · obtain ⟨b, t, htext, -⟩ := hstart
    simp [htext]
  · exact singleParse_of_splits (.inl rfl) hJ hsplits
  · exact resolves_pieces (by decide) hJ hlen hw hfuel ih

theorem resolves_factor (h : Loose .factor w) (hatom : ResolvesAtom valuation fuel w) : Resolves valuation (fuel + 1) w := by
  have hself : ∀ {op}, op = 38 ∨ op = 124 → singleParse w op = .ok [w] := fun hop =>
    singleParse_self (J := []) hop (by simp) h.enclosed h.starts_factor
      fun b hb => isInner_of_inName (h.outside b hb)
  obtain ⟨b, t, rfl, -⟩ := h.starts_factor
  exact resolves_succ_iff.mpr ⟨by simp, .inr ⟨_, hself (.inr rfl), .inr ⟨_, hself (.inl rfl), hatom⟩⟩⟩

/-- Every loose formula is evaluated, given fuel above its length, whatever the values of its names. -/
theorem resolves_of_loose (h : Loose lvl w) (hw : Readable names w) (hvalues : ∀ q ∈ names, (valuation q).isSome)
    (hfuel : w.length < fuel) : Resolves valuation fuel w := by
  induction h generalizing fuel with
  | @disjunction J t ts hJ hne ht hts iht ihts =>
    obtain ⟨fuel, rfl⟩ := Nat.exists_eq_add_one_of_ne_zero (Nat.ne_zero_of_lt hfuel)
    have hlen : 2 ≤ (t :: ts).length := by
      have := List.length_pos_iff.mpr hne
      simp only [List.length_cons]
      omega
    have hstart : Starts ([124].intercalate (t :: ts)) := ht.starts_term.intercalate
    have hsplits : Splits 124 (t :: ts) :=
      ⟨List.forall_mem_cons.mpr ⟨ht.enclosed.balanced, Loose.parity_of_mem hts⟩,
        List.forall_mem_cons.mpr ⟨ht.outside, fun p hp => (hts p hp).outside⟩, hstart⟩
    refine resolves_succ_iff.mpr ⟨?_, .inl ⟨_, singleParse_of_splits (.inr rfl) hJ hsplits, hlen, ?_⟩⟩
    · obtain ⟨b, rest, htext, -⟩ := hstart
      simp [htext]
    · refine resolves_pieces (by decide) hJ hlen hw hfuel fun p hp => ?_
      rcases List.mem_cons.mp hp with rfl | hp
      · exact iht
      · exact ihts p hp
  | conjunction hJ hlen hfs ih =>
    exact resolves_factors hJ hlen hfs hw hfuel fun f hf _ => ih f hf
  | single ht ih => exact ih hw hfuel
  | behind hlen hfs ih =>
    exact resolves_factors (fun _ => isSkipped_of_mem_replicate) hlen hfs hw hfuel fun f hf _ => ih f hf
  | operand ht ih => exact ih hw hfuel
  | @term fs hne hfs ih =>
    match fs, hne with
    | [f], _ =>
      rw [List.intercalate_singleton] at hw hfuel ⊢
      exact ih f List.mem_cons_self hw hfuel
    | f :: f' :: fs, _ =>
      exact resolves_factors (J := []) (by simp) (by simp) hfs hw hfuel fun f hf _ => ih f hf
  | @not f hf ih =>
    obtain ⟨fuel, rfl⟩ := Nat.exists_eq_add_one_of_ne_zero (Nat.ne_zero_of_lt hfuel)
    refine resolves_factor (.not hf) ?_
    have hrest : removeWhitespaces ((33 :: f).drop 1) = f := removeWhitespaces_eq_self hw.not.dense
    rw [ResolvesAtom, byteAt_zero, if_pos rfl, hrest]
    exact ih hw.not (by simpa using hfuel)
  | @paren e he ih =>
    obtain ⟨fuel, rfl⟩ := Nat.exists_eq_add_one_of_ne_zero (Nat.ne_zero_of_lt hfuel)
    refine resolves_factor (.paren he) ?_
    have hinner : ((40 :: (e ++ [41])).drop 1).take ((40 :: (e ++ [41])).length - 2) = e := by simp
    rw [ResolvesAtom, byteAt_zero, if_neg (by decide), if_pos rfl, hinner,
      removeWhitespaces_eq_self hw.paren.dense]
    simp only [List.length_cons, List.length_append] at hfuel
    exact ih hw.paren (by omega)
  | @name n hn =>
    obtain ⟨fuel, rfl⟩ := Nat.exists_eq_add_one_of_ne_zero (Nat.ne_zero_of_lt hfuel)
    refine resolves_factor (.name hn) ?_
    have hmem : n ∈ names := hw.known n (by rw [hn.nameRuns]; simp)
    obtain ⟨b, t, rfl, -⟩ := (Loose.name hn).starts_factor
    have hb := hn.1 b List.mem_cons_self
    rw [ResolvesAtom, byteAt_zero, if_neg, if_neg]
    · exact .inr (.inr (hvalues _ hmem))
    · rintro rfl
      exact absurd hb (by decide)
    · rintro rfl
      exact absurd hb (by decide)

end Parser

/-! ## Where the languages differ -/

/-- An operand of `|` or the first one of a bracket stands behind these characters. -/
def opensOperand (b : UInt8) : Bool := b == 40 || b == 124

/-- An operand starts behind every character that opens one. -/
def OperandChain (s : Bytes) : Prop :=
  s.IsChain fun b c => opensOperand b = true → startsOperand c = true

/-- At the start of the formula, behind `(` and behind `|` an operand starts. -/
def OperandsStart (s : Bytes) : Prop := OperandChain (40 :: s)

def Level.symbol : Level → Symbol
  | .formula => .expr
  | .operand => .term
  | .term => .term
  | .factor => .factor

theorem OperandChain.of_starts (h : OperandChain s) (hs : Starts s) : OperandsStart s := by
  obtain ⟨b, t, rfl, hb⟩ := hs
  exact List.isChain_cons_cons.mpr ⟨fun _ => hb, h⟩

theorem eq_nil_of_operandsStart (hJ : ∀ b ∈ J, isSkipped b = true) (h : OperandsStart (J ++ s)) : J = [] := by
  cases J with
  | nil => rfl
  | cons b J =>
    have hb := (List.isChain_cons_cons.mp h).1 (by decide)
    rw [(isSkipped_iff.mp (hJ b List.mem_cons_self)).1] at hb
    cases hb

theorem OperandChain.piece (h : OperandChain ([op].intercalate ps)) (hp : p ∈ ps) : OperandChain p := by
  induction ps with
  | nil => cases hp
  | cons q ps ih =>
    cases ps with
    | nil =>
      rw [List.intercalate_singleton] at h
      rwa [List.mem_singleton.mp hp]
    | cons q' ps =>
      rw [List.intercalate_cons_cons] at h
      rcases List.mem_cons.mp hp with rfl | hp
      · exact (List.isChain_append.mp (List.isChain_append.mp h).1).1
      · exact ih (List.isChain_append.mp h).2.1 hp

theorem OperandsStart.piece (h : OperandsStart ([124].intercalate ps)) (hp : p ∈ ps) : OperandsStart p := by
  induction ps with
  | nil => cases hp
  | cons q ps ih =>
    cases ps with
    | nil =>
      rw [List.intercalate_singleton] at h
      rwa [List.mem_singleton.mp hp]
    | cons q' ps =>
      rw [List.intercalate_cons_cons, List.append_assoc, OperandsStart, ← List.cons_append] at h
      obtain ⟨hq, hrest, -⟩ := List.isChain_append.mp h
      rcases List.mem_cons.mp hp with rfl | hp
      · exact hq
      · refine ih (List.isChain_cons.mpr ⟨fun y hy _ => ?_, (List.isChain_cons.mp hrest).2⟩) hp
        exact (List.isChain_cons.mp hrest).1 y hy (by decide)

theorem OperandsStart.chain (h : OperandsStart s) : OperandChain s := (List.isChain_cons.mp h).2

/-- Factors joined by `&` start where they should, and nothing stands in front of them. -/
theorem OperandsStart.factors (hJ : ∀ b ∈ J, isSkipped b = true) (hps : ∀ p ∈ ps, Loose .factor p)
    (h : OperandsStart (J ++ [38].intercalate ps)) : J = [] ∧ ∀ p ∈ ps, OperandsStart p := by
  obtain rfl := eq_nil_of_operandsStart hJ h
  exact ⟨rfl, fun p hp => (h.chain.piece hp).of_starts (hps p hp).starts_factor⟩

theorem Generates.expr_of_term (h : Generates .term s) : Generates .expr s := by
  have hone : Generates .expr ([124].intercalate [s]) := .expr (by simp) (by simpa using h)
  rwa [List.intercalate_singleton] at hone

/-- A loose formula in which every operand starts where it should is one of the grammar. -/
theorem Loose.generates (h : Loose lvl s) (hstart : OperandsStart s) : Generates lvl.symbol s := by
  induction h with
  | disjunction hJ hne ht hts iht ihts =>
    obtain rfl := eq_nil_of_operandsStart hJ hstart
    refine .expr (by simp) (List.forall_mem_cons.mpr ⟨iht ?_, fun t ht => ihts t ht ?_⟩)
    · exact OperandsStart.piece hstart List.mem_cons_self
    · exact OperandsStart.piece hstart (List.mem_cons_of_mem _ ht)
  | conjunction hJ hlen hfs ih =>
    obtain ⟨rfl, hfs'⟩ := OperandsStart.factors hJ hfs hstart
    exact .expr_of_term (.term (List.ne_nil_of_length_pos (by omega)) fun f hf => ih f hf (hfs' f hf))
  | single ht ih => exact .expr_of_term (ih hstart)
  | behind hlen hfs ih =>
    obtain ⟨hnil, hfs'⟩ := OperandsStart.factors (fun _ => isSkipped_of_mem_replicate) hfs hstart
    rw [hnil]
    exact .term (List.ne_nil_of_length_pos (by omega)) fun f hf => ih f hf (hfs' f hf)
  | operand ht ih => exact ih hstart
  | term hne hfs ih =>
    obtain ⟨-, hfs'⟩ := OperandsStart.factors (J := []) (by simp) hfs hstart
    exact .term hne fun f hf => ih f hf (hfs' f hf)
  | not hf ih => exact .not (ih (OperandChain.of_starts (List.isChain_cons.mp hstart.chain).2
      hf.starts_factor))
  | @paren e he ih =>
    have hinside : OperandChain ((40 :: e) ++ [41]) := hstart.chain
    exact .paren (ih (List.isChain_append.mp hinside).1)
  | name hn => exact .name hn

/-- How a text of the grammar begins and ends, so that texts can be joined. -/
structure Framed (s : Bytes) : Prop where
  starts : Starts s
  chain : OperandChain s
  ends : ∀ b ∈ s.getLast?, opensOperand b = false

theorem Framed.intercalate (hne : ps ≠ []) (hps : ∀ p ∈ ps, Framed p) : Framed ([op].intercalate ps) := by
  induction ps with
  | nil => exact absurd rfl hne
  | cons p ps ih =>
    have hp := hps p List.mem_cons_self
    cases ps with
    | nil => simpa using hp
    | cons q ps =>
      have hrest := ih (by simp) fun p' hp' => hps p' (List.mem_cons_of_mem _ hp')
      obtain ⟨b, t, htext, hb⟩ := hrest.starts
      rw [List.intercalate_cons_cons, List.append_assoc, List.singleton_append]
      refine ⟨hp.starts.append _, List.isChain_append.mpr ⟨hp.chain, ?_, fun x hx y _ hopens => ?_⟩, fun x hx => hrest.ends x ?_⟩
      · rw [htext]
        exact List.isChain_cons_cons.mpr ⟨fun _ => hb, htext ▸ hrest.chain⟩
      · rw [hp.ends x hx] at hopens
        cases hopens
      · rw [htext] at hx ⊢
        simpa using hx

theorem framed_of_generates {sym : Symbol} (h : Generates sym s) : Framed s := by
  induction h with
  | expr hne hts ih => exact .intercalate hne ih
  | term hne hfs ih => exact .intercalate hne ih
  | @not f hf ih =>
    refine ⟨⟨33, f, rfl, by decide⟩, List.isChain_cons.mpr ⟨fun _ _ h => absurd h (by decide), ih.chain⟩,
      fun b hb => ih.ends b ?_⟩
    obtain ⟨c, t, rfl, -⟩ := ih.starts
    simpa using hb
  | @paren e he ih =>
    have hchain : OperandChain (40 :: (e ++ [41])) := by
      refine List.isChain_append.mpr ⟨ih.chain.of_starts ih.starts, List.isChain_singleton _, fun x hx y _ hopens => ?_⟩
      obtain ⟨c, t, rfl, -⟩ := ih.starts
      rw [ih.ends x (by simpa using hx)] at hopens
      cases hopens
    refine ⟨⟨40, _, rfl, by decide⟩, hchain, fun b hb => ?_⟩
    rw [← List.cons_append, List.getLast?_append] at hb
    obtain rfl : 41 = b := by simpa using hb
    decide
  | @name n hn =>
    have hclosed : ∀ b ∈ n, opensOperand b = false := by
      intro b hb
      have hname := hn.1 b hb
      simp only [opensOperand, Bool.or_eq_false_iff, beq_eq_false_iff_ne]
      constructor <;> (rintro rfl; exact absurd hname (by decide))
    refine ⟨(Loose.name hn).starts_factor, ?_, fun b hb => hclosed b (List.mem_of_getLast? hb)⟩
    refine (List.pairwise_of_forall_mem_list fun b hb c _ hopens => ?_).isChain
    rw [hclosed b hb] at hopens
    cases hopens

theorem operandsStart_of_generates {sym : Symbol} (h : Generates sym s) : OperandsStart s :=
  (framed_of_generates h).chain.of_starts (framed_of_generates h).starts

def Symbol.level : Symbol → Level
  | .expr => .formula
  | .term => .term
  | .factor => .factor

theorem loose_of_generates {sym : Symbol} (h : Generates sym s) : Loose sym.level s := by
  induction h with
  | @expr ts hne hts ih =>
    match ts, hne with
    | [t], _ =>
      rw [List.intercalate_singleton]
      exact .single (ih t List.mem_cons_self)
    | t :: t' :: ts, _ =>
      exact .disjunction (J := []) (by simp) (by simp) (ih t List.mem_cons_self)
        fun p hp => .operand (ih p (List.mem_cons_of_mem _ hp))
  | term hne hfs ih => exact .term hne ih
  | not hf ih => exact .not ih
  | paren he ih => exact .paren ih
  | name hn => exact .name hn

/-! ## `CheckVerifierString` -/

theorem mem_extractVerifierStringQualifiers {q : Bytes} : q ∈ extractVerifierStringQualifiers w ↔ q ∈ nameRuns [] w := by
  rw [extractVerifierStringQualifiers, Std.TreeSet.mem_toList, Std.TreeSet.mem_ofList]
  simp

theorem getStrippedVerifierString_eq {v : Bytes} (hv : qualifierChar ∉ v) :
    getStrippedVerifierString v = removeWhitespaces v := by
  refine List.filter_eq_self.mpr fun b hb => ?_
  have hmem : b ∈ v := (List.mem_filter.mp hb).1
  simpa using fun h : b = qualifierChar => hv (h ▸ hmem)

/-- A stripped text is resolved exactly when it is a loose formula, once its names are valid. -/
theorem resolves_iff_loose (hdense : ∀ b ∈ w, isSpace b = false) {fuel : Nat} (hfuel : w.length < fuel)
    (hvalid : ∀ q ∈ nameRuns [] w, isQualifierNameValid (qualifierChar :: q) = true) :
    Resolves (allTrue (extractVerifierStringQualifiers w)) fuel w ↔ Loose .formula w := by
  have hread : Readable (extractVerifierStringQualifiers w) w := ⟨hdense, fun q hq => mem_extractVerifierStringQualifiers.mpr hq⟩
  refine ⟨loose_of_resolves (fun q hq => ?_) hread, fun h => resolves_of_loose h hread (by simp [allTrue]) hfuel⟩
  have hq := mem_extractVerifierStringQualifiers.mp hq
  exact ⟨isNameChar_of_mem_nameRuns (by simp) hq, hvalid q hq⟩

/-- What is accepted: `true`, and a loose formula that is short enough. -/
theorem checkVerifierString_accepts_iff {v : Bytes} (hne : v ≠ []) (hv : qualifierChar ∉ v) :
    (∃ found, checkVerifierString v = .ok found) ↔
      v = str "true" ∨ (removeWhitespaces v).length ≤ 80 ∧ Loose .formula (removeWhitespaces v) := by
  by_cases htrue : v = str "true"
  · simp [checkVerifierString, htrue]
  rw [checkVerifierString, if_neg htrue, if_neg (by simpa using hne), getStrippedVerifierString_eq hv]
  set w := removeWhitespaces v with hw
  simp only [htrue, false_or]
  by_cases hlen : 80 < w.length
  · simp [hlen]
  rw [if_neg hlen]
  have hshort : w.length ≤ 80 := by omega
  simp only [hshort, true_and]
  cases hfind : (extractVerifierStringQualifiers w).find? fun q => !isQualifierNameValid (qualifierChar :: q) with
  | some q =>
    have hinvalid := List.find?_some hfind
    have hmem := mem_extractVerifierStringQualifiers.mp (List.mem_of_find?_eq_some hfind)
    constructor
    · rintro ⟨_, ⟨⟩⟩
    · intro h
      simp [(h.isVerifierName_of_mem q hmem).2] at hinvalid
  | none =>
    have hvalid : ∀ q ∈ nameRuns [] w, isQualifierNameValid (qualifierChar :: q) = true := by
      intro q hq
      simpa using List.find?_eq_none.mp hfind q (mem_extractVerifierStringQualifiers.mpr hq)
    have hdense : ∀ b ∈ w, isSpace b = false := fun b hb => by
      simpa using (List.mem_filter.mp hb).2
    have hfuel : w.length < v.length + 1 := Nat.lt_succ_of_le (List.length_filter_le _ _)
    rw [← resolves_iff_loose hdense hfuel hvalid, Resolves]
    have hresolve : LibBoolEE.resolve v (allTrue (extractVerifierStringQualifiers w)) =
        resolveRec (allTrue (extractVerifierStringQualifiers w)) (v.length + 1) w := rfl
    rw [← hresolve]
    unfold allTrue
    cases LibBoolEE.resolve v _ <;> simp

/-- `CheckVerifierString` accepts exactly the formulas of the grammar, unless the text is a loose
formula in which no operand starts at its beginning, behind some `(` or behind some `|`. -/
theorem checkVerifierString_language (v : Bytes) (hne : v ≠ []) (hv : qualifierChar ∉ v) :
    ((∃ found, checkVerifierString v = .ok found) ↔
      v = str "true" ∨
        (removeWhitespaces v).length ≤ 80 ∧ Generates .expr (removeWhitespaces v)) ↔
      (v = str "true" ∨ 80 < (removeWhitespaces v).length ∨
        (Loose .formula (removeWhitespaces v) → OperandsStart (removeWhitespaces v))) := by
  rw [checkVerifierString_accepts_iff hne hv]
  have hgenerates : Generates .expr (removeWhitespaces v) ↔
      Loose .formula (removeWhitespaces v) ∧ OperandsStart (removeWhitespaces v) :=
    ⟨fun h => ⟨loose_of_generates h, operandsStart_of_generates h⟩, fun h => h.1.generates h.2⟩
  rw [hgenerates, ← not_le]
  tauto

/-- A disjunction of two tags. -/
theorem twoTags_language :
    (∃ found, checkVerifierString (str "KYC | TEST") = .ok found) ↔
      str "KYC | TEST" = str "true" ∨ (removeWhitespaces (str "KYC | TEST")).length ≤ 80 ∧
        Generates .expr (removeWhitespaces (str "KYC | TEST")) :=
  (checkVerifierString_language (str "KYC | TEST") (by decide) (by decide)).mpr
    (.inr (.inr fun _ => by unfold OperandsStart OperandChain; decide))

/-- An operator in front of the first operand is passed over. -/
theorem misplacedOperator_accepted :
    (∃ found, checkVerifierString (str "|KYC|TEST") = .ok found) ∧
      ¬ (str "|KYC|TEST" = str "true" ∨ (removeWhitespaces (str "|KYC|TEST")).length ≤ 80 ∧
        Generates .expr (removeWhitespaces (str "|KYC|TEST"))) := by
  refine ⟨⟨[str "KYC", str "TEST"], by decide +kernel⟩, ?_⟩
  rintro (htrue | ⟨-, hgenerates⟩)
  · exact absurd htrue (by decide)
  · have hstart := operandsStart_of_generates hgenerates
    exact absurd ((List.isChain_cons_cons.mp hstart).1 (by decide)) (by decide)

end HempCore
