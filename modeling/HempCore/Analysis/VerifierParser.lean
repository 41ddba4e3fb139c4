import HempCore.Lib.Check
import HempCore.Lib.Nesting
import HempCore.Model.Verifier

/-!
# What `singleParse` splits

`singleParse` cuts a formula at the occurrences of one operator outside every bracket. The text in
front of the first operand is not looked at: characters that start no operand are passed over. The
pieces a formula is cut into determine it up to that text, and back.
-/

set_option autoImplicit false

namespace HempCore.LibBoolEE

open Lib.Nesting
open Lib (foldlM_some_split_invariant)

def inName (ch : UInt8) : Bool := belongsToName ch || ch == 33

/-- The characters at which an operand starts. -/
def startsOperand (ch : UInt8) : Bool := inName ch || ch == 40

/-- The characters passed over in front of an operand, outside every bracket. -/
def isSkipped (ch : UInt8) : Bool := !startsOperand ch && ch != 41

/-- The characters that may stand outside every bracket of a piece. -/
def isInner (op ch : UInt8) : Bool := inName ch || ((ch == 38 || ch == 124) && ch != op)

abbrev parity (s : Bytes) : ℤ := depth 40 41 s

abbrev outside (s : Bytes) : Bytes := outer 40 41 0 s

variable {op ch : UInt8} {w p J : Bytes} {ps : List Bytes}

/-! ## The loop, without positions -/

/-- `singleParse` after a prefix of the formula: the piece it is reading, the brackets open, and the
pieces read. -/
structure Scan where
  piece : Option Bytes
  open_ : ℤ
  pieces : List Bytes

/-- One character of the loop of `singleParse`. -/
def Scan.step (op : UInt8) (s : Scan) (ch : UInt8) : Option Scan :=
  if ch = 41 then some { s with piece := s.piece.map (· ++ [ch]), open_ := s.open_ - 1 }
  else if ch = 40 then some { s with piece := some (s.piece.getD [] ++ [ch]), open_ := s.open_ + 1 }
  else if s.open_ = 0 then
    match s.piece with
    | none => some (if inName ch then { s with piece := some [ch] } else s)
    | some piece =>
      if inName ch then some { s with piece := some (piece ++ [ch]) }
      else if ch = op then some { s with piece := some [], pieces := s.pieces ++ [piece] }
      else if ch ≠ 38 ∧ ch ≠ 124 then none
      else some { s with piece := some (piece ++ [ch]) }
  else some { s with piece := s.piece.map (· ++ [ch]) }

/-- The loop state after the prefix `pre` and its scan. -/
structure ParseState.Scanned (st : ParseState) (pre : Bytes) (s : Scan) : Prop where
  piece : s.piece = st.startPos.map fun start => pre.drop start
  start : ∀ start ∈ st.startPos, start ≤ pre.length
  parity : st.parityCount = s.open_
  pieces : st.subexpressions = s.pieces

namespace ParseState.Scanned

variable {st : ParseState} {pre : Bytes} {s : Scan}

theorem push (h : st.Scanned pre s) (ch : UInt8) (open_ : ℤ) :
    ({ st with parityCount := open_ } : ParseState).Scanned (pre ++ [ch])
      { s with piece := s.piece.map (· ++ [ch]), open_ := open_ } := by
  refine ⟨?_, fun start hstart => ?_, rfl, h.pieces⟩
  · rw [h.piece]
    cases hstart : st.startPos with
    | none => rfl
    | some start => simp [List.drop_append_of_le_length (h.start start hstart)]
  · exact (h.start start hstart).trans (by simp)

theorem begin (h : st.Scanned pre s) (ch : UInt8) (open_ : ℤ) :
    ({ st with startPos := some pre.length, parityCount := open_ } : ParseState).Scanned (pre ++ [ch])
      { s with piece := some [ch], open_ := open_ } := by
  refine ⟨by simp, fun start hstart => ?_, rfl, h.pieces⟩
  obtain rfl : pre.length = start := by simpa using hstart
  simp

theorem step (h : st.Scanned pre s) (op ch : UInt8) (post : Bytes) : match s.step op ch with
    | none => ∃ e, singleParseStep (pre ++ ch :: post) op st (ch, pre.length) = .error e
    | some s' => ∃ st', singleParseStep (pre ++ ch :: post) op st (ch, pre.length) = .ok st' ∧
        st'.Scanned (pre ++ [ch]) s' := by
  have hpush := h.push ch
  have hbegin := h.begin ch
  obtain ⟨startPos, parityCount, subexpressions⟩ := st
  obtain ⟨piece, open_, pieces⟩ := s
  obtain ⟨hpiece, hstart, hparity, hpieces⟩ := h
  simp only at hpiece hstart hparity hpieces
  subst hparity hpieces hpiece
  simp only [Scan.step, singleParseStep, inName]
  by_cases hclose : ch = 41
  · simp only [hclose, ↓reduceIte]
    exact ⟨_, rfl, hclose ▸ hpush _⟩
  by_cases hopen : ch = 40
  · simp only [hopen, ↓reduceIte]
    refine ⟨_, rfl, ?_⟩
    cases startPos with
    | none => exact hopen ▸ hbegin _
    | some start => exact hopen ▸ hpush _
  by_cases hzero : parityCount = 0
  · cases startPos with
    | none =>
      by_cases hname : (belongsToName ch || ch == 33) = true
      · simp only [hclose, hopen, hzero, hname, ↓reduceIte, Option.map_none]
        exact ⟨_, rfl, hbegin _⟩
      · simp only [hclose, hopen, hzero, hname, ↓reduceIte, Option.map_none]
        exact ⟨_, rfl, hpush _⟩
    | some start =>
      by_cases hname : (belongsToName ch || ch == 33) = true
      · simp only [hclose, hopen, hzero, hname, ↓reduceIte, Option.map_some]
        exact ⟨_, rfl, hpush _⟩
      by_cases hop : ch = op
      · have htext : ((pre ++ ch :: post).drop start).take (pre.length - start) = pre.drop start := by
          rw [List.drop_append_of_le_length (hstart start rfl), ← List.length_drop, List.take_left]
        simp only [hclose, hopen, hzero, hname, htext, ↓reduceIte, Option.map_some, ← hop]
        refine ⟨_, rfl, by simp, fun start' hstart' => ?_, rfl, rfl⟩
        obtain rfl : pre.length + 1 = start' := by simpa using hstart'
        simp
      by_cases hother : ch ≠ 38 ∧ ch ≠ 124
      · simp only [hclose, hopen, hzero, hname, hop, if_pos hother, Bool.false_eq_true, ↓reduceIte, Option.map_some]
        exact ⟨_, rfl⟩
      · simp only [hclose, hopen, hzero, hname, hop, hother, ↓reduceIte, Option.map_some]
        exact ⟨_, rfl, hpush _⟩
  · simp only [hclose, hopen, hzero, ↓reduceIte]
    exact ⟨_, rfl, hpush _⟩

theorem run (h : st.Scanned pre s) (op : UInt8) (post : Bytes) : match post.foldlM (Scan.step op) s with
    | none => ∃ e,
        (post.zipIdx pre.length).foldlM (singleParseStep (pre ++ post) op) st = .error e
    | some s' => ∃ st',
        (post.zipIdx pre.length).foldlM (singleParseStep (pre ++ post) op) st = .ok st' ∧ st'.Scanned (pre ++ post) s' := by
  induction post generalizing pre st s with
  | nil => exact ⟨st, rfl, by simpa using h⟩
  | cons ch post ih =>
    have hstep := h.step op ch post
    rw [List.foldlM_cons, List.zipIdx_cons, List.foldlM_cons]
    cases hs : s.step op ch with
    | none =>
      rw [hs] at hstep
      obtain ⟨e, he⟩ := hstep
      exact ⟨e, by rw [he]; rfl⟩
    | some s' =>
      rw [hs] at hstep
      obtain ⟨st', hst, hscanned⟩ := hstep
      have hrest := ih hscanned
      rw [List.append_assoc, List.singleton_append, List.length_append] at hrest
      rw [hst]
      exact hrest

end ParseState.Scanned

def scan (op : UInt8) (formula : Bytes) : Option Scan :=
  formula.foldlM (Scan.step op) ⟨none, 0, []⟩

theorem singleParse_eq_ok_iff :
    singleParse w op = .ok ps ↔ ∃ s, scan op w = some s ∧ s.open_ = 0 ∧ ps = s.pieces ++ s.piece.toList := by
  have hstart : (⟨none, 0, []⟩ : ParseState).Scanned [] ⟨none, 0, []⟩ := ⟨rfl, fun _ h => (by cases h), rfl, rfl⟩
  have hrun := hstart.run op w
  unfold scan singleParse
  cases hs : w.foldlM (Scan.step op) ⟨none, 0, []⟩ with
  | none =>
    rw [hs] at hrun
    obtain ⟨e, he⟩ := hrun
    simp only [List.length_nil, List.nil_append] at he
    simp [he, bind, Except.bind]
  | some s =>
    rw [hs] at hrun
    obtain ⟨st, hst, hscanned⟩ := hrun
    simp only [List.length_nil, List.nil_append] at hst hscanned
    simp only [hst, bind, Except.bind, Option.some.injEq, exists_eq_left']
    rw [← hscanned.parity, ← hscanned.pieces, hscanned.piece]
    by_cases hzero : st.parityCount = 0
    · cases hpos : st.startPos with
      | none => simp [hzero, eq_comm]
      | some start => simp [hzero, eq_comm]
    · simp [hzero]

/-! ## The pieces of a formula -/

/-- Pieces that `singleParse` keeps apart: brackets are balanced in all but the last, outside of them
stand names and the other operator, and the first one starts an operand. -/
structure Pieces (op : UInt8) (ps : List Bytes) (last : Bytes) : Prop where
  balanced : ∀ p ∈ ps, parity p = 0
  inner : ∀ p ∈ ps ++ [last], ∀ b ∈ outside p, isInner op b = true
  start : ∃ b t, [op].intercalate (ps ++ [last]) = b :: t ∧ startsOperand b = true

/-- Text passed over before the first operand. Behind an unopened bracket anything but an opening
one is. -/
def Passed (J : Bytes) : Prop :=
  40 ∉ J ∧ ((∀ b ∈ J, isSkipped b = true) ∨ ∃ a t, J = a ++ 41 :: t ∧ ∀ b ∈ a, isSkipped b = true)

/-- What the scan has found in the prefix `pre`. -/
def Scan.Found (op : UInt8) (pre : Bytes) (s : Scan) : Prop :=
  s.open_ = parity pre ∧ match s.piece with
    | none => s.pieces = [] ∧ Passed pre
    | some last => ∃ J, Passed J ∧ pre = J ++ [op].intercalate (s.pieces ++ [last]) ∧
        (41 ∉ J → Pieces op s.pieces last)

theorem isSkipped_iff : isSkipped ch = true ↔ startsOperand ch = false ∧ ch ≠ 41 := by
  simp [isSkipped]

theorem ne_open_of_isSkipped (h : isSkipped ch = true) : ch ≠ 40 := by
  rintro rfl
  exact absurd h (by decide)

theorem Passed.nil : Passed [] := ⟨by simp, .inl (by simp)⟩

theorem Passed.skipped (h : Passed J) (hclose : 41 ∉ J) : ∀ b ∈ J, isSkipped b = true := by
  rcases h.2 with h | ⟨a, t, rfl, -⟩
  · exact h
  · exact absurd (by simp) hclose

theorem parity_eq_zero_of_skipped (h : ∀ b ∈ J, isSkipped b = true) : parity J = 0 :=
  depth_eq_zero_of_forall (fun hmem => absurd (h _ hmem) (by decide))
    fun hmem => absurd (h _ hmem) (by decide)

/-- Text is passed over until a bracket opens or, outside every bracket, an operand starts. -/
theorem Passed.push (h : Passed J) (hopen : ch ≠ 40)
    (hname : ch ≠ 41 → parity J = 0 → inName ch = false) : Passed (J ++ [ch]) := by
  refine ⟨by simp [h.1, Ne.symm hopen], ?_⟩
  rcases h.2 with hskip | ⟨a, t, rfl, ha⟩
  · by_cases hclose : ch = 41
    · exact .inr ⟨J, [], by rw [hclose], hskip⟩
    · left
      intro b hb
      rcases List.mem_append.mp hb with hb | hb
      · exact hskip b hb
      · obtain rfl := List.mem_singleton.mp hb
        simp [isSkipped_iff, startsOperand, hname hclose (parity_eq_zero_of_skipped hskip), hopen, hclose]
  · exact .inr ⟨a, t ++ [ch], by simp, ha⟩

theorem Pieces.parity_last {last : Bytes} (h : Pieces op ps last) (hop : op ≠ 40 ∧ op ≠ 41)
    (hJ : ∀ b ∈ J, isSkipped b = true) : parity (J ++ [op].intercalate (ps ++ [last])) = parity last := by
  have hdone : parity (ps.flatMap (· ++ [op])) = 0 := by
    have hbalanced := h.balanced
    clear h
    induction ps with
    | nil => simp
    | cons p ps ih =>
      have hrest := ih fun q hq => hbalanced q (List.mem_cons_of_mem _ hq)
      simp only [List.flatMap_cons, depth_append, hrest, hbalanced p List.mem_cons_self, depth_other hop.1 hop.2, add_zero]
  simp only [intercalate_concat, depth_append, hdone, parity_eq_zero_of_skipped hJ, zero_add]

section Pieces

variable {last : Bytes} {pre : Bytes} {s s' : Scan}

theorem intercalate_push (ps : List Bytes) (last : Bytes) (ch : UInt8) :
    [op].intercalate (ps ++ [last ++ [ch]]) = [op].intercalate (ps ++ [last]) ++ [ch] := by
  simp only [intercalate_concat, List.append_assoc]

theorem Pieces.push (h : Pieces op ps last) (hch : ∀ b ∈ outer 40 41 (parity last) [ch], isInner op b = true) :
    Pieces op ps (last ++ [ch]) := by
  refine ⟨h.balanced, fun p hp b hb => ?_, ?_⟩
  · rcases List.mem_append.mp hp with hp | hp
    · exact h.inner p (List.mem_append_left _ hp) b hb
    · rw [List.mem_singleton.mp hp, outside, outer_append (by decide), zero_add] at hb
      rcases List.mem_append.mp hb with hb | hb
      · exact h.inner last (by simp) b hb
      · exact hch b hb
  · obtain ⟨b, t, htext, hb⟩ := h.start
    exact ⟨b, t ++ [ch], by rw [intercalate_push, htext, List.cons_append], hb⟩

theorem Pieces.next (h : Pieces op ps last) (hlast : parity last = 0) : Pieces op (ps ++ [last]) [] := by
  refine ⟨fun p hp => ?_, fun p hp b hb => ?_, ?_⟩
  · rcases List.mem_append.mp hp with hp | hp
    · exact h.balanced p hp
    · rw [List.mem_singleton.mp hp, hlast]
  · rcases List.mem_append.mp hp with hp | hp
    · exact h.inner p hp b hb
    · rw [List.mem_singleton.mp hp] at hb
      cases hb
  · obtain ⟨b, t, htext, hb⟩ := h.start
    refine ⟨b, t ++ [op], ?_, hb⟩
    rw [intercalate_concat] at htext
    rw [intercalate_concat, List.flatMap_append, List.append_nil, ← List.cons_append, ← htext]
    simp

theorem Pieces.begin (hstart : startsOperand ch = true) (hch : ∀ b ∈ outside [ch], isInner op b = true) : Pieces op [] [ch] :=
  ⟨by simp, by simpa using hch, ch, [], by simp, hstart⟩

theorem isInner_of_inName (h : inName ch = true) : isInner op ch = true := by simp [isInner, h]

theorem isInner_of_kept (hop : ch ≠ op) (h : ¬ (ch ≠ 38 ∧ ch ≠ 124)) : isInner op ch = true := by
  simp only [isInner, Bool.or_eq_true, Bool.and_eq_true, beq_iff_eq, bne_iff_ne]
  exact .inr ⟨by tauto, hop⟩

theorem mem_outer_singleton {d : ℤ} {b : UInt8} : b ∈ outer 40 41 d [ch] ↔ b = ch ∧ d = 0 ∧ ch ≠ 40 ∧ ch ≠ 41 := by
  unfold outer
  split_ifs <;> simp_all [outer]

variable (hop : op ≠ 40 ∧ op ≠ 41) {open_ : ℤ} {pieces : List Bytes}

theorem parity_push (h : open_ = parity pre) (ch : UInt8) : open_ + parity [ch] = parity (pre ++ [ch]) := by
  rw [h]
  exact (depth_append _ _ _ _).symm

include hop in
theorem Scan.Found.push (h : Scan.Found op pre ⟨some last, open_, pieces⟩) (ch : UInt8)
    (hch : ch ≠ 40 → ch ≠ 41 → open_ = 0 → isInner op ch = true) :
    Scan.Found op (pre ++ [ch]) ⟨some (last ++ [ch]), open_ + parity [ch], pieces⟩ := by
  obtain ⟨hopen, J, hpassed, hpre, hpieces⟩ := h
  simp only at hopen hpre hpieces
  refine ⟨?_, J, hpassed, by rw [intercalate_push, ← List.append_assoc, ← hpre], fun hclose =>
    (hpieces hclose).push fun b hb => ?_⟩
  · exact parity_push hopen ch
  · obtain ⟨rfl, hzero, hne⟩ := mem_outer_singleton.mp hb
    rw [← (hpieces hclose).parity_last hop (hpassed.skipped hclose), ← hpre, ← hopen] at hzero
    exact hch hne.1 hne.2 hzero

include hop in
theorem Scan.Found.cut (h : Scan.Found op pre ⟨some last, 0, pieces⟩) :
    Scan.Found op (pre ++ [op]) ⟨some [], 0, pieces ++ [last]⟩ := by
  obtain ⟨hopen, J, hpassed, hpre, hpieces⟩ := h
  simp only at hopen hpre hpieces
  refine ⟨?_, J, hpassed, ?_, fun hclose => (hpieces hclose).next ?_⟩
  · simpa [depth_other hop.1 hop.2] using parity_push hopen op
  · rw [hpre, intercalate_concat (pieces ++ [last]), intercalate_concat]
    simp
  · rw [← (hpieces hclose).parity_last hop (hpassed.skipped hclose), ← hpre, ← hopen]

theorem Scan.Found.pass (h : Scan.Found op pre ⟨none, open_, pieces⟩) (hne : ch ≠ 40)
    (hch : ch ≠ 41 → open_ = 0 → inName ch = false) :
    Scan.Found op (pre ++ [ch]) ⟨none, open_ + parity [ch], pieces⟩ := by
  obtain ⟨hopen, hnil, hpassed⟩ := h
  simp only at hopen hnil
  exact ⟨parity_push hopen ch, hnil, hpassed.push hne fun hclose hzero => hch hclose (hopen.trans hzero)⟩

theorem Scan.Found.begin (h : Scan.Found op pre ⟨none, open_, pieces⟩) (hch : ch = 40 ∨ inName ch = true) :
    Scan.Found op (pre ++ [ch]) ⟨some [ch], open_ + parity [ch], pieces⟩ := by
  obtain ⟨hopen, hnil, hpassed⟩ := h
  simp only at hopen hnil
  subst hnil
  have hstart : startsOperand ch = true := by
    rcases hch with rfl | hch <;> simp [startsOperand, *]
  refine ⟨?_, pre, hpassed, by simp, fun _ => Pieces.begin hstart fun b hb => ?_⟩
  · exact parity_push hopen ch
  · obtain ⟨rfl, -, hne, -⟩ := mem_outer_singleton.mp hb
    exact isInner_of_inName (hch.resolve_left hne)

theorem Scan.Found.step (hop : op ≠ 40 ∧ op ≠ 41) (h : s.Found op pre)
    (hstep : s.step op ch = some s') : s'.Found op (pre ++ [ch]) := by
  obtain ⟨piece, open_, pieces⟩ := s
  unfold Scan.step at hstep
  by_cases hclose : ch = 41
  · subst hclose
    rw [if_pos rfl, Option.some.injEq] at hstep
    rw [← hstep, sub_eq_add_neg, ← show parity [41] = -1 from rfl]
    cases piece with
    | none => exact h.pass (by decide) (by simp)
    | some last => exact h.push hop _ (by simp)
  rw [if_neg hclose] at hstep
  by_cases hopen : ch = 40
  · subst hopen
    rw [if_pos rfl, Option.some.injEq] at hstep
    rw [← hstep, ← show parity [40] = 1 from rfl]
    cases piece with
    | none => exact h.begin (.inl rfl)
    | some last => exact h.push hop _ (by simp)
  rw [if_neg hopen] at hstep
  have hother : parity [ch] = 0 := depth_other hopen hclose
  by_cases hzero : open_ = 0
  · rw [if_pos hzero] at hstep
    cases piece with
    | none =>
      rw [Option.some.injEq] at hstep
      by_cases hname : inName ch = true
      · rw [if_pos hname] at hstep
        have hnext := h.begin (.inr hname)
        rw [hother, add_zero] at hnext
        rwa [← hstep]
      · rw [if_neg hname] at hstep
        have hnext := h.pass hopen fun _ _ => by simpa using hname
        rw [hother, add_zero] at hnext
        rwa [← hstep]
    | some last =>
      simp only at hstep
      by_cases hcut : inName ch = false ∧ ch = op
      · obtain ⟨hname, rfl⟩ := hcut
        subst hzero
        simp only [hname, Bool.false_eq_true, ↓reduceIte, Option.some.injEq] at hstep
        rw [← hstep]
        exact h.cut hop
      · have hkept : isInner op ch = true ∧ s' = ⟨some (last ++ [ch]), open_, pieces⟩ := by
          split_ifs at hstep with hname hcut' hkept
          · exact ⟨isInner_of_inName hname, (Option.some.inj hstep).symm⟩
          · exact absurd ⟨by simpa using hname, hcut'⟩ hcut
          · exact ⟨isInner_of_kept hcut' hkept, (Option.some.inj hstep).symm⟩
        have hnext := h.push hop ch fun _ _ _ => hkept.1
        rw [hother, add_zero] at hnext
        rwa [hkept.2]
  · rw [if_neg hzero, Option.some.injEq] at hstep
    rw [← hstep]
    cases piece with
    | none =>
      have hnext := h.pass hopen fun _ h0 => absurd h0 hzero
      rwa [hother, add_zero] at hnext
    | some last =>
      have hnext := h.push hop ch fun _ _ h0 => absurd h0 hzero
      rwa [hother, add_zero] at hnext

end Pieces

/-! ## Splitting and joining -/

/-- Pieces that `singleParse` keeps apart, all of them read. -/
structure Splits (op : UInt8) (ps : List Bytes) : Prop where
  balanced : ∀ p ∈ ps, parity p = 0
  inner : ∀ p ∈ ps, ∀ b ∈ outside p, isInner op b = true
  start : ∃ b t, [op].intercalate ps = b :: t ∧ startsOperand b = true

theorem splits_of_singleParse (hop : op ≠ 40 ∧ op ≠ 41) (h : singleParse w op = .ok ps) (hne : ps ≠ []) :
    parity w = 0 ∧ ∃ J, Passed J ∧ w = J ++ [op].intercalate ps ∧ (41 ∉ J → Splits op ps) := by
  obtain ⟨s, hscan, hopen, hps⟩ := singleParse_eq_ok_iff.mp h
  have hstart : Scan.Found op [] ⟨none, 0, []⟩ := ⟨rfl, rfl, Passed.nil⟩
  have hfound : s.Found op w :=
    foldlM_some_split_invariant (Scan.Found op) (fun _ _ _ _ _ _ hs hstep => hs.step hop hstep) hstart hscan
  obtain ⟨hparity, hfound⟩ := hfound
  rw [hopen] at hparity
  refine ⟨hparity.symm, ?_⟩
  cases hpiece : s.piece with
  | none =>
    rw [hpiece] at hfound hps
    rw [hfound.1] at hps
    exact absurd hps hne
  | some last =>
    rw [hpiece] at hfound hps
    obtain ⟨J, hpassed, hw, hpieces⟩ := hfound
    have hps' : ps = s.pieces ++ [last] := hps
    rw [← hps'] at hw
    refine ⟨J, hpassed, hw, fun hclose => ?_⟩
    have hlast := (hpieces hclose).parity_last hop (hpassed.skipped hclose)
    rw [← hps', ← hw, ← hparity] at hlast
    subst hps'
    refine ⟨fun p hp => ?_, (hpieces hclose).inner, (hpieces hclose).start⟩
    rcases List.mem_append.mp hp with hp | hp
    · exact (hpieces hclose).balanced p hp
    · rw [List.mem_singleton.mp hp, ← hlast]

theorem scan_skipped (hJ : ∀ b ∈ J, isSkipped b = true) : J.foldlM (Scan.step op) ⟨none, 0, []⟩ = some ⟨none, 0, []⟩ := by
  induction J with
  | nil => rfl
  | cons b J ih =>
    have hb := hJ b List.mem_cons_self
    have hne := ne_open_of_isSkipped hb
    simp only [isSkipped_iff, startsOperand, Bool.or_eq_false_iff] at hb
    rw [List.foldlM_cons, ← ih fun b hb => hJ b (List.mem_cons_of_mem _ hb)]
    simp [Scan.step, hb, hne]

theorem scan_piece {d : ℤ} (pieces : List Bytes) (last : Bytes) (hp : ∀ b ∈ outer 40 41 d p, isInner op b = true) :
    p.foldlM (Scan.step op) ⟨some last, d, pieces⟩ = some ⟨some (last ++ p), d + parity p, pieces⟩ := by
  induction p generalizing last d with
  | nil => simp [pure]
  | cons ch p ih =>
    have hstep : Scan.step op ⟨some last, d, pieces⟩ ch = some ⟨some (last ++ [ch]), d + parity [ch], pieces⟩ := by
      unfold Scan.step
      by_cases hclose : ch = 41
      · rw [if_pos hclose, hclose]
        rfl
      by_cases hopen : ch = 40
      · rw [if_neg hclose, if_pos hopen, hopen]
        rfl
      rw [if_neg hclose, if_neg hopen, parity, depth_other hopen hclose, add_zero]
      by_cases hzero : d = 0
      · have hinner : isInner op ch = true := hp ch (by simp [outer, hopen, hclose, hzero])
        simp only [isInner, Bool.or_eq_true, Bool.and_eq_true, beq_iff_eq, bne_iff_ne] at hinner
        rcases hinner with hname | ⟨hops, hne⟩
        · simp [hzero, hname]
        · have hkept : ¬ (ch ≠ 38 ∧ ch ≠ 124) := by tauto
          simp only [hzero, hne, if_neg hkept, ↓reduceIte, ite_self]
      · rw [if_neg hzero]
        rfl
    have hsplit : outer 40 41 d (ch :: p) = outer 40 41 d [ch] ++ outer 40 41 (d + parity [ch]) p :=
      outer_append (by decide) d [ch] p
    have hrest := ih (last ++ [ch]) fun b hb => hp b (by rw [hsplit]; exact List.mem_append_right _ hb)
    have hdepth : parity (ch :: p) = parity [ch] + parity p := depth_cons _ _ _ _
    rw [List.foldlM_cons, hstep, hdepth, ← add_assoc]
    simpa using hrest

theorem scan_pieces (hop : op = 38 ∨ op = 124) {q : Bytes} (pieces : List Bytes) (last : Bytes)
    (hbalanced : ∀ p ∈ q :: ps, parity p = 0) (hinner : ∀ p ∈ q :: ps, ∀ b ∈ outside p, isInner op b = true) :
    ∃ s, ([op].intercalate (q :: ps)).foldlM (Scan.step op) ⟨some last, 0, pieces⟩ = some s ∧ s.open_ = 0 ∧
      s.pieces ++ s.piece.toList = pieces ++ (last ++ q) :: ps := by
  have hfirst := scan_piece pieces last (hinner q List.mem_cons_self)
  rw [hbalanced q List.mem_cons_self, add_zero] at hfirst
  induction ps generalizing q pieces last with
  | nil =>
    rw [List.intercalate_singleton]
    exact ⟨_, hfirst, rfl, rfl⟩
  | cons q' ps ih =>
    have hcut : Scan.step op ⟨some (last ++ q), 0, pieces⟩ op = some ⟨some [], 0, pieces ++ [last ++ q]⟩ := by
      rcases hop with rfl | rfl <;> rfl
    have hbalanced' := fun p hp => hbalanced p (List.mem_cons_of_mem _ hp)
    have hinner' := fun p hp => hinner p (List.mem_cons_of_mem _ hp)
    have hnext := scan_piece (pieces ++ [last ++ q]) [] (hinner' q' List.mem_cons_self)
    rw [hbalanced' q' List.mem_cons_self, add_zero] at hnext
    obtain ⟨s, hs, hopen, hpieces⟩ := ih _ [] hbalanced' hinner' hnext
    refine ⟨s, ?_, hopen, by simpa using hpieces⟩
    rw [List.intercalate_cons_cons, List.foldlM_append, List.foldlM_append, hfirst]
    simpa [hcut] using hs

theorem step_begin {b : UInt8} (hb : startsOperand b = true) :
    Scan.step op ⟨none, 0, []⟩ b = Scan.step op ⟨some [], 0, []⟩ b := by
  simp only [startsOperand, Bool.or_eq_true, beq_iff_eq] at hb
  by_cases hclose : b = 41
  · subst hclose
    exact absurd hb (by decide)
  rcases hb with hname | rfl
  · by_cases hopen : b = 40 <;> simp [Scan.step, hclose, hopen, hname]
  · rfl

theorem singleParse_of_splits (hop : op = 38 ∨ op = 124) (hJ : ∀ b ∈ J, isSkipped b = true)
    (h : Splits op ps) : singleParse (J ++ [op].intercalate ps) op = .ok ps := by
  obtain ⟨b, t, htext, hb⟩ := h.start
  cases ps with
  | nil => cases htext
  | cons q ps =>
    obtain ⟨s, hs, hopen, hpieces⟩ := scan_pieces hop [] [] h.balanced h.inner
    refine singleParse_eq_ok_iff.mpr ⟨s, ?_, hopen, by simpa using hpieces.symm⟩
    rw [htext, List.foldlM_cons, ← step_begin hb, ← List.foldlM_cons, ← htext] at hs
    rw [scan, List.foldlM_append, scan_skipped hJ]
    exact hs

/-! ## One level of `resolve` -/

section Resolve

variable {valuation : Bytes → Option Bool} {fuel : Nat}

/-- The evaluation of a formula ends without an exception. -/
def Resolves (valuation : Bytes → Option Bool) (fuel : Nat) (source : Bytes) : Prop :=
  ∃ b, resolveRec valuation fuel source = .ok b

def ResolvesAtom (valuation : Bytes → Option Bool) (fuel : Nat) (source : Bytes) : Prop :=
  if byteAt source 0 = 33 then Resolves valuation fuel (removeWhitespaces (source.drop 1))
  else if byteAt source 0 = 40 then
    Resolves valuation fuel (removeWhitespaces ((source.drop 1).take (source.length - 2)))
  else source = str "1" ∨ source = str "0" ∨ (valuation source).isSome

theorem exists_foldlM_map_ok (f : Bytes → Except String Bool) (g : Bool → Bool → Bool) (ps : List Bytes) (r : Bool) :
    (∃ b, ps.foldlM (fun r p => (f p).map (g r)) r = .ok b) ↔ ∀ p ∈ ps, ∃ b, f p = .ok b := by
  induction ps generalizing r with
  | nil => simp [pure, Except.pure]
  | cons p ps ih =>
    rw [List.forall_mem_cons, List.foldlM_cons]
    cases hp : f p with
    | error e => simp [bind, Except.bind, Except.map]
    | ok b => simpa [bind, Except.bind, Except.map] using ih (g r b)

theorem resolvesAtom_iff {source : Bytes} :
    ResolvesAtom valuation fuel source ↔ ∃ b,
      (if byteAt source 0 = 33 then do
          let b ← resolveRec valuation fuel (removeWhitespaces (source.drop 1))
          pure (!b)
        else if byteAt source 0 = 40 then
          resolveRec valuation fuel (removeWhitespaces ((source.drop 1).take (source.length - 2)))
        else if source = str "1" then pure true
        else if source = str "0" then pure false
        else
          match valuation source with
          | none => .error ("Variable '" ++ showBytes source ++ "' not found in the interpretation.")
          | some b => pure b : Except String Bool) = .ok b := by
  unfold ResolvesAtom Resolves
  split_ifs with hnot hparen hone hzero
  · cases resolveRec valuation fuel (removeWhitespaces (source.drop 1)) <;>
      simp [bind, Except.bind, pure, Except.pure]
  · rfl
  · simp [hone]
  · simp [hzero]
  · cases valuation source <;> simp [hone, hzero]

/-- A formula is a disjunction, or a conjunction, or has no operator outside its brackets. -/
theorem resolves_succ_iff :
    Resolves valuation (fuel + 1) w ↔ w ≠ [] ∧
      ((∃ ps, singleParse w 124 = .ok ps ∧ 2 ≤ ps.length ∧ ∀ p ∈ ps, Resolves valuation fuel (removeWhitespaces p)) ∨
        ∃ p, singleParse w 124 = .ok [p] ∧
          ((∃ qs, singleParse w 38 = .ok qs ∧ 2 ≤ qs.length ∧ ∀ q ∈ qs, Resolves valuation fuel (removeWhitespaces q)) ∨
            ∃ q, singleParse w 38 = .ok [q] ∧ ResolvesAtom valuation fuel w)) := by
  by_cases hw : w = []
  · simp [Resolves, resolveRec, hw]
  rw [Resolves, resolveRec.eq_2]
  simp only [List.isEmpty_iff, hw, if_false, ne_eq, not_false_eq_true, true_and]
  cases singleParse w 124 with
  | error e => simp
  | ok ps =>
    match ps with
    | [] => simp
    | p :: p' :: ps =>
      have hlen : (p :: p' :: ps).length ≠ 1 := by simp
      have hall := exists_foldlM_map_ok (fun s => resolveRec valuation fuel (removeWhitespaces s)) or (p :: p' :: ps) false
      simp only [bind, Except.bind, pure, Except.pure, if_neg hlen, ↓reduceIte]
      refine hall.trans ⟨fun h => .inl ⟨_, rfl, by simp, h⟩, ?_⟩
      rintro (⟨ps, hps, -, h⟩ | ⟨q, hq, -⟩)
      · cases hps
        exact h
      · simp at hq
    | [p] =>
      cases singleParse w 38 with
      | error e => simp
      | ok qs =>
        match qs with
        | [] => simp
        | q :: q' :: qs =>
          have hall := exists_foldlM_map_ok (fun s => resolveRec valuation fuel (removeWhitespaces s)) and (q :: q' :: qs) true
          simp only [bind, Except.bind, pure, Except.pure, List.length_singleton, ↓reduceIte]
          refine hall.trans ⟨fun h => .inr ⟨p, rfl, .inl ⟨_, rfl, by simp, h⟩⟩, ?_⟩
          rintro (⟨ps, hps, hlen, -⟩ | ⟨_, -, ⟨qs, hqs, -, h⟩ | ⟨q, hq, -⟩⟩)
          · cases hps
            simp at hlen
          · cases hqs
            exact h
          · simp at hq
        | [q] =>
          simp only [bind, Except.bind, pure, Except.pure, List.length_singleton, ↓reduceIte]
          refine resolvesAtom_iff.symm.trans ⟨fun h => .inr ⟨p, rfl, .inr ⟨q, rfl, h⟩⟩, ?_⟩
          rintro (⟨ps, hps, hlen, -⟩ | ⟨_, -, ⟨qs, hqs, hlen, -⟩ | ⟨q, hq, h⟩⟩)
          · cases hps
            simp at hlen
          · cases hqs
            simp at hlen
          · exact h

end Resolve

end HempCore.LibBoolEE
