import HempCore.Analysis.VerifierLanguage
import HempCore.Model.Contextual

/-!
# The value of a verifier string

`CheckVerifierString` tries a formula with every name true. Whether the evaluation ends without an
exception does not depend on the values of the names, so a formula that was accepted can be evaluated
for every address. For a formula of the grammar the result is its truth value.
-/

set_option autoImplicit false

namespace HempCore

open LibBoolEE Lib.Nesting

variable {names : List Bytes} {w p q : Bytes} {ps : List Bytes} {fuel : Nat} {op : UInt8}
  {valuation : Bytes → Option Bool}

/-! ## Truth values -/

/-- The formulas of the grammar with their values: `!` binds tighter than `&`, which binds tighter than
`|`. -/
inductive Denotes (value : Bytes → Bool) : Symbol → Bytes → Bool → Prop
  | expr {ts : List (Bytes × Bool)} (hne : ts ≠ []) (hts : ∀ t ∈ ts, Denotes value .term t.1 t.2) :
      Denotes value .expr ([124].intercalate (ts.map Prod.fst)) (ts.any Prod.snd)
  | term {fs : List (Bytes × Bool)} (hne : fs ≠ []) (hfs : ∀ f ∈ fs, Denotes value .factor f.1 f.2) :
      Denotes value .term ([38].intercalate (fs.map Prod.fst)) (fs.all Prod.snd)
  | not {f : Bytes} {b : Bool} (hf : Denotes value .factor f b) : Denotes value .factor (33 :: f) (!b)
  | paren {e : Bytes} {b : Bool} (he : Denotes value .expr e b) :
      Denotes value .factor (40 :: (e ++ [41])) b
  | name {n : Bytes} (hn : isVerifierName n) : Denotes value .factor n (value n)

variable {value : Bytes → Bool} {sym : Symbol} {b : Bool}

theorem Denotes.generates (h : Denotes value sym w b) : Generates sym w := by
  induction h with
  | expr hne hts ih => exact .expr (by simpa using hne) (List.forall_mem_map.mpr ih)
  | term hne hfs ih => exact .term (by simpa using hne) (List.forall_mem_map.mpr ih)
  | not hf ih => exact .not ih
  | paren he ih => exact .paren ih
  | name hn => exact .name hn

theorem Generates.denotes (value : Bytes → Bool) (h : Generates sym w) : ∃ b, Denotes value sym w b := by
  -- the operands of a list, each with the value it has
  have hpairs : ∀ {sym : Symbol} (ts : List Bytes), (∀ t ∈ ts, ∃ b, Denotes value sym t b) →
      ∃ pairs : List (Bytes × Bool), pairs.map Prod.fst = ts ∧ ∀ t ∈ pairs, Denotes value sym t.1 t.2 := by
    intro sym ts hts
    choose! f hf using hts
    refine ⟨ts.map fun t => (t, f t), by simp [Function.comp_def], fun t ht => ?_⟩
    obtain ⟨s, hs, rfl⟩ := List.mem_map.mp ht
    exact hf s hs
  induction h with
  | expr hne hts ih =>
    obtain ⟨pairs, rfl, hdenotes⟩ := hpairs _ ih
    exact ⟨_, .expr (by simpa using hne) hdenotes⟩
  | term hne hfs ih =>
    obtain ⟨pairs, rfl, hdenotes⟩ := hpairs _ ih
    exact ⟨_, .term (by simpa using hne) hdenotes⟩
  | not hf ih =>
    obtain ⟨b, hb⟩ := ih
    exact ⟨!b, .not hb⟩
  | paren he ih =>
    obtain ⟨b, hb⟩ := ih
    exact ⟨b, .paren hb⟩
  | @name n hn => exact ⟨value n, .name hn⟩

/-! ## One level of `resolve` -/

theorem foldlM_map_values {f : Bytes → Except String Bool} (g : Bool → Bool → Bool)
    (ts : List (Bytes × Bool)) (hts : ∀ t ∈ ts, f t.1 = .ok t.2) (r : Bool) :
    (ts.map Prod.fst).foldlM (fun r s => (f s).map (g r)) r = .ok (ts.foldl (fun r t => g r t.2) r) := by
  induction ts generalizing r with
  | nil => rfl
  | cons t ts ih =>
    rw [List.map_cons, List.foldlM_cons, hts t List.mem_cons_self]
    exact ih (fun s hs => hts s (List.mem_cons_of_mem _ hs)) (g r t.2)

theorem foldl_or_eq (ts : List (Bytes × Bool)) (r : Bool) : ts.foldl (fun r t => r || t.2) r = (r || ts.any Prod.snd) := by
  induction ts generalizing r with
  | nil => simp
  | cons t ts ih => simp [ih, Bool.or_assoc]

theorem foldl_and_eq (ts : List (Bytes × Bool)) (r : Bool) : ts.foldl (fun r t => r && t.2) r = (r && ts.all Prod.snd) := by
  induction ts generalizing r with
  | nil => simp
  | cons t ts ih => simp [ih, Bool.and_assoc]

theorem resolveRec_bar (hw : w ≠ []) (hps : singleParse w 124 = .ok ps) (hlen : 2 ≤ ps.length) :
    resolveRec valuation (fuel + 1) w =
      ps.foldlM (fun r s => (resolveRec valuation fuel (removeWhitespaces s)).map (r || ·)) false := by
  match ps, hlen with
  | p :: p' :: ps, _ =>
    simp only [resolveRec, List.isEmpty_iff, hw, if_false, hps, bind, Except.bind, pure, Except.pure]
    rfl

theorem resolveRec_amp (hw : w ≠ []) (hp : singleParse w 124 = .ok [p]) (hps : singleParse w 38 = .ok ps) (hlen : 2 ≤ ps.length) :
    resolveRec valuation (fuel + 1) w =
      ps.foldlM (fun r s => (resolveRec valuation fuel (removeWhitespaces s)).map (r && ·)) true := by
  match ps, hlen with
  | q :: q' :: ps, _ =>
    simp only [resolveRec, List.isEmpty_iff, hw, if_false, hp, hps, bind, Except.bind, pure, Except.pure]
    rfl

theorem singleParse_factor (h : Loose .factor w) (hop : op = 38 ∨ op = 124) : singleParse w op = .ok [w] :=
  singleParse_self (J := []) hop (by simp) h.enclosed h.starts_factor
    fun b hb => isInner_of_inName (h.outside b hb)

theorem resolveRec_not {f : Bytes} (h : Loose .factor (33 :: f)) :
    resolveRec valuation (fuel + 1) (33 :: f) = (resolveRec valuation fuel (removeWhitespaces f)).map not := by
  simp only [resolveRec, List.isEmpty_cons, Bool.false_eq_true, if_false, singleParse_factor h (.inr rfl),
    singleParse_factor h (.inl rfl), bind, Except.bind, pure, Except.pure, List.length_singleton, if_true,
    byteAt_zero, List.drop_one, List.tail_cons]
  cases resolveRec valuation fuel (removeWhitespaces f) <;> rfl

theorem resolveRec_paren {e : Bytes} (h : Loose .factor (40 :: (e ++ [41]))) :
    resolveRec valuation (fuel + 1) (40 :: (e ++ [41])) = resolveRec valuation fuel (removeWhitespaces e) := by
  have hinner : ((40 :: (e ++ [41])).drop 1).take ((40 :: (e ++ [41])).length - 2) = e := by simp
  simp only [resolveRec, List.isEmpty_cons, Bool.false_eq_true, if_false, singleParse_factor h (.inr rfl),
    singleParse_factor h (.inl rfl), bind, Except.bind, pure, Except.pure, List.length_singleton, if_true,
    byteAt_zero, hinner]
  rfl

theorem resolveRec_name {n : Bytes} (hn : isVerifierName n) (hvalue : valuation n = some b) :
    resolveRec valuation (fuel + 1) n = .ok b := by
  obtain ⟨c, t, rfl, -⟩ := (Loose.name hn).starts_factor
  have hc := hn.1 c List.mem_cons_self
  have hthree := hn.three_le
  have hnot : c ≠ 33 := by
    rintro rfl
    exact absurd hc (by decide)
  have hparen : c ≠ 40 := by
    rintro rfl
    exact absurd hc (by decide)
  have hone : c :: t ≠ str "1" := fun h => absurd (h ▸ hthree) (by decide)
  have hzero : c :: t ≠ str "0" := fun h => absurd (h ▸ hthree) (by decide)
  simp only [resolveRec, List.isEmpty_cons, Bool.false_eq_true, if_false,
    singleParse_factor (.name hn) (.inr rfl), singleParse_factor (.name hn) (.inl rfl), bind, Except.bind,
    pure, Except.pure, List.length_singleton, if_true, byteAt_zero, hnot, hparen, hone, hzero, hvalue]

/-! ## Formulas of the grammar -/

theorem singleParse_terms (hne : ps ≠ []) (hps : ∀ p ∈ ps, Generates .term p) :
    singleParse ([124].intercalate ps) 124 = .ok ps ∧ [124].intercalate ps ≠ [] := by
  have hloose : ∀ p ∈ ps, Loose .term p := fun p hp => loose_of_generates (hps p hp)
  have hstart : Starts ([124].intercalate ps) := by
    obtain ⟨p, rest, rfl⟩ := List.exists_cons_of_ne_nil hne
    exact (hloose p List.mem_cons_self).starts_term.intercalate
  have hsplits : Splits 124 ps := ⟨Loose.parity_of_mem hloose, fun p hp => (hloose p hp).outside, hstart⟩
  obtain ⟨c, rest, htext, -⟩ := hstart
  exact ⟨singleParse_of_splits (J := []) (.inr rfl) (by simp) hsplits, by simp [htext]⟩

theorem singleParse_factors (hne : ps ≠ []) (hps : ∀ p ∈ ps, Generates .factor p) :
    singleParse ([38].intercalate ps) 38 = .ok ps ∧
      singleParse ([38].intercalate ps) 124 = .ok [[38].intercalate ps] ∧ [38].intercalate ps ≠ [] := by
  have hloose : ∀ p ∈ ps, Loose .factor p := fun p hp => loose_of_generates (hps p hp)
  have hstart := Loose.starts_factors hne hloose
  have henclosed : Enclosed 40 41 ([38].intercalate ps) := .intercalate (by decide) (by decide) fun p hp => (hloose p hp).enclosed
  have hsplits : Splits 38 ps := ⟨Loose.parity_of_mem hloose,
    fun p hp b hb => isInner_of_inName ((hloose p hp).outside b hb), hstart⟩
  have hwhole : singleParse ([38].intercalate ps) 124 = .ok [[38].intercalate ps] :=
    singleParse_self (J := []) (.inr rfl) (by simp) henclosed hstart
      (isInner_of_factors (fun p hp => (hloose p hp).enclosed) fun p hp => (hloose p hp).outside)
  obtain ⟨c, rest, htext, -⟩ := hstart
  exact ⟨singleParse_of_splits (J := []) (.inl rfl) (by simp) hsplits, hwhole, by simp [htext]⟩

section Lists

variable {ts : List (Bytes × Bool)}

theorem resolveRec_terms (hlen : 2 ≤ ts.length) (hts : ∀ t ∈ ts, Generates .term t.1)
    (hall : ∀ t ∈ ts, resolveRec valuation fuel (removeWhitespaces t.1) = .ok t.2) :
    resolveRec valuation (fuel + 1) ([124].intercalate (ts.map Prod.fst)) = .ok (ts.any Prod.snd) := by
  have hlen' : 2 ≤ (ts.map Prod.fst).length := by rwa [List.length_map]
  obtain ⟨hparse, hne⟩ := singleParse_terms (List.ne_nil_of_length_pos (by omega))
    (List.forall_mem_map.mpr hts)
  rw [resolveRec_bar hne hparse hlen', foldlM_map_values or ts hall, foldl_or_eq, Bool.false_or]

theorem resolveRec_factors (hlen : 2 ≤ ts.length) (hts : ∀ t ∈ ts, Generates .factor t.1)
    (hall : ∀ t ∈ ts, resolveRec valuation fuel (removeWhitespaces t.1) = .ok t.2) :
    resolveRec valuation (fuel + 1) ([38].intercalate (ts.map Prod.fst)) = .ok (ts.all Prod.snd) := by
  have hlen' : 2 ≤ (ts.map Prod.fst).length := by rwa [List.length_map]
  obtain ⟨hparse, hwhole, hne⟩ := singleParse_factors (List.ne_nil_of_length_pos (by omega))
    (List.forall_mem_map.mpr hts)
  rw [resolveRec_amp hne hwhole hparse hlen', foldlM_map_values and ts hall, foldl_and_eq, Bool.true_and]

/-- The operands of a list of several are evaluated with the fuel that is left. -/
theorem resolveRec_operands (hop : isNameChar op = false) (hlen : 2 ≤ ts.length)
    (hw : Readable names ([op].intercalate (ts.map Prod.fst)))
    (hfuel : ([op].intercalate (ts.map Prod.fst)).length < fuel + 1)
    (ih : ∀ t ∈ ts, ∀ fuel, Readable names t.1 → t.1.length < fuel → resolveRec valuation fuel t.1 = .ok t.2) :
    ∀ t ∈ ts, resolveRec valuation fuel (removeWhitespaces t.1) = .ok t.2 := by
  intro t ht
  have hmem : t.1 ∈ ts.map Prod.fst := List.mem_map_of_mem ht
  have hpiece : Readable names t.1 := Readable.piece (J := []) hw hop (by simp) hmem
  have hshorter := length_lt_intercalate op hmem (by rwa [List.length_map])
  rw [removeWhitespaces_eq_self hpiece.dense]
  exact ih t ht fuel hpiece (by omega)

end Lists

/-- The evaluation of a formula of the grammar gives its value: by induction on the formula, with the
splits the parser makes at each level. -/
theorem resolveRec_of_denotes (h : Denotes value sym w b) (fuel : Nat) (hw : Readable names w) (hfuel : w.length < fuel)
    (hvalues : ∀ q ∈ names, valuation q = some (value q)) : resolveRec valuation fuel w = .ok b := by
  induction h generalizing fuel with
  | @expr ts hne hts ih =>
    match ts, hne with
    | [t], _ =>
      simp only [List.map_cons, List.map_nil, List.intercalate_singleton] at hw hfuel ⊢
      simpa using ih t List.mem_cons_self fuel hw hfuel
    | t :: t' :: ts, _ =>
      obtain ⟨fuel, rfl⟩ := Nat.exists_eq_add_one_of_ne_zero (Nat.ne_zero_of_lt hfuel)
      have hlen : 2 ≤ (t :: t' :: ts).length := by simp
      exact resolveRec_terms hlen (fun t ht => (hts t ht).generates) (resolveRec_operands (by decide) hlen hw hfuel ih)
  | @term fs hne hfs ih =>
    match fs, hne with
    | [f], _ =>
      simp only [List.map_cons, List.map_nil, List.intercalate_singleton] at hw hfuel ⊢
      simpa using ih f List.mem_cons_self fuel hw hfuel
    | f :: f' :: fs, _ =>
      obtain ⟨fuel, rfl⟩ := Nat.exists_eq_add_one_of_ne_zero (Nat.ne_zero_of_lt hfuel)
      have hlen : 2 ≤ (f :: f' :: fs).length := by simp
      exact resolveRec_factors hlen (fun f hf => (hfs f hf).generates) (resolveRec_operands (by decide) hlen hw hfuel ih)
  | @not f b hf ih =>
    obtain ⟨fuel, rfl⟩ := Nat.exists_eq_add_one_of_ne_zero (Nat.ne_zero_of_lt hfuel)
    rw [resolveRec_not (.not (loose_of_generates hf.generates)), removeWhitespaces_eq_self hw.not.dense,
      ih fuel hw.not (by simpa using hfuel)]
    rfl
  | @paren e b he ih =>
    obtain ⟨fuel, rfl⟩ := Nat.exists_eq_add_one_of_ne_zero (Nat.ne_zero_of_lt hfuel)
    simp only [List.length_cons, List.length_append] at hfuel
    rw [resolveRec_paren (.paren (loose_of_generates he.generates)), removeWhitespaces_eq_self hw.paren.dense]
    exact ih fuel hw.paren (by omega)
  | @name n hn =>
    obtain ⟨fuel, rfl⟩ := Nat.exists_eq_add_one_of_ne_zero (Nat.ne_zero_of_lt hfuel)
    exact resolveRec_name hn (hvalues n (hw.known n (by rw [hn.nameRuns]; simp)))

/-! ## `ContextualCheckVerifierString` -/

theorem loose_of_checkVerifierString {v : Bytes} {found : List Bytes} (hv : qualifierChar ∉ v)
    (htrue : v ≠ str "true") (h : checkVerifierString v = .ok found) :
    Loose .formula (removeWhitespaces v) ∧ Readable found (removeWhitespaces v) := by
  have hne : v ≠ [] := by
    rintro rfl
    cases h
  have hloose := ((checkVerifierString_accepts_iff hne hv).mp ⟨found, h⟩).resolve_left htrue
  refine ⟨hloose.2, fun b hb => by simpa using (List.mem_filter.mp hb).2, fun q hq => ?_⟩
  rw [checkVerifierString, if_neg htrue, if_neg (by simpa using hne), getStrippedVerifierString_eq hv,
    if_neg (by omega)] at h
  simp only at h
  split at h
  · cases h
  · split at h
    · rw [← Except.ok.inj h]
      exact mem_extractVerifierStringQualifiers.mpr hq
    · cases h

theorem not_loose_true : ¬ Loose .formula (str "true") := by
  intro h
  have hread : Readable [] (str "true") := ⟨by decide +kernel, by decide +kernel⟩
  have hresolves : Resolves (fun _ => none) 5 (str "true") := resolves_of_loose h hread (by simp) (by decide)
  obtain ⟨b, hb⟩ := hresolves
  revert hb
  cases b <;> decide

def tagValues (cache : AssetView) (found : List Bytes) (address q : Bytes) : Option Bool :=
  if found.contains q then some (cache.checkForAddressQualifier (qualifierChar :: q) address) else none

theorem contextualCheckVerifierString_eq {cache : AssetView} {v address : Bytes} {found : List Bytes}
    (htrue : v ≠ str "true") (haddress : address ≠ []) (haccept : checkVerifierString v = .ok found)
    (hexist : ∀ q ∈ found, cache.checkIfAssetExists (qualifierChar :: q) = true)
    (hvalue : resolve v (tagValues cache found address) = .ok b) :
    contextualCheckVerifierString cache v address =
      if b then .ok () else .error "bad-txns-null-verifier-address-failed-verification" := by
  have hall : (found.all fun q => cache.checkIfAssetExists (qualifierChar :: q)) = true := List.all_eq_true.mpr hexist
  change resolve v (fun q => if found.contains q then _ else _) = .ok b at hvalue
  simp only [contextualCheckVerifierString, if_neg htrue, haccept, hall, if_neg haddress, bind, Except.bind,
    Lib.require, if_true, hvalue]

/-- A verifier string that was accepted is evaluated without an exception for every address and
whatever its tags, and a formula of the grammar to its truth value. -/
theorem contextualCheckVerifierString_evaluates (cache : AssetView) (v : Bytes) (found : List Bytes)
    (hv : qualifierChar ∉ v) (haccept : checkVerifierString v = .ok found)
    (hexist : ∀ q ∈ found, cache.checkIfAssetExists (qualifierChar :: q) = true) (address : Bytes) :
    (contextualCheckVerifierString cache v address = .ok () ∨
      contextualCheckVerifierString cache v address =
        .error "bad-txns-null-verifier-address-failed-verification") ∧
    (address ≠ [] → Generates .expr (getStrippedVerifierString v) →
      ∃ b, (∀ b', Denotes (fun name => cache.checkForAddressQualifier (qualifierChar :: name) address) .expr
          (getStrippedVerifierString v) b' ↔ b' = b) ∧
        (contextualCheckVerifierString cache v address = .ok () ↔ b = true)) := by
  by_cases htrue : v = str "true"
  · subst htrue
    exact ⟨.inl rfl, fun _ h => absurd (loose_of_generates h) not_loose_true⟩
  obtain ⟨hloose, hread⟩ := loose_of_checkVerifierString hv htrue haccept
  have hfuel : (removeWhitespaces v).length < v.length + 1 := Nat.lt_succ_of_le (List.length_filter_le _ _)
  have hvalues : ∀ q ∈ found, tagValues cache found address q =
      some (cache.checkForAddressQualifier (qualifierChar :: q) address) := by
    intro q hq
    rw [tagValues, if_pos (by simpa using hq)]
  rw [getStrippedVerifierString_eq hv]
  constructor
  · by_cases haddress : address = []
    · left
      have hall : (found.all fun q => cache.checkIfAssetExists (qualifierChar :: q)) = true :=
        List.all_eq_true.mpr hexist
      rw [contextualCheckVerifierString, if_neg htrue, haccept]
      simp only [bind, Except.bind, Lib.require, hall, if_true, if_pos haddress]
      rfl
    have hresolves : Resolves (tagValues cache found address) (v.length + 1) (removeWhitespaces v) :=
      resolves_of_loose hloose hread (fun q hq => by rw [hvalues q hq]; rfl) hfuel
    obtain ⟨b, hb⟩ := hresolves
    rw [contextualCheckVerifierString_eq htrue haddress haccept hexist hb]
    cases b
    · exact .inr rfl
    · exact .inl rfl
  · intro haddress hgenerates
    obtain ⟨b, hb⟩ := hgenerates.denotes
      fun name => cache.checkForAddressQualifier (qualifierChar :: name) address
    have heval := resolveRec_of_denotes hb (v.length + 1) hread hfuel hvalues
    refine ⟨b, fun b' => ⟨fun hb' => ?_, fun h => h ▸ hb⟩, ?_⟩
    · have heval' := resolveRec_of_denotes hb' (v.length + 1) hread hfuel hvalues
      exact Except.ok.inj (heval'.symm.trans heval)
    · rw [contextualCheckVerifierString_eq htrue haddress haccept hexist heval]
      cases b <;> simp

def kycView : AssetView where
  checkIfAssetExists := fun _ => true
  getAssetMetaDataIfExists := fun _ => none
  getAssetVerifierStringIfExists := fun _ _ => none
  checkForAddressQualifier := fun tag _ => tag == str "#KYC"
  checkForAddressRestriction := fun _ _ => false
  checkForGlobalRestriction := fun _ => false

/-- `&` binds tighter than `|`, and `!` tighter than both. -/
theorem kyc_evaluates :
    ∃ b, (∀ b', Denotes (fun name => name == str "KYC") .expr (str "KYC|!KYC&TEST") b' ↔ b' = b) ∧
      (contextualCheckVerifierString kycView (str "KYC | !KYC & TEST") (str "RBob") = .ok () ↔ b = true) := by
  have haccept : checkVerifierString (str "KYC | !KYC & TEST") = .ok [str "KYC", str "TEST"] := by
    decide +kernel
  have hloose := (loose_of_checkVerifierString (by decide) (by decide) haccept).1
  have hgenerates : Generates .expr (str "KYC|!KYC&TEST") :=
    hloose.generates (by unfold OperandsStart OperandChain; decide)
  exact (contextualCheckVerifierString_evaluates kycView (str "KYC | !KYC & TEST") _ (by decide) haccept
    (by decide) (str "RBob")).2 (by decide) hgenerates

end HempCore
