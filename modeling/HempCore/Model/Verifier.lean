import HempCore.Model.AssetName

/-!
# Verifier strings

The boolean expression evaluator of `LibBoolEE.cpp` and the context-free checks of a verifier
string. An exception of the evaluator is the error case of `Except`.
Lines without a file are those of `LibBoolEE.cpp`.
-/

set_option autoImplicit false

namespace HempCore

/-- A byte string as text, for error messages. -/
def showBytes (s : Bytes) : String := String.ofList (s.map fun b => Char.ofNat b.toNat)

/-- `isspace` in the C locale. -/
def isSpace (b : UInt8) : Bool := (9 ≤ b && b ≤ 13) || b == 32

namespace LibBoolEE

/-- L154-156 -/
def belongsToName (ch : UInt8) : Bool :=
  isUpper ch || isLower ch || isDigit ch || ch == 95 || ch == 35 || ch == 46

/-- L158-166 -/
def removeWhitespaces (source : Bytes) : Bytes := source.filter fun b => !isSpace b

/-- L168-176 -/
def removeCharacter (source : Bytes) (ch : UInt8) : Bytes := source.filter (· != ch)

/-- The loop state of `singleParse`. -/
structure ParseState where
  startPos : Option Nat
  parityCount : Int
  subexpressions : List Bytes

/-- One character of the loop. L23-57 -/
def singleParseStep (formula : Bytes) (op : UInt8) (st : ParseState) (c : UInt8 × Nat) :
    Except String ParseState :=
  let (ch, i) := c
  let inName := belongsToName ch || ch == 33
  if ch = 41 then .ok { st with parityCount := st.parityCount - 1 }
  else if ch = 40 then
    .ok { st with parityCount := st.parityCount + 1, startPos := some (st.startPos.getD i) }
  else if st.parityCount = 0 then
    match st.startPos with
    | none => .ok (if inName then { st with startPos := some i } else st)
    | some start =>
      if inName then .ok st
      else if ch = op then
        .ok { st with
          subexpressions := st.subexpressions ++ [(formula.drop start).take (i - start)]
          startPos := some (i + 1) }
      else if ch ≠ 38 ∧ ch ≠ 124 then
        .error ("Unknown operator '" ++ showBytes [ch] ++ "' in the (sub)expression '" ++
          showBytes formula ++ "'.")
      else .ok st
  else .ok st

/-- L19-68 -/
def singleParse (formula : Bytes) (op : UInt8) : Except String (List Bytes) := do
  let st ← formula.zipIdx.foldlM (singleParseStep formula op) ⟨none, 0, []⟩
  if st.parityCount ≠ 0 then
    .error ("Wrong parenthesis parity in the (sub)expression '" ++ showBytes formula ++ "'.")
  else
    .ok (match st.startPos with
      | none => st.subexpressions
      | some start => st.subexpressions ++ [formula.drop start])

/-- Every subexpression is shorter than its source, so `fuel` above the length of the source is
never used up. `resolve` strips white space before each call. L74-146 -/
def resolveRec (valuation : Bytes → Option Bool) : Nat → Bytes → Except String Bool
  | 0, _ => .error "out of fuel"
  | fuel + 1, source =>
    let resolve (s : Bytes) : Except String Bool :=
      resolveRec valuation fuel (removeWhitespaces s)
    if source.isEmpty then .error "An empty subexpression was encountered"
    else do
      let bySlash ← singleParse source 124
      let (op, subexpressions) ←
        if bySlash.length = 1 then do
          let byAmp ← singleParse source 38
          pure ((38 : UInt8), byAmp)
        else pure (124, bySlash)
      match subexpressions with
      | [] => .error ("The subexpression " ++ showBytes source ++ " is not a valid formula.")
      | [_] =>
        if byteAt source 0 = 33 then do
          let b ← resolve (source.drop 1)
          pure (!b)
        else if byteAt source 0 = 40 then resolve ((source.drop 1).take (source.length - 2))
        else if source = str "1" then pure true
        else if source = str "0" then pure false
        else
          match valuation source with
          | none =>
            .error ("Variable '" ++ showBytes source ++ "' not found in the interpretation.")
          | some b => pure b
      | subs =>
        -- Both loops evaluate every operand, so an exception in any of them escapes.
        if op = 124 then subs.foldlM (fun r s => (resolve s).map (r || ·)) false
        else subs.foldlM (fun r s => (resolve s).map (r && ·)) true

/-- L70-72 -/
def resolve (source : Bytes) (valuation : Bytes → Option Bool) : Except String Bool :=
  resolveRec valuation (source.length + 1) (removeWhitespaces source)

end LibBoolEE

/-- The maximal runs of `[A-Z0-9_.]`; `run` is the current one, reversed. -/
def nameRuns (run : Bytes) : Bytes → List Bytes
  | [] => if run.isEmpty then [] else [run.reverse]
  | b :: s =>
    if isNameChar b then nameRuns (b :: run) s
    else if run.isEmpty then nameRuns [] s
    else run.reverse :: nameRuns [] s

/-- The qualifiers of a verifier string, in the order of `std::set`.
assets.cpp:4880-4892 -/
def extractVerifierStringQualifiers (verifier : Bytes) : List Bytes :=
  (Std.TreeSet.ofList (nameRuns [] verifier) compare).toList

/-- assets.cpp:4894-4903 -/
def getStrippedVerifierString (verifier : Bytes) : Bytes :=
  LibBoolEE.removeCharacter (LibBoolEE.removeWhitespaces verifier) qualifierChar

/-- On success the qualifiers found. assets.cpp:4905-4979 -/
def checkVerifierString (verifier : Bytes) : Except String (List Bytes) :=
  if verifier = str "true" then .ok []
  else if verifier.isEmpty then
    .error "Verifier string can not be empty. To default to true, use \"true\""
  else
    let strippedVerifier := getStrippedVerifierString verifier
    if 80 < strippedVerifier.length then
      .error "Verifier string has length greater than 80 after whitespaces and '#' are removed"
    else
      let found := extractVerifierStringQualifiers strippedVerifier
      match found.find? fun q => !isQualifierNameValid (qualifierChar :: q) with
      | some q => .error ("bad-txns-null-verifier-invalid-asset-name-" ++ showBytes q)
      | none =>
        match LibBoolEE.resolve verifier fun q => if found.contains q then some true else none with
        | .ok _ => .ok found
        | .error _ => .error "bad-txns-null-verifier-failed-syntax-check"

end HempCore
