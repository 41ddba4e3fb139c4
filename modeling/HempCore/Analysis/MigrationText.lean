import HempCore.Model.Migration

/-!
# Scanning an exported payload

The payload of an envelope is written by the JSON library and read back by the scanner of
`migration_envelope.cpp`, which looks for keys and quotes in the text and does not undo the escapes.
-/

set_option autoImplicit false

namespace HempCore

open Lib

variable {json key rest s t p : Bytes} {ch : UInt8} {key : String} {word : Bytes}

/-! ## Escaped text -/

theorem hexmap_plain {v : Nat} (h : v < 16) : hexmap v ≠ 34 ∧ hexmap v ≠ 92 := by
  have hall : ∀ v < 16, hexmap v ≠ 34 ∧ hexmap v ≠ 92 := by decide
  exact hall v h

theorem escapes_eq_some {e : Bytes} (h : escapes ch = some e) :
    ∃ c r, e = 92 :: c :: r ∧ ∀ b ∈ r, b ≠ 34 ∧ b ≠ 92 := by
  unfold escapes at h
  split_ifs at h
  all_goals obtain rfl := Option.some.inj h
  · exact ⟨98, [], rfl, by simp⟩
  · exact ⟨116, [], rfl, by simp⟩
  · exact ⟨110, [], rfl, by simp⟩
  · exact ⟨102, [], rfl, by simp⟩
  · exact ⟨114, [], rfl, by simp⟩
  · exact ⟨34, [], rfl, by simp⟩
  · exact ⟨92, [], rfl, by simp⟩
  · refine ⟨117, [48, 48, hexmap (ch.toNat / 16), hexmap (ch.toNat % 16)], rfl, ?_⟩
    have hhi := hexmap_plain (v := ch.toNat / 16) (by have := ch.toNat_lt; omega)
    have hlo := hexmap_plain (v := ch.toNat % 16) (by omega)
    simp only [List.mem_cons, List.not_mem_nil, or_false]
    rintro b (rfl | rfl | rfl | rfl)
    · decide
    · decide
    · exact hhi
    · exact hlo

theorem plain_of_escapes (h : escapes ch = none) : ch ≠ 34 ∧ ch ≠ 92 := by
  constructor
  · rintro rfl
    exact absurd h (by decide)
  · rintro rfl
    exact absurd h (by decide)

theorem jsonEscape_cons (ch : UInt8) (s : Bytes) : jsonEscape (ch :: s) = (escapes ch).getD [ch] ++ jsonEscape s := rfl

theorem jsonEscape_eq_self_iff : jsonEscape s = s ↔ ∀ ch ∈ s, escapes ch = none := by
  have hlen : ∀ s : Bytes, s.length ≤ (jsonEscape s).length := by
    intro s
    induction s with
    | nil => simp [jsonEscape]
    | cons ch s ih =>
      rw [jsonEscape_cons, List.length_append, List.length_cons]
      cases hch : escapes ch with
      | none => simp only [Option.getD_none, List.length_singleton]; omega
      | some e =>
        obtain ⟨c, r, rfl, -⟩ := escapes_eq_some hch
        simp only [Option.getD_some, List.length_cons]
        omega
  induction s with
  | nil => simp [jsonEscape]
  | cons ch s ih =>
    rw [jsonEscape_cons, List.forall_mem_cons]
    cases hch : escapes ch with
    | none => simp [ih]
    | some e =>
      obtain ⟨c, r, rfl, -⟩ := escapes_eq_some hch
      refine ⟨fun h => ?_, fun h => absurd h.1 (by simp)⟩
      have := congrArg List.length h
      have := hlen s
      simp only [Option.getD_some, List.length_append, List.length_cons] at *
      omega

theorem closingQuote_plain {r : Bytes} (h : ∀ b ∈ r, b ≠ 34 ∧ b ≠ 92) (t : Bytes) :
    closingQuote false (r ++ t) = (closingQuote false t).map (· + r.length) := by
  induction r with
  | nil => simp
  | cons b r ih =>
    obtain ⟨hquote, hback⟩ := h b List.mem_cons_self
    rw [List.cons_append, closingQuote, ih fun c hc => h c (List.mem_cons_of_mem _ hc)]
    simp [hquote, hback, Option.map_map, Function.comp_def, Nat.add_assoc]

theorem closingQuote_jsonEscape (s t : Bytes) : closingQuote false (jsonEscape s ++ 34 :: t) = some (jsonEscape s).length := by
  induction s with
  | nil => rfl
  | cons ch s ih =>
    rw [jsonEscape_cons, List.append_assoc, List.length_append]
    cases hch : escapes ch with
    | none =>
      have hplain : ∀ b ∈ [ch], b ≠ 34 ∧ b ≠ 92 := by simpa using plain_of_escapes hch
      rw [Option.getD_none, closingQuote_plain hplain, ih]
      simp [Nat.add_comm]
    | some e =>
      obtain ⟨c, r, rfl, hr⟩ := escapes_eq_some hch
      simp only [Option.getD_some, List.cons_append, closingQuote, closingQuote_plain hr, ih]
      simp
      omega

/-! ## A value behind its key -/

theorem findFrom_zero (s pattern : Bytes) : findFrom s pattern 0 = indexOf pattern s := by
  simp [findFrom]

/-- A text with a string value behind the first occurrence of its key. -/
structure Located (json : Bytes) (key : String) (a s t : Bytes) : Prop where
  text : json = a ++ (quoted 34 (str key) ++ 58 :: 34 :: (jsonEscape s ++ 34 :: t))
  first : indexOf (quoted 34 (str key)) json = some a.length

def valueBegin (a : Bytes) (key : String) : Nat := a.length + (quoted 34 (str key)).length + 2

namespace Located

variable {key : String} {a : Bytes} (h : Located json key a s t)

include h

theorem drop_value : json.drop (valueBegin a key) = jsonEscape s ++ 34 :: t := by
  rw [h.text, valueBegin, ← List.append_assoc, ← List.length_append, ← List.drop_drop, List.drop_left]
  rfl

theorem take_value : json.take (valueBegin a key) = a ++ (quoted 34 (str key) ++ [58, 34]) := by
  have hsplit : json = (a ++ (quoted 34 (str key) ++ [58, 34])) ++ (jsonEscape s ++ 34 :: t) := by
    rw [h.text]
    simp
  have hlen : valueBegin a key = (a ++ (quoted 34 (str key) ++ [58, 34])).length := by
    simp [valueBegin, Nat.add_assoc]
  rw [hsplit, hlen, List.take_left]

theorem value : findJsonStringValue json key = some (valueBegin a key, valueBegin a key + (jsonEscape s).length) := by
  have hvalue := h.drop_value
  obtain ⟨htext, hfirst⟩ := h
  unfold findJsonStringValue
  unfold valueBegin at hvalue ⊢
  generalize quoted 34 (str key) = k at htext hfirst hvalue ⊢
  rw [← List.append_assoc] at htext
  have hcolon : findFrom json [58] (a.length + k.length) = some (a.length + k.length) := by
    rw [findFrom, htext, ← List.length_append, List.drop_left]
    simp [indexOf, List.isPrefixOf]
  have hrest : json.drop (a.length + k.length + 1) = 34 :: (jsonEscape s ++ 34 :: t) := by
    rw [htext, ← List.length_append, ← List.drop_drop, List.drop_left]
    rfl
  have hbyte : byteAt json (a.length + k.length + 1) = 34 := by
    have hhead := congrArg (fun l : Bytes => l.head?.getD 0) hrest
    simpa [byteAt, List.head?_drop, List.getD_eq_getElem?_getD] using hhead
  have hlen : a.length + k.length + 1 < json.length := by
    rw [htext]
    simp
    omega
  simp only [findFrom_zero, hfirst, Option.bind_eq_bind, Option.bind_some, hcolon, hrest]
  have hblank : ((34 :: (jsonEscape s ++ 34 :: t)).takeWhile isJsonBlank).length = 0 := rfl
  rw [hblank, Nat.add_zero, if_pos ⟨hbyte, hlen⟩, hvalue, closingQuote_jsonEscape]
  rfl

theorem extractStringFromPayload_eq : extractStringFromPayload json key = jsonEscape s := by
  rw [extractStringFromPayload, h.value]
  simp only
  rw [h.drop_value, Nat.add_sub_cancel_left, List.take_left]

theorem sanitizeJsonStringField_eq : sanitizeJsonStringField json key = a ++ (quoted 34 (str key) ++ 58 :: 34 :: 34 :: t) := by
  rw [sanitizeJsonStringField, h.value]
  simp only
  rw [h.take_value, ← List.drop_drop, h.drop_value, List.drop_left]
  simp

end Located

/-! ## The text of the payload -/

variable {net : Network} {w : MigrationWallet} {ctx : ExportContext}

def member (key : String) (value : Bytes) : Bytes := quoted 34 (str key) ++ 58 :: value ++ [44]

def payloadHead (net : Network) : Bytes :=
  123 :: member "payload_version" (decimalInt 1) ++
    member "wallet_type" (quoted 34 (str "bip39_bip44_p2pkh")) ++
    member "network" (quoted 34 net.networkIDString) ++
    member "coin_type" (decimalInt net.extCoinType) ++ member "account" (decimalInt 0) ++
    member "derivation_profile" (quoted 34 (str "hemp0x.mainnet.bip44.p2pkh.coin420.v1")) ++
    quoted 34 (str "mnemonic") ++ [58, 123] ++ member "language" (quoted 34 (str "english"))

def payloadTail (w : MigrationWallet) (ctx : ExportContext) : Bytes :=
  44 :: member "external_count_hint" (decimalInt w.nExternalChainCounter.toNat) ++
    member "change_count_hint" (decimalInt w.nInternalChainCounter.toNat) ++
    quoted 34 (str "exported_at") ++ 58 :: decimalInt ctx.nExportTime ++ [125]

def payloadRest (w : MigrationWallet) (ctx : ExportContext) : Bytes :=
  quoted 34 (str "mnemonic_passphrase") ++ 58 :: 34 :: (jsonEscape w.passphrase ++ 34 :: payloadTail w ctx)

theorem jsonEscape_payload : ∀ text ∈ ["payload_version", "wallet_type", "bip39_bip44_p2pkh", "network",
    "coin_type", "account", "derivation_profile", "hemp0x.mainnet.bip44.p2pkh.coin420.v1", "mnemonic",
    "language", "english", "words", "mnemonic_passphrase", "external_count_hint",
    "change_count_hint", "exported_at"], jsonEscape (str text) = str text := by
  decide +kernel

theorem jsonEscape_network (net : Network) : jsonEscape net.networkIDString = net.networkIDString := by
  cases net <;> decide

theorem privatePayload_write (net : Network) (w : MigrationWallet) (ctx : ExportContext) : (privatePayload net w ctx).write 0 0 =
    payloadHead net ++ (quoted 34 (str "words") ++ 58 :: 34 :: (jsonEscape w.words ++ 34 ::
      ([125, 44] ++ payloadRest w ctx))) := by
  have hplain := jsonEscape_payload
  simp only [List.forall_mem_cons] at hplain
  simp [privatePayload, UniValue.object, UniValue.write, UniValue.writeObject, UniValue.newline,
    UniValue.indentStr, hplain, jsonEscape_network, payloadHead, payloadRest, payloadTail, member, quoted]

/-- Words as a wallet keeps them: lower-case letters and blanks. -/
def IsWordText (s : Bytes) : Prop := ∀ b ∈ s, isLower b = true ∨ b = 32

theorem IsWordText.notMem (h : IsWordText s) : 34 ∉ s ∧ 95 ∉ s :=
  ⟨fun hmem => (h 34 hmem).elim (by decide) (by decide),
    fun hmem => (h 95 hmem).elim (by decide) (by decide)⟩

theorem IsWordText.jsonEscape (h : IsWordText s) : jsonEscape s = s := by
  refine jsonEscape_eq_self_iff.mpr fun b hb => ?_
  rcases h b hb with hlower | rfl
  · simp only [isLower, Bool.and_eq_true, decide_eq_true_eq, UInt8.le_iff_toNat_le] at hlower
    have hne : ∀ c : UInt8, (c.toNat < 97 ∨ 122 < c.toNat) → b ≠ c := by
      rintro c hc rfl
      have h97 : (97 : UInt8).toNat = 97 := rfl
      have h122 : (122 : UInt8).toNat = 122 := rfl
      omega
    have hsmall : ¬ (b < 32 ∨ b = 127) := by
      rw [UInt8.lt_iff_toNat_lt]
      rintro (hlt | rfl)
      · have h97 : (97 : UInt8).toNat = 97 := rfl
        have h32 : (32 : UInt8).toNat = 32 := rfl
        omega
      · exact absurd hlower.2 (by decide)
    simp only [escapes, hne 8 (by decide), hne 9 (by decide), hne 10 (by decide), hne 12 (by decide),
      hne 13 (by decide), hne 34 (by decide), hne 92 (by decide), hsmall, if_false]
  · decide

theorem clear_payloadHead (net : Network) :
    clear (quoted 34 (str "words")) (payloadHead net) = true := by
  cases net <;> decide +kernel

theorem located_words (net : Network) (w : MigrationWallet) (ctx : ExportContext) :
    Located ((privatePayload net w ctx).write 0 0) "words" (payloadHead net) w.words ([125, 44] ++ payloadRest w ctx) :=
  ⟨privatePayload_write net w ctx, by rw [privatePayload_write]; exact indexOf_of_clear (clear_payloadHead net) _⟩

theorem clear_wordsKey (net : Network) (hkey : key ∈ ["mnemonic_passphrase", "best_block_height"]) :
    clear (quoted 34 (str key)) (payloadHead net ++ quoted 34 (str "words") ++ [58]) = true := by
  have hall : ∀ net : Network, ∀ key ∈ ["mnemonic_passphrase", "best_block_height"],
      clear (quoted 34 (str key)) (payloadHead net ++ quoted 34 (str "words") ++ [58]) = true := by
    intro net
    cases net <;> decide +kernel
  exact hall net key hkey

theorem indexOf_behind_words (hwords : IsWordText w.words) (rest : Bytes)
    (hkey : key ∈ ["mnemonic_passphrase", "best_block_height"]) :
    indexOf (quoted 34 (str key)) (payloadHead net ++ (quoted 34 (str "words") ++ 58 :: 34 ::
      (jsonEscape w.words ++ 34 :: ([125, 44] ++ rest)))) =
      (indexOf (quoted 34 (str key)) rest).map
        (· + (payloadHead net ++ (quoted 34 (str "words") ++ 58 :: 34 :: (jsonEscape w.words ++ [34, 125, 44]))).length) := by
  have hmark : 34 ∉ str key ∧ 95 ∈ str key ∧ clear (quoted 34 (str key)) [34, 125, 44] = true := by
    have hall : ∀ key ∈ ["mnemonic_passphrase", "best_block_height"],
        34 ∉ str key ∧ 95 ∈ str key ∧ clear (quoted 34 (str key)) [34, 125, 44] = true := by
      decide
    exact hall key hkey
  have hne : str key ≠ w.words := fun h => hwords.notMem.2 (h ▸ hmark.2.1)
  have hsplit : payloadHead net ++ (quoted 34 (str "words") ++ 58 :: 34 :: (jsonEscape w.words ++ 34 :: ([125, 44] ++ rest))) =
      (payloadHead net ++ quoted 34 (str "words") ++ [58]) ++ 34 :: (w.words ++ 34 :: ([125, 44] ++ rest)) := by
    rw [hwords.jsonEscape]
    simp
  have hclose : indexOf (quoted 34 (str key)) (34 :: ([125, 44] ++ rest)) = (indexOf (quoted 34 (str key)) rest).map (· + 3) :=
    indexOf_append_of_clear hmark.2.2 rest
  rw [hsplit, indexOf_append_of_clear (clear_wordsKey net hkey),
    indexOf_quoted_of_ne hwords.notMem.1 hmark.1 hne, hclose, hwords.jsonEscape]
  simp only [Option.map_map, Function.comp_def, List.length_append, List.length_cons]
  congr 1
  funext n
  simp only [List.length_nil]
  omega

theorem located_passphrase (hwords : IsWordText w.words) :
    Located ((privatePayload net w ctx).write 0 0) "mnemonic_passphrase"
      (payloadHead net ++ (quoted 34 (str "words") ++ 58 :: 34 ::
        (jsonEscape w.words ++ [34, 125, 44]))) w.passphrase (payloadTail w ctx) := by
  have htext := privatePayload_write net w ctx
  refine ⟨?_, ?_⟩
  · rw [htext, payloadRest]
    simp
  · rw [htext, indexOf_behind_words hwords _ (by simp), payloadRest, indexOf_self]
    simp

/-- The wallet without its secrets: what is left of the payload once they are taken out. -/
def MigrationWallet.withoutSecrets (w : MigrationWallet) : MigrationWallet :=
  { w with words := [], passphrase := [] }

/-- The two values taken out of the payload leave the payload of a wallet without secrets. -/
theorem sanitize_payload :
    sanitizeJsonStringField (sanitizeJsonStringField ((privatePayload net w ctx).write 0 0) "words")
      "mnemonic_passphrase" = (privatePayload net w.withoutSecrets ctx).write 0 0 := by
  have hempty : IsWordText ([] : Bytes) := fun b hb => by cases hb
  have hfirst : sanitizeJsonStringField ((privatePayload net w ctx).write 0 0) "words" =
      (privatePayload net { w with words := [] } ctx).write 0 0 := by
    rw [(located_words net w ctx).sanitizeJsonStringField_eq, privatePayload_write]
    rfl
  rw [hfirst, (located_passphrase (w := { w with words := [] }) hempty).sanitizeJsonStringField_eq,
    privatePayload_write, payloadRest]
  simp [MigrationWallet.withoutSecrets, jsonEscape, payloadTail]

/-- The mnemonic of a wallet, as `CMnemonic::Check` accepts it. wallet/bip39.cpp:92-111 -/
structure IsMnemonic (words : Bytes) : Prop where
  text : IsWordText words
  count : words.count 32 + 1 = 12 ∨ words.count 32 + 1 = 18 ∨ words.count 32 + 1 = 24

theorem IsMnemonic.ne_nil (h : IsMnemonic s) : s ≠ [] := by
  rintro rfl
  exact absurd h.count (by decide)

theorem countMnemonicWordsInJson_payload (hwords : IsMnemonic w.words) :
    countMnemonicWordsInJson ((privatePayload net w ctx).write 0 0) = w.words.count 32 + 1 := by
  have hloc := located_words net w ctx
  rw [countMnemonicWordsInJson, hloc.value]
  simp only
  rw [hloc.drop_value, Nat.add_sub_cancel_left, List.take_left, hwords.text.jsonEscape, if_neg]
  have := List.length_pos_iff.mpr hwords.ne_nil
  omega

/-! ## The height behind a key -/

theorem decimal_digit {n : Nat} {b : UInt8} (h : b ∈ decimal n) : isDigit b = true := by
  have hall : ∀ d < 10, isDigit (UInt8.ofNat (48 + d)) = true := by decide
  rw [decimal] at h
  split_ifs at h
  · rw [List.mem_singleton.mp h]
    decide
  · obtain ⟨d, hd, rfl⟩ := List.mem_map.mp h
    exact hall d (Nat.digits_lt_base (by decide) (List.mem_reverse.mp hd))

theorem decimal_ne_nil (n : Nat) : decimal n ≠ [] := by
  rw [decimal]
  split_ifs with h
  · simp
  · simpa using Nat.digits_ne_nil_iff_ne_zero.mpr h

theorem digit_not_blank {b : UInt8} (h : isDigit b = true) : ¬ isJsonBlank b = true := by
  have hall : ∀ n < 256, isDigit (UInt8.ofNat n) = true → ¬ isJsonBlank (UInt8.ofNat n) = true := by
    decide +kernel
  have := hall b.toNat b.toNat_lt
  rw [UInt8.ofNat_toNat] at this
  exact this h

theorem notMem_decimalInt {b : UInt8} (hdigit : isDigit b = false) (hminus : b ≠ 45) (n : Int) : b ∉ decimalInt n := by
  intro h
  rw [decimalInt] at h
  split_ifs at h
  · rcases List.mem_cons.mp h with h | h
    · exact hminus h
    · rw [decimal_digit h] at hdigit
      cases hdigit
  · rw [decimal_digit h] at hdigit
    cases hdigit

def digitsValue (s : Bytes) : Nat := s.foldl (fun result b => result * 10 + (b.toNat - 48)) 0

theorem digitsValue_decimal (n : Nat) : digitsValue (decimal n) = n := by
  have hdigits : ∀ ds : List Nat, (∀ d ∈ ds, d < 10) →
      digitsValue (ds.reverse.map fun d => UInt8.ofNat (48 + d)) = Nat.ofDigits 10 ds := by
    intro ds
    induction ds with
    | nil => intro; rfl
    | cons d ds ih =>
      intro hds
      have hd := hds d List.mem_cons_self
      have hbyte : (UInt8.ofNat (48 + d)).toNat - 48 = d := by
        rw [UInt8.toNat_ofNat']
        omega
      have hrest := ih fun d hd => hds d (List.mem_cons_of_mem _ hd)
      rw [digitsValue] at hrest ⊢
      rw [List.reverse_cons, List.map_append, List.foldl_append, hrest, Nat.ofDigits_cons]
      simp only [List.map_cons, List.map_nil, List.foldl_cons, List.foldl_nil, hbyte]
      ring
  rw [decimal]
  split_ifs with h
  · rw [h]
    rfl
  · rw [hdigits _ fun d hd => Nat.digits_lt_base (by decide) hd, Nat.ofDigits_digits]

theorem decimalInt_injective : Function.Injective decimalInt := by
  have hdecimal : ∀ {m n : Nat}, decimal m = decimal n → m = n := by
    intro m n h
    have hvalue := congrArg digitsValue h
    rwa [digitsValue_decimal, digitsValue_decimal] at hvalue
  have hminus : ∀ {m n : Nat}, decimal m ≠ 45 :: decimal n := by
    intro m n h
    have hdigit := decimal_digit (n := m) (h ▸ List.mem_cons_self)
    cases hdigit
  intro m n h
  rw [decimalInt, decimalInt] at h
  split_ifs at h
  · have habs := hdecimal (List.cons_injective h)
    omega
  · exact absurd h.symm hminus
  · exact absurd h hminus
  · have habs := hdecimal h
    omega

/-- Behind a mark, the escaped text up to its closing quote is a plain word exactly when the text is. -/
theorem word_prefix_jsonEscape_iff (hplain : ∀ b ∈ word, escapes b = none) :
    word ++ [34] <+: jsonEscape p ++ 34 :: t ↔ p = word := by
  constructor
  · intro h
    induction p generalizing word with
    | nil =>
      cases word with
      | nil => rfl
      | cons c word =>
        have hhead := (List.cons_prefix_cons.mp h).1
        exact absurd hhead (plain_of_escapes (hplain c List.mem_cons_self)).1
    | cons ch p ih =>
      rw [jsonEscape_cons] at h
      cases hch : escapes ch with
      | none =>
        rw [hch] at h
        cases word with
        | nil =>
          have hhead := (List.cons_prefix_cons.mp h).1
          exact absurd hhead.symm (plain_of_escapes hch).1
        | cons c word =>
          obtain ⟨rfl, hrest⟩ := List.cons_prefix_cons.mp h
          rw [ih (fun b hb => hplain b (List.mem_cons_of_mem _ hb)) hrest]
      | some e =>
        obtain ⟨c', r, rfl, -⟩ := escapes_eq_some hch
        rw [hch] at h
        cases word with
        | nil => exact absurd (List.cons_prefix_cons.mp h).1 (by decide)
        | cons c word =>
          have hhead := (List.cons_prefix_cons.mp h).1
          exact absurd hhead (plain_of_escapes (hplain c List.mem_cons_self)).2
  · rintro rfl
    rw [jsonEscape_eq_self_iff.mpr hplain]
    exact ⟨t, by simp⟩

theorem quote_notMem_escaped (h : ch ≠ 34) : 34 ∉ (escapes ch).getD [ch] := by
  have hall : ∀ n < 256, UInt8.ofNat n ≠ 34 → 34 ∉ (escapes (UInt8.ofNat n)).getD [UInt8.ofNat n] := by
    decide +kernel
  have := hall ch.toNat ch.toNat_lt
  rw [UInt8.ofNat_toNat] at this
  exact this h

theorem suffix_cons_of_ne (h : ch ≠ 34) : 34 :: word <:+ ch :: p ↔ 34 :: word <:+ p := by
  rw [List.suffix_cons_iff]
  constructor
  · rintro (heq | hsuffix)
    · exact absurd (List.cons.inj heq).1.symm h
    · exact hsuffix
  · exact Or.inr

theorem indexOf_opened (hplain : ∀ b ∈ word, escapes b = none) :
    indexOf (quoted 34 word) (34 :: (jsonEscape p ++ 34 :: t)) =
      if p = word then some 0 else (indexOf (quoted 34 word) (jsonEscape p ++ 34 :: t)).map (· + 1) := by
  have hmatch : (quoted 34 word).isPrefixOf (34 :: (jsonEscape p ++ 34 :: t)) = true ↔ p = word := by
    rw [List.isPrefixOf_iff_prefix, quoted, List.cons_append, List.cons_prefix_cons]
    simpa using word_prefix_jsonEscape_iff hplain
  rw [indexOf]
  simp only [hmatch]

theorem escaped_quote : jsonEscape (34 :: p) ++ 34 :: t = 92 :: 34 :: (jsonEscape p ++ 34 :: t) := rfl

theorem indexOf_escaped_cons (h : ch ≠ 34) :
    indexOf (quoted 34 word) (jsonEscape (ch :: p) ++ 34 :: t) =
      (indexOf (quoted 34 word) (jsonEscape p ++ 34 :: t)).map (· + ((escapes ch).getD [ch]).length) := by
  rw [jsonEscape_cons, List.append_assoc]
  exact indexOf_append_of_notMem (quote_notMem_escaped h) _

theorem indexOf_escaped_quote :
    indexOf (quoted 34 word) (jsonEscape (34 :: p) ++ 34 :: t) =
      (indexOf (quoted 34 word) (34 :: (jsonEscape p ++ 34 :: t))).map (· + 1) := by
  rw [escaped_quote]
  exact indexOf_append_of_notMem (a := [92]) (by decide) _

/-- A quoted word is found in an escaped text only at its end, closed by the quote of the text. -/
theorem indexOf_escaped_of_suffix (hplain : ∀ b ∈ word, escapes b = none)
    (h : 34 :: word <:+ p) : ∃ a, jsonEscape p ++ 34 :: t = a ++ (quoted 34 word ++ t) ∧
      indexOf (quoted 34 word) (jsonEscape p ++ 34 :: t) = some a.length := by
  induction p with
  | nil => simp at h
  | cons ch p ih =>
    by_cases hch : ch = 34
    · subst hch
      by_cases hword : p = word
      · subst hword
        refine ⟨[92], ?_, ?_⟩
        · rw [escaped_quote, jsonEscape_eq_self_iff.mpr hplain]
          simp [quoted]
        · rw [indexOf_escaped_quote, indexOf_opened hplain, if_pos rfl]
          rfl
      · have hp : 34 :: word <:+ p := (List.suffix_cons_iff.mp h).resolve_left fun heq => hword (List.cons.inj heq).2.symm
        obtain ⟨a, htext, hfirst⟩ := ih hp
        refine ⟨92 :: 34 :: a, ?_, ?_⟩
        · rw [escaped_quote, htext]
          rfl
        · rw [indexOf_escaped_quote, indexOf_opened hplain, if_neg hword, hfirst]
          rfl
    · obtain ⟨a, htext, hfirst⟩ := ih ((suffix_cons_of_ne hch).mp h)
      refine ⟨(escapes ch).getD [ch] ++ a, ?_, ?_⟩
      · rw [jsonEscape_cons, List.append_assoc, htext, List.append_assoc]
      · rw [indexOf_escaped_cons hch, hfirst]
        simp [Nat.add_comm]

theorem indexOf_escaped_of_not_suffix (hplain : ∀ b ∈ word, escapes b = none)
    (h : ¬ 34 :: word <:+ p) : indexOf (quoted 34 word) (jsonEscape p ++ 34 :: t) =
      (indexOf (quoted 34 word) (34 :: t)).map (· + (jsonEscape p).length) := by
  induction p with
  | nil => simp [jsonEscape]
  | cons ch p ih =>
    by_cases hch : ch = 34
    · subst hch
      rw [List.suffix_cons_iff, not_or] at h
      have hword : p ≠ word := fun heq => h.1 (by rw [heq])
      rw [indexOf_escaped_quote, indexOf_opened hplain, if_neg hword, ih h.2]
      simp only [Option.map_map, Function.comp_def]
      rfl
    · rw [indexOf_escaped_cons hch, ih fun hp => h ((suffix_cons_of_ne hch).mpr hp), jsonEscape_cons]
      simp only [Option.map_map, Function.comp_def, List.length_append]
      congr 1
      funext n
      omega

theorem extractInt64FromPayload_eq {a : Bytes} (mid rest : Bytes) {n : Nat} {c : UInt8}
    (hfirst : indexOf (quoted 34 (str key)) json = some a.length)
    (htext : json = a ++ (mid ++ 58 :: (decimal n ++ c :: rest))) (hmid : 58 ∉ mid)
    (hc : isDigit c = false) : extractInt64FromPayload json key = n := by
  have hcolon : findFrom json [58] a.length = some (mid.length + a.length) := by
    rw [findFrom, htext, List.drop_left, indexOf_append_of_notMem hmid]
    simp [indexOf, List.isPrefixOf]
  have hdrop : json.drop (mid.length + a.length + 1) = decimal n ++ c :: rest := by
    rw [htext, ← List.append_assoc, Nat.add_comm mid.length, ← List.length_append, ← List.drop_drop, List.drop_left]
    rfl
  have hblank : (decimal n ++ c :: rest).dropWhile isJsonBlank = decimal n ++ c :: rest := by
    obtain ⟨b, ds, hds⟩ := List.exists_cons_of_ne_nil (decimal_ne_nil n)
    have hb : isDigit b = true := decimal_digit (n := n) (by rw [hds]; exact List.mem_cons_self)
    rw [hds, List.cons_append, List.dropWhile_cons_of_neg (digit_not_blank hb)]
  have hdigits : (decimal n ++ c :: rest).takeWhile isDigit = decimal n := by
    rw [List.takeWhile_append_of_pos fun b hb => decimal_digit hb, List.takeWhile_cons_of_neg (by simp [hc]),
      List.append_nil]
  have hvalue := digitsValue_decimal n
  rw [digitsValue] at hvalue
  simp only [extractInt64FromPayload, findFrom_zero, hfirst, Option.bind_eq_bind, Option.bind_some, hcolon,
    hdrop, hblank, hdigits, hvalue]
  rfl

theorem extractInt64FromPayload_of_none
    (h : indexOf (quoted 34 (str key)) json = none) : extractInt64FromPayload json key = 0 := by
  simp [extractInt64FromPayload, findFrom_zero, h]

theorem decimalInt_natCast (n : Nat) : decimalInt (n : Int) = decimal n := by
  simp [decimalInt]

theorem indexOf_payloadTail : indexOf (quoted 34 (str "best_block_height")) (34 :: payloadTail w ctx) = none := by
  have hclear : ∀ text ∈ ([[34, 44] ++ quoted 34 (str "external_count_hint") ++ [58],
      44 :: quoted 34 (str "change_count_hint") ++ [58], 44 :: quoted 34 (str "exported_at") ++ [58],
      [125]] : List Bytes), clear (quoted 34 (str "best_block_height")) text = true := by
    decide +kernel
  simp only [List.forall_mem_cons] at hclear
  obtain ⟨hexternal, hchange, htime, hend, -⟩ := hclear
  have hdigits : ∀ (n : Int) (s : Bytes), indexOf (quoted 34 (str "best_block_height")) (decimalInt n ++ s) =
      (indexOf (quoted 34 (str "best_block_height")) s).map (· + (decimalInt n).length) :=
    fun n s => indexOf_append_of_notMem (notMem_decimalInt (by decide) (by decide) n) s
  have htext : 34 :: payloadTail w ctx = ([34, 44] ++ quoted 34 (str "external_count_hint") ++ [58]) ++
      (decimalInt w.nExternalChainCounter.toNat ++ ((44 :: quoted 34 (str "change_count_hint") ++ [58]) ++
        (decimalInt w.nInternalChainCounter.toNat ++ ((44 :: quoted 34 (str "exported_at") ++ [58]) ++
          (decimalInt ctx.nExportTime ++ ([125] ++ [])))))) := by
    simp [payloadTail, member]
  rw [htext, indexOf_append_of_clear hexternal, hdigits, indexOf_append_of_clear hchange, hdigits,
    indexOf_append_of_clear htime, hdigits, indexOf_append_of_clear hend]
  rfl

theorem payload_behind_key (net : Network) (ctx : ExportContext) (hwords : IsWordText w.words) :
    ∃ front, (privatePayload net w ctx).write 0 0 = front ++ 34 :: (jsonEscape w.passphrase ++ 34 :: payloadTail w ctx) ∧
      indexOf (quoted 34 (str "best_block_height")) ((privatePayload net w ctx).write 0 0) =
        (indexOf (quoted 34 (str "best_block_height"))
          (34 :: (jsonEscape w.passphrase ++ 34 :: payloadTail w ctx))).map (· + front.length) := by
  have hclear : clear (quoted 34 (str "best_block_height"))
      (quoted 34 (str "mnemonic_passphrase") ++ [58]) = true := by decide +kernel
  have hrest : payloadRest w ctx = (quoted 34 (str "mnemonic_passphrase") ++ [58]) ++
      34 :: (jsonEscape w.passphrase ++ 34 :: payloadTail w ctx) := by
    simp [payloadRest]
  refine ⟨(payloadHead net ++ (quoted 34 (str "words") ++ 58 :: 34 :: (jsonEscape w.words ++
    [34, 125, 44]))) ++ (quoted 34 (str "mnemonic_passphrase") ++ [58]), ?_, ?_⟩
  · rw [privatePayload_write, hrest]
    simp
  · rw [privatePayload_write, indexOf_behind_words hwords _ (by simp), hrest,
      indexOf_append_of_clear hclear, Option.map_map]
    congr 1
    funext n
    simp only [Function.comp_apply, List.length_append]
    omega

theorem indexOf_opened_of_suffix (hplain : ∀ b ∈ word, escapes b = none) (h : 34 :: word <:+ 34 :: p) :
    ∃ a, 34 :: (jsonEscape p ++ 34 :: t) = a ++ (quoted 34 word ++ t) ∧
      indexOf (quoted 34 word) (34 :: (jsonEscape p ++ 34 :: t)) = some a.length := by
  rw [indexOf_opened hplain]
  split_ifs with hword
  · refine ⟨[], ?_, rfl⟩
    rw [hword, jsonEscape_eq_self_iff.mpr hplain]
    simp [quoted]
  · have hp : 34 :: word <:+ p := (List.suffix_cons_iff.mp h).resolve_left fun heq => hword (List.cons.inj heq).2.symm
    obtain ⟨a, htext, hfirst⟩ := indexOf_escaped_of_suffix (t := t) hplain hp
    exact ⟨34 :: a, by rw [htext]; rfl, by rw [hfirst]; rfl⟩

/-- What the payload gives for the height: it has no such member, but a passphrase can end like its
key, and then the next number is read. -/
theorem extractInt64_payload (hwords : IsWordText w.words) :
    extractInt64FromPayload ((privatePayload net w ctx).write 0 0) "best_block_height" =
      if 34 :: str "best_block_height" <:+ 34 :: w.passphrase then
        (w.nExternalChainCounter.toNat : Int)
      else 0 := by
  have hplain : ∀ b ∈ str "best_block_height", escapes b = none := by decide +kernel
  obtain ⟨front, htext, hindex⟩ := payload_behind_key net ctx hwords
  split_ifs with h
  · obtain ⟨a, hopened, hfirst⟩ := indexOf_opened_of_suffix (t := payloadTail w ctx) hplain h
    have htail : ∃ rest, payloadTail w ctx = (44 :: quoted 34 (str "external_count_hint")) ++ 58 ::
        (decimal w.nExternalChainCounter.toNat ++ 44 :: rest) := by
      simp [payloadTail, member, decimalInt_natCast]
    obtain ⟨rest, htail⟩ := htail
    refine extractInt64FromPayload_eq (a := front ++ a) (quoted 34 (str "best_block_height") ++
      44 :: quoted 34 (str "external_count_hint")) rest ?_ ?_ (by decide)
      (show isDigit 44 = false by decide)
    · rw [hindex, hfirst]
      simp [Nat.add_comm]
    · rw [htext, hopened, htail]
      simp
  · have hword : w.passphrase ≠ str "best_block_height" := fun heq => h (by rw [heq])
    have hnot : ¬ 34 :: str "best_block_height" <:+ w.passphrase := fun hp => h (List.suffix_cons_iff.mpr (.inr hp))
    refine extractInt64FromPayload_of_none ?_
    rw [hindex, indexOf_opened hplain, if_neg hword, indexOf_escaped_of_not_suffix hplain hnot, indexOf_payloadTail]
    rfl

end HempCore
