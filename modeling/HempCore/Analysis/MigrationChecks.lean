import HempCore.Analysis.MigrationText

/-!
# Validation and restore of any envelope

`ValidateMigrationEnvelopeFile` and `ReadMigrationEnvelopeRestoreData` read the same document, each
in its own way. The first tests the type of a member before it reads it, but not the size of a
number; the second reads some members without a test. A member of the wrong type or size makes the
JSON library throw. What validation asks of a document is stated here member by member, and compared
with what the restore reads.
-/

set_option autoImplicit false

namespace HempCore

open Lib

/-! ## Exceptions -/

/-- The texts of the exceptions. univalue/lib/univalue_get.cpp:128-163 -/
def jsonExceptions : List String :=
  ["JSON integer out of range", "JSON value is not an integer as expected",
    "JSON value is not a string as expected"]

/-- The call ends in an exception of the JSON library, and not with an `rpc_error` of its own. -/
def Throws {α : Type} (r : Except String α) : Prop := ∃ e ∈ jsonExceptions, r = .error e

variable {α : Type} {out : MigrationEnvelopeValidation}

theorem throws_error {e : String} : Throws (.error e : Except String α) ↔ e ∈ jsonExceptions := by
  simp [Throws]

theorem not_throws_ok (a : α) : ¬Throws (.ok a : Except String α) := by
  simp [Throws]

theorem Throws.bind {β : Type} {x : Except String α} (h : Throws x) (f : α → Except String β) : Throws (x >>= f) := by
  obtain ⟨e, he, rfl⟩ := h
  exact ⟨e, he, rfl⟩

theorem ok_bind {β : Type} (a : α) (f : α → Except String β) : (Except.ok a >>= f) = f a := rfl

/-- The call returns something with `Q` where `P` holds, and throws elsewhere. -/
def Outcome {α : Type} (P : Prop) (Q : α → Prop) (r : Except String α) : Prop :=
  (P ∧ ∃ a, r = .ok a ∧ Q a) ∨ (¬P ∧ Throws r)

theorem Outcome.bind {β : Type} {P P' : Prop} {Q : α → Prop} {Q' : β → Prop} {x : Except String α}
    {f : α → Except String β} (hx : Outcome P Q x) (hf : ∀ a, Q a → Outcome P' Q' (f a)) :
    Outcome (P ∧ P') Q' (x >>= f) := by
  rcases hx with ⟨hP, a, rfl, ha⟩ | ⟨hP, hthrows⟩
  · rw [ok_bind]
    exact (hf a ha).imp (fun h => ⟨⟨hP, h.1⟩, h.2⟩) fun h => ⟨fun h' => h.1 h'.2, h.2⟩
  · exact .inr ⟨fun h => hP h.1, hthrows.bind f⟩

theorem Outcome.map {β : Type} {P : Prop} {Q : α → Prop} {Q' : β → Prop} {x : Except String α}
    {f : α → Except String β} (hx : Outcome P Q x) (hf : ∀ a, Q a → ∃ b, f a = .ok b ∧ Q' b) :
    Outcome P Q' (x >>= f) := by
  rcases hx with ⟨hP, a, rfl, ha⟩ | ⟨hP, hthrows⟩
  · exact .inl ⟨hP, hf a ha⟩
  · exact .inr ⟨hP, hthrows.bind f⟩

theorem Outcome.eq_ok {P : Prop} {a : α} {r : Except String α} (h : Outcome P (· = a) r) (hP : P) : r = .ok a := by
  rcases h with ⟨-, b, hb, rfl⟩ | ⟨hnot, -⟩
  · exact hb
  · exact absurd hP hnot

theorem Outcome.of_iff {P P' : Prop} {Q : α → Prop} {r : Except String α} (h : Outcome P Q r)
    (hiff : P ↔ P') : Outcome P' Q r := by
  rwa [Outcome, ← hiff]

/-- A number that is read where it is given. -/
theorem Outcome.optional {P : Int → Prop} {get : Int → Except String Int}
    (h : ∀ n, Outcome (P n) (· = n) (get n)) (o : Option Int) (dflt : Int) :
    Outcome (∀ n ∈ o, P n) (· = o.getD dflt) (match o with | some n => get n | none => pure dflt) := by
  cases o with
  | none => exact .inl ⟨by simp, dflt, rfl, rfl⟩
  | some n => exact (h n).of_iff (by simp)

namespace UniValue

variable {v : UniValue} {key : String}

/-- The member, where it is a number, is an `int`. A number that is not an integer stands for one
out of range: both are read with the same exception. -/
def FitsInt (v : UniValue) (key : String) : Prop := ∀ n ∈ v.num? key, -2 ^ 31 ≤ n ∧ n < 2 ^ 31

def FitsInt64 (v : UniValue) (key : String) : Prop := ∀ n ∈ v.num? key, -2 ^ 63 ≤ n ∧ n < 2 ^ 63

theorem outcome_ite {c : Prop} [Decidable c] (n : Int) :
    Outcome c (· = n) (if c then .ok n else .error "JSON integer out of range" : Except String Int) := by
  split_ifs with hc
  · exact .inl ⟨hc, n, rfl, rfl⟩
  · exact .inr ⟨hc, throws_error.mpr (by simp [jsonExceptions])⟩

theorem outcome_intOr (v : UniValue) (key : String) (dflt : Int) :
    Outcome (v.FitsInt key) (· = (v.num? key).getD dflt) (v.intOr key dflt) :=
  Outcome.optional (fun n => outcome_ite n) (v.num? key) dflt

theorem outcome_int64Or (v : UniValue) (key : String) (dflt : Int) :
    Outcome (v.FitsInt64 key) (· = (v.num? key).getD dflt) (v.int64Or key dflt) :=
  Outcome.optional (fun n => outcome_ite n) (v.num? key) dflt

theorem throws_getInt_of_num? (h : v.num? key = none) : Throws (v.get key).getInt := by
  unfold num? at h
  unfold getInt
  split
  · rename_i val hval
    rw [hval] at h
    cases h
  · exact throws_error.mpr (by simp [jsonExceptions])

theorem get_of_num? {n : Int} (h : v.num? key = some n) : v.get key = .vnum n := by
  unfold num? at h
  split at h
  · rename_i m hm
    rw [hm, Option.some.inj h]
  · cases h

theorem getStr_of_str? {s : Bytes} (h : v.str? key = some s) : (v.get key).getStr = .ok s := by
  unfold str? at h
  split at h
  · rename_i m hm
    rw [hm, getStr, Option.some.inj h]
  · cases h

theorem get_of_obj? {o : UniValue} (h : v.obj? key = some o) : v.get key = o := by
  unfold obj? at h
  split at h
  · rename_i keys values hm
    rw [hm, ← Option.some.inj h]
  · cases h

theorem getStr_of_strOr (h : v.strOr key [] ≠ []) : (v.get key).getStr = .ok (v.strOr key []) := by
  cases hs : v.str? key with
  | none => simp [strOr, hs] at h
  | some s => rw [getStr_of_str? hs, strOr, hs, Option.getD_some]

theorem strOr_vnull (key : String) : (UniValue.vnull).strOr key [] = [] := rfl

end UniValue

/-! ## The checks of a document -/

namespace MigrationEnvelopeValidation

variable {c : Bool} {e r : String}

/-- What a result has read of the public members, and the flags that only decryption sets. -/
structure Same (out out' : MigrationEnvelopeValidation) : Prop where
  version : out'.envelopeVersion = out.envelopeVersion
  schema : out'.schemaIdentifier = out.schemaIdentifier
  network : out'.network = out.network
  coinType : out'.coinTypeBip44 = out.coinTypeBip44
  exportedAt : out'.exportedAt = out.exportedAt
  sameChain : out'.matchesCurrentChain = out.matchesCurrentChain
  restorable : out'.restorable = out.restorable
  decrypted : out'.decryptionSuccessful = out.decryptionSuccessful
  iterations : out'.kdfIterations = out.kdfIterations
  payloadCoinType : out'.payloadCoinType = out.payloadCoinType
  account : out'.account = out.account

theorem Same.trans {out' out'' : MigrationEnvelopeValidation} (h : Same out out') (h' : Same out' out'') : Same out out'' :=
  ⟨h'.1.trans h.1, h'.2.trans h.2, h'.3.trans h.3, h'.4.trans h.4, h'.5.trans h.5, h'.6.trans h.6,
    h'.7.trans h.7, h'.8.trans h.8, h'.9.trans h.9, h'.10.trans h.10, h'.11.trans h.11⟩

theorem same_check (out : MigrationEnvelopeValidation) (c : Bool) (e r : String) : Same out (out.check c e r) := by
  cases c <;> constructor <;> rfl

@[simp] theorem check_valid : (out.check c e r).valid = (out.valid && c) := by
  cases c <;> simp [check, fail]

end MigrationEnvelopeValidation

open MigrationEnvelopeValidation

/-- What validation asks of the private object before it decrypts.
migration_envelope.cpp:271-337 -/
structure PrivateProfile (priv : UniValue) (passphrase : Bytes) : Prop where
  passphrase : passphrase ≠ []
  encrypted : (priv.bool? "encrypted").getD false = true
  kdfProfile : priv.strOr "kdf_profile" [] = str "pbkdf2-hmac-sha512-v1"
  iterations_ge : 100000 ≤ (priv.num? "kdf_iterations").getD 0
  iterations_le : (priv.num? "kdf_iterations").getD 0 ≤ 5000000
  cipherProfile : priv.strOr "cipher_profile" [] = str "aes-256-gcm-v1"
  payloadFormat : priv.strOr "payload_format" [] = str "hemp0x-core.private-migration-payload.v1"
  aadProfile : priv.strOr "aad_profile" [] = str "hemp0x-core-migration-aad-v1"

theorem outcome_validatePrivateFields (priv : UniValue) (passphrase : Bytes) (out : MigrationEnvelopeValidation) :
    Outcome (priv.FitsInt64 "kdf_iterations")
      (fun out' => (out'.valid = true ↔ out.valid = true ∧ PrivateProfile priv passphrase) ∧
        Same { out with kdfIterations := (priv.num? "kdf_iterations").getD 0 } out')
      (validatePrivateFields priv passphrase out) := by
  simp only [validatePrivateFields]
  refine (priv.outcome_int64Or "kdf_iterations" 0).map ?_
  rintro _ rfl
  refine ⟨_, rfl, ?_, ?_⟩
  · simp only [check_valid, Bool.and_eq_true, decide_eq_true_eq, beq_iff_eq, Bool.not_eq_true', List.isEmpty_eq_false_iff]
    constructor
    · rintro ⟨⟨⟨⟨⟨⟨⟨⟨hvalid, h1⟩, h2⟩, h3⟩, h4⟩, h5⟩, h6⟩, h7⟩, h8⟩
      exact ⟨hvalid, h1, h2, h3, h4, h5, h6, h7, h8⟩
    · rintro ⟨hvalid, h1, h2, h3, h4, h5, h6, h7, h8⟩
      exact ⟨⟨⟨⟨⟨⟨⟨⟨hvalid, h1⟩, h2⟩, h3⟩, h4⟩, h5⟩, h6⟩, h7⟩, h8⟩
  · repeat apply Same.trans _ (same_check _ _ _ _)
    constructor <;> rfl

/-- What validation asks of the decrypted payload and of the number of words found in its text.
migration_envelope.cpp:406-477 -/
structure PayloadProfile (payload : UniValue) (count : Nat) : Prop where
  version : (payload.num? "payload_version").getD (-1) = 1
  walletType : payload.strOr "wallet_type" [] = str "bip39_bip44_p2pkh"
  coinType : (payload.num? "coin_type").getD (-1) = 420
  account : (payload.num? "account").getD (-1) = 0
  mnemonic : ∃ mn, payload.obj? "mnemonic" = some mn ∧ (mn.str? "words").isSome
  count : count = 12 ∨ count = 18 ∨ count = 24
  profile : payload.strOr "derivation_profile" [] = str "hemp0x.mainnet.bip44.p2pkh.coin420.v1"

@[mk_iff] structure PayloadFits (payload : UniValue) : Prop where
  version : payload.FitsInt "payload_version"
  coinType : payload.FitsInt "coin_type"
  account : payload.FitsInt "account"
  external : payload.FitsInt64 "external_count_hint"
  change : payload.FitsInt64 "change_count_hint"

theorem validateMnemonic_valid (payload : UniValue) (count : Nat) (out : MigrationEnvelopeValidation) :
    ((validateMnemonic payload count out).valid = true ↔ out.valid = true ∧
      (∃ mn, payload.obj? "mnemonic" = some mn ∧ (mn.str? "words").isSome) ∧
      (count = 12 ∨ count = 18 ∨ count = 24)) ∧ Same out (validateMnemonic payload count out) := by
  unfold validateMnemonic
  cases hmn : payload.obj? "mnemonic" with
  | none =>
    refine ⟨?_, by constructor <;> rfl⟩
    simp [fail]
  | some mn =>
    cases hwords : mn.str? "words" with
    | none =>
      simp only [hwords]
      refine ⟨?_, by constructor <;> rfl⟩
      simp [fail, hwords]
    | some words =>
      simp only [hwords]
      have hcount : (((count : Int) == 12 || (count : Int) == 18 || (count : Int) == 24) = true) ↔
          (count = 12 ∨ count = 18 ∨ count = 24) := by
        simp only [Bool.or_eq_true, beq_iff_eq]
        omega
      refine ⟨?_, Same.trans (by constructor <;> rfl) (same_check _ _ _ _)⟩
      simp only [check_valid, Bool.and_eq_true, hcount]
      simp [hwords]

theorem outcome_validatePayload (payload : UniValue) (count : Nat) (hrestorable : out.restorable = false) :
    Outcome (PayloadFits payload)
      (fun out' => (out'.valid = true ↔ out.valid = true ∧ PayloadProfile payload count) ∧
        (out'.restorable = true ↔ out'.valid = true ∧ out.matchesCurrentChain = true) ∧
        out'.decryptionSuccessful = out.decryptionSuccessful ∧
        out'.envelopeVersion = out.envelopeVersion ∧
        out'.payloadCoinType = (payload.num? "coin_type").getD (-1) ∧
        out'.account = (payload.num? "account").getD (-1))
      (validatePayload payload count out) := by
  simp only [validatePayload]
  refine Outcome.of_iff ?_ (payloadFits_iff payload).symm
  refine (payload.outcome_intOr "payload_version" (-1)).bind ?_
  rintro _ rfl
  refine (payload.outcome_intOr "coin_type" (-1)).bind ?_
  rintro _ rfl
  refine (payload.outcome_intOr "account" (-1)).bind ?_
  rintro _ rfl
  refine (payload.outcome_int64Or "external_count_hint" 0).bind ?_
  rintro _ rfl
  refine (payload.outcome_int64Or "change_count_hint" 0).map ?_
  rintro _ rfl
  refine ⟨_, rfl, ?_⟩
  -- the result before its last step, which only sets the two fields about the restore
  generalize hchecked : MigrationEnvelopeValidation.check _ _ _ _ = checked
  have hvalid : checked.valid = true ↔ out.valid = true ∧ PayloadProfile payload count := by
    rw [← hchecked]
    simp only [check_valid, Bool.and_eq_true, beq_iff_eq, (validateMnemonic_valid _ _ _).1]
    constructor
    · rintro ⟨⟨⟨⟨⟨⟨hvalid, h1⟩, h2⟩, h3⟩, h4⟩, h5, h6⟩, h7⟩
      exact ⟨hvalid, h1, h2, h3, h4, h5, h6, h7⟩
    · rintro ⟨hvalid, h1, h2, h3, h4, h5, h6, h7⟩
      exact ⟨⟨⟨⟨⟨⟨hvalid, h1⟩, h2⟩, h3⟩, h4⟩, h5, h6⟩, h7⟩
  have hsame : Same { out with
      payloadCoinType := (payload.num? "coin_type").getD (-1)
      account := (payload.num? "account").getD (-1) } checked := by
    rw [← hchecked]
    apply Same.trans _ (same_check _ _ _ _)
    apply Same.trans _ (validateMnemonic_valid _ _ _).2
    repeat apply Same.trans _ (same_check _ _ _ _)
    constructor <;> rfl
  have hchain : checked.matchesCurrentChain = out.matchesCurrentChain := hsame.sameChain
  by_cases hv : checked.valid = true
  · by_cases hm : checked.matchesCurrentChain = true
    · simp only [hv, hm, Bool.and_self, if_true]
      exact ⟨by simpa [hv] using hvalid, by simp [← hchain, hm], hsame.decrypted, hsame.version,
        hsame.payloadCoinType, hsame.account⟩
    · simp only [hv, hm, Bool.and_false, Bool.false_eq_true, if_false, if_true]
      exact ⟨by simpa [hv] using hvalid, by simp [hsame.restorable, hrestorable, ← hchain, hm],
        hsame.decrypted, hsame.version, hsame.payloadCoinType, hsame.account⟩
  · simp only [hv, Bool.false_and, Bool.false_eq_true, if_false]
    exact ⟨by simpa [hv] using hvalid, by simp [hsame.restorable, hrestorable],
      hsame.decrypted, hsame.version, hsame.payloadCoinType, hsame.account⟩

/-! ## Decryption -/

/-- The five values that the authenticated data is made of. -/
structure EnvelopeMetadata where
  schemaIdentifier : Bytes
  envelopeVersion : Int
  network : Bytes
  coinType : Int
  exportedAt : Int
deriving DecidableEq

/-- migration_envelope.cpp:369-371 -/
def EnvelopeMetadata.aad (m : EnvelopeMetadata) : Bytes :=
  migrationBuildAAD m.schemaIdentifier m.envelopeVersion m.network m.coinType m.exportedAt
    (str "private-payload")

/-- The values as an envelope is read, with the defaults of the reader. -/
def UniValue.metadata (envelope : UniValue) : EnvelopeMetadata :=
  let chainObj := (envelope.obj? "chain").getD .vnull
  { schemaIdentifier := envelope.strOr "schema_identifier" []
    envelopeVersion := (envelope.num? "envelope_version").getD 0
    network := chainObj.strOr "network" []
    coinType := (chainObj.num? "coin_type_bip44").getD 0
    exportedAt := (envelope.num? "exported_at").getD 0 }

def UniValue.chainObj (envelope : UniValue) : UniValue := (envelope.obj? "chain").getD .vnull

def UniValue.privateObj (envelope : UniValue) : UniValue := (envelope.obj? "private").getD .vnull

structure DecryptionCall where
  key : Bytes
  iv : Bytes
  ciphertext : Bytes
  aad : Bytes
  tag : Bytes

def MigrationCipher.answer (cipher : MigrationCipher) (call : DecryptionCall) : Option Bytes :=
  cipher.decrypt call.key call.iv call.ciphertext call.aad call.tag

/-- The three flags that a restore asks for. -/
def MigrationEnvelopeValidation.Accepted (out : MigrationEnvelopeValidation) : Prop :=
  out.valid = true ∧ out.restorable = true ∧ out.decryptionSuccessful = true

section Documents

variable (cipher : MigrationCipher) (read : Bytes → Option UniValue) (net : Network) (envelope : UniValue)
  (passphrase : Bytes)

/-- The arguments, where the private object has them. migration_envelope.cpp:339-385 -/
def decryptionCall : Option DecryptionCall :=
  let priv := envelope.privateObj
  match priv.str? "salt", priv.str? "iv", priv.str? "tag", priv.str? "ciphertext" with
  | some saltHex, some ivHex, some tagHex, some ciphertextHex =>
    if (parseHex saltHex).length ≠ MIGRATION_KDF_SALT_SIZE ∨
        (parseHex ivHex).length ≠ MIGRATION_GCM_IV_SIZE ∨
        (parseHex tagHex).length ≠ MIGRATION_GCM_TAG_SIZE ∨ (parseHex ciphertextHex).isEmpty then none
    else
      let key := cipher.deriveKey passphrase (parseHex saltHex)
        ((priv.num? "kdf_iterations").getD 0).toNat
      if key.isEmpty then none
      else some ⟨key, parseHex ivHex, parseHex ciphertextHex, envelope.metadata.aad, parseHex tagHex⟩
  | _, _, _, _ => none

/-- Validation of the envelope asks the cipher. -/
structure ReachesDecryption (call : DecryptionCall) : Prop where
  version : envelope.num? "envelope_version" = some 2
  schema : envelope.metadata.schemaIdentifier ≠ []
  network : envelope.metadata.network ≠ []
  exportedAt : envelope.FitsInt64 "exported_at"
  coinType : envelope.chainObj.FitsInt "coin_type_bip44"
  profile : PrivateProfile envelope.privateObj passphrase
  call : decryptionCall cipher envelope passphrase = some call

/-- The text that is read as JSON. migration_envelope.cpp:396-399 -/
def sanitizedPayload (plaintext : Bytes) : Bytes :=
  sanitizeJsonStringField (sanitizeJsonStringField plaintext "words") "mnemonic_passphrase"

/-- What validation makes of the answer of the cipher. migration_envelope.cpp:386-480 -/
def afterDecryption (answer : Option Bytes) (out : MigrationEnvelopeValidation) :
    Except String MigrationEnvelopeValidation :=
  match answer with
  | none => .ok (out.fail MIGRATION_AUTH_FAILURE "Decryption failed")
  | some plaintext =>
    match read (sanitizedPayload plaintext) with
    | none => .ok ({ out with decryptionSuccessful := true }.fail
        "Decrypted private payload is not valid JSON." "Payload JSON parse failed")
    | some payload => validatePayload payload (countMnemonicWordsInJson plaintext)
        { out with decryptionSuccessful := true }

/-- Validation of the envelope reads this payload. -/
def HasPayload (plaintext : Bytes) (payload : UniValue) : Prop :=
  ∃ call, ReachesDecryption cipher envelope passphrase call ∧ cipher.answer call = some plaintext ∧
    read (sanitizedPayload plaintext) = some payload

/-- A result that has read the public members of the envelope, and nothing else. -/
structure Reads (out : MigrationEnvelopeValidation) : Prop where
  version : out.envelopeVersion = envelope.metadata.envelopeVersion
  schema : out.schemaIdentifier = envelope.metadata.schemaIdentifier
  network : out.network = envelope.metadata.network
  coinType : out.coinTypeBip44 = envelope.metadata.coinType
  exportedAt : out.exportedAt = envelope.metadata.exportedAt
  sameChain : out.matchesCurrentChain = (envelope.metadata.network == net.networkIDString)
  restorable : out.restorable = false
  decrypted : out.decryptionSuccessful = false

/-- The result for a private object whose fields have been read: the cipher was asked, or it was not
and the result is not accepted. -/
def PrivateCases (r : Except String MigrationEnvelopeValidation) : Prop :=
  ((∀ call, ¬ReachesDecryption cipher envelope passphrase call) ∧ ∃ out, r = .ok out ∧ ¬out.Accepted) ∨
  ∃ call out, ReachesDecryption cipher envelope passphrase call ∧
    r = afterDecryption read (cipher.answer call) out ∧ out.valid = true ∧ Reads net envelope out

/-- Every number that validation reads has the size it is read with, and a version is a number. -/
structure NumbersFit : Prop where
  version : envelope.FitsInt "envelope_version"
  version_num : envelope.num? "envelope_version" = none → envelope.has "envelope_version" = false
  known : ∀ n, envelope.num? "envelope_version" = some n → n = 1 ∨ n = 2 →
    envelope.FitsInt64 "exported_at" ∧ envelope.chainObj.FitsInt "coin_type_bip44"
  profiles : envelope.num? "envelope_version" = some 1 →
    ∀ prof ∈ (envelope.arr? "derivation").getD [], prof.FitsInt "purpose" ∧ prof.FitsInt "coin_type"
  iterations : envelope.num? "envelope_version" = some 2 →
    envelope.privateObj.FitsInt64 "kdf_iterations"
  payload : ∀ plaintext payload, HasPayload cipher read envelope passphrase plaintext payload →
    PayloadFits payload

/-- A document whose secrets validation has found in order. -/
def WellFormed : Prop :=
  ∃ plaintext payload, HasPayload cipher read envelope passphrase plaintext payload ∧
    envelope.metadata.network = net.networkIDString ∧
    PayloadProfile payload (countMnemonicWordsInJson plaintext)

/-- What a result says of the document it was computed for. -/
structure Judges (out : MigrationEnvelopeValidation) : Prop where
  accepted : out.Accepted ↔ WellFormed cipher read net envelope passphrase
  version : out.Accepted → out.envelopeVersion = 2
  coinType : out.Accepted → out.payloadCoinType = 420
  account : out.Accepted → out.account = 0

/-- Validation returns a result that is right about the document when all numbers fit, and throws else. -/
def Judged (r : Except String MigrationEnvelopeValidation) : Prop :=
  Outcome (NumbersFit cipher read envelope passphrase) (Judges cipher read net envelope passphrase) r

end Documents

variable {cipher : MigrationCipher} {read : Bytes → Option UniValue} {net : Network} {envelope : UniValue}
  {passphrase plaintext : Bytes} {payload : UniValue} {call : DecryptionCall}

theorem aad_of_decryptionCall (h : decryptionCall cipher envelope passphrase = some call) :
    call.aad = envelope.metadata.aad := by
  unfold decryptionCall at h
  simp only at h
  split at h
  · split_ifs at h
    rw [← Option.some.inj h]
  · cases h

/-- The call is determined by the document. -/
theorem ReachesDecryption.unique {call' : DecryptionCall} (h : ReachesDecryption cipher envelope passphrase call)
    (h' : ReachesDecryption cipher envelope passphrase call') : call' = call :=
  Option.some.inj (h'.call.symm.trans h.call)

theorem ReachesDecryption.hasPayload_iff (h : ReachesDecryption cipher envelope passphrase call) :
    HasPayload cipher read envelope passphrase plaintext payload ↔
      cipher.answer call = some plaintext ∧ read (sanitizedPayload plaintext) = some payload := by
  refine ⟨?_, fun hanswer => ⟨call, h, hanswer⟩⟩
  rintro ⟨call', h', hanswer⟩
  rwa [h.unique h'] at hanswer

theorem HasPayload.unique {plaintext' : Bytes} {payload' : UniValue}
    (h : HasPayload cipher read envelope passphrase plaintext payload)
    (h' : HasPayload cipher read envelope passphrase plaintext' payload') :
    plaintext = plaintext' ∧ payload = payload' := by
  obtain ⟨call, hcall, hanswer, hread⟩ := h
  obtain ⟨hanswer', hread'⟩ := hcall.hasPayload_iff.mp h'
  obtain rfl := Option.some.inj (hanswer.symm.trans hanswer')
  exact ⟨rfl, Option.some.inj (hread.symm.trans hread')⟩

theorem Reads.of_same {out' : MigrationEnvelopeValidation} (h : Reads net envelope out)
    (hsame : Same out out') : Reads net envelope out' :=
  ⟨hsame.version.trans h.version, hsame.schema.trans h.schema, hsame.network.trans h.network,
    hsame.coinType.trans h.coinType, hsame.exportedAt.trans h.exportedAt,
    hsame.sameChain.trans h.sameChain, hsame.restorable.trans h.restorable,
    hsame.decrypted.trans h.decrypted⟩

theorem outcome_validatePublicFields (net : Network) {v : Int} (hv : envelope.num? "envelope_version" = some v) :
    Outcome (envelope.FitsInt64 "exported_at" ∧ envelope.chainObj.FitsInt "coin_type_bip44")
      (fun out => Reads net envelope out ∧
        (out.valid = true ↔ envelope.metadata.schemaIdentifier ≠ [] ∧ envelope.metadata.network ≠ []))
      (validatePublicFields net envelope v) := by
  simp only [validatePublicFields]
  refine (envelope.outcome_int64Or "exported_at" 0).bind ?_
  rintro _ rfl
  refine (envelope.chainObj.outcome_intOr "coin_type_bip44" 0).map ?_
  rintro _ rfl
  refine ⟨_, rfl, ⟨?_, rfl, rfl, rfl, rfl, rfl, rfl, rfl⟩, ?_⟩
  · simp [UniValue.metadata, hv]
  · simp [UniValue.metadata]

theorem not_accepted_fail (out : MigrationEnvelopeValidation) (error reason : String) : ¬(out.fail error reason).Accepted := by
  simp [Accepted, fail]

theorem not_privateProfile_vnull (passphrase : Bytes) : ¬PrivateProfile .vnull passphrase := by
  intro h
  have hprofile := h.kdfProfile
  rw [UniValue.strOr_vnull] at hprofile
  exact absurd hprofile (by decide)

/-- The number of iterations is read once it is known to be in range. -/
theorem PrivateProfile.fits {priv : UniValue} (h : PrivateProfile priv passphrase) : priv.FitsInt64 "kdf_iterations" := by
  intro n hn
  have hge := h.iterations_ge
  have hle := h.iterations_le
  rw [Option.mem_def.mp hn, Option.getD_some] at hge hle
  omega

section Private

variable (hversion : envelope.num? "envelope_version" = some 2)
  (hpublic : envelope.FitsInt64 "exported_at" ∧ envelope.chainObj.FitsInt "coin_type_bip44")
  (hreads : Reads net envelope out)
  (hvalid : out.valid = true ↔ envelope.metadata.schemaIdentifier ≠ [] ∧ envelope.metadata.network ≠ [])

include hversion hpublic in
theorem privateCases_validateEncrypted (hreads : Reads net envelope out) (hgo : out.valid = true)
    (hschema : envelope.metadata.schemaIdentifier ≠ []) (hnetwork : envelope.metadata.network ≠ [])
    (hprofile : PrivateProfile envelope.privateObj passphrase)
    (hiter : out.kdfIterations = (envelope.privateObj.num? "kdf_iterations").getD 0)
    {saltHex ivHex tagHex ciphertextHex : Bytes}
    (hsalt : envelope.privateObj.str? "salt" = some saltHex)
    (hiv : envelope.privateObj.str? "iv" = some ivHex)
    (htag : envelope.privateObj.str? "tag" = some tagHex)
    (hciphertext : envelope.privateObj.str? "ciphertext" = some ciphertextHex) :
    PrivateCases cipher read net envelope passphrase (validateEncrypted cipher read out.schemaIdentifier
      saltHex ivHex tagHex ciphertextHex passphrase out) := by
  have haad : migrationBuildAAD out.schemaIdentifier out.envelopeVersion out.network
      out.coinTypeBip44 out.exportedAt (str "private-payload") = envelope.metadata.aad := by
    rw [hreads.version, hreads.schema, hreads.network, hreads.coinType, hreads.exportedAt]
    rfl
  have hno : decryptionCall cipher envelope passphrase = none →
      ∀ call, ¬ReachesDecryption cipher envelope passphrase call := by
    intro hnone call hcall
    cases hnone.symm.trans hcall.call
  have hreach : ∀ call, decryptionCall cipher envelope passphrase = some call →
      ReachesDecryption cipher envelope passphrase call :=
    fun call hcall => ⟨hversion, hschema, hnetwork, hpublic.1, hpublic.2, hprofile, hcall⟩
  simp only [decryptionCall, hsalt, hiv, htag, hciphertext, ← hiter] at hno hreach
  simp only [validateEncrypted, haad]
  split_ifs at hno hreach ⊢ with hsizes hkey
  · exact .inl ⟨hno rfl, _, rfl, not_accepted_fail _ _ _⟩
  · exact .inl ⟨hno rfl, _, rfl, not_accepted_fail _ _ _⟩
  · exact .inr ⟨_, out, hreach _ rfl, rfl, hgo, hreads⟩

include hversion hpublic hreads hvalid

theorem outcome_validatePrivate (cipher : MigrationCipher) (read : Bytes → Option UniValue) (passphrase : Bytes) :
    (envelope.privateObj.FitsInt64 "kdf_iterations" ∧ PrivateCases cipher read net envelope passphrase
        (validatePrivate cipher read envelope passphrase out)) ∨
      (¬envelope.privateObj.FitsInt64 "kdf_iterations" ∧ Throws (validatePrivate cipher read envelope passphrase out)) := by
  cases hpriv : envelope.obj? "private" with
  | none =>
    have hnull : envelope.privateObj = .vnull := by rw [UniValue.privateObj, hpriv]; rfl
    rw [validatePrivate, hpriv]
    refine .inl ⟨by rw [hnull]; rintro n ⟨⟩, .inl ⟨fun call hcall => ?_, _, rfl, not_accepted_fail _ _ _⟩⟩
    exact not_privateProfile_vnull passphrase (hnull ▸ hcall.profile)
  | some priv =>
    have hobj : envelope.privateObj = priv := by rw [UniValue.privateObj, hpriv]; rfl
    rw [validatePrivate, hpriv, hobj]
    rcases outcome_validatePrivateFields priv passphrase out with
      ⟨hfits, out₁, hfields, hvalid₁, hsame⟩ | ⟨hfits, hthrows⟩
    swap
    · exact .inr ⟨hfits, hthrows.bind _⟩
    refine .inl ⟨hfits, ?_⟩
    have hbase : Reads net envelope { out with kdfIterations := (priv.num? "kdf_iterations").getD 0 } := { hreads with }
    have hreads₁ := hbase.of_same hsame
    rw [← hobj] at hvalid₁
    simp only [hfields, ok_bind]
    by_cases hgo : out₁.valid = true
    · obtain ⟨hok, hprofile⟩ := hvalid₁.mp hgo
      obtain ⟨hschema, hnetwork⟩ := hvalid.mp hok
      rw [if_pos (by simpa [hgo] using hprofile.passphrase)]
      split
      · rename_i saltHex ivHex tagHex ciphertextHex hsalt hiv htag hciphertext
        rw [← hobj] at hsalt hiv htag hciphertext
        exact privateCases_validateEncrypted hversion hpublic hreads₁ hgo hschema hnetwork hprofile
          (hsame.iterations.trans (by rw [hobj])) hsalt hiv htag hciphertext
      · refine .inl ⟨fun call hcall => ?_, _, rfl, not_accepted_fail _ _ _⟩
        have hnone := hcall.call
        simp only [decryptionCall, hobj] at hnone
        cases hnone
    · refine .inl ⟨fun call hcall => ?_, out₁, ?_, fun h => hgo h.1⟩
      · exact hgo (hvalid₁.mpr ⟨hvalid.mpr ⟨hcall.schema, hcall.network⟩, hcall.profile⟩)
      · rw [if_neg (by simp [hgo])]
        rfl

end Private

/-- Where validation reaches decryption, its result is what it makes of the answer. -/
theorem ReachesDecryption.validateEnvelope_eq (h : ReachesDecryption cipher envelope passphrase call)
    (read : Bytes → Option UniValue) (net : Network) : ∃ out, validateEnvelope cipher read net envelope passphrase =
      afterDecryption read (cipher.answer call) out ∧ out.valid = true ∧ Reads net envelope out := by
  have hpublic : envelope.FitsInt64 "exported_at" ∧ envelope.chainObj.FitsInt "coin_type_bip44" := ⟨h.exportedAt, h.coinType⟩
  have hversion : (envelope.get "envelope_version").getInt = .ok 2 := by
    rw [UniValue.get_of_num? h.version]
    rfl
  rw [validateEnvelope, h.version]
  simp only [hversion, ok_bind]
  rw [if_neg (by decide)]
  rcases outcome_validatePublicFields net h.version with ⟨-, out, hout, hreads, hvalid⟩ | ⟨hnot, -⟩
  swap
  · exact absurd hpublic hnot
  rw [hout]
  rcases outcome_validatePrivate h.version hpublic hreads hvalid cipher read passphrase with
    ⟨-, ⟨hnone, -⟩ | ⟨call', out', hcall, heq, hout'⟩⟩ | ⟨hnot, -⟩
  · exact absurd h (hnone call)
  · exact ⟨out', by rwa [h.unique hcall] at heq, hout'⟩
  · exact absurd h.profile.fits hnot

/-! ## Validation -/

def ProfileFits (prof : UniValue) : Prop := prof.FitsInt "purpose" ∧ prof.FitsInt "coin_type"

def readProfile (prof : UniValue) : Except String (Option MigrationDerivationProfileEntry) :=
  match prof with
  | .vobj _ _ => do
    let entry ← readDerivationProfile prof
    pure (some entry)
  | _ => pure none

theorem outcome_readProfile (prof : UniValue) : Outcome (ProfileFits prof) (fun _ => True) (readProfile prof) := by
  have hother : ∀ v : UniValue, (∀ key, v.get key = .vnull) → ProfileFits v := by
    intro v hv
    constructor <;> simp [UniValue.FitsInt, UniValue.num?, hv]
  cases prof with
  | vobj keys values =>
    have hread : Outcome (ProfileFits (.vobj keys values)) (fun _ => True) (readDerivationProfile (.vobj keys values)) :=
      ((UniValue.vobj keys values).outcome_intOr "purpose" (-1)).bind fun _ _ =>
        ((UniValue.vobj keys values).outcome_intOr "coin_type" 0).map fun _ _ => ⟨_, rfl, trivial⟩
    exact hread.map fun entry _ => ⟨some entry, rfl, trivial⟩
  | vnull => exact .inl ⟨hother _ fun _ => rfl, none, rfl, trivial⟩
  | vbool val => exact .inl ⟨hother _ fun _ => rfl, none, rfl, trivial⟩
  | vnum val => exact .inl ⟨hother _ fun _ => rfl, none, rfl, trivial⟩
  | vstr val => exact .inl ⟨hother _ fun _ => rfl, none, rfl, trivial⟩
  | varr values => exact .inl ⟨hother _ fun _ => rfl, none, rfl, trivial⟩

theorem outcome_readProfiles (profs : List UniValue) :
    Outcome (∀ prof ∈ profs, ProfileFits prof) (fun _ => True) (profs.filterMapM readProfile) := by
  induction profs with
  | nil => exact .inl ⟨by simp, [], rfl, trivial⟩
  | cons prof profs ih =>
    rw [List.filterMapM_cons, List.forall_mem_cons]
    refine (outcome_readProfile prof).bind fun entry _ => ?_
    cases entry with
    | none => exact ih
    | some entry => exact ih.map fun l _ => ⟨entry :: l, rfl, trivial⟩

theorem outcome_validatePublicOnly (hreads : Reads net envelope out) :
    Outcome (∀ prof ∈ (envelope.arr? "derivation").getD [], ProfileFits prof) (fun out' => ¬out'.Accepted)
      (validatePublicOnly envelope out) := by
  refine (outcome_readProfiles ((envelope.arr? "derivation").getD [])).map fun profiles _ => ⟨_, rfl, ?_⟩
  rintro ⟨-, hrestorable, -⟩
  split_ifs at hrestorable <;>
    exact absurd (hreads.restorable.symm.trans hrestorable) (by decide)

theorem not_hasPayload_of_version (h : envelope.num? "envelope_version" ≠ some 2) :
    ¬HasPayload cipher read envelope passphrase plaintext payload := by
  rintro ⟨call, hcall, -⟩
  exact h hcall.version

theorem judges_of_not_accepted (hout : ¬out.Accepted)
    (h : ∀ plaintext payload, ¬HasPayload cipher read envelope passphrase plaintext payload) :
    Judges cipher read net envelope passphrase out := by
  refine ⟨⟨fun hacc => absurd hacc hout, ?_⟩, fun hacc => absurd hacc hout,
    fun hacc => absurd hacc hout, fun hacc => absurd hacc hout⟩
  rintro ⟨plaintext, payload, hpayload, -⟩
  exact absurd hpayload (h plaintext payload)

theorem judges_afterDecryption (hcall : ReachesDecryption cipher envelope passphrase call)
    (hok : out.valid = true) (hreads : Reads net envelope out) :
    Outcome (∀ plaintext payload, HasPayload cipher read envelope passphrase plaintext payload → PayloadFits payload)
      (Judges cipher read net envelope passphrase) (afterDecryption read (cipher.answer call) out) := by
  -- without a payload nothing is asked of it, and the result is not accepted
  have hno : ∀ out', ¬out'.Accepted → (∀ plaintext payload, ¬HasPayload cipher read envelope passphrase plaintext payload) →
      Outcome (∀ plaintext payload, HasPayload cipher read envelope passphrase plaintext payload → PayloadFits payload)
        (Judges cipher read net envelope passphrase) (.ok out') := fun out' hacc hnone =>
    .inl ⟨fun plaintext payload h => absurd h (hnone plaintext payload), out', rfl, judges_of_not_accepted hacc hnone⟩
  cases hanswer : cipher.answer call with
  | none =>
    refine hno _ (not_accepted_fail _ _ _) fun plaintext payload h => ?_
    cases hanswer.symm.trans (hcall.hasPayload_iff.mp h).1
  | some plaintext =>
    rw [afterDecryption]
    cases hread : read (sanitizedPayload plaintext) with
    | none =>
      refine hno _ (not_accepted_fail _ _ _) fun plaintext' payload h => ?_
      obtain ⟨hanswer', hread'⟩ := hcall.hasPayload_iff.mp h
      obtain rfl := Option.some.inj (hanswer.symm.trans hanswer')
      cases hread.symm.trans hread'
    | some payload =>
      have hpayload : HasPayload cipher read envelope passphrase plaintext payload := ⟨call, hcall, hanswer, hread⟩
      have hbase : ({ out with decryptionSuccessful := true } : MigrationEnvelopeValidation).restorable = false :=
        hreads.restorable
      rcases outcome_validatePayload payload (countMnemonicWordsInJson plaintext) hbase with
        ⟨hfits, out₂, hout₂, hvalid₂, hrestorable, hdecrypted, hversion₂, hcoin₂, haccount₂⟩ | ⟨hfits, hthrows⟩
      swap
      · exact .inr ⟨fun h => hfits (h _ _ hpayload), hthrows⟩
      refine .inl ⟨fun _ payload' h => (hpayload.unique h).2 ▸ hfits, out₂, hout₂, ?_⟩
      have hprofile : out₂.valid = true ↔ PayloadProfile payload (countMnemonicWordsInJson plaintext) :=
        hvalid₂.trans (and_iff_right hok)
      have hchain : out.matchesCurrentChain = true ↔ envelope.metadata.network = net.networkIDString := by
        rw [hreads.sameChain, beq_iff_eq]
      refine ⟨⟨?_, ?_⟩, ?_, ?_, ?_⟩
      · rintro ⟨hv, hr, -⟩
        exact ⟨plaintext, payload, hpayload, hchain.mp (hrestorable.mp hr).2, hprofile.mp hv⟩
      · rintro ⟨plaintext', payload', hpayload', hnetwork, hprofile'⟩
        obtain ⟨rfl, rfl⟩ := hpayload.unique hpayload'
        have hv := hprofile.mpr hprofile'
        exact ⟨hv, hrestorable.mpr ⟨hv, hchain.mpr hnetwork⟩, hdecrypted⟩
      · intro _
        rw [hversion₂]
        show out.envelopeVersion = 2
        rw [hreads.version]
        simp [UniValue.metadata, hcall.version]
      · rintro ⟨hv, -⟩
        rw [hcoin₂, (hprofile.mp hv).coinType]
      · rintro ⟨hv, -⟩
        rw [haccount₂, (hprofile.mp hv).account]

theorem outcome_of_privateCases {r : Except String MigrationEnvelopeValidation}
    (h : PrivateCases cipher read net envelope passphrase r) :
    Outcome (∀ plaintext payload, HasPayload cipher read envelope passphrase plaintext payload → PayloadFits payload)
      (Judges cipher read net envelope passphrase) r := by
  rcases h with ⟨hnone, out, rfl, hacc⟩ | ⟨call, out, hcall, rfl, hok, hreads⟩
  · have hno : ∀ plaintext payload, ¬HasPayload cipher read envelope passphrase plaintext payload :=
      fun plaintext payload ⟨call, hcall, _⟩ => hnone call hcall
    exact .inl ⟨fun plaintext payload h => absurd h (hno plaintext payload), out, rfl, judges_of_not_accepted hacc hno⟩
  · exact judges_afterDecryption hcall hok hreads

theorem validateEnvelope_of_noVersion (hnum : envelope.num? "envelope_version" = none) :
    Judged cipher read net envelope passphrase (validateEnvelope cipher read net envelope passphrase) := by
  have hno : envelope.num? "envelope_version" ≠ some 2 := by rw [hnum]; simp
  cases hhas : envelope.has "envelope_version" with
  | false =>
    refine .inl ⟨⟨by simp [UniValue.FitsInt, hnum], fun _ => hhas, by simp [hnum], by simp [hnum],
      by simp [hnum], fun _ _ h => absurd h (not_hasPayload_of_version hno)⟩, ?_⟩
    refine ⟨_, by rw [validateEnvelope, hnum]; simp only [hhas]; rfl, ?_⟩
    exact judges_of_not_accepted (not_accepted_fail _ _ _) fun _ _ => not_hasPayload_of_version hno
  | true =>
    refine .inr ⟨fun h => by simpa [hhas] using h.version_num hnum, ?_⟩
    rw [validateEnvelope, hnum]
    simp only [hhas, if_true]
    exact (UniValue.throws_getInt_of_num? hnum).bind _

theorem validateEnvelope_of_known {n : Int} (hnum : envelope.num? "envelope_version" = some n)
    (hor : n = 1 ∨ n = 2) (hfitsInt : envelope.FitsInt "envelope_version") :
    Judged cipher read net envelope passphrase (validatePublicFields net envelope n >>= fun out =>
      if n = 1 then validatePublicOnly envelope out
      else validatePrivate cipher read envelope passphrase out) := by
  rcases outcome_validatePublicFields net hnum with ⟨hpublic, out, hout, hreads, hvalid⟩ | ⟨hpublic, hthrows⟩
  swap
  · exact .inr ⟨fun h => hpublic (h.known n hnum hor), hthrows.bind _⟩
  have hfits : ∀ m, envelope.num? "envelope_version" = some m → m = 1 ∨ m = 2 →
      envelope.FitsInt64 "exported_at" ∧ envelope.chainObj.FitsInt "coin_type_bip44" :=
    fun _ _ _ => hpublic
  rw [hout]
  rcases hor with rfl | rfl
  · have hno : envelope.num? "envelope_version" ≠ some 2 := by rw [hnum]; simp
    rcases outcome_validatePublicOnly hreads with ⟨hprofs, out', hout', hacc⟩ | ⟨hprofs, hthrows⟩
    · refine .inl ⟨⟨hfitsInt, by simp [hnum], hfits, fun _ => hprofs, fun h => absurd h hno,
        fun _ _ h => absurd h (not_hasPayload_of_version hno)⟩, out', hout', ?_⟩
      exact judges_of_not_accepted hacc fun _ _ => not_hasPayload_of_version hno
    · exact .inr ⟨fun h => hprofs (h.profiles hnum), hthrows⟩
  · rcases outcome_validatePrivate hnum hpublic hreads hvalid cipher read passphrase with
      ⟨hiterations, hcases⟩ | ⟨hiterations, hthrows⟩
    · rcases outcome_of_privateCases hcases with ⟨hpayload, out', hout', hjudges⟩ | ⟨hpayload, hthrows⟩
      · refine .inl ⟨⟨hfitsInt, by simp [hnum], hfits, ?_, fun _ => hiterations, hpayload⟩, out',
          hout', hjudges⟩
        intro h
        exact absurd (hnum.symm.trans h) (by simp)
      · exact .inr ⟨fun h => hpayload h.payload, hthrows⟩
    · exact .inr ⟨fun h => hiterations (h.iterations hnum), hthrows⟩

theorem validateEnvelope_cases (cipher : MigrationCipher) (read : Bytes → Option UniValue) (net : Network)
    (envelope : UniValue) (passphrase : Bytes) :
    Judged cipher read net envelope passphrase (validateEnvelope cipher read net envelope passphrase) := by
  cases hnum : envelope.num? "envelope_version" with
  | none => exact validateEnvelope_of_noVersion hnum
  | some n =>
    have hget := UniValue.get_of_num? hnum
    rw [validateEnvelope, hnum]
    by_cases hrange : -2 ^ 31 ≤ n ∧ n < 2 ^ 31
    swap
    · refine .inr ⟨fun h => hrange (h.version n hnum), ?_⟩
      simp only [hget, UniValue.getInt, if_neg hrange]
      exact (throws_error.mpr (by simp [jsonExceptions])).bind _
    have hfitsInt : envelope.FitsInt "envelope_version" := by
      intro m hm
      rw [hnum] at hm
      exact Option.some.inj hm ▸ hrange
    simp only [hget, UniValue.getInt, if_pos hrange, ok_bind]
    by_cases hknown : n ≠ 1 ∧ n ≠ 2
    · have hno : envelope.num? "envelope_version" ≠ some 2 := by
        rw [hnum]
        exact fun h => hknown.2 (Option.some.inj h)
      rw [if_pos hknown]
      refine .inl ⟨⟨hfitsInt, by simp [hnum], ?_, ?_, fun h => absurd h hno,
        fun _ _ h => absurd h (not_hasPayload_of_version hno)⟩, _, rfl, ?_⟩
      · intro m hm hor
        obtain rfl := Option.some.inj (hnum.symm.trans hm)
        exact absurd hor (by omega)
      · intro hm
        exact absurd (Option.some.inj (hnum.symm.trans hm)) hknown.1
      · exact judges_of_not_accepted (not_accepted_fail _ _ _) fun _ _ => not_hasPayload_of_version hno
    · rw [if_neg hknown]
      exact validateEnvelope_of_known hnum (by omega) hfitsInt

/-! ## Restore -/

def CoinTypeGiven (envelope : UniValue) : Prop :=
  (envelope.chainObj.num? "coin_type_bip44").isSome

/-- The height of the first derivation profile that has one is an `int64_t`. -/
def HeightFits (envelope : UniValue) : Prop :=
  ∀ n ∈ ((envelope.arr? "derivation").getD []).findSome? (·.num? "best_block_height"),
    -2 ^ 63 ≤ n ∧ n < 2 ^ 63

theorem outcome_extractBestBlockHeight (envelope : UniValue) :
    Outcome (HeightFits envelope)
      (· = (((envelope.arr? "derivation").getD []).findSome? (·.num? "best_block_height")).getD 0)
      (extractBestBlockHeightFromEnvelope envelope) :=
  Outcome.optional (fun n => UniValue.outcome_ite n) _ 0

theorem words_ne_nil {plaintext : Bytes}
    (h : countMnemonicWordsInJson plaintext = 12 ∨ countMnemonicWordsInJson plaintext = 18 ∨
      countMnemonicWordsInJson plaintext = 24) :
    (extractStringFromPayload plaintext "words").isEmpty = false := by
  rw [List.isEmpty_eq_false_iff]
  intro hnil
  have hle : countMnemonicWordsInJson plaintext ≤ 1 := by
    unfold countMnemonicWordsInJson
    unfold extractStringFromPayload at hnil
    split at hnil
    · simp
    · simp only [hnil]
      split_ifs <;> simp
  omega

theorem chainObj_of_network (h : envelope.metadata.network ≠ []) : envelope.get "chain" = envelope.chainObj := by
  cases hchain : envelope.obj? "chain" with
  | none =>
    have hnull : envelope.metadata.network = [] := by
      simp only [UniValue.metadata, hchain, Option.getD_none]
      rfl
    exact absurd hnull h
  | some obj =>
    rw [UniValue.chainObj, hchain, Option.getD_some]
    exact UniValue.get_of_obj? hchain

theorem privateObj_of_profile (h : PrivateProfile envelope.privateObj passphrase) :
    envelope.get "private" = envelope.privateObj := by
  cases hpriv : envelope.obj? "private" with
  | none =>
    rw [UniValue.privateObj, hpriv] at h
    exact absurd h (not_privateProfile_vnull _)
  | some obj =>
    rw [UniValue.privateObj, hpriv, Option.getD_some]
    exact UniValue.get_of_obj? hpriv

/-- The restore reads the members of a document whose payload was validated; the coin type it reads
without a test, and a height that validation has not looked at. -/
theorem outcome_readSecrets {plaintext : Bytes} {payload : UniValue}
    (h : HasPayload cipher read envelope passphrase plaintext payload)
    (hcount : countMnemonicWordsInJson plaintext = 12 ∨ countMnemonicWordsInJson plaintext = 18 ∨
      countMnemonicWordsInJson plaintext = 24) (validation : MigrationEnvelopeValidation) :
    Outcome (CoinTypeGiven envelope ∧ HeightFits envelope) (fun _ => True)
      (readSecrets cipher envelope passphrase validation) := by
  obtain ⟨call, hcall, hanswer, -⟩ := h
  have hversion : (envelope.get "envelope_version").getInt = .ok 2 := by
    rw [UniValue.get_of_num? hcall.version]
    rfl
  have hiterations : (envelope.privateObj.get "kdf_iterations").getInt64 =
      .ok ((envelope.privateObj.num? "kdf_iterations").getD 0) := by
    have hge := hcall.profile.iterations_ge
    have hfits := hcall.profile.fits
    cases hn : envelope.privateObj.num? "kdf_iterations" with
    | none => simp [hn] at hge
    | some n =>
      rw [UniValue.get_of_num? hn, UniValue.getInt64, if_pos (hfits n hn)]
      rfl
  have hschema := UniValue.getStr_of_strOr hcall.schema
  have hnetwork : (envelope.chainObj.get "network").getStr = .ok envelope.metadata.network :=
    UniValue.getStr_of_strOr hcall.network
  have hcallEq := hcall.call
  unfold decryptionCall at hcallEq
  simp only at hcallEq
  split at hcallEq
  swap
  · cases hcallEq
  rename_i saltHex ivHex tagHex ciphertextHex hsalt hiv htag hciphertext
  split_ifs at hcallEq with hsizes hkey
  obtain rfl := Option.some.inj hcallEq
  have hdecrypt : cipher.decrypt _ _ _ _ _ = some plaintext := hanswer
  simp only [readSecrets, hversion, hschema, (envelope.outcome_int64Or "exported_at" 0).eq_ok hcall.exportedAt,
    privateObj_of_profile hcall.profile, UniValue.getStr_of_str? hsalt,
    UniValue.getStr_of_str? hiv, UniValue.getStr_of_str? htag, UniValue.getStr_of_str? hciphertext,
    chainObj_of_network hcall.network, hnetwork, hiterations, ok_bind]
  cases hcoin : envelope.chainObj.num? "coin_type_bip44" with
  | none =>
    refine .inr ⟨by simp [CoinTypeGiven, hcoin], ?_⟩
    exact (UniValue.throws_getInt_of_num? hcoin).bind _
  | some coinType =>
    have hget : (envelope.chainObj.get "coin_type_bip44").getInt = .ok envelope.metadata.coinType := by
      rw [UniValue.get_of_num? hcoin, UniValue.getInt, if_pos (hcall.coinType coinType hcoin)]
      show _ = Except.ok ((envelope.chainObj.num? "coin_type_bip44").getD 0)
      rw [hcoin, Option.getD_some]
    have haad : migrationBuildAAD (envelope.strOr "schema_identifier" []) 2 envelope.metadata.network
        envelope.metadata.coinType ((envelope.num? "exported_at").getD 0) (str "private-payload") =
        envelope.metadata.aad := by
      simp only [EnvelopeMetadata.aad, UniValue.metadata, hcall.version, Option.getD_some]
    rw [hget]
    simp only [ok_bind, if_neg hkey, haad, hdecrypt]
    refine ((outcome_extractBestBlockHeight envelope).map fun height _ => ?_).of_iff
      (and_iff_right (by simp [CoinTypeGiven, hcoin])).symm
    simp only [words_ne_nil hcount, Bool.false_eq_true, if_false]
    exact ⟨_, rfl, trivial⟩

/-- Both calls return normally, and a restore succeeds just when validation has set the three flags. -/
def RestoreAgrees (cipher : MigrationCipher) (read : Bytes → Option UniValue) (net : Network)
    (file : MigrationFile) (passphrase : Bytes) : Prop :=
  ¬Throws (validateMigrationEnvelopeFile cipher read net file passphrase) ∧
    ¬Throws (readMigrationEnvelopeRestoreData cipher read net file passphrase) ∧
    ((∃ data, readMigrationEnvelopeRestoreData cipher read net file passphrase = .ok data) ↔
      ∃ out, validateMigrationEnvelopeFile cipher read net file passphrase = .ok out ∧ out.Accepted)

theorem readEnvelope_not_throws (read : Bytes → Option UniValue) (file : MigrationFile) {e : String}
    (h : readEnvelope read file = .error e) : e ∉ jsonExceptions := by
  unfold readEnvelope at h
  split at h
  · obtain rfl := Except.error.inj h
    simp [jsonExceptions]
  · obtain rfl := Except.error.inj h
    simp [jsonExceptions]
  · obtain rfl := Except.error.inj h
    simp [jsonExceptions]
  · split at h
    · obtain rfl := Except.error.inj h
      simp [jsonExceptions]
    · cases h
    · obtain rfl := Except.error.inj h
      simp [jsonExceptions]

theorem not_restorable_text (reason : String) : "Migration envelope is not restorable: " ++ reason ∉ jsonExceptions := by
  have hhead : ("Migration envelope is not restorable: " ++ reason).toList.head? = some 'M' := by
    rw [String.toList_append]
    rfl
  intro h
  simp only [jsonExceptions, List.mem_cons, List.not_mem_nil, or_false] at h
  rcases h with h | h | h <;> rw [h] at hhead <;> exact absurd hhead (by decide)

theorem restore_of_not_accepted {file : MigrationFile}
    (hvalidate : validateMigrationEnvelopeFile cipher read net file passphrase = .ok out) (hout : ¬out.Accepted) :
    ∃ e ∉ jsonExceptions, readMigrationEnvelopeRestoreData cipher read net file passphrase = .error e := by
  rw [readMigrationEnvelopeRestoreData, hvalidate, ok_bind]
  by_cases hvalid : out.valid = true
  swap
  · rw [if_pos (by simpa using hvalid)]
    exact ⟨_, by simp [jsonExceptions], rfl⟩
  rw [if_neg (by simp [hvalid])]
  by_cases hversion : out.envelopeVersion = 1
  · rw [if_pos hversion]
    exact ⟨_, by decide, rfl⟩
  rw [if_neg hversion]
  by_cases hrestorable : out.restorable = true
  swap
  · rw [if_pos (by simpa using hrestorable)]
    exact ⟨_, not_restorable_text _, rfl⟩
  rw [if_neg (by simp [hrestorable])]
  by_cases hdecrypted : out.decryptionSuccessful = true
  · exact absurd ⟨hvalid, hrestorable, hdecrypted⟩ hout
  · rw [if_pos (by simpa using hdecrypted)]
    exact ⟨_, by decide, rfl⟩

theorem restore_of_accepted {file : MigrationFile} (henvelope : readEnvelope read file = .ok envelope)
    (hvalidate : validateMigrationEnvelopeFile cipher read net file passphrase = .ok out)
    (hjudges : Judges cipher read net envelope passphrase out) (hout : out.Accepted) :
    readMigrationEnvelopeRestoreData cipher read net file passphrase = readSecrets cipher envelope passphrase out := by
  have hversion := hjudges.version hout
  rw [readMigrationEnvelopeRestoreData, hvalidate, ok_bind, if_neg (by simp [hout.1]),
    if_neg (by rw [hversion]; decide), if_neg (by simp [hout.2.1]), if_neg (by simp [hout.2.2]),
    if_neg (by simp [hjudges.coinType hout]), if_neg (by simp [hjudges.account hout]), henvelope,
    ok_bind]

/-- A cipher that leaves the text as it is. -/
def plainCipher : MigrationCipher where
  deriveKey _ salt _ := salt
  encrypt _ _ plaintext _ := some (plaintext, List.replicate 16 0)
  decrypt _ _ ciphertext _ _ := some ciphertext
  decrypt_encrypt := by
    rintro key iv plaintext aad ciphertext tag h
    cases h
    exact ⟨rfl, rfl, rfl⟩

/-- A document whose version is written as a text, and a reader that knows it. -/
def versionText : UniValue := .object [("envelope_version", .vstr (str "2"))]

def readVersionText (text : Bytes) : Option UniValue :=
  if text = versionText.write 0 0 then some versionText else none

end HempCore
