import HempCore.Lib.Search
import HempCore.Model.Chain
import HempCore.Model.UniValue

/-!
# Wallet migration envelopes

`exportwalletmigration` writes the secrets of a wallet as JSON, encrypts that text and stores it in
a JSON envelope; `ReadMigrationEnvelopeRestoreData` reads them back, with a scanner of its own that
looks for keys and quotes in the decrypted text. The cipher and the JSON reader are parameters.
Secrets are cleansed from memory after use, which is left out.
Lines without a file are those of `migration_envelope.cpp`.
-/

set_option autoImplicit false

namespace HempCore

open Lib (indexOf quoted)

/-- chainparamsbase.cpp:14-16 -/
inductive Network where
  | main
  | test
  | regtest
deriving DecidableEq

def Network.networkIDString : Network → Bytes
  | .main => str "main"
  | .test => str "test"
  | .regtest => str "regtest"

/-- chainparams.cpp:206, 432, 640 -/
def Network.extCoinType : Network → Int
  | .main => 420
  | .test => 420
  | .regtest => 420

/-! ## The cipher -/

/-- migration_crypto.h:13-17 -/
def MIGRATION_KDF_SALT_SIZE : Nat := 32
def MIGRATION_GCM_IV_SIZE : Nat := 12
def MIGRATION_GCM_TAG_SIZE : Nat := 16
def MIGRATION_KDF_ITERATIONS : Nat := 600000

/-- migration_crypto.h:19-20 -/
def MIGRATION_KDF_PROFILE : Bytes := str "pbkdf2-hmac-sha512-v1"
def MIGRATION_CIPHER_PROFILE : Bytes := str "aes-256-gcm-v1"

/-- PBKDF2 and AES-GCM: what was encrypted is decrypted again, the tag has its size and the
ciphertext the size of the plaintext. migration_crypto.h:22-60 -/
structure MigrationCipher where
  deriveKey (passphrase salt : Bytes) (iterations : Nat) : Bytes
  encrypt (key iv plaintext aad : Bytes) : Option (Bytes × Bytes)
  decrypt (key iv ciphertext aad tag : Bytes) : Option Bytes
  decrypt_encrypt {key iv plaintext aad ciphertext tag : Bytes} :
    encrypt key iv plaintext aad = some (ciphertext, tag) →
      decrypt key iv ciphertext aad tag = some plaintext ∧
        ciphertext.length = plaintext.length ∧ tag.length = MIGRATION_GCM_TAG_SIZE

/-- migration_crypto.cpp:176-191 -/
def migrationBuildAAD (schemaIdentifier : Bytes) (envelopeVersion : Int) (network : Bytes)
    (coinType exportedAt : Int) (purposeLabel : Bytes) : Bytes :=
  schemaIdentifier ++ 58 :: decimalInt envelopeVersion ++ 58 :: network ++ 58 ::
    decimalInt coinType ++ 58 :: decimalInt exportedAt ++ 58 :: purposeLabel

/-! ## The scanner -/

/-- `std::string::find` from a position on. -/
def findFrom (s pattern : Bytes) (pos : Nat) : Option Nat :=
  (indexOf pattern (s.drop pos)).map (· + pos)

/-- The four characters skipped in front of a value. -/
def isJsonBlank (b : UInt8) : Bool := b == 32 || b == 9 || b == 10 || b == 13

/-- The place of the first quote that no backslash escapes. L54-65 -/
def closingQuote (escaped : Bool) : Bytes → Option Nat
  | [] => none
  | b :: s =>
    if escaped then (closingQuote false s).map (· + 1)
    else if b = 92 then (closingQuote true s).map (· + 1)
    else if b = 34 then some 0
    else (closingQuote false s).map (· + 1)

variable (json : Bytes)

/-- `value_begin` and `value_end`. L36-67 -/
def findJsonStringValue (key : String) : Option (Nat × Nat) := do
  let quotedKey := quoted 34 (str key)
  let pos ← findFrom json quotedKey 0
  let pos ← findFrom json [58] (pos + quotedKey.length)
  let pos := pos + 1
  let pos := pos + ((json.drop pos).takeWhile isJsonBlank).length
  if byteAt json pos = 34 ∧ pos < json.length then do
    let len ← closingQuote false (json.drop (pos + 1))
    pure (pos + 1, pos + 1 + len)
  else none

/-- L69-83 -/
def countMnemonicWordsInJson : Nat :=
  match findJsonStringValue json "words" with
  | none => 0
  | some (first, last) =>
    if first = last then 0 else ((json.drop first).take (last - first)).count 32 + 1

/-- L85-97 -/
def sanitizeJsonStringField (key : String) : Bytes :=
  match findJsonStringValue json key with
  | none => json
  | some (first, last) => json.take first ++ json.drop last

/-- `ExtractMnemonicWordsFromPayload` and `ExtractMnemonicPassphraseFromPayload`; an empty value and
a missing one give the empty string. L505-528 -/
def extractStringFromPayload (key : String) : Bytes :=
  match findJsonStringValue json key with
  | none => []
  | some (first, last) => (json.drop first).take (last - first)

/-- L530-553 -/
def extractInt64FromPayload (key : String) : Int :=
  let value : Option Nat := do
    let pos ← findFrom json (quoted 34 (str key)) 0
    let pos ← findFrom json [58] pos
    let rest := (json.drop (pos + 1)).dropWhile isJsonBlank
    pure ((rest.takeWhile isDigit).foldl (fun result b => result * 10 + (b.toNat - 48)) 0)
  (value.getD 0 : Nat)

/-! ## Validation -/

/-- migration_envelope.h:17-22 -/
structure MigrationDerivationProfileEntry where
  profileId : Bytes := []
  purpose : Int := -1
  coinType : Int := 0
  addressType : Bytes := []

/-- `valid` holds the local `fValid` until the end. migration_envelope.h:24-59 -/
structure MigrationEnvelopeValidation where
  valid : Bool := true
  restorable : Bool := false
  envelopeVersion : Int := 0
  schemaIdentifier : Bytes := []
  sourceClientVersion : Bytes := []
  exportedAt : Int := 0
  network : Bytes := []
  coinTypeBip44 : Int := 0
  matchesCurrentChain : Bool := false
  privateKeysIncluded : Bool := false
  hdEnabled : Bool := false
  bip44Enabled : Bool := false
  mnemonicAvailable : Bool := false
  privatePresent : Bool := false
  privateEncrypted : Bool := false
  decryptionSuccessful : Bool := false
  kdfProfile : Bytes := []
  kdfIterations : Int := 0
  cipherProfile : Bytes := []
  aadProfile : Bytes := []
  payloadFormat : Bytes := []
  walletType : Bytes := []
  payloadCoinType : Int := 0
  account : Int := 0
  mnemonicLanguage : Bytes := []
  mnemonicWordCount : Int := 0
  derivationProfileId : Bytes := []
  externalCountHint : Int := 0
  changeCountHint : Int := 0
  restorableReason : String := ""
  derivationProfiles : List MigrationDerivationProfileEntry := []
  errors : List String := []
  warnings : List String := []

namespace MigrationEnvelopeValidation

variable (out : MigrationEnvelopeValidation)

/-- An error that makes the envelope invalid, with the reason why nothing can be restored. -/
def fail (error reason : String) : MigrationEnvelopeValidation :=
  { out with valid := false, errors := out.errors ++ [error], restorableReason := reason }

/-- Fails unless the condition holds. -/
def check (c : Bool) (error reason : String) : MigrationEnvelopeValidation :=
  if c then out else out.fail error reason

end MigrationEnvelopeValidation

namespace UniValue

/-- `exists(key) && [key].isNum() ? [key].get_int() : dflt` -/
def intOr (v : UniValue) (key : String) (dflt : Int) : Except String Int :=
  match v.num? key with
  | some val => (vnum val).getInt
  | none => pure dflt

/-- `exists(key) && [key].isNum() ? [key].get_int64() : dflt` -/
def int64Or (v : UniValue) (key : String) (dflt : Int) : Except String Int :=
  match v.num? key with
  | some val => (vnum val).getInt64
  | none => pure dflt

def strOr (v : UniValue) (key : String) (dflt : Bytes) : Bytes := (v.str? key).getD dflt

end UniValue

/-- A message that is left out when the condition holds. -/
def unlessList (c : Bool) (message : String) : List String := if c then [] else [message]

/-- `%d` of a value cast to `int`. -/
def showInt32 (n : Int) : String := toString ((n + 2 ^ 31) % 2 ^ 32 - 2 ^ 31)

/-- L171-176 -/
def expectedSchema (envVersion : Int) : Bytes :=
  if envVersion = 1 then str "hemp0x-core.migration-envelope.v1"
  else str "hemp0x-core.migration-envelope.v2"

/-- The fields of both envelope versions. L169-224 -/
def validatePublicFields (net : Network) (envelope : UniValue) (envVersion : Int) :
    Except String MigrationEnvelopeValidation := do
  let schemaId := envelope.strOr "schema_identifier" []
  let exportedAt ← envelope.int64Or "exported_at" 0
  let chainObj := (envelope.obj? "chain").getD .vnull
  let network := chainObj.strOr "network" []
  let coinType ← chainObj.intOr "coin_type_bip44" 0
  let summary := (envelope.obj? "wallet_summary").getD .vnull
  pure {
    valid := !schemaId.isEmpty && !network.isEmpty
    envelopeVersion := envVersion
    schemaIdentifier := schemaId
    sourceClientVersion := envelope.strOr "source_client_version" (str "unknown")
    exportedAt := exportedAt
    network := network
    coinTypeBip44 := coinType
    matchesCurrentChain := network == net.networkIDString
    privateKeysIncluded := (summary.bool? "private_keys_included").getD false
    errors :=
      unlessList (!schemaId.isEmpty) "Missing required field: schema_identifier" ++
        unlessList (!network.isEmpty) "Missing or invalid required field: chain.network"
    warnings :=
      unlessList (schemaId.isEmpty || schemaId == expectedSchema envVersion)
          ("Schema identifier '" ++ showBytes schemaId ++ "' does not match expected '" ++
            showBytes (expectedSchema envVersion) ++
            "'. The envelope may be from a different version or incompatible tool.") ++
        unlessList (decide (0 < exportedAt)) "Missing or invalid exported_at timestamp" ++
        unlessList (network == net.networkIDString)
          ("Envelope network '" ++ showBytes network ++ "' does not match current chain '" ++
            showBytes net.networkIDString ++
            "'. A wallet restored from this envelope would produce different addresses.") }

/-- L234-249 -/
def readDerivationProfile (prof : UniValue) : Except String MigrationDerivationProfileEntry := do
  let purpose ← prof.intOr "purpose" (-1)
  let coinType ← prof.intOr "coin_type" 0
  pure ⟨prof.strOr "profile_id" [], purpose, coinType, prof.strOr "address_type" []⟩

/-- A public-only envelope. L226-257 -/
def validatePublicOnly (envelope : UniValue) (out : MigrationEnvelopeValidation) :
    Except String MigrationEnvelopeValidation := do
  let summary := (envelope.obj? "wallet_summary").getD .vnull
  let profiles ← ((envelope.arr? "derivation").getD []).filterMapM fun prof =>
    match prof with
    | .vobj _ _ => do
      let entry ← readDerivationProfile prof
      pure (some entry)
    | _ => pure none
  let out := { out with
    hdEnabled := (summary.bool? "hd_enabled").getD out.hdEnabled
    bip44Enabled := (summary.bool? "bip44_enabled").getD out.bip44Enabled
    mnemonicAvailable := (summary.bool? "mnemonic_available").getD out.mnemonicAvailable
    walletType := str "public_metadata_only"
    derivationProfiles := profiles
    restorableReason := "No private key material in envelope" }
  pure (if out.valid then
    { out with warnings := out.warnings ++
      ["This is a public-only envelope. No private keys are included.",
        "Cannot restore a wallet from a public-only envelope. " ++
          "Use include_private=true in exportwalletmigration to produce a restorable envelope."] }
    else out)

/-- The profile fields of the private object. L258-331 -/
def validatePrivateFields (priv : UniValue) (passphrase : Bytes) (out : MigrationEnvelopeValidation) :
    Except String MigrationEnvelopeValidation := do
  let encrypted := (priv.bool? "encrypted").getD false
  let kdfProfile := priv.strOr "kdf_profile" []
  let kdfIterations ← priv.int64Or "kdf_iterations" 0
  let cipherProfile := priv.strOr "cipher_profile" []
  let payloadFormat := priv.strOr "payload_format" []
  let aadProfile := priv.strOr "aad_profile" []
  let out := { out with
    privatePresent := true
    privateEncrypted := encrypted
    kdfProfile := kdfProfile
    kdfIterations := kdfIterations
    cipherProfile := cipherProfile
    payloadFormat := payloadFormat
    aadProfile := aadProfile }
  let out := out.check (!passphrase.isEmpty)
    "Passphrase is required for v2 encrypted envelopes but was not provided."
    "Passphrase required for v2 envelope"
  let out := out.check encrypted
    "Private payload is not encrypted. Encrypted private payloads are required."
    "Private payload is not encrypted"
  let out := out.check (kdfProfile == str "pbkdf2-hmac-sha512-v1")
    ("Unsupported KDF profile '" ++ showBytes kdfProfile ++
      "'. Only pbkdf2-hmac-sha512-v1 is supported.")
    ("Unsupported KDF profile: " ++ showBytes kdfProfile)
  let out := out.check (decide (100000 ≤ kdfIterations))
    ("KDF iteration count " ++ showInt32 kdfIterations ++
      " is below the supported minimum (100,000).")
    "Unsupported KDF iteration count"
  let out := out.check (decide (kdfIterations ≤ 5000000))
    ("KDF iteration count " ++ showInt32 kdfIterations ++ " exceeds the supported maximum (5000000).")
    "Unsupported KDF iteration count"
  let out := out.check (cipherProfile == str "aes-256-gcm-v1")
    ("Unsupported cipher profile '" ++ showBytes cipherProfile ++
      "'. Only aes-256-gcm-v1 is supported.")
    ("Unsupported cipher profile: " ++ showBytes cipherProfile)
  let out := out.check (payloadFormat == str "hemp0x-core.private-migration-payload.v1")
    ("Unsupported private payload format '" ++ showBytes payloadFormat ++
      "'. Only hemp0x-core.private-migration-payload.v1 is supported.")
    ("Unsupported private payload format: " ++ showBytes payloadFormat)
  pure (out.check (aadProfile == str "hemp0x-core-migration-aad-v1")
    ("Unsupported AAD profile '" ++ showBytes aadProfile ++
      "'. Only hemp0x-core-migration-aad-v1 is supported.")
    ("Unsupported AAD profile: " ++ showBytes aadProfile))

/-- The mnemonic of the payload, its words taken out. L437-460 -/
def validateMnemonic (payload : UniValue) (count : Int) (out : MigrationEnvelopeValidation) :
    MigrationEnvelopeValidation :=
  match payload.obj? "mnemonic" with
  | none => out.fail "Missing mnemonic object in private payload." "Missing mnemonic data"
  | some mn =>
    let out := { out with mnemonicLanguage := mn.strOr "language" [] }
    match mn.str? "words" with
    | none => out.fail "Missing mnemonic words in private payload." "Missing mnemonic words"
    | some _ =>
      { out with mnemonicWordCount := count }.check (count == 12 || count == 18 || count == 24)
        ("Mnemonic word count " ++ toString count ++
          " is not supported. Expected 12, 18, or 24 words.")
        "Unsupported mnemonic word count"

/-- The decrypted payload. L396-480 -/
def validatePayload (payload : UniValue) (secretMnemonicWordCount : Nat)
    (out : MigrationEnvelopeValidation) : Except String MigrationEnvelopeValidation := do
  let payloadVersion ← payload.intOr "payload_version" (-1)
  let walletType := payload.strOr "wallet_type" []
  let coinType ← payload.intOr "coin_type" (-1)
  let account ← payload.intOr "account" (-1)
  let profileId := payload.strOr "derivation_profile" []
  let externalCountHint ← payload.int64Or "external_count_hint" 0
  let changeCountHint ← payload.int64Or "change_count_hint" 0
  let out := { out with
    walletType := walletType
    payloadCoinType := coinType
    account := account
    derivationProfileId := profileId
    externalCountHint := externalCountHint
    changeCountHint := changeCountHint }
  let out := out.check (payloadVersion == 1)
    ("Unsupported payload version " ++ toString payloadVersion ++ ". Only version 1 is supported.")
    ("Unsupported payload version " ++ toString payloadVersion)
  let out := out.check (walletType == str "bip39_bip44_p2pkh")
    ("Unsupported wallet type '" ++ showBytes walletType ++ "'. Only bip39_bip44_p2pkh is supported.")
    ("Unsupported wallet type: " ++ showBytes walletType)
  let out := out.check (coinType == 420)
    ("Coin type " ++ toString coinType ++
      " is not supported. Only canonical coin type 420 is supported.")
    ("Unsupported coin type: " ++ toString coinType)
  let out := out.check (account == 0)
    ("Unsupported account " ++ toString account ++ ". Only account 0 is supported.")
    ("Unsupported account: " ++ toString account)
  let out := validateMnemonic payload secretMnemonicWordCount out
  let out := out.check (profileId == str "hemp0x.mainnet.bip44.p2pkh.coin420.v1")
    ("Unsupported derivation profile '" ++ showBytes profileId ++
      "'. Only canonical Hemp0x coin420 is supported.")
    "Unsupported derivation profile"
  pure (
    if out.valid && out.matchesCurrentChain then
      { out with restorable := true, restorableReason := "BIP39/BIP44 coin420 payload validated" }
    else if out.valid then { out with restorableReason := "Chain mismatch" }
    else out)

/-- L19-20 -/
def MIGRATION_AUTH_FAILURE : String :=
  "Authentication failed. The passphrase is incorrect or the envelope has been tampered with."

section Reader

variable (cipher : MigrationCipher) (read : Bytes → Option UniValue)

/-- L344-395 -/
def validateEncrypted (schemaId saltHex ivHex tagHex ciphertextHex passphrase : Bytes)
    (out : MigrationEnvelopeValidation) : Except String MigrationEnvelopeValidation :=
  let salt := parseHex saltHex
  let iv := parseHex ivHex
  let tag := parseHex tagHex
  let ciphertext := parseHex ciphertextHex
  if salt.length ≠ MIGRATION_KDF_SALT_SIZE ∨ iv.length ≠ MIGRATION_GCM_IV_SIZE ∨
      tag.length ≠ MIGRATION_GCM_TAG_SIZE ∨ ciphertext.isEmpty then
    pure (out.fail "Invalid private field lengths. The envelope may be corrupted."
      "Invalid private crypto field lengths")
  else
    let aad := migrationBuildAAD schemaId out.envelopeVersion out.network out.coinTypeBip44
      out.exportedAt (str "private-payload")
    let key := cipher.deriveKey passphrase salt out.kdfIterations.toNat
    if key.isEmpty then pure (out.fail MIGRATION_AUTH_FAILURE "Decryption failed")
    else
      match cipher.decrypt key iv ciphertext aad tag with
      | none => pure (out.fail MIGRATION_AUTH_FAILURE "Decryption failed")
      | some plaintext =>
        let out := { out with decryptionSuccessful := true }
        let count := countMnemonicWordsInJson plaintext
        let plaintext := sanitizeJsonStringField plaintext "words"
        let plaintext := sanitizeJsonStringField plaintext "mnemonic_passphrase"
        match read plaintext with
        | none =>
          pure (out.fail "Decrypted private payload is not valid JSON." "Payload JSON parse failed")
        | some payload => validatePayload payload count out

/-- An envelope with a private object. L258-494 -/
def validatePrivate (envelope : UniValue) (passphrase : Bytes) (out : MigrationEnvelopeValidation) :
    Except String MigrationEnvelopeValidation :=
  match envelope.obj? "private" with
  | none =>
    pure (out.fail ("Envelope version 2 requires a 'private' object but none was found. " ++
      "Re-export with include_private=true on a BIP39/BIP44 coin420 wallet.")
      "Missing private object in envelope")
  | some priv => do
    let out ← validatePrivateFields priv passphrase out
    if !passphrase.isEmpty && out.valid then
      match priv.str? "salt", priv.str? "iv", priv.str? "tag", priv.str? "ciphertext" with
      | some saltHex, some ivHex, some tagHex, some ciphertextHex =>
        validateEncrypted cipher read out.schemaIdentifier saltHex ivHex tagHex ciphertextHex
          passphrase out
      | _, _, _, _ =>
        pure (out.fail "Missing or invalid private encryption fields."
          "Missing private encryption fields")
    else pure out

/-- L141-501 -/
def validateEnvelope (net : Network) (envelope : UniValue) (passphrase : Bytes) :
    Except String MigrationEnvelopeValidation :=
  match envelope.num? "envelope_version" with
  | none => do
    let version ←
      if envelope.has "envelope_version" then (envelope.get "envelope_version").getInt else pure (-1)
    let out : MigrationEnvelopeValidation := { envelopeVersion := version }
    pure (out.fail "Missing or invalid required field: envelope_version"
      "Invalid or missing envelope_version")
  | some _ => do
    let envVersion ← (envelope.get "envelope_version").getInt
    if envVersion ≠ 1 ∧ envVersion ≠ 2 then
      let out : MigrationEnvelopeValidation := { envelopeVersion := envVersion }
      pure (out.fail ("Unknown envelope version " ++ toString envVersion ++
        ". This daemon supports v1 and v2.")
        ("Unsupported envelope version " ++ toString envVersion))
    else
      let out ← validatePublicFields net envelope envVersion
      if envVersion = 1 then validatePublicOnly envelope out
      else validatePrivate cipher read envelope passphrase out

/-- What a path leads to; the callers pass an absolute path, never an empty one. -/
inductive MigrationFile where
  | notFound
  | directory
  | unreadable
  | contents (content : Bytes)

/-- The envelope in a file. L107-139 -/
def readEnvelope : MigrationFile → Except String UniValue
  | .notFound => .error "File not found"
  | .directory => .error "Path is a directory, not a file"
  | .unreadable => .error "Cannot open file"
  | .contents content =>
    match read content with
    | none => .error "Migration envelope file is not valid JSON."
    | some (.vobj keys values) => .ok (.vobj keys values)
    | some _ => .error "Migration envelope must be a JSON object."

/-- L99-503 -/
def validateMigrationEnvelopeFile (net : Network) (file : MigrationFile) (passphrase : Bytes) :
    Except String MigrationEnvelopeValidation := do
  let envelope ← readEnvelope read file
  validateEnvelope cipher read net envelope passphrase

/-! ## Restore data -/

/-- migration_envelope.h:61-67 -/
structure MigrationEnvelopeRestoreData where
  validation : MigrationEnvelopeValidation
  mnemonicWords : Bytes
  mnemonicPassphrase : Bytes
  bestBlockHeight : Int
  exportedAt : Int

/-- The height in the first derivation profile that has one. L555-571 -/
def extractBestBlockHeightFromEnvelope (envelope : UniValue) : Except String Int :=
  match ((envelope.arr? "derivation").getD []).findSome? (·.num? "best_block_height") with
  | some height => (UniValue.vnum height).getInt64
  | none => pure 0

/-- The secrets, read from the decrypted text. L628-726 -/
def readSecrets (envelope : UniValue) (passphrase : Bytes) (validation : MigrationEnvelopeValidation) :
    Except String MigrationEnvelopeRestoreData := do
  let envVersion ← (envelope.get "envelope_version").getInt
  let schemaId ← (envelope.get "schema_identifier").getStr
  let exportedAt ← envelope.int64Or "exported_at" 0
  let priv := envelope.get "private"
  let saltHex ← (priv.get "salt").getStr
  let ivHex ← (priv.get "iv").getStr
  let tagHex ← (priv.get "tag").getStr
  let ciphertextHex ← (priv.get "ciphertext").getStr
  let network ← ((envelope.get "chain").get "network").getStr
  let coinType ← ((envelope.get "chain").get "coin_type_bip44").getInt
  let aad := migrationBuildAAD schemaId envVersion network coinType exportedAt (str "private-payload")
  let kdfIterations ← (priv.get "kdf_iterations").getInt64
  let key := cipher.deriveKey passphrase (parseHex saltHex) kdfIterations.toNat
  if key.isEmpty then .error MIGRATION_AUTH_FAILURE
  else
    match cipher.decrypt key (parseHex ivHex) (parseHex ciphertextHex) aad (parseHex tagHex) with
    | none => .error MIGRATION_AUTH_FAILURE
    | some plaintext =>
      let words := extractStringFromPayload plaintext "words"
      let mnemonicPassphrase := extractStringFromPayload plaintext "mnemonic_passphrase"
      let envelopeHeight ← extractBestBlockHeightFromEnvelope envelope
      let bestBlockHeight :=
        if envelopeHeight = 0 then extractInt64FromPayload plaintext "best_block_height"
        else envelopeHeight
      if words.isEmpty then .error "Failed to extract mnemonic from envelope payload."
      else pure ⟨validation, words, mnemonicPassphrase, bestBlockHeight, exportedAt⟩

/-- L573-626 -/
def readMigrationEnvelopeRestoreData (net : Network) (file : MigrationFile) (passphrase : Bytes) :
    Except String MigrationEnvelopeRestoreData := do
  let result ← validateMigrationEnvelopeFile cipher read net file passphrase
  if !result.valid then .error "Migration envelope is not valid."
  else if result.envelopeVersion = 1 then
    .error ("Cannot restore a wallet from a v1 public-only envelope. " ++
      "Use include_private=true in exportwalletmigration to produce a restorable envelope.")
  else if !result.restorable then
    .error ("Migration envelope is not restorable: " ++ result.restorableReason)
  else if !result.decryptionSuccessful then
    .error ("Migration envelope failed to decrypt internal payload. " ++
      "The passphrase may be incorrect or the envelope may be tampered with.")
  else if result.payloadCoinType ≠ 420 then
    .error ("Cannot restore coin type " ++ toString result.payloadCoinType ++
      ". Only canonical coin type 420 is supported.")
  else if result.account ≠ 0 then
    .error ("Cannot restore account " ++ toString result.account ++
      ". Only account 0 is supported.")
  else do
    let envelope ← readEnvelope read file
    readSecrets cipher envelope passphrase result

end Reader

/-! ## Export -/

/-- What the export reads of a wallet; the counters are `uint32_t`. -/
structure MigrationWallet where
  isHDEnabled : Bool
  isBip44 : Bool
  hasMnemonicData : Bool
  isLocked : Bool
  words : Bytes
  passphrase : Bytes
  seed : Bytes
  nExternalChainCounter : UInt32
  nInternalChainCounter : UInt32

/-- The rest of what an export depends on: the clock, the tip, the client version and the random
bytes drawn. -/
structure ExportContext where
  nExportTime : Int
  tipHeight : Option Nat
  clientVersion : Bytes
  kdfSalt : Bytes
  payloadIv : Bytes
  time_int64 : -2 ^ 63 ≤ nExportTime ∧ nExportTime < 2 ^ 63
  tip_int : ∀ height ∈ tipHeight, height < 2 ^ 31
  salt_size : kdfSalt.length = MIGRATION_KDF_SALT_SIZE
  iv_size : payloadIv.length = MIGRATION_GCM_IV_SIZE

section

variable (net : Network) (w : MigrationWallet) (ctx : ExportContext)

/-- The text that is encrypted. wallet/rpcdump.cpp:1645-1668 -/
def privatePayload : UniValue :=
  .object [
    ("payload_version", .vnum 1),
    ("wallet_type", .vstr (str "bip39_bip44_p2pkh")),
    ("network", .vstr net.networkIDString),
    ("coin_type", .vnum net.extCoinType),
    ("account", .vnum 0),
    ("derivation_profile", .vstr (str "hemp0x.mainnet.bip44.p2pkh.coin420.v1")),
    ("mnemonic", .object [("language", .vstr (str "english")), ("words", .vstr w.words)]),
    ("mnemonic_passphrase", .vstr w.passphrase),
    ("external_count_hint", .vnum w.nExternalChainCounter.toNat),
    ("change_count_hint", .vnum w.nInternalChainCounter.toNat),
    ("exported_at", .vnum ctx.nExportTime)]

/-- wallet/rpcdump.cpp:1612-1629 -/
def derivationProfile : UniValue :=
  .object ([
    ("profile_id", .vstr (if w.isBip44 then str "hemp0x.mainnet.bip44.p2pkh.coin420.v1"
      else str "hemp0x.legacy.bip32.p2pkh.v1")),
    ("purpose", .vnum (if w.isBip44 then 44 else 0)),
    ("coin_type", .vnum (if w.isBip44 then net.extCoinType else 0)),
    ("address_type", .vstr (str "p2pkh"))] ++
    (ctx.tipHeight.map fun height => ("best_block_height", UniValue.vnum height)).toList)

/-- The envelope around the encrypted payload. The members that nothing reads back are left out.
wallet/rpcdump.cpp:1573-1629, 1709-1738 -/
def privateEnvelope
    (ciphertext tag : Bytes) : UniValue :=
  .object [
    ("envelope_version", .vnum 2),
    ("schema_identifier", .vstr (str "hemp0x-core.migration-envelope.v2")),
    ("exported_at", .vnum ctx.nExportTime),
    ("source_client", .vstr (str "hemp0x-core")),
    ("source_client_version", .vstr ctx.clientVersion),
    ("chain", .object [("network", .vstr net.networkIDString),
      ("coin_type_bip44", .vnum net.extCoinType)]),
    ("wallet_summary", .object [("hd_enabled", .vbool w.isHDEnabled),
      ("bip44_enabled", .vbool w.isBip44), ("private_keys_included", .vbool true),
      ("mnemonic_available", .vbool w.hasMnemonicData)]),
    ("derivation", .varr (if w.isHDEnabled then [derivationProfile net w ctx] else [])),
    ("private", .object [
      ("encrypted", .vbool true),
      ("payload_format", .vstr (str "hemp0x-core.private-migration-payload.v1")),
      ("kdf_profile", .vstr MIGRATION_KDF_PROFILE),
      ("kdf_iterations", .vnum MIGRATION_KDF_ITERATIONS),
      ("cipher_profile", .vstr MIGRATION_CIPHER_PROFILE),
      ("salt", .vstr (hexStr ctx.kdfSalt)),
      ("iv", .vstr (hexStr ctx.payloadIv)),
      ("tag", .vstr (hexStr tag)),
      ("aad_profile", .vstr (str "hemp0x-core-migration-aad-v1")),
      ("ciphertext", .vstr (hexStr ciphertext))])]

end

/-- The envelope of an export with `include_private = true`; the checks of the output path are left
out. wallet/rpcdump.cpp:1490-1530, 1631-1738 -/
def migrationEnvelope (cipher : MigrationCipher) (net : Network) (w : MigrationWallet)
    (ctx : ExportContext) (exportPassphrase : Bytes) : Except String UniValue :=
  if exportPassphrase.isEmpty then
    .error "Export passphrase must not be empty when include_private is true."
  else if exportPassphrase.length < 8 then
    .error "Export passphrase must be at least 8 characters."
  else if 1024 < exportPassphrase.length then
    .error "Export passphrase must not exceed 1024 characters."
  else if !w.isHDEnabled || !w.isBip44 then
    .error ("Private migration export requires a canonical Hemp0x BIP39/BIP44 wallet. " ++
      "This wallet is not BIP44 or does not have mnemonic data.")
  else if !w.hasMnemonicData then
    .error ("Private migration export requires a canonical Hemp0x BIP39/BIP44 wallet. " ++
      "This wallet does not have BIP39 mnemonic data.")
  else if net.extCoinType ≠ 420 then
    .error ("Private migration export is only supported for canonical Hemp0x coin type 420. " ++
      "This chain uses a different coin type.")
  else if w.isLocked then
    .error "Error: Please enter the wallet passphrase with walletpassphrase first."
  else if w.words.isEmpty || w.seed.isEmpty then
    .error "Unable to read BIP39 wallet material for migration export."
  else
    let aad := migrationBuildAAD (str "hemp0x-core.migration-envelope.v2") 2 net.networkIDString
      net.extCoinType ctx.nExportTime (str "private-payload")
    let key := cipher.deriveKey exportPassphrase ctx.kdfSalt MIGRATION_KDF_ITERATIONS
    if key.isEmpty then .error "Key derivation failed."
    else
      match cipher.encrypt key ctx.payloadIv ((privatePayload net w ctx).write 0 0) aad with
      | none => .error "Encryption failed."
      | some (ciphertext, tag) => .ok (privateEnvelope net w ctx ciphertext tag)

/-- The content of the file written. wallet/rpcdump.cpp:1769-1785 -/
def exportwalletmigration (cipher : MigrationCipher) (net : Network) (w : MigrationWallet)
    (ctx : ExportContext) (exportPassphrase : Bytes) : Except String Bytes := do
  let envelope ← migrationEnvelope cipher net w ctx exportPassphrase
  pure (envelope.write 2 0)

/-! ## Restore -/

/-- What a restore reads of the node: the active chain, genesis first, the wallets on disk and in
memory, and whether a block can be read back from disk. -/
structure RestoreNode where
  blocks : List CBlock
  walletExists : Bytes → Bool
  loadedWallets : List Bytes
  restoreFromMnemonic : (name words passphrase : Bytes) → Except String Unit
  readBlockFromDisk : Nat → Bool
  hasGenesis : blocks ≠ []
  height_int : blocks.length ≤ 2 ^ 31

/-- `chainActive[nHeight]`, the height cast to `int`. chain.h:480-486 -/
def RestoreNode.blockAt (node : RestoreNode) (nHeight : Int) : Option Nat :=
  let height : Int := (nHeight + 2 ^ 31) % 2 ^ 32 - 2 ^ 31
  if 0 ≤ height ∧ height < node.blocks.length then some height.toNat else none

/-- wallet/restorewalletmigration.cpp:21-43 -/
def isValidWalletName (name : Bytes) : Bool :=
  !name.isEmpty && (indexOf (str "..") name).isNone && (indexOf (str "/") name).isNone &&
    (indexOf (str "\\") name).isNone && (indexOf (str ":") name).isNone && name != str "."

/-- The reply, as far as it tells what was scanned. -/
structure RestoreReply where
  walletName : Bytes
  rescanStartHeight : Nat
  rescanEndHeight : Nat

/-- The last block from `start` on that could not be read. wallet/wallet.cpp:1875-1924 -/
def RestoreNode.scanForWalletTransactions (node : RestoreNode) (start : Nat) : Option Nat :=
  ((List.range node.blocks.length).drop start).reverse.find? fun h => !node.readBlockFromDisk h

/-- `birthHeight` is the optional fourth parameter. wallet/restorewalletmigration.cpp:92-240 -/
def restorewalletmigration (cipher : MigrationCipher) (read : Bytes → Option UniValue) (net : Network)
    (node : RestoreNode) (file : MigrationFile) (walletName passphrase : Bytes)
    (birthHeight : Option Int) : Except String RestoreReply :=
  if !isValidWalletName walletName then
    .error ("Invalid wallet name. The name must not be empty and must not contain " ++
      "path separators, '..', ':', or '\\'.")
  else if node.walletExists walletName then
    .error ("Destination wallet \"" ++ showBytes walletName ++ "\" already exists. " ++
      "Cannot restore into an existing wallet. Choose a different wallet name.")
  else if node.loadedWallets.contains walletName then
    .error ("A wallet with the name \"" ++ showBytes walletName ++ "\" is already loaded. " ++
      "Choose a different wallet name.")
  else do
    let data ← readMigrationEnvelopeRestoreData cipher read net file passphrase
    if data.mnemonicWords.isEmpty then
      .error "Failed to extract mnemonic from the envelope payload."
    else
      let birthHeight := birthHeight.getD (max 0 data.bestBlockHeight)
      match node.restoreFromMnemonic walletName data.mnemonicWords data.mnemonicPassphrase with
      | .error e => .error ("Wallet restore failed: " ++ e)
      | .ok () =>
        let startHeight := if 0 < birthHeight then (node.blockAt birthHeight).getD 0 else 0
        let endHeight :=
          (node.scanForWalletTransactions startHeight).getD (node.blocks.length - 1)
        pure ⟨walletName, startHeight, endHeight⟩

end HempCore
