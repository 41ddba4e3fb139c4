import HempCore.Analysis.MigrationChecks

/-!
# What a restore makes of an export

The mnemonic words come back as they were, and the passphrase as it was written in JSON. The rescan
starts at the tip of the export.
-/

set_option autoImplicit false

namespace HempCore

open Lib

variable {s : Bytes} {net : Network} {w : MigrationWallet} {ctx : ExportContext}

/-! ## The fields of the envelope -/

variable {ciphertext tag : Bytes}

theorem parseHex_hexStr (s : Bytes) : parseHex (hexStr s) = s := by
  induction s with
  | nil => rfl
  | cons b s ih =>
    have hdigit : ∀ v < 16, hexDigit (hexmap v) = some v ∧ ¬ ((9 ≤ hexmap v ∧ hexmap v ≤ 13) ∨ hexmap v = 32) := by decide
    have hlt := b.toNat_lt
    obtain ⟨hhi, hspace⟩ := hdigit (b.toNat / 16) (by omega)
    obtain ⟨hlo, -⟩ := hdigit (b.toNat % 16) (by omega)
    have hbyte : 16 * (b.toNat / 16) + b.toNat % 16 = b.toNat := by omega
    have hcons : hexStr (b :: s) = hexmap (b.toNat / 16) :: hexmap (b.toNat % 16) :: hexStr s := rfl
    rw [hcons, parseHex.eq_def]
    simp only [if_neg hspace, hhi, hlo, hbyte, ih, UInt8.ofNat_toNat]

theorem getInt64_ok {n : Int} (h : -2 ^ 63 ≤ n ∧ n < 2 ^ 63) : (UniValue.vnum n).getInt64 = .ok n := if_pos h

theorem getInt_extCoinType (net : Network) : (UniValue.vnum net.extCoinType).getInt = .ok net.extCoinType := by
  cases net <;> rfl

/-! ## Export and restore -/

variable {cipher : MigrationCipher} {read : Bytes → Option UniValue} {exportPassphrase : Bytes}

def exportAad (net : Network) (ctx : ExportContext) : Bytes :=
  migrationBuildAAD (str "hemp0x-core.migration-envelope.v2") 2 net.networkIDString
    net.extCoinType ctx.nExportTime (str "private-payload")

/-- What an export that succeeded has checked and encrypted. -/
structure Encrypted (cipher : MigrationCipher) (net : Network) (w : MigrationWallet)
    (ctx : ExportContext) (exportPassphrase ciphertext tag : Bytes) : Prop where
  passphrase : exportPassphrase ≠ []
  hd : w.isHDEnabled = true
  key : (cipher.deriveKey exportPassphrase ctx.kdfSalt MIGRATION_KDF_ITERATIONS).isEmpty = false
  encrypt : cipher.encrypt (cipher.deriveKey exportPassphrase ctx.kdfSalt MIGRATION_KDF_ITERATIONS)
    ctx.payloadIv ((privatePayload net w ctx).write 0 0) (exportAad net ctx) = some (ciphertext, tag)

theorem encrypted_of_migrationEnvelope {envelope : UniValue}
    (h : migrationEnvelope cipher net w ctx exportPassphrase = .ok envelope) :
    ∃ ciphertext tag, envelope = privateEnvelope net w ctx ciphertext tag ∧
      Encrypted cipher net w ctx exportPassphrase ciphertext tag := by
  rw [migrationEnvelope] at h
  simp only [ite_error_eq_ok] at h
  obtain ⟨hpass, -, -, hwallet, -, -, -, -, hkey, h⟩ := h
  split at h
  · cases h
  · rename_i ciphertext tag hencrypt
    obtain rfl := Except.ok.inj h
    simp only [Bool.or_eq_true, Bool.not_eq_true', not_or, Bool.not_eq_false] at hwallet
    exact ⟨ciphertext, tag, rfl, by simpa using hpass, hwallet.1, by simpa using hkey, hencrypt⟩

section

variable (net : Network) (w : MigrationWallet)

/-- The call for an exported envelope, whatever its ciphertext and tag have become. -/
theorem reachesDecryption_privateEnvelope {passphrase : Bytes}
    (hpass : passphrase ≠ []) (hkey : (cipher.deriveKey passphrase ctx.kdfSalt MIGRATION_KDF_ITERATIONS).isEmpty = false)
    (hciphertext : ciphertext.isEmpty = false) (htag : tag.length = MIGRATION_GCM_TAG_SIZE) :
    ReachesDecryption cipher (privateEnvelope net w ctx ciphertext tag) passphrase
      ⟨cipher.deriveKey passphrase ctx.kdfSalt MIGRATION_KDF_ITERATIONS, ctx.payloadIv, ciphertext, exportAad net ctx, tag⟩ := by
  have hiterations : (privateEnvelope net w ctx ciphertext tag).privateObj.num? "kdf_iterations" =
      some (MIGRATION_KDF_ITERATIONS : Int) := rfl
  refine ⟨rfl, ?_, ?_, ?_, ?_, ⟨hpass, rfl, rfl, by rw [hiterations]; decide, by rw [hiterations]; decide, rfl, rfl,
    rfl⟩, ?_⟩
  · show str "hemp0x-core.migration-envelope.v2" ≠ []
    decide
  · show net.networkIDString ≠ []
    cases net <;> decide
  · intro n hn
    exact Option.some.inj (show some ctx.nExportTime = some n from hn) ▸ ctx.time_int64
  · intro n hn
    obtain rfl := Option.some.inj (show some net.extCoinType = some n from hn)
    cases net <;> decide
  · have hsizes : ¬(ctx.kdfSalt.length ≠ MIGRATION_KDF_SALT_SIZE ∨ ctx.payloadIv.length ≠ MIGRATION_GCM_IV_SIZE ∨
        tag.length ≠ MIGRATION_GCM_TAG_SIZE ∨ ciphertext.isEmpty = true) := by
      simp [ctx.salt_size, ctx.iv_size, htag, hciphertext]
    show (if _ then _ else _) = _
    simp only [parseHex_hexStr, hiterations]
    rw [if_neg hsizes]
    exact if_neg (by simpa using hkey)

theorem payloadFits_privatePayload (ctx : ExportContext) :
    PayloadFits (privatePayload net w ctx) := by
  have hexternal := w.nExternalChainCounter.toNat_lt
  have hchange := w.nInternalChainCounter.toNat_lt
  norm_num at hexternal hchange
  refine ⟨fun n hn => ?_, fun n hn => ?_, fun n hn => ?_, fun n hn => ?_, fun n hn => ?_⟩
  · obtain rfl := Option.some.inj (show some 1 = some n from hn)
    decide
  · obtain rfl := Option.some.inj (show some net.extCoinType = some n from hn)
    cases net <;> decide
  · obtain rfl := Option.some.inj (show some 0 = some n from hn)
    decide
  · obtain rfl := Option.some.inj (show some (w.nExternalChainCounter.toNat : Int) = some n from hn)
    omega
  · obtain rfl := Option.some.inj (show some (w.nInternalChainCounter.toNat : Int) = some n from hn)
    omega

theorem payloadProfile_privatePayload (ctx : ExportContext) {count : Nat}
    (hcount : count = 12 ∨ count = 18 ∨ count = 24) : PayloadProfile (privatePayload net w ctx) count :=
  ⟨rfl, rfl, by cases net <;> rfl, rfl, ⟨_, rfl, rfl⟩, hcount, rfl⟩

end

namespace Encrypted

variable (h : Encrypted cipher net w ctx exportPassphrase ciphertext tag)

include h

theorem ciphertext_ne_nil : ciphertext.isEmpty = false := by
  have hlen := (cipher.decrypt_encrypt h.encrypt).2.1
  rw [List.isEmpty_eq_false_iff]
  rintro rfl
  rw [privatePayload_write] at hlen
  simp [payloadHead] at hlen

/-- What was encrypted is decrypted, and read without the secrets. -/
theorem hasPayload (hread : read ((privatePayload net w.withoutSecrets ctx).write 0 0) =
      some (privatePayload net w.withoutSecrets ctx)) :
    HasPayload cipher read (privateEnvelope net w ctx ciphertext tag) exportPassphrase
      ((privatePayload net w ctx).write 0 0) (privatePayload net w.withoutSecrets ctx) := by
  obtain ⟨hdecrypt, -, htag⟩ := cipher.decrypt_encrypt h.encrypt
  refine ⟨_, reachesDecryption_privateEnvelope net w h.passphrase h.key h.ciphertext_ne_nil htag, hdecrypt, ?_⟩
  rw [sanitizedPayload, sanitize_payload]
  exact hread

theorem validateEnvelope_accepted (hwords : IsMnemonic w.words)
    (hread : read ((privatePayload net w.withoutSecrets ctx).write 0 0) =
      some (privatePayload net w.withoutSecrets ctx)) :
    ∃ out, validateEnvelope cipher read net (privateEnvelope net w ctx ciphertext tag) exportPassphrase = .ok out ∧
      Judges cipher read net (privateEnvelope net w ctx ciphertext tag) exportPassphrase out ∧ out.Accepted := by
  have hpayload := h.hasPayload hread
  obtain ⟨call, hcall, -⟩ := id hpayload
  obtain ⟨out, heq, hvalid, hreads⟩ := hcall.validateEnvelope_eq read net
  rw [heq]
  rcases judges_afterDecryption hcall hvalid hreads with ⟨-, out', hout', hjudges⟩ | ⟨hnot, -⟩
  · refine ⟨out', hout', hjudges, hjudges.accepted.mpr ⟨_, _, hpayload, rfl, ?_⟩⟩
    rw [countMnemonicWordsInJson_payload hwords]
    exact payloadProfile_privatePayload net _ ctx hwords.count
  · exact absurd (fun _ _ hother => (hpayload.unique hother).2 ▸ payloadFits_privatePayload net _ ctx) hnot

end Encrypted

theorem extractBestBlockHeight_envelope (hhd : w.isHDEnabled = true) :
    extractBestBlockHeightFromEnvelope (privateEnvelope net w ctx ciphertext tag) = .ok ((ctx.tipHeight.getD 0 : Nat) : Int) := by
  have harr : (privateEnvelope net w ctx ciphertext tag).arr? "derivation" = some [derivationProfile net w ctx] := by
    have hget : (privateEnvelope net w ctx ciphertext tag).get "derivation" =
        .varr (if w.isHDEnabled then [derivationProfile net w ctx] else []) := rfl
    rw [UniValue.arr?, hget, if_pos hhd]
  rw [extractBestBlockHeightFromEnvelope, harr]
  cases htip : ctx.tipHeight with
  | none =>
    have hnum : (derivationProfile net w ctx).num? "best_block_height" = none := by
      simp [derivationProfile, htip, UniValue.num?, UniValue.get, UniValue.object, List.lookup_cons]
    simp [hnum, List.findSome?]
  | some height =>
    have hnum : (derivationProfile net w ctx).num? "best_block_height" = some (height : Int) := by
      simp [derivationProfile, htip, UniValue.num?, UniValue.get, UniValue.object, List.lookup_cons]
    have hlt := ctx.tip_int height htip
    simp only [Option.getD_some, List.findSome?, hnum]
    refine getInt64_ok ?_
    norm_num at hlt ⊢
    omega

/-- The height that a restore takes for the wallet's birth: the tip at the export, or what the scan of
the decrypted text makes of `best_block_height`. -/
def restoredHeight (net : Network) (w : MigrationWallet) (ctx : ExportContext) : Int :=
  if ((ctx.tipHeight.getD 0 : Nat) : Int) = 0 then
    extractInt64FromPayload ((privatePayload net w ctx).write 0 0) "best_block_height"
  else (ctx.tipHeight.getD 0 : Nat)

/-- What a restore reads: the words as they were, and the passphrase as it was written. -/
structure RestoresWritten (net : Network) (w : MigrationWallet) (ctx : ExportContext)
    (data : MigrationEnvelopeRestoreData) : Prop where
  words : data.mnemonicWords = w.words
  passphrase : data.mnemonicPassphrase = jsonEscape w.passphrase
  height : data.bestBlockHeight = restoredHeight net w ctx

theorem Encrypted.readSecrets_eq (h : Encrypted cipher net w ctx exportPassphrase ciphertext tag)
    (hwords : IsMnemonic w.words) (validation : MigrationEnvelopeValidation) :
    ∃ data, readSecrets cipher (privateEnvelope net w ctx ciphertext tag) exportPassphrase validation =
      .ok data ∧ RestoresWritten net w ctx data := by
  obtain ⟨hdecrypt, -, -⟩ := cipher.decrypt_encrypt h.encrypt
  have hempty : ¬ w.words.isEmpty = true := by simpa using hwords.ne_nil
  refine ⟨⟨validation, w.words, jsonEscape w.passphrase, restoredHeight net w ctx, ctx.nExportTime⟩, ?_, rfl, rfl, rfl⟩
  simp only [readSecrets, bind_eq_ok]
  -- every member is found in the envelope, in the order the source reads them
  refine ⟨2, rfl, str "hemp0x-core.migration-envelope.v2", rfl, ctx.nExportTime,
    getInt64_ok ctx.time_int64, hexStr ctx.kdfSalt, rfl, hexStr ctx.payloadIv, rfl, hexStr tag, rfl,
    hexStr ciphertext, rfl, net.networkIDString, rfl, net.extCoinType, getInt_extCoinType net,
    MIGRATION_KDF_ITERATIONS, rfl, ?_⟩
  rw [parseHex_hexStr, parseHex_hexStr, parseHex_hexStr, parseHex_hexStr, Int.toNat_natCast, if_neg]
  · rw [exportAad] at hdecrypt
    simp only [hdecrypt, bind_eq_ok]
    refine ⟨_, extractBestBlockHeight_envelope h.hd, ?_⟩
    rw [(located_words net w ctx).extractStringFromPayload_eq, hwords.text.jsonEscape,
      (located_passphrase hwords.text).extractStringFromPayload_eq, if_neg hempty]
    rfl
  · simp [h.key]

/-- The file of a wallet with a mnemonic, and a reader that reads back its two documents. -/
structure Exports (cipher : MigrationCipher) (read : Bytes → Option UniValue) (net : Network) (w : MigrationWallet)
    (ctx : ExportContext) (exportPassphrase content : Bytes) : Prop where
  words : IsMnemonic w.words
  exported : exportwalletmigration cipher net w ctx exportPassphrase = .ok content
  envelope : ∀ envelope, migrationEnvelope cipher net w ctx exportPassphrase = .ok envelope →
    read (envelope.write 2 0) = some envelope
  payload : read ((privatePayload net w.withoutSecrets ctx).write 0 0) = some (privatePayload net w.withoutSecrets ctx)

variable {content : Bytes}

/-- A file that an export wrote is restorable, and is read as `RestoresWritten` says. -/
theorem restore_of_export (hexports : Exports cipher read net w ctx exportPassphrase content) :
    (∃ out, validateMigrationEnvelopeFile cipher read net (.contents content) exportPassphrase = .ok out ∧ out.Accepted) ∧
    ∃ data, readMigrationEnvelopeRestoreData cipher read net (.contents content) exportPassphrase =
      .ok data ∧ RestoresWritten net w ctx data := by
  obtain ⟨envelope, hmade, hcontent⟩ := bind_eq_ok.mp hexports.exported
  obtain rfl := Except.ok.inj hcontent
  have hread := hexports.envelope envelope hmade
  obtain ⟨ciphertext, tag, rfl, h⟩ := encrypted_of_migrationEnvelope hmade
  obtain ⟨out, hvalidate, hjudges, hout⟩ := h.validateEnvelope_accepted hexports.words hexports.payload
  have henv : readEnvelope read
      (.contents ((privateEnvelope net w ctx ciphertext tag).write 2 0)) = .ok (privateEnvelope net w ctx ciphertext tag) := by
    rw [readEnvelope, hread]
    rfl
  have hfile : validateMigrationEnvelopeFile cipher read net
      (.contents ((privateEnvelope net w ctx ciphertext tag).write 2 0)) exportPassphrase = .ok out :=
    bind_eq_ok.mpr ⟨_, henv, hvalidate⟩
  refine ⟨⟨out, hfile, hout⟩, ?_⟩
  rw [restore_of_accepted henv hfile hjudges hout]
  exact h.readSecrets_eq hexports.words out

theorem escapes_eq_none_iff {ch : UInt8} : escapes ch = none ↔ 32 ≤ ch ∧ ch ≠ 34 ∧ ch ≠ 92 ∧ ch ≠ 127 := by
  have hall : ∀ n < 256, escapes (UInt8.ofNat n) = none ↔ 32 ≤ UInt8.ofNat n ∧
      UInt8.ofNat n ≠ 34 ∧ UInt8.ofNat n ≠ 92 ∧ UInt8.ofNat n ≠ 127 := by
    decide +kernel
  have := hall ch.toNat ch.toNat_lt
  rwa [UInt8.ofNat_toNat] at this

/-- Exported secrets are restored exactly when the mnemonic passphrase has no character that JSON
escapes: the scanner returns the escapes themselves. -/
theorem export_restores_iff (hexports : Exports cipher read net w ctx exportPassphrase content) :
    ((∃ out, validateMigrationEnvelopeFile cipher read net (.contents content) exportPassphrase =
        .ok out ∧ out.restorable = true) ∧
      ∃ data, readMigrationEnvelopeRestoreData cipher read net (.contents content) exportPassphrase =
        .ok data ∧ data.mnemonicWords = w.words ∧ data.mnemonicPassphrase = w.passphrase) ↔
    ∀ ch ∈ w.passphrase, 32 ≤ ch ∧ ch ≠ 34 ∧ ch ≠ 92 ∧ ch ≠ 127 := by
  obtain ⟨⟨out, hvalidate, hout⟩, data, hdata, hrestores⟩ := restore_of_export hexports
  simp only [← escapes_eq_none_iff, ← jsonEscape_eq_self_iff]
  constructor
  · rintro ⟨-, data', hdata', -, hpass⟩
    obtain rfl := Except.ok.inj (hdata.symm.trans hdata')
    rw [← hrestores.passphrase, hpass]
  · intro hplain
    exact ⟨⟨out, hvalidate, hout.2.1⟩, data, hdata, hrestores.words,
      hrestores.passphrase.trans hplain⟩

/-! ### A small wallet

The reader knows the two documents it is asked for, by their
second byte. -/

def twelveWords : Bytes :=
  str "zoo zoo zoo zoo zoo zoo zoo zoo zoo zoo zoo wrong"

theorem twelveWords_isMnemonic : IsMnemonic twelveWords := ⟨by unfold IsWordText; decide +kernel, by decide +kernel⟩

def smallWallet (passphrase : Bytes) : MigrationWallet where
  isHDEnabled := true
  isBip44 := true
  hasMnemonicData := true
  isLocked := false
  words := twelveWords
  passphrase := passphrase
  seed := [1]
  nExternalChainCounter := 3
  nInternalChainCounter := 1

def exportAtHeight (tip : Option Nat) (h : ∀ height ∈ tip, height < 2 ^ 31) : ExportContext where
  nExportTime := 1700000000
  tipHeight := tip
  clientVersion := str "4.7.0"
  kdfSalt := List.replicate 32 7
  payloadIv := List.replicate 12 9
  time_int64 := by decide
  tip_int := h
  salt_size := rfl
  iv_size := rfl

def exportAtOne : ExportContext := exportAtHeight (some 1) (by simp)

def exportAtTwo : ExportContext := exportAtHeight (some 2) (by simp)

section

variable (passphrase : Bytes) (ctx : ExportContext)

def smallEnvelope : UniValue :=
  privateEnvelope .main (smallWallet passphrase) ctx ((privatePayload .main (smallWallet passphrase) ctx).write 0 0)
    (List.replicate 16 0)

def smallFile : Bytes := (smallEnvelope passphrase ctx).write 2 0

def twoDocuments (text : Bytes) : Option UniValue :=
  if byteAt text 1 = 10 then some (smallEnvelope passphrase ctx)
  else some (privatePayload .main (smallWallet passphrase).withoutSecrets ctx)

theorem migrationEnvelope_small :
    migrationEnvelope plainCipher .main (smallWallet passphrase) ctx (str "correct horse") =
      .ok (smallEnvelope passphrase ctx) := by
  have hsalt : ctx.kdfSalt.isEmpty = false := by
    rw [List.isEmpty_eq_false_iff, ← List.length_pos_iff, ctx.salt_size]
    decide
  have hkey : ¬ (plainCipher.deriveKey (str "correct horse") ctx.kdfSalt MIGRATION_KDF_ITERATIONS).isEmpty = true := by
    show ¬ ctx.kdfSalt.isEmpty = true
    rw [hsalt]
    exact Bool.false_ne_true
  rw [migrationEnvelope, if_neg (by decide), if_neg (by decide), if_neg (by decide), if_neg, if_neg,
    if_neg (by decide), if_neg, if_neg]
  · exact if_neg hkey
  all_goals exact Bool.false_ne_true

theorem smallWallet_exports :
    Exports plainCipher (twoDocuments passphrase ctx) .main (smallWallet passphrase) ctx (str "correct horse")
      (smallFile passphrase ctx) where
  words := twelveWords_isMnemonic
  exported := bind_eq_ok.mpr ⟨_, migrationEnvelope_small passphrase ctx, rfl⟩
  envelope envelope h := by
    obtain rfl := Except.ok.inj ((migrationEnvelope_small passphrase ctx).symm.trans h)
    rfl
  payload := rfl

end

theorem plain_passphrase_restored :
    (∃ out, validateMigrationEnvelopeFile plainCipher (twoDocuments (str "TREZOR") exportAtTwo) .main
        (.contents (smallFile (str "TREZOR") exportAtTwo)) (str "correct horse") = .ok out ∧ out.restorable = true) ∧
      ∃ data, readMigrationEnvelopeRestoreData plainCipher (twoDocuments (str "TREZOR") exportAtTwo) .main
        (.contents (smallFile (str "TREZOR") exportAtTwo)) (str "correct horse") = .ok data ∧
        data.mnemonicWords = twelveWords ∧ data.mnemonicPassphrase = str "TREZOR" :=
  (export_restores_iff (smallWallet_exports (str "TREZOR") exportAtTwo)).mpr
    (show ∀ ch ∈ str "TREZOR", 32 ≤ ch ∧ ch ≠ 34 ∧ ch ≠ 92 ∧ ch ≠ 127 by decide +kernel)

/-- The passphrase `a"b` comes back with a backslash in it. -/
theorem quoted_passphrase_altered :
    exportwalletmigration plainCipher .main (smallWallet (str "a\"b")) exportAtTwo (str "correct horse") =
      .ok (smallFile (str "a\"b") exportAtTwo) ∧
    ∃ data, readMigrationEnvelopeRestoreData plainCipher (twoDocuments (str "a\"b") exportAtTwo) .main
      (.contents (smallFile (str "a\"b") exportAtTwo)) (str "correct horse") = .ok data ∧
      data.mnemonicPassphrase = str "a\\\"b" ∧ data.mnemonicPassphrase ≠ str "a\"b" := by
  have hexports := smallWallet_exports (str "a\"b") exportAtTwo
  obtain ⟨-, data, hdata, hrestores⟩ := restore_of_export hexports
  have hpass : data.mnemonicPassphrase = str "a\\\"b" := hrestores.passphrase.trans (by decide)
  exact ⟨hexports.exported, data, hdata, hpass, by rw [hpass]; decide⟩

/-! ## The rescan -/

/-- The height a restore without `birth_height` starts at, if the chain has it: the tip of the
export, and never the height of the first payment. -/
def birthHeight (w : MigrationWallet) (tip : Nat) : Nat :=
  if tip ≠ 0 then tip
  else if 34 :: str "best_block_height" <:+ 34 :: w.passphrase then w.nExternalChainCounter.toNat
  else 0

theorem restoredHeight_eq (hwords : IsWordText w.words) : restoredHeight net w ctx = birthHeight w (ctx.tipHeight.getD 0) := by
  rw [restoredHeight, birthHeight, extractInt64_payload hwords]
  split_ifs <;> simp_all

theorem birthHeight_lt (w : MigrationWallet) (ctx : ExportContext) : birthHeight w (ctx.tipHeight.getD 0) < 2 ^ 32 := by
  have hcount := w.nExternalChainCounter.toNat_lt
  have htip : ctx.tipHeight.getD 0 < 2 ^ 32 := by
    cases htip : ctx.tipHeight with
    | none => decide
    | some height => exact (ctx.tip_int height htip).trans (by decide)
  rw [birthHeight]
  split_ifs
  · exact htip
  · exact hcount
  · decide

section Rescan

variable {node : RestoreNode}

theorem blockAt_of_lt {n : Nat} (h : n < node.blocks.length) : node.blockAt n = some n := by
  have hlen := node.height_int
  norm_num at hlen
  have hcast : ((n : Int) + 2 ^ 31) % 2 ^ 32 - 2 ^ 31 = n := by
    norm_num
    omega
  rw [RestoreNode.blockAt]
  simp only [hcast]
  rw [if_pos (by omega), Int.toNat_natCast]

theorem blockAt_of_ge {n : Nat} (h : node.blocks.length ≤ n) (hn : n < 2 ^ 32) : node.blockAt n = none := by
  have hcast : ((n : Int) + 2 ^ 31) % 2 ^ 32 - 2 ^ 31 = n ∨ ((n : Int) + 2 ^ 31) % 2 ^ 32 - 2 ^ 31 < 0 := by
    norm_num at hn ⊢
    omega
  rw [RestoreNode.blockAt]
  refine if_neg ?_
  omega

theorem startHeight_eq {n : Nat} (hn : n < 2 ^ 32) :
    (if 0 < max 0 (n : Int) then (node.blockAt (max 0 (n : Int))).getD 0 else 0) = if n < node.blocks.length then n else 0 := by
  rw [max_eq_right (Int.natCast_nonneg n)]
  by_cases h : n < node.blocks.length
  · rw [blockAt_of_lt h, if_pos h]
    split_ifs
    · rfl
    · omega
  · rw [blockAt_of_ge (by omega) hn, if_neg h]
    split_ifs <;> rfl

theorem rescanStartHeight_eq {file : MigrationFile} {walletName passphrase : Bytes}
    {reply : RestoreReply} {data : MigrationEnvelopeRestoreData}
    (h : restorewalletmigration cipher read net node file walletName passphrase none = .ok reply)
    (hdata : readMigrationEnvelopeRestoreData cipher read net file passphrase = .ok data) :
    reply.rescanStartHeight = if 0 < max 0 data.bestBlockHeight then
      (node.blockAt (max 0 data.bestBlockHeight)).getD 0 else 0 := by
  rw [restorewalletmigration] at h
  simp only [ite_error_eq_ok, bind_eq_ok] at h
  obtain ⟨-, -, -, data', hdata', -, h⟩ := h
  obtain rfl := Except.ok.inj (hdata.symm.trans hdata')
  split at h
  · cases h
  · obtain rfl := Except.ok.inj h
    rfl

end Rescan

def CBlock.Pays (cfg : Config) (derived : Set CTxDestination) (block : CBlock) : Prop :=
  ∃ tx ∈ block.vtx, ∃ out ∈ tx.vout, ∃ dest ∈ derived,
    extractDestination cfg out.scriptPubKey = some dest

/-- A restore misses the blocks below the height of the export: the rescan covers every payment
exactly when none of those blocks has one. -/
theorem rescan_complete_iff (cfg : Config) (derived : Set CTxDestination) {node : RestoreNode}
    {walletName : Bytes} {reply : RestoreReply} (hexports : Exports cipher read net w ctx exportPassphrase content)
    (hrestore : restorewalletmigration cipher read net node (.contents content) walletName
      exportPassphrase none = .ok reply) :
    (∀ (h : Nat) (hh : h < node.blocks.length), (node.blocks[h]).Pays cfg derived →
      reply.rescanStartHeight ≤ h) ↔
    (birthHeight w (ctx.tipHeight.getD 0) < node.blocks.length →
      ∀ (h : Nat) (hh : h < node.blocks.length), h < birthHeight w (ctx.tipHeight.getD 0) →
        ¬ (node.blocks[h]).Pays cfg derived) := by
  obtain ⟨-, data, hdata, hwritten⟩ := restore_of_export hexports
  have hstart := rescanStartHeight_eq hrestore hdata
  rw [hwritten.height, restoredHeight_eq hexports.words.text, startHeight_eq (birthHeight_lt w ctx)] at hstart
  rw [hstart]
  generalize birthHeight w (ctx.tipHeight.getD 0) = birth
  constructor
  · intro hcovers hbirth h hh hlt hpays
    have := hcovers h hh hpays
    rw [if_pos hbirth] at this
    omega
  · intro hclear h hh hpays
    split_ifs with hbirth
    · exact Nat.le_of_not_lt fun hlt => hclear hbirth h hh hlt hpays
    · exact Nat.zero_le h

/-- A chain whose first block above the genesis block pays the given key. -/
def paidNode (keyID : Bytes) : RestoreNode where
  blocks := [⟨0, []⟩, ⟨1, [⟨[], [paymentOut keyID 5], 11⟩]⟩, ⟨2, []⟩]
  walletExists _ := false
  loadedWallets := []
  restoreFromMnemonic _ _ _ := .ok ()
  readBlockFromDisk _ := true
  hasGenesis := by simp
  height_int := by simp

theorem restore_small (keyID : Bytes) (ctx : ExportContext) :
    ∃ reply, restorewalletmigration plainCipher (twoDocuments (str "TREZOR") ctx) .main (paidNode keyID)
      (.contents (smallFile (str "TREZOR") ctx)) (str "restored") (str "correct horse") none = .ok reply := by
  obtain ⟨-, data, hdata, hwritten⟩ := restore_of_export (smallWallet_exports (str "TREZOR") ctx)
  have hwords : ¬ data.mnemonicWords.isEmpty = true := by
    rw [hwritten.words]
    exact Bool.false_ne_true
  rw [restorewalletmigration, if_neg (by decide), if_neg, if_neg, hdata]
  · exact ⟨_, if_neg hwords⟩
  all_goals exact Bool.false_ne_true

theorem paidNode_pays_iff (derived : Set CTxDestination) (h : Nat) (hh : h < (paidNode aliceKeyID).blocks.length) :
    ((paidNode aliceKeyID).blocks[h]).Pays mainAll derived ↔ h = 1 ∧ .keyID aliceKeyID ∈ derived := by
  have hdest : extractDestination mainAll (paymentOut aliceKeyID 5).scriptPubKey =
      some (.keyID aliceKeyID) := by decide +kernel
  have hcases : h = 0 ∨ h = 1 ∨ h = 2 := by
    have hlen : (paidNode aliceKeyID).blocks.length = 3 := rfl
    omega
  rcases hcases with rfl | rfl | rfl
  · simp [paidNode, CBlock.Pays]
  · simp [paidNode, CBlock.Pays, hdest]
  · simp [paidNode, CBlock.Pays]

/-- A wallet that is exported in the block of Alice's payment finds it again. -/
theorem paid_rescan_complete : ∃ reply,
    restorewalletmigration plainCipher (twoDocuments (str "TREZOR") exportAtOne) .main (paidNode aliceKeyID)
      (.contents (smallFile (str "TREZOR") exportAtOne)) (str "restored") (str "correct horse") none = .ok reply ∧
    (∃ block, (paidNode aliceKeyID).blocks[1]? = some block ∧ block.Pays mainAll {.keyID aliceKeyID}) ∧
    reply.rescanStartHeight ≤ 1 := by
  obtain ⟨reply, hreply⟩ := restore_small aliceKeyID exportAtOne
  have hpays : ((paidNode aliceKeyID).blocks[1]).Pays mainAll {.keyID aliceKeyID} :=
    (paidNode_pays_iff _ 1 (by decide)).mpr ⟨rfl, rfl⟩
  refine ⟨reply, hreply, ⟨_, rfl, hpays⟩, (rescan_complete_iff mainAll {.keyID aliceKeyID}
    (smallWallet_exports (str "TREZOR") exportAtOne) hreply).mpr ?_ 1 (by decide) hpays⟩
  intro _ h hh hlt hpays
  obtain ⟨rfl, -⟩ := (paidNode_pays_iff _ h hh).mp hpays
  exact absurd hlt (by decide)

/-- Alice was paid in block 1, the wallet was exported at height 2: the rescan starts at 2. -/
theorem paid_block_missed : ∃ reply,
    restorewalletmigration plainCipher (twoDocuments (str "TREZOR") exportAtTwo) .main (paidNode aliceKeyID)
      (.contents (smallFile (str "TREZOR") exportAtTwo)) (str "restored") (str "correct horse") none = .ok reply ∧
    reply.rescanStartHeight = 2 ∧
    ∃ block, (paidNode aliceKeyID).blocks[1]? = some block ∧
      block.Pays mainAll {.keyID aliceKeyID} := by
  obtain ⟨reply, hreply⟩ := restore_small aliceKeyID exportAtTwo
  obtain ⟨-, data, hdata, hwritten⟩ := restore_of_export (smallWallet_exports (str "TREZOR") exportAtTwo)
  have hstart := rescanStartHeight_eq hreply hdata
  rw [hwritten.height] at hstart
  exact ⟨reply, hreply, hstart, _, rfl, (paidNode_pays_iff _ 1 (by decide)).mpr ⟨rfl, rfl⟩⟩

end HempCore
