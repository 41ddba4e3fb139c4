import HempCore.Analysis.Migration

/-!
# What the ciphertext of an envelope is bound to

The authenticated data of an envelope is its public metadata, joined with colons. Two of the fields
are free texts and may contain colons themselves; those of an export do not, and the number of
colons in the data tells the two cases apart.
-/

set_option autoImplicit false

namespace HempCore

open Lib

def exportMetadata (net : Network) (ctx : ExportContext) : EnvelopeMetadata where
  schemaIdentifier := str "hemp0x-core.migration-envelope.v2"
  envelopeVersion := 2
  network := net.networkIDString
  coinType := net.extCoinType
  exportedAt := ctx.nExportTime

theorem metadata_privateEnvelope (net : Network) (w : MigrationWallet) (ctx : ExportContext) (ciphertext tag : Bytes) :
    (privateEnvelope net w ctx ciphertext tag).metadata = exportMetadata net ctx := rfl

theorem colon_notMem_decimalInt (n : Int) : (58 : UInt8) ∉ decimalInt n := notMem_decimalInt (by decide) (by decide) n

theorem count_colon_decimalInt (n : Int) : (decimalInt n).count 58 = 0 := List.count_eq_zero.mpr (colon_notMem_decimalInt n)

theorem EnvelopeMetadata.count_colon_aad (m : EnvelopeMetadata) :
    m.aad.count 58 = m.schemaIdentifier.count 58 + m.network.count 58 + 5 := by
  have hlabel : (str "private-payload").count 58 = 0 := by decide
  simp only [EnvelopeMetadata.aad, migrationBuildAAD, List.count_append, List.count_cons_self, count_colon_decimalInt, hlabel]
  omega

theorem colon_notMem_exportMetadata (net : Network) (ctx : ExportContext) :
    (58 : UInt8) ∉ (exportMetadata net ctx).schemaIdentifier ∧ (58 : UInt8) ∉ (exportMetadata net ctx).network := by
  refine ⟨by show (58 : UInt8) ∉ str "hemp0x-core.migration-envelope.v2"; decide, ?_⟩
  show (58 : UInt8) ∉ net.networkIDString
  cases net <;> decide

theorem EnvelopeMetadata.aad_inj {m m' : EnvelopeMetadata} (h : m.aad = m'.aad)
    (hschema : (58 : UInt8) ∉ m.schemaIdentifier) (hschema' : (58 : UInt8) ∉ m'.schemaIdentifier)
    (hnetwork : (58 : UInt8) ∉ m.network) (hnetwork' : (58 : UInt8) ∉ m'.network) : m = m' := by
  simp only [EnvelopeMetadata.aad, migrationBuildAAD, List.append_assoc, List.cons_append] at h
  obtain ⟨hs, h⟩ := append_cons_inj_of_notMem_left hschema hschema' h
  obtain ⟨hv, h⟩ := append_cons_inj_of_notMem_left (colon_notMem_decimalInt _) (colon_notMem_decimalInt _) h
  obtain ⟨hn, h⟩ := append_cons_inj_of_notMem_left hnetwork hnetwork' h
  obtain ⟨hc, h⟩ := append_cons_inj_of_notMem_left (colon_notMem_decimalInt _) (colon_notMem_decimalInt _) h
  obtain ⟨he, -⟩ := append_cons_inj_of_notMem_left (colon_notMem_decimalInt _) (colon_notMem_decimalInt _) h
  cases m
  cases m'
  simp only [EnvelopeMetadata.mk.injEq]
  exact ⟨hs, decimalInt_injective hv, hn, decimalInt_injective hc, decimalInt_injective he⟩

theorem EnvelopeMetadata.aad_eq_exportAad_iff (m : EnvelopeMetadata) (net : Network)
    (ctx : ExportContext) : m.aad = exportAad net ctx ↔ m = exportMetadata net ctx := by
  constructor
  · intro h
    have haad : m.aad = (exportMetadata net ctx).aad := h
    obtain ⟨hschema', hnetwork'⟩ := colon_notMem_exportMetadata net ctx
    have hcount := congrArg (List.count 58) haad
    rw [m.count_colon_aad, EnvelopeMetadata.count_colon_aad, List.count_eq_zero.mpr hschema',
      List.count_eq_zero.mpr hnetwork'] at hcount
    have hschema : (58 : UInt8) ∉ m.schemaIdentifier := List.count_eq_zero.mp (by omega)
    have hnetwork : (58 : UInt8) ∉ m.network := List.count_eq_zero.mp (by omega)
    exact EnvelopeMetadata.aad_inj haad hschema hschema' hnetwork hnetwork'
  · rintro rfl
    rfl

/-- An export encrypts with the data `exportAad`, and validation decrypts with that of the document it reads: the two
are the same just when the five values are those of the export. -/
theorem aad_binds_metadata {cipher : MigrationCipher} {net : Network} {w : MigrationWallet}
    {ctx : ExportContext} {exportPassphrase : Bytes} {exported : UniValue}
    (hexport : migrationEnvelope cipher net w ctx exportPassphrase = .ok exported)
    {envelope : UniValue} {passphrase : Bytes} {call : DecryptionCall}
    (hcall : ReachesDecryption cipher envelope passphrase call) :
    (∃ ciphertext tag, exported = privateEnvelope net w ctx ciphertext tag ∧
      cipher.encrypt (cipher.deriveKey exportPassphrase ctx.kdfSalt MIGRATION_KDF_ITERATIONS) ctx.payloadIv
        ((privatePayload net w ctx).write 0 0) (exportAad net ctx) = some (ciphertext, tag)) ∧
    (∀ read net', ∃ out, validateEnvelope cipher read net' envelope passphrase =
      afterDecryption read (cipher.decrypt call.key call.iv call.ciphertext call.aad call.tag) out) ∧
    (call.aad = exportAad net ctx ↔ envelope.metadata = exported.metadata) := by
  obtain ⟨ciphertext, tag, rfl, hencrypted⟩ := encrypted_of_migrationEnvelope hexport
  refine ⟨⟨ciphertext, tag, rfl, hencrypted.encrypt⟩, fun read net' => ?_, ?_⟩
  · obtain ⟨out, heq, -⟩ := hcall.validateEnvelope_eq read net'
    exact ⟨out, heq⟩
  · rw [aad_of_decryptionCall hcall.call, metadata_privateEnvelope]
    exact EnvelopeMetadata.aad_eq_exportAad_iff ..

/-- The envelope of an export, with another time or with its own. -/
def retimedEnvelope (nExportTime : Int) (h : -2 ^ 63 ≤ nExportTime ∧ nExportTime < 2 ^ 63) : UniValue :=
  privateEnvelope .main (smallWallet []) { exportAtTwo with nExportTime := nExportTime, time_int64 := h }
    ((privatePayload .main (smallWallet []) exportAtTwo).write 0 0) (List.replicate 16 0)

theorem retimedEnvelope_aad_binds :
    (∃ call, ReachesDecryption plainCipher (retimedEnvelope 1700000000 (by decide)) (str "correct horse") call ∧
      call.aad = exportAad .main exportAtTwo) ∧
    ∃ call, ReachesDecryption plainCipher (retimedEnvelope 1700000001 (by decide)) (str "correct horse") call ∧
      call.aad ≠ exportAad .main exportAtTwo := by
  have hreaches : ∀ time h, ∃ call,
      ReachesDecryption plainCipher (retimedEnvelope time h) (str "correct horse") call := fun time h =>
    ⟨_, reachesDecryption_privateEnvelope .main _ (by decide) rfl (by decide +kernel) rfl⟩
  obtain ⟨call, hcall⟩ := hreaches 1700000000 (by decide)
  obtain ⟨call', hcall'⟩ := hreaches 1700000001 (by decide)
  have hexport := migrationEnvelope_small [] exportAtTwo
  refine ⟨⟨call, hcall, (aad_binds_metadata hexport hcall).2.2.mpr rfl⟩, call', hcall', fun haad => ?_⟩
  have htime := congrArg EnvelopeMetadata.exportedAt ((aad_binds_metadata hexport hcall').2.2.mp haad)
  exact absurd htime (by decide)

end HempCore
