import HempCore.Analysis.AssetNames
import HempCore.Analysis.AssetScripts

/-!
# Asset scripts are read back

What `ConstructTransaction` appends to a script that pays to a key is read back by the matching
`*FromScript`, with the address of the key. A hash of 34 bytes is written without its first two bytes,
and `12 20` is put in their place when it is read; `CheckEncoded` lets other first bytes pass.
-/

set_option autoImplicit false

namespace HempCore

open Lib (Reader)

variable {cfg : Config} {keyID hash payload rest : Bytes}

/-! ## Hashes -/

def storedHash (hash : Bytes) : Bytes := if hash.length = 34 then [0x12, 0x20] ++ hash.drop 2 else hash

/-- A hash that is stored as it is. -/
def KeepsHash (hash : Bytes) : Prop := hash.length = 34 → hash.take 2 = [0x12, 0x20]

theorem storedHash_eq_iff : storedHash hash = hash ↔ KeepsHash hash := by
  rw [storedHash, KeepsHash]
  split_ifs with h
  · have hsplit := List.take_append_drop 2 hash
    constructor
    · intro heq _
      rw [← heq]
      rfl
    · intro htake
      rw [← htake h, hsplit]
  · exact ⟨fun _ h' => absurd h' h, fun _ => rfl⟩

/-- No hash, a transaction id or an IPFS hash. -/
def HashSize (hash : Bytes) : Prop := hash = [] ∨ hash.length = 32 ∨ hash.length = 34

theorem hashSize_of_checkEncoded (h : checkEncoded cfg hash = .ok ()) : HashSize hash := by
  by_cases h34 : hash.length = 34
  · exact .inr (.inr h34)
  by_cases h32 : hash.length = 32
  · exact .inr (.inl h32)
  simp [checkEncoded, encodeAssetData, h34, h32, str] at h

theorem readAssetHash_tagged {body : Bytes} (hlen : body.length = 32) (tag : UInt8) (rest : Bytes) :
    readAssetHash (tag :: (writeString body ++ rest)) =
      some (some ((if tag = 0x12 then [0x12, 0x20] else []) ++ body), rest) := by
  have hstring := readString_writeString (show body.length < 253 by omega) rest
  have htake : body.take 32 = body := List.take_of_length_le (by omega)
  have hleft : 33 ≤ (tag :: (writeString body ++ rest)).length := by
    simp only [List.length_append, List.length_cons, writeString, hlen]
    omega
  have htag : Reader.takeBytes 1 (tag :: (writeString body ++ rest)) = some ([tag], writeString body ++ rest) :=
    takeBytes_append [tag] _
  rw [readAssetHash]
  simp only [bind, StateT.bind, Reader.remaining, Option.bind, hleft, if_true, htag, hstring, htake, pure,
    StateT.pure, List.cons.injEq, and_true]

theorem readAssetHash_write (hsize : HashSize hash) (rest : Bytes) (hrest : hash = [] → rest.length < 33) :
    readAssetHash (writeAssetHash hash ++ rest) = some (if hash = [] then none else some (storedHash hash), rest) := by
  rcases hsize with rfl | h | h
  · have hshort := hrest rfl
    change readAssetHash rest = some (none, rest)
    rw [readAssetHash]
    simp [bind, StateT.bind, Reader.remaining, Nat.not_le.mpr hshort, pure, StateT.pure]
  · have hne : hash ≠ [] := List.ne_nil_of_length_pos (by omega)
    have h34 : hash.length ≠ 34 := by omega
    rw [writeAssetHash, if_neg h34, if_pos h, List.cons_append, readAssetHash_tagged h, if_neg hne, storedHash, if_neg h34]
    rfl
  · have hne : hash ≠ [] := List.ne_nil_of_length_pos (by omega)
    rw [writeAssetHash, if_pos h, List.cons_append, readAssetHash_tagged (by rw [List.length_drop, h]),
      if_neg hne, storedHash, if_pos h]
    rfl

theorem writeAssetHash_eq_nil_iff (hsize : HashSize hash) : writeAssetHash hash = [] ↔ hash = [] := by
  rcases hsize with rfl | h | h
  · exact ⟨fun _ => rfl, fun _ => rfl⟩
  all_goals
    have hne : hash ≠ [] := List.ne_nil_of_length_pos (by omega)
    simp [writeAssetHash, h, hne]

/-! ## Records -/

/-- The range of a signed field of `n` bytes. -/
def FitsBytes (n : Nat) (v : Int) : Prop := -2 ^ (8 * n - 1) ≤ v ∧ v < 2 ^ (8 * n - 1)

theorem FitsBytes.read {n : Nat} {v : Int} (h : FitsBytes n v) (hn : 0 < n) (rest : Bytes) :
    Reader.readSigned n (writeLE n v ++ rest) = some (v, rest) := readSigned_writeLE hn h.1 h.2 rest

/-- A new asset as its fields hold it, with a hash that may be stored. -/
structure CNewAsset.Encodable (cfg : Config) (asset : CNewAsset) : Prop where
  name : isAssetNameValid asset.strName = true
  nAmount : FitsBytes 8 asset.nAmount
  units : FitsBytes 1 asset.units
  nReissuable : FitsBytes 1 asset.nReissuable
  nHasIPFS : FitsBytes 1 asset.nHasIPFS
  hash : asset.strIPFSHash = [] ∨ checkEncoded cfg asset.strIPFSHash = .ok ()
  flagged : asset.nHasIPFS = 1 ↔ asset.strIPFSHash ≠ []

structure CAssetTransfer.Encodable (cfg : Config) (transfer : CAssetTransfer) : Prop where
  name : isAssetNameValid transfer.strName = true
  nAmount : FitsBytes 8 transfer.nAmount
  nExpireTime : FitsBytes 8 transfer.nExpireTime
  message : transfer.message = [] ∨ checkEncoded cfg transfer.message = .ok ()
  expires : transfer.nExpireTime ≠ 0 → transfer.message ≠ []

structure CReissueAsset.Encodable (cfg : Config) (reissue : CReissueAsset) : Prop where
  name : isAssetNameValid reissue.strName = true
  nAmount : FitsBytes 8 reissue.nAmount
  nUnits : FitsBytes 1 reissue.nUnits
  nReissuable : FitsBytes 1 reissue.nReissuable
  hash : reissue.strIPFSHash = [] ∨ checkEncoded cfg reissue.strIPFSHash = .ok ()

theorem hashSize_of_encodable (h : hash = [] ∨ checkEncoded cfg hash = .ok ()) : HashSize hash :=
  h.elim .inl hashSize_of_checkEncoded

theorem name_size {name : Bytes} (h : isAssetNameValid name = true) :
    (writeString name).length ≤ 32 ∧ ∀ rest, readString (writeString name ++ rest) = some (name, rest) := by
  have hlen := length_le_of_isAssetNameValid h
  unfold maxNameLength at hlen
  have hshort : name.length < 253 := by omega
  have hname := writeString_length hshort
  exact ⟨by omega, readString_writeString hshort⟩

/-- The payload that is appended for a value: its type, its size and how it is read back. -/
def WrittenAs {α : Type} (construct : Bytes → Bytes) (type : UInt8) (read : Reader α) (value : α) : Prop :=
  ∃ payload, (∀ script, construct script = appendAsset script type payload) ∧ 8 ≤ payload.length ∧
    payload.length ≤ 83 ∧ Reader.parse read (payload ++ [opDrop]) = some value

theorem CNewAsset.written {asset : CNewAsset} (h : asset.Encodable cfg) :
    WrittenAs asset.constructTransaction hempQ CNewAsset.read { asset with strIPFSHash := storedHash asset.strIPFSHash } := by
  obtain ⟨hlen, hname⟩ := name_size h.name
  have hhash := writeAssetHash_length asset.strIPFSHash
  have hsize := hashSize_of_encodable h.hash
  refine ⟨_, fun _ => rfl, ?_, ?_, ?_⟩
  · simp only [List.length_append, writeLE_length]
    omega
  · have hif : (if asset.nHasIPFS = 1 then writeAssetHash asset.strIPFSHash else []).length ≤ 34 := by
      split_ifs
      · exact hhash
      · exact Nat.zero_le _
    simp only [List.length_append, writeLE_length]
    omega
  simp only [Reader.parse, CNewAsset.read, List.append_assoc]
  rw [Reader.bind_eq (hname _), Reader.bind_eq (h.nAmount.read (by decide) _),
    Reader.bind_eq (h.units.read (by decide) _), Reader.bind_eq (h.nReissuable.read (by decide) _),
    Reader.bind_eq (h.nHasIPFS.read (by decide) _)]
  by_cases hflag : asset.nHasIPFS = 1
  · have hne := h.flagged.mp hflag
    have hread := readAssetHash_write hsize [opDrop] fun he => absurd he hne
    rw [if_pos hflag, if_pos hflag, Reader.bind_eq hread, if_neg hne]
    rfl
  · have hempty : asset.strIPFSHash = [] := not_not.mp (mt h.flagged.mpr hflag)
    rw [if_neg hflag, if_neg hflag, hempty]
    rfl

theorem CAssetTransfer.written {transfer : CAssetTransfer} (h : transfer.Encodable cfg) :
    WrittenAs transfer.constructTransaction hempT CAssetTransfer.read
      { transfer with message := storedHash transfer.message } := by
  obtain ⟨hlen, hname⟩ := name_size h.name
  have hhash := writeAssetHash_length transfer.message
  have hsize := hashSize_of_encodable h.message
  refine ⟨_, fun _ => rfl, ?_, ?_, ?_⟩
  · simp only [List.length_append, writeLE_length]
    omega
  · have hif : (if writeAssetHash transfer.message ≠ [] ∧ transfer.nExpireTime ≠ 0 then
        writeLE 8 transfer.nExpireTime else []).length ≤ 8 := by
      split_ifs
      · exact (writeLE_length _ _).le
      · exact Nat.zero_le _
    simp only [List.length_append, writeLE_length]
    omega
  simp only [Reader.parse, CAssetTransfer.read, List.append_assoc, ne_eq, writeAssetHash_eq_nil_iff hsize]
  by_cases hempty : transfer.message = []
  · have hexpire : transfer.nExpireTime = 0 := by
      by_contra hne
      exact h.expires hne hempty
    have hread := readAssetHash_write hsize [opDrop] fun _ => by decide
    rw [if_neg (by simp [hempty]), List.nil_append, Reader.bind_eq (hname _),
      Reader.bind_eq (h.nAmount.read (by decide) _), Reader.bind_eq hread, if_pos hempty, hempty]
    obtain ⟨strName, nAmount, message, nExpireTime⟩ := transfer
    obtain rfl : nExpireTime = 0 := hexpire
    rfl
  · have hread := fun rest => readAssetHash_write hsize rest fun he => absurd he hempty
    by_cases hexpire : transfer.nExpireTime = 0
    · rw [if_neg (by simp [hexpire]), List.nil_append, Reader.bind_eq (hname _),
        Reader.bind_eq (h.nAmount.read (by decide) _), Reader.bind_eq (hread _), if_neg hempty]
      obtain ⟨strName, nAmount, message, nExpireTime⟩ := transfer
      obtain rfl : nExpireTime = 0 := hexpire
      rfl
    · have htime := h.nExpireTime.read (by decide) [opDrop]
      rw [if_pos ⟨hempty, hexpire⟩, Reader.bind_eq (hname _), Reader.bind_eq (h.nAmount.read (by decide) _),
        Reader.bind_eq (hread _), if_neg hempty]
      have hleft : 8 ≤ (writeLE 8 transfer.nExpireTime ++ [opDrop]).length := by simp [writeLE_length]
      have hremaining : Reader.remaining (writeLE 8 transfer.nExpireTime ++ [opDrop]) =
          some (_, writeLE 8 transfer.nExpireTime ++ [opDrop]) := rfl
      rw [Reader.bind_eq hremaining, if_pos ⟨rfl, hleft⟩, Reader.bind_eq htime]
      rfl

theorem CReissueAsset.written {reissue : CReissueAsset} (h : reissue.Encodable cfg) :
    WrittenAs reissue.constructTransaction hempR CReissueAsset.read
      { reissue with strIPFSHash := storedHash reissue.strIPFSHash } := by
  obtain ⟨hlen, hname⟩ := name_size h.name
  have hhash := writeAssetHash_length reissue.strIPFSHash
  have hread := readAssetHash_write (hashSize_of_encodable h.hash) [opDrop] fun _ => by decide
  refine ⟨_, fun _ => rfl, ?_, ?_, ?_⟩
  · simp only [List.length_append, writeLE_length]
    omega
  · simp only [List.length_append, writeLE_length]
    omega
  simp only [Reader.parse, CReissueAsset.read, List.append_assoc]
  rw [Reader.bind_eq (hname _), Reader.bind_eq (h.nAmount.read (by decide) _),
    Reader.bind_eq (h.nUnits.read (by decide) _), Reader.bind_eq (h.nReissuable.read (by decide) _),
    Reader.bind_eq hread]
  by_cases hempty : reissue.strIPFSHash = []
  · rw [if_pos hempty, hempty]
    rfl
  · rw [if_neg hempty]
    rfl

/-! ## Scripts -/

theorem pushData_keyID (hkey : keyID.length = 20) : pushData keyID = 0x14 :: keyID := by
  have hlength : writeLE 1 ((20 : Nat) : Int) = [0x14] := by decide
  rw [pushData, hkey, if_pos (by decide), hlength]
  rfl

theorem scriptAddressString_appendAsset (hkey : keyID.length = 20) {type : UInt8} {kind : TxnOutType}
    {owner : Bool} {start : Nat} (hmarker : (type, kind, owner) ∈ assetMarkers)
    (h : isAssetScript (appendAsset (scriptForKeyID keyID) type payload) = some ⟨kind, owner, start⟩) :
    scriptAddressString cfg (appendAsset (scriptForKeyID keyID) type payload) = encodeDestination cfg (.keyID keyID) := by
  have hlen := appendAsset_length (scriptForKeyID_length hkey) type payload
  have hhash : isPayToScriptHash (appendAsset (scriptForKeyID keyID) type payload) = false := by
    have hne : (appendAsset (scriptForKeyID keyID) type payload).length ≠ 23 := by omega
    simp [isPayToScriptHash, hne]
  have hid : ((appendAsset (scriptForKeyID keyID) type payload).drop 3).take 20 = keyID := by
    simp only [appendAsset, scriptForKeyID, pushData_keyID hkey, List.append_assoc, List.cons_append,
      List.nil_append, List.drop_succ_cons, List.drop_zero]
    exact List.take_left' hkey
  have hsolver : solver (appendAsset (scriptForKeyID keyID) type payload) = some (kind, [keyID]) := by
    rw [solver, hhash, h]
    simp [hid]
  rw [scriptAddressString, extractDestination, hsolver]
  simp only [assetMarkers, List.mem_cons, Prod.mk.injEq, List.not_mem_nil, or_false] at hmarker
  rcases hmarker with ⟨-, rfl, -⟩ | ⟨-, rfl, -⟩ | ⟨-, rfl, -⟩ | ⟨-, rfl, -⟩ <;> rfl

/-- What is appended to a script is found by the recogniser, with what is written behind it. -/
theorem read_appendAsset (cfg : Config) (hkey : keyID.length = 20) {type : UInt8} {kind : TxnOutType} {owner : Bool}
    {α : Type} {read : Reader α} {value : α} (hmin : type = hempQ → 8 ≤ payload.length)
    (hmax : payload.length ≤ 83) (hread : Reader.parse read (payload ++ [opDrop]) = some value)
    (hmarker : (type, kind, owner) ∈ assetMarkers) :
    ∃ start, isAssetScript (appendAsset (scriptForKeyID keyID) type payload) = some ⟨kind, owner, start⟩ ∧
      payloadStart kind owner (appendAsset (scriptForKeyID keyID) type payload) = some start ∧
      Reader.parse read ((appendAsset (scriptForKeyID keyID) type payload).drop start) = some value ∧
      scriptAddressString cfg (appendAsset (scriptForKeyID keyID) type payload) = encodeDestination cfg (.keyID keyID) := by
  have hmax' : payload.length + 4 < hempR.toNat := by
    change _ < 114
    omega
  obtain ⟨start, hasset, hdrop, -⟩ := isAssetScript_appendAsset (scriptForKeyID_length hkey) hmin hmax' hmarker
  refine ⟨start, hasset, ?_, by rw [hdrop, hread], scriptAddressString_appendAsset hkey hmarker hasset⟩
  rw [payloadStart, hasset]
  simp

section RoundTrip

variable (cfg keyID)

def CNewAsset.RoundTrips (asset : CNewAsset) : Prop :=
  (∃ start, isAssetScript (asset.constructTransaction (scriptForKeyID keyID)) =
    some ⟨.TX_NEW_ASSET, false, start⟩) ∧
  assetFromScript cfg (asset.constructTransaction (scriptForKeyID keyID)) =
    some (asset, encodeDestination cfg (.keyID keyID))

/-- The owner token of an asset is recognised and its name read back. -/
def CNewAsset.OwnerRoundTrips (asset : CNewAsset) : Prop :=
  (∃ start, isAssetScript (asset.constructOwnerTransaction (scriptForKeyID keyID)) =
    some ⟨.TX_NEW_ASSET, true, start⟩) ∧
  ownerAssetFromScript cfg (asset.constructOwnerTransaction (scriptForKeyID keyID)) =
    some (asset.strName ++ ownerTag, encodeDestination cfg (.keyID keyID))

def CAssetTransfer.RoundTrips (transfer : CAssetTransfer) : Prop :=
  (∃ start, isAssetScript (transfer.constructTransaction (scriptForKeyID keyID)) =
    some ⟨.TX_TRANSFER_ASSET, false, start⟩) ∧
  transferAssetFromScript cfg (transfer.constructTransaction (scriptForKeyID keyID)) =
    some (transfer, encodeDestination cfg (.keyID keyID))

def CReissueAsset.RoundTrips (reissue : CReissueAsset) : Prop :=
  (∃ start, isAssetScript (reissue.constructTransaction (scriptForKeyID keyID)) =
    some ⟨.TX_REISSUE_ASSET, false, start⟩) ∧
  reissueAssetFromScript cfg (reissue.constructTransaction (scriptForKeyID keyID)) =
    some (reissue, encodeDestination cfg (.keyID keyID))

end RoundTrip

theorem CNewAsset.roundTrips_iff (hkey : keyID.length = 20) {asset : CNewAsset} (h : asset.Encodable cfg) :
    asset.RoundTrips cfg keyID ↔ KeepsHash asset.strIPFSHash := by
  obtain ⟨payload, hconstruct, hmin, hmax, hparse⟩ := CNewAsset.written h
  obtain ⟨start, hasset, hstart, hread, haddress⟩ := read_appendAsset cfg hkey
    (fun _ => hmin) hmax hparse (show (hempQ, .TX_NEW_ASSET, false) ∈ assetMarkers by decide)
  rw [CNewAsset.RoundTrips, assetFromScript, hconstruct, hasset, hstart, haddress]
  simp only [Option.bind_eq_bind, Option.bind, hread]
  rw [← storedHash_eq_iff]
  obtain ⟨strName, nAmount, units, nReissuable, nHasIPFS, strIPFSHash⟩ := asset
  simp

theorem CNewAsset.ownerRoundTrips (hkey : keyID.length = 20) {asset : CNewAsset}
    (h : asset.strName.length ≤ maxNameLength) : asset.OwnerRoundTrips cfg keyID := by
  have hlen : (asset.strName ++ ownerTag).length ≤ 32 := by
    rw [List.length_append]
    exact Nat.add_le_add_right h 1
  have hname := writeString_length (show (asset.strName ++ ownerTag).length < 253 by omega)
  have hparse : Reader.parse readString (writeString (asset.strName ++ ownerTag) ++ [opDrop]) =
      some (asset.strName ++ ownerTag) := by
    rw [Reader.parse, readString_writeString (show (asset.strName ++ ownerTag).length < 253 by omega)]
    rfl
  obtain ⟨start, hasset, hstart, hread, haddress⟩ := read_appendAsset cfg hkey (fun hq => absurd hq (by decide)) (by omega) hparse
    (show (hempO, .TX_NEW_ASSET, true) ∈ assetMarkers by decide)
  rw [CNewAsset.OwnerRoundTrips, ownerAssetFromScript, CNewAsset.constructOwnerTransaction, hasset, hstart, haddress]
  simp only [Option.bind_eq_bind, Option.bind, hread]
  exact ⟨⟨start, rfl⟩, rfl⟩

theorem CAssetTransfer.roundTrips_iff (hkey : keyID.length = 20) (hsize : cfg.dep.transferScriptsSize = true)
    {transfer : CAssetTransfer} (h : transfer.Encodable cfg) :
    transfer.RoundTrips cfg keyID ↔ KeepsHash transfer.message := by
  obtain ⟨payload, hconstruct, hmin, hmax, hparse⟩ := CAssetTransfer.written h
  obtain ⟨start, hasset, hstart, hread, haddress⟩ := read_appendAsset cfg hkey
    (fun _ => hmin) hmax hparse (show (hempT, .TX_TRANSFER_ASSET, false) ∈ assetMarkers by decide)
  rw [CAssetTransfer.RoundTrips, transferAssetFromScript, hconstruct, hasset, hstart, haddress]
  simp only [Option.bind_eq_bind, Option.bind, hsize, if_true, hread]
  rw [← storedHash_eq_iff]
  obtain ⟨strName, nAmount, message, nExpireTime⟩ := transfer
  simp

theorem CReissueAsset.roundTrips_iff (hkey : keyID.length = 20) {reissue : CReissueAsset}
    (h : reissue.Encodable cfg) : reissue.RoundTrips cfg keyID ↔ KeepsHash reissue.strIPFSHash := by
  obtain ⟨payload, hconstruct, hmin, hmax, hparse⟩ := CReissueAsset.written h
  obtain ⟨start, hasset, hstart, hread, haddress⟩ := read_appendAsset cfg hkey
    (fun _ => hmin) hmax hparse (show (hempR, .TX_REISSUE_ASSET, false) ∈ assetMarkers by decide)
  rw [CReissueAsset.RoundTrips, reissueAssetFromScript, hconstruct, hasset, hstart, haddress]
  simp only [Option.bind_eq_bind, Option.bind, hread]
  rw [← storedHash_eq_iff]
  obtain ⟨strName, nAmount, nUnits, nReissuable, strIPFSHash⟩ := reissue
  simp

/-- Everything is recognised, and read back unless a hash of 34 bytes begins otherwise than `12 20`. -/
theorem assetScripts_roundTrip_iff (hkey : keyID.length = 20) (hsize : cfg.dep.transferScriptsSize = true) :
    (∀ asset : CNewAsset, asset.Encodable cfg →
      (asset.RoundTrips cfg keyID ↔ KeepsHash asset.strIPFSHash)) ∧
    (∀ asset : CNewAsset,
      isAssetNameValid asset.strName = true ∨ isAssetNameValid (asset.strName ++ ownerTag) = true →
      asset.OwnerRoundTrips cfg keyID) ∧
    (∀ transfer : CAssetTransfer, transfer.Encodable cfg →
      (transfer.RoundTrips cfg keyID ↔ KeepsHash transfer.message)) ∧
    ∀ reissue : CReissueAsset, reissue.Encodable cfg →
      (reissue.RoundTrips cfg keyID ↔ KeepsHash reissue.strIPFSHash) := by
  refine ⟨fun asset h => CNewAsset.roundTrips_iff hkey h, ?_, fun transfer h => CAssetTransfer.roundTrips_iff hkey hsize h,
    fun reissue h => CReissueAsset.roundTrips_iff hkey h⟩
  intro asset h
  apply CNewAsset.ownerRoundTrips hkey
  rcases h with h | h
  · exact length_le_of_isAssetNameValid h
  · have hlen := length_le_of_isAssetNameValid h
    rw [List.length_append] at hlen
    omega

def hashedAsset (hash : Bytes) : CNewAsset := ⟨str "ABC", 5 * COIN, 0, 1, 1, hash⟩

/-- The multihash of 32 bytes, and what another first byte makes of it. -/
def ipfsHash : Bytes := [0x12, 0x20] ++ List.replicate 32 0
def strayHash : Bytes := [0x12, 0x21] ++ List.replicate 32 0

theorem hashedAsset_encodable {hash : Bytes} (h : checkEncoded mainAll hash = .ok ())
    (hne : hash ≠ []) : (hashedAsset hash).Encodable mainAll where
  name := show isAssetNameValid (str "ABC") = true by decide +kernel
  nAmount := show FitsBytes 8 (5 * COIN) from ⟨by decide, by decide⟩
  units := show FitsBytes 1 0 from ⟨by decide, by decide⟩
  nReissuable := show FitsBytes 1 1 from ⟨by decide, by decide⟩
  nHasIPFS := show FitsBytes 1 1 from ⟨by decide, by decide⟩
  hash := .inr h
  flagged := ⟨fun _ => hne, fun _ => rfl⟩

theorem ipfsHash_roundTrips :
    (hashedAsset ipfsHash).Encodable mainAll ∧
      (hashedAsset ipfsHash).RoundTrips mainAll aliceKeyID ∧
      (hashedAsset ipfsHash).OwnerRoundTrips mainAll aliceKeyID := by
  have h : (hashedAsset ipfsHash).Encodable mainAll :=
    hashedAsset_encodable (by decide +kernel) (by decide)
  have hsize : mainAll.dep.transferScriptsSize = true := rfl
  obtain ⟨hnew, howner, -⟩ := assetScripts_roundTrip_iff (show aliceKeyID.length = 20 by decide) hsize
  exact ⟨h, (hnew _ h).mpr fun _ => rfl, howner _ (.inl h.name)⟩

theorem strayHash_lost :
    (hashedAsset strayHash).Encodable mainAll ∧
      assetFromScript mainAll
        ((hashedAsset strayHash).constructTransaction (scriptForKeyID aliceKeyID)) =
        some (hashedAsset ipfsHash, encodeDestination mainAll (.keyID aliceKeyID)) ∧
      ¬ (hashedAsset strayHash).RoundTrips mainAll aliceKeyID := by
  have hread : assetFromScript mainAll
      ((hashedAsset strayHash).constructTransaction (scriptForKeyID aliceKeyID)) =
      some (hashedAsset ipfsHash, encodeDestination mainAll (.keyID aliceKeyID)) := by
    decide +kernel
  refine ⟨hashedAsset_encodable (by decide +kernel) (by decide), hread, ?_⟩
  rintro ⟨-, hback⟩
  rw [hread] at hback
  exact absurd hback (by decide +kernel)

end HempCore
