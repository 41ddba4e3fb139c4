import HempCore.Analysis.AssetRoundTrip
import HempCore.Analysis.VerifierLanguage

/-!
# Command scripts are read back

Tags, freezes and global freezes are pushed with one byte for their length, and their readers skip one
byte. A verifier that is long enough takes two bytes for its length: its reader takes the second of
them for the size of the text.
-/

set_option autoImplicit false

namespace HempCore

open Lib (Reader)

variable {cfg : Config} {a b s rest keyID name : Bytes}

/-! ## Pushes -/

theorem pushData_of_short (h : a.length < 76) : pushData a = UInt8.ofNat a.length :: a := by
  have hshort : a.length < opPushdata1.toNat := h
  rw [pushData, if_pos hshort, writeLE_one, List.singleton_append]
  congr 2
  omega

theorem pushData_of_long (h : 76 ≤ a.length) (hmax : a.length ≤ 255) : pushData a = opPushdata1 :: UInt8.ofNat a.length :: a := by
  have hlong : ¬ a.length < opPushdata1.toNat := Nat.not_lt.mpr h
  rw [pushData, if_neg hlong, if_pos hmax, writeLE_one]
  simp only [List.cons_append, List.nil_append]
  congr 3
  omega

theorem ofNat_lt_opPushdata1 (h : a.length < 76) : UInt8.ofNat a.length < opPushdata1 := by
  rw [UInt8.lt_iff_toNat_lt, UInt8.toNat_ofNat', Nat.mod_eq_of_lt (by omega)]
  exact h

theorem getOp_pushData (h : a.length < 76) (rest : Bytes) :
    getOp (pushData a ++ rest) = some (⟨UInt8.ofNat a.length, a⟩, rest) := by
  have hsize : (UInt8.ofNat a.length).toNat = a.length := by
    rw [UInt8.toNat_ofNat', Nat.mod_eq_of_lt (by omega)]
  rw [pushData_of_short h, List.cons_append, getOp, if_pos (ofNat_lt_opPushdata1 h), hsize, takePush, if_neg (by simp)]
  simp

theorem isPushOnly_pushes (ha : a.length < 76) (hb : b.length < 76) : isPushOnly (pushData a ++ pushData b) = true := by
  have hsecond : getOp (pushData b) = some (⟨UInt8.ofNat b.length, b⟩, []) := by
    simpa using getOp_pushData hb []
  have hops : scriptOps (pushData a ++ pushData b) = ([⟨UInt8.ofNat a.length, a⟩, ⟨UInt8.ofNat b.length, b⟩], true) := by
    obtain ⟨n, hn⟩ : ∃ n, (pushData a ++ pushData b).length = n + 2 := by
      rw [pushData_of_short ha, pushData_of_short hb]
      exact ⟨a.length + b.length, by simp only [List.length_append, List.length_cons]; omega⟩
    have hfirst := getOp_pushData ha (pushData b)
    rw [pushData_of_short ha, List.cons_append] at hfirst hn ⊢
    rw [pushData_of_short hb] at hfirst hsecond hn ⊢
    rw [scriptOps, hn]
    simp only [getOps, hfirst, hsecond]
    cases n <;> rfl
  have hsmall : ∀ c : Bytes, c.length < 76 → UInt8.ofNat c.length ≤ op16 := by
    intro c hc
    have hlt := ofNat_lt_opPushdata1 hc
    exact UInt8.le_trans (UInt8.le_of_lt hlt) (by decide)
  simp [isPushOnly, hops, hsmall a ha, hsmall b hb]

/-! ## Names -/

/-- The names a command is about. -/
def IsCommandName (name : Bytes) : Prop :=
  isAssetNameOfType .QUALIFIER name = true ∨ isAssetNameOfType .SUB_QUALIFIER name = true ∨
    isAssetNameOfType .RESTRICTED name = true

theorem IsCommandName.length_le (h : IsCommandName name) : name.length ≤ 31 := by
  have hvalid : isAssetNameValid name = true := by
    rcases h with h | h | h <;> exact (Bool.and_eq_true _ _ ▸ h).1
  exact length_le_of_isAssetNameValid hvalid

theorem second_of_ledNameCharacters {c : UInt8} {n : Nat} (h : ledNameCharacters c (n + 1) name = true) :
    ∃ d tail, name = c :: d :: tail ∧ isNameChar d = true := by
  match name, h with
  | b :: [], h => simp [ledNameCharacters, nameCharacters] at h
  | b :: d :: tail, h =>
    simp only [ledNameCharacters, nameCharacters, Bool.and_eq_true, beq_iff_eq, List.all_cons] at h
    exact ⟨d, tail, by rw [h.1], h.2.2.1⟩

theorem second_of_subQualifierIndicator (h : subQualifierIndicator name = true) :
    ∃ c d tail, name = c :: d :: tail ∧ isNameChar d = true := by
  match name, h with
  | c :: [], h => simp [subQualifierIndicator] at h
  | c :: d :: tail, h =>
    refine ⟨c, d, tail, rfl, ?_⟩
    by_contra hd
    have hspan : (d :: tail).span isNameChar = ([], d :: tail) := by
      rw [List.span_eq_takeWhile_dropWhile]
      simp [hd]
    rw [subQualifierIndicator, hspan] at h
    simp at h

theorem IsCommandName.second (h : IsCommandName name) : ∃ c d tail, name = c :: d :: tail ∧ isNameChar d = true := by
  rcases h with h | h | h
  · obtain ⟨check, hpattern⟩ := pattern_of_isAssetNameOfType h
    cases hpattern with
    | qualifier h => exact ⟨_, second_of_ledNameCharacters h⟩
  · obtain ⟨check, hpattern⟩ := pattern_of_isAssetNameOfType h
    cases hpattern with
    | qualifierWithSub h => exact ⟨_, second_of_ledNameCharacters h⟩
    | subQualifier h => exact second_of_subQualifierIndicator h
  · obtain ⟨check, hpattern⟩ := pattern_of_isAssetNameOfType h
    cases hpattern with
    | restricted _ _ h => exact ⟨_, second_of_ledNameCharacters h⟩

/-! ## Tags and freezes -/

namespace CNullAssetTxData

variable {data : CNullAssetTxData}

theorem write_length (h : data.asset_name.length ≤ 31) : data.write.length = data.asset_name.length + 2 := by
  rw [write, List.length_append, writeString_length (by omega), writeLE_length]

theorem parse_write (h : data.asset_name.length ≤ 31) (hflag : data.flag = 0 ∨ data.flag = 1) :
    Reader.parse read data.write = some data := by
  have hname := readString_writeString (show data.asset_name.length < 253 by omega)
  have hfits : FitsBytes 1 data.flag := by
    unfold FitsBytes
    omega
  have hread := hfits.read (by decide) []
  rw [List.append_nil] at hread
  rw [Reader.parse, read, write, Reader.bind_eq (hname _), Reader.bind_eq hread]
  rfl

/-- The script of a command for an address. -/
def scriptFor (data : CNullAssetTxData) (keyID : Bytes) : Bytes := data.constructTransaction (scriptForNullAssetData keyID)

theorem scriptFor_eq (hkey : keyID.length = 20) (h : data.asset_name.length ≤ 31) :
    data.scriptFor keyID = ([opHempAsset, 0x14] ++ keyID ++ [UInt8.ofNat data.write.length]) ++ data.write := by
  have hlen := data.write_length h
  rw [scriptFor, constructTransaction, scriptForNullAssetData, pushData_keyID hkey,
    pushData_of_short (show data.write.length < 76 by omega)]
  simp

theorem scriptFor_bytes (hkey : keyID.length = 20) (h : data.asset_name.length ≤ 31) :
    23 < (data.scriptFor keyID).length ∧ byteAt (data.scriptFor keyID) 0 = opHempAsset ∧
      byteAt (data.scriptFor keyID) 1 = 0x14 := by
  have hlen := data.write_length h
  rw [scriptFor_eq hkey h]
  refine ⟨?_, rfl, rfl⟩
  simp only [List.length_append, List.length_cons, List.length_nil, hkey]
  omega

theorem not_isAssetScript (hkey : keyID.length = 20) (h : IsCommandName data.asset_name) :
    isAssetScript (data.scriptFor keyID) = none := by
  have hmark : byteAt (data.scriptFor keyID) 25 ≠ opHempAsset := by
    obtain ⟨c, d, tail, hname, hd⟩ := h.second
    have hlen := h.length_le
    have hhead : ([opHempAsset, 0x14] ++ keyID ++ [UInt8.ofNat data.write.length]).length + 2 = 25 := by
      simp [hkey]
    rw [scriptFor_eq hkey hlen, ← hhead, byteAt_append, write, writeString, writeCompactSize, if_pos (by omega),
      writeLE_one, hname]
    change d ≠ opHempAsset
    rintro rfl
    exact absurd hd (by decide)
  rw [isAssetScript, if_neg fun hand => hmark hand.2]

theorem scriptAddressString_scriptFor (cfg : Config) (hkey : keyID.length = 20) (h : IsCommandName data.asset_name) :
    scriptAddressString cfg (data.scriptFor keyID) = encodeDestination cfg (.keyID keyID) := by
  have hname := h.length_le
  have hlen := data.write_length hname
  have hasset := not_isAssetScript hkey h
  have hpush := isPushOnly_pushes (show keyID.length < 76 by omega) (show data.write.length < 76 by omega)
  have htail : (data.scriptFor keyID).tail = pushData keyID ++ pushData data.write := rfl
  obtain ⟨hlong, hfirst, hsecond⟩ := scriptFor_bytes hkey hname
  have hdrop : ((data.scriptFor keyID).drop 2).take 20 = keyID := by
    rw [scriptFor_eq hkey hname, List.append_assoc, List.append_assoc]
    exact List.take_left' hkey
  have hsolver : solver (data.scriptFor keyID) = some (.TX_RESTRICTED_ASSET_DATA, [keyID]) := by
    have hhash : isPayToScriptHash (data.scriptFor keyID) = false := by
      simp [isPayToScriptHash, hfirst, show opHempAsset ≠ opHash160 by decide]
    have hwitness : isWitnessProgram (data.scriptFor keyID) = none := by
      rw [isWitnessProgram, hfirst, if_pos (show opHempAsset ≠ 0 ∧ (opHempAsset < op1 ∨ op16 < opHempAsset) by decide), ite_self]
    rw [solver, hhash, hasset, hwitness]
    simp only [hfirst, htail, hpush, hdrop]
    simp [show opHempAsset ≠ opReturn by decide, hlong.le, hsecond, show (0x14 : UInt8) ≠ opReserved by decide]
  rw [scriptAddressString, extractDestination, hsolver]
  rfl

/-! ## Round trips -/

/-- A command for an address is taken for nothing else, and read back with the address. -/
def RoundTrips (cfg : Config) (keyID : Bytes) (data : CNullAssetTxData) : Prop :=
  isNullAssetTxDataScript (data.scriptFor keyID) = true ∧
  isNullGlobalRestrictionAssetTxDataScript (data.scriptFor keyID) = false ∧
  isNullAssetVerifierTxDataScript (data.scriptFor keyID) = false ∧
  assetNullDataFromScript cfg (data.scriptFor keyID) = some (data, encodeDestination cfg (.keyID keyID))

def GlobalRoundTrips (data : CNullAssetTxData) : Prop :=
  isNullAssetTxDataScript data.constructGlobalRestrictionTransaction = false ∧
  isNullGlobalRestrictionAssetTxDataScript data.constructGlobalRestrictionTransaction = true ∧
  isNullAssetVerifierTxDataScript data.constructGlobalRestrictionTransaction = false ∧
  globalAssetNullDataFromScript data.constructGlobalRestrictionTransaction = some data

theorem roundTrips (hkey : keyID.length = 20) (hname : IsCommandName data.asset_name)
    (hflag : data.flag = 0 ∨ data.flag = 1) : data.RoundTrips cfg keyID := by
  obtain ⟨hlong, hfirst, hsecond⟩ := scriptFor_bytes hkey hname.length_le
  have hkind : isNullAssetTxDataScript (data.scriptFor keyID) = true := by
    simp [isNullAssetTxDataScript, hlong, hfirst, hsecond]
  have hdrop : (data.scriptFor keyID).drop 23 = data.write := by
    rw [scriptFor_eq hkey hname.length_le]
    exact List.drop_left' (by simp [hkey])
  refine ⟨hkind, ?_, ?_, ?_⟩
  · simp [isNullGlobalRestrictionAssetTxDataScript, hsecond, show (0x14 : UInt8) ≠ opReserved by decide]
  · simp [isNullAssetVerifierTxDataScript, hsecond, show (0x14 : UInt8) ≠ opReserved by decide]
  · rw [assetNullDataFromScript, if_pos hkind, hdrop, parse_write hname.length_le hflag,
      scriptAddressString_scriptFor cfg hkey hname]
    rfl

theorem globalRoundTrips (hname : IsCommandName data.asset_name) (hflag : data.flag = 0 ∨ data.flag = 1) :
    data.GlobalRoundTrips := by
  have hlength := data.write_length hname.length_le
  have hmax := hname.length_le
  have hmin : 2 ≤ data.asset_name.length := by
    obtain ⟨c, d, tail, heq, -⟩ := hname.second
    rw [heq]
    exact Nat.le_add_left 2 _
  have hwrite : data.constructGlobalRestrictionTransaction =
      [opHempAsset, opReserved, opReserved, UInt8.ofNat data.write.length] ++ data.write := by
    rw [constructGlobalRestrictionTransaction, pushData_of_short (show data.write.length < 76 by omega)]
    rfl
  have hlong : 6 < data.constructGlobalRestrictionTransaction.length := by
    rw [hwrite]
    simp only [List.length_append, List.length_cons, List.length_nil]
    omega
  have hbytes : byteAt data.constructGlobalRestrictionTransaction 0 = opHempAsset ∧
      byteAt data.constructGlobalRestrictionTransaction 1 = opReserved ∧
      byteAt data.constructGlobalRestrictionTransaction 2 = opReserved := ⟨rfl, rfl, rfl⟩
  have hkind : isNullGlobalRestrictionAssetTxDataScript data.constructGlobalRestrictionTransaction = true := by
    simp [isNullGlobalRestrictionAssetTxDataScript, hlong, hbytes]
  refine ⟨?_, hkind, ?_, ?_⟩
  · simp [isNullAssetTxDataScript, hbytes, show opReserved ≠ 0x14 by decide]
  · simp [isNullAssetVerifierTxDataScript, hbytes]
  · rw [globalAssetNullDataFromScript, if_pos hkind, hwrite]
    exact parse_write hname.length_le hflag

end CNullAssetTxData

/-! ## Verifiers -/

theorem writeString_of_short (h : a.length < 253) : writeString a = UInt8.ofNat a.length :: a := by
  rw [writeString, writeCompactSize, if_pos h, writeLE_one, List.singleton_append]
  congr 2
  omega

namespace CNullAssetTxVerifierString

def Classified (v : CNullAssetTxVerifierString) : Prop :=
  isNullAssetTxDataScript v.constructTransaction = false ∧
  isNullGlobalRestrictionAssetTxDataScript v.constructTransaction = false ∧
  isNullAssetVerifierTxDataScript v.constructTransaction = true

def RoundTrips (v : CNullAssetTxVerifierString) : Prop :=
  v.Classified ∧ assetNullVerifierDataFromScript v.constructTransaction = some v

variable {v : Bytes}

theorem constructTransaction_eq (hmax : v.length ≤ 80) :
    constructTransaction ⟨v⟩ =
      if v.length < 75 then [opHempAsset, opReserved, UInt8.ofNat (v.length + 1)] ++ writeString v
      else [opHempAsset, opReserved, opPushdata1] ++ writeString (UInt8.ofNat v.length :: v) := by
  have hwrite := writeString_of_short (show v.length < 253 by omega)
  have hsize := writeString_length (show v.length < 253 by omega)
  rw [constructTransaction]
  split_ifs with hshort
  · rw [pushData_of_short (show (writeString v).length < 76 by omega), hsize]
    rfl
  · have hlength : (UInt8.ofNat v.length :: v).length < 253 := by
      rw [List.length_cons]
      omega
    have hlong : 76 ≤ (writeString v).length := by omega
    have hbyte : (writeString v).length ≤ 255 := by omega
    rw [pushData_of_long hlong hbyte, hsize, hwrite, writeString_of_short hlength]
    rfl

theorem classified (hne : v ≠ []) (hmax : v.length ≤ 80) : Classified ⟨v⟩ := by
  have hpos : 0 < v.length := List.length_pos_of_ne_nil hne
  have hwrite := constructTransaction_eq hmax
  have hbytes : byteAt (constructTransaction ⟨v⟩) 0 = opHempAsset ∧ byteAt (constructTransaction ⟨v⟩) 1 = opReserved :=
    ⟨rfl, rfl⟩
  have hlong : 3 < (constructTransaction ⟨v⟩).length := by
    have hsize := writeString_length (show v.length < 253 by omega)
    have hsize' := writeString_length (show (UInt8.ofNat v.length :: v).length < 253 by rw [List.length_cons]; omega)
    rw [hwrite]
    split_ifs <;> simp only [List.length_append, List.length_cons, List.length_nil] <;> omega
  -- the length of a short push stays below the reserved opcode, and a long push starts otherwise
  have hthird : byteAt (constructTransaction ⟨v⟩) 2 ≠ opReserved := by
    rw [hwrite]
    split_ifs with hshort
    · intro heq
      have hnat : (UInt8.ofNat (v.length + 1)).toNat = 0x50 := congrArg UInt8.toNat heq
      rw [UInt8.toNat_ofNat'] at hnat
      omega
    · show opPushdata1 ≠ opReserved
      decide
  refine ⟨?_, ?_, ?_⟩
  · simp [isNullAssetTxDataScript, hbytes, show opReserved ≠ 0x14 by decide]
  · simp [isNullGlobalRestrictionAssetTxDataScript, hthird]
  · simp [isNullAssetVerifierTxDataScript, hlong, hbytes, hthird]

/-- A verifier is read back unless its push takes two bytes for the length. -/
theorem roundTrips_iff (hne : v ≠ []) (hmax : v.length ≤ 80) : RoundTrips ⟨v⟩ ↔ v.length < 75 := by
  have hkind := classified hne hmax
  have hparse : ∀ w : Bytes, w.length < 253 → Reader.parse read (writeString w) = some ⟨w⟩ := by
    intro w hw
    have hread := readString_writeString hw []
    rw [List.append_nil] at hread
    rw [Reader.parse, read, Reader.bind_eq hread]
    rfl
  rw [RoundTrips, and_iff_right hkind, assetNullVerifierDataFromScript, if_pos hkind.2.2, constructTransaction_eq hmax]
  split_ifs with hshort
  · exact iff_of_true (hparse v (by omega)) hshort
  · refine iff_of_false ?_ hshort
    have hread := hparse (UInt8.ofNat v.length :: v) (by rw [List.length_cons]; omega)
    intro h
    have heq : some (⟨UInt8.ofNat v.length :: v⟩ : CNullAssetTxVerifierString) = some ⟨v⟩ := hread.symm.trans h
    simp at heq

end CNullAssetTxVerifierString

theorem length_le_of_checkVerifierString {v : Bytes} (hspace : ∀ b ∈ v, isSpace b = false)
    (htag : qualifierChar ∉ v) (h : ∃ found, checkVerifierString v = .ok found) : v ≠ [] ∧ v.length ≤ 80 := by
  have hne : v ≠ [] := by
    rintro rfl
    simp [checkVerifierString, str] at h
  refine ⟨hne, ?_⟩
  rcases (checkVerifierString_accepts_iff hne htag).mp h with rfl | ⟨hlen, -⟩
  · decide
  · rwa [removeWhitespaces_eq_self hspace] at hlen

/-- Commands are classified and read back; a verifier is classified, and read back when it has fewer than
75 characters. -/
theorem commandScripts_roundTrip_iff (cfg : Config) (hkey : keyID.length = 20) :
    (∀ data : CNullAssetTxData, IsCommandName data.asset_name → data.flag = 0 ∨ data.flag = 1 →
      data.RoundTrips cfg keyID ∧ data.GlobalRoundTrips) ∧
    ∀ v : Bytes, (∀ b ∈ v, isSpace b = false) → qualifierChar ∉ v →
      (∃ found, checkVerifierString v = .ok found) →
      CNullAssetTxVerifierString.Classified ⟨v⟩ ∧
        (CNullAssetTxVerifierString.RoundTrips ⟨v⟩ ↔ v.length < 75) := by
  constructor
  · intro data hname hflag
    exact ⟨CNullAssetTxData.roundTrips hkey hname hflag, CNullAssetTxData.globalRoundTrips hname hflag⟩
  · intro v hspace htag haccepted
    obtain ⟨hne, hmax⟩ := length_le_of_checkVerifierString hspace htag haccepted
    exact ⟨CNullAssetTxVerifierString.classified hne hmax,
      CNullAssetTxVerifierString.roundTrips_iff hne hmax⟩

theorem kyc_roundTrips :
    IsCommandName (str "#KYC") ∧
      CNullAssetTxData.RoundTrips mainAll aliceKeyID ⟨str "#KYC", 1⟩ ∧
      CNullAssetTxVerifierString.RoundTrips ⟨str "KYC&!SPAM"⟩ := by
  have hname : IsCommandName (str "#KYC") := .inl (by decide +kernel)
  obtain ⟨hdata, hverifier⟩ := commandScripts_roundTrip_iff mainAll (show aliceKeyID.length = 20 by decide)
  have haccepted : ∃ found, checkVerifierString (str "KYC&!SPAM") = .ok found :=
    ⟨[str "KYC", str "SPAM"], by decide +kernel⟩
  exact ⟨hname, (hdata _ hname (.inr rfl)).1,
    (hverifier _ (by decide +kernel) (by decide +kernel) haccepted).2.mpr (by decide)⟩

/-- Nineteen tags, any of which will do: 75 characters. -/
def longVerifier : Bytes := [124].intercalate (List.replicate 19 (str "KYC"))

theorem longVerifier_misread :
    (∀ b ∈ longVerifier, isSpace b = false) ∧ qualifierChar ∉ longVerifier ∧
      checkVerifierString longVerifier = .ok [str "KYC"] ∧
      assetNullVerifierDataFromScript (CNullAssetTxVerifierString.constructTransaction ⟨longVerifier⟩) =
        some ⟨75 :: longVerifier⟩ ∧
      ¬ CNullAssetTxVerifierString.RoundTrips ⟨longVerifier⟩ := by
  have hread : assetNullVerifierDataFromScript
      (CNullAssetTxVerifierString.constructTransaction ⟨longVerifier⟩) = some ⟨75 :: longVerifier⟩ := by
    decide +kernel
  refine ⟨by decide +kernel, by decide +kernel, by decide +kernel, hread, ?_⟩
  rintro ⟨-, hback⟩
  rw [hread] at hback
  simp at hback

end HempCore
