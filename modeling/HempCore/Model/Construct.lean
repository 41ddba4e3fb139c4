import HempCore.Model.Payload

/-!
# Building asset scripts

The writing direction of the payloads (`serialize.h`, `assettypes.h`) and the `ConstructTransaction`
functions the wallet builds scripts with.
Lines without a file are those of `assets.cpp`.
-/

set_option autoImplicit false

namespace HempCore

/-! ## Writing -/

/-- The low `n` bytes of a number, least significant first; a negative number in two's
complement. -/
def writeLE (n : Nat) (v : Int) : Bytes :=
  (List.range n).map fun i => UInt8.ofNat (v / 256 ^ i % 256).toNat

/-- serialize.h:231-254 -/
def writeCompactSize (nSize : Nat) : Bytes :=
  if nSize < 253 then writeLE 1 nSize
  else if nSize ≤ 0xffff then 253 :: writeLE 2 nSize
  else if nSize ≤ 0xffffffff then 254 :: writeLE 4 nSize
  else 255 :: writeLE 8 nSize

/-- serialize.h:566-572 -/
def writeString (s : Bytes) : Bytes := writeCompactSize s.length ++ s

/-- assets/assettypes.h:80-91 -/
def writeAssetHash (s : Bytes) : Bytes :=
  if s.length = 34 then 0x12 :: writeString (s.drop 2)
  else if s.length = 32 then 0x54 :: writeString s
  else []

/-- `script << vector`. script/script.h:465-492 -/
def pushData (b : Bytes) : Bytes :=
  if b.length < opPushdata1.toNat then writeLE 1 b.length ++ b
  else if b.length ≤ 0xff then opPushdata1 :: writeLE 1 b.length ++ b
  else if b.length ≤ 0xffff then opPushdata2 :: writeLE 2 b.length ++ b
  else opPushdata4 :: writeLE 4 b.length ++ b

/-! ## Destinations -/

variable (keyID : Bytes)

/-- script/standard.cpp:305-309 -/
def scriptForKeyID : Bytes :=
  [opDup, opHash160] ++ pushData keyID ++ [opEqualverify, opChecksig]

/-- script/standard.cpp:333-337 -/
def scriptForNullAssetData : Bytes := opHempAsset :: pushData keyID

/-! ## Payloads -/

/-- Appends an asset payload with its type byte. -/
def appendAsset (script : Bytes) (type : UInt8) (payload : Bytes) : Bytes :=
  script ++ opHempAsset :: pushData ([hempR, hempV, hempN, type] ++ payload) ++ [opDrop]

/-- L520-533 -/
def CNewAsset.constructTransaction (asset : CNewAsset) (script : Bytes) : Bytes :=
  appendAsset script hempQ
    (writeString asset.strName ++ writeLE 8 asset.nAmount ++ writeLE 1 asset.units ++
      writeLE 1 asset.nReissuable ++ writeLE 1 asset.nHasIPFS ++
      if asset.nHasIPFS = 1 then writeAssetHash asset.strIPFSHash else [])

/-- L535-547 -/
def CNewAsset.constructOwnerTransaction (asset : CNewAsset) (script : Bytes) : Bytes :=
  appendAsset script hempO (writeString (asset.strName ++ ownerTag))

/-- The expiry is written after a message that could be written, and only when it is not zero.
L1621-1634, assets/assettypes.h:210-228 -/
def CAssetTransfer.constructTransaction (transfer : CAssetTransfer) (script : Bytes) : Bytes :=
  let message := writeAssetHash transfer.message
  appendAsset script hempT
    (writeString transfer.strName ++ writeLE 8 transfer.nAmount ++ message ++
      if message ≠ [] ∧ transfer.nExpireTime ≠ 0 then writeLE 8 transfer.nExpireTime else [])

/-- L1647-1660 -/
def CReissueAsset.constructTransaction (reissue : CReissueAsset) (script : Bytes) : Bytes :=
  appendAsset script hempR
    (writeString reissue.strName ++ writeLE 8 reissue.nAmount ++ writeLE 1 reissue.nUnits ++
      writeLE 1 reissue.nReissuable ++ writeAssetHash reissue.strIPFSHash)

/-- The bytes of a tag, freeze or global command. -/
def CNullAssetTxData.write (data : CNullAssetTxData) : Bytes :=
  writeString data.asset_name ++ writeLE 1 data.flag

/-- L4564-4572 -/
def CNullAssetTxData.constructTransaction (data : CNullAssetTxData) (script : Bytes) : Bytes :=
  script ++ pushData data.write

/-- L4574-4582 -/
def CNullAssetTxData.constructGlobalRestrictionTransaction (data : CNullAssetTxData) : Bytes :=
  [opHempAsset, opReserved, opReserved] ++ pushData data.write

/-- L4590-4598 -/
def CNullAssetTxVerifierString.constructTransaction (v : CNullAssetTxVerifierString) : Bytes :=
  [opHempAsset, opReserved] ++ pushData (writeString v.verifier_string)

/-! ## A mainnet node

Digests are parameters of the model. This configuration knows the double SHA-256 of the byte
strings that concrete transactions below hash: version byte and key hash of the burn addresses and
of two users, and the names of commands with the addresses of the users. -/

/-- The low `n` bytes of a number, most significant first. -/
def bytesBE (n v : Nat) : Bytes := (writeLE n v).reverse

/-- The key hash of two users. -/
def aliceKeyID : Bytes := List.replicate 20 0x11
def bobKeyID : Bytes := List.replicate 20 0x22

/-- The key hashes behind the burn addresses. -/
def issueBurnKeyID : Bytes := bytesBE 20 0xf62e63b933953a680f3c3a63324948293ba47d16
def reissueBurnKeyID : Bytes := bytesBE 20 0xf2ec561c77435e1e6a43e11920368c9c8a41c5a4
def msgChannelBurnKeyID : Bytes := bytesBE 20 0xf62e63b9413122f191bc7e3557408a5d68de66e7
def qualifierBurnKeyID : Bytes := bytesBE 20 0xf62e63b944f1f5cadadc3feac5580e425f4b4ef8
def subQualifierBurnKeyID : Bytes := bytesBE 20 0xf62e63b9476bb1f08311caa89bbc65a9352b6e5f
def restrictedBurnKeyID : Bytes := bytesBE 20 0xf62e63b945de7eb2453e8f2a7f18c2a04f7ea8ea
def addTagBurnKeyID : Bytes := bytesBE 20 0xf49f2ad2ca6ed0a2b163e11afd54f42336ef5235

/-- What `EncodeBase58Check` hashes for each of them, with its digest. -/
def addressDigests : List (Bytes × Bytes) :=
  [(60 :: aliceKeyID, bytesBE 32 0x1886b499a84c61d49c1d99a6924cc2810feded094191b4d05821a5615af5cb39),
    (60 :: bobKeyID, bytesBE 32 0x364afc54bb2c1e22a510dab2e313a06cb76ba2f42412764ae44f14d49c1c9ad1),
    (60 :: issueBurnKeyID, bytesBE 32 0x4f66ba196222a9da9db5865d177e294bf3999c6bb4785eef05a438827df6f5e8),
    (60 :: reissueBurnKeyID, bytesBE 32 0x5f937b0acb170fb60eaa4b52c9a65e517641671f85328b5a0bd010ae4f747a49),
    (60 :: msgChannelBurnKeyID, bytesBE 32 0x32f556dd9c2849823709e775e7308315ec7bc4260de912c52165eb55eda5452f),
    (60 :: qualifierBurnKeyID, bytesBE 32 0x36ff074792a6d8818ccbc452273fe7f016217544d28474cdf5809735e7bc487a),
    (60 :: subQualifierBurnKeyID, bytesBE 32 0x664f11027d27762ef0b6654fca2b19740a3c0b152349b33c136efd3e051dccf1),
    (60 :: restrictedBurnKeyID, bytesBE 32 0x40e9bb288e7bb8bd79965ef1313bde1d5ebc13c6eb6665b37297efd222892da0),
    (60 :: addTagBurnKeyID, bytesBE 32 0xb4b8293183e75fa0559b33f5e5b9dd4c5611912826d4ad2e105bb7e329369ab2)]

/-- The strings that identify a command in a cache, with their digests. -/
def commandDigests : List (Bytes × Bytes) :=
  [(str "$ABCRCPfwfTXRrCVFCT9GmAS2YJSafhC2XqEbD",
      bytesBE 32 0x60366565a73b70c70590f9af6a5f71c15c7fe56a793e69bce5616ea75958afb0),
    (str "#TAGRCPfwfTXRrCVFCT9GmAS2YJSafhC2XqEbD",
      bytesBE 32 0x39c31393b31fc275525aea4932f108358a344068f397e9afa3ca14e8777b743e),
    (str "#TAG/#SUBRCPfwfTXRrCVFCT9GmAS2YJSafhC2XqEbD",
      bytesBE 32 0xf102e8cedcfe0fb9810f779d2a7321e48c3719a08424a134c287cf50d81c422e)]

/-- Mainnet without indexes, with the digests above. No concrete transaction below pays to a bare
public key, so `Hash160` is never asked. -/
def mainConfig (dep : Deployments) : Config where
  params := mainParams
  hash s := ((addressDigests ++ commandDigests).lookup s).getD (bytesBE 32 0)
  hash160 _ := []
  dep := dep
  fReindex := false
  fAssetIndex := false
  fUnitTest := false
  uninit := .INVALID
  uninitHeight := 0

/-- With everything deployed. -/
abbrev mainAll : Config := mainConfig .all

example : encodeDestination mainAll (.keyID issueBurnKeyID) =
    mainParams.strIssueAssetBurnAddress := by decide +kernel

/-! ## Outputs -/

/-- An output that pays to a key. -/
def paymentOut (nValue : Int) : CTxOut := ⟨nValue, scriptForKeyID keyID⟩

/-- An output that issues an asset to a key. -/
def issueOut (asset : CNewAsset) : CTxOut :=
  ⟨0, asset.constructTransaction (scriptForKeyID keyID)⟩

/-- An output that creates the owner token of an asset. -/
def ownerOut (asset : CNewAsset) : CTxOut :=
  ⟨0, asset.constructOwnerTransaction (scriptForKeyID keyID)⟩

/-- An output that transfers an amount to a key. -/
def transferOut (name : Bytes) (nAmount : Int) : CTxOut :=
  ⟨0, CAssetTransfer.constructTransaction ⟨name, nAmount, [], 0⟩ (scriptForKeyID keyID)⟩

/-- An output that reissues an asset to a key. -/
def reissueOut (reissue : CReissueAsset) : CTxOut :=
  ⟨0, reissue.constructTransaction (scriptForKeyID keyID)⟩

/-- An output that freezes an asset at the address of a key, or tags the address with a qualifier,
or ends that. -/
def freezeOut (name : Bytes) (flag : Int) : CTxOut :=
  ⟨0, CNullAssetTxData.constructTransaction ⟨name, flag⟩ (scriptForNullAssetData keyID)⟩

end HempCore
