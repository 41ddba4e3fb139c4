import HempCore.Model.Address

/-!
# Asset payloads

The records an asset script carries (`assettypes.h`), how they are read from the stream
(`serialize.h`, `streams.h`) and the `*FromScript` parsers of `assets.cpp`. A parser returns
`none` where the source returns false, an exception while reading included.
Lines without a file are those of `assets.cpp`.
-/

set_option autoImplicit false

namespace HempCore

open Lib (Reader)

/-! ## Serialization -/

/-- serialize.h:27 -/
def maxSize : Nat := 0x02000000

/-- serialize.h:256-286 -/
def readCompactSize : Reader Nat := do
  let chSize ← Reader.readLE 1
  let nSizeRet ←
    if chSize < 253 then pure chSize
    else if chSize = 253 then do
      let n ← Reader.readLE 2
      Reader.ensure (253 ≤ n)
      pure n
    else if chSize = 254 then do
      let n ← Reader.readLE 4
      Reader.ensure (0x10000 ≤ n)
      pure n
    else do
      let n ← Reader.readLE 8
      Reader.ensure (0x100000000 ≤ n)
      pure n
  Reader.ensure (nSizeRet ≤ maxSize)
  pure nSizeRet

/-- serialize.h:574-581 -/
def readString : Reader Bytes := do
  let nSize ← readCompactSize
  Reader.takeBytes nSize

/-- The optional trailing hash: `none` when fewer than 33 bytes are left, in which case nothing is
read and the string stays empty. assets/assettypes.h:58-95 -/
def readAssetHash : Reader (Option Bytes) := do
  let left ← Reader.remaining
  if 33 ≤ left then do
    let tag ← Reader.takeBytes 1
    let hash ← readString
    pure (some ((if tag = [0x12] then [0x12, 0x20] else []) ++ hash.take 32))
  else pure none

/-! ## Records -/

/-- assets/assettypes.h:97-148 -/
structure CNewAsset where
  strName : Bytes
  nAmount : Int
  units : Int
  nReissuable : Int
  nHasIPFS : Int
  strIPFSHash : Bytes
deriving DecidableEq, Repr

/-- assets/assettypes.h:118-126 -/
def CNewAsset.null : CNewAsset := ⟨[], 0, 8, 0, 0, []⟩

/-- assets/assettypes.h:136-147 -/
def CNewAsset.read : Reader CNewAsset := do
  let strName ← readString
  let nAmount ← Reader.readSigned 8
  let units ← Reader.readSigned 1
  let nReissuable ← Reader.readSigned 1
  let nHasIPFS ← Reader.readSigned 1
  let hash ← if nHasIPFS = 1 then readAssetHash else pure none
  pure ⟨strName, nAmount, units, nReissuable, nHasIPFS, hash.getD []⟩

/-- assets/assettypes.h:187-234 -/
structure CAssetTransfer where
  strName : Bytes
  nAmount : Int
  message : Bytes
  nExpireTime : Int
deriving DecidableEq, Repr

/-- The expiry is read only after a message. assets/assettypes.h:210-228 -/
def CAssetTransfer.read : Reader CAssetTransfer := do
  let strName ← readString
  let nAmount ← Reader.readSigned 8
  let message ← readAssetHash
  let left ← Reader.remaining
  let nExpireTime ← if message.isSome ∧ 8 ≤ left then Reader.readSigned 8 else pure 0
  pure ⟨strName, nAmount, message.getD [], nExpireTime⟩

/-- assets/assettypes.h:236-274 -/
structure CReissueAsset where
  strName : Bytes
  nAmount : Int
  nUnits : Int
  nReissuable : Int
  strIPFSHash : Bytes
deriving DecidableEq, Repr

/-- assets/assettypes.h:261-269 -/
def CReissueAsset.read : Reader CReissueAsset := do
  let strName ← readString
  let nAmount ← Reader.readSigned 8
  let nUnits ← Reader.readSigned 1
  let nReissuable ← Reader.readSigned 1
  let hash ← readAssetHash
  pure ⟨strName, nAmount, nUnits, nReissuable, hash.getD []⟩

/-- assets/assettypes.h:276-305 -/
structure CNullAssetTxData where
  asset_name : Bytes
  flag : Int
deriving DecidableEq, Repr

/-- assets/assettypes.h:294-299 -/
def CNullAssetTxData.read : Reader CNullAssetTxData := do
  let asset_name ← readString
  let flag ← Reader.readSigned 1
  pure ⟨asset_name, flag⟩

/-- assets/assettypes.h:307-332 -/
structure CNullAssetTxVerifierString where
  verifier_string : Bytes
deriving DecidableEq, Repr

/-- assets/assettypes.h:324-328 -/
def CNullAssetTxVerifierString.read : Reader CNullAssetTxVerifierString := do
  let verifier_string ← readString
  pure ⟨verifier_string⟩

/-! ## Parsers -/

/-- The starting index of a script that carries the given payload. -/
def payloadStart (nType : TxnOutType) (fIsOwner : Bool) (s : Bytes) : Option Nat :=
  match isAssetScript s with
  | some a => if a.nType = nType ∧ a.fIsOwner = fIsOwner then some a.nStartingIndex else none
  | none => none

variable (cfg : Config) (s : Bytes)

/-- L3167-3181 -/
def isScriptNewAsset : Bool := (payloadStart .TX_NEW_ASSET false s).isSome
/-- L3233-3249 -/
def isScriptOwnerAsset : Bool := (payloadStart .TX_NEW_ASSET true s).isSome
/-- L3251-3266 -/
def isScriptReissueAsset : Bool := (payloadStart .TX_REISSUE_ASSET false s).isSome
/-- L3268-3283 -/
def isScriptTransferAsset : Bool := (payloadStart .TX_TRANSFER_ASSET false s).isSome

/-- Until the transfer-script deployment the payload is read from byte 31 whatever the marker's
position. L663-697 -/
def transferAssetFromScript : Option (CAssetTransfer × Bytes) := do
  let start ← payloadStart .TX_TRANSFER_ASSET false s
  let transfer ← Reader.parse CAssetTransfer.read
    (s.drop (if cfg.dep.transferScriptsSize then start else 31))
  pure (transfer, scriptAddressString cfg s)

/-- L703-726 -/
def assetFromScript : Option (CNewAsset × Bytes) := do
  let start ← payloadStart .TX_NEW_ASSET false s
  let asset ← Reader.parse CNewAsset.read (s.drop start)
  pure (asset, scriptAddressString cfg s)

/-- L803-826 -/
def ownerAssetFromScript : Option (Bytes × Bytes) := do
  let start ← payloadStart .TX_NEW_ASSET true s
  let name ← Reader.parse readString (s.drop start)
  pure (name, scriptAddressString cfg s)

/-- L828-851 -/
def reissueAssetFromScript : Option (CReissueAsset × Bytes) := do
  let start ← payloadStart .TX_REISSUE_ASSET false s
  let reissue ← Reader.parse CReissueAsset.read (s.drop start)
  pure (reissue, scriptAddressString cfg s)

/-- The name in a new-asset script is valid and of one of the given types. -/
def isScriptNewAssetOfType (types : List AssetType) (s : Bytes) : Bool :=
  match assetFromScript cfg s with
  | some (asset, _) => types.any fun t => isAssetNameOfType t asset.strName
  | none => false

/-- L3183-3206 -/
def isScriptNewUniqueAsset : Bytes → Bool := isScriptNewAssetOfType cfg [.UNIQUE]
/-- L3208-3231 -/
def isScriptNewMsgChannelAsset : Bytes → Bool := isScriptNewAssetOfType cfg [.MSGCHANNEL]
/-- L3285-3308 -/
def isScriptNewQualifierAsset : Bytes → Bool :=
  isScriptNewAssetOfType cfg [.QUALIFIER, .SUB_QUALIFIER]
/-- L3310-3333 -/
def isScriptNewRestrictedAsset : Bytes → Bool := isScriptNewAssetOfType cfg [.RESTRICTED]

/-- The parsers of the three special kinds differ from `assetFromScript` in the guard alone. -/
def guardedAssetFromScript (guard : Bytes → Bool) (s : Bytes) : Option (CNewAsset × Bytes) :=
  if guard s then assetFromScript cfg s else none

/-- L728-751 -/
def msgChannelAssetFromScript : Bytes → Option (CNewAsset × Bytes) :=
  guardedAssetFromScript cfg (isScriptNewMsgChannelAsset cfg)
/-- L753-776 -/
def qualifierAssetFromScript : Bytes → Option (CNewAsset × Bytes) :=
  guardedAssetFromScript cfg (isScriptNewQualifierAsset cfg)
/-- L778-801 -/
def restrictedAssetFromScript : Bytes → Option (CNewAsset × Bytes) :=
  guardedAssetFromScript cfg (isScriptNewRestrictedAsset cfg)

/-- L853-876 -/
def assetNullDataFromScript : Option (CNullAssetTxData × Bytes) :=
  if isNullAssetTxDataScript s then do
    let data ← Reader.parse CNullAssetTxData.read (s.drop 23)
    pure (data, scriptAddressString cfg s)
  else none

/-- L878-896 -/
def globalAssetNullDataFromScript : Option CNullAssetTxData :=
  if isNullGlobalRestrictionAssetTxDataScript s then
    Reader.parse CNullAssetTxData.read (s.drop 4)
  else none

/-- L898-916 -/
def assetNullVerifierDataFromScript : Option CNullAssetTxVerifierString :=
  if isNullAssetVerifierTxDataScript s then
    Reader.parse CNullAssetTxVerifierString.read (s.drop 3)
  else none

/-! ## The asset an output carries -/

/-- assets/assets.h:36 -/
def ownerAssetAmount : Int := 1 * COIN
/-- assets/assets.h:37 -/
def uniqueAssetAmount : Int := 1 * COIN
/-- assets/assets.h:44 -/
def qualifierAssetMinAmount : Int := 1 * COIN
/-- assets/assets.h:45 -/
def qualifierAssetMaxAmount : Int := 10 * COIN

/-- The destination is kept as the address string it is decoded from; its readers encode it
again. wallet/wallet.h:200-209 -/
structure CAssetOutputEntry where
  type : TxnOutType
  assetName : Bytes
  nAmount : Int
  address : Bytes
deriving DecidableEq, Repr

/-- The message-channel, qualifier and restricted fallbacks of the source come after
`AssetFromScript` failed, and each of them needs it to succeed. L3505-3585 -/
def getAssetData : Option CAssetOutputEntry :=
  match isAssetScript s with
  | some ⟨.TX_NEW_ASSET, false, _⟩ =>
    (assetFromScript cfg s).map fun p => ⟨.TX_NEW_ASSET, p.1.strName, p.1.nAmount, p.2⟩
  | some ⟨.TX_TRANSFER_ASSET, _, _⟩ =>
    (transferAssetFromScript cfg s).map fun p => ⟨.TX_TRANSFER_ASSET, p.1.strName, p.1.nAmount, p.2⟩
  | some ⟨.TX_NEW_ASSET, true, _⟩ =>
    (ownerAssetFromScript cfg s).map fun p => ⟨.TX_NEW_ASSET, p.1, ownerAssetAmount, p.2⟩
  | some ⟨.TX_REISSUE_ASSET, _, _⟩ =>
    (reissueAssetFromScript cfg s).map fun p => ⟨.TX_REISSUE_ASSET, p.1.strName, p.1.nAmount, p.2⟩
  | _ => none

/-- The amount in an asset script, read at the recogniser's index whatever is deployed.
script/script.cpp:461-494,529-594 -/
def getAssetAmountFromScript : Option Int :=
  match isAssetScript s with
  | some ⟨.TX_NEW_ASSET, false, start⟩ =>
    (Reader.parse CNewAsset.read (s.drop start)).map CNewAsset.nAmount
  | some ⟨.TX_TRANSFER_ASSET, _, start⟩ =>
    (Reader.parse CAssetTransfer.read (s.drop start)).map CAssetTransfer.nAmount
  | some ⟨.TX_NEW_ASSET, true, _⟩ => some ownerAssetAmount
  | some ⟨.TX_REISSUE_ASSET, _, start⟩ =>
    (Reader.parse CReissueAsset.read (s.drop start)).map CReissueAsset.nAmount
  | _ => none

/-- script/script.cpp:449-453 -/
def isUnspendable : Bool :=
  (0 < s.length && byteAt s 0 == opReturn) || (0 < s.length && byteAt s 0 == opHempAsset) ||
    maxScriptSize < s.length || getAssetAmountFromScript s == some 0

/-- L4426-4435 -/
def checkAmountWithUnits (nAmount : Int) (nUnits : Int) : Bool :=
  let nDivisor := 8 - nUnits
  if nDivisor < 0 ∨ 8 < nDivisor then false else nAmount % 10 ^ nDivisor.toNat == 0

/-- `HexStr`. utilstrencodings.h:107-122 -/
def encodeHex : Bytes :=
  let digit (n : Nat) : UInt8 := UInt8.ofNat (if n < 10 then 48 + n else 87 + n)
  s.flatMap fun b => [digit (b.toNat / 16), digit (b.toNat % 16)]

/-- L3842-3852,3863-3869 -/
def encodeAssetData (decoded : Bytes) : Bytes :=
  if decoded.length = 34 then encodeBase58 decoded
  else if decoded.length = 32 then encodeHex decoded
  else []

/-- utilstrencodings.cpp:59-67 -/
def isHex : Bool :=
  s.all (fun b => isDigit b || (97 ≤ b && b ≤ 102) || (65 ≤ b && b ≤ 70)) &&
    0 < s.length && s.length % 2 == 0

/-- L4437-4452 -/
def checkEncoded (hash : Bytes) : Except String Unit :=
  let encodedStr := encodeAssetData hash
  if encodedStr.take 2 = str "Qm" ∧ encodedStr.length = 46 then .ok ()
  else if cfg.dep.messages ∧ isHex encodedStr ∧ encodedStr.length = 64 then .ok ()
  else .error "Invalid parameter: ipfs_hash is not valid, or txid hash is not the right length"

end HempCore
