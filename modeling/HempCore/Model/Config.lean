import HempCore.Model.AssetName

/-!
# Chain parameters, deployments and digests

The globals the modelled functions read. Digests are parameters: nothing below computes a
SHA-256 or a RIPEMD-160, and each theorem that needs a property of them states it.
-/

set_option autoImplicit false

namespace HempCore

/-- The fields of `CChainParams` that asset validation and block connection read.
chainparams.h:60-150 -/
structure ChainParams where
  /-- `NetworkIDString() == CBaseChainParams::TESTNET` -/
  isTestnet : Bool
  pubkeyAddress : UInt8
  scriptAddress : UInt8
  nSubsidyHalvingInterval : Nat
  nIssueAssetBurnAmount : Int
  nReissueAssetBurnAmount : Int
  nIssueSubAssetBurnAmount : Int
  nIssueUniqueAssetBurnAmount : Int
  nIssueMsgChannelAssetBurnAmount : Int
  nIssueQualifierAssetBurnAmount : Int
  nIssueSubQualifierAssetBurnAmount : Int
  nIssueRestrictedAssetBurnAmount : Int
  nAddNullQualifierTagBurnAmount : Int
  strIssueAssetBurnAddress : Bytes
  strReissueAssetBurnAddress : Bytes
  strIssueSubAssetBurnAddress : Bytes
  strIssueUniqueAssetBurnAddress : Bytes
  strIssueMsgChannelAssetBurnAddress : Bytes
  strIssueQualifierAssetBurnAddress : Bytes
  strIssueSubQualifierAssetBurnAddress : Bytes
  strIssueRestrictedAssetBurnAddress : Bytes
  strAddNullQualifierTagBurnAddress : Bytes
  strGlobalBurnAddress : Bytes

/-- Mainnet. chainparams.cpp:112-260 -/
def mainParams : ChainParams where
  isTestnet := false
  pubkeyAddress := 60
  scriptAddress := 122
  nSubsidyHalvingInterval := 25000000
  nIssueAssetBurnAmount := 25000000
  nReissueAssetBurnAmount := 5000000
  nIssueSubAssetBurnAmount := 5000000
  nIssueUniqueAssetBurnAmount := 1000000
  nIssueMsgChannelAssetBurnAmount := 5000000
  nIssueQualifierAssetBurnAmount := 25000000
  nIssueSubQualifierAssetBurnAmount := 5000000
  nIssueRestrictedAssetBurnAmount := 25000000
  nAddNullQualifierTagBurnAmount := 5000000
  strIssueAssetBurnAddress := str "RXissueAssetXXXXXXXXXXXXXXXXXhhZGt"
  strReissueAssetBurnAddress := str "RXReissueAssetXXXXXXXXXXXXXXVEFAWu"
  strIssueSubAssetBurnAddress := str "RXissueSubAssetXXXXXXXXXXXXXWcwhwL"
  strIssueUniqueAssetBurnAddress := str "RXissueUniqueAssetXXXXXXXXXXWEAe58"
  strIssueMsgChannelAssetBurnAddress := str "RXissueMsgChanneLAssetXXXXXXSjHvAY"
  strIssueQualifierAssetBurnAddress := str "RXissueQuaLifierXXXXXXXXXXXXUgEDbC"
  strIssueSubQualifierAssetBurnAddress := str "RXissueSubQuaLifierXXXXXXXXXVTzvv5"
  strIssueRestrictedAssetBurnAddress := str "RXissueRestrictedXXXXXXXXXXXXzJZ1q"
  strAddNullQualifierTagBurnAddress := str "RXaddTagBurnXXXXXXXXXXXXXXXXZQm5ya"
  strGlobalBurnAddress := str "RXBurnXXXXXXXXXXXXXXXXXXXXXXWUo9FV"

/-- The latched deployment flags. validation.cpp:5855-5955 -/
structure Deployments where
  assets : Bool
  messages : Bool
  restrictedAssets : Bool
  transferScriptsSize : Bool
  enforcedValues : Bool
  coinbaseCheckAssets : Bool
deriving DecidableEq, Repr

/-- Every rule change active. -/
def Deployments.all : Deployments := ⟨true, true, true, true, true, true⟩

/-- What the validation functions read besides their arguments. -/
structure Config where
  params : ChainParams
  /-- `Hash`, the double SHA-256. hash.h:98-105 -/
  hash : Bytes → Bytes
  /-- `Hash160`, RIPEMD-160 of SHA-256. hash.h:181-189 -/
  hash160 : Bytes → Bytes
  dep : Deployments
  /-- `-reindex` is running. validation.cpp:103 -/
  fReindex : Bool
  /-- `-assetindex`. validation.cpp:107 -/
  fAssetIndex : Bool
  /-- Set by the unit tests alone. validation.cpp:122 -/
  fUnitTest : Bool
  /-- What a local `AssetType` variable holds before its first write. -/
  uninit : AssetType
  /-- What a local `int` that should receive a height holds before its first write. -/
  uninitHeight : Int

/-- assets.cpp:3670-3698 -/
def getBurnAmount (p : ChainParams) : AssetType → Int
  | .ROOT => p.nIssueAssetBurnAmount
  | .SUB => p.nIssueSubAssetBurnAmount
  | .MSGCHANNEL => p.nIssueMsgChannelAssetBurnAmount
  | .UNIQUE => p.nIssueUniqueAssetBurnAmount
  | .REISSUE => p.nReissueAssetBurnAmount
  | .QUALIFIER => p.nIssueQualifierAssetBurnAmount
  | .SUB_QUALIFIER => p.nIssueSubQualifierAssetBurnAmount
  | .RESTRICTED => p.nIssueRestrictedAssetBurnAmount
  | .NULL_ADD_QUALIFIER => p.nAddNullQualifierTagBurnAmount
  | .OWNER | .VOTE | .INVALID => 0

/-- assets.cpp:3705-3733 -/
def getBurnAddress (p : ChainParams) : AssetType → Bytes
  | .ROOT => p.strIssueAssetBurnAddress
  | .SUB => p.strIssueSubAssetBurnAddress
  | .MSGCHANNEL => p.strIssueMsgChannelAssetBurnAddress
  | .UNIQUE => p.strIssueUniqueAssetBurnAddress
  | .REISSUE => p.strReissueAssetBurnAddress
  | .QUALIFIER => p.strIssueQualifierAssetBurnAddress
  | .SUB_QUALIFIER => p.strIssueSubQualifierAssetBurnAddress
  | .RESTRICTED => p.strIssueRestrictedAssetBurnAddress
  | .NULL_ADD_QUALIFIER => p.strAddNullQualifierTagBurnAddress
  | .OWNER | .VOTE | .INVALID => []

end HempCore
