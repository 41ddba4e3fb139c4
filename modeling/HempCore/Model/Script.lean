import HempCore.Lib.Reader
import HempCore.Model.Basic

/-!
# Scripts

Opcode scanning, the recogniser of asset scripts and null-data scripts (`script/script.cpp`), and
the solver with `ExtractDestination` (`script/standard.cpp`). A script is its bytes.
Lines without a file are those of `script/script.h`.
-/

set_option autoImplicit false

namespace HempCore

/-! ## Opcodes -/

/-- L56-58 -/
def opPushdata1 : UInt8 := 0x4c
def opPushdata2 : UInt8 := 0x4d
def opPushdata4 : UInt8 := 0x4e
/-- L60 -/
def opReserved : UInt8 := 0x50
/-- L61-77 -/
def op1 : UInt8 := 0x51
def op16 : UInt8 := 0x60
/-- L89 -/
def opReturn : UInt8 := 0x6a
/-- L102-103 -/
def opDrop : UInt8 := 0x75
def opDup : UInt8 := 0x76
/-- L124-125 -/
def opEqual : UInt8 := 0x87
def opEqualverify : UInt8 := 0x88
/-- L165-170 -/
def opHash160 : UInt8 := 0xa9
def opChecksig : UInt8 := 0xac
def opCheckmultisig : UInt8 := 0xae
/-- L188 -/
def opHempAsset : UInt8 := 0xc0
/-- L35 -/
def maxScriptSize : Nat := 10000

/-- One instruction: its opcode and the bytes it pushes. -/
structure ScriptOp where
  opcode : UInt8
  data : Bytes
deriving DecidableEq, Repr

/-- Splits off a push of `n` bytes. -/
def takePush (op : UInt8) (n : Nat) (s : Bytes) : Option (ScriptOp × Bytes) :=
  if s.length < n then none else some (⟨op, s.take n⟩, s.drop n)

/-- The next instruction and what follows it. Everything after `OP_HEMP_ASSET` is its data.
L530-589 -/
def getOp : Bytes → Option (ScriptOp × Bytes)
  | [] => none
  | op :: s =>
    if op < opPushdata1 then takePush op op.toNat s
    else if op = opPushdata1 then
      if s.length < 1 then none else takePush op (Lib.Reader.leValue (s.take 1)) (s.drop 1)
    else if op = opPushdata2 then
      if s.length < 2 then none else takePush op (Lib.Reader.leValue (s.take 2)) (s.drop 2)
    else if op = opPushdata4 then
      if s.length < 4 then none else takePush op (Lib.Reader.leValue (s.take 4)) (s.drop 4)
    else if op = opHempAsset then some (⟨op, s⟩, [])
    else some (⟨op, []⟩, s)

/-- The instructions up to the end or to the first malformed push, and whether the end was
reached; `fuel` bounds the instructions read and the length of the script suffices. -/
def getOps : Nat → Bytes → List ScriptOp × Bool
  | 0, s => ([], s.isEmpty)
  | _ + 1, [] => ([], true)
  | fuel + 1, s =>
    match getOp s with
    | none => ([], false)
    | some (op, rest) => (op :: (getOps fuel rest).1, (getOps fuel rest).2)

variable (s : Bytes)

/-- All instructions of a script. -/
def scriptOps : List ScriptOp × Bool := getOps s.length s

/-- How often an opcode occurs before the first malformed push. L634-642 -/
def scriptFind (op : UInt8) : Nat := (scriptOps s).1.countP (·.opcode == op)

/-- script/script.cpp:400-417 -/
def isPushOnly : Bool := (scriptOps s).2 && (scriptOps s).1.all (·.opcode ≤ op16)

/-! ## Recognisers -/

/-- script/standard.h:57-73 -/
inductive TxnOutType where
  | TX_NONSTANDARD | TX_PUBKEY | TX_PUBKEYHASH | TX_SCRIPTHASH | TX_MULTISIG | TX_NULL_DATA
  | TX_WITNESS_V0_SCRIPTHASH | TX_WITNESS_V0_KEYHASH
  | TX_NEW_ASSET | TX_REISSUE_ASSET | TX_TRANSFER_ASSET | TX_RESTRICTED_ASSET_DATA
deriving DecidableEq, Repr

/-- What `IsAssetScript` writes through its reference arguments. -/
structure AssetScript where
  nType : TxnOutType
  fIsOwner : Bool
  nStartingIndex : Nat
deriving DecidableEq, Repr

/-- The marker bytes `rvn` and the type bytes. assets/assets.h:20-25 -/
def hempR : UInt8 := 114
def hempV : UInt8 := 118
def hempN : UInt8 := 110
def hempQ : UInt8 := 113
def hempT : UInt8 := 116
def hempO : UInt8 := 111

/-- The index of the type byte: the marker stands at byte 27 or, when byte 27 is not its first
letter, at byte 28. script/script.cpp:248-259 -/
def assetTypeIndex : Option Nat :=
  if byteAt s 27 = hempR then
    if byteAt s 28 = hempV ∧ byteAt s 29 = hempN then some 30 else none
  else if byteAt s 28 = hempR ∧ byteAt s 29 = hempV ∧ byteAt s 30 = hempN then some 31
  else none

/-- script/script.cpp:245-282 -/
def isAssetScript : Option AssetScript :=
  if 31 < s.length ∧ byteAt s 25 = opHempAsset then
    match assetTypeIndex s with
    | none => none
    | some index =>
      if byteAt s index = hempT then some ⟨.TX_TRANSFER_ASSET, false, index + 1⟩
      else if byteAt s index = hempQ ∧ 39 < s.length then some ⟨.TX_NEW_ASSET, false, index + 1⟩
      else if byteAt s index = hempO then some ⟨.TX_NEW_ASSET, true, index + 1⟩
      else if byteAt s index = hempR then some ⟨.TX_REISSUE_ASSET, false, index + 1⟩
      else none
  else none

/-- script/script.cpp:331-336 -/
def isNullAssetTxDataScript : Bool :=
  23 < s.length && byteAt s 0 == opHempAsset && byteAt s 1 == 0x14

/-- script/script.cpp:338-345 -/
def isNullGlobalRestrictionAssetTxDataScript : Bool :=
  6 < s.length && byteAt s 0 == opHempAsset && byteAt s 1 == opReserved &&
    byteAt s 2 == opReserved

/-- script/script.cpp:348-354 -/
def isNullAssetVerifierTxDataScript : Bool :=
  3 < s.length && byteAt s 0 == opHempAsset && byteAt s 1 == opReserved &&
    byteAt s 2 != opReserved

/-- script/script.cpp:326-329 -/
def isNullAsset : Bool :=
  isNullAssetTxDataScript s || isNullGlobalRestrictionAssetTxDataScript s ||
    isNullAssetVerifierTxDataScript s

/-- script/script.cpp:221-228 -/
def isPayToScriptHash : Bool :=
  s.length == 23 && byteAt s 0 == opHash160 && byteAt s 1 == 0x14 && byteAt s 22 == opEqual

/-- Version and program. script/script.cpp:368-382 -/
def isWitnessProgram : Option (Nat × Bytes) :=
  if s.length < 4 ∨ 42 < s.length then none
  else if byteAt s 0 ≠ 0 ∧ (byteAt s 0 < op1 ∨ op16 < byteAt s 0) then none
  else if (byteAt s 1).toNat + 2 = s.length then
    some (if byteAt s 0 = 0 then 0 else (byteAt s 0).toNat - 0x50, s.drop 2)
  else none

/-! ## Solver -/

/-- `m <key>... n OP_CHECKMULTISIG`, with the solutions `m`, the keys and `n`.
script/standard.cpp:127-204 -/
def matchMultisig (ops : List ScriptOp) : Option (List Bytes) :=
  match ops with
  | [] => none
  | m :: rest =>
    let isKey (o : ScriptOp) : Bool := 33 ≤ o.data.length && o.data.length ≤ 65
    let isSmall (o : ScriptOp) : Bool := op1 ≤ o.opcode && o.opcode ≤ op16
    match rest.span isKey with
    | (keys, [n, c]) =>
      if isSmall m && isSmall n && decide (c = ⟨opCheckmultisig, []⟩) && m.opcode ≤ n.opcode &&
          keys.length + 0x50 == n.opcode.toNat then
        some ([m.opcode - 0x50] :: keys.map ScriptOp.data ++ [[n.opcode - 0x50]])
      else none
    | _ => none

/-- The template scan for scripts that no shortcut recognises. script/standard.cpp:124-208 -/
def matchTemplates : Option (TxnOutType × List Bytes) :=
  match scriptOps s with
  | (_, false) => none
  | (ops, true) =>
    match ops with
    | [key, c] =>
      if 33 ≤ key.data.length ∧ key.data.length ≤ 65 ∧ c = ⟨opChecksig, []⟩ then
        some (.TX_PUBKEY, [key.data])
      else none
    | [a, b, h, c, d] =>
      if a = ⟨opDup, []⟩ ∧ b = ⟨opHash160, []⟩ ∧ h.data.length = 20 ∧
          c = ⟨opEqualverify, []⟩ ∧ d = ⟨opChecksig, []⟩ then
        some (.TX_PUBKEYHASH, [h.data])
      else (matchMultisig ops).map fun sol => (.TX_MULTISIG, sol)
    | ops => (matchMultisig ops).map fun sol => (.TX_MULTISIG, sol)

/-- The type and solutions of a script, `none` when `Solver` returns false.
script/standard.cpp:47-208 -/
def solver : Option (TxnOutType × List Bytes) :=
  if isPayToScriptHash s then some (.TX_SCRIPTHASH, [(s.drop 2).take 20])
  else
    match isAssetScript s with
    | some a => some (a.nType, [(s.drop 3).take 20])
    | none =>
      match isWitnessProgram s with
      | some (0, program) =>
        if program.length = 20 then some (.TX_WITNESS_V0_KEYHASH, [program])
        else if program.length = 32 then some (.TX_WITNESS_V0_SCRIPTHASH, [program])
        else none
      | some _ => none
      | none =>
        if byteAt s 0 = opReturn ∧ isPushOnly s.tail then some (.TX_NULL_DATA, [])
        else if byteAt s 0 = opHempAsset ∧ isPushOnly s.tail then
          if 23 ≤ s.length ∧ byteAt s 1 ≠ opReserved then
            some (.TX_RESTRICTED_ASSET_DATA, [(s.drop 2).take 20])
          else some (.TX_RESTRICTED_ASSET_DATA, [])
        else matchTemplates s

end HempCore
