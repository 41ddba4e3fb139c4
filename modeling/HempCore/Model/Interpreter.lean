import HempCore.Model.Construct

/-!
# Script execution

`EvalScript` of `script/interpreter.cpp` for the instructions of a key-hash script and the asset
instruction. The other cases of its `switch` and the signature check are parameters: nothing below
depends on what they do.
Lines without a file are those of `script/interpreter.cpp`.
-/

set_option autoImplicit false

namespace HempCore

/-- script/script.h:26-35 -/
def maxScriptElementSize : Nat := 520
def maxOpsPerScript : Nat := 201
def maxStackSize : Nat := 1000

/-- script/script.h:59-84 -/
def op1negate : UInt8 := 0x4f
def opIf : UInt8 := 0x63
def opEndif : UInt8 := 0x68

/-- `OP_CAT` to `OP_RSHIFT`. L330-344 -/
def disabledOpcodes : List UInt8 :=
  [0x7e, 0x7f, 0x80, 0x81, 0x83, 0x84, 0x85, 0x86, 0x8d, 0x8e, 0x95, 0x96, 0x97, 0x98, 0x99]

/-- The local variables of `EvalScript`. L297-308 -/
structure ScriptState where
  /-- Top first. -/
  stack : List Bytes
  altstack : List Bytes
  vfExec : List Bool
  nOpCount : Nat
  /-- The script from the most recent code separator on. -/
  scriptCode : Bytes

/-- What `EvalScript` calls: digest and signature check, its flags, and the instructions that are
not written out here. -/
structure ScriptEnv where
  hash160 : Bytes → Bytes
  fRequireMinimal : Bool
  fNullFail : Bool
  /-- `CheckSignatureEncoding` and `CheckPubKeyEncoding`. -/
  checkEncoding : Bytes → Bytes → Bool
  /-- `checker.CheckSig` for a signature, a key and a script the signature is deleted from. -/
  checkSig : Bytes → Bytes → Bytes → Bool
  otherOpcode : ScriptOp → ScriptState → Option ScriptState

/-- L37-50 -/
def castToBool (vch : Bytes) : Bool :=
  match vch.getLast? with
  | none => false
  | some last => vch.dropLast.any (· != 0) || (last != 0 && last != 0x80)

/-- L253-285 -/
def checkMinimalPush (data : Bytes) (opcode : UInt8) : Bool :=
  match data with
  | [] => opcode == 0
  | [b] =>
    if 1 ≤ b ∧ b ≤ 16 then opcode == op1 + (b - 1)
    else if b = 0x81 then opcode == op1negate
    else opcode == 1
  | _ =>
    if data.length ≤ 75 then opcode.toNat == data.length
    else if data.length ≤ 255 then opcode == opPushdata1
    else if data.length ≤ 65535 then opcode == opPushdata2
    else true

/-- `vchTrue` and `vchFalse`. L293-295 -/
def vchBool (b : Bool) : Bytes := if b then [1] else []

variable (env : ScriptEnv)

section

variable (st : ScriptState)

/-- L961-1002 -/
def evalCheckSig : Option ScriptState :=
  match st.stack with
  | vchPubKey :: vchSig :: rest =>
    if !env.checkEncoding vchSig vchPubKey then none
    else
      let fSuccess := env.checkSig vchSig vchPubKey st.scriptCode
      if !fSuccess && env.fNullFail && vchSig.length != 0 then none
      else some { st with stack := vchBool fSuccess :: rest }
  | _ => none

/-- L754-780 -/
def evalEqualVerify : Option ScriptState :=
  match st.stack with
  | vch2 :: vch1 :: rest => if vch1 = vch2 then some { st with stack := rest } else none
  | _ => none

/-- L661-669,927-952,1118-1119 -/
def evalOpcode (op : ScriptOp) : Option ScriptState :=
  if op.opcode = opDup then
    match st.stack with
    | vch :: rest => some { st with stack := vch :: vch :: rest }
    | [] => none
  else if op.opcode = opHash160 then
    match st.stack with
    | vch :: rest => some { st with stack := env.hash160 vch :: rest }
    | [] => none
  else if op.opcode = opEqualverify then evalEqualVerify st
  else if op.opcode = opChecksig then evalCheckSig env st
  else if op.opcode = opHempAsset then some st
  else env.otherOpcode op st

/-- The branch an instruction takes. L346-355 -/
def execOp (op : ScriptOp) : Option ScriptState :=
  let fExec := st.vfExec.all id
  if fExec && op.opcode ≤ opPushdata4 then
    if env.fRequireMinimal && !checkMinimalPush op.data op.opcode then none
    else some { st with stack := op.data :: st.stack }
  else if fExec || (opIf ≤ op.opcode && op.opcode ≤ opEndif) then evalOpcode env st op
  else some st

/-- One iteration. L312-1130 -/
def evalOp (op : ScriptOp) : Option ScriptState :=
  let nOpCount := if op16 < op.opcode then st.nOpCount + 1 else st.nOpCount
  if maxScriptElementSize < op.data.length then none
  else if maxOpsPerScript < nOpCount then none
  else if disabledOpcodes.contains op.opcode then none
  else
    (execOp env { st with nOpCount := nOpCount } op).bind fun st =>
      if maxStackSize < st.stack.length + st.altstack.length then none else some st

end

/-- The stack after a script, `none` when `EvalScript` returns false.
L288-1141 -/
def evalScript (script : Bytes) (stack : List Bytes) : Option (List Bytes) :=
  if maxScriptSize < script.length then none
  else
    ((scriptOps script).1.foldlM (evalOp env) ⟨stack, [], [], 0, script⟩).bind fun st =>
      if (scriptOps script).2 && st.vfExec.isEmpty then some st.stack else none

/-- Both evaluations of `VerifyScript` and its look at the top of the stack; what it goes on to
check for witness programs and script hashes can only refuse more.
L1545-1579 -/
def verifyScript (scriptSig scriptPubKey : Bytes) : Bool :=
  match (evalScript env scriptSig []).bind (evalScript env scriptPubKey) with
  | some (top :: _) => castToBool top
  | _ => false

end HempCore
