import HempCore.Analysis.Conservation
import HempCore.Analysis.Creation
import HempCore.Model.Interpreter

/-!
# Asset outputs and the keys that spend them

The asset rules look at the address `ExtractDestination` cuts out of an asset script. Recognition
does not ask what the first 25 bytes do; where they are the key-hash template, the address is the
hash of the key that any spender has to present.
-/

set_option autoImplicit false

namespace HempCore

open Lib

/-! ## The instructions of an asset script -/

section Instructions

theorem getOps_cons {s rest : Bytes} {op : ScriptOp} (fuel : Nat) (h : getOp s = some (op, rest)) :
    getOps (fuel + 1) s = (op :: (getOps fuel rest).1, (getOps fuel rest).2) := by
  cases s with
  | nil => simp [getOp] at h
  | cons b s => simp [getOps, h]

theorem scriptForKeyID_eq {h : Bytes} (hh : h.length = 20) :
    scriptForKeyID h = opDup :: opHash160 :: 0x14 :: (h ++ [opEqualverify, opChecksig]) := by
  simp [scriptForKeyID, pushData, hh, opPushdata1, writeLE]

/-- The key-hash template followed by the asset instruction: whatever comes after the latter is its
data. -/
theorem scriptOps_keyHash {h tail : Bytes} (hh : h.length = 20) :
    scriptOps (scriptForKeyID h ++ opHempAsset :: tail) =
      ([⟨opDup, []⟩, ⟨opHash160, []⟩, ⟨0x14, h⟩, ⟨opEqualverify, []⟩, ⟨opChecksig, []⟩, ⟨opHempAsset, tail⟩], true) := by
  have hscript : scriptForKeyID h ++ opHempAsset :: tail =
      opDup :: opHash160 :: 0x14 :: (h ++ opEqualverify :: opChecksig :: opHempAsset :: tail) := by
    simp [scriptForKeyID_eq hh]
  have hfuel : (scriptForKeyID h ++ opHempAsset :: tail).length = tail.length + 19 + 1 + 6 := by
    rw [hscript]
    simp [hh]
    omega
  have hpush : getOp (0x14 :: (h ++ opEqualverify :: opChecksig :: opHempAsset :: tail)) =
      some (⟨0x14, h⟩, opEqualverify :: opChecksig :: opHempAsset :: tail) := by
    have htake : takePush 0x14 h.length (h ++ opEqualverify :: opChecksig :: opHempAsset :: tail) =
        some (⟨0x14, h⟩, opEqualverify :: opChecksig :: opHempAsset :: tail) := by
      simp [takePush]
    rw [hh] at htake
    exact htake
  have hplain : ∀ {b : UInt8} {s : Bytes}, b ∈ [opDup, opHash160, opEqualverify, opChecksig] →
      getOp (b :: s) = some (⟨b, []⟩, s) := by
    intro b s hb
    simp only [List.mem_cons, List.not_mem_nil, or_false] at hb
    rcases hb with rfl | rfl | rfl | rfl <;> rfl
  have hasset : getOp (opHempAsset :: tail) = some (⟨opHempAsset, tail⟩, []) := rfl
  rw [scriptOps, hfuel, hscript]
  rw [getOps_cons _ (hplain (by simp)), getOps_cons _ (hplain (by simp)), getOps_cons _ hpush,
    getOps_cons _ (hplain (by simp)), getOps_cons _ (hplain (by simp)),
    getOps_cons _ hasset]
  simp [getOps]

end Instructions

/-! ## Execution -/

section Execution

variable {env : ScriptEnv}

/-- The limits of an iteration can refuse it; they change nothing but the count. -/
theorem execOp_of_evalOp {st st' : ScriptState} {op : ScriptOp} (h : evalOp env st op = some st') :
    ∃ n, execOp env { st with nOpCount := n } op = some st' := by
  unfold evalOp at h
  dsimp only at h
  split_ifs at h with h₁ h₂ h₃
  all_goals
    obtain ⟨t, ht, hsize⟩ := Option.bind_eq_some_iff.mp h
    rw [Option.ite_none_left_eq_some, Option.some.injEq] at hsize
    exact ⟨_, hsize.2 ▸ ht⟩

/-- Outside conditional branches an instruction above the pushes runs its case. -/
theorem evalOpcode_of_evalOp {st st' : ScriptState} {op : ScriptOp} (hexec : st.vfExec = [])
    (hop : ¬ op.opcode ≤ opPushdata4) (h : evalOp env st op = some st') :
    ∃ n, evalOpcode env { st with nOpCount := n } op = some st' := by
  obtain ⟨n, hn⟩ := execOp_of_evalOp h
  exact ⟨n, by simpa [execOp, hexec, hop] using hn⟩

theorem evalOpcode_equalverify (st : ScriptState) (d : Bytes) : evalOpcode env st ⟨opEqualverify, d⟩ = evalEqualVerify st := rfl

theorem evalOpcode_checksig (st : ScriptState) (d : Bytes) : evalOpcode env st ⟨opChecksig, d⟩ = evalCheckSig env st := rfl

theorem evalOpcode_hempAsset (st : ScriptState) (d : Bytes) : evalOpcode env st ⟨opHempAsset, d⟩ = some st := rfl

/-- Whoever makes the key-hash template succeed has put a key with that hash on the stack and a
signature it verifies below it. -/
theorem spender_of_evalScript {h tail top : Bytes} {stack rest : List Bytes} (hh : h.length = 20)
    (hev : evalScript env (scriptForKeyID h ++ opHempAsset :: tail) stack = some (top :: rest))
    (htop : castToBool top = true) :
    ∃ vchPubKey vchSig below, stack = vchPubKey :: vchSig :: below ∧ env.hash160 vchPubKey = h ∧
      env.checkSig vchSig vchPubKey (scriptForKeyID h ++ opHempAsset :: tail) = true := by
  unfold evalScript at hev
  rw [Option.ite_none_left_eq_some, scriptOps_keyHash hh] at hev
  obtain ⟨-, hev⟩ := hev
  obtain ⟨st₆, hrun, hstack⟩ := Option.bind_eq_some_iff.mp hev
  simp only [List.foldlM_cons, List.foldlM_nil, Option.bind_eq_bind, Option.bind_eq_some_iff,
    Option.pure_def, Option.some.injEq] at hrun
  obtain ⟨st₁, h₁, st₂, h₂, st₃, h₃, st₄, h₄, st₅, h₅, st₆', h₆, rfl⟩ := hrun
  -- `OP_DUP` needs a key on the stack
  obtain ⟨n₁, h₁⟩ := evalOpcode_of_evalOp rfl (by decide) h₁
  cases stack with
  | nil => simp [evalOpcode] at h₁
  | cons vchPubKey stack =>
    cases h₁
    obtain ⟨n₂, h₂⟩ := evalOpcode_of_evalOp rfl (by decide) h₂
    cases h₂
    -- the push of the hash
    obtain ⟨n₃, h₃⟩ := execOp_of_evalOp h₃
    have hpush : st₃ = ⟨h :: env.hash160 vchPubKey :: vchPubKey :: stack, [], [], n₃,
        scriptForKeyID h ++ opHempAsset :: tail⟩ := by
      rw [execOp, if_pos (by simp; decide), Option.ite_none_left_eq_some] at h₃
      exact (Option.some.inj h₃.2).symm
    subst hpush
    obtain ⟨n₄, h₄⟩ := evalOpcode_of_evalOp rfl (by decide) h₄
    rw [evalOpcode_equalverify, evalEqualVerify, Option.ite_none_right_eq_some] at h₄
    obtain ⟨hhash, h₄⟩ := h₄
    cases h₄
    obtain ⟨n₅, h₅⟩ := evalOpcode_of_evalOp rfl (by decide) h₅
    rw [evalOpcode_checksig] at h₅
    cases stack with
    | nil => simp [evalCheckSig] at h₅
    | cons vchSig below =>
      refine ⟨vchPubKey, vchSig, below, rfl, hhash, ?_⟩
      simp only [evalCheckSig, Option.ite_none_left_eq_some] at h₅
      obtain ⟨-, -, h₅⟩ := h₅
      cases h₅
      -- the asset instruction leaves the verdict on top
      obtain ⟨n₆, h₆⟩ := evalOpcode_of_evalOp rfl (show ¬ opHempAsset ≤ opPushdata4 by decide) h₆
      rw [evalOpcode_hempAsset] at h₆
      cases h₆
      simp only [Bool.and_eq_true, Option.ite_none_right_eq_some, Option.some.injEq, List.cons.injEq] at hstack
      by_contra hfail
      rw [Bool.not_eq_true] at hfail
      rw [← hstack.2.1, hfail] at htop
      simp [castToBool, vchBool] at htop

end Execution

/-! ## Recognised scripts -/

section Recognised

variable {cfg : Config} {s : Bytes} {a : AssetScript}

theorem length_of_isAssetScript (h : isAssetScript s = some a) : 31 < s.length ∧ byteAt s 25 = opHempAsset := by
  unfold isAssetScript at h
  split at h
  · assumption
  · cases h

theorem marker_of_isAssetScript (h : isAssetScript s = some a) :
    ∃ i, (i = 27 ∨ i = 28) ∧ byteAt s i = hempR ∧ byteAt s (i + 1) = hempV ∧ byteAt s (i + 2) = hempN := by
  have hindex : ∃ index, assetTypeIndex s = some index := by
    unfold isAssetScript at h
    split at h
    · split at h
      · cases h
      · next index hindex => exact ⟨index, hindex⟩
    · cases h
  obtain ⟨index, hindex⟩ := hindex
  unfold assetTypeIndex at hindex
  split_ifs at hindex with h₁ h₂ h₃
  · exact ⟨27, .inl rfl, h₁, h₂⟩
  · exact ⟨28, .inr rfl, h₃⟩

theorem script_of_take {h : Bytes} (htake : s.take 25 = scriptForKeyID h) (ha : isAssetScript s = some a) :
    s = scriptForKeyID h ++ opHempAsset :: s.drop 26 := by
  obtain ⟨hlen, hbyte⟩ := length_of_isAssetScript ha
  have hdrop : s.drop 25 = opHempAsset :: s.drop 26 := by
    have hlt : 25 < s.length := by omega
    have hget : byteAt s 25 = s[25] := by
      simp [byteAt, List.getD_eq_getElem?_getD, List.getElem?_eq_getElem hlt]
    rw [List.drop_eq_getElem_cons hlt, ← hget, hbyte]
  rw [← htake, ← hdrop, List.take_append_drop]

theorem extractDestination_of_isAssetScript (h : isAssetScript s = some a) :
    extractDestination cfg s = some (.keyID ((s.drop 3).take 20)) := by
  have hscriptHash : isPayToScriptHash s = false := by
    have hlen := (length_of_isAssetScript h).1
    have hne : (s.length == 23) = false := by
      rw [beq_eq_false_iff_ne]
      omega
    simp [isPayToScriptHash, hne]
  have hsolver : solver s = some (a.nType, [(s.drop 3).take 20]) := by
    simp [solver, hscriptHash, h]
  rw [extractDestination, hsolver]
  rcases isAssetScript_cases h with ⟨ht, -⟩ | ⟨ht, -⟩ | ⟨ht, -⟩ | ⟨ht, -⟩ <;> rw [ht]

theorem getAssetData_address {data : CAssetOutputEntry} (h : getAssetData cfg s = some data) :
    data.address = scriptAddressString cfg s := by
  cases hs : isAssetScript s with
  | none => simp [getAssetData, hs] at h
  | some a =>
    obtain ⟨nType, fIsOwner, start⟩ := a
    rcases isAssetScript_cases hs with ⟨rfl, rfl⟩ | ⟨rfl, rfl⟩ | ⟨rfl, rfl⟩ | ⟨rfl, rfl⟩
    all_goals
      simp only [getAssetData, hs, Option.map_eq_some_iff] at h
      obtain ⟨p, hp, rfl⟩ := h
      simp only [assetFromScript, transferAssetFromScript, ownerAssetFromScript, reissueAssetFromScript,
        Option.bind_eq_bind, Option.bind_eq_some_iff, Option.pure_def, Option.some.injEq] at hp
      obtain ⟨_, -, _, -, rfl⟩ := hp
      rfl

end Recognised

/-! ## Accepted outputs -/

section Accepted

variable {cfg : Config} {tx : CTransaction} {inputs : CoinsView} {cache : Option AssetView}
  {fCheckDuplicateInputs fMempoolCheck fBlockCheck fCheckMempool fRunningUnitTests : Bool}
  {pool : MempoolTracking} {pairs : List (Bytes × Uint256)}

/-- Every asset output of an accepted transaction decodes to the record of its type. -/
theorem exists_getAssetData_of_accepted {out : CTxOut} {a : AssetScript}
    (htx : checkTransaction cfg tx fCheckDuplicateInputs fMempoolCheck fBlockCheck = .ok ())
    (hassets : checkTxAssets cfg tx inputs cache fCheckMempool pool fRunningUnitTests = .ok pairs)
    (hout : out ∈ tx.vout) (h : isAssetScript out.scriptPubKey = some a) :
    ∃ data, getAssetData cfg out.scriptPubKey = some data := by
  obtain ⟨hissues, howners, hreissues⟩ := decodes_of_creation (creation_of_checkTransaction htx)
  obtain ⟨nType, fIsOwner, start⟩ := a
  rcases isAssetScript_cases h with ⟨rfl, rfl⟩ | ⟨rfl, rfl⟩ | ⟨rfl, rfl⟩ | ⟨rfl, rfl⟩
  · obtain ⟨-, _, st, -, hloop, -⟩ := checkTxAssets_ok hassets
    obtain ⟨t, t', hstep⟩ := foldlM_step_of_mem hout hloop
    obtain ⟨-, ⟨_, -, htransfer⟩ | ⟨hne, -⟩⟩ := checkAssetOutput_ok hstep
    · obtain ⟨transfer, address, hparse, -⟩ := checkAssetTransferOutput_ok htransfer
      simp [getAssetData, h, hparse]
    · exact absurd h (hne start)
  · obtain ⟨p, hp⟩ := hissues out hout (by simp [isScriptNewAsset, payloadStart_eq_some.mpr h])
    simp [getAssetData, h, hp]
  · obtain ⟨p, hp⟩ := howners out hout (by simp [isScriptOwnerAsset, payloadStart_eq_some.mpr h])
    simp [getAssetData, h, hp]
  · obtain ⟨p, hp⟩ := hreissues out hout (by simp [isScriptReissueAsset, payloadStart_eq_some.mpr h])
    simp [getAssetData, h, hp]

end Accepted

/-- What the asset rules and the interpreter see of an asset script. -/
structure AssetOutputBound (cfg : Config) (s : Bytes) : Prop where
  size : 31 < s.length
  instruction : byteAt s 25 = opHempAsset
  marker : ∃ i, (i = 27 ∨ i = 28) ∧
    byteAt s i = hempR ∧ byteAt s (i + 1) = hempV ∧ byteAt s (i + 2) = hempN
  destination : extractDestination cfg s = some (.keyID ((s.drop 3).take 20))
  /-- The payload decodes, and the address that the rules look at is the destination's. -/
  payload : ∃ data, getAssetData cfg s = some data ∧
    data.address = encodeDestination cfg (.keyID ((s.drop 3).take 20))
  /-- Over the key-hash template the destination is the template's hash, and whatever a spender
  leaves on the stack, the script succeeds only for a key with that hash and a valid signature. -/
  spender : ∀ h : Bytes, h.length = 20 → s.take 25 = scriptForKeyID h →
    h = (s.drop 3).take 20 ∧
      ∀ env : ScriptEnv, env.hash160 = cfg.hash160 → ∀ scriptSig, verifyScript env scriptSig s = true →
        ∃ vchPubKey vchSig below, evalScript env scriptSig [] = some (vchPubKey :: vchSig :: below) ∧
          cfg.hash160 vchPubKey = h ∧ env.checkSig vchSig vchPubKey s = true

/-- **Asset outputs.** Every asset output of a transaction both checkers accept has the asset
instruction at byte 25, a payload that decodes and the destination in bytes 3 to 22; where its
first 25 bytes are the key-hash template, the key that spends it is the one whose address the asset
rules look at. -/
theorem assetOutputBound_of_accepted (cfg : Config) (tx : CTransaction) (inputs : CoinsView)
    (cache : Option AssetView) (fCheckDuplicateInputs fMempoolCheck fBlockCheck fCheckMempool : Bool)
    (pool : MempoolTracking) (fRunningUnitTests : Bool) (pairs : List (Bytes × Uint256))
    (htx : checkTransaction cfg tx fCheckDuplicateInputs fMempoolCheck fBlockCheck = .ok ())
    (hassets : checkTxAssets cfg tx inputs cache fCheckMempool pool fRunningUnitTests = .ok pairs)
    (out : CTxOut) (hout : out ∈ tx.vout) (a : AssetScript)
    (h : isAssetScript out.scriptPubKey = some a) : AssetOutputBound cfg out.scriptPubKey := by
  obtain ⟨data, hdata⟩ := exists_getAssetData_of_accepted htx hassets hout h
  obtain ⟨hsize, hinstruction⟩ := length_of_isAssetScript h
  have hdest : extractDestination cfg out.scriptPubKey =
      some (.keyID ((out.scriptPubKey.drop 3).take 20)) := extractDestination_of_isAssetScript h
  refine ⟨hsize, hinstruction, marker_of_isAssetScript h, hdest, ⟨data, hdata, ?_⟩, ?_⟩
  · rw [getAssetData_address hdata, scriptAddressString, hdest, Option.getD_some]
  · intro key hkey htemplate
    have hscript := script_of_take htemplate h
    refine ⟨?_, fun env henv scriptSig hverify => ?_⟩
    · rw [hscript, scriptForKeyID_eq hkey]
      simp only [List.cons_append, List.drop_succ_cons, List.drop_zero, List.append_assoc]
      rw [List.take_left' hkey]
    · unfold verifyScript at hverify
      split at hverify
      · next top rest heval =>
        obtain ⟨stack, hsig, hpub⟩ := Option.bind_eq_some_iff.mp heval
        rw [hscript] at hpub
        obtain ⟨vchPubKey, vchSig, below, rfl, hhash, hcheck⟩ :=
          spender_of_evalScript hkey hpub hverify
        exact ⟨vchPubKey, vchSig, below, hsig, henv ▸ hhash, hscript ▸ hcheck⟩
      · cases hverify

/-! ## Two payments of `ABC` to an address

One over the key-hash template; the other over a push of 24 bytes with the same key hash at bytes 3
to 22, which succeeds without any signature. -/

theorem abcPayment_bound :
    checkTransaction mainAll abcPayment true false true = .ok () ∧
      checkTxAssets mainAll abcPayment abcCoins (some abcView) false .empty false = .ok [] ∧
      AssetOutputBound mainAll
        (transferOut bobKeyID (str "ABC") (6 * COIN)).scriptPubKey := by
  have htx : checkTransaction mainAll abcPayment true false true = .ok () := by
    decide +kernel
  have hassets : checkTxAssets mainAll abcPayment abcCoins (some abcView) false .empty false
      = .ok [] := by decide +kernel
  exact ⟨htx, hassets, assetOutputBound_of_accepted _ _ _ _ _ _ _ _ _ _ _ htx hassets _
    (by simp [abcPayment]) ⟨.TX_TRANSFER_ASSET, false, 31⟩ (by decide +kernel)⟩

/-- A transfer whose first 25 bytes push 24 bytes with a key hash among them. -/
def unkeyedOut (keyID name : Bytes) (nAmount : Int) : CTxOut :=
  ⟨0, CAssetTransfer.constructTransaction ⟨name, nAmount, [], 0⟩ ([24, 1, 1] ++ keyID ++ [1, 1])⟩

def unkeyedPayment : CTransaction where
  vin := [⟨⟨1, 0⟩, []⟩, ⟨⟨2, 0⟩, []⟩]
  vout := [unkeyedOut aliceKeyID (str "ABC") (8 * COIN)]
  hash := 3

/-- An environment in which every signature check and every other instruction fails. -/
def refusingEnv : ScriptEnv where
  hash160 _ := []
  fRequireMinimal := true
  fNullFail := true
  checkEncoding _ _ := false
  checkSig _ _ _ := false
  otherOpcode _ _ := none

theorem unkeyedPayment_unbound :
    checkTransaction mainAll unkeyedPayment true false true = .ok () ∧
      checkTxAssets mainAll unkeyedPayment abcCoins (some abcView) false .empty false
        = .ok [] ∧
      ∃ out ∈ unkeyedPayment.vout, (isAssetScript out.scriptPubKey).isSome = true ∧
        extractDestination mainAll out.scriptPubKey = some (.keyID aliceKeyID) ∧
        verifyScript refusingEnv [] out.scriptPubKey = true ∧
        ∀ h data, out.scriptPubKey ≠ scriptForKeyID h ++ opHempAsset :: pushData data ++ [opDrop] := by
  refine ⟨by decide +kernel, by decide +kernel, _, List.mem_singleton.mpr rfl, by decide +kernel,
    by decide +kernel, by decide +kernel, fun h data heq => ?_⟩
  -- the template starts with `OP_DUP`
  have hfirst := congrArg (fun s => byteAt s 0) heq
  revert hfirst
  exact (by decide : ¬ (24 : UInt8) = opDup)

end HempCore
