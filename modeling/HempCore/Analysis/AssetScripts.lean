import Mathlib
import HempCore.Model.Construct

/-!
# Scripts the wallet builds

A transfer to a key is read back as it was written; an issue, an owner token or a reissue to a key is
never read as a transfer.
-/

set_option autoImplicit false

namespace HempCore

open Lib (Reader)

variable {a b s rest name script payload keyID : Bytes} {type : UInt8}

/-! ## Numbers and strings -/

theorem byteAt_append (a b : Bytes) (i : Nat) : byteAt (a ++ b) (a.length + i) = byteAt b i := by
  rw [byteAt, byteAt, List.getD_eq_getElem?_getD, List.getElem?_append_right (Nat.le_add_right _ _),
    Nat.add_sub_cancel_left, ← List.getD_eq_getElem?_getD]

theorem writeLE_length (n : Nat) (v : Int) : (writeLE n v).length = n := by
  simp [writeLE]

theorem writeString_length {s : Bytes} (h : s.length < 253) : (writeString s).length = s.length + 1 := by
  rw [writeString, writeCompactSize, if_pos h, List.length_append, writeLE_length, Nat.add_comm]

theorem writeAssetHash_length (s : Bytes) : (writeAssetHash s).length ≤ 34 := by
  rw [writeAssetHash]
  split_ifs with h h
  · simp [writeString_length, h]
  · simp [writeString_length, h]
  · simp

theorem leValue_append_singleton (s : Bytes) (c : UInt8) :
    Reader.leValue (s ++ [c]) = Reader.leValue s + 256 ^ s.length * c.toNat := by
  induction s with
  | nil => simp [Reader.leValue]
  | cons d s ih =>
    rw [List.cons_append, Reader.leValue, Reader.leValue, ih, List.length_cons, pow_succ]
    ring

theorem emod_mul_eq {a b : Int} (ha : 0 < a) (hb : 0 < b) (v : Int) : v % (a * b) = v % a + a * (v / a % b) := by
  have hlow := Int.emod_lt_of_pos v ha
  have hlow' := Int.emod_nonneg v ha.ne'
  have hhigh := Int.emod_lt_of_pos (v / a) hb
  have hhigh' := Int.emod_nonneg (v / a) hb.ne'
  have hv : v = v % a + a * (v / a % b) + a * b * (v / a / b) := by
    calc v = v % a + a * (v / a) := (Int.emod_add_mul_ediv v a).symm
      _ = v % a + a * (v / a % b + b * (v / a / b)) := by rw [Int.emod_add_mul_ediv (v / a) b]
      _ = v % a + a * (v / a % b) + a * b * (v / a / b) := by ring
  conv_lhs => rw [hv, Int.add_mul_emod_self_left]
  apply Int.emod_eq_of_lt
  · positivity
  · nlinarith

theorem leValue_writeLE (n : Nat) (v : Int) : (Reader.leValue (writeLE n v) : Int) = v % 256 ^ n := by
  induction n with
  | zero => simp [writeLE, Reader.leValue]
  | succ n ih =>
    have hlast : writeLE (n + 1) v = writeLE n v ++ [UInt8.ofNat (v / 256 ^ n % 256).toNat] := by
      simp [writeLE, List.range_succ]
    have hlow := Int.emod_nonneg (v / 256 ^ n) (b := 256) (by decide)
    have hhigh := Int.emod_lt_of_pos (v / 256 ^ n) (b := 256) (by decide)
    have hbyte : ((UInt8.ofNat (v / 256 ^ n % 256).toNat).toNat : Int) = v / 256 ^ n % 256 := by
      rw [UInt8.toNat_ofNat']
      omega
    rw [hlast, leValue_append_singleton, writeLE_length]
    push_cast
    rw [ih, hbyte, pow_succ, emod_mul_eq (by positivity) (by decide)]

theorem takeBytes_append (a rest : Bytes) : Reader.takeBytes a.length (a ++ rest) = some (a, rest) := by
  simp [Reader.takeBytes]

theorem readLE_writeLE (n : Nat) (v : Int) (rest : Bytes) :
    Reader.readLE n (writeLE n v ++ rest) = some ((v % 256 ^ n).toNat, rest) := by
  have htake := takeBytes_append (writeLE n v) rest
  rw [writeLE_length] at htake
  have hvalue : Reader.leValue (writeLE n v) = (v % 256 ^ n).toNat := by
    rw [← leValue_writeLE, Int.toNat_natCast]
  rw [Reader.readLE]
  simp [bind, StateT.bind, htake, pure, StateT.pure, hvalue]

theorem signed_emod {n : Nat} (hn : 0 < n) {v : Int} (hmin : -2 ^ (8 * n - 1) ≤ v) (hmax : v < 2 ^ (8 * n - 1)) :
    Reader.signed n (v % 256 ^ n).toNat = v := by
  have hpow : (256 : Int) ^ n = 2 * 2 ^ (8 * n - 1) := by
    rw [← pow_succ', show 8 * n - 1 + 1 = 8 * n from by omega, pow_mul]
    norm_num
  have hpow' : (2 : Int) ^ (8 * n) = 2 * 2 ^ (8 * n - 1) := by
    rw [← pow_succ', show 8 * n - 1 + 1 = 8 * n from by omega]
  have hcast : ((2 ^ (8 * n - 1) : Nat) : Int) = 2 ^ (8 * n - 1) := by push_cast; rfl
  rw [Reader.signed, hpow', hpow]
  generalize (2 : Int) ^ (8 * n - 1) = half at *
  generalize 2 ^ (8 * n - 1) = half' at *
  subst hcast
  by_cases hneg : v < 0
  · have hv : v % (2 * (half' : Int)) = v + 2 * half' := by
      rw [← Int.add_emod_right, Int.emod_eq_of_lt (by omega) (by omega)]
    rw [hv, if_neg (by omega)]
    omega
  · rw [Int.emod_eq_of_lt (by omega) (by omega), if_pos (by omega)]
    omega

theorem readSigned_writeLE {n : Nat} (hn : 0 < n) {v : Int} (hmin : -2 ^ (8 * n - 1) ≤ v) (hmax : v < 2 ^ (8 * n - 1))
    (rest : Bytes) : Reader.readSigned n (writeLE n v ++ rest) = some (v, rest) := by
  rw [Reader.readSigned]
  simp [bind, StateT.bind, readLE_writeLE n v rest, pure, StateT.pure, signed_emod hn hmin hmax]

theorem readCompactSize_writeCompactSize {n : Nat} (h : n ≤ maxSize) (rest : Bytes) :
    readCompactSize (writeCompactSize n ++ rest) = some (n, rest) := by
  have hread : ∀ k : Nat, n < 256 ^ k → Reader.readLE k (writeLE k n ++ rest) = some (n, rest) := by
    intro k hk
    have hread := readLE_writeLE k n rest
    have hmod : (n : Int) % 256 ^ k = n := Int.emod_eq_of_lt (by omega) (by exact_mod_cast hk)
    rw [hmod, Int.toNat_natCast] at hread
    exact hread
  -- the first byte tells how wide the size is
  have hfirst : ∀ (b : UInt8) (s : Bytes), Reader.readLE 1 (b :: s) = some (b.toNat, s) := by
    intro b s
    simp [Reader.readLE, Reader.takeBytes, bind, StateT.bind, pure, StateT.pure, Reader.leValue]
  unfold maxSize at h
  rw [writeCompactSize]
  split_ifs with h₁ h₂ h₃
  · have hone := hread 1 (by omega)
    rw [readCompactSize]
    simp [bind, StateT.bind, hone, h₁, pure, StateT.pure, Reader.ensure, maxSize, h]
  · have htwo := hread 2 (by omega)
    have hmin : 253 ≤ n := by omega
    rw [readCompactSize, List.cons_append]
    simp [bind, StateT.bind, hfirst, htwo, pure, StateT.pure, Reader.ensure, maxSize, h, hmin]
  · have hfour := hread 4 (by omega)
    have hmin : 0x10000 ≤ n := by omega
    rw [readCompactSize, List.cons_append]
    simp [bind, StateT.bind, hfirst, hfour, pure, StateT.pure, Reader.ensure, maxSize, h, hmin]
  · omega

theorem readString_of_le (h : name.length ≤ maxSize) (rest : Bytes) :
    readString (writeString name ++ rest) = some (name, rest) := by
  have hsize := readCompactSize_writeCompactSize h (name ++ rest)
  rw [readString, writeString, List.append_assoc]
  simp [bind, StateT.bind, hsize, takeBytes_append]

theorem readString_writeString (h : name.length < 253) (rest : Bytes) :
    readString (writeString name ++ rest) = some (name, rest) :=
  readString_of_le (h.le.trans (by decide)) rest

/-! ## The asset part of a script to a key -/

theorem scriptForKeyID_length (h : keyID.length = 20) : (scriptForKeyID keyID).length = 25 := by
  simp [scriptForKeyID, pushData, h, opPushdata1, writeLE_length]

/-- A payload short enough for a direct push: the marker starts at byte 27. -/
theorem appendAsset_of_short (hpayload : payload.length + 4 < 76) (type : UInt8) :
    appendAsset script type payload = script ++ ([opHempAsset] ++ writeLE 1 (payload.length + 4 : Nat) ++
      ([hempR, hempV, hempN, type] ++ payload ++ [opDrop])) := by
  have hlen : ([hempR, hempV, hempN, type] ++ payload).length = payload.length + 4 := by simp
  rw [appendAsset, pushData, hlen, if_pos (by simpa [opPushdata1] using hpayload)]
  simp

theorem appendAsset_of_long (hpayload : 76 ≤ payload.length + 4) (hmax : payload.length + 4 ≤ 255) (type : UInt8) :
    appendAsset script type payload = script ++ ([opHempAsset, opPushdata1] ++
      writeLE 1 (payload.length + 4 : Nat) ++ ([hempR, hempV, hempN, type] ++ payload ++ [opDrop])) := by
  have hlen : ([hempR, hempV, hempN, type] ++ payload).length = payload.length + 4 := by simp
  rw [appendAsset, pushData, hlen, if_neg (by simpa [opPushdata1] using hpayload), if_pos hmax]
  simp

theorem writeLE_one (v : Nat) : writeLE 1 v = [UInt8.ofNat ((v : Int) % 256).toNat] := by
  simp [writeLE]

theorem byteAt_script_append (hscript : script.length = 25) (rest : Bytes) (i : Nat) :
    byteAt (script ++ rest) (25 + i) = byteAt rest i := by
  rw [← hscript]
  exact byteAt_append script rest i

/-- The recogniser takes no other byte for the type. A long payload may have `r` for its length: then
it finds no marker at all. -/
theorem byteAt_assetTypeIndex (hscript : script.length = 25) (hmax : payload.length + 4 ≤ 255)
    {index : Nat} (h : assetTypeIndex (appendAsset script type payload) = some index) :
    byteAt (appendAsset script type payload) index = type := by
  have hbyte := byteAt_script_append hscript
  by_cases hshort : payload.length + 4 < 76
  · rw [appendAsset_of_short hshort, writeLE_one] at h ⊢
    rw [assetTypeIndex, hbyte _ 2, hbyte _ 3, hbyte _ 4] at h
    obtain rfl : 30 = index := Option.some.inj h
    exact hbyte _ 5
  · rw [appendAsset_of_long (by omega) hmax, writeLE_one] at h ⊢
    rw [assetTypeIndex, hbyte _ 2, hbyte _ 3, hbyte _ 4, hbyte _ 5] at h
    split_ifs at h with hr hv hmarker
    · exact absurd hv.1 (by decide : hempR ≠ hempV)
    · obtain rfl : 31 = index := Option.some.inj h
      exact hbyte _ 6

theorem not_transfer_of_appendAsset (hscript : script.length = 25) (hmax : payload.length + 4 ≤ 255)
    (htype : type ≠ hempT) (cfg : Config) : transferAssetFromScript cfg (appendAsset script type payload) = none := by
  have hstart : payloadStart .TX_TRANSFER_ASSET false (appendAsset script type payload) = none := by
    rw [payloadStart, isAssetScript]
    split_ifs with hasset
    · cases hindex : assetTypeIndex (appendAsset script type payload) with
      | none => rfl
      | some index =>
        simp only [byteAt_assetTypeIndex hscript hmax hindex, if_neg htype]
        split_ifs <;> simp
    · rfl
  rw [transferAssetFromScript, hstart]
  rfl

/-- Behind a script for a script hash the asset part is one byte too early to be seen. -/
theorem not_asset_of_scriptID (hscript : script.length = 23) (hmax : payload.length + 4 < opHempAsset.toNat) :
    isAssetScript (appendAsset script type payload) = none := by
  refine if_neg fun h => ?_
  have hbyte : ∀ rest, byteAt (script ++ rest) 25 = byteAt rest 2 := fun rest => by
    have := byteAt_append script rest 2
    rwa [hscript] at this
  have hat := h.2
  by_cases hshort : payload.length + 4 < 76
  · rw [appendAsset_of_short hshort, writeLE_one, hbyte] at hat
    exact absurd hat (by decide : hempR ≠ opHempAsset)
  · have hmax' : payload.length + 4 < 192 := hmax
    rw [appendAsset_of_long (by omega) (by omega), writeLE_one, hbyte] at hat
    have hlength : (UInt8.ofNat (((payload.length + 4 : Nat) : Int) % 256).toNat).toNat = 192 :=
      congrArg UInt8.toNat hat
    rw [UInt8.toNat_ofNat'] at hlength
    omega

/-- The types of output, with the byte each is marked by. -/
def assetMarkers : List (UInt8 × TxnOutType × Bool) :=
  [(hempT, .TX_TRANSFER_ASSET, false), (hempQ, .TX_NEW_ASSET, false), (hempO, .TX_NEW_ASSET, true),
    (hempR, .TX_REISSUE_ASSET, false)]

/-- A payload that is not too long is found behind its marker, however it was pushed. -/
theorem assetTypeIndex_appendAsset (hscript : script.length = 25) (hmax : payload.length + 4 < hempR.toNat) (type : UInt8) :
    ∃ index, assetTypeIndex (appendAsset script type payload) = some index ∧
      (appendAsset script type payload).drop (index + 1) = payload ++ [opDrop] ∧
      (payload.length + 4 < 76 → index = 30) := by
  have hbyte := byteAt_script_append hscript
  by_cases hshort : payload.length + 4 < 76
  · rw [appendAsset_of_short hshort, writeLE_one]
    refine ⟨30, ?_, ?_, fun _ => rfl⟩
    · rw [assetTypeIndex, hbyte _ 2, hbyte _ 3, hbyte _ 4]
      rfl
    · rw [show 30 + 1 = script.length + 6 by omega, List.drop_append]
      simp
  · change _ < 114 at hmax
    rw [appendAsset_of_long (by omega) (by omega), writeLE_one]
    -- the length of the push is taken for the marker's first letter when it is `r`
    have hlength : UInt8.ofNat (((payload.length + 4 : Nat) : Int) % 256).toNat ≠ hempR := by
      intro h
      have hnat := congrArg UInt8.toNat h
      rw [UInt8.toNat_ofNat'] at hnat
      change _ = 114 at hnat
      omega
    refine ⟨31, ?_, ?_, fun h => absurd h hshort⟩
    · rw [assetTypeIndex, hbyte _ 2, hbyte _ 3, hbyte _ 4, hbyte _ 5]
      exact (if_neg hlength).trans rfl
    · rw [show 31 + 1 = script.length + 7 by omega, List.drop_append]
      simp

theorem appendAsset_length (hscript : script.length = 25) (type : UInt8) (payload : Bytes) :
    payload.length + 32 ≤ (appendAsset script type payload).length := by
  have hpush : ∀ b : Bytes, b.length + 1 ≤ (pushData b).length := by
    intro b
    rw [pushData]
    split_ifs <;> simp only [List.length_append, List.length_cons, writeLE_length] <;> omega
  have hlen := hpush ([hempR, hempV, hempN, type] ++ payload)
  simp only [appendAsset, List.length_append, List.length_cons, List.length_nil] at hlen ⊢
  omega

theorem isAssetScript_appendAsset (hscript : script.length = 25) {kind : TxnOutType} {owner : Bool}
    (hmin : type = hempQ → 8 ≤ payload.length) (hmax : payload.length + 4 < hempR.toNat)
    (hmarker : (type, kind, owner) ∈ assetMarkers) :
    ∃ start, isAssetScript (appendAsset script type payload) = some ⟨kind, owner, start⟩ ∧
      (appendAsset script type payload).drop start = payload ++ [opDrop] ∧ (payload.length + 4 < 76 → start = 31) := by
  obtain ⟨index, hindex, hdrop, hshort⟩ := assetTypeIndex_appendAsset hscript hmax type
  refine ⟨index + 1, ?_, hdrop, fun h => by rw [hshort h]⟩
  have hlen := appendAsset_length hscript type payload
  have htype := byteAt_assetTypeIndex hscript (by change _ < 114 at hmax; omega) hindex
  have hmark : byteAt (appendAsset script type payload) 25 = opHempAsset := by
    have hbyte := byteAt_script_append hscript
    rw [appendAsset, List.append_assoc]
    exact hbyte _ 0
  rw [isAssetScript, if_pos ⟨by omega, hmark⟩, hindex]
  simp only [htype]
  simp only [assetMarkers, List.mem_cons, Prod.mk.injEq, List.not_mem_nil, or_false] at hmarker
  rcases hmarker with ⟨rfl, rfl, rfl⟩ | ⟨rfl, rfl, rfl⟩ | ⟨rfl, rfl, rfl⟩ | ⟨rfl, rfl, rfl⟩
  · rfl
  · have hpayload := hmin rfl
    rw [if_neg (by decide), if_pos ⟨rfl, by omega⟩]
  · rfl
  · rfl

end HempCore
