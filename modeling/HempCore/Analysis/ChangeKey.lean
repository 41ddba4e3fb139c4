import HempCore.Analysis.WalletConservation

/-!
# The key reserved for change

Coins and assets share one reserved key for their change, and `CreateTransactionAll` gives it back when
no coins are left over, whether or not asset change was sent to it.
-/

set_option autoImplicit false

namespace HempCore

open Lib

variable {node : CreateNode} {req : CreateRequest} {setup : LoopSetup} {K : Bytes}

/-! ## Change outputs -/

/-- The change of a call, in coins and in assets. -/
def CompletedCall.changeOutputs (call : CompletedCall) : List CTxOut :=
  (call.built.nChangePosInOut.bind fun pos => call.tx.vout[pos]?).toList ++ call.built.assetChange

/-- A script pays to a key: by itself, or with asset data after it. -/
def PaysKey (K script : Bytes) : Prop := scriptForKeyID K <+: script

instance (K script : Bytes) : Decidable (PaysKey K script) :=
  inferInstanceAs (Decidable (scriptForKeyID K <+: script))

/-- The key that gets asset data is the one in its script. -/
theorem eq_of_paysKey {id tail : Bytes} (hK : K.length = 20) (hid : id.length = 20)
    (h : PaysKey K (scriptForKeyID id ++ opHempAsset :: tail)) : id = K := by
  rw [PaysKey, scriptForKeyID_eq hK, scriptForKeyID_eq hid] at h
  obtain ⟨rest, hrest⟩ := h
  simp only [List.cons_append, List.append_assoc, List.cons.injEq, true_and] at hrest
  exact (List.append_inj_left hrest (hK.trans hid.symm)).symm

/-- The change of assets that are not restricted goes to the address for asset change. -/
theorem AssetChoice.change_of_unrestricted {setAssets : CoinSet} {assetChange : List CTxOut}
    (h : AssetChoice node setup setAssets assetChange)
    (hnames : ∀ name value, setup.totals.mapAssetValue[name]? = some value → isAssetNameAnRestricted name = false)
    {out : CTxOut} (hout : out ∈ assetChange) :
    ∃ tail, out.scriptPubKey = setup.assetScriptChange ++ opHempAsset :: tail := by
  rw [AssetChoice] at h
  split_ifs at h with hdep
  swap
  · rw [h.2] at hout
    cases hout
  obtain ⟨choices, mapAssetsIn, -, hchange⟩ := h
  obtain ⟨p, hp, -, script, hscript, rfl⟩ := isAssetChange_of_mem hchange out hout
  obtain ⟨value, -, hvalue, -⟩ := mem_mapAssetChange.mp hp
  rw [assetChangeScript, hnames p.1 value hvalue] at hscript
  cases hscript
  exact ⟨_, List.append_assoc ..⟩

/-! ## The key -/

/-- A key that was given back was reserved by the call, which made no change in coins. -/
theorem noChange_of_returned {built : BuiltPass} (h : keyAfter node req built = .returned K) :
    req.coinControl.destChange = none ∧ built.nChangePosInOut = none := by
  rw [keyAfter, getReservedKey] at h
  cases hdest : req.coinControl.destChange with
  | some dest => simp [hdest, CReserveKey.returnKey] at h
  | none =>
    refine ⟨rfl, ?_⟩
    cases hpos : built.nChangePosInOut with
    | none => rfl
    | some pos =>
      simp only [hdest, hpos, Option.isNone_some, Bool.false_eq_true, if_false] at h
      split at h
      · cases h
      · cases h

def changeKeyID : Bytes := List.replicate 20 7

def keyNode : CreateNode := { abcNode with reservedKey := some changeKeyID }

def keyAnswers : CreateAnswers := { abcAnswers with discardRate := fun _ => 1 }

/-- 40 `ABC` and some coins to Bob, with an address for the asset change or without. -/
def keyRequest (nAmount : Int) (assetDestChange : Option CTxDestination) : CreateRequest :=
  { abcRequest (40 * COIN) false with
    vecSend := [⟨(transferOut bobKeyID (str "ABC") (40 * COIN)).scriptPubKey, 0, false⟩,
      ⟨scriptForKeyID bobKeyID, nAmount, false⟩]
    coinControl := ⟨none, assetDestChange, true, false, [], []⟩ }

end HempCore
