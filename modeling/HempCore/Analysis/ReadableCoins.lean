import HempCore.Analysis.AssetOutputs
import HempCore.Analysis.AssetScripts
import HempCore.Analysis.BlockDisconnection
import HempCore.Analysis.CommandAuthority

/-!
# Asset coins stay readable

The transfer-script deployment changes where the payload of a transfer is read. A script whose payload
starts elsewhere than at byte 31 is refused before it, since byte 31 is then the type letter and reads
as the length of a name that is too long. So what the coins of a node carry can be read under the flags
that are active and under all later ones, with one result.
-/

set_option autoImplicit false

namespace HempCore

open Lib

variable {cfg : Config} {dep : Deployments} {node : Node}

/-! ## One reading -/

theorem length_of_readString {rest after name : Bytes} (h : readString (hempT :: rest) = some (name, after)) :
    name.length = 116 := by
  -- the letter `t` is the size 116
  have hsize : readCompactSize (hempT :: rest) = some (116, rest) := readCompactSize_writeCompactSize (n := 116) (by decide) rest
  rw [readString, Reader.bind_eq hsize, Reader.takeBytes] at h
  split_ifs at h with hlen
  rw [← (Prod.mk.inj (Option.some.inj h)).1, List.length_take]
  omega

theorem readString_of_parse {s : Bytes} {transfer : CAssetTransfer} (h : Reader.parse CAssetTransfer.read s = some transfer) :
    ∃ after, readString s = some (transfer.strName, after) := by
  obtain ⟨⟨t, rest⟩, hread, rfl⟩ := Option.map_eq_some_iff.mp h
  simp only [CAssetTransfer.read, bind, StateT.bind, Option.bind_eq_some_iff, Prod.exists] at hread
  obtain ⟨name, after, hname, nAmount, _, -, message, _, -, left, _, -, hexpiry⟩ := hread
  split_ifs at hexpiry
  all_goals
    simp only [StateT.bind, Option.bind_eq_bind, Option.bind_eq_some_iff, Prod.exists] at hexpiry
    obtain ⟨nExpireTime, _, -, hpure⟩ := hexpiry
    cases hpure
    exact ⟨after, hname⟩

theorem start_of_parse {s : Bytes} {start : Nat} {transfer : CAssetTransfer}
    (h : isAssetScript s = some ⟨.TX_TRANSFER_ASSET, false, start⟩)
    (hparse : Reader.parse CAssetTransfer.read (s.drop 31) = some transfer)
    (hname : isAssetNameValid transfer.strName = true) : start = 31 := by
  obtain ⟨hlen, -⟩ := length_of_isAssetScript h
  have hindex : ∃ index, (index = 30 ∨ index = 31) ∧ byteAt s index = hempT ∧ start = index + 1 := by
    unfold isAssetScript at h
    split at h
    · split at h
      · cases h
      · next index hindex =>
        refine ⟨index, ?_, ?_⟩
        · unfold assetTypeIndex at hindex
          split_ifs at hindex <;> simp_all
        · by_cases ht : byteAt s index = hempT
          · rw [if_pos ht] at h
            cases h
            exact ⟨ht, rfl⟩
          · rw [if_neg ht] at h
            split_ifs at h <;> cases h
    · cases h
  obtain ⟨index, rfl | rfl, ht, rfl⟩ := hindex
  · rfl
  · have hdrop : s.drop 31 = hempT :: s.drop 32 := by
      rw [List.drop_eq_getElem_cons hlen, ← ht]
      simp [byteAt, List.getD_eq_getElem?_getD, List.getElem?_eq_getElem hlen]
    obtain ⟨after, hread⟩ := readString_of_parse hparse
    rw [hdrop] at hread
    have hlong := length_of_readString hread
    have hshort := length_le_of_isAssetNameValid hname
    have hmax : maxNameLength = 31 := rfl
    omega

theorem transferScriptsSize_of_le {a b : Deployments} (h : a.le b = true) (ha : a.transferScriptsSize = true) :
    b.transferScriptsSize = true := by
  simp only [Deployments.le, Bool.and_eq_true] at h
  simpa [ha] using h.1.1.2

theorem transferAssetFromScript_of_le {s : Bytes} {p : CAssetTransfer × Bytes}
    (h : transferAssetFromScript cfg s = some p) (hname : isAssetNameValid p.1.strName = true)
    (hdep : cfg.dep.le dep = true) : transferAssetFromScript { cfg with dep := dep } s = some p := by
  simp only [transferAssetFromScript, Option.bind_eq_bind, Option.bind_eq_some_iff, Option.pure_def, Option.some.injEq] at h ⊢
  obtain ⟨start, hstart, transfer, hparse, rfl⟩ := h
  refine ⟨start, hstart, transfer, ?_, rfl⟩
  by_cases hsize : cfg.dep.transferScriptsSize = true
  · rw [if_pos hsize] at hparse
    rw [if_pos (transferScriptsSize_of_le hdep hsize)]
    exact hparse
  · rw [if_neg hsize] at hparse
    rw [start_of_parse (payloadStart_eq_some.mp hstart) hparse hname, ite_self]
    exact hparse

/-- The asset of a script is the same under the flags that are active and under all later ones. -/
def Steady (cfg : Config) (dep : Deployments) (s : Bytes) : Prop :=
  (isAssetScript s).isSome = true → ∃ data, ∀ dep', dep.le dep' = true →
    getAssetData { cfg with dep := dep' } s = some data

theorem Deployments.le_trans {a b c : Deployments} (hab : a.le b = true) (hbc : b.le c = true) : a.le c = true := by
  have htrans : ∀ x y z : Bool, (!x || y) = true → (!y || z) = true → (!x || z) = true := by decide
  simp only [Deployments.le, Bool.and_eq_true, and_assoc] at hab hbc ⊢
  exact ⟨htrans _ _ _ hab.1 hbc.1, htrans _ _ _ hab.2.1 hbc.2.1, htrans _ _ _ hab.2.2.1 hbc.2.2.1,
    htrans _ _ _ hab.2.2.2.1 hbc.2.2.2.1, htrans _ _ _ hab.2.2.2.2.1 hbc.2.2.2.2.1,
    htrans _ _ _ hab.2.2.2.2.2 hbc.2.2.2.2.2⟩

theorem Deployments.le_refl (a : Deployments) : a.le a = true := by
  simp [Deployments.le]

theorem Steady.mono {dep' : Deployments} {s : Bytes} (h : Steady cfg dep s) (hdep : dep.le dep' = true) :
    Steady cfg dep' s := by
  intro hs
  obtain ⟨data, hdata⟩ := h hs
  exact ⟨data, fun dep'' hle => hdata dep'' (Deployments.le_trans hdep hle)⟩

/-! ## Accepted outputs -/

theorem exists_transfer_of_checkTransaction {tx : CTransaction} {dup mempool block : Bool}
    (h : checkTransaction cfg tx dup mempool block = .ok ()) {out : CTxOut} (hout : out ∈ tx.vout) {start : Nat}
    (hs : isAssetScript out.scriptPubKey = some ⟨.TX_TRANSFER_ASSET, false, start⟩) :
    ∃ p, transferAssetFromScript cfg out.scriptPubKey = some p ∧ isAssetNameValid p.1.strName = true := by
  obtain ⟨scan, -, hscan, -⟩ := checkTransaction_ok h
  obtain ⟨st, st', hstep⟩ := foldlM_step_of_mem hout hscan
  simp only [checkOutput, bind_eq_ok] at hstep
  obtain ⟨-, -, st₂, -, hasset⟩ := hstep
  simp only [checkOutputAsset, hs, checkTransferOutput, bind_eq_ok, exists_punit, demand_eq_ok, require_eq_ok,
    Prod.exists] at hasset
  obtain ⟨transfer, address, hparse, hvalid, -⟩ := hasset
  exact ⟨(transfer, address), hparse, hvalid⟩

theorem steady_of_checkTransaction {tx : CTransaction} {dup mempool block : Bool}
    (h : checkTransaction cfg tx dup mempool block = .ok ()) {out : CTxOut} (hout : out ∈ tx.vout) :
    Steady cfg cfg.dep out.scriptPubKey := by
  intro hs
  obtain ⟨⟨nType, fIsOwner, start⟩, hs⟩ := Option.isSome_iff_exists.mp hs
  have hdecodes := decodes_of_creation (creation_of_checkTransaction h)
  rcases isAssetScript_cases hs with ⟨rfl, rfl⟩ | ⟨rfl, rfl⟩ | ⟨rfl, rfl⟩ | ⟨rfl, rfl⟩
  · obtain ⟨p, hparse, hvalid⟩ := exists_transfer_of_checkTransaction h hout hs
    refine ⟨⟨.TX_TRANSFER_ASSET, p.1.strName, p.1.nAmount, p.2⟩, fun dep hdep => ?_⟩
    rw [getAssetData_of_transfer hs, transferAssetFromScript_of_le hparse hvalid hdep]
    rfl
  · obtain ⟨p, hp⟩ := hdecodes.issue out hout (by simp [isScriptNewAsset, payloadStart_eq_some.mpr hs])
    have hp' : ∀ dep, assetFromScript { cfg with dep := dep } out.scriptPubKey = some p := fun dep => hp
    exact ⟨_, fun dep _ => by simp [getAssetData, hs, hp' dep]; rfl⟩
  · obtain ⟨p, hp⟩ := hdecodes.owner out hout (by simp [isScriptOwnerAsset, payloadStart_eq_some.mpr hs])
    have hp' : ∀ dep, ownerAssetFromScript { cfg with dep := dep } out.scriptPubKey = some p := fun dep => hp
    exact ⟨_, fun dep _ => by simp [getAssetData, hs, hp' dep]; rfl⟩
  · obtain ⟨p, hp⟩ := hdecodes.reissue out hout (by simp [isScriptReissueAsset, payloadStart_eq_some.mpr hs])
    have hp' : ∀ dep, reissueAssetFromScript { cfg with dep := dep } out.scriptPubKey = some p := fun dep => hp
    exact ⟨_, fun dep _ => by simp [getAssetData, hs, hp' dep]; rfl⟩

/-! ## Coins -/

/-- Every coin of a set has a script with a property. -/
def Coins.All (P : Bytes → Prop) (coins : Coins) : Prop :=
  ∀ (out : COutPoint) coin, coins[out]? = some coin → P coin.out.scriptPubKey

section Coins

variable {P : Bytes → Prop} {g : AssetGlobals}

theorem Coins.All.addOutputs {coins : Coins} (h : coins.All P) {tx : CTransaction}
    (htx : ∀ out ∈ tx.vout, P out.scriptPubKey) (nHeight : Nat) : (coins.addOutputs tx nHeight).All P := by
  intro out coin hcoin
  rw [getElem?_addOutputs] at hcoin
  split at hcoin
  · next txout htxout =>
    split_ifs at htxout
    split_ifs at hcoin
    · exact h out coin hcoin
    · cases hcoin
      exact htx txout (List.mem_of_getElem? htxout)
  · exact h out coin hcoin

theorem Coins.All.spends {coins coins' : Coins} {cache cache' : CAssetsCache} {tx : CTransaction} {spent : List Coin}
    (h : coins.All P) (hspends : Spends cfg tx coins cache coins' cache' spent) :
    coins'.All P ∧ ∀ coin ∈ spent, P coin.out.scriptPubKey := by
  constructor
  · intro out coin hcoin
    rw [hspends.left] at hcoin
    split_ifs at hcoin
    exact h out coin hcoin
  · intro coin hcoin
    have hmem : some coin ∈ spent.map some := List.mem_map_of_mem hcoin
    rw [← hspends.found] at hmem
    obtain ⟨txin, -, htxin⟩ := List.mem_map.mp hmem
    exact h txin.prevout coin htxin

/-- The coins and the undo data of a block under way. -/
def ConnectState.All (P : Bytes → Prop) (st : ConnectState) : Prop :=
  st.coins.All P ∧ ∀ spent ∈ st.vtxundo, ∀ coin ∈ spent, P coin.out.scriptPubKey

theorem ConnectState.All.connectTx {nHeight : Nat} {blockHash : Uint256} {st st' : ConnectState} {tx : CTransaction}
    (h : st.All P) (htx : ∀ out ∈ tx.vout, P out.scriptPubKey) (hnodup : (tx.vin.map CTxIn.prevout).Nodup)
    (hconnect : connectTx cfg g nHeight blockHash st tx = .ok st') : st'.All P := by
  obtain ⟨-, coins, cache, spent, undo, hspends, hcoins, -, hundo, -⟩ := connectTx_ok hnodup hconnect
  split_ifs at hspends hundo with hcoinbase
  · obtain ⟨rfl, -, -⟩ := hspends
    exact ⟨hcoins ▸ h.1.addOutputs htx nHeight, hundo ▸ h.2⟩
  · obtain ⟨hleft, hspent⟩ := h.1.spends hspends
    refine ⟨hcoins ▸ hleft.addOutputs htx nHeight, fun l hl coin hcoin => ?_⟩
    rw [hundo] at hl
    rcases List.mem_append.mp hl with hl | hl
    · exact h.2 l hl coin hcoin
    · rw [List.mem_singleton.mp hl] at hcoin
      exact hspent coin hcoin

theorem DisconnectState.all_of_disconnectTx {nHeight : Nat} {vUndoData : List (Bytes × CBlockAssetUndo)}
    {st st' : DisconnectState} {item : CTransaction × Option (List Coin)} (h : st.coins.All P)
    (hitem : ∀ spent ∈ item.2, ∀ coin ∈ spent, P coin.out.scriptPubKey)
    (hstep : disconnectTx cfg g nHeight vUndoData st item = some st') : st'.coins.All P := by
  obtain ⟨tx, txundo⟩ := item
  simp only [disconnectTx, Option.bind_eq_bind, Option.bind_eq_some_iff] at hstep
  obtain ⟨cache, -, hstep⟩ := hstep
  have hunspent : ((Coins.outputsOf tx).foldl (unspendOutput cfg g nHeight tx) st).coins.All P := by
    refine List.foldlRecOn (motive := fun s : DisconnectState => s.coins.All P) _ _ h fun s hs out _ => ?_
    unfold unspendOutput
    split_ifs
    · exact hs
    · intro j coin hcoin
      rw [getElem?_erase_eq] at hcoin
      split_ifs at hcoin
      exact hs j coin hcoin
  split at hstep
  · cases hstep
    exact hunspent
  · next vprevout =>
    split_ifs at hstep
    refine foldlM_some_invariant (fun s : DisconnectState => s.coins.All P) (fun s s' input hinput hs happly => ?_)
      (s := ⟨_, cache, _⟩) hunspent hstep
    simp only [applyTxInUndo, Option.bind_eq_bind, Option.bind_eq_some_iff] at happly
    obtain ⟨coin, hcomplete, happly⟩ := happly
    cases happly
    have hscript : coin.out = input.2.out := by
      unfold completeUndo at hcomplete
      split_ifs at hcomplete
      · obtain ⟨alternate, -, rfl⟩ := Option.map_eq_some_iff.mp hcomplete
        rfl
      · cases hcomplete
        rfl
    intro j c hc
    rw [getElem?_addCoin] at hc
    split_ifs at hc
    · cases hc
      rw [hscript]
      exact hitem vprevout rfl input.2 (List.of_mem_zip (List.mem_reverse.mp hinput)).2
    · exact hs j c hc

end Coins

/-! ## Runs -/

/-- The coins and the stored undo data of a node carry scripts with a property. -/
structure Node.All (P : Bytes → Prop) (node : Node) : Prop where
  coins : node.coins.All P
  undo : ∀ (hash : Uint256) vtxundo, node.undo[hash]? = some vtxundo →
    ∀ spent ∈ vtxundo, ∀ coin ∈ spent, P coin.out.scriptPubKey

theorem ConnectState.steady_of_connectTx {g : AssetGlobals} {nHeight : Nat} {blockHash : Uint256}
    {st st' : ConnectState} {tx : CTransaction} (h : st.All (Steady cfg cfg.dep))
    (htx : checkTransaction cfg tx true false true = .ok ())
    (hconnect : connectTx cfg g nHeight blockHash st tx = .ok st') : st'.All (Steady cfg cfg.dep) :=
  h.connectTx (fun _ hout => steady_of_checkTransaction htx hout) (nodup_of_checkTransaction htx) hconnect

theorem Node.all_of_connectTip {node' : Node} {block : CBlock} (h : node.All (Steady cfg node.dep))
    (hconnect : node.connectTip cfg block = .ok node') : node'.All (Steady cfg node'.dep) := by
  simp only [Node.connectTip, bind_eq_ok, pure_eq_ok] at hconnect
  obtain ⟨st, hblock, rfl⟩ := hconnect
  obtain ⟨hcheck, hfold, -⟩ := connectBlock_ok hblock
  obtain ⟨coinbase, rest, -, -, -, htxs⟩ := checkBlock_ok hcheck
  have hst : st.All (Steady (node.config cfg) node.dep) := by
    refine foldlM_invariant (fun s : ConnectState => s.All (Steady (node.config cfg) node.dep)) (fun s s' tx htx hs hstep => ?_)
      (s := ⟨node.coins, .empty, 0, [], []⟩) ⟨h.coins, by rintro _ ⟨⟩⟩ hfold
    exact ConnectState.steady_of_connectTx hs (htxs tx htx) hstep
  refine ⟨hst.1, fun hash vtxundo hundo => ?_⟩
  simp only at hundo
  split_ifs at hundo with hfirst
  · rw [getElem?_insert_eq] at hundo
    split_ifs at hundo
    · cases hundo
      exact hst.2
    · exact h.undo hash vtxundo hundo
  · exact h.undo hash vtxundo hundo

theorem Node.all_of_disconnectTip {P : Bytes → Prop} {node' : Node} (h : node.All P)
    (hdisconnect : node.disconnectTip cfg = some node') : node'.All P := by
  obtain ⟨block, rest, st, vtxundo, -, hundo, hblock, -, rfl⟩ := disconnectTip_eq_some hdisconnect
  refine ⟨?_, h.undo⟩
  unfold disconnectBlock at hblock
  split_ifs at hblock
  refine foldlM_some_invariant (fun s : DisconnectState => s.coins.All P) (fun s s' item hitem hs hstep => ?_)
    (s := ⟨node.coins, .empty, true⟩) h.coins hblock
  refine DisconnectState.all_of_disconnectTx hs (fun spent hspent => ?_) hstep
  have hmem := (List.of_mem_zip (List.mem_reverse.mp hitem)).2
  rw [Option.mem_def.mp hspent] at hmem
  exact h.undo block.hash vtxundo hundo spent (by simpa using hmem)

theorem Node.all_steady_of_run {actions : List Node.Action}
    (hrun : (Node.genesis dep).run cfg actions = some node) : node.All (Steady cfg node.dep) := by
  refine run_invariant (I := fun node : Node => node.All (Steady cfg node.dep)) (P := fun _ _ => True)
    (fun s a s' hs _ hstep => ?_) ⟨fun out coin h => ?_, fun hash vtxundo h => ?_⟩ ?_ hrun
  · cases a with
    | connect block => exact Node.all_of_connectTip hs (step_connect hstep)
    | disconnect =>
      have hall := Node.all_of_disconnectTip hs hstep
      rwa [dep_of_step (by simp) hstep]
    | dump =>
      cases hstep
      split_ifs
      · exact ⟨hs.coins, hs.undo⟩
      · exact hs
    | touch t =>
      cases hstep
      exact ⟨hs.coins, hs.undo⟩
    | activate dep' =>
      simp only [Node.step] at hstep
      split_ifs at hstep with hle
      cases hstep
      exact ⟨fun out coin h => (hs.coins out coin h).mono hle,
        fun hash vtxundo h spent hspent coin hcoin => (hs.undo hash vtxundo h spent hspent coin hcoin).mono hle⟩
  · simp [Node.genesis] at h
  · simp [Node.genesis] at h
  · exact along_of_invariant (I := fun _ => True) (fun _ _ _ _ _ _ => trivial) (fun _ _ _ _ => trivial) trivial

/-- **Readable coins.** In every run an unspent asset coin has one reading, under the flags that are active and under
all that may follow. -/
theorem coin_read_alike {actions : List Node.Action}
    (hrun : (Node.genesis dep).run cfg actions = some node) {out : COutPoint} {coin : Coin}
    (hcoin : node.coins[out]? = some coin) (hasset : (isAssetScript coin.out.scriptPubKey).isSome = true) :
    ∃ data, ∀ dep', node.dep.le dep' = true → getAssetData { cfg with dep := dep' } coin.out.scriptPubKey = some data :=
  (Node.all_steady_of_run hrun).coins out coin hcoin hasset

/-- Alice sends `ABC` to Bob before the size of a transfer script is checked. -/
def earlyTransfer : List Node.Action :=
  maturedChain ++ [.connect abcIssueBlock, .connect ⟨102, [coinbaseAt 102,
    ⟨[⟨⟨2001, 2⟩, []⟩, ⟨⟨1002, 0⟩, []⟩], [transferOut bobKeyID (str "ABC") (1000 * COIN)], 2002⟩]⟩]

theorem earlyTransfer_read_alike :
    ∃ node, (Node.genesis ⟨true, true, true, false, false, false⟩).run mainAll earlyTransfer = some node ∧
      node.dep.transferScriptsSize = false ∧ ∃ data, ∀ dep, node.dep.le dep = true →
        getAssetData (mainConfig dep) (transferOut bobKeyID (str "ABC") (1000 * COIN)).scriptPubKey = some data := by
  have h : (((Node.genesis ⟨true, true, true, false, false, false⟩).run mainAll earlyTransfer).bind fun node =>
      node.coins[(⟨2002, 0⟩ : COutPoint)]?.map fun coin => (coin, node.dep.transferScriptsSize)) =
      some (⟨transferOut bobKeyID (str "ABC") (1000 * COIN), false, 102⟩, false) := by decide +kernel
  obtain ⟨node, hrun, hmap⟩ := Option.bind_eq_some_iff.mp h
  obtain ⟨coin, hcoin, heq⟩ := Option.map_eq_some_iff.mp hmap
  obtain ⟨rfl, hdep⟩ := Prod.mk.inj heq
  exact ⟨node, hrun, hdep, coin_read_alike hrun hcoin (by decide +kernel)⟩

end HempCore
