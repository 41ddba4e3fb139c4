import HempCore.Analysis.ReadableCoins
import HempCore.Model.MessageScan

/-!
# Scanning a block again

Connecting a block and scanning it again read the senders of its messages from different places, the
coins and the undo data, and the outputs with different code. Both find the same messages, under the
flags of the time the block was connected and under all later ones.
-/

set_option autoImplicit false

namespace HempCore

open Lib

variable {cfg : Config} {t : Int}

/-! ## What one transaction carries -/

/-- The message of an output, given the addresses of the inputs. -/
def carriedMessage (cfg : Config) (t : Int) (addresses : InputAddresses) (out : COutPoint × CTxOut) :
    Option CMessage :=
  match transferAssetFromScript cfg out.2.scriptPubKey with
  | some (transfer, address) =>
    if (isAssetNameAnOwner transfer.strName = true ∨ isAssetNameAnMsgChannel transfer.strName = true) ∧
        transfer.message.isEmpty = false ∧ (transfer.nExpireTime = 0 ∨ t < transfer.nExpireTime) ∧
        addresses[transfer.strName]? = some address then
      some (.make out.1 transfer.strName transfer.message transfer.nExpireTime t)
    else none
  | none => none

/-- The messages of a transaction that spends the given coins. -/
def messagesIn (cfg : Config) (t : Int) (p : CTransaction × List Coin) : List CMessage :=
  (Coins.outputsOf p.1).filterMap (carriedMessage cfg t (p.2.foldl (addInputAddress cfg) ∅))

theorem out_of_carriedMessage {addresses : InputAddresses} {out : COutPoint × CTxOut} {m : CMessage}
    (h : carriedMessage cfg t addresses out = some m) : m.out = out.1 := by
  unfold carriedMessage at h
  split at h
  · split_ifs at h
    cases h
    rfl
  · cases h

theorem carriedMessage_empty (out : COutPoint × CTxOut) : carriedMessage cfg t ∅ out = none := by
  unfold carriedMessage
  split
  · simp
  · rfl

theorem collectMessage_eq (hmessages : cfg.dep.messages = true) (addresses : InputAddresses)
    (setMessages : MessageSet) (out : COutPoint × CTxOut) :
    collectMessage cfg true t t addresses setMessages out =
      (carriedMessage cfg t addresses out).elim setMessages fun m => setMessages.insertIfNew m.out m := by
  unfold collectMessage carriedMessage
  cases transferAssetFromScript cfg out.2.scriptPubKey with
  | none => rfl
  | some p =>
    simp only [hmessages, Bool.true_and, Bool.and_eq_true, Bool.or_eq_true, Bool.not_eq_true', beq_iff_eq,
      decide_eq_true_eq, and_assoc]
    split_ifs <;> rfl

def MessageSet.addAll (setMessages : MessageSet) (messages : List CMessage) : MessageSet :=
  messages.foldl (fun s m => s.insertIfNew m.out m) setMessages

theorem collectMessages_eq (hmessages : cfg.dep.messages = true) {coins : Coins} {tx : CTransaction}
    {spent : List Coin} (hfound : tx.vin.map (fun txin => coins[txin.prevout]?) = spent.map some)
    (setMessages : MessageSet) :
    collectMessages cfg true t t coins.view tx setMessages = setMessages.addAll (messagesIn cfg t (tx, spent)) := by
  have haddresses : viewAddresses cfg coins.view tx = spent.foldl (addInputAddress cfg) ∅ := by
    have hfold : viewAddresses cfg coins.view tx =
        (tx.vin.map fun txin => coins[txin.prevout]?).foldl
          (fun addresses coin => coin.elim addresses (addInputAddress cfg addresses)) ∅ := by
      rw [List.foldl_map]
      unfold viewAddresses
      congr 1
      funext addresses txin
      simp only [Coins.view]
      cases coins[txin.prevout]? <;> rfl
    rw [hfold, hfound, List.foldl_map]
    rfl
  unfold collectMessages MessageSet.addAll messagesIn
  rw [haddresses]
  induction Coins.outputsOf tx generalizing setMessages with
  | nil => rfl
  | cons out rest ih =>
    rw [List.foldl_cons, ih, collectMessage_eq hmessages, List.filterMap_cons]
    cases carriedMessage cfg t (spent.foldl (addInputAddress cfg) ∅) out <;> rfl

/-! ## Reading it back -/

/-- What the undo data of an accepted transaction are like. -/
structure Undoable (cfg : Config) (p : CTransaction × List Coin) : Prop where
  length : p.2.length = p.1.vin.length
  unspent : ∀ coin ∈ p.2, coin.isSpent = false
  steady : ∀ coin ∈ p.2, Steady cfg cfg.dep coin.out.scriptPubKey

section Later

variable {dep : Deployments} {nHeight txi : Nat}

theorem extractAddress_eq (hdep : cfg.dep.le dep = true) (hmessages : cfg.dep.messages = true) {coin : Coin}
    (hunspent : coin.isSpent = false) (hsteady : Steady cfg cfg.dep coin.out.scriptPubKey)
    (addresses : InputAddresses) (i : Nat) :
    extractAddress { cfg with dep := dep } nHeight txi addresses (coin, i) = .ok (addInputAddress cfg addresses coin) := by
  unfold extractAddress addInputAddress
  by_cases hs : (isAssetScript coin.out.scriptPubKey).isSome = true
  · obtain ⟨data, hdata⟩ := hsteady hs
    have hnow : getAssetData cfg coin.out.scriptPubKey = some data := hdata cfg.dep (Deployments.le_refl _)
    obtain ⟨a, ha⟩ := Option.isSome_iff_exists.mp hs
    simp [hunspent, ha, hdata dep hdep, hnow, hmessages, pure, Except.pure]
  · have hnone : isAssetScript coin.out.scriptPubKey = none := by simpa using hs
    have hdata : getAssetData cfg coin.out.scriptPubKey = none := by simp [getAssetData, hnone]
    simp [hunspent, hnone, hdata, pure, Except.pure]

theorem undoAddresses_eq (hdep : cfg.dep.le dep = true) (hmessages : cfg.dep.messages = true) {tx : CTransaction}
    {spent : List Coin} (h : Undoable cfg (tx, spent)) :
    undoAddresses { cfg with dep := dep } nHeight txi tx (some spent) = .ok (spent.foldl (addInputAddress cfg) ∅) := by
  unfold undoAddresses
  have hlen : spent.length = tx.vin.length := h.length
  simp only [hlen, ne_eq, not_true_eq_false, if_false]
  suffices hloop : ∀ (l : List Coin) (k : Nat) (addresses : InputAddresses), (∀ coin ∈ l, coin ∈ spent) →
      (l.zipIdx k).foldlM (extractAddress { cfg with dep := dep } nHeight txi) addresses =
        .ok (l.foldl (addInputAddress cfg) addresses) from hloop spent 0 ∅ fun _ hcoin => hcoin
  intro l
  induction l with
  | nil => intros; rfl
  | cons coin rest ih =>
    intro k addresses hsub
    have hcoin := hsub coin List.mem_cons_self
    rw [List.zipIdx_cons, List.foldlM_cons, extractAddress_eq hdep hmessages (h.unspent coin hcoin) (h.steady coin hcoin)]
    exact ih (k + 1) _ fun c hc => hsub c (List.mem_cons_of_mem coin hc)

def CMessage.atHeight (nHeight : Nat) (m : CMessage) : CMessage := { m with nBlockHeight := nHeight }

theorem extractOutput_eq (hdep : cfg.dep.le dep = true) {tx : CTransaction} {dup mempool block : Bool}
    (hcheck : checkTransaction cfg tx dup mempool block = .ok ()) {out : COutPoint × CTxOut}
    (hout : out ∈ Coins.outputsOf tx) (addresses : InputAddresses) (vMessages : List CMessage) :
    extractOutput { cfg with dep := dep } nHeight txi t addresses vMessages out =
      .ok (vMessages ++ (carriedMessage cfg t addresses out).toList.map (CMessage.atHeight nHeight)) := by
  unfold extractOutput carriedMessage
  by_cases hs : (isAssetScript out.2.scriptPubKey).map AssetScript.nType = some .TX_TRANSFER_ASSET
  · rw [if_pos hs]
    obtain ⟨⟨nType, fIsOwner, start⟩, hscript, hnType⟩ := Option.map_eq_some_iff.mp hs
    have hscript' : isAssetScript out.2.scriptPubKey = some ⟨.TX_TRANSFER_ASSET, false, start⟩ := by
      rcases isAssetScript_cases hscript with ⟨rfl, rfl⟩ | ⟨rfl, rfl⟩ | ⟨rfl, rfl⟩ | ⟨rfl, rfl⟩ <;>
        first | exact hscript | cases hnType
    obtain ⟨p, hparse, hvalid⟩ := exists_transfer_of_checkTransaction hcheck
      (List.mem_of_getElem? ((mem_outputsOf tx).mp hout).2) hscript'
    rw [transferAssetFromScript_of_le hparse hvalid hdep, hparse]
    simp only
    have hexpired : (p.1.nExpireTime = 0 ∨ t < p.1.nExpireTime) ↔ ¬ (p.1.nExpireTime ≠ 0 ∧ p.1.nExpireTime ≤ t) := by
      omega
    simp only [hexpired]
    split_ifs <;> simp_all [CMessage.atHeight, pure, Except.pure]
  · rw [if_neg hs]
    have hparse : transferAssetFromScript cfg out.2.scriptPubKey = none := by
      have hstart : payloadStart .TX_TRANSFER_ASSET false out.2.scriptPubKey = none := by
        rw [Option.eq_none_iff_forall_ne_some]
        intro start hstart
        exact hs (by rw [payloadStart_eq_some.mp hstart]; rfl)
      simp [transferAssetFromScript, hstart]
    rw [hparse]
    simp [pure, Except.pure]

theorem extractOutputs_eq (hdep : cfg.dep.le dep = true) {tx : CTransaction} {dup mempool block : Bool}
    (hcheck : checkTransaction cfg tx dup mempool block = .ok ()) (addresses : InputAddresses)
    (vMessages : List CMessage) :
    (Coins.outputsOf tx).foldlM (extractOutput { cfg with dep := dep } nHeight txi t addresses) vMessages =
      .ok (vMessages ++ ((Coins.outputsOf tx).filterMap (carriedMessage cfg t addresses)).map (CMessage.atHeight nHeight)) := by
  suffices hloop : ∀ (l : List (COutPoint × CTxOut)) (v : List CMessage), (∀ out ∈ l, out ∈ Coins.outputsOf tx) →
      l.foldlM (extractOutput { cfg with dep := dep } nHeight txi t addresses) v =
        .ok (v ++ (l.filterMap (carriedMessage cfg t addresses)).map (CMessage.atHeight nHeight)) from
    hloop _ _ fun _ hout => hout
  intro l
  induction l with
  | nil => intro v _; simp [pure, Except.pure]
  | cons out rest ih =>
    intro v hsub
    rw [List.foldlM_cons, extractOutput_eq hdep hcheck (hsub out List.mem_cons_self)]
    show rest.foldlM _ _ = _
    rw [ih _ fun o ho => hsub o (List.mem_cons_of_mem out ho), List.filterMap_cons]
    cases carriedMessage cfg t addresses out <;> simp

theorem extractTxs_eq (hdep : cfg.dep.le dep = true) (hmessages : cfg.dep.messages = true) {l : List CTransaction}
    {undos : List (List Coin)} (hcheck : ∀ tx ∈ l, checkTransaction cfg tx true false true = .ok ())
    (hundo : ∀ p ∈ l.zip undos, Undoable cfg p) (k : Nat) (vMessages : List CMessage) :
    ((l.zip (undos.map some)).zipIdx k).foldlM (extractTx { cfg with dep := dep } nHeight t) vMessages =
      .ok (vMessages ++ ((l.zip undos).flatMap (messagesIn cfg t)).map (CMessage.atHeight nHeight)) := by
  induction l generalizing undos k vMessages with
  | nil => simp [pure, Except.pure]
  | cons tx rest ih =>
    cases undos with
    | nil => simp [pure, Except.pure]
    | cons spent undos =>
      have haddresses : undoAddresses { cfg with dep := dep } nHeight k tx (some spent) =
          .ok (spent.foldl (addInputAddress cfg) ∅) := undoAddresses_eq hdep hmessages (hundo (tx, spent) (by simp))
      rw [List.map_cons, List.zip_cons_cons, List.zipIdx_cons, List.foldlM_cons]
      simp only [extractTx, haddresses]
      show Except.bind ((Coins.outputsOf tx).foldlM _ vMessages) _ = _
      rw [extractOutputs_eq hdep (hcheck tx List.mem_cons_self)]
      show ((rest.zip (undos.map some)).zipIdx (k + 1)).foldlM _ _ = _
      rw [ih (fun tx' h => hcheck tx' (List.mem_cons_of_mem tx h))
        (fun p hp => hundo p (by rw [List.zip_cons_cons]; exact List.mem_cons_of_mem _ hp))]
      simp [messagesIn]

end Later

/-! ## The two scans of a block -/

section Block

variable {g : AssetGlobals} {nHeight : Nat} {blockHash : Uint256} {tx : CTransaction} {st st' : ConnectState}

theorem unspent_of_checkTxInputs {coins : Coins} {fee : Int}
    (h : checkTxInputs cfg tx coins.view nHeight = .ok fee) {txin : CTxIn} (htxin : txin ∈ tx.vin) {coin : Coin}
    (hcoin : coins[txin.prevout]? = some coin) : coin.isSpent = false := by
  simp only [checkTxInputs, bind_eq_ok, exists_punit] at h
  obtain ⟨-, nValueIn, hin, -⟩ := h
  obtain ⟨s, s', hstep⟩ := foldlM_step_of_mem htxin hin
  simp only [checkTxInput, Coins.view, hcoin, bind_eq_ok, exists_punit, demand_eq_ok, require_eq_ok,
    Option.some.injEq, exists_eq_left', Bool.and_eq_true] at hstep
  obtain ⟨-, ⟨hrange, -⟩, -⟩ := hstep
  simp only [moneyRange, Bool.and_eq_true, decide_eq_true_eq] at hrange
  simp only [Coin.isSpent, beq_eq_false_iff_ne]
  omega

theorem undoable_of_connectTx (hst : st.All (Steady cfg cfg.dep))
    (hcheck : checkTransaction cfg tx true false true = .ok ()) (hcoinbase : tx.isCoinBase = false)
    (h : connectTx cfg g nHeight blockHash st tx = .ok st') :
    ∃ spent, st'.vtxundo = st.vtxundo ++ [spent] ∧ Undoable cfg (tx, spent) ∧
      tx.vin.map (fun txin => st.coins[txin.prevout]?) = spent.map some ∧
      checkBlockTxAssets cfg g st tx = .ok () := by
  obtain ⟨hchecked, coins, cache, spent, undo, hspends, -, -, hundo, -⟩ := connectTx_ok (nodup_of_checkTransaction hcheck) h
  simp only [hcoinbase, Bool.false_eq_true, if_false] at hchecked hspends hundo
  obtain ⟨fee, hinputs, -⟩ := hchecked.inputs
  refine ⟨spent, hundo, ⟨?_, fun coin hcoin => ?_, (hst.1.spends hspends).2⟩, hspends.found, hchecked.assets⟩
  · simpa using (congrArg List.length hspends.found).symm
  · have hmem : some coin ∈ spent.map some := List.mem_map_of_mem hcoin
    rw [← hspends.found] at hmem
    obtain ⟨txin, htxin, hcoin⟩ := List.mem_map.mp hmem
    exact unspent_of_checkTxInputs hinputs htxin hcoin

theorem messagesIn_of_not_active (h : checkAssetsNotActive tx = .ok ()) (spent : List Coin) :
    messagesIn cfg t (tx, spent) = [] := by
  rw [messagesIn, List.filterMap_eq_nil_iff]
  intro out hout
  have hnone := forM_eq_ok.mp h out.2 (List.mem_of_getElem? ((mem_outputsOf tx).mp hout).2)
  simp only [bind_eq_ok, exists_punit, require_eq_ok, Option.isNone_iff_eq_none] at hnone
  simp [carriedMessage, transferAssetFromScript, payloadStart, hnone.1]

theorem connectTxMessages_ok (hmessages : cfg.dep.messages = true) {set set' : MessageSet}
    (hst : st.All (Steady cfg cfg.dep))
    (hcheck : checkTransaction cfg tx true false true = .ok ()) (hcoinbase : tx.isCoinBase = false)
    (h : connectTxMessages cfg g nHeight blockHash true t t (st, set) tx = .ok (st', set')) :
    connectTx cfg g nHeight blockHash st tx = .ok st' ∧
      ∃ spent, st'.vtxundo = st.vtxundo ++ [spent] ∧ Undoable cfg (tx, spent) ∧
        set' = set.addAll (messagesIn cfg t (tx, spent)) := by
  simp only [connectTxMessages, bind_eq_ok, pure_eq_ok, Prod.mk.injEq] at h
  obtain ⟨next, hconnect, rfl, hset⟩ := h
  obtain ⟨spent, hundo, hundoable, hfound, hassets⟩ := undoable_of_connectTx hst hcheck hcoinbase hconnect
  refine ⟨hconnect, spent, hundo, hundoable, ?_⟩
  rw [← hset, hcoinbase]
  unfold checkBlockTxAssets at hassets
  by_cases hactive : cfg.dep.assets = true
  · simp only [hactive, Bool.not_false, Bool.and_self, if_true]
    exact collectMessages_eq hmessages hfound set
  · rw [if_neg hactive] at hassets
    rw [messagesIn_of_not_active hassets]
    simp [hactive, MessageSet.addAll]

theorem connectTxsMessages_ok (hmessages : cfg.dep.messages = true) {l : List CTransaction}
    (hcheck : ∀ tx ∈ l, checkTransaction cfg tx true false true = .ok ())
    (hcoinbase : ∀ tx ∈ l, tx.isCoinBase = false) {set set' : MessageSet}
    (hst : st.All (Steady cfg cfg.dep))
    (h : l.foldlM (connectTxMessages cfg g nHeight blockHash true t t) (st, set) = .ok (st', set')) :
    l.foldlM (connectTx cfg g nHeight blockHash) st = .ok st' ∧
      ∃ undos, undos.length = l.length ∧ st'.vtxundo = st.vtxundo ++ undos ∧
        (∀ p ∈ l.zip undos, Undoable cfg p) ∧ set' = set.addAll ((l.zip undos).flatMap (messagesIn cfg t)) := by
  induction l generalizing st set with
  | nil =>
    rw [List.foldlM_nil, pure_eq_ok] at h
    cases h
    exact ⟨rfl, [], rfl, by simp, by simp, rfl⟩
  | cons tx rest ih =>
    rw [List.foldlM_cons, bind_eq_ok] at h
    obtain ⟨⟨st₁, set₁⟩, hstep, hrest⟩ := h
    obtain ⟨hconnect, spent, hundo, hundoable, rfl⟩ :=
      connectTxMessages_ok hmessages hst (hcheck tx List.mem_cons_self) (hcoinbase tx List.mem_cons_self) hstep
    have hst₁ := ConnectState.steady_of_connectTx hst (hcheck tx List.mem_cons_self) hconnect
    obtain ⟨hfold, undos, hlen, hundos, hall, rfl⟩ := ih (fun tx' htx' => hcheck tx' (List.mem_cons_of_mem tx htx'))
      (fun tx' htx' => hcoinbase tx' (List.mem_cons_of_mem tx htx')) hst₁ hrest
    refine ⟨?_, spent :: undos, by simp [hlen], by simp [hundos, hundo], ?_, ?_⟩
    · rw [List.foldlM_cons, hconnect]
      exact hfold
    · intro p hp
      rw [List.zip_cons_cons] at hp
      rcases List.mem_cons.mp hp with rfl | hp
      · exact hundoable
      · exact hall p hp
    · simp [MessageSet.addAll]

theorem connectBlockMessages_ok (hmessages : cfg.dep.messages = true) {coins : Coins}
    (hcoins : coins.All (Steady cfg cfg.dep)) {block : CBlock} {setMessages : MessageSet}
    (h : connectBlockMessages cfg g coins nHeight block true t t = .ok (st, setMessages)) :
    ∃ coinbase rest undos, block.vtx = coinbase :: rest ∧ (∀ tx ∈ block.vtx, checkTransaction cfg tx true false true = .ok ()) ∧
      st.vtxundo = undos ∧ undos.length = rest.length ∧ (∀ p ∈ rest.zip undos, Undoable cfg p) ∧
      setMessages = MessageSet.addAll ∅ ((rest.zip undos).flatMap (messagesIn cfg t)) := by
  simp only [connectBlockMessages, bind_eq_ok, pure_eq_ok, Prod.mk.injEq] at h
  obtain ⟨st₀, hblock, ⟨st₁, set₁⟩, hfold, rfl, rfl⟩ := h
  obtain ⟨hcheck, hconnect, -⟩ := connectBlock_ok hblock
  obtain ⟨coinbase, rest, hvtx, hfirst, hothers, hcheck⟩ := checkBlock_ok hcheck
  rw [hvtx, List.foldlM_cons, bind_eq_ok] at hfold hconnect
  obtain ⟨⟨sta, seta⟩, hcb, hfold⟩ := hfold
  obtain ⟨stb, hcb', hconnect⟩ := hconnect
  simp only [connectTxMessages, hfirst, Bool.not_true, Bool.false_and, Bool.false_eq_true, if_false, bind_eq_ok,
    pure_eq_ok, Prod.mk.injEq] at hcb
  obtain ⟨next, hnext, rfl, rfl⟩ := hcb
  cases hcb'.symm.trans hnext
  have hcheckcb := hcheck coinbase (by rw [hvtx]; exact List.mem_cons_self)
  have hstart : ConnectState.All (Steady cfg cfg.dep) ⟨coins, .empty, 0, [], []⟩ := ⟨hcoins, by rintro _ ⟨⟩⟩
  have hst := ConnectState.steady_of_connectTx hstart hcheckcb hnext
  obtain ⟨hfold', undos, hlen, hundos, hall, hset⟩ := connectTxsMessages_ok hmessages
    (fun tx htx => hcheck tx (by rw [hvtx]; exact List.mem_cons_of_mem _ htx)) hothers hst hfold
  cases hfold'.symm.trans hconnect
  obtain ⟨-, _, _, _, _, -, -, -, hempty, -⟩ := connectTx_ok (nodup_of_checkTransaction hcheckcb) hnext
  rw [hfirst, if_pos rfl] at hempty
  refine ⟨coinbase, rest, undos, hvtx, hcheck, ?_, hlen, hall, hset⟩
  rw [hundos, hempty]
  rfl

/-! ### One message for each outpoint -/

theorem MessageSet.getElem?_addAll (set : MessageSet) (messages : List CMessage) (out : COutPoint) :
    (set.addAll messages)[out]? = set[out]?.or (messages.find? fun m => m.out = out) := by
  unfold MessageSet.addAll
  induction messages generalizing set with
  | nil => simp
  | cons m rest ih =>
    rw [List.foldl_cons, ih, getElem?_insertIfNew_eq, List.find?_cons]
    by_cases hout : m.out = out
    · subst hout
      cases set[m.out]? <;> simp
    · simp [hout, Ne.symm hout]

theorem messages_injective {rest : List CTransaction} {undos : List (List Coin)} (hlen : undos.length = rest.length)
    (hids : (rest.map CTransaction.hash).Nodup) {m m' : CMessage} (hm : m ∈ (rest.zip undos).flatMap (messagesIn cfg t))
    (hm' : m' ∈ (rest.zip undos).flatMap (messagesIn cfg t)) (hout : m.out = m'.out) : m = m' := by
  obtain ⟨p, hp, hm⟩ := List.mem_flatMap.mp hm
  obtain ⟨p', hp', hm'⟩ := List.mem_flatMap.mp hm'
  obtain ⟨out, hmem, hcarried⟩ := List.mem_filterMap.mp hm
  obtain ⟨out', hmem', hcarried'⟩ := List.mem_filterMap.mp hm'
  have hsame : out.1 = out'.1 := (out_of_carriedMessage hcarried).symm.trans (hout.trans (out_of_carriedMessage hcarried'))
  obtain ⟨hhash, hvout⟩ := (mem_outputsOf p.1).mp hmem
  obtain ⟨hhash', hvout'⟩ := (mem_outputsOf p'.1).mp hmem'
  -- ids differ within a block, so the two outputs stand in one transaction
  have hnodup : ((rest.zip undos).map fun p => p.1.hash).Nodup := by
    have hmap : (rest.zip undos).map (fun p => p.1.hash) = rest.map CTransaction.hash := by
      show (rest.zip undos).map (CTransaction.hash ∘ Prod.fst) = _
      rw [← List.map_map, List.map_fst_zip (by omega)]
    rwa [hmap]
  have hpp : p = p' := List.inj_on_of_nodup_map hnodup hp hp' (by rw [← hhash, ← hhash', hsame])
  subst hpp
  have houts : out = out' := Prod.ext hsame (by
    rw [hsame] at hvout
    exact Option.some.inj (hvout.symm.trans hvout'))
  subst houts
  exact Option.some.inj (hcarried.symm.trans hcarried')

theorem mem_addAll_iff {messages : List CMessage} (hinj : ∀ m ∈ messages, ∀ m' ∈ messages, m.out = m'.out → m = m')
    (m : CMessage) : m ∈ messages ↔ (MessageSet.addAll ∅ messages)[m.out]? = some m := by
  rw [MessageSet.getElem?_addAll]
  simp only [Std.TreeMap.getElem?_emptyc, Option.none_or]
  constructor
  · intro hm
    obtain ⟨m', hfind⟩ := Option.isSome_iff_exists.mp
      (List.find?_isSome.mpr ⟨m, hm, by simp⟩ : (messages.find? fun m' => m'.out = m.out).isSome = true)
    have hout : m'.out = m.out := by simpa using List.find?_some hfind
    rw [hfind, hinj m hm m' (List.mem_of_find?_eq_some hfind) hout.symm]
  · exact fun h => List.mem_of_find?_eq_some h

theorem out_of_addAll {messages : List CMessage} {out : COutPoint} {m : CMessage}
    (h : (MessageSet.addAll ∅ messages)[out]? = some m) : m.out = out := by
  rw [MessageSet.getElem?_addAll] at h
  simp only [Std.TreeMap.getElem?_emptyc, Option.none_or] at h
  simpa using List.find?_some h

theorem extractMessagesFromBlock_eq (hmessages : cfg.dep.messages = true) {coins : Coins}
    (hcoins : coins.All (Steady cfg cfg.dep)) {block : CBlock} {setMessages : MessageSet}
    (h : connectBlockMessages cfg g coins nHeight block true t t = .ok (st, setMessages))
    (hids : (block.vtx.map CTransaction.hash).Nodup) {dep : Deployments} (hdep : cfg.dep.le dep = true) :
    ∃ messages : List CMessage, (∀ m, m ∈ messages ↔ setMessages[m.out]? = some m) ∧
      (∀ (out : COutPoint) m, setMessages[out]? = some m → m.out = out) ∧
      extractMessagesFromBlock { cfg with dep := dep } block nHeight t (some st.vtxundo) =
        .ok (messages.map (CMessage.atHeight nHeight)) := by
  obtain ⟨coinbase, rest, undos, hvtx, hcheck, rfl, hlen, hall, rfl⟩ := connectBlockMessages_ok hmessages hcoins h
  rw [hvtx, List.map_cons, List.nodup_cons] at hids
  refine ⟨(rest.zip st.vtxundo).flatMap (messagesIn cfg t),
    mem_addAll_iff fun m hm m' hm' => messages_injective hlen hids.2 hm hm', fun out m => out_of_addAll, ?_⟩
  rw [hvtx] at hcheck
  unfold extractMessagesFromBlock
  simp only [hvtx, List.length_cons, hlen, Nat.add_sub_cancel, ne_eq, not_true_eq_false, if_false,
    if_neg (show ¬ rest.length + 1 < 1 by omega)]
  rw [List.zip_cons_cons, List.zipIdx_cons, List.foldlM_cons]
  simp only [extractTx, undoAddresses]
  show Except.bind ((Coins.outputsOf coinbase).foldlM _ []) _ = _
  rw [extractOutputs_eq hdep (hcheck coinbase List.mem_cons_self), List.filterMap_eq_nil_iff.mpr
    fun out _ => carriedMessage_empty out]
  show ((rest.zip (st.vtxundo.map some)).zipIdx 1).foldlM _ _ = _
  rw [extractTxs_eq hdep hmessages (fun tx htx => hcheck tx (List.mem_cons_of_mem coinbase htx)) hall]
  simp

end Block

/-- Rescanning extracts what live indexing extracts: on every reachable node, the undo data of an accepted
block give, under the flags of any later time, the messages that connecting the block collects. -/
theorem rescan_extracts_collected {dep₀ : Deployments} {actions : List Node.Action} {node : Node}
    (hrun : (Node.genesis dep₀).run cfg actions = some node) (hmessages : node.dep.messages = true) (block : CBlock)
    (hids : (block.vtx.map CTransaction.hash).Nodup) (nBlockTime : Int) {st : ConnectState} {setMessages : MessageSet}
    (h : connectBlockMessages (node.config cfg) node.assets node.coins (node.height + 1) block true nBlockTime
      nBlockTime = .ok (st, setMessages)) {dep : Deployments} (hdep : node.dep.le dep = true) :
    ∃ vMessages, extractMessagesFromBlock { cfg with dep := dep } block (node.height + 1) nBlockTime
        (some st.vtxundo) = .ok vMessages ∧
      ∀ message, message ∈ vMessages ↔ ∃ (out : COutPoint) (collected : CMessage), setMessages[out]? = some collected ∧
        message = { collected with nBlockHeight := (node.height + 1 : Nat) } := by
  have hactive : (node.config cfg).dep.messages = true := hmessages
  obtain ⟨messages, hmem, hout, hextract⟩ :=
    extractMessagesFromBlock_eq hactive (Node.all_steady_of_run hrun).coins h hids hdep
  refine ⟨_, hextract, fun message => ?_⟩
  rw [List.mem_map]
  constructor
  · rintro ⟨m, hm, rfl⟩
    exact ⟨m.out, m, (hmem m).mp hm, rfl⟩
  · rintro ⟨out, m, hm, rfl⟩
    exact ⟨m, (hmem m).mpr (by rw [hout out m hm]; exact hm), rfl⟩

def newsHash : Bytes := List.replicate 32 7

/-- Alice, who issued `ABC`, sends its owner token to herself with a message. -/
def newsTx : CTransaction where
  vin := [⟨⟨2001, 1⟩, []⟩]
  vout := [⟨0, CAssetTransfer.constructTransaction ⟨str "ABC!", COIN, newsHash, 0⟩ (scriptForKeyID aliceKeyID)⟩]
  hash := 2002

def newsBlock : CBlock := ⟨102, [coinbaseAt 102, newsTx]⟩

theorem newsBlock_rescanned :
    ∃ node st setMessages, (Node.genesis .all).run mainAll abcIssueRun =
        some node ∧ node.dep = .all ∧ node.height = 101 ∧ (newsBlock.vtx.map CTransaction.hash).Nodup ∧
      connectBlockMessages (node.config mainAll) node.assets node.coins (node.height + 1) newsBlock true 1000
        1000 = .ok (st, setMessages) ∧
      setMessages[(⟨2002, 0⟩ : COutPoint)]? = some (.make ⟨2002, 0⟩ (str "ABC!") newsHash 0 1000) ∧
      ∃ vMessages, extractMessagesFromBlock mainAll newsBlock 102 1000 (some st.vtxundo) = .ok vMessages ∧
        ∀ message, message ∈ vMessages ↔ ∃ (out : COutPoint) (collected : CMessage),
          setMessages[out]? = some collected ∧ message = { collected with nBlockHeight := (102 : Nat) } := by
  have h : ((Node.genesis .all).run mainAll abcIssueRun).bind (fun node =>
      (connectBlockMessages (node.config mainAll) node.assets node.coins (node.height + 1) newsBlock true 1000
        1000).toOption.map fun p => (node.dep, node.height, p.2[(⟨2002, 0⟩ : COutPoint)]?)) =
      some (.all, 101, some (.make ⟨2002, 0⟩ (str "ABC!") newsHash 0 1000)) := by
    decide +kernel
  obtain ⟨node, hrun, hnode⟩ := Option.bind_eq_some_iff.mp h
  obtain ⟨⟨st, setMessages⟩, hconnect, hvalues⟩ := Option.map_eq_some_iff.mp hnode
  simp only [Prod.mk.injEq] at hvalues
  obtain ⟨hdep, hheight, hcollected⟩ := hvalues
  have hblock : connectBlockMessages (node.config mainAll) node.assets node.coins (node.height + 1) newsBlock
      true 1000 1000 = .ok (st, setMessages) := by
    revert hconnect
    cases connectBlockMessages (node.config mainAll) node.assets node.coins (node.height + 1) newsBlock true
      1000 1000 <;> simp [Except.toOption]
  have hids : (newsBlock.vtx.map CTransaction.hash).Nodup := by decide
  have hscan := rescan_extracts_collected hrun (by rw [hdep]; rfl) newsBlock hids 1000 hblock
    (show node.dep.le .all = true by rw [hdep]; rfl)
  rw [hheight] at hscan
  exact ⟨node, st, setMessages, hrun, hdep, hheight, hids, hblock, hcollected, hscan⟩

end HempCore
