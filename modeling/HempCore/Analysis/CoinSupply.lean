import HempCore.Analysis.BlockDisconnection

/-!
# The supply of coins

A transaction other than a coinbase creates no more value than it destroys, and what it destroys
beyond that is a fee; the coinbase creates at most the fees and the subsidy. Along a chain the
value of all unspent outputs is therefore bounded by the subsidies. An asset output counts as any
other output once values are enforced; before that the chain carries none.
-/

set_option autoImplicit false

namespace HempCore

open Lib

variable {cfg : Config} {g : AssetGlobals} {tx : CTransaction} {coins : Coins} {nHeight : Nat} {st : ConnectState}

/-! ## Values -/

def Coin.nValue (coin : Coin) : Int := coin.out.nValue

def Coins.totalValue (coins : Coins) : Int := mapSum Coin.nValue coins

def Coins.valueOf (coins : Coins) (txin : CTxIn) : Int := (coins[txin.prevout]?).elim 0 Coin.nValue

def ValuesInRange (coins : Coins) : Prop :=
  ∀ (out : COutPoint) coin, coins[out]? = some coin → moneyRange coin.nValue = true

/-- Every sum of values that is formed for a transaction is in the money range: of the first so many
inputs, of the first so many outputs, and the fee. A coinbase has no inputs to add. -/
structure TotalsInRange (coins : Coins) (tx : CTransaction) : Prop where
  inputs : tx.isCoinBase = false → ∀ k, moneyRange ((tx.vin.take k).map coins.valueOf).sum = true
  outputs : ∀ k, moneyRange ((tx.vout.take k).map CTxOut.nValue).sum = true
  fee : tx.isCoinBase = false →
    moneyRange ((tx.vin.map coins.valueOf).sum - (tx.vout.map CTxOut.nValue).sum) = true

/-! ## One transaction -/

theorem moneyRange_zero : moneyRange 0 = true := by decide

/-- Values are enforced, or the outputs carry no asset. -/
def ValuesCounted (cfg : Config) (tx : CTransaction) : Prop :=
  cfg.dep.enforcedValues = true ∨ ∀ out ∈ tx.vout, isAssetScript out.scriptPubKey = none

theorem getValueOut_ok (hcounted : ValuesCounted cfg tx) {value : Int}
    (h : tx.getValueOut cfg.dep.enforcedValues = .ok value) :
    value = (tx.vout.map CTxOut.nValue).sum ∧ ∀ k, moneyRange ((tx.vout.take k).map CTxOut.nValue).sum = true := by
  refine foldlM_boundedSum (R := fun s => moneyRange s = true) moneyRange_zero (fun s s' out hout hs => ?_) h
  have hall : (!cfg.dep.enforcedValues && (isAssetScript out.scriptPubKey).isSome) = false := by
    rcases hcounted with henforced | hnone
    · simp [henforced]
    · simp [hnone out hout]
  simp only [getValueOutStep, hall, Bool.false_eq_true, if_false, bind_eq_ok, exists_punit,
    require_eq_ok, Bool.and_eq_true, pure_eq_ok] at hs
  obtain ⟨⟨-, hrange⟩, rfl⟩ := hs
  exact ⟨rfl, hrange⟩

theorem checkTxInputs_ok {fee : Int}
    (hcounted : ValuesCounted cfg tx) (h : checkTxInputs cfg tx coins.view nHeight = .ok fee) :
    fee = (tx.vin.map coins.valueOf).sum - (tx.vout.map CTxOut.nValue).sum ∧ moneyRange fee = true ∧
      (∀ k, moneyRange ((tx.vin.take k).map coins.valueOf).sum = true) ∧
      ∀ k, moneyRange ((tx.vout.take k).map CTxOut.nValue).sum = true := by
  simp only [checkTxInputs, bind_eq_ok, exists_punit, require_eq_ok, decide_eq_true_eq, pure_eq_ok] at h
  obtain ⟨-, nValueIn, hin, value_out, hout, -, hfee, rfl⟩ := h
  obtain ⟨rfl, houtputs⟩ := getValueOut_ok hcounted hout
  have hinputs : nValueIn = (tx.vin.map coins.valueOf).sum ∧ ∀ k, moneyRange ((tx.vin.take k).map coins.valueOf).sum = true := by
    refine foldlM_boundedSum (R := fun s => moneyRange s = true) moneyRange_zero (fun s s' txin _ hs => ?_) hin
    simp only [checkTxInput, Coins.view, bind_eq_ok, exists_punit, demand_eq_ok, require_eq_ok,
      Bool.and_eq_true, pure_eq_ok] at hs
    obtain ⟨coin, hcoin, -, ⟨-, hrange⟩, rfl⟩ := hs
    exact ⟨by simp [Coins.valueOf, hcoin, Coin.nValue], hrange⟩
  obtain ⟨rfl, hprefixes⟩ := hinputs
  exact ⟨rfl, hfee, hprefixes, houtputs⟩

theorem outputs_inRange_of_checkTransaction {dup mempool block : Bool}
    (h : checkTransaction cfg tx dup mempool block = .ok ()) : ∀ out ∈ tx.vout, moneyRange out.nValue = true := by
  obtain ⟨scan, flags, hscan, -⟩ := checkTransaction_ok h
  intro out hout
  obtain ⟨t, t', hstep⟩ := foldlM_step_of_mem hout hscan
  simp only [checkOutput, checkOutputValue, bind_eq_ok, exists_punit, require_eq_ok, decide_eq_true_eq] at hstep
  obtain ⟨-, ⟨hnonneg, hle, -⟩, -⟩ := hstep
  exact moneyRange_iff.mpr ⟨hnonneg, hle⟩

section Connect

variable {blockHash : Uint256} {st' : ConnectState}

theorem Spends.sum_value {coins coins' : Coins} {cache cache' : CAssetsCache} {spent : List Coin}
    (h : Spends cfg tx coins cache coins' cache' spent) :
    coins'.totalValue = coins.totalValue - (tx.vin.map coins.valueOf).sum := by
  have hvalues : tx.vin.map coins.valueOf = spent.map Coin.nValue := by
    have hmap := congrArg (List.map fun o : Option Coin => o.elim 0 Coin.nValue) h.found
    rw [List.map_map, List.map_map] at hmap
    exact hmap
  rw [Coins.totalValue, h.sum, hvalues, Coins.totalValue]

theorem valuesInRange_addOutputs {coins : Coins} (hcoins : ValuesInRange coins)
    (houts : ∀ out ∈ tx.vout, moneyRange out.nValue = true) : ValuesInRange (coins.addOutputs tx nHeight) := by
  intro out coin hcoin
  rw [getElem?_addOutputs] at hcoin
  split at hcoin
  · next txout htxout =>
    split_ifs at htxout hcoin with hhash hunspendable
    · exact hcoins out coin hcoin
    · cases hcoin
      exact houts txout (List.mem_of_getElem? htxout)
  · exact hcoins out coin hcoin

variable (nHeight) in
theorem totalValue_addOutputs_le {coins : Coins} (hcoins : ValuesInRange coins)
    (houts : ∀ out ∈ tx.vout, moneyRange out.nValue = true) :
    (coins.addOutputs tx nHeight).totalValue ≤ coins.totalValue + (tx.vout.map CTxOut.nValue).sum :=
  mapSum_addOutputs_le tx (fun out coin h => (moneyRange_iff.mp (hcoins out coin h)).1)
    fun out hout => (moneyRange_iff.mp (houts out hout)).1

/-- What holds between the transactions of a block: no value is created beyond `bound`, counting
the fees that were taken. -/
structure ValueBound (bound : Int) (st : ConnectState) : Prop where
  values : ValuesInRange st.coins
  fees : moneyRange st.nFees = true
  total : st.coins.totalValue + st.nFees ≤ bound

section

variable (htx : checkTransaction cfg tx true false true = .ok ())
include htx

theorem valueBound_coinbase (hcoinbase : tx.isCoinBase = true)
    {bound : Int} (hst : ValueBound bound st) (h : connectTx cfg g nHeight blockHash st tx = .ok st') :
    ValueBound (bound + (tx.vout.map CTxOut.nValue).sum) st' := by
  have houts := outputs_inRange_of_checkTransaction htx
  obtain ⟨hfees, coins, cache, spent, undo, hspent, hcoins, -⟩ := connectTx_ok (nodup_of_checkTransaction htx) h
  rw [if_pos hcoinbase] at hfees hspent
  obtain ⟨rfl, -⟩ := hspent
  have hle := totalValue_addOutputs_le nHeight hst.values houts
  have htotal := hst.total
  refine ⟨hcoins ▸ valuesInRange_addOutputs hst.values houts, hfees ▸ hst.fees, ?_⟩
  rw [hcoins, hfees]
  omega

theorem valueBound_transaction
    (hcounted : ValuesCounted cfg tx) (hcoinbase : tx.isCoinBase = false) {bound : Int} (hst : ValueBound bound st)
    (h : connectTx cfg g nHeight blockHash st tx = .ok st') : ValueBound bound st' := by
  have houts := outputs_inRange_of_checkTransaction htx
  obtain ⟨hchecked, coins, cache, spent, undo, hspent, hcoins, -⟩ := connectTx_ok (nodup_of_checkTransaction htx) h
  rw [if_neg (by simp [hcoinbase])] at hchecked hspent
  obtain ⟨fee, hinputs, hfees, hrange⟩ := hchecked.inputs
  obtain ⟨hfee, -⟩ := checkTxInputs_ok hcounted hinputs
  have hvalues : ValuesInRange coins := by
    intro out coin hcoin
    rw [hspent.left] at hcoin
    split_ifs at hcoin
    exact hst.values out coin hcoin
  have hsum := hspent.sum_value
  have hle := totalValue_addOutputs_le nHeight hvalues houts
  have htotal := hst.total
  refine ⟨hcoins ▸ valuesInRange_addOutputs hvalues houts, hrange, ?_⟩
  rw [hcoins]
  omega

theorem totalsInRange_of_connectTx (hcounted : ValuesCounted cfg tx)
    (hvalue : tx.isCoinBase = true → ∃ paid, tx.getValueOut cfg.dep.enforcedValues = .ok paid)
    (h : connectTx cfg g nHeight blockHash st tx = .ok st') : TotalsInRange st.coins tx := by
  obtain ⟨hchecked, -⟩ := connectTx_ok (nodup_of_checkTransaction htx) h
  cases hcoinbase : tx.isCoinBase with
  | true =>
    obtain ⟨paid, hpaid⟩ := hvalue hcoinbase
    exact ⟨by simp [hcoinbase], (getValueOut_ok hcounted hpaid).2, by simp [hcoinbase]⟩
  | false =>
    rw [if_neg (by simp [hcoinbase])] at hchecked
    obtain ⟨fee, hinputs, -⟩ := hchecked.inputs
    obtain ⟨hfee, hrange, hin, hout⟩ := checkTxInputs_ok hcounted hinputs
    exact ⟨fun _ => hin, hout, fun _ => hfee ▸ hrange⟩

end

end Connect

/-! ## One block -/

def BlockValuesCounted (cfg : Config) (block : CBlock) : Prop :=
  ∀ tx ∈ block.vtx, ValuesCounted cfg tx

theorem totalValue_of_connectBlock {block : CBlock}
    (hcounted : BlockValuesCounted cfg block) (hcoins : ValuesInRange coins)
    (h : connectBlock cfg g coins nHeight block = .ok st) :
    ValuesInRange st.coins ∧ st.coins.totalValue ≤ coins.totalValue + getBlockSubsidy cfg nHeight := by
  obtain ⟨hcheck, hfold, hpaid⟩ := connectBlock_ok h
  obtain ⟨coinbase, rest, hvtx, hcoinbase, hrest, htxs⟩ := checkBlock_ok hcheck
  obtain ⟨paid, hvalue, hle⟩ := hpaid coinbase rest hvtx
  rw [BlockValuesCounted, hvtx] at hcounted
  rw [hvtx] at hfold htxs
  obtain ⟨hpaid, -⟩ := getValueOut_ok (hcounted coinbase List.mem_cons_self) hvalue
  rw [List.foldlM_cons, bind_eq_ok] at hfold
  obtain ⟨st₁, hfirst, hfold⟩ := hfold
  have hstart : ValueBound coins.totalValue ⟨coins, .empty, 0, [], []⟩ := ⟨hcoins, moneyRange_zero, by simp⟩
  have hone := valueBound_coinbase (htxs coinbase List.mem_cons_self) hcoinbase hstart hfirst
  have hend := foldlM_invariant (ValueBound (coins.totalValue + (coinbase.vout.map CTxOut.nValue).sum))
    (fun s s' tx hmem hs hstep => valueBound_transaction (htxs tx (List.mem_cons_of_mem _ hmem))
      (hcounted tx (List.mem_cons_of_mem _ hmem)) (hrest tx hmem) hs hstep) hone hfold
  refine ⟨hend.values, ?_⟩
  have htotal := hend.total
  omega

/-- Before every transaction of the block there is a state in which the sums formed for it, and
the fees with its own, are in the money range. -/
def BlockTotalsInRange (cfg : Config) (g : AssetGlobals) (coins : Coins) (nHeight : Nat)
    (block : CBlock) : Prop :=
  ∀ before tx after, block.vtx = before ++ tx :: after →
    ∃ st st', before.foldlM (connectTx cfg g nHeight block.hash) ⟨coins, .empty, 0, [], []⟩ = .ok st ∧
      connectTx cfg g nHeight block.hash st tx = .ok st' ∧
      TotalsInRange st.coins tx ∧ moneyRange st'.nFees = true

/-- A coinbase is only the first transaction, and what it pays is in range. -/
theorem coinbase_pays {block : CBlock} (h : connectBlock cfg g coins nHeight block = .ok st) (htx : tx ∈ block.vtx)
    (hcoinbase : tx.isCoinBase = true) : ∃ paid, tx.getValueOut cfg.dep.enforcedValues = .ok paid := by
  obtain ⟨hcheck, -, hpaid⟩ := connectBlock_ok h
  obtain ⟨coinbase, rest, hvtx, -, hrest, -⟩ := checkBlock_ok hcheck
  rw [hvtx, List.mem_cons] at htx
  rcases htx with rfl | htx
  · obtain ⟨paid, hvalue, -⟩ := hpaid tx rest hvtx
    exact ⟨paid, hvalue⟩
  · rw [hrest tx htx] at hcoinbase
    cases hcoinbase

theorem nFees_of_connectTx {blockHash : Uint256} {st' : ConnectState}
    (htx : checkTransaction cfg tx true false true = .ok ()) (hst : moneyRange st.nFees = true)
    (h : connectTx cfg g nHeight blockHash st tx = .ok st') : moneyRange st'.nFees = true := by
  obtain ⟨hchecked, -⟩ := connectTx_ok (nodup_of_checkTransaction htx) h
  split_ifs at hchecked
  · exact hchecked ▸ hst
  · obtain ⟨fee, -, -, hrange⟩ := hchecked.inputs
    exact hrange

theorem blockTotalsInRange_of_connectBlock {block : CBlock}
    (hcounted : BlockValuesCounted cfg block) (h : connectBlock cfg g coins nHeight block = .ok st) :
    BlockTotalsInRange cfg g coins nHeight block := by
  intro before tx after hvtx
  obtain ⟨hcheck, hfold, -⟩ := connectBlock_ok h
  obtain ⟨-, -, -, -, -, htxs⟩ := checkBlock_ok hcheck
  have hmem : tx ∈ block.vtx := by simp [hvtx]
  rw [hvtx, List.foldlM_append, bind_eq_ok] at hfold
  obtain ⟨st₁, hbefore, hfold⟩ := hfold
  rw [List.foldlM_cons, bind_eq_ok] at hfold
  obtain ⟨st₂, htx, -⟩ := hfold
  have hfees : moneyRange st₁.nFees = true :=
    foldlM_invariant (fun s : ConnectState => moneyRange s.nFees = true) (fun s s' tx' hmem' hs hstep =>
        nFees_of_connectTx (htxs tx' (by simp [hvtx, hmem'])) hs hstep) moneyRange_zero hbefore
  exact ⟨st₁, st₂, hbefore, htx, totalsInRange_of_connectTx (htxs tx hmem) (hcounted tx hmem) (coinbase_pays h hmem) htx,
    nFees_of_connectTx (htxs tx hmem) hfees htx⟩

/-! ## The subsidies -/

/-- The subsidies of the heights connected so far. -/
def subsidyTotal (cfg : Config) (height : Nat) : Int :=
  ∑ h ∈ Finset.range height, getBlockSubsidy cfg (h + 1)

def eraSubsidy (era : Nat) : Int := if 64 ≤ era then 0 else (10 * COIN) / 2 ^ era

theorem eraSubsidy_nonneg (era : Nat) : 0 ≤ eraSubsidy era := by
  unfold eraSubsidy
  split_ifs
  · exact le_rfl
  · exact Int.ediv_nonneg (by decide) (by positivity)

theorem two_mul_eraSubsidy_succ (era : Nat) : 2 * eraSubsidy (era + 1) ≤ eraSubsidy era := by
  unfold eraSubsidy
  split_ifs with h h'
  · exact le_rfl
  · simpa using Int.ediv_nonneg (by decide : (0 : Int) ≤ 10 * COIN) (by positivity)
  · omega
  · rw [pow_succ, ← Int.ediv_ediv_of_nonneg (by positivity)]
    omega

theorem sum_eraSubsidy_le (eras : Nat) : ∑ era ∈ Finset.range (eras + 1), eraSubsidy era + eraSubsidy eras ≤ 2 * (10 * COIN) := by
  induction eras with
  | zero => decide
  | succ eras ih =>
    rw [Finset.sum_range_succ]
    have hhalf := two_mul_eraSubsidy_succ eras
    omega

theorem sum_subsidy_eras {interval : Nat} (hinterval : 0 < interval) (eras : Nat) :
    ∑ h ∈ Finset.range (interval * eras), eraSubsidy (h / interval) = interval * ∑ era ∈ Finset.range eras, eraSubsidy era := by
  induction eras with
  | zero => simp
  | succ eras ih =>
    have hera : ∀ h ∈ Finset.range interval, eraSubsidy ((interval * eras + h) / interval) = eraSubsidy eras := by
      intro h hh
      rw [Nat.mul_add_div hinterval, Nat.div_eq_of_lt (Finset.mem_range.mp hh), Nat.add_zero]
    rw [Nat.mul_succ, Finset.sum_range_add, ih, Finset.sum_congr rfl hera, Finset.sum_const,
      Finset.card_range, Finset.sum_range_succ, nsmul_eq_mul]
    ring

variable (cfg) in
/-- However long the chain, the subsidies stay below twice those of the first era. -/
theorem subsidyTotal_le (hinterval : 0 < cfg.params.nSubsidyHalvingInterval) (height : Nat) :
    subsidyTotal cfg height ≤ cfg.params.nSubsidyHalvingInterval * (2 * (10 * COIN)) := by
  set interval := cfg.params.nSubsidyHalvingInterval
  have hshift : subsidyTotal cfg height ≤ ∑ h ∈ Finset.range (height + 1), eraSubsidy (h / interval) := by
    rw [Finset.sum_range_succ', subsidyTotal]
    exact le_add_of_nonneg_right (eraSubsidy_nonneg _)
  have hwhole : ∑ h ∈ Finset.range (height + 1), eraSubsidy (h / interval) ≤
      ∑ h ∈ Finset.range (interval * (height + 1)), eraSubsidy (h / interval) := by
    refine Finset.sum_le_sum_of_subset_of_nonneg (Finset.range_mono ?_) fun h _ _ => eraSubsidy_nonneg _
    exact Nat.le_mul_of_pos_left _ hinterval
  rw [sum_subsidy_eras hinterval] at hwhole
  have hseries := sum_eraSubsidy_le height
  have hlast := eraSubsidy_nonneg height
  calc subsidyTotal cfg height
      ≤ interval * ∑ era ∈ Finset.range (height + 1), eraSubsidy era := hshift.trans hwhole
    _ ≤ interval * (2 * (10 * COIN)) := mul_le_mul_of_nonneg_left (by omega) (by positivity)

/-! ## The chain -/

/-- A step that only connects, and counts the values of asset outputs as soon as there are any. -/
def ConnectsCounted (cfg : Config) (node : Node) : Node.Action → Prop
  | .connect block => BlockValuesCounted (node.config cfg) block
  | .disconnect => False
  | .dump | .touch _ | .activate _ => True

/-- The value of the unspent outputs is bounded by the subsidies so far. -/
structure SupplyBound (cfg : Config) (node : Node) : Prop where
  values : ValuesInRange node.coins
  total : node.coins.totalValue ≤ subsidyTotal cfg node.height

theorem supplyBound_genesis (dep : Deployments) : SupplyBound cfg (.genesis dep) where
  values out coin h := by simp [Node.genesis] at h
  total := by simp [Node.genesis, Node.height, subsidyTotal, Coins.totalValue]

theorem supplyBound_step (node : Node) (action : Node.Action) (node' : Node) (hnode : SupplyBound cfg node)
    (hcounted : ConnectsCounted cfg node action) (h : node.step cfg action = some node') : SupplyBound cfg node' := by
  cases action with
  | connect block =>
    obtain ⟨st, undoData, hblock, -, hcoins, -, hchain⟩ := connectTip_ok (step_connect h)
    obtain ⟨hvalues, htotal⟩ := totalValue_of_connectBlock hcounted hnode.values hblock
    refine ⟨hcoins ▸ hvalues, ?_⟩
    have hheight : node'.height = node.height + 1 := by simp [Node.height, hchain]
    rw [hcoins, hheight, subsidyTotal, Finset.sum_range_succ]
    have hsubsidy : getBlockSubsidy (node.config cfg) (node.height + 1) = getBlockSubsidy cfg (node.height + 1) := rfl
    have hbefore := hnode.total
    rw [subsidyTotal] at hbefore
    omega
  | disconnect => exact hcounted.elim
  | dump =>
    cases h
    split_ifs <;> exact ⟨hnode.values, hnode.total⟩
  | touch t =>
    cases h
    exact ⟨hnode.values, hnode.total⟩
  | activate dep =>
    simp only [Node.step] at h
    split_ifs at h
    cases h
    exact ⟨hnode.values, hnode.total⟩

/-- Along every chain on which values are enforced from the first asset output on, the unspent
value is bounded by the subsidies, these by five hundred million coins, and the totals of every
transaction of an accepted block stay in the money range, which fits in 64 bits. -/
theorem coin_supply_bounded (hinterval : cfg.params.nSubsidyHalvingInterval = 25000000)
    (dep : Deployments) (actions : List Node.Action) (node : Node)
    (hcounted : Along (Node.step cfg) (ConnectsCounted cfg) (.genesis dep) actions)
    (hrun : (Node.genesis dep).run cfg actions = some node) :
    node.coins.totalValue ≤ subsidyTotal cfg node.height ∧
      (∀ height, subsidyTotal cfg height ≤ 500000000 * COIN) ∧
      (maxMoney < 2 ^ 63 ∧ ∀ block node', BlockValuesCounted (node.config cfg) block →
        node.connectTip cfg block = .ok node' →
        BlockTotalsInRange (node.config cfg) node.assets node.coins (node.height + 1) block) := by
  have hbound : SupplyBound cfg node :=
    run_invariant supplyBound_step (supplyBound_genesis dep) hcounted hrun
  refine ⟨hbound.total, fun height => ?_, by decide, fun block node' hblock htip => ?_⟩
  · have hle := subsidyTotal_le cfg (by omega) height
    rw [hinterval] at hle
    exact hle.trans (by decide)
  · obtain ⟨st, undoData, hconnect, -⟩ := connectTip_ok htip
    exact blockTotalsInRange_of_connectBlock hblock hconnect

theorem abcChain_supply_bounded :
    ∃ node, (Node.genesis .all).run mainAll abcIssueRun =
        some node ∧ node.height = 101 ∧
      node.coins.totalValue ≤ subsidyTotal mainAll 101 := by
  have hcounted : Along (Node.step mainAll) (ConnectsCounted mainAll)
      (.genesis .all) abcIssueRun := by
    refine along_of_dep (by simp [abcIssueRun, maturedChain]) fun node hdep action haction => ?_
    simp only [abcIssueRun, maturedChain, List.mem_append, List.mem_map, List.mem_singleton] at haction
    rcases haction with ⟨i, -, rfl⟩ | rfl
    all_goals exact fun tx _ => .inl (by rw [Node.config, hdep]; rfl)
  have hheight : ((Node.genesis .all).run mainAll
      abcIssueRun).map Node.height = some 101 := by
    decide +kernel
  obtain ⟨node, hrun, hheight⟩ := Option.map_eq_some_iff.mp hheight
  obtain ⟨htotal, -⟩ := coin_supply_bounded rfl .all _ node hcounted hrun
  exact ⟨node, hrun, hheight, hheight ▸ htotal⟩

end HempCore
