import HempCore.Analysis.Registry

/-!
# How the data of an asset change

The changes of a chain are lawful one after another, so that the data of an asset stay in range,
grow, and stand still once they are final. The databases may be written at any time.
-/

set_option autoImplicit false

namespace HempCore

open Lib

variable {cfg : Config}

/-! ## One change -/

/-- Data in range: the units, the amount, and the amount as a multiple of the smallest unit. -/
structure SoundAsset (a : CNewAsset) : Prop where
  units : 0 ≤ a.units ∧ a.units ≤ 8
  amount : 0 ≤ a.nAmount ∧ a.nAmount ≤ maxMoney
  divisible : (10 : Int) ^ (8 - a.units).toNat ∣ a.nAmount
  reissuable : a.nReissuable = 0 ∨ a.nReissuable = 1

/-- Units and amount do not fall, and final data stay. -/
structure Evolves (a b : CNewAsset) : Prop where
  units : a.units ≤ b.units
  amount : a.nAmount ≤ b.nAmount
  final : a.nReissuable = 0 → b = a

theorem Evolves.refl (a : CNewAsset) : Evolves a a := ⟨le_rfl, le_rfl, fun _ => rfl⟩

theorem Evolves.trans {a b c : CNewAsset} (hab : Evolves a b) (hbc : Evolves b c) : Evolves a c := by
  refine ⟨hab.units.trans hbc.units, hab.amount.trans hbc.amount, fun hfinal => ?_⟩
  have hb := hab.final hfinal
  rw [hb] at hbc
  exact hbc.final hfinal

theorem checkAmountWithUnits_iff {nAmount nUnits : Int} (hunits : 0 ≤ nUnits ∧ nUnits ≤ 8) :
    checkAmountWithUnits nAmount nUnits = true ↔ (10 : Int) ^ (8 - nUnits).toNat ∣ nAmount := by
  have hrange : ¬(8 - nUnits < 0 ∨ 8 < 8 - nUnits) := by omega
  rw [checkAmountWithUnits, if_neg hrange, beq_iff_eq, Int.dvd_iff_emod_eq_zero]

theorem dvd_of_units_le {u v : Int} {nAmount : Int} (huv : u ≤ v) (h : (10 : Int) ^ (8 - u).toNat ∣ nAmount) :
    (10 : Int) ^ (8 - v).toNat ∣ nAmount :=
  (pow_dvd_pow 10 (by omega)).trans h

theorem soundAsset_of_checkNewAsset {asset : CNewAsset} (h : checkNewAsset cfg asset = .ok ()) : SoundAsset asset := by
  simp only [checkNewAsset, bind_eq_ok, exists_punit, require_eq_ok, Bool.and_eq_true, decide_eq_true_eq,
    Bool.or_eq_true, beq_iff_eq] at h
  obtain ⟨-, -, -, -, -, -, -, -, hpos, hmax, hunits, hdivisible, hreissuable, -⟩ := h
  exact ⟨hunits, ⟨hpos.le, hmax⟩, (checkAmountWithUnits_iff hunits).mp hdivisible, hreissuable⟩

theorem checkReissueAsset_ok {r : CReissueAsset} (hmain : cfg.params.isTestnet = false) (h : checkReissueAsset cfg r = .ok ()) :
    0 ≤ r.nAmount ∧ r.nUnits ≤ 8 ∧ -1 ≤ r.nUnits ∧ (r.nReissuable = 0 ∨ r.nReissuable = 1) := by
  simp only [checkReissueAsset, skipsReissuableCheck, hmain, Bool.false_and, Bool.false_or, bind_eq_ok, exists_punit,
    require_eq_ok, Bool.and_eq_true, decide_eq_true_eq, Bool.or_eq_true, beq_iff_eq] at h
  exact ⟨h.1.1, h.2.1.1, h.2.1.2, h.2.2⟩

theorem ReissueAllowed.evolves {prev : CNewAsset} {r : CReissueAsset} (hmain : cfg.params.isTestnet = false)
    (h : ReissueAllowed cfg prev r) : Evolves prev (CAssetsCache.applyReissue prev r) := by
  obtain ⟨hamount, -, -, -⟩ := checkReissueAsset_ok hmain h.valid
  refine ⟨?_, ?_, fun hfinal => absurd hfinal h.reissuable⟩
  · show prev.units ≤ if r.nUnits ≠ -1 then r.nUnits else prev.units
    have hunits := h.units
    split_ifs <;> omega
  · show prev.nAmount ≤ prev.nAmount + r.nAmount
    omega

theorem ReissueAllowed.sound {prev : CNewAsset} {r : CReissueAsset} (hmain : cfg.params.isTestnet = false)
    (h : ReissueAllowed cfg prev r) (hprev : SoundAsset prev) : SoundAsset (CAssetsCache.applyReissue prev r) := by
  obtain ⟨hamount, hmax, -, hreissuable⟩ := checkReissueAsset_ok hmain h.valid
  have hunits := (h.evolves hmain).units
  have hadded := (checkAmountWithUnits_iff hprev.units).mp h.divisible
  refine ⟨⟨hprev.units.1.trans hunits, ?_⟩, ⟨?_, h.amount⟩, dvd_of_units_le hunits (hprev.divisible.add hadded), hreissuable⟩
  · show (if r.nUnits ≠ -1 then r.nUnits else prev.units) ≤ 8
    have hold := hprev.units.2
    split_ifs <;> omega
  · show 0 ≤ prev.nAmount + r.nAmount
    have hold := hprev.amount.1
    omega

/-! ## One change after another -/

section Changes

variable {H : Register} {c : RegistryChange} {l : List RegistryChange}

def Register.Sound (H : Register) : Prop := ∀ name a, H name = some a → SoundAsset a

section

variable (hmain : cfg.params.isTestnet = false)
include hmain

theorem LawfulChange.sound (h : LawfulChange cfg H c) (hH : H.Sound) :
    (c.applyTo H).Sound := by
  intro name a ha
  by_cases hname : name = c.name
  · cases c with
    | issue asset address verifier =>
      rw [hname, RegistryChange.applyTo, RegistryChange.name, Function.update_self] at ha
      rw [← Option.some.inj ha]
      exact soundAsset_of_checkNewAsset h.2
    | reissue r address out verifier =>
      obtain ⟨prev, hprev, hallowed⟩ := h
      rw [hname, RegistryChange.applyTo, RegistryChange.name, Function.update_self, hprev, Option.map_some] at ha
      rw [← Option.some.inj ha]
      exact hallowed.sound hmain (hH _ prev hprev)
  · rw [applyTo_of_ne hname] at ha
    exact hH name a ha

theorem LawfulChange.evolves (h : LawfulChange cfg H c) {name : Bytes}
    {a : CNewAsset} (ha : H name = some a) : ∃ b, c.applyTo H name = some b ∧ Evolves a b := by
  by_cases hname : name = c.name
  · subst hname
    cases c with
    | issue asset address verifier => cases h.1.symm.trans ha
    | reissue r address out verifier =>
      obtain ⟨prev, hprev, hallowed⟩ := h
      obtain rfl := Option.some.inj (hprev.symm.trans ha)
      refine ⟨CAssetsCache.applyReissue prev r, ?_, hallowed.evolves hmain⟩
      rw [RegistryChange.applyTo, RegistryChange.name, Function.update_self, hprev, Option.map_some]
  · exact ⟨a, by rw [applyTo_of_ne hname, ha], .refl a⟩

theorem LawfulChanges.sound (h : LawfulChanges cfg H l) (hH : H.Sound) :
    (H.after l).Sound := by
  induction l generalizing H with
  | nil => exact hH
  | cons c l ih => exact ih h.2 (h.1.sound hmain hH)

theorem LawfulChanges.evolves (h : LawfulChanges cfg H l) {name : Bytes}
    {a : CNewAsset} (ha : H name = some a) : ∃ b, H.after l name = some b ∧ Evolves a b := by
  induction l generalizing H a with
  | nil => exact ⟨a, ha, .refl a⟩
  | cons c l ih =>
    obtain ⟨b, hb, hab⟩ := h.1.evolves hmain ha
    obtain ⟨d, hd, hbd⟩ := ih h.2 hb
    exact ⟨d, hd, hab.trans hbd⟩

theorem LawfulChange.divisible (h : LawfulChange cfg H c) (hH : H.Sound) :
    ∃ a, c.applyTo H c.name = some a ∧ (10 : Int) ^ (8 - a.units).toNat ∣ c.amount := by
  cases c with
  | issue asset address verifier =>
    refine ⟨asset, ?_, (soundAsset_of_checkNewAsset h.2).divisible⟩
    rw [RegistryChange.applyTo, RegistryChange.name, Function.update_self]
  | reissue r address out verifier =>
    obtain ⟨prev, hprev, hallowed⟩ := h
    refine ⟨CAssetsCache.applyReissue prev r, ?_, ?_⟩
    · rw [RegistryChange.applyTo, RegistryChange.name, Function.update_self, hprev, Option.map_some]
    · exact dvd_of_units_le (hallowed.evolves hmain).units
        ((checkAmountWithUnits_iff (hH _ prev hprev).units).mp hallowed.divisible)

end

end Changes

/-! ## Chains -/

/-- How the data of assets change over a list of changes, looked at after each of them. -/
structure MetadataEvolves (changes : List RegistryChange) : Prop where
  sound : ∀ pre post, changes = pre ++ post → Register.Sound (Register.after (fun _ => none) pre)
  evolves : ∀ pre mid post, changes = pre ++ mid ++ post → ∀ name a, Register.after (fun _ => none) pre name = some a →
    ∃ b, Register.after (fun _ => none) (pre ++ mid) name = some b ∧ Evolves a b
  /-- From the change on, at every moment. -/
  divisible : ∀ pre c mid post, changes = pre ++ c :: mid ++ post →
    ∃ a, Register.after (fun _ => none) (pre ++ c :: mid) c.name = some a ∧
      (10 : Int) ^ (8 - a.units).toNat ∣ c.amount
  /-- No sum leaves the range of `int64_t`. -/
  noOverflow : ∀ pre r address out verifier post, changes = pre ++ .reissue r address out verifier :: post →
    ∃ prev, Register.after (fun _ => none) pre r.strName = some prev ∧ 0 ≤ prev.nAmount ∧ 0 ≤ r.nAmount ∧
      prev.nAmount + r.nAmount < 2 ^ 63

theorem LawfulChanges.metadataEvolves {changes : List RegistryChange} (hmain : cfg.params.isTestnet = false)
    (h : LawfulChanges cfg (fun _ => none) changes) : MetadataEvolves changes := by
  have hstart : Register.Sound fun _ => none := fun _ _ ha => by cases ha
  have hinit : ∀ pre post, changes = pre ++ post →
      Register.Sound (Register.after (fun _ => none) pre) ∧ LawfulChanges cfg (Register.after (fun _ => none) pre) post := by
    rintro pre post rfl
    obtain ⟨hpre, hpost⟩ := lawfulChanges_append.mp h
    exact ⟨hpre.sound hmain hstart, hpost⟩
  refine ⟨fun pre post heq => (hinit pre post heq).1, fun pre mid post heq name a ha => ?_,
    fun pre c mid post heq => ?_, fun pre r address out verifier post heq => ?_⟩
  · rw [List.append_assoc] at heq
    have hmid := (lawfulChanges_append.mp (hinit pre (mid ++ post) heq).2).1
    rw [after_append]
    exact hmid.evolves hmain ha
  · rw [List.append_assoc, List.cons_append] at heq
    obtain ⟨hsound, hc, hrest⟩ := hinit pre (c :: (mid ++ post)) heq
    obtain ⟨a, ha, hdvd⟩ := hc.divisible hmain hsound
    obtain ⟨b, hb, hab⟩ := (lawfulChanges_append.mp hrest).1.evolves hmain ha
    refine ⟨b, ?_, dvd_of_units_le hab.units hdvd⟩
    rw [after_append]
    exact hb
  · obtain ⟨hsound, ⟨prev, hprev, hallowed⟩, -⟩ := hinit pre _ heq
    refine ⟨prev, hprev, (hsound _ prev hprev).amount.1, (checkReissueAsset_ok hmain hallowed.valid).1, ?_⟩
    have hmax := hallowed.amount
    simp only [maxMoney, COIN] at hmax
    omega

/-! ## Runs without disconnects -/

/-- A block is connected that reissues names as they are known and whose coinbase is checked or carries no
asset; nothing is disconnected. -/
def ConnectsChecked (cfg : Config) (nameOf : COutPoint → Bytes) (node : Node) : Node.Action → Prop
  | .connect block => CoinbaseChecked node (.connect block) ∧ ReissuesNamed cfg nameOf block
  | .disconnect => False
  | _ => True

/-- The tip answers with the register of its chain, whose changes were lawful. -/
structure Grown (cfg : Config) (nameOf : COutPoint → Bytes) (node : Node) : Prop where
  kept : Kept nameOf node.assets
  register : node.assets.register = registerOf cfg node.chain
  lawful : LawfulChanges cfg (fun _ => none) (chainChanges cfg node.chain)

variable {nameOf : COutPoint → Bytes} {node node' : Node}

theorem grown_genesis (dep : Deployments) : Grown cfg nameOf (.genesis dep) where
  kept := kept_empty
  register := register_empty
  lawful := trivial

theorem Grown.connect (h : Grown cfg nameOf node) {block : CBlock}
    (hcoinbase : CoinbaseChecked node (.connect block)) (hids : ReissuesNamed cfg nameOf block)
    (hstep : node.connectTip cfg block = .ok node') : Grown cfg nameOf node' := by
  obtain ⟨hkept, hregister, hlawful⟩ := kept_of_connectTip h.kept hcoinbase hids hstep
  obtain ⟨-, -, -, -, -, -, hchain⟩ := connectTip_ok hstep
  refine ⟨hkept, ?_, ?_⟩
  · rw [hregister, hchain, registerOf_cons, h.register]
  · rw [hchain, chainChanges_cons, lawfulChanges_append]
    rw [h.register] at hlawful
    exact ⟨h.lawful, hlawful⟩

theorem Grown.step (h : Grown cfg nameOf node) {action : Node.Action} (hchecked : ConnectsChecked cfg nameOf node action)
    (hstep : node.step cfg action = some node') : Grown cfg nameOf node' := by
  cases action with
  | connect block => exact h.connect hchecked.1 hchecked.2 (step_connect hstep)
  | disconnect => exact hchecked.elim
  | dump =>
    obtain rfl := Option.some.inj hstep
    split_ifs
    · obtain ⟨hkept, hregister⟩ := h.kept.dump (node.config cfg)
      exact ⟨hkept, hregister.trans h.register, h.lawful⟩
    · exact h
  | touch t =>
    obtain rfl := Option.some.inj hstep
    obtain ⟨hkept, hregister⟩ := h.kept.touch cfg t
    exact ⟨hkept, hregister.trans h.register, h.lawful⟩
  | activate dep =>
    simp only [Node.step] at hstep
    split_ifs at hstep
    obtain rfl := Option.some.inj hstep
    exact ⟨h.kept, h.register, h.lawful⟩

/-- On mainnet, in every run that connects such blocks, the tip answers with the register of its chain, and
the data of assets change as they should. -/
theorem metadata_evolves (cfg : Config) (hmain : cfg.params.isTestnet = false) (nameOf : COutPoint → Bytes)
    (dep : Deployments) (actions : List Node.Action) (node : Node)
    (hchecked : Along (Node.step cfg) (ConnectsChecked cfg nameOf) (.genesis dep) actions)
    (hrun : (Node.genesis dep).run cfg actions = some node) :
    (∀ name, node.assets.passets.getAssetMetaDataIfExists node.assets name = registerOf cfg node.chain name) ∧
      MetadataEvolves (chainChanges cfg node.chain) := by
  have hgrown := run_invariant (I := Grown cfg nameOf) (fun _ _ _ h hok hstep => h.step hok hstep)
    (grown_genesis dep) hchecked hrun
  exact ⟨fun name => congrFun hgrown.register name, hgrown.lawful.metadataEvolves hmain⟩

/-! ## Two reissues in a block, and one in a coinbase -/

def abcReissueFrom (coin owner : COutPoint) (change : Int) (reissue : CReissueAsset) (hash : Uint256) :
    CTransaction where
  vin := [⟨coin, []⟩, ⟨owner, []⟩]
  vout := [paymentOut reissueBurnKeyID 5000000, paymentOut aliceKeyID change, transferOut aliceKeyID (str "ABC!") COIN,
    reissueOut aliceKeyID reissue]
  hash := hash

/-- `ABC` gets units first, then its final amount. -/
def abcReissueBlock : CBlock where
  hash := 102
  vtx := [coinbaseAt 102, abcReissueFrom ⟨1002, 0⟩ ⟨2001, 1⟩ (9 * COIN) ⟨str "ABC", 0, 2, 1, []⟩ 3301,
    abcReissueFrom ⟨3301, 1⟩ ⟨3301, 2⟩ (8 * COIN) ⟨str "ABC", 1000000, -1, 0, []⟩ 3302]

def abcReissueRun : List Node.Action :=
  maturedChain ++ [.connect abcIssueBlock, .connect abcReissueBlock, .dump]

theorem changes_coinbaseAt (cfg : Config) (hash : Uint256) (i : Nat) : CBlock.changes cfg ⟨hash, [coinbaseAt i]⟩ = [] := by
  have hnone : (coinbaseAt i).changes cfg = [] := by
    refine changes_eq_nil fun out hout => ?_
    obtain rfl := List.mem_singleton.mp hout
    decide +kernel
  simp [CBlock.changes, hnone]

theorem abcReissueRun_named {block : CBlock} (h : .connect block ∈ abcReissueRun) :
    ReissuesNamed mainAll (fun _ => str "ABC") block := by
  simp only [abcReissueRun, maturedChain, List.mem_append, List.mem_map, List.mem_cons, Node.Action.connect.injEq,
    reduceCtorEq, List.not_mem_nil, or_false] at h
  intro r address out verifier hc
  obtain ⟨i, -, rfl⟩ | rfl | rfl := h
  · rw [changes_coinbaseAt] at hc
    cases hc
  · have hnames : ∀ c ∈ abcIssueBlock.changes mainAll, c.name = str "ABC" := by decide +kernel
    exact (hnames _ hc).symm
  · have hnames : ∀ c ∈ abcReissueBlock.changes mainAll, c.name = str "ABC" := by decide +kernel
    exact (hnames _ hc).symm

theorem abcReissueRun_evolves :
    ∃ node, (Node.genesis .all).run mainAll abcReissueRun = some node ∧
      Along (Node.step mainAll) (ConnectsChecked mainAll fun _ => str "ABC") (.genesis .all)
        abcReissueRun ∧
      registerOf mainAll node.chain (str "ABC") = some ⟨str "ABC", 1000 * COIN + 1000000, 2, 0, 0, []⟩ ∧
      MetadataEvolves (chainChanges mainAll node.chain) := by
  have halong : Along (Node.step mainAll) (ConnectsChecked mainAll fun _ => str "ABC")
      (.genesis .all) abcReissueRun := by
    refine along_of_dep (by simp [abcReissueRun, maturedChain]) fun node hdep action haction => ?_
    cases action with
    | connect block => exact ⟨.inl (by rw [hdep]; rfl), abcReissueRun_named haction⟩
    | disconnect => simp [abcReissueRun, maturedChain] at haction
    | _ => trivial
  have hrun : ((Node.genesis .all).run mainAll abcReissueRun).map (fun node =>
      node.assets.passets.getAssetMetaDataIfExists node.assets (str "ABC")) =
      some (some ⟨str "ABC", 1000 * COIN + 1000000, 2, 0, 0, []⟩) := by decide +kernel
  obtain ⟨node, hnode, hdata⟩ := Option.map_eq_some_iff.mp hrun
  obtain ⟨hregister, hevolves⟩ := metadata_evolves mainAll rfl (fun _ => str "ABC") .all abcReissueRun node
    halong hnode
  exact ⟨node, hnode, halong, (hregister _).symm.trans hdata, hevolves⟩

/-- Everything but the coinbase asset check. -/
def Deployments.coinbaseUnchecked : Deployments := { Deployments.all with coinbaseCheckAssets := false }

def fineAsset : CNewAsset := ⟨str "ABC", 1000 * COIN, 2, 1, 0, []⟩

def fineIssueBlock : CBlock where
  hash := 101
  vtx := [coinbaseAt 101, {
    vin := [⟨⟨1001, 0⟩, []⟩]
    vout := [paymentOut issueBurnKeyID 25000000, ownerOut aliceKeyID fineAsset, issueOut aliceKeyID fineAsset]
    hash := 3401 }]

/-- A coinbase that takes the units of `ABC` back to none. -/
def coarseCoinbaseBlock : CBlock where
  hash := 102
  vtx := [{
    vin := [⟨⟨0, 2 ^ 32 - 1⟩, [0x51, 0x51]⟩]
    vout := [paymentOut reissueBurnKeyID 5000000, transferOut aliceKeyID (str "ABC!") COIN,
      reissueOut aliceKeyID ⟨str "ABC", 0, 0, 1, []⟩]
    hash := 3402 }]

def coarseAsset : CNewAsset := ⟨str "ABC", 1000 * COIN, 0, 1, 0, []⟩

/-- Without that check a coinbase can lower the units of an asset. -/
theorem coinbase_lowers_units :
    ∃ node node', (Node.genesis .coinbaseUnchecked).run (mainConfig .coinbaseUnchecked)
        (maturedChain ++ [.connect fineIssueBlock]) = some node ∧
      (Node.genesis .coinbaseUnchecked).run (mainConfig .coinbaseUnchecked)
        (maturedChain ++ [.connect fineIssueBlock, .connect coarseCoinbaseBlock]) = some node' ∧
      node.assets.passets.getAssetMetaDataIfExists node.assets (str "ABC") = some fineAsset ∧
      node'.assets.passets.getAssetMetaDataIfExists node'.assets (str "ABC") = some coarseAsset ∧
      ¬MetadataEvolves (chainChanges (mainConfig .coinbaseUnchecked) node'.chain) := by
  have hrun : ((Node.genesis .coinbaseUnchecked).run (mainConfig .coinbaseUnchecked)
      (maturedChain ++ [.connect fineIssueBlock])).map (fun node =>
        node.assets.passets.getAssetMetaDataIfExists node.assets (str "ABC")) = some (some fineAsset) := by
    decide +kernel
  have hrun' : ((Node.genesis .coinbaseUnchecked).run (mainConfig .coinbaseUnchecked)
      (maturedChain ++ [.connect fineIssueBlock, .connect coarseCoinbaseBlock])).map (fun node' =>
        (node'.assets.passets.getAssetMetaDataIfExists node'.assets (str "ABC"),
          Register.after (fun _ => none) ((chainChanges (mainConfig .coinbaseUnchecked) node'.chain).take 1) (str "ABC"),
          Register.after (fun _ => none) (chainChanges (mainConfig .coinbaseUnchecked) node'.chain) (str "ABC"))) =
      some (some coarseAsset, some fineAsset, some coarseAsset) := by decide +kernel
  obtain ⟨node, hnode, hdata⟩ := Option.map_eq_some_iff.mp hrun
  obtain ⟨node', hnode', hall⟩ := Option.map_eq_some_iff.mp hrun'
  simp only [Prod.mk.injEq] at hall
  obtain ⟨hdata', hfine, hcoarse⟩ := hall
  refine ⟨node, node', hnode, hnode', hdata, hdata', fun hevolves => ?_⟩
  obtain ⟨b, hb, hab⟩ := hevolves.evolves _ (List.drop 1 _) [] (by rw [List.append_nil, List.take_append_drop]) _ _ hfine
  rw [List.take_append_drop, hcoarse] at hb
  have hunits := Option.some.inj hb ▸ hab.units
  exact absurd hunits (by decide)

end HempCore
