import HempCore.Lib.Pending
import HempCore.Model.Headers

/-!
# The work behind accepted headers

A header may pass `CheckBlockHeader` on the mix hash alone when it declares a height that is not above
the last checkpoint. The contextual check then compares the declared height with the actual one, and the
rule on the median time makes sure that it does so for every header behind the activation.
-/

set_option autoImplicit false

namespace HempCore

open Lib

namespace HeaderConfig

variable {hc : HeaderConfig} {index index' : BlockMap} {env : HeaderEnv} {block : CBlockHeader}
  {pprev : CBlockIndex}

/-- The full computation was made for the header at its height, and its difficulty is the required one. -/
structure Worked (hc : HeaderConfig) (block : CBlockHeader) (pprev : CBlockIndex) : Prop where
  declares : block.nHeight.toNat = pprev.nHeight + 1
  hash : (hc.hashes.kawpow block).1 ≤ (setCompact block.nBits).bnTarget.toNat
  mix : (hc.hashes.kawpow block).2 = block.mix_hash
  nBits : getNextWorkRequired hc.params pprev block = some block.nBits

def Activated (hc : HeaderConfig) (pprev : CBlockIndex) : Prop :=
  hc.params.nHeightHeaderCheckActivation ≤ (pprev.nHeight + 1 : Nat) ∧
    (hc.params.nKAWPOWActivationTime.toNat : Int) ≤ pprev.getMedianTimePast

/-! ## One header -/

theorem le_of_checkProofOfWork {params : PowParams} {hash : Uint256} {nBits : UInt32}
    (h : checkProofOfWork params hash nBits = true) : hash ≤ (setCompact nBits).bnTarget.toNat := by
  rw [checkProofOfWork] at h
  split_ifs at h with hrange habove
  exact not_lt.mp habove

/-- The full computation, unless the declared height is not above the last checkpoint. -/
theorem work_of_checkBlockHeader (h : hc.checkBlockHeader index env block = .ok ()) (hkawpow : hc.isKawpow block = true)
    (hheight : ∀ c, hc.getLastCheckpoint index = some c → c.nHeight < block.nHeight.toNat) :
    (hc.hashes.kawpow block).1 ≤ (setCompact block.nBits).bnTarget.toNat ∧ (hc.hashes.kawpow block).2 = block.mix_hash := by
  have hcheap : (hc.getLastCheckpoint index).any (fun pcheckpoint => block.nHeight.toNat ≤ pcheckpoint.nHeight) = false := by
    cases hlast : hc.getLastCheckpoint index with
    | none => rfl
    | some c =>
      have hlt := hheight c hlast
      simpa using hlt
  have hfull : hc.getHashFull block = hc.hashes.kawpow block := by
    rw [getHashFull, if_pos hkawpow]
  rw [checkBlockHeader, hcheap, hfull] at h
  simp only [Bool.and_false, Bool.false_eq_true, if_false, hkawpow, true_and] at h
  split_ifs at h with hwork hmix
  exact ⟨le_of_checkProofOfWork (by simpa using hwork), not_not.mp hmix⟩

theorem of_contextualCheckBlockHeader (hactive : 0 ≤ hc.params.nHeightHeaderCheckActivation)
    (h : hc.contextualCheckBlockHeader index env block pprev = .ok ()) (hactivated : hc.Activated pprev) :
    getNextWorkRequired hc.params pprev block = some block.nBits ∧ hc.isKawpow block = true ∧
      block.nHeight.toNat = pprev.nHeight + 1 := by
  rw [contextualCheckBlockHeader] at h
  split_ifs at h with hfork hbits hdeclared hcheckpoint hold
  -- the time is after the median of the blocks before, and that is after the activation
  all_goals
    have hkawpow : hc.isKawpow block = true := by
      have htime : (hc.params.nKAWPOWActivationTime.toNat : Int) ≤ block.getBlockTime := hactivated.2.trans (not_le.mp hold).le
      rw [CBlockHeader.getBlockTime] at htime
      rw [isKawpow, decide_eq_true_eq, UInt32.le_iff_toNat_le]
      exact_mod_cast htime
    refine ⟨not_not.mp hbits, hkawpow, ?_⟩
    by_contra hne
    exact hdeclared ⟨hactive, hactivated.1, hkawpow, hne⟩

/-- A header that is added has its predecessor in the index and, behind the activations and above the last
checkpoint, the work. -/
theorem worked_of_acceptBlockHeader (hactive : 0 ≤ hc.params.nHeightHeaderCheckActivation)
    (h : hc.acceptBlockHeader index env block = .ok index') (hgenesis : hc.getHash block ≠ hc.hashGenesisBlock)
    (hnew : index[hc.getHash block]? = none) :
    ∃ pprev, index[block.hashPrevBlock]? = some pprev ∧ index' = index.insert (hc.getHash block) (.child block pprev) ∧
      (hc.Activated pprev → (∀ c, hc.getLastCheckpoint index = some c → c.nHeight < pprev.nHeight + 1) →
        hc.Worked block pprev) := by
  rw [acceptBlockHeader, if_neg hgenesis, hnew] at h
  simp only [bind_eq_ok, exists_punit] at h
  obtain ⟨hcheck, h⟩ := h
  cases hprev : index[block.hashPrevBlock]? with
  | none =>
    rw [hprev] at h
    cases h
  | some pprev =>
    rw [hprev] at h
    by_cases hfailed : env.isFailed pprev = true
    · simp [hfailed] at h
    simp only [hfailed, Bool.false_eq_true, if_false, bind_eq_ok, exists_punit] at h
    obtain ⟨hcontext, h⟩ := h
    split_ifs at h with hancestor
    have hcontains : index.contains (hc.getHash block) = false := by
      rw [Std.TreeMap.contains_eq_isSome_getElem?, hnew]
      rfl
    refine ⟨pprev, rfl, ?_, ?_⟩
    · rw [addToBlockIndex, hcontains, hprev] at h
      exact (Except.ok.inj h).symm
    · intro hactivated hlast
      obtain ⟨hbits, hkawpow, hdeclares⟩ := of_contextualCheckBlockHeader hactive hcontext hactivated
      obtain ⟨hhash, hmix⟩ := work_of_checkBlockHeader hcheck hkawpow fun c hc => by
        rw [hdeclares]
        exact hlast c hc
      exact ⟨hdeclares, hhash, hmix, hbits⟩

/-! ## Every index -/

/-- The genesis block is known, and each other block that is activated has the work or is not above some
checkpoint of the index. -/
structure Sound (hc : HeaderConfig) (index : BlockMap) : Prop where
  genesis : index.contains hc.hashGenesisBlock = true
  worked : ∀ (hash : Uint256) (block : CBlockHeader) (pprev : CBlockIndex),
    index[hash]? = some (.child block pprev) → hc.Activated pprev → hc.Worked block pprev ∨
      ∃ cp ∈ hc.checkpoints, ∃ c, index[cp.2]? = some c ∧ pprev.nHeight + 1 ≤ c.nHeight

theorem mem_checkpoints_of_getLastCheckpoint {c : CBlockIndex} (h : hc.getLastCheckpoint index = some c) :
    ∃ cp ∈ hc.checkpoints, index[cp.2]? = some c := by
  obtain ⟨cp, hmem, hcp⟩ := List.exists_of_findSome?_eq_some h
  exact ⟨cp, List.mem_reverse.mp hmem, hcp⟩

theorem receive_cases (hgenesis : index.contains hc.hashGenesisBlock = true) (call : HeaderEnv × CBlockHeader) :
    hc.receive index call = index ∨
      (hc.getHash call.2 ≠ hc.hashGenesisBlock ∧ index[hc.getHash call.2]? = none ∧
        hc.acceptBlockHeader index call.1 call.2 = .ok (hc.receive index call)) := by
  obtain ⟨env, block⟩ := call
  rw [receive]
  cases haccept : hc.acceptBlockHeader index env block with
  | error e => exact .inl rfl
  | ok index' =>
    by_cases hhash : hc.getHash block = hc.hashGenesisBlock
    · rw [acceptBlockHeader, if_pos hhash, addToBlockIndex, hhash, hgenesis] at haccept
      exact .inl (Except.ok.inj haccept).symm
    · cases hknown : index[hc.getHash block]? with
      | none => exact .inr ⟨hhash, rfl, rfl⟩
      | some pindex =>
        rw [acceptBlockHeader, if_neg hhash, hknown] at haccept
        simp only at haccept
        split_ifs at haccept with hfailed
        exact .inl (Except.ok.inj haccept).symm

theorem Sound.receive (hactive : 0 ≤ hc.params.nHeightHeaderCheckActivation) (h : hc.Sound index)
    (call : HeaderEnv × CBlockHeader) : hc.Sound (hc.receive index call) := by
  rcases receive_cases h.genesis call with heq | ⟨hhash, hnew, haccept⟩
  · rwa [heq]
  obtain ⟨pprev, hprev, hindex, hwork⟩ := worked_of_acceptBlockHeader hactive haccept hhash hnew
  rw [hindex]
  -- what was in the index stays there
  have hkeep : ∀ {k : Uint256} {b : CBlockIndex}, index[k]? = some b →
      (index.insert (hc.getHash call.2) (CBlockIndex.child call.2 pprev))[k]? = some b := by
    intro k b hk
    have hne : k ≠ hc.getHash call.2 := by
      rintro rfl
      rw [hnew] at hk
      cases hk
    rw [getElem?_insert_eq, if_neg hne, hk]
  refine ⟨by simp [h.genesis], ?_⟩
  intro hash block pprev' hentry hactivated
  rw [getElem?_insert_eq] at hentry
  split_ifs at hentry with hsame
  · obtain ⟨rfl, rfl⟩ : call.2 = block ∧ pprev = pprev' := by simpa using hentry
    by_cases hbelow : ∀ c, hc.getLastCheckpoint index = some c → c.nHeight < pprev.nHeight + 1
    · exact .inl (hwork hactivated hbelow)
    · push Not at hbelow
      obtain ⟨c, hlast, hle⟩ := hbelow
      obtain ⟨cp, hmem, hcp⟩ := mem_checkpoints_of_getLastCheckpoint hlast
      exact .inr ⟨cp, hmem, c, hkeep hcp, hle⟩
  · rcases h.worked hash block pprev' hentry hactivated with hworked | ⟨cp, hmem, c, hcp, hle⟩
    · exact .inl hworked
    · exact .inr ⟨cp, hmem, c, hkeep hcp, hle⟩

theorem sound_run (hactive : 0 ≤ hc.params.nHeightHeaderCheckActivation) (genesis : CBlockHeader)
    (calls : List (HeaderEnv × CBlockHeader)) : hc.Sound (hc.run genesis calls) := by
  refine List.foldlRecOn (motive := hc.Sound) calls _ ⟨by simp, ?_⟩ fun index h call _ => h.receive hactive call
  intro hash block pprev hentry
  rw [getElem?_insert_eq] at hentry
  split_ifs at hentry
  · cases hentry
  · simp at hentry

theorem nHeight_le_getLastCheckpoint (hheights : ∀ cp ∈ hc.checkpoints, ∀ b, index[cp.2]? = some b → b.nHeight = cp.1)
    {cp : Nat × Uint256} (hmem : cp ∈ hc.checkpoints) {b : CBlockIndex} (hb : index[cp.2]? = some b) :
    ∃ c, hc.getLastCheckpoint index = some c ∧ b.nHeight ≤ c.nHeight := by
  have hsome : (hc.getLastCheckpoint index).isSome := by
    rw [getLastCheckpoint, List.findSome?_isSome_iff]
    exact ⟨cp, List.mem_reverse.mpr hmem, by rw [hb]; rfl⟩
  obtain ⟨c, hlast⟩ := Option.isSome_iff_exists.mp hsome
  refine ⟨c, hlast, ?_⟩
  obtain ⟨before, cp', after, hsplit, hcp', hbefore⟩ := List.findSome?_eq_some_iff.mp hlast
  -- the checkpoints in front of the one found are not in the index, so this one is behind it
  have hmem' : cp ∈ cp' :: after := by
    have hall : cp ∈ before ++ cp' :: after := hsplit ▸ List.mem_reverse.mpr hmem
    rcases List.mem_append.mp hall with hfront | hback
    · have hnone := hbefore cp hfront
      rw [hb] at hnone
      cases hnone
    · exact hback
  have hsorted : (before ++ cp' :: after).Pairwise fun a b => b.1 < a.1 := by
    rw [← hsplit, List.pairwise_reverse]
    exact hc.checkpoints_sorted
  have hle : cp.1 ≤ cp'.1 := by
    rcases List.mem_cons.mp hmem' with rfl | hafter
    · exact le_rfl
    · have hlt := List.rel_of_pairwise_cons (List.pairwise_append.mp hsorted).2.1 hafter
      exact hlt.le
  have hcheckpoint : cp' ∈ hc.checkpoints := by
    rw [← List.mem_reverse, hsplit]
    simp
  rw [hheights cp hmem b hb, hheights cp' hcheckpoint c hcp']
  exact hle

theorem nonneg_of_network (h : hc.params ∈ [mainPow, testPow, regtestPow]) : 0 ≤ hc.params.nHeightHeaderCheckActivation := by
  simp only [List.mem_cons, List.not_mem_nil, or_false] at h
  rcases h with h | h | h <;> rw [h] <;> decide

end HeaderConfig

open HeaderConfig

/-- Above the last checkpoint of the index and behind the activations no header is without the work:
neither when it is accepted, nor in any index that is reached, if checkpoints are blocks of their height. -/
theorem accepted_headers_worked (hc : HeaderConfig) (hnetwork : hc.params ∈ [mainPow, testPow, regtestPow])
    (genesis : CBlockHeader) (calls : List (HeaderEnv × CBlockHeader)) :
    (∀ env block index', hc.acceptBlockHeader (hc.run genesis calls) env block = .ok index' →
      (hc.run genesis calls)[hc.getHash block]? = none →
      ∃ pprev, (hc.run genesis calls)[block.hashPrevBlock]? = some pprev ∧
        (hc.Activated pprev →
          (∀ c, hc.getLastCheckpoint (hc.run genesis calls) = some c → c.nHeight < pprev.nHeight + 1) →
          hc.Worked block pprev)) ∧
    ((∀ cp ∈ hc.checkpoints, ∀ b, (hc.run genesis calls)[cp.2]? = some b → b.nHeight = cp.1) →
      ∀ (hash : Uint256) (block : CBlockHeader) (pprev : CBlockIndex),
        (hc.run genesis calls)[hash]? = some (.child block pprev) → hc.Activated pprev →
        (∀ c, hc.getLastCheckpoint (hc.run genesis calls) = some c → c.nHeight < pprev.nHeight + 1) →
        hc.Worked block pprev) := by
  have hactive := nonneg_of_network hnetwork
  have hsound := sound_run hactive genesis calls
  constructor
  · intro env block index' haccept hnew
    have hgenesis : hc.getHash block ≠ hc.hashGenesisBlock := by
      intro heq
      have hknown := hsound.genesis
      rw [Std.TreeMap.contains_eq_isSome_getElem?, ← heq, hnew] at hknown
      cases hknown
    obtain ⟨pprev, hprev, -, hworked⟩ := worked_of_acceptBlockHeader hactive haccept hgenesis hnew
    exact ⟨pprev, hprev, hworked⟩
  · intro hheights hash block pprev hentry hactivated hlast
    rcases hsound.worked hash block pprev hentry hactivated with hworked | ⟨cp, hmem, b, hb, hle⟩
    · exact hworked
    · obtain ⟨c, hc, hle'⟩ := nHeight_le_getLastCheckpoint hheights hmem hb
      have hlt := hlast c hc
      omega

/-! ## Headers on the test network -/

/-- Hashes by the nonce, and a mix hash that is one more. -/
def nonceHashes : HeaderHashes where
  hashX16 block := 1000 + block.nNonce.toNat
  kawpowOnlyMix block := 100 + block.nNonce64.toNat
  kawpow block := (block.nNonce64.toNat, block.nNonce64.toNat + 1)

def nonceConfig : HeaderConfig := ⟨testPow, nonceHashes, [(0, 100)], List.pairwise_singleton _ _, 100⟩

def firstHeader : CBlockHeader := ⟨0x30000000, 0, 0, 1766126932, 0x1e0fffff, 0, 0, 0, 1⟩

/-- The header of a height, with that height for a nonce. -/
def headerAt (n : Nat) : CBlockHeader :=
  ⟨0x30000000, 99 + n, 0, .ofNat (1766126932 + 5 * n), 0x1e0fffff, 0, .ofNat n, .ofNat n, n + 1⟩

def quietEnv : HeaderEnv where
  fCheckpointsEnabled := true
  nMaxReorgDepth := 60
  nMinReorgPeers := 4
  nMinReorgAge := 43200
  nodeCount := none
  time := 1766126947
  nAdjustedTime := 1766126947
  activeHeight := 0
  activeTipTime := 1766126932
  areAssetsDeployed := true
  isFailed _ := false
  isValidScripts _ := true
  failedBlocks := []

def threeHeaders : List (HeaderEnv × CBlockHeader) :=
  [(quietEnv, headerAt 1), (quietEnv, headerAt 2), (quietEnv, headerAt 3)]

theorem threeHeaders_worked : ∃ pprev, (nonceConfig.run firstHeader threeHeaders)[(103 : Uint256)]? = some (.child (headerAt 3) pprev) ∧
    pprev.nHeight = 2 ∧ nonceConfig.Worked (headerAt 3) pprev := by
  have hentry : (nonceConfig.run firstHeader threeHeaders)[(103 : Uint256)]? =
      some (.child (headerAt 3) (.child (headerAt 2) (.child (headerAt 1) (.genesis firstHeader)))) := by
    decide +kernel
  have hfirst : (nonceConfig.run firstHeader threeHeaders)[(100 : Uint256)]? = some (.genesis firstHeader) := by decide +kernel
  have hlast : nonceConfig.getLastCheckpoint (nonceConfig.run firstHeader threeHeaders) = some (.genesis firstHeader) := by
    decide +kernel
  refine ⟨_, hentry, rfl, (accepted_headers_worked nonceConfig (by decide) firstHeader threeHeaders).2 ?_ 103 _ _ hentry
    ⟨by decide, by decide +kernel⟩ ?_⟩
  · intro cp hcp b hb
    obtain rfl := List.mem_singleton.mp hcp
    obtain rfl := Option.some.inj (hfirst.symm.trans hb)
    rfl
  · intro c hc
    obtain rfl := Option.some.inj (hlast.symm.trans hc)
    decide

end HempCore
