import HempCore.Lib.Run
import HempCore.Model.Rewards

/-!
# Paying each owner once

A batch is known by its number, and the list is generated anew by every call. As long as it is the
same list and every commit is recorded, the batches committed are the first ones of one list, in
order, and no address is in two of them.
-/

set_option autoImplicit false

namespace HempCore

open Lib

variable {params : ChainParams} {reward : RewardAmount} {request : CRewardSnapshot}

theorem nodup_generateDistributionList {basis : RewardBasis} {payments : List OwnerAndAmount}
    (h : generateDistributionList params reward request basis = some payments) :
    (payments.map OwnerAndAmount.address).Nodup := by
  unfold generateDistributionList at h
  obtain ⟨units, -, h⟩ := Option.bind_eq_some_iff.mp h
  obtain ⟨entry, -, h⟩ := Option.bind_eq_some_iff.mp h
  split_ifs at h
  rw [← Option.some.inj h, rewardsOf, List.map_filterMap]
  have hkeys : (nonExceptionOwnerships params request entry).keys.Nodup :=
    (nonExceptionOwnerships params request entry).distinct_keys.imp fun {a b} hne heq => hne (by
      rw [heq]
      exact Std.ReflOrd.compare_self)
  refine hkeys.filterMap fun a b c ha hb => ?_
  simp only [Option.mem_def, Option.map_eq_some_iff, Option.ite_none_right_eq_some, Option.some.injEq] at ha hb
  obtain ⟨_, ⟨-, rfl⟩, rfl⟩ := ha
  obtain ⟨_, ⟨-, rfl⟩, hb⟩ := hb
  exact hb.symm

namespace RewardState

variable {st : RewardState} {payments : List OwnerAndAmount} {call : RewardCall}

/-- What was committed are the first batches of a list, each with its record. -/
structure PaidFrom (payments : List OwnerAndAmount) (st : RewardState) : Prop where
  committed : st.committed.map RewardPayment.payments = (List.range st.committed.length).map (batchOf payments)
  recorded : ∀ i, st.transactions[i]?.isSome = true ↔ i < st.committed.length

theorem PaidFrom.nodup (h : PaidFrom payments st) (hnodup : (payments.map OwnerAndAmount.address).Nodup) :
    ((st.committed.flatMap RewardPayment.payments).map OwnerAndAmount.address).Nodup := by
  have htake : st.committed.flatMap RewardPayment.payments = payments.take (st.committed.length * maxPaymentsPerTransaction) := by
    rw [List.flatMap_def, h.committed, ← List.flatMap_def]
    exact flatMap_pages payments maxPaymentsPerTransaction st.committed.length
  rw [htake, List.map_take]
  exact hnodup.sublist (List.take_sublist _ _)

/-- A batch that is not recorded is the next one; it is attempted, and if it is committed it is
recorded too. -/
structure BatchStep (payments : List OwnerAndAmount) (call : RewardCall) (st : RewardState) (i : Nat)
    (next : RewardState) (goesOn : Bool) : Prop where
  paid : PaidFrom payments next
  basis : next.basis = st.basis
  committed : ∀ p ∈ next.committed, p ∈ st.committed ∨ p.basis = st.basis
  length : st.committed.length ≤ next.committed.length
  passed : goesOn = true → i < next.committed.length

theorem batchStep_distributeBatch (h : PaidFrom payments st) {i : Nat} (hi : i ≤ st.committed.length)
    (hcrash : call.crash ≠ some (i, .beforeRecord)) :
    BatchStep payments call st i (distributeBatch payments call st i).1 (distributeBatch payments call st i).2 := by
  unfold distributeBatch
  cases htx : st.transactions[i]? with
  | some txid =>
    have hlt : i < st.committed.length := (h.recorded i).mp (by rw [htx]; rfl)
    cases hdepth : call.depth txid with
    | some depth =>
      simp only [hdepth]
      exact ⟨h, rfl, fun p hp => .inl hp, le_rfl, fun _ => hlt⟩
    | none =>
      simp only [hdepth]
      exact ⟨h, rfl, fun p hp => .inl hp, le_rfl, fun _ => hlt⟩
  | none =>
    have heq : i = st.committed.length := by
      have hnot : ¬i < st.committed.length := by
        rw [← h.recorded i, htx]
        simp
      omega
    have hsame : PaidFrom payments { st with attempted := st.attempted ++ [batchOf payments i] } := ⟨h.committed, h.recorded⟩
    have hstop : BatchStep payments call st i { st with attempted := st.attempted ++ [batchOf payments i] } false :=
      ⟨hsame, rfl, fun p hp => .inl hp, le_rfl, nofun⟩
    simp only
    split_ifs with hbefore
    · exact hstop
    · cases hbuild : call.build i with
      | none => exact hstop
      | some txid =>
        simp only
        refine ⟨⟨?_, fun j => ?_⟩, rfl, ?_, by simp, fun _ => by simp [heq]⟩
        · rw [List.map_append, h.committed, List.length_append, List.length_singleton, List.range_succ, List.map_append, heq]
          rfl
        · rw [getElem?_insert_eq, List.length_append, List.length_singleton]
          split_ifs with hj
          · simp only [Option.isSome_some, true_iff]
            omega
          · rw [h.recorded j]
            omega
        · intro p hp
          rcases List.mem_append.mp hp with hp | hp
          · exact .inl hp
          · rw [List.mem_singleton.mp hp]
            exact .inr rfl

/-- What a loop over the batches from some number on keeps, by induction on how many are left; the
batches before are recorded. -/
theorem PaidFrom.distributeBatches (h : PaidFrom payments st) {i n : Nat} (hi : i ≤ st.committed.length)
    (hcrash : ∀ j, call.crash ≠ some (j, .beforeRecord)) :
    PaidFrom payments (RewardState.distributeBatches payments call (List.range' i n) st) ∧
      (RewardState.distributeBatches payments call (List.range' i n) st).basis = st.basis ∧
      ∀ p ∈ (RewardState.distributeBatches payments call (List.range' i n) st).committed,
        p ∈ st.committed ∨ p.basis = st.basis := by
  induction n generalizing i st with
  | zero => exact ⟨h, rfl, fun p hp => .inl hp⟩
  | succ n ih =>
    have hstep := batchStep_distributeBatch h hi (hcrash i)
    rw [List.range'_succ, RewardState.distributeBatches]
    generalize distributeBatch payments call st i = result at hstep
    obtain ⟨next, goesOn⟩ := result
    cases goesOn with
    | false => exact ⟨hstep.paid, hstep.basis, hstep.committed⟩
    | true =>
      obtain ⟨hpaid, hbasis, hcommitted⟩ := ih hstep.paid (hstep.passed rfl)
      refine ⟨hpaid, hbasis.trans hstep.basis, fun p hp => ?_⟩
      rcases hcommitted p hp with hp | hp
      · exact hstep.committed p hp
      · exact .inr (hp.trans hstep.basis)

/-! ## Runs -/

def SameSource (request : CRewardSnapshot) (a b : RewardBasis) : Prop :=
  a.snapshotEntry = b.snapshotEntry ∧
    (request.strDistributionAsset = str "HEMP" ∨ a.distributionUnits = b.distributionUnits)

/-- A call finds what the earlier payments were generated from, and is not stopped between a commit
and its record. -/
def Unbroken (request : CRewardSnapshot) (st : RewardState) : Event → Prop
  | .distribute call => (∀ i, call.crash ≠ some (i, .beforeRecord)) ∧
      ∀ p ∈ st.committed, SameSource request p.basis st.basis
  | .change _ => True

theorem SameSource.generate {a b : RewardBasis} (h : SameSource request a b) {l l' : List OwnerAndAmount}
    (ha : generateDistributionList params reward request a = some l)
    (hb : generateDistributionList params reward request b = some l') : l = l' := by
  have hunits : a.units request = b.units request := by
    unfold RewardBasis.units
    split_ifs with hemp
    · rfl
    · rw [h.2.resolve_left hemp]
  unfold generateDistributionList at ha hb
  rw [hunits, h.1] at ha
  obtain ⟨units, hu, ha⟩ := Option.bind_eq_some_iff.mp ha
  obtain ⟨entry, he, ha⟩ := Option.bind_eq_some_iff.mp ha
  obtain ⟨units', hu', hb⟩ := Option.bind_eq_some_iff.mp hb
  obtain ⟨entry', he', hb⟩ := Option.bind_eq_some_iff.mp hb
  rw [hu] at hu'
  rw [he] at he'
  cases hu'
  cases he'
  split_ifs at ha hb
  rw [← Option.some.inj ha, ← Option.some.inj hb]

/-- What was committed are the first batches of one list, from which every payment was made. -/
def Sound (params : ChainParams) (reward : RewardAmount) (request : CRewardSnapshot) (st : RewardState) : Prop :=
  ∃ payments, PaidFrom payments st ∧
    ∀ p ∈ st.committed, generateDistributionList params reward request p.basis = some payments

theorem sound_start (basis : RewardBasis) : Sound params reward request (start basis) := ⟨[], ⟨rfl, by simp [start]⟩, nofun⟩

theorem PaidFrom.of_nil (h : PaidFrom payments st) (hnil : st.committed = []) (payments' : List OwnerAndAmount) :
    PaidFrom payments' st :=
  ⟨by rw [hnil]; rfl, h.recorded⟩

theorem Sound.perform (h : Sound params reward request st) {event : Event} (hevent : Unbroken request st event) :
    Sound params reward request (st.perform params reward request event) := by
  cases event with
  | change basis =>
    obtain ⟨payments, hpaid, hsource⟩ := h
    exact ⟨payments, ⟨hpaid.committed, hpaid.recorded⟩, hsource⟩
  | distribute call =>
    obtain ⟨payments, hpaid, hsource⟩ := h
    rw [RewardState.perform, distributeRewardSnapshot]
    split_ifs
    · exact ⟨payments, hpaid, hsource⟩
    · cases hlist : generateDistributionList params reward request st.basis with
      | none => exact ⟨payments, hpaid, hsource⟩
      | some list =>
        have hsame : ∀ p ∈ st.committed, payments = list := fun p hp => (hevent.2 p hp).generate (hsource p hp) hlist
        have hlistPaid : PaidFrom list st := by
          cases hc : st.committed with
          | nil => exact hpaid.of_nil hc list
          | cons p rest => exact hsame p (by simp [hc]) ▸ hpaid
        simp only [List.range_eq_range']
        obtain ⟨hnext, -, hcommitted⟩ := hlistPaid.distributeBatches
          (n := list.length / maxPaymentsPerTransaction + 1) (Nat.zero_le _) hevent.1
        refine ⟨list, hnext, fun p hp => ?_⟩
        rcases hcommitted p hp with hp | hp
        · rw [← hsame p hp]
          exact hsource p hp
        · rw [hp, hlist]

theorem Sound.foldl (h : Sound params reward request st) {events : List Event}
    (hevents : Along (fun st e => some (RewardState.perform params reward request st e)) (Unbroken request) st events) :
    Sound params reward request (events.foldl (RewardState.perform params reward request) st) := by
  induction events generalizing st with
  | nil => exact h
  | cons event events ih => exact ih (h.perform hevents.1) (hevents.2 _ rfl)

theorem Sound.nodup (h : Sound params reward request st) :
    ((st.committed.flatMap RewardPayment.payments).map OwnerAndAmount.address).Nodup := by
  obtain ⟨payments, hpaid, hsource⟩ := h
  cases hc : st.committed with
  | nil => simp
  | cons p rest =>
    rw [← hc]
    exact hpaid.nodup (nodup_generateDistributionList (hsource p (by simp [hc])))

/-! ## Undisturbed runs -/

/-- The batches handed to the wallet are batches of the list, those committed among them. -/
structure Attempts (payments : List OwnerAndAmount) (st : RewardState) : Prop where
  batches : ∀ b ∈ st.attempted, ∃ i ≤ payments.length / maxPaymentsPerTransaction, b = batchOf payments i
  committed : ∀ p ∈ st.committed, p.payments ∈ st.attempted

theorem Attempts.distributeBatch (h : Attempts payments st) (call : RewardCall) {i : Nat}
    (hi : i ≤ payments.length / maxPaymentsPerTransaction) :
    Attempts payments (RewardState.distributeBatch payments call st i).1 := by
  unfold RewardState.distributeBatch
  cases htx : st.transactions[i]? with
  | some txid => cases hdepth : call.depth txid <;> simpa only [hdepth] using h
  | none =>
    have hattempted : ∀ b ∈ st.attempted ++ [batchOf payments i],
        ∃ j ≤ payments.length / maxPaymentsPerTransaction, b = batchOf payments j := by
      intro b hb
      rcases List.mem_append.mp hb with hb | hb
      · exact h.batches b hb
      · exact ⟨i, hi, List.mem_singleton.mp hb⟩
    have hold : ∀ p ∈ st.committed, p.payments ∈ st.attempted ++ [batchOf payments i] := fun p hp =>
      List.mem_append_left _ (h.committed p hp)
    have hnew : ∀ txid, ∀ p ∈ st.committed ++ [⟨st.basis, txid, batchOf payments i⟩],
        p.payments ∈ st.attempted ++ [batchOf payments i] := by
      intro txid p hp
      rcases List.mem_append.mp hp with hp | hp
      · exact hold p hp
      · rw [List.mem_singleton.mp hp]
        simp
    cases call.build i with
    | none =>
      simp only
      split_ifs <;> exact ⟨hattempted, hold⟩
    | some txid =>
      simp only
      split_ifs
      · exact ⟨hattempted, hold⟩
      · exact ⟨hattempted, hnew txid⟩
      · exact ⟨hattempted, hnew txid⟩

theorem Attempts.distributeBatches (h : Attempts payments st) {batches : List Nat}
    (hbatches : ∀ i ∈ batches, i ≤ payments.length / maxPaymentsPerTransaction) :
    Attempts payments (RewardState.distributeBatches payments call batches st) := by
  induction batches generalizing st with
  | nil => exact h
  | cons i rest ih =>
    have hstep := h.distributeBatch call (hbatches i List.mem_cons_self)
    rw [RewardState.distributeBatches]
    generalize RewardState.distributeBatch payments call st i = result at hstep
    obtain ⟨next, goesOn⟩ := result
    cases goesOn with
    | false => exact hstep
    | true => exact ih hstep fun j hj => hbatches j (List.mem_cons_of_mem i hj)

/-- The wallet is ready, all its transactions are in blocks and it can make those that are asked
for. -/
structure Smooth (call : RewardCall) : Prop where
  unlocked : call.isLocked = false
  synced : call.isInitialBlockDownload = false
  crash : call.crash = none
  confirmed : ∀ txid, ∀ depth ∈ call.depth txid, 0 < depth
  builds : ∀ i, (call.build i).isSome = true

theorem Smooth.distributeBatch (h : Smooth call) (payments : List OwnerAndAmount) (st : RewardState) (i : Nat) :
    (RewardState.distributeBatch payments call st i).2 = true := by
  unfold RewardState.distributeBatch
  cases htx : st.transactions[i]? with
  | some txid =>
    cases hdepth : call.depth txid with
    | some depth => simpa only [hdepth, decide_eq_true_eq] using h.confirmed txid depth hdepth
    | none => simp only [hdepth]
  | none =>
    obtain ⟨txid, htxid⟩ := Option.isSome_iff_exists.mp (h.builds i)
    simp [h.crash, htxid]

theorem Smooth.distributeBatches (h : Smooth call) (hpaid : PaidFrom payments st) {i n : Nat} (hi : i ≤ st.committed.length) :
    i + n ≤ (distributeBatches payments call (List.range' i n) st).committed.length := by
  induction n generalizing i st with
  | zero => exact hi
  | succ n ih =>
    have hcrash : call.crash ≠ some (i, .beforeRecord) := by simp [h.crash]
    have hstep := batchStep_distributeBatch hpaid hi hcrash
    have hgoesOn := h.distributeBatch payments st i
    rw [List.range'_succ, RewardState.distributeBatches]
    generalize RewardState.distributeBatch payments call st i = result at hstep hgoesOn
    obtain ⟨next, goesOn⟩ := result
    cases hgoesOn
    have hrest : i + 1 + n ≤ (RewardState.distributeBatches payments call (List.range' (i + 1) n) next).committed.length :=
      ih hstep.paid (hstep.passed rfl)
    rw [Nat.add_right_comm] at hrest
    exact hrest

/-- What calls that are not stopped keep when nothing changes around them. -/
structure Undisturbed (payments : List OwnerAndAmount) (basis : RewardBasis) (st : RewardState) : Prop where
  basis : st.basis = basis
  paid : PaidFrom payments st
  attempts : Attempts payments st

variable {basis : RewardBasis}

theorem Undisturbed.start : Undisturbed payments basis (start basis) := ⟨rfl, ⟨rfl, by simp [RewardState.start]⟩, ⟨nofun, nofun⟩⟩

section

variable (h : Undisturbed payments basis st)
  (hlist : generateDistributionList params reward request basis = some payments)
include h hlist

theorem Undisturbed.distribute
    (hcrash : call.crash = none) :
    Undisturbed payments basis (st.distributeRewardSnapshot params reward request call) := by
  rw [distributeRewardSnapshot, h.basis, hlist]
  split_ifs
  · exact h
  · simp only [List.range_eq_range']
    have hnone : ∀ j, call.crash ≠ some (j, .beforeRecord) := by simp [hcrash]
    obtain ⟨hpaid, hbasis, -⟩ := h.paid.distributeBatches
      (n := payments.length / maxPaymentsPerTransaction + 1) (Nat.zero_le _) hnone
    refine ⟨hbasis.trans h.basis, hpaid, h.attempts.distributeBatches fun i hi => ?_⟩
    rw [List.mem_range'_1] at hi
    omega

theorem Undisturbed.foldl
    {calls : List RewardCall}
    (hcalls : ∀ call ∈ calls, call.crash = none) :
    Undisturbed payments basis (calls.foldl (distributeRewardSnapshot params reward request) st) :=
  List.foldlRecOn calls _ h fun _ hst call hcall => hst.distribute hlist (hcalls call hcall)

theorem Undisturbed.smooth_length
    (hsmooth : Smooth call) :
    payments.length / maxPaymentsPerTransaction + 1 ≤
      (st.distributeRewardSnapshot params reward request call).committed.length := by
  rw [distributeRewardSnapshot, h.basis, hlist, hsmooth.unlocked, hsmooth.synced]
  simp only [List.range_eq_range', Bool.or_self, Bool.false_eq_true, if_false]
  have hlength := hsmooth.distributeBatches h.paid (n := payments.length / maxPaymentsPerTransaction + 1) (Nat.zero_le _)
  rwa [Nat.zero_add] at hlength

end

theorem batchOf_eq_nil_iff {i : Nat} : batchOf payments i = [] ↔ payments.length ≤ i * maxPaymentsPerTransaction := by
  rw [batchOf, List.take_eq_nil_iff, List.drop_eq_nil_iff, or_iff_right (by decide)]

/-- Once every batch is committed the list is paid, and an empty batch was attempted exactly when
full batches make up the list. -/
theorem Undisturbed.complete (h : Undisturbed payments basis st)
    (hlength : payments.length / maxPaymentsPerTransaction + 1 ≤ st.committed.length) :
    st.committed.flatMap RewardPayment.payments = payments ∧
      ((∀ b ∈ st.attempted, b ≠ []) ↔ payments.length % maxPaymentsPerTransaction ≠ 0) := by
  have hpos : 0 < maxPaymentsPerTransaction := by decide
  constructor
  · rw [List.flatMap_def, h.paid.committed, ← List.flatMap_def]
    refine (flatMap_pages payments maxPaymentsPerTransaction st.committed.length).trans (List.take_of_length_le ?_)
    have hmod := Nat.mod_lt payments.length hpos
    have hdiv := Nat.div_add_mod' payments.length maxPaymentsPerTransaction
    have hmul := Nat.mul_le_mul_right maxPaymentsPerTransaction hlength
    rw [Nat.add_mul] at hmul
    omega
  · have hdiv := Nat.div_add_mod' payments.length maxPaymentsPerTransaction
    constructor
    · intro hne hzero
      have hlast : batchOf payments (payments.length / maxPaymentsPerTransaction) ∈ st.committed.map RewardPayment.payments := by
        rw [h.paid.committed]
        exact List.mem_map.mpr ⟨_, List.mem_range.mpr (by omega), rfl⟩
      obtain ⟨p, hp, hpayments⟩ := List.mem_map.mp hlast
      refine hne p.payments (h.attempts.committed p hp) ?_
      rw [hpayments, batchOf_eq_nil_iff]
      omega
    · intro hmod b hb hnil
      obtain ⟨i, hi, rfl⟩ := h.attempts.batches b hb
      rw [batchOf_eq_nil_iff] at hnil
      have hmul := Nat.mul_le_mul_right maxPaymentsPerTransaction hi
      omega

/-- Each owner is paid at most once as long as the list is the same at every call and no commit goes
unrecorded; undisturbed calls pay the list, without an empty batch when full batches do not make it
up. -/
theorem each_owner_paid_once (params : ChainParams) (reward : RewardAmount) (request : CRewardSnapshot)
    (basis : RewardBasis) :
    (∀ events : List Event,
      Along (fun st e => some (perform params reward request st e)) (Unbroken request) (start basis) events →
      (((events.foldl (perform params reward request) (start basis)).committed.flatMap
        RewardPayment.payments).map OwnerAndAmount.address).Nodup) ∧
    ∀ (payments : List OwnerAndAmount) (calls : List RewardCall) (last : RewardCall),
      generateDistributionList params reward request basis = some payments →
      (∀ call ∈ calls, call.crash = none) → Smooth last →
      ((calls ++ [last]).foldl (distributeRewardSnapshot params reward request) (start basis)).committed.flatMap
          RewardPayment.payments = payments ∧
        ((∀ b ∈ ((calls ++ [last]).foldl (distributeRewardSnapshot params reward request) (start basis)).attempted,
          b ≠ []) ↔ payments.length % maxPaymentsPerTransaction ≠ 0) := by
  refine ⟨fun events hevents => ((sound_start basis).foldl hevents).nodup, ?_⟩
  intro payments calls last hlist hcalls hsmooth
  have hbefore := Undisturbed.start.foldl hlist hcalls
  rw [List.foldl_concat]
  exact (hbefore.distribute hlist hsmooth.crash).complete (hbefore.smooth_length hlist hsmooth)

def abcRequest : CRewardSnapshot := ⟨str "ABC", str "HEMP", [], 10, 5⟩

def abcBasis : RewardBasis := ⟨some (.make (str "ABC") 5 [(str "alice", 3), (str "bob", 4)]), none, true⟩

/-- A wallet that makes transaction 1 for every batch, and a point at which the process stops. -/
def readyCall (crash : Option (Nat × CrashPoint)) : RewardCall :=
  ⟨false, false, fun _ => some 1, fun _ => some 1, crash⟩

theorem abcRequest_paid_once :
    ((([.distribute (readyCall none), .change abcBasis, .distribute (readyCall none)].foldl
        (perform mainParams (fun _ _ _ _ => 5) abcRequest) (start abcBasis)).committed.flatMap
          RewardPayment.payments).map OwnerAndAmount.address).Nodup ∧
      (([readyCall none] ++ [readyCall none]).foldl (distributeRewardSnapshot mainParams (fun _ _ _ _ => 5) abcRequest)
        (start abcBasis)).committed.flatMap RewardPayment.payments = [⟨str "alice", 5⟩, ⟨str "bob", 5⟩] := by
  have hsource : SameSource abcRequest abcBasis abcBasis := ⟨rfl, .inl rfl⟩
  have hready : Smooth (readyCall none) := by
    refine ⟨rfl, rfl, rfl, fun txid depth hdepth => ?_, fun i => rfl⟩
    rw [← Option.some.inj hdepth]
    decide
  have hnone : ∀ i, (readyCall none).crash ≠ some (i, .beforeRecord) := fun i => nofun
  obtain ⟨hruns, hundisturbed⟩ := each_owner_paid_once mainParams (fun _ _ _ _ => 5) abcRequest abcBasis
  constructor
  · apply hruns
    refine ⟨⟨hnone, nofun⟩, fun st hst => ⟨trivial, fun st' hst' => ⟨⟨hnone, ?_⟩, fun _ _ => trivial⟩⟩⟩
    cases hst
    cases hst'
    have hbasis : ∀ p ∈ ((start abcBasis).distributeRewardSnapshot mainParams (fun _ _ _ _ => 5) abcRequest
        (readyCall none)).committed, p.basis = abcBasis := by decide +kernel
    exact fun p hp => hbasis p hp ▸ hsource
  · exact (hundisturbed _ [readyCall none] (readyCall none) (by decide +kernel) (by simp [readyCall]) hready).1

/-- A process that stops between the commit of a transaction and its record pays again after its
restart, and a list without payments is handed to the wallet as an empty batch. -/
theorem unrecorded_commit_paid_twice :
    ((([.distribute (readyCall (some (0, .beforeRecord))), .distribute (readyCall none)].foldl
        (perform mainParams (fun _ _ _ _ => 5) abcRequest) (start abcBasis)).committed.flatMap
          RewardPayment.payments).map OwnerAndAmount.address) = [str "alice", str "bob", str "alice", str "bob"] ∧
      ([.distribute (readyCall none)].foldl (perform mainParams (fun _ _ _ _ => 0) abcRequest)
        (start abcBasis)).attempted = [[]] := by
  decide +kernel

end RewardState

end HempCore
