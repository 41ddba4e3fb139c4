import HempCore.Lib.Switches

/-!
# Groups of switches

A root switch counts as on when it is on itself or when a member of its group is. Beside the
switches, the store remembers that a member was turned on since the last write; nothing takes that
back before the next write. `Follows` says when the store answers for the root by the blocks, and
`ConnectsWell` and `DisconnectsWell` say which blocks keep it so.
-/

set_option autoImplicit false

namespace HempCore.Lib

open Std

universe u v w

/-! ## Histories -/

section History

variable {K : Type u} [DecidableEq K] (root : K) (members : Set K)

def MemberOn (blocks : List (List (K × Bool))) : Prop := ∃ m ∈ members, switchedOn blocks m = true

/-- The blocks left the root or a member on. -/
def GroupOn (blocks : List (List (K × Bool))) : Prop :=
  switchedOn blocks root = true ∨ MemberOn members blocks

omit [DecidableEq K] in
/-- The commands turn a member into the given state. -/
def Turns (on : Bool) (cmds : List (K × Bool)) : Prop := ∃ m ∈ members, (m, on) ∈ cmds

/-- No member was on when a block turned the root on. -/
def ClearBelow : List (List (K × Bool)) → Prop
  | [] => True
  | block :: older => ((root, true) ∈ block → ¬ MemberOn members older) ∧ ClearBelow older

variable {members} {tracked : Set K} {block : List (K × Bool)} {older : List (List (K × Bool))}

/-- The commands of a checked block for one switch all say the same. -/
theorem Opposed.lastFor_iff (h : Opposed tracked (block :: older)) {k : K} (hk : k ∈ tracked)
    {b : Bool} : lastFor block k = some b ↔ (k, b) ∈ block := by
  refine ⟨mem_of_lastFor, fun hmem => ?_⟩
  have hstate : switchedOn older k = !b := h.1 (k, b) hmem hk
  cases hlast : lastFor block k with
  | none => exact absurd rfl (lastFor_eq_none.mp hlast (k, b) hmem)
  | some b' =>
    have hstate' : switchedOn older k = !b' := h.1 (k, b') (mem_of_lastFor hlast) hk
    rw [hstate, Bool.not_inj_iff] at hstate'
    rw [hstate']

/-- Undoing a checked block restores the state below it. -/
theorem Opposed.undo (h : Opposed tracked (block :: older)) {k : K} (hk : k ∈ tracked) :
    switchedOn older k = ((lastFor block k).map (!·)).getD (switchedOn (block :: older) k) := by
  rw [switchedOn_cons]
  cases hlast : lastFor block k with
  | none => rfl
  | some b => exact h.1 (k, b) (mem_of_lastFor hlast) hk

end History

/-! ## Entries of the commands of a block -/

namespace Pending

variable {K : Type u} {C : Type w} [Ord K] [TransOrd K] [DecidableEq K] [LawfulEqOrd K]
  (cmds : List (K × C)) (k : K)

theorem entry_addAll (p : Pending K C) :
    ((∀ c ∈ cmds, c.1 ≠ k) ∧ (p.addAll cmds).entry k = p.entry k) ∨
      ∃ c, (k, c) ∈ cmds ∧ (p.addAll cmds).entry k = (some c, none) := by
  induction cmds generalizing p with
  | nil => exact .inl ⟨by simp, rfl⟩
  | cons c cmds ih =>
    rw [addAll, List.foldl_cons, ← addAll]
    rcases ih (p.add c.1 c.2) with ⟨hnone, hentry⟩ | ⟨c', hmem, hentry⟩
    · rw [hentry, entry_add]
      split_ifs with hk
      · exact .inr ⟨c.2, by simp [hk], rfl⟩
      · exact .inl ⟨by simpa [Ne.symm hk] using hnone, rfl⟩
    · exact .inr ⟨c', List.mem_cons_of_mem _ hmem, hentry⟩

theorem entry_undoAll (p : Pending K C) :
    ((∀ c ∈ cmds, c.1 ≠ k) ∧ (p.undoAll cmds).entry k = p.entry k) ∨
      ∃ c, (k, c) ∈ cmds ∧ (p.undoAll cmds).entry k = (none, some c) := by
  induction cmds generalizing p with
  | nil => exact .inl ⟨by simp, rfl⟩
  | cons c cmds ih =>
    rw [undoAll, List.foldl_cons, ← undoAll]
    rcases ih (p.undo c.1 c.2) with ⟨hnone, hentry⟩ | ⟨c', hmem, hentry⟩
    · rw [hentry, entry_undo]
      split_ifs with hk
      · exact .inr ⟨c.2, by simp [hk], rfl⟩
      · exact .inl ⟨by simpa [Ne.symm hk] using hnone, rfl⟩
    · exact .inr ⟨c', List.mem_cons_of_mem _ hmem, hentry⟩

end Pending

/-! ## Stores -/

namespace Switches

section Answers

variable {K : Type u} {C : Type w} {H : Type v} [Ord K] [DecidableEq K] [DecidableEq H]

def Marked (root : K) (members : Set K) (s : Switches K C H) : Prop :=
  ∃ k, (k = root ∨ k ∈ members) ∧ s.markers.db.contains k = true

/-- The answer for the root: `listed` says that a member was turned on since the last write. -/
def GroupAnswer (digest : K → H) (on : C → Bool) (root : K) (members : Set K) (s : Switches K C H)
    (listed : Prop) : Prop :=
  match s.pending.entry root with
  | (_, some c) => on c = false
  | (some c, none) => on c = true ∨ listed
  | (none, none) => listed ∨ s.markers.has digest root = true ∨ s.Marked root members

/-- What the answer for the root rests on, by the pending command for it. -/
def Supported (on : C → Bool) (root : K) (members : Set K) (s : Switches K C H) (listed : Prop)
    (blocks : List (List (K × Bool))) : Prop :=
  match s.pending.entry root with
  | (_, some c) => on c = true → ¬ MemberOn members blocks
  | (some c, none) => on c = false → (listed ↔ MemberOn members blocks)
  | (none, none) => listed ∨ s.Marked root members → GroupOn root members blocks

/-- The store follows the blocks, for the root of a group as for its members. -/
structure Follows (digest : K → H) (on : C → Bool) (keys : Set K) (root : K) (members : Set K)
    (s : Switches K C H) (listed : Prop) (blocks : List (List (K × Bool))) : Prop where
  tracks : s.Tracks digest on keys (insert root members) blocks
  noted : ∀ m ∈ members, s.pending.status on m = some true → listed
  clear : ClearBelow root members blocks
  supported : s.Supported on root members listed blocks

variable {digest : K → H} {on : C → Bool} {keys : Set K} {root : K} {members : Set K}
  {s : Switches K C H} {listed : Prop} {blocks : List (List (K × Bool))}

theorem Follows.answer_iff (h : s.Follows digest on keys root members listed blocks) (hinj : Set.InjOn digest keys)
    (hroot : root ∈ keys) : s.GroupAnswer digest on root members listed ↔ GroupOn root members blocks := by
  have hvalue : s.value on root = switchedOn blocks root := h.tracks.value root (Set.mem_insert _ _)
  have hsupported := h.supported
  unfold GroupAnswer
  unfold Supported at hsupported
  unfold Switches.value Pending.status at hvalue
  rcases hentry : s.pending.entry root with ⟨_ | c, _ | c'⟩
  · rw [hentry] at hvalue hsupported
    simp only [Option.getD_none] at hvalue hsupported ⊢
    constructor
    · rintro (hl | hhas | hmarked)
      · exact hsupported (.inl hl)
      · rw [h.tracks.sound.markers.has_eq hinj hroot, hvalue] at hhas
        exact .inl hhas
      · exact hsupported (.inr hmarked)
    · rintro (hon | ⟨m, hm, hon⟩)
      · exact .inr (.inr ⟨root, .inl rfl, hvalue.trans hon⟩)
      · rw [← h.tracks.value m (Set.mem_insert_of_mem _ hm), Switches.value] at hon
        cases hstatus : s.pending.status on m with
        | some b =>
          rw [hstatus, Option.getD_some] at hon
          exact .inl (h.noted m hm (by rw [hstatus, hon]))
        | none =>
          rw [hstatus, Option.getD_none] at hon
          exact .inr (.inr ⟨m, .inr hm, hon⟩)
  · rw [hentry] at hvalue hsupported
    simp only [Option.getD_some] at hvalue hsupported ⊢
    cases hc : on c' <;> simp_all [GroupOn]
  · rw [hentry] at hvalue hsupported
    simp only [Option.getD_some] at hvalue hsupported ⊢
    cases hc : on c <;> simp_all [GroupOn]
  · rw [hentry] at hvalue hsupported
    simp only [Option.getD_some] at hvalue hsupported ⊢
    cases hc : on c' <;> simp_all [GroupOn]

omit [DecidableEq K] in
theorem groupAnswer_alone : s.GroupAnswer digest on root ∅ False ↔ s.answer digest on root = true := by
  have hmarked : s.Marked root ∅ ↔ s.markers.db.contains root = true := by
    simp [Marked]
  unfold GroupAnswer answer Pending.status
  rcases s.pending.entry root with ⟨_ | c, _ | c'⟩ <;> simp [hmarked, Markers.has]

omit [DecidableEq K] in
theorem marked_refill (k : K) : (s.refill digest k).Marked root members ↔ s.Marked root members := by
  have hdb : (s.markers.refill digest k).db = s.markers.db := by
    unfold Markers.refill
    split_ifs <;> rfl
  simp only [Marked, refill, hdb]

theorem Follows.refill (h : s.Follows digest on keys root members listed blocks) (k : K) :
    (s.refill digest k).Follows digest on keys root members listed blocks := by
  refine ⟨h.tracks.refill k, h.noted, h.clear, ?_⟩
  have hsupported := h.supported
  unfold Supported at hsupported ⊢
  rw [marked_refill]
  exact hsupported

variable [TransOrd K]

theorem follows_empty (n : Nat) :
    (⟨.empty, .empty n⟩ : Switches K C H).Follows digest on keys root members False [] where
  tracks := tracks_empty n
  noted m _ h := by simp [Pending.status_empty] at h
  clear := trivial
  supported := by
    simp only [Supported, Pending.entry_empty, false_or]
    rintro ⟨k, -, hk⟩
    simp [Markers.empty] at hk

variable [LawfulEqOrd K]

/-- After a write the markers say what was pending, and nothing is listed. -/
theorem Follows.dump (h : s.Follows digest on keys root members listed blocks) :
    (s.dump digest on).Follows digest on keys root members False blocks where
  tracks := h.tracks.dump
  noted m _ hm := by simp [Switches.dump, Pending.status_empty] at hm
  clear := h.clear
  supported := by
    simp only [Supported, Switches.dump, Pending.entry_empty, false_or]
    rintro ⟨k, hk, hmarked⟩
    have hk' : k ∈ insert root members := hk
    have hvalue : s.value on k = true := by
      rw [Markers.contains_dump on h.tracks.sound.exclusive] at hmarked
      exact hmarked
    rw [h.tracks.value k hk'] at hvalue
    rcases hk with rfl | hk
    · exact .inl hvalue
    · exact .inr ⟨k, hk, hvalue⟩

end Answers

/-! ## Blocks -/

section Blocks

variable {K : Type u} {C : Type w} {H : Type v} [Ord K] [DecidableEq K] [DecidableEq H]
  (on : C → Bool) (root : K) (members : Set K) (s : Switches K C H) (listed : Prop)
  (block : List (K × Bool)) (blocks : List (List (K × Bool)))

omit [DecidableEq K] [DecidableEq H] in
/-- The undoing of a command that turned the root on is pending. -/
def UndoneOn : Prop := ∃ c, (s.pending.entry root).2 = some c ∧ on c = true

/-- What a block may do to the group when it is connected. Without a command for the root: it turns
a member off only when the group stays on, and one on only when no turning on of the root is waiting
to be undone. When it turns the root off: the root itself was on, if a member was, and afterwards
the members that were listed are those that are on. -/
structure ConnectsWell : Prop where
  off : (∀ b, (root, b) ∉ block) → Turns members false block → GroupOn root members (block :: blocks)
  on : (∀ b, (root, b) ∉ block) → Turns members true block → ¬ UndoneOn on root s
  rootWasOn : (root, false) ∈ block → MemberOn members blocks → switchedOn blocks root = true
  listedOn : (root, false) ∈ block →
    (listed ∨ Turns members true block ↔ MemberOn members (block :: blocks))

/-- What a block may do to the group when it is disconnected: as for a connected one, with its
commands turned round. -/
structure DisconnectsWell : Prop where
  off : (∀ b, (root, b) ∉ block) → Turns members true block → GroupOn root members blocks
  on : (∀ b, (root, b) ∉ block) → Turns members false block → ¬ UndoneOn on root s

variable {on root members s listed block blocks} {s' : Switches K C H} {listed' : Prop}
  {blocks' : List (List (K × Bool))}

omit [DecidableEq H] in
/-- Commands for members alone: `turned` is what they do to each member. -/
theorem Supported.turn (turned : K → Option Bool) (h : s.Supported on root members listed blocks)
    (hvalue : s.value on root = switchedOn blocks root)
    (hentry : s'.pending.entry root = s.pending.entry root) (hmarkers : s'.markers = s.markers)
    (hroot : switchedOn blocks' root = switchedOn blocks root)
    (hmember : ∀ m ∈ members, switchedOn blocks' m = (turned m).getD (switchedOn blocks m))
    (hlisted : listed' ↔ listed ∨ ∃ m ∈ members, turned m = some true)
    (hoff : (∃ m ∈ members, turned m = some false) → GroupOn root members blocks')
    (hon : (∃ m ∈ members, turned m = some true) → ¬ UndoneOn on root s) :
    s'.Supported on root members listed' blocks' := by
  -- a member that was on stays on, or the group does
  have hkeep : MemberOn members blocks → GroupOn root members blocks' := by
    rintro ⟨m, hm, hwas⟩
    have hafter := hmember m hm
    cases hturned : turned m with
    | none =>
      rw [hturned, Option.getD_none, hwas] at hafter
      exact .inr ⟨m, hm, hafter⟩
    | some b =>
      cases b with
      | true =>
        rw [hturned, Option.getD_some] at hafter
        exact .inr ⟨m, hm, hafter⟩
      | false => exact hoff ⟨m, hm, hturned⟩
  have hnew : (∃ m ∈ members, turned m = some true) → MemberOn members blocks' := by
    rintro ⟨m, hm, hturned⟩
    refine ⟨m, hm, ?_⟩
    rw [hmember m hm, hturned, Option.getD_some]
  have hcome : MemberOn members blocks' → MemberOn members blocks ∨ ∃ m ∈ members, turned m = some true := by
    rintro ⟨m, hm, his⟩
    rw [hmember m hm] at his
    cases hturned : turned m with
    | none =>
      rw [hturned, Option.getD_none] at his
      exact .inl ⟨m, hm, his⟩
    | some b =>
      rw [hturned, Option.getD_some] at his
      exact .inr ⟨m, hm, by rw [hturned, his]⟩
  have hmarked : s'.Marked root members ↔ s.Marked root members := by simp only [Marked, hmarkers]
  unfold Supported at h ⊢
  unfold Switches.value Pending.status at hvalue
  rw [hentry, hmarked]
  rcases hcase : s.pending.entry root with ⟨_ | c, _ | c'⟩
  · rw [hcase] at h
    simp only at h ⊢
    intro hbefore
    have hwas : GroupOn root members blocks ∨ ∃ m ∈ members, turned m = some true := by
      rcases hbefore with hl | hm
      · exact (hlisted.mp hl).imp (fun hl => h (.inl hl)) id
      · exact .inl (h (.inr hm))
    rcases hwas with (hwas | hwas) | hnow
    · exact .inl (hroot.trans hwas)
    · exact hkeep hwas
    · exact .inr (hnew hnow)
  · rw [hcase] at h
    simp only at h ⊢
    intro hc his
    rcases hcome his with hwas | hnow
    · exact h hc hwas
    · exact hon hnow ⟨c', by rw [hcase], hc⟩
  · rw [hcase] at h hvalue
    simp only [Option.getD_some] at h hvalue ⊢
    intro hc
    rw [hlisted, h hc]
    refine ⟨?_, hcome⟩
    rintro (hwas | hnow)
    · -- the root is off, so the group can only be on by a member
      rcases hkeep hwas with his | his
      · rw [hroot, ← hvalue, hc] at his
        cases his
      · exact his
    · exact hnew hnow
  · rw [hcase] at h
    simp only at h ⊢
    intro hc his
    rcases hcome his with hwas | hnow
    · exact h hc hwas
    · exact hon hnow ⟨c', by rw [hcase], hc⟩

variable [TransOrd K] [LawfulEqOrd K] {digest : K → H} {keys : Set K} {cmds : List (K × C)}

/-- A checked block that treats the group well. -/
theorem Follows.connect (h : s.Follows digest on keys root members listed blocks)
    (hinj : Set.InjOn digest keys) (hkey : root ∈ keys) (hkeys : ∀ c ∈ cmds, c.1 ∈ keys)
    (hmembers : ∀ c ∈ cmds, c.1 ∈ members → s.answer digest on c.1 = !on c.2)
    (hasked : ∀ c ∈ cmds, c.1 = root → (s.GroupAnswer digest on root members listed ↔ on c.2 = false))
    (hwell : ConnectsWell on root members s listed (cmds.map fun c => (c.1, on c.2)) blocks)
    (hlisted : listed' ↔ listed ∨ ∃ m ∈ members, lastFor (cmds.map fun c => (c.1, on c.2)) m = some true) :
    (s.merge (Pending.empty.addAll cmds)).Follows digest on keys root members listed'
      ((cmds.map fun c => (c.1, on c.2)) :: blocks) := by
  set block := cmds.map fun c => (c.1, on c.2) with hblock
  have hmem : ∀ c ∈ cmds, (c.1, on c.2) ∈ block := fun c hc => List.mem_map.mpr ⟨c, hc, rfl⟩
  have htracks : (s.merge (Pending.empty.addAll cmds)).Tracks digest on keys (insert root members) (block :: blocks) := by
    refine h.tracks.connect hinj hkeys fun c hc htracked => ?_
    rcases htracked with hc1 | hc1
    · have hasks := hasked c hc hc1
      rw [h.answer_iff hinj hkey] at hasks
      rw [hc1, h.tracks.answer_eq hinj hkey (Set.mem_insert _ _)]
      cases hon : on c.2 with
      | true =>
        rw [hon] at hasks
        have hoff : switchedOn blocks root ≠ true := fun his => absurd (hasks.mp (.inl his)) (by simp)
        simpa using hoff
      | false =>
        have hturned : (root, false) ∈ block := by simpa [hc1, hon] using hmem c hc
        exact (hasks.mpr hon).elim id (hwell.rootWasOn hturned)
    · exact hmembers c hc hc1
  have hexclusive : (Pending.empty.addAll cmds).Exclusive := Pending.exclusive_empty.addAll cmds
  have hlast : ∀ m ∈ members, ∀ b, lastFor block m = some b ↔ (m, b) ∈ block :=
    fun m hm b => htracks.opposed.lastFor_iff (Set.mem_insert_of_mem _ hm)
  have hturns : ∀ b, (∃ m ∈ members, lastFor block m = some b) → Turns members b block := by
    rintro b ⟨m, hm, hb⟩
    exact ⟨m, hm, (hlast m hm b).mp hb⟩
  refine ⟨htracks, fun m hm hstatus => ?_, ⟨fun hturned hmember => ?_, h.clear⟩, ?_⟩
  · rw [merge, Pending.status_flushInto on m s.pending hexclusive, Pending.status_addAll,
      Pending.status_empty, Option.or_none, ← hblock] at hstatus
    rw [hlisted]
    cases hm' : lastFor block m with
    | some b =>
      rw [hm', Option.some_or] at hstatus
      exact .inr ⟨m, hm, hm'.trans hstatus⟩
    | none =>
      rw [hm', Option.none_or] at hstatus
      exact .inl (h.noted m hm hstatus)
  · obtain ⟨c, hc, hcb⟩ := List.mem_map.mp hturned
    obtain ⟨hc1, hc2⟩ := Prod.mk.inj hcb
    have hasks := hasked c hc hc1
    rw [h.answer_iff hinj hkey, hc2] at hasks
    exact absurd (hasks.mp (.inr hmember)) (by simp)
  · rcases Pending.entry_addAll cmds root Pending.empty with ⟨hnone, hentry⟩ | ⟨c, hc, hentry⟩
    · have hnone' : ∀ b, (root, b) ∉ block := by
        intro b hb
        obtain ⟨c, hc, hcb⟩ := List.mem_map.mp hb
        exact hnone c hc (Prod.mk.inj hcb).1
      refine h.supported.turn (lastFor block) (h.tracks.value root (Set.mem_insert _ _))
        ?_ rfl ?_ (fun m _ => switchedOn_cons block blocks m) hlisted
        (fun hoff => hwell.off hnone' (hturns false hoff))
        (fun hon => hwell.on hnone' (hturns true hon))
      · rw [merge, Pending.entry_flushInto _ _ _ hexclusive, hentry, Pending.entry_empty]
        rfl
      · rw [switchedOn_cons, lastFor_eq_none.mpr, Option.getD_none]
        rintro ⟨k, b⟩ hb rfl
        exact hnone' b hb
    · have hmerged : (s.merge (Pending.empty.addAll cmds)).pending.entry root = (some c, none) := by
        rw [merge, Pending.entry_flushInto _ _ _ hexclusive, hentry]
        rfl
      unfold Supported
      rw [hmerged]
      intro hoff
      have hturned : (root, false) ∈ block := by simpa [hoff] using hmem (root, c) hc
      rw [← hwell.listedOn hturned, hlisted]
      refine or_congr_right ⟨hturns true, ?_⟩
      rintro ⟨m, hm, hon⟩
      exact ⟨m, hm, (hlast m hm true).mpr hon⟩

/-- Undoing the newest block, its commands in any order. -/
theorem Follows.disconnect (h : s.Follows digest on keys root members listed ((cmds.map fun c => (c.1, on c.2)) :: blocks))
    {undone : List (K × C)} (hundone : ∀ c, c ∈ undone ↔ c ∈ cmds) (hkeys : ∀ c ∈ cmds, c.1 ∈ keys)
    (hwell : DisconnectsWell on root members s (cmds.map fun c => (c.1, on c.2)) blocks)
    (hlisted : listed' ↔ listed ∨ ∃ m ∈ members, lastFor (undone.map fun c => (c.1, !on c.2)) m = some true) :
    (s.merge (Pending.empty.undoAll undone)).Follows digest on keys root members listed' blocks := by
  set block := cmds.map fun c => (c.1, on c.2) with hblock
  set back := undone.map fun c => (c.1, !on c.2) with hback
  have htracks := h.tracks.disconnect hundone hkeys
  have hexclusive : (Pending.empty.undoAll undone).Exclusive := Pending.exclusive_empty.undoAll undone
  have hturned : ∀ k b, (k, b) ∈ back ↔ (k, !b) ∈ block := by
    intro k b
    simp only [hback, hblock, List.mem_map, hundone, Prod.mk.injEq]
    exact exists_congr fun c => by rw [Bool.not_eq_eq_eq_not, eq_comm]
  have hlast : ∀ k ∈ insert root members, lastFor back k = (lastFor block k).map (!·) := by
    intro k hk
    cases hback' : lastFor back k with
    | none =>
      rw [lastFor_eq_none] at hback'
      rw [lastFor_eq_none.mpr, Option.map_none]
      rintro ⟨j, b⟩ hb rfl
      exact hback' (j, !b) ((hturned j (!b)).mpr (by rwa [Bool.not_not])) rfl
    | some b =>
      rw [(h.tracks.opposed.lastFor_iff hk).mpr ((hturned k b).mp (mem_of_lastFor hback')), Option.map_some, Bool.not_not]
  have hturns : ∀ b, (∃ m ∈ members, lastFor back m = some b) → Turns members (!b) block := by
    rintro b ⟨m, hm, hb⟩
    exact ⟨m, hm, (hturned m b).mp (mem_of_lastFor hb)⟩
  have hstate : ∀ k ∈ insert root members, switchedOn blocks k = (lastFor back k).getD (switchedOn (block :: blocks) k) := by
    intro k hk
    rw [hlast k hk]
    exact h.tracks.opposed.undo hk
  refine ⟨htracks, fun m hm hstatus => ?_, h.clear.2, ?_⟩
  · rw [merge, Pending.status_flushInto on m s.pending hexclusive, Pending.status_undoAll,
      Pending.status_empty, Option.or_none, ← hback] at hstatus
    rw [hlisted]
    cases hm' : lastFor back m with
    | some b =>
      rw [hm', Option.some_or] at hstatus
      exact .inr ⟨m, hm, hm'.trans hstatus⟩
    | none =>
      rw [hm', Option.none_or] at hstatus
      exact .inl (h.noted m hm hstatus)
  · rcases Pending.entry_undoAll undone root Pending.empty with ⟨hnone, hentry⟩ | ⟨c, hc, hentry⟩
    · have hnone' : ∀ b, (root, b) ∉ block := by
        intro b hb
        obtain ⟨c, hc, hcb⟩ := List.mem_map.mp hb
        exact hnone c ((hundone c).mpr hc) (Prod.mk.inj hcb).1
      refine h.supported.turn (lastFor back) (h.tracks.value root (Set.mem_insert _ _))
        ?_ rfl ?_ (fun m hm => hstate m (Set.mem_insert_of_mem _ hm)) hlisted
        (fun hoff => hwell.off hnone' (hturns false hoff))
        (fun hon => hwell.on hnone' (hturns true hon))
      · rw [merge, Pending.entry_flushInto _ _ _ hexclusive, hentry, Pending.entry_empty]
        rfl
      · rw [switchedOn_cons, lastFor_eq_none.mpr, Option.getD_none]
        rintro ⟨k, b⟩ hb rfl
        exact hnone' b hb
    · have hmerged : (s.merge (Pending.empty.undoAll undone)).pending.entry root = (none, some c) := by
        rw [merge, Pending.entry_flushInto _ _ _ hexclusive, hentry]
        rfl
      unfold Supported
      rw [hmerged]
      intro hc'
      refine h.clear.1 (List.mem_map.mpr ⟨(root, c), (hundone _).mp hc, ?_⟩)
      simp [hc']

end Blocks

end Switches

end HempCore.Lib
