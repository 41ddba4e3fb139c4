import HempCore.Lib.Markers

/-!
# Switches along a history of blocks

Blocks carry commands that turn switches on or off. A store keeps the present state of the
switches: pending commands over written markers. A block is accepted when each of its commands
changes the state before the block, and undoing it turns each of its commands round. `Tracks` says
that the store answers for every tracked switch by the last command in the blocks, and every
operation of the store keeps it.
-/

set_option autoImplicit false

namespace HempCore.Lib

open Std

universe u v w

/-! ## Histories -/

section History

variable {K : Type u} [DecidableEq K]

def lastFor (cmds : List (K × Bool)) (k : K) : Option Bool :=
  ((cmds.filter (·.1 = k)).getLast?).map Prod.snd

/-- The state a switch is left in by the blocks, newest first. -/
def switchedOn (blocks : List (List (K × Bool))) (k : K) : Bool :=
  (lastFor blocks.reverse.flatten k).getD false

/-- Every command for a tracked switch changes the state the older blocks left it in. -/
def Opposed (tracked : Set K) : List (List (K × Bool)) → Prop
  | [] => True
  | block :: older =>
    (∀ c ∈ block, c.1 ∈ tracked → switchedOn older c.1 = !c.2) ∧ Opposed tracked older

variable {k : K} {cmds cmds' : List (K × Bool)}

theorem lastFor_append : lastFor (cmds ++ cmds') k = (lastFor cmds' k).or (lastFor cmds k) := by
  simp only [lastFor, List.filter_append, List.getLast?_append]
  cases (cmds'.filter (·.1 = k)).getLast? <;> rfl

theorem lastFor_cons (c : K × Bool) : lastFor (c :: cmds) k = (lastFor cmds k).or (if k = c.1 then some c.2 else none) := by
  rw [← List.singleton_append, lastFor_append]
  congr 1
  by_cases h : k = c.1
  · simp [lastFor, h]
  · simp [lastFor, h, Ne.symm h]

theorem mem_of_lastFor {b : Bool} (h : lastFor cmds k = some b) : (k, b) ∈ cmds := by
  simp only [lastFor, Option.map_eq_some_iff] at h
  obtain ⟨c, hc, rfl⟩ := h
  have hmem := List.mem_of_getLast? hc
  simp only [List.mem_filter, decide_eq_true_eq] at hmem
  obtain ⟨hmem, rfl⟩ := hmem
  exact hmem

theorem lastFor_eq_none : lastFor cmds k = none ↔ ∀ c ∈ cmds, c.1 ≠ k := by
  simp [lastFor]

theorem switchedOn_cons (block : List (K × Bool)) (older : List (List (K × Bool))) (k : K) :
    switchedOn (block :: older) k = (lastFor block k).getD (switchedOn older k) := by
  rw [switchedOn, List.reverse_cons, List.flatten_append, List.flatten_singleton, lastFor_append]
  cases lastFor block k <;> rfl

end History

/-! ## Lists of pending commands -/

/-- A loop over commands of several kinds, seen through a field that one kind changes. -/
theorem foldl_filterMap_field {S A B P : Type*} {step : S → A → S} (get : S → P) (pick : A → Option B) (f : P → B → P)
    (hstep : ∀ s a, get (step s a) = (pick a).elim (get s) (f (get s))) (l : List A) (s : S) :
    get (l.foldl step s) = (l.filterMap pick).foldl f (get s) := by
  induction l generalizing s with
  | nil => rfl
  | cons a l ih =>
    rw [List.foldl_cons, ih, hstep, List.filterMap_cons]
    cases pick a <;> rfl

namespace Pending

variable {K : Type u} {C : Type w} [Ord K]

def addAll (p : Pending K C) (cmds : List (K × C)) : Pending K C :=
  cmds.foldl (fun p c => p.add c.1 c.2) p

/-- Takes up the undoing of commands one after the other. -/
def undoAll (p : Pending K C) (cmds : List (K × C)) : Pending K C :=
  cmds.foldl (fun p c => p.undo c.1 c.2) p

variable [TransOrd K] [DecidableEq K] [LawfulEqOrd K] (on : C → Bool) (cmds : List (K × C))
  (k : K) {p : Pending K C}

theorem Exclusive.addAll (hp : p.Exclusive) : (p.addAll cmds).Exclusive := by
  induction cmds generalizing p with
  | nil => exact hp
  | cons c cmds ih => exact ih (hp.add c.1 c.2)

theorem Exclusive.undoAll (hp : p.Exclusive) : (p.undoAll cmds).Exclusive := by
  induction cmds generalizing p with
  | nil => exact hp
  | cons c cmds ih => exact ih (hp.undo c.1 c.2)

theorem status_addAll : (p.addAll cmds).status on k = (lastFor (cmds.map fun c => (c.1, on c.2)) k).or (p.status on k) := by
  induction cmds generalizing p with
  | nil => rfl
  | cons c cmds ih =>
    rw [addAll, List.foldl_cons, ← addAll, ih, status_add, List.map_cons, lastFor_cons]
    cases lastFor (cmds.map fun c => (c.1, on c.2)) k with
    | some b => rfl
    | none => split_ifs <;> rfl

theorem status_undoAll : (p.undoAll cmds).status on k = (lastFor (cmds.map fun c => (c.1, !on c.2)) k).or (p.status on k) := by
  induction cmds generalizing p with
  | nil => rfl
  | cons c cmds ih =>
    rw [undoAll, List.foldl_cons, ← undoAll, ih, status_undo, List.map_cons, lastFor_cons]
    cases lastFor (cmds.map fun c => (c.1, !on c.2)) k with
    | some b => rfl
    | none => split_ifs <;> rfl

end Pending

/-! ## Stores -/

/-- Pending commands over written markers. -/
structure Switches (K : Type u) (C : Type w) (H : Type v) [Ord K] where
  pending : Pending K C
  markers : Markers K H

namespace Switches

variable {K : Type u} {C : Type w} {H : Type v} [Ord K] [DecidableEq H]

/-- The answer for a switch, the cache of markers asked before the database. -/
def answer (digest : K → H) (on : C → Bool) (s : Switches K C H) (k : K) : Bool :=
  (s.pending.status on k).getD (s.markers.has digest k)

/-- The state of a switch, the cache of markers left out. -/
def value (on : C → Bool) (s : Switches K C H) (k : K) : Bool :=
  (s.pending.status on k).getD (s.markers.db.contains k)

def merge (p : Pending K C) (s : Switches K C H) : Switches K C H :=
  { s with pending := p.flushInto s.pending }

def dump (digest : K → H) (on : C → Bool) (s : Switches K C H) : Switches K C H :=
  ⟨.empty, s.markers.dump digest on s.pending⟩

/-- A read that goes to the database. -/
def refill (digest : K → H) (s : Switches K C H) (k : K) : Switches K C H :=
  { s with markers := s.markers.refill digest k }

/-- Every switch that is pending, marked or cached is in use. -/
structure Sound (digest : K → H) (on : C → Bool) (keys : Set K) (s : Switches K C H) : Prop where
  exclusive : s.pending.Exclusive
  used : ∀ k, s.pending.status on k ≠ none → k ∈ keys
  markers : s.markers.Sound digest keys

variable {digest : K → H} {on : C → Bool} {keys : Set K} {s : Switches K C H}

/-- A cached marker can only add to the answer. -/
theorem answer_of_value {k : K} (h : s.value on k = true) : s.answer digest on k = true := by
  unfold value at h
  unfold answer
  cases hk : s.pending.status on k with
  | some b => simpa [hk] using h
  | none =>
    rw [hk] at h
    simp only [Option.getD_none] at h ⊢
    simp [Markers.has, h]

theorem Sound.answer_eq (hs : s.Sound digest on keys) (hinj : Set.InjOn digest keys) {k : K}
    (hk : k ∈ keys) : s.answer digest on k = s.value on k := by
  rw [answer, value, hs.markers.has_eq hinj hk]

theorem Sound.refill (hs : s.Sound digest on keys) (k : K) : (s.refill digest k).Sound digest on keys :=
  ⟨hs.exclusive, hs.used, hs.markers.refill k⟩

theorem value_refill (k j : K) : (s.refill digest k).value on j = s.value on j := by
  have hdb : (s.markers.refill digest k).db = s.markers.db := by
    unfold Markers.refill
    split_ifs <;> rfl
  rw [value, refill, hdb, value]

/-! ### Histories -/

section Tracks

variable [DecidableEq K] {tracked : Set K} {blocks : List (List (K × Bool))} {cmds : List (K × C)}

/-- The store answers for the tracked switches by the last command in the blocks, and the blocks
were checked. -/
structure Tracks (digest : K → H) (on : C → Bool) (keys tracked : Set K) (s : Switches K C H)
    (blocks : List (List (K × Bool))) : Prop where
  sound : s.Sound digest on keys
  value : ∀ k ∈ tracked, s.value on k = switchedOn blocks k
  opposed : Opposed tracked blocks

section

variable (h : s.Tracks digest on keys tracked blocks)
include h

theorem Tracks.answer_eq (hinj : Set.InjOn digest keys) {k : K}
    (hk : k ∈ keys) (htracked : k ∈ tracked) : s.answer digest on k = switchedOn blocks k := by
  rw [h.sound.answer_eq hinj hk, h.value k htracked]

theorem Tracks.answer_of_switchedOn {k : K}
    (htracked : k ∈ tracked) (hk : switchedOn blocks k = true) : s.answer digest on k = true :=
  answer_of_value (by rw [h.value k htracked, hk])

theorem Tracks.refill (k : K) :
    (s.refill digest k).Tracks digest on keys tracked blocks :=
  ⟨h.sound.refill k, fun j hj => (value_refill k j).trans (h.value j hj), h.opposed⟩

end

variable [TransOrd K]

omit [DecidableEq K] in
theorem sound_empty (n : Nat) : (⟨.empty, .empty n⟩ : Switches K C H).Sound digest on keys where
  exclusive := Pending.exclusive_empty
  used k h := absurd (Pending.status_empty on k) h
  markers := Markers.sound_empty n

theorem tracks_empty (n : Nat) :
    (⟨.empty, .empty n⟩ : Switches K C H).Tracks digest on keys tracked [] where
  sound := sound_empty n
  value k _ := by simp [Switches.value, Pending.status_empty, Markers.empty, switchedOn, lastFor]
  opposed := trivial

variable [LawfulEqOrd K]

omit [DecidableEq H] in
theorem value_merge {p : Pending K C} (hp : p.Exclusive) (k : K) :
    (s.merge p).value on k = (p.status on k).getD (s.value on k) := by
  rw [value, merge, Pending.status_flushInto on k s.pending hp, value]
  cases p.status on k <;> rfl

theorem Sound.merge (hs : s.Sound digest on keys) {p : Pending K C} (hp : p.Exclusive)
    (hused : ∀ k, p.status on k ≠ none → k ∈ keys) : (s.merge p).Sound digest on keys where
  exclusive := hp.flushInto hs.exclusive
  used k h := by
    rw [Switches.merge, Pending.status_flushInto on k s.pending hp] at h
    cases hk : p.status on k with
    | some b => exact hused k (by simp [hk])
    | none =>
      rw [hk, Option.none_or] at h
      exact hs.used k h
  markers := hs.markers

theorem value_dump (hs : s.Sound digest on keys) (k : K) : (s.dump digest on).value on k = s.value on k := by
  rw [value, dump, Pending.status_empty, Option.getD_none, Markers.contains_dump on hs.exclusive, value]

theorem Sound.dump (hs : s.Sound digest on keys) : (s.dump digest on).Sound digest on keys where
  exclusive := Pending.exclusive_empty
  used k h := absurd (Pending.status_empty on k) h
  markers := hs.markers.dump hs.used

theorem Tracks.dump (h : s.Tracks digest on keys tracked blocks) : (s.dump digest on).Tracks digest on keys tracked blocks :=
  ⟨h.sound.dump, fun k hk => (value_dump h.sound k).trans (h.value k hk), h.opposed⟩

/-- A block each of whose commands for a tracked switch changes the answer. -/
theorem Tracks.connect (h : s.Tracks digest on keys tracked blocks) (hinj : Set.InjOn digest keys)
    (hkeys : ∀ c ∈ cmds, c.1 ∈ keys)
    (hchecked : ∀ c ∈ cmds, c.1 ∈ tracked → s.answer digest on c.1 = !on c.2) :
    (s.merge (Pending.empty.addAll cmds)).Tracks digest on keys tracked ((cmds.map fun c => (c.1, on c.2)) :: blocks) := by
  have hexclusive : (Pending.empty.addAll cmds).Exclusive := Pending.exclusive_empty.addAll cmds
  have hstatus : ∀ k, (Pending.empty.addAll cmds).status on k = lastFor (cmds.map fun c => (c.1, on c.2)) k := by
    intro k
    rw [Pending.status_addAll, Pending.status_empty, Option.or_none]
  refine ⟨h.sound.merge hexclusive fun k hk => ?_, fun k hk => ?_, fun c hc htracked => ?_, h.opposed⟩
  · rw [hstatus] at hk
    obtain ⟨b, hb⟩ := Option.ne_none_iff_exists'.mp hk
    obtain ⟨c, hc, hcb⟩ := List.mem_map.mp (mem_of_lastFor hb)
    obtain ⟨rfl, -⟩ := Prod.mk.inj hcb
    exact hkeys c hc
  · rw [value_merge hexclusive, hstatus, h.value k hk, switchedOn_cons]
  · obtain ⟨c', hc', rfl⟩ := List.mem_map.mp hc
    rw [← h.answer_eq hinj (hkeys c' hc') htracked]
    exact hchecked c' hc' htracked

/-- Undoing the newest block, its commands in any order. -/
theorem Tracks.disconnect (h : s.Tracks digest on keys tracked ((cmds.map fun c => (c.1, on c.2)) :: blocks))
    {undone : List (K × C)} (hundone : ∀ c, c ∈ undone ↔ c ∈ cmds) (hkeys : ∀ c ∈ cmds, c.1 ∈ keys) :
    (s.merge (Pending.empty.undoAll undone)).Tracks digest on keys tracked blocks := by
  have hexclusive : (Pending.empty.undoAll undone).Exclusive := Pending.exclusive_empty.undoAll undone
  have hstatus : ∀ k, (Pending.empty.undoAll undone).status on k = lastFor (undone.map fun c => (c.1, !on c.2)) k := by
    intro k
    rw [Pending.status_undoAll, Pending.status_empty, Option.or_none]
  have hmem : ∀ k b, lastFor (undone.map fun c => (c.1, !on c.2)) k = some b → ∃ c ∈ cmds, c.1 = k ∧ b = !on c.2 := by
    intro k b hb
    obtain ⟨c, hc, hcb⟩ := List.mem_map.mp (mem_of_lastFor hb)
    obtain ⟨rfl, rfl⟩ := Prod.mk.inj hcb
    exact ⟨c, (hundone c).mp hc, rfl, rfl⟩
  refine ⟨h.sound.merge hexclusive fun k hk => ?_, fun k htracked => ?_, h.opposed.2⟩
  · rw [hstatus] at hk
    obtain ⟨b, hb⟩ := Option.ne_none_iff_exists'.mp hk
    obtain ⟨c, hc, rfl, -⟩ := hmem k b hb
    exact hkeys c hc
  · rw [value_merge hexclusive, hstatus]
    cases hk : lastFor (undone.map fun c => (c.1, !on c.2)) k with
    | some b =>
      -- every command of the block turned the switch away from the state below it
      obtain ⟨c, hc, rfl, rfl⟩ := hmem k b hk
      exact (h.opposed.1 (c.1, on c.2) (List.mem_map.mpr ⟨c, hc, rfl⟩) htracked).symm
    | none =>
      have hnone : lastFor (cmds.map fun c => (c.1, on c.2)) k = none := by
        rw [lastFor_eq_none] at hk ⊢
        intro c hc
        obtain ⟨c', hc', rfl⟩ := List.mem_map.mp hc
        exact hk (c'.1, !on c'.2) (List.mem_map.mpr ⟨c', (hundone c').mpr hc', rfl⟩)
      rw [Option.getD_none, h.value k htracked, switchedOn_cons, hnone, Option.getD_none]

end Tracks

end Switches

end HempCore.Lib
