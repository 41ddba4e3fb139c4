import HempCore.Lib.Pending

/-!
# Walking a finite graph

A walk empties a stage of nodes: each node it takes joins the nodes done, and those of its successors
that are not done join the stage. In a finite graph it ends with a set that is closed under
successors, and with the least one that has the nodes it started from.
-/

set_option autoImplicit false

namespace HempCore.Lib

open Std

universe u

variable {K : Type u} [Ord K] [TransOrd K] [LawfulEqOrd K]

/-- The successors of a node join the stage unless they are done. -/
def pushNext (done : TreeSet K) (stage : TreeSet K) (next : List K) : TreeSet K :=
  next.foldl (fun stage k => if done.contains k then stage else stage.insert k) stage

def walk (next : K → List K) : Nat → TreeSet K → TreeSet K → TreeSet K
  | 0, _, done => done
  | fuel + 1, stage, done =>
    match stage.toList.head? with
    | none => done
    | some k => walk next fuel (pushNext (done.insert k) (stage.erase k) (next k)) (done.insert k)

variable {next : K → List K} {stage done : TreeSet K}

theorem mem_pushNext {l : List K} {j : K} : j ∈ pushNext done stage l ↔ j ∈ stage ∨ (j ∈ l ∧ j ∉ done) := by
  induction l generalizing stage with
  | nil => simp [pushNext]
  | cons k l ih =>
    have hstep : pushNext done stage (k :: l) = pushNext done (if done.contains k then stage else stage.insert k) l := rfl
    rw [hstep, ih]
    by_cases hk : k ∈ done
    · rw [if_pos (TreeSet.contains_iff_mem.mpr hk), List.mem_cons]
      constructor
      · exact Or.imp_right fun h => ⟨.inr h.1, h.2⟩
      · rintro (h | ⟨rfl | h, hnot⟩)
        · exact .inl h
        · exact absurd hk hnot
        · exact .inr ⟨h, hnot⟩
    · rw [if_neg (by rwa [TreeSet.contains_iff_mem]), mem_insert_iff, List.mem_cons]
      constructor
      · rintro ((rfl | h) | ⟨h, hnot⟩)
        · exact .inr ⟨.inl rfl, hk⟩
        · exact .inl h
        · exact .inr ⟨.inr h, hnot⟩
      · rintro (h | ⟨rfl | h, hnot⟩)
        · exact .inl (.inr h)
        · exact .inl (.inl rfl)
        · exact .inr ⟨h, hnot⟩

theorem mem_of_head?_eq_some {k : K} (h : stage.toList.head? = some k) : k ∈ stage :=
  TreeSet.mem_toList.mp (List.mem_of_head? h)

/-- The nodes done so far, the stage and what has been seen of the graph. -/
structure Walking (next : K → List K) (nodes : Finset K) (stage done : TreeSet K) : Prop where
  stage_sub : ∀ k ∈ stage, k ∈ nodes ∧ k ∉ done
  done_sub : ∀ k ∈ done, k ∈ nodes
  next_sub : ∀ k ∈ nodes, ∀ j ∈ next k, j ∈ nodes
  seen : ∀ k ∈ done, ∀ j ∈ next k, j ∈ done ∨ j ∈ stage

variable {nodes : Finset K}

theorem Walking.step (h : Walking next nodes stage done) {k : K} (hk : k ∈ stage) :
    Walking next nodes (pushNext (done.insert k) (stage.erase k) (next k)) (done.insert k) := by
  have hnode := (h.stage_sub k hk).1
  constructor
  · intro j hj
    rcases mem_pushNext.mp hj with hj | ⟨hj, hnot⟩
    · obtain ⟨hne, hj⟩ := mem_erase_iff.mp hj
      obtain ⟨hin, hnot⟩ := h.stage_sub j hj
      exact ⟨hin, fun hmem => (mem_insert_iff.mp hmem).elim hne hnot⟩
    · exact ⟨h.next_sub k hnode j hj, hnot⟩
  · intro j hj
    rcases mem_insert_iff.mp hj with rfl | hj
    · exact hnode
    · exact h.done_sub j hj
  · exact h.next_sub
  · intro j hj i hi
    by_cases hdone : i ∈ done.insert k
    · exact .inl hdone
    refine .inr (mem_pushNext.mpr ?_)
    rcases mem_insert_iff.mp hj with rfl | hj
    · exact .inr ⟨hi, hdone⟩
    · rcases h.seen j hj i hi with hi | hi
      · exact absurd (mem_insert_iff.mpr (.inr hi)) hdone
      · exact .inl (mem_erase_iff.mpr ⟨fun heq => hdone (mem_insert_iff.mpr (.inl heq)), hi⟩)

def rest (nodes : Finset K) (done : TreeSet K) : Finset K := nodes.filter fun k => !done.contains k

omit [TransOrd K] [LawfulEqOrd K] in
theorem mem_rest {k : K} : k ∈ rest nodes done ↔ k ∈ nodes ∧ k ∉ done := by
  rw [rest, Finset.mem_filter, Bool.not_eq_true', ← Bool.not_eq_true, TreeSet.contains_iff_mem]

theorem rest_card_lt {k : K} (hk : k ∈ nodes) (hnot : k ∉ done) : (rest nodes (done.insert k)).card < (rest nodes done).card := by
  refine Finset.card_lt_card (Finset.ssubset_iff_subset_ne.mpr ⟨fun j hj => ?_, fun heq => ?_⟩)
  · obtain ⟨hin, hj⟩ := mem_rest.mp hj
    exact mem_rest.mpr ⟨hin, fun hdone => hj (mem_insert_iff.mpr (.inr hdone))⟩
  · have hmem : k ∈ rest nodes (done.insert k) := heq ▸ mem_rest.mpr ⟨hk, hnot⟩
    exact (mem_rest.mp hmem).2 (mem_insert_iff.mpr (.inl rfl))

/-- The walk keeps what it starts from and ends closed under successors. -/
theorem Walking.walk_closed (h : Walking next nodes stage done) {fuel : Nat} (hfuel : (rest nodes done).card ≤ fuel) :
    (∀ k, k ∈ done ∨ k ∈ stage → k ∈ walk next fuel stage done) ∧
      ∀ k ∈ walk next fuel stage done, ∀ j ∈ next k, j ∈ walk next fuel stage done := by
  -- an empty stage ends the walk
  have hend : (∀ k, k ∉ stage) → (∀ k, k ∈ done ∨ k ∈ stage → k ∈ done) ∧ ∀ k ∈ done, ∀ j ∈ next k, j ∈ done := by
    intro hempty
    exact ⟨fun k hk => hk.resolve_right (hempty k), fun k hk j hj => (h.seen k hk j hj).resolve_right (hempty j)⟩
  induction fuel generalizing stage done with
  | zero =>
    refine hend fun k hk => ?_
    obtain ⟨hin, hnot⟩ := h.stage_sub k hk
    have hpos := Finset.card_pos.mpr ⟨k, mem_rest.mpr ⟨hin, hnot⟩⟩
    omega
  | succ fuel ih =>
    rw [walk]
    cases hhead : stage.toList.head? with
    | none =>
      refine hend fun k hk => ?_
      rw [List.head?_eq_none_iff] at hhead
      rw [← TreeSet.mem_toList, hhead] at hk
      cases hk
    | some k =>
      have hk : k ∈ stage := mem_of_head?_eq_some hhead
      obtain ⟨hin, hnot⟩ := h.stage_sub k hk
      have hlt := rest_card_lt hin hnot
      have hstep := h.step hk
      obtain ⟨hsub, hclosed⟩ := ih hstep (by omega) (fun hempty =>
        ⟨fun j hj => hj.resolve_right (hempty j), fun j hj i hi => (hstep.seen j hj i hi).resolve_right (hempty i)⟩)
      refine ⟨fun j hj => hsub j ?_, hclosed⟩
      rcases hj with hj | hj
      · exact .inl (mem_insert_iff.mpr (.inr hj))
      · by_cases heq : j = k
        · exact .inl (mem_insert_iff.mpr (.inl heq))
        · exact .inr (mem_pushNext.mpr (.inl (mem_erase_iff.mpr ⟨heq, hj⟩)))

/-- The walk finds nothing but successors of what it starts from. -/
theorem walk_least {P : K → Prop} (hnext : ∀ k, P k → ∀ j ∈ next k, P j) {fuel : Nat}
    (hstage : ∀ k ∈ stage, P k) (hdone : ∀ k ∈ done, P k) : ∀ k ∈ walk next fuel stage done, P k := by
  induction fuel generalizing stage done with
  | zero => exact hdone
  | succ fuel ih =>
    rw [walk]
    cases hhead : stage.toList.head? with
    | none => exact hdone
    | some k =>
      have hk : P k := hstage k (mem_of_head?_eq_some hhead)
      apply ih
      · intro j hj
        rcases mem_pushNext.mp hj with hj | ⟨hj, -⟩
        · exact hstage j (mem_erase_iff.mp hj).2
        · exact hnext k hk j hj
      · intro j hj
        rcases mem_insert_iff.mp hj with rfl | hj
        · exact hk
        · exact hdone j hj

end HempCore.Lib
