import HempCore.Model.AssetName

/-!
# Facts about asset names

What the type of a name says about its bytes and its parent.
-/

set_option autoImplicit false

namespace HempCore

/-! ## Types -/

/-- Which pattern a name was recognised by, with the type it was checked as and the type written
for a name that passes. -/
inductive NamePattern (name : Bytes) : AssetType → AssetType → Prop
  | unique (h : uniqueIndicator name = true) : NamePattern name .UNIQUE .UNIQUE
  | msgChannel (h : msgChannelIndicator name = true) : NamePattern name .MSGCHANNEL .MSGCHANNEL
  | owner (h : ownerIndicator name = true) : NamePattern name .OWNER .OWNER
  | vote (h : voteIndicator name = true) : NamePattern name .VOTE .VOTE
  | qualifier (h : qualifierIndicator name = true)
      (hsub : isAssetNameASubQualifier name = false) : NamePattern name .QUALIFIER .QUALIFIER
  | qualifierWithSub (h : qualifierIndicator name = true)
      (hsub : isAssetNameASubQualifier name = true) : NamePattern name .QUALIFIER .SUB_QUALIFIER
  | subQualifier (h : subQualifierIndicator name = true)
      (hsub : isAssetNameASubQualifier name = true) : NamePattern name .SUB_QUALIFIER .SUB_QUALIFIER
  | subQualifierAlone (h : subQualifierIndicator name = true)
      (hsub : isAssetNameASubQualifier name = false) : NamePattern name .SUB_QUALIFIER .INVALID
  | restricted (hq : qualifierIndicator name = false) (hs : subQualifierIndicator name = false)
      (h : restrictedIndicator name = true) : NamePattern name .RESTRICTED .RESTRICTED
  | sub (h : isAssetNameASubasset name = true) : NamePattern name .SUB .SUB
  | root (h : isAssetNameASubasset name = false) : NamePattern name .ROOT .ROOT

theorem isAssetNameValidTyped_cases (name : Bytes) :
    40 < name.length ∧ isAssetNameValidTyped name = ⟨false, none, ""⟩ ∨
      ∃ check written, NamePattern name check written ∧ isAssetNameValidTyped name = nameVerdict check written name := by
  unfold isAssetNameValidTyped
  split
  · next hlong => exact .inl ⟨hlong, rfl⟩
  refine .inr ?_
  split
  · next h => exact ⟨_, _, .unique h, rfl⟩
  split
  · next h => exact ⟨_, _, .msgChannel h, rfl⟩
  split
  · next h => exact ⟨_, _, .owner h, rfl⟩
  split
  · next h => exact ⟨_, _, .vote h, rfl⟩
  split
  · next h =>
    split
    · next hsub => exact ⟨_, _, .qualifierWithSub h hsub, rfl⟩
    · next hsub => exact ⟨_, _, .qualifier h (Bool.not_eq_true _ ▸ hsub), rfl⟩
  next hq =>
  split
  · next h =>
    split
    · next hsub => exact ⟨_, _, .subQualifier h hsub, rfl⟩
    · next hsub => exact ⟨_, _, .subQualifierAlone h (Bool.not_eq_true _ ▸ hsub), rfl⟩
  next hs =>
  split
  · next h =>
    exact ⟨_, _, .restricted (Bool.not_eq_true _ ▸ hq) (Bool.not_eq_true _ ▸ hs) h, rfl⟩
  simp only
  split
  · next h => exact ⟨_, _, .sub h, rfl⟩
  · next h => exact ⟨_, _, .root (Bool.not_eq_true _ ▸ h), rfl⟩

/-- A check that passes writes the type; one that fails marks the name as invalid. -/
theorem nameVerdict_cases (check written : AssetType) (name : Bytes) :
    (isTypeCheckNameValid check name = .ok () ∧ (nameVerdict check written name).valid = true ∧
        (nameVerdict check written name).assetType = some written) ∨
      ((nameVerdict check written name).valid = false ∧ (nameVerdict check written name).assetType = some .INVALID) := by
  unfold nameVerdict
  cases isTypeCheckNameValid check name with
  | ok _ => exact .inl ⟨rfl, rfl, rfl⟩
  | error _ => exact .inr ⟨rfl, rfl⟩

variable {name : Bytes} {uninit t : AssetType}

theorem pattern_of_isAssetNameValid (h : isAssetNameValid name = true) :
    ∃ check written, NamePattern name check written ∧ isTypeCheckNameValid check name = .ok () ∧
      (isAssetNameValidTyped name).assetType = some written := by
  unfold isAssetNameValid at h
  rcases isAssetNameValidTyped_cases name with ⟨-, hlong⟩ | ⟨check, written, hpattern, heq⟩
  · rw [hlong] at h
    cases h
  · rw [heq] at h ⊢
    rcases nameVerdict_cases check written name with ⟨hok, -, htype⟩ | ⟨hinvalid, -⟩
    · exact ⟨check, written, hpattern, hok, htype⟩
    · rw [hinvalid] at h
      cases h

theorem pattern_of_isAssetNameOfType {type : AssetType}
    (h : isAssetNameOfType type name = true) : ∃ check, NamePattern name check type := by
  simp only [isAssetNameOfType, Bool.and_eq_true, beq_iff_eq] at h
  obtain ⟨check, written, hpattern, -, htype⟩ := pattern_of_isAssetNameValid h.1
  obtain rfl : written = type := Option.some.inj (htype.symm.trans h.2)
  exact ⟨check, hpattern⟩

theorem assetTypeOf_of_isAssetNameOfType {type : AssetType}
    (h : isAssetNameOfType type name = true) : assetTypeOf uninit name = type := by
  simp only [isAssetNameOfType, Bool.and_eq_true, beq_iff_eq] at h
  simp [assetTypeOf, h.2]

theorem isAssetNameOfType_inj {t' : AssetType}
    (h : isAssetNameOfType t name = true) (h' : isAssetNameOfType t' name = true) : t = t' := by
  simp only [isAssetNameOfType, Bool.and_eq_true, beq_iff_eq] at h h'
  exact Option.some.inj (h.2.symm.trans h'.2)

theorem isAssetNameOfType_eq_false {t' : AssetType}
    (h : isAssetNameOfType t name = true) (hne : t' ≠ t) : isAssetNameOfType t' name = false := by
  rw [Bool.eq_false_iff]
  exact fun h' => hne (isAssetNameOfType_inj h' h)

theorem isAssetNameOfType_of_assetType (hne : t ≠ .INVALID)
    (h : (isAssetNameValidTyped name).assetType = some t) : isAssetNameOfType t name = true := by
  have hvalid : (isAssetNameValidTyped name).valid = true := by
    rcases isAssetNameValidTyped_cases name with ⟨-, hlong⟩ | ⟨check, written, -, heq⟩
    · rw [hlong] at h
      cases h
    · rw [heq] at h ⊢
      rcases nameVerdict_cases check written name with ⟨-, hvalid, -⟩ | ⟨-, htype⟩
      · exact hvalid
      · exact absurd (Option.some.inj (h.symm.trans htype)) hne
  simp [isAssetNameOfType, hvalid, h]

theorem isAssetNameOfType_of_assetTypeOf (hne : t ≠ .INVALID)
    (hshort : name.length ≤ 40) (h : assetTypeOf uninit name = t) : isAssetNameOfType t name = true := by
  refine isAssetNameOfType_of_assetType hne ?_
  rcases isAssetNameValidTyped_cases name with ⟨hlong, -⟩ | ⟨check, written, -, heq⟩
  · omega
  · unfold assetTypeOf at h
    rw [heq] at h ⊢
    rcases nameVerdict_cases check written name with ⟨-, -, htype⟩ | ⟨-, htype⟩
    · rw [htype, Option.getD_some] at h
      rw [htype, h]
    · rw [htype, Option.getD_some] at h
      exact absurd h.symm hne

theorem uniqueIndicator_of_isAssetNameOfType
    (h : isAssetNameOfType .UNIQUE name = true) : uniqueIndicator name = true := by
  obtain ⟨check, hpattern⟩ := pattern_of_isAssetNameOfType h
  cases hpattern
  assumption

theorem isAssetNameAnRestricted_of_isAssetNameOfType
    (h : isAssetNameOfType .RESTRICTED name = true) : isAssetNameAnRestricted name = true := by
  obtain ⟨check, hpattern⟩ := pattern_of_isAssetNameOfType h
  simp only [isAssetNameOfType, Bool.and_eq_true] at h
  cases hpattern with
  | restricted hq hs hr => simp [isAssetNameAnRestricted, isAssetNameValid, h.1, hr]

theorem qualifier_of_assetTypeOf (hvalid : isAssetNameValid name = true)
    (h : assetTypeOf uninit name = .QUALIFIER ∨ assetTypeOf uninit name = .SUB_QUALIFIER) :
    isAssetNameAQualifier name false = true := by
  obtain ⟨check, written, hpattern, -, htype⟩ := pattern_of_isAssetNameValid hvalid
  simp only [assetTypeOf, htype, Option.getD_some] at h
  simp only [isAssetNameAQualifier, hvalid, Bool.true_and, Bool.not_false, Bool.or_eq_true]
  cases hpattern <;> simp_all

theorem assetTypeOf_ne_restricted (uninit : AssetType)
    (h : isAssetNameAQualifier name false = true) : assetTypeOf uninit name ≠ .RESTRICTED := by
  simp only [isAssetNameAQualifier, Bool.and_eq_true, Bool.not_false, Bool.true_and, Bool.or_eq_true] at h
  obtain ⟨check, written, hpattern, -, htype⟩ := pattern_of_isAssetNameValid h.1
  simp only [assetTypeOf, htype, Option.getD_some]
  cases hpattern <;> simp_all

theorem length_le_of_isAssetNameValid (h : isAssetNameValid name = true) : name.length ≤ maxNameLength := by
  obtain ⟨check, written, -, hok, -⟩ := pattern_of_isAssetNameValid h
  by_contra hlong
  have hlong' : maxNameLength < name.length := by omega
  have hlong'' : maxNameLength - 1 < name.length := by omega
  cases check <;> simp [isTypeCheckNameValid, hlong', hlong''] at hok

/-! ## Parents -/

theorem tagIndicator_eq_true {d : UInt8} {s : Bytes} (h : tagIndicator d s = true) :
    ∃ pre post, s = pre ++ d :: post ∧ pre ≠ [] ∧ (∀ b ∈ post, isAfterTagChar b = true) ∧
      ∀ b ∈ pre, isBeforeTagChar b = true := by
  unfold tagIndicator at h
  rw [List.span_eq_takeWhile_dropWhile] at h
  have hs : s.takeWhile isBeforeTagChar ++ s.dropWhile isBeforeTagChar = s := List.takeWhile_append_dropWhile
  cases hdrop : s.dropWhile isBeforeTagChar with
  | nil => simp [hdrop] at h
  | cons c post =>
    simp only [hdrop, Bool.and_eq_true, Bool.not_eq_true', beq_iff_eq, List.all_eq_true, List.isEmpty_eq_false_iff] at h
    obtain ⟨⟨⟨hpre, rfl⟩, -⟩, hpost⟩ := h
    exact ⟨_, post, by rw [← hdrop, hs], hpre, hpost, List.all_eq_true.mp List.all_takeWhile⟩

theorem beforeLast_append {d : UInt8} {pre post : Bytes} (h : d ∉ post) : beforeLast d (pre ++ d :: post) = pre := by
  unfold beforeLast
  rw [if_pos (by simp), List.reverse_append, List.reverse_cons, List.append_assoc,
    List.dropWhile_append_of_pos]
  · simp
  · intro x hx
    simp only [bne_iff_ne, ne_eq]
    rintro rfl
    exact h (List.mem_reverse.mp hx)

theorem getParentName_ne_nil_of_unique (h : isAssetNameOfType .UNIQUE name = true) : getParentName name ≠ [] := by
  obtain ⟨pre, post, rfl, hpre, hpost, -⟩ := tagIndicator_eq_true (uniqueIndicator_of_isAssetNameOfType h)
  have hnot : uniqueTagDelimiter ∉ post := fun hmem => by
    simpa [isAfterTagChar, uniqueTagDelimiter] using hpost _ hmem
  simp only [isAssetNameOfType, Bool.and_eq_true, beq_iff_eq] at h
  simpa [getParentName, isAssetNameValid, h.1, h.2, beforeLast_append hnot] using hpre

theorem getParentName_of_restricted (h : isAssetNameOfType .RESTRICTED name = true) : getParentName name = name := by
  simp only [isAssetNameOfType, Bool.and_eq_true, beq_iff_eq] at h
  simp [getParentName, isAssetNameValid, h.1, h.2]

/-! ## Qualifiers -/

theorem delimiter_notMem_of_isNameChar {s : Bytes} (h : ∀ b ∈ s, isNameChar b = true) : subNameDelimiter ∉ s := by
  intro hmem
  exact absurd (h _ hmem) (by decide)

theorem delimiter_notMem_of_ledNameCharacters {n : Nat} {s : Bytes}
    (h : ledNameCharacters qualifierChar n s = true) : subNameDelimiter ∉ s := by
  cases s with
  | nil => simp
  | cons b s =>
    simp only [ledNameCharacters, nameCharacters, Bool.and_eq_true, beq_iff_eq, List.all_eq_true] at h
    have hrest := delimiter_notMem_of_isNameChar h.2.2
    rw [List.mem_cons, not_or, h.1]
    exact ⟨by decide, hrest⟩

theorem delimiter_notMem_of_qualifier (h : isAssetNameOfType .QUALIFIER name = true) : subNameDelimiter ∉ name := by
  obtain ⟨check, hpattern⟩ := pattern_of_isAssetNameOfType h
  cases hpattern with
  | qualifier h hsub => exact delimiter_notMem_of_ledNameCharacters h

theorem isAssetNameASubQualifier_of_qualifier
    (h : isAssetNameOfType .QUALIFIER name = true) : isAssetNameASubQualifier name = false := by
  obtain ⟨check, hpattern⟩ := pattern_of_isAssetNameOfType h
  cases hpattern
  assumption

theorem subQualifier_parts (h : isAssetNameOfType .SUB_QUALIFIER name = true) :
    isAssetNameASubQualifier name = true ∧ ∃ part, name = getParentName name ++ subNameDelimiter :: part ∧
      subNameDelimiter ∉ getParentName name ∧ subNameDelimiter ∉ part := by
  obtain ⟨check, hpattern⟩ := pattern_of_isAssetNameOfType h
  simp only [isAssetNameOfType, Bool.and_eq_true, beq_iff_eq] at h
  have hparent : getParentName name = beforeLast subNameDelimiter name := by
    simp [getParentName, isAssetNameValid, h.1, h.2]
  cases hpattern with
  | qualifierWithSub hled hsub =>
    -- without a delimiter the name has one part only
    have hone := List.splitOn_eq_singleton (delimiter_notMem_of_ledNameCharacters hled)
    simp [isAssetNameASubQualifier, splitName, hone] at hsub
  | subQualifier hind hsub =>
    refine ⟨hsub, ?_⟩
    cases name with
    | nil => cases hind
    | cons b s =>
      simp only [subQualifierIndicator, List.span_eq_takeWhile_dropWhile] at hind
      have hsplit := List.takeWhile_append_dropWhile (p := isNameChar) (l := s)
      have hpre : subNameDelimiter ∉ s.takeWhile isNameChar :=
        delimiter_notMem_of_isNameChar (List.all_eq_true.mp List.all_takeWhile)
      cases hdrop : s.dropWhile isNameChar with
      | nil => simp [hdrop] at hind
      | cons c post =>
        simp only [hdrop, Bool.and_eq_true, beq_iff_eq] at hind
        obtain ⟨⟨⟨rfl, -⟩, rfl⟩, hpost⟩ := hind
        have hnot := delimiter_notMem_of_ledNameCharacters hpost
        rw [hdrop] at hsplit
        have hname : qualifierChar :: s = (qualifierChar :: s.takeWhile isNameChar) ++ subNameDelimiter :: post := by
          rw [List.cons_append, hsplit]
        have hroot : getParentName (qualifierChar :: s) = qualifierChar :: s.takeWhile isNameChar := by
          rw [hparent, hname, beforeLast_append hnot]
        rw [hroot]
        exact ⟨post, hname, by simpa [subNameDelimiter, qualifierChar] using hpre, hnot⟩

theorem delimiter_mem_of_subQualifier (h : isAssetNameOfType .SUB_QUALIFIER name = true) : subNameDelimiter ∈ name := by
  obtain ⟨-, part, hname, -⟩ := subQualifier_parts h
  rw [hname]
  exact List.mem_append_right _ List.mem_cons_self

/-- A qualifier, with or without a root above it. -/
def isTagName (name : Bytes) : Bool :=
  isAssetNameOfType .QUALIFIER name || isAssetNameOfType .SUB_QUALIFIER name

def isSubQualifierOf (root name : Bytes) : Bool :=
  isAssetNameOfType .SUB_QUALIFIER name && getParentName name == root

theorem not_isSubQualifierOf {root : Bytes} (h : isSubQualifierOf root name = true) : subNameDelimiter ∉ root := by
  simp only [isSubQualifierOf, Bool.and_eq_true, beq_iff_eq] at h
  obtain ⟨-, part, -, hroot, -⟩ := subQualifier_parts h.1
  rwa [h.2] at hroot

theorem isSubQualifierOf_iff_of_isTagName (root : Bytes) (h : isTagName name = true) :
    isSubQualifierOf root name = true ↔ isAssetNameASubQualifier name = true ∧ getParentName name = root := by
  simp only [isTagName, Bool.or_eq_true] at h
  simp only [isSubQualifierOf, Bool.and_eq_true, beq_iff_eq]
  rcases h with h | h
  · have hsub := isAssetNameASubQualifier_of_qualifier h
    have hne : isAssetNameOfType .SUB_QUALIFIER name = false := by
      simp only [isAssetNameOfType, Bool.and_eq_true, beq_iff_eq] at h
      simp [isAssetNameOfType, h.2]
    simp [hsub, hne]
  · simp [h, (subQualifier_parts h).1]

theorem isPrefixOf_iff_of_isTagName {root : Bytes} (h : isTagName name = true) :
    (root ++ [subNameDelimiter]).isPrefixOf name = true ↔ isSubQualifierOf root name = true := by
  rw [List.isPrefixOf_iff_prefix]
  simp only [isTagName, Bool.or_eq_true] at h
  rcases h with h | h
  · have hnot := delimiter_notMem_of_qualifier h
    constructor
    · rintro ⟨rest, rfl⟩
      simp at hnot
    · intro hsub
      simp only [isSubQualifierOf, isAssetNameOfType, Bool.and_eq_true, beq_iff_eq] at h hsub
      rw [h.2] at hsub
      cases hsub.1.2
  · obtain ⟨-, part, hname, hroot, hpart⟩ := subQualifier_parts h
    simp only [isSubQualifierOf, h, Bool.true_and, beq_iff_eq]
    constructor
    · rintro ⟨rest, hrest⟩
      rw [List.append_assoc, List.singleton_append] at hrest
      -- both sides split the name at its only delimiter
      have hparent : beforeLast subNameDelimiter name = getParentName name := by
        conv_lhs => rw [hname]
        exact beforeLast_append hpart
      have hrest' : subNameDelimiter ∉ rest := by
        have hcount := congrArg (List.count subNameDelimiter) (hrest.trans hname)
        simp only [List.count_append, List.count_cons_self, List.count_eq_zero.mpr hroot, List.count_eq_zero.mpr hpart] at hcount
        exact List.count_eq_zero.mp (by omega)
      rw [← hparent, ← hrest, beforeLast_append hrest']
    · rintro rfl
      exact ⟨part, by rw [List.append_assoc, List.singleton_append, ← hname]⟩

end HempCore
