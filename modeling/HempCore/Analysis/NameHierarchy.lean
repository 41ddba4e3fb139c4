import HempCore.Analysis.AssetNames

/-!
# The hierarchy of asset names

A root or sub-asset is a path: a root part and any number of further parts. Everything below such an
asset has the path in front of its last delimiter, and the owner token is the path with a `!` behind
it. Two patterns let in names whose parent or owner token is no valid name: votes with several tags,
and restricted assets whose name without `$` is no root name.
-/

set_option autoImplicit false

namespace HempCore

variable {s pre post : Bytes} {d : UInt8} {t : AssetType}

/-! ## Paths -/

theorem mem_splitOn_of_mem {b : UInt8} (h : b ∈ s) (hne : b ≠ d) : ∃ part ∈ s.splitOn d, b ∈ part := by
  obtain ⟨left, right, rfl⟩ := List.mem_iff_append.mp h
  clear h
  induction left with
  | nil =>
    rw [List.nil_append, List.splitOn_cons_eq_if_modifyHead, if_neg (by simpa using hne)]
    obtain ⟨head, tail, htext⟩ := List.exists_cons_of_ne_nil (List.splitOn_ne_nil d right)
    exact ⟨b :: head, by simp [htext], List.mem_cons_self⟩
  | cons c left ih =>
    obtain ⟨part, hpart, hb⟩ := ih
    rw [List.cons_append, List.splitOn_cons_eq_if_modifyHead]
    split_ifs
    · exact ⟨part, List.mem_cons_of_mem _ hpart, hb⟩
    · obtain ⟨head, tail, htext⟩ := List.exists_cons_of_ne_nil (List.splitOn_ne_nil d (left ++ b :: right))
      rw [htext] at hpart ⊢
      rcases List.mem_cons.mp hpart with rfl | hpart
      · exact ⟨c :: part, List.mem_cons_self, List.mem_cons_of_mem _ hb⟩
      · exact ⟨part, List.mem_cons_of_mem _ hpart, hb⟩

theorem isNameChar_of_isRootNameValid (h : isRootNameValid s = true) : ∀ b ∈ s, isNameChar b = true := by
  simp only [isRootNameValid, nameCharacters, Bool.and_eq_true, List.all_eq_true] at h
  exact h.1.1.2

theorem isNameChar_of_isSubNameValid (h : isSubNameValid s = true) : ∀ b ∈ s, isNameChar b = true := by
  simp only [isSubNameValid, nameCharacters, Bool.and_eq_true, List.all_eq_true] at h
  exact h.1.2

theorem isNameValidBeforeTag_iff : isNameValidBeforeTag s = true ↔
    ∃ root subs, s.splitOn subNameDelimiter = root :: subs ∧ isRootNameValid root = true ∧
      ∀ sub ∈ subs, isSubNameValid sub = true := by
  obtain ⟨root, subs, htext⟩ := List.exists_cons_of_ne_nil (List.splitOn_ne_nil subNameDelimiter s)
  simp only [isNameValidBeforeTag, splitName, htext, List.headD_cons, List.tail_cons, Bool.and_eq_true,
    List.all_eq_true, List.cons.injEq]
  constructor
  · rintro ⟨hroot, hsubs⟩
    exact ⟨root, subs, ⟨rfl, rfl⟩, hroot, hsubs⟩
  · rintro ⟨_, _, ⟨rfl, rfl⟩, hroot, hsubs⟩
    exact ⟨hroot, hsubs⟩

theorem path_chars (h : isNameValidBeforeTag s = true) : ∀ b ∈ s, isNameChar b = true ∨ b = subNameDelimiter := by
  intro b hb
  by_cases hne : b = subNameDelimiter
  · exact .inr hne
  obtain ⟨root, subs, htext, hroot, hsubs⟩ := isNameValidBeforeTag_iff.mp h
  obtain ⟨part, hpart, hmem⟩ := mem_splitOn_of_mem hb hne
  rw [htext] at hpart
  rcases List.mem_cons.mp hpart with rfl | hpart
  · exact .inl (isNameChar_of_isRootNameValid hroot b hmem)
  · exact .inl (isNameChar_of_isSubNameValid (hsubs part hpart) b hmem)

theorem isBeforeTagChar_of_path (h : isNameValidBeforeTag s = true) : ∀ b ∈ s, isBeforeTagChar b = true := by
  intro b hb
  rcases path_chars h b hb with hname | rfl
  · simp only [isNameChar, isUpper, isDigit, isPunct, Bool.or_eq_true, Bool.and_eq_true, decide_eq_true_eq, beq_iff_eq] at hname
    simp only [isBeforeTagChar, Bool.not_eq_true', Bool.or_eq_false_iff, beq_eq_false_iff_ne]
    refine ⟨⟨⟨?_, ?_⟩, ?_⟩, ?_⟩ <;> rintro rfl <;> revert hname <;> decide
  · decide

theorem path_of_append (h : isNameValidBeforeTag (pre ++ subNameDelimiter :: post) = true) : isNameValidBeforeTag pre = true := by
  obtain ⟨root, subs, htext, hroot, hsubs⟩ := isNameValidBeforeTag_iff.mp h
  rw [List.splitOn_append_cons_self] at htext
  obtain ⟨head, tail, hpre⟩ := List.exists_cons_of_ne_nil (List.splitOn_ne_nil subNameDelimiter pre)
  rw [hpre, List.cons_append] at htext
  obtain ⟨rfl, rfl⟩ := List.cons.inj htext
  exact isNameValidBeforeTag_iff.mpr ⟨head, tail, hpre, hroot, fun sub hsub => hsubs sub (List.mem_append_left _ hsub)⟩

theorem three_le_of_path (h : isNameValidBeforeTag s = true) : 3 ≤ s.length := by
  obtain ⟨root, subs, htext, hroot, -⟩ := isNameValidBeforeTag_iff.mp h
  simp only [isRootNameValid, nameCharacters, Bool.and_eq_true, decide_eq_true_eq] at hroot
  have hlen := hroot.1.1.1
  have hs : [subNameDelimiter].intercalate (root :: subs) = s := htext ▸ List.intercalate_splitOn _
  cases subs with
  | nil =>
    rw [List.intercalate_singleton] at hs
    exact hs ▸ hlen
  | cons sub subs =>
    rw [← hs, List.intercalate_cons_cons]
    simp only [List.length_append]
    omega

/-! ## Types of paths and owner tokens -/

theorem span_of_all {p : UInt8 → Bool} (h : ∀ b ∈ s, p b = true) : s.span p = (s, []) := by
  have htake : (s ++ []).takeWhile p = s ++ [].takeWhile p := List.takeWhile_append_of_pos h
  have hdrop : (s ++ []).dropWhile p = [].dropWhile p := List.dropWhile_append_of_pos h
  rw [List.append_nil, List.takeWhile_nil, List.append_nil] at htake
  rw [List.append_nil, List.dropWhile_nil] at hdrop
  rw [List.span_eq_takeWhile_dropWhile, htake, hdrop]

theorem span_append {p : UInt8 → Bool} (h : ∀ b ∈ s, p b = true) (hd : p d = false) :
    (s ++ d :: post).span p = (s, d :: post) := by
  rw [List.span_eq_takeWhile_dropWhile, List.takeWhile_append_of_pos h, List.dropWhile_append_of_pos h,
    List.takeWhile_cons_of_neg (by simp [hd]), List.dropWhile_cons_of_neg (by simp [hd]), List.append_nil]

theorem ledNameCharacters_of_path (h : isNameValidBeforeTag s = true) (hd : isNameChar d = false)
    (hne : d ≠ subNameDelimiter) (rest : Bytes) (n : Nat) : ledNameCharacters d n (s ++ rest) = false := by
  obtain ⟨b, s', rfl⟩ := List.exists_cons_of_length_pos (Nat.lt_of_lt_of_le (by decide) (three_le_of_path h))
  have hb : b ≠ d := by
    rintro rfl
    rcases path_chars h b List.mem_cons_self with hname | rfl
    · rw [hname] at hd
      cases hd
    · exact hne rfl
  simp [ledNameCharacters, hb]

theorem subQualifierIndicator_of_path (h : isNameValidBeforeTag s = true) (rest : Bytes) :
    subQualifierIndicator (s ++ rest) = false := by
  obtain ⟨b, s', rfl⟩ := List.exists_cons_of_length_pos (Nat.lt_of_lt_of_le (by decide) (three_le_of_path h))
  have hb : b ≠ qualifierChar := by
    rintro rfl
    rcases path_chars h qualifierChar List.mem_cons_self with hname | hname <;> revert hname <;> decide
  rw [List.cons_append, subQualifierIndicator]
  split
  · simp [hb]
  · rfl

theorem isAssetNameOfType_of_verdict {check : AssetType} (h : isAssetNameValidTyped s = nameVerdict check t s)
    (hok : isTypeCheckNameValid check s = .ok ()) : isAssetNameOfType t s = true := by
  simp [isAssetNameOfType, h, nameVerdict, hok]

theorem isTypeCheckNameValid_path_iff (ht : t = .ROOT ∨ t = .SUB) : isTypeCheckNameValid t s = .ok () ↔
    isNameValidBeforeTag s = true ∧ s.length ≤ maxNameLength - 1 := by
  have hbody : isTypeCheckNameValid t s = isTypeCheckNameValid .ROOT s := by
    rcases ht with rfl | rfl <;> rfl
  rw [hbody]
  simp only [isTypeCheckNameValid]
  constructor
  · intro h
    split_ifs at h with hlong hshort hpath
    exact ⟨hpath, by omega⟩
  · rintro ⟨hpath, hlen⟩
    have hthree : ¬ s.length < minAssetLength := Nat.not_lt.mpr (three_le_of_path hpath)
    rw [if_neg (by omega), if_neg (by simp [hthree]), if_pos hpath]

theorem isPath_iff : (isAssetNameOfType .ROOT s = true ∨ isAssetNameOfType .SUB s = true) ↔
    isNameValidBeforeTag s = true ∧ s.length ≤ maxNameLength - 1 := by
  constructor
  · intro h
    have hcheck : ∃ check, (check = .ROOT ∨ check = .SUB) ∧ isTypeCheckNameValid check s = .ok () := by
      have hvalid : isAssetNameValid s = true ∧ ((isAssetNameValidTyped s).assetType = some .ROOT ∨
          (isAssetNameValidTyped s).assetType = some .SUB) := by
        simp only [isAssetNameOfType, Bool.and_eq_true, beq_iff_eq] at h
        rcases h with h | h
        · exact ⟨h.1, .inl h.2⟩
        · exact ⟨h.1, .inr h.2⟩
      obtain ⟨check, written, hpattern, hok, htype⟩ := pattern_of_isAssetNameValid hvalid.1
      rw [htype, Option.some.injEq, Option.some.injEq] at hvalid
      refine ⟨check, ?_, hok⟩
      cases hpattern <;> simp_all
    obtain ⟨check, hroot, hok⟩ := hcheck
    exact (isTypeCheckNameValid_path_iff hroot).mp hok
  · rintro ⟨hpath, hlen⟩
    have hbefore := span_of_all (isBeforeTagChar_of_path hpath)
    have htag : ∀ d, tagIndicator d s = false := fun d => by rw [tagIndicator, hbefore]
    have howner : ownerIndicator s = false := by rw [ownerIndicator, hbefore]
    have hled : ∀ d n, isNameChar d = false → d ≠ subNameDelimiter → ledNameCharacters d n s = false := by
      intro d n hd hne
      simpa using ledNameCharacters_of_path hpath hd hne [] n
    have hsubq : subQualifierIndicator s = false := by simpa using subQualifierIndicator_of_path hpath []
    have hok : ∀ t, (t = .ROOT ∨ t = .SUB) → isTypeCheckNameValid t s = .ok () := fun t ht =>
      (isTypeCheckNameValid_path_iff ht).mpr ⟨hpath, hlen⟩
    have hverdict : isAssetNameValidTyped s =
        nameVerdict (if isAssetNameASubasset s then .SUB else .ROOT) (if isAssetNameASubasset s then .SUB else .ROOT) s := by
      have hforty : ¬ 40 < s.length := by
        unfold maxNameLength at hlen
        omega
      simp [isAssetNameValidTyped, hforty, uniqueIndicator, msgChannelIndicator, voteIndicator, htag, howner,
        qualifierIndicator, restrictedIndicator, hled qualifierChar 3 (by decide) (by decide),
        hled restrictedChar 3 (by decide) (by decide), hsubq]
    by_cases hsub : isAssetNameASubasset s = true
    · rw [if_pos hsub] at hverdict
      exact .inr (isAssetNameOfType_of_verdict hverdict (hok _ (.inr rfl)))
    · rw [if_neg hsub] at hverdict
      exact .inl (isAssetNameOfType_of_verdict hverdict (hok _ (.inl rfl)))

theorem isOwner_iff : isAssetNameOfType .OWNER (s ++ ownerTag) = true ↔
    isNameValidBeforeTag s = true ∧ s.length ≤ maxNameLength - 1 := by
  have hlast : (s ++ ownerTag).dropLast = s := by simp [ownerTag]
  have hlen : (s ++ ownerTag).length = s.length + 1 := by simp [ownerTag]
  constructor
  · intro h
    have hvalid : isAssetNameValid (s ++ ownerTag) = true := by
      simp only [isAssetNameOfType, Bool.and_eq_true] at h
      exact h.1
    obtain ⟨check, written, hpattern, hok, htype⟩ := pattern_of_isAssetNameValid hvalid
    simp only [isAssetNameOfType, Bool.and_eq_true, beq_iff_eq] at h
    obtain rfl : written = .OWNER := Option.some.inj (htype.symm.trans h.2)
    cases hpattern
    rw [isTypeCheckNameValid, hlast, hlen] at hok
    split_ifs at hok with hlong hpath
    exact ⟨hpath, by omega⟩
  · rintro ⟨hpath, hshort⟩
    have hbefore : (s ++ ownerTag).span isBeforeTagChar = (s, ownerTag) := span_append (isBeforeTagChar_of_path hpath) (by decide)
    have hthree := three_le_of_path hpath
    have hne : s ≠ [] := List.ne_nil_of_length_pos (by omega)
    have htag : ∀ d, tagIndicator d (s ++ ownerTag) = false := by
      intro d
      rw [tagIndicator, hbefore]
      simp [ownerTag]
    have howner : ownerIndicator (s ++ ownerTag) = true := by
      rw [ownerIndicator, hbefore]
      simpa [ownerTag] using hne
    have hforty : ¬ 40 < (s ++ ownerTag).length := by
      unfold maxNameLength at hshort
      omega
    have hverdict : isAssetNameValidTyped (s ++ ownerTag) = nameVerdict .OWNER .OWNER (s ++ ownerTag) := by
      simp only [isAssetNameValidTyped, if_neg hforty, uniqueIndicator, msgChannelIndicator, htag, howner,
        Bool.false_eq_true, if_false, if_true]
    refine isAssetNameOfType_of_verdict hverdict ?_
    rw [isTypeCheckNameValid, hlast, hlen, if_neg (by unfold maxNameLength at *; omega), if_pos hpath]

/-! ## Parents -/

theorem exists_last (h : d ∈ s) : ∃ pre post, s = pre ++ d :: post ∧ d ∉ post := by
  obtain ⟨post, pre, htext, hpost⟩ := List.eq_append_cons_of_mem (List.mem_reverse.mpr h)
  refine ⟨pre.reverse, post.reverse, ?_, by simpa using hpost⟩
  rw [← List.reverse_reverse s, htext]
  simp

theorem valid_of_isAssetNameOfType (h : isAssetNameOfType t s = true) :
    isAssetNameValid s = true ∧ (isAssetNameValidTyped s).assetType = some t := by
  simpa [isAssetNameOfType, isAssetNameValid] using h

theorem check_of_isAssetNameOfType (h : isAssetNameOfType t s = true) :
    ∃ check, NamePattern s check t ∧ isTypeCheckNameValid check s = .ok () := by
  obtain ⟨hvalid, htype⟩ := valid_of_isAssetNameOfType h
  obtain ⟨check, written, hpattern, hok, hwritten⟩ := pattern_of_isAssetNameValid hvalid
  obtain rfl : written = t := Option.some.inj (hwritten.symm.trans htype)
  exact ⟨check, hpattern, hok⟩

/-- The types that stand below a path, each with the delimiter in front of its own part. -/
def parentDelimiter : AssetType → Option UInt8
  | .SUB => some subNameDelimiter
  | .UNIQUE => some uniqueTagDelimiter
  | .MSGCHANNEL => some msgChannelTagDelimiter
  | .VOTE => some voteTagDelimiter
  | _ => none

theorem getParentName_eq (h : isAssetNameOfType t s = true) (hd : parentDelimiter t = some d) :
    getParentName s = beforeLast d s := by
  obtain ⟨hvalid, htype⟩ := valid_of_isAssetNameOfType h
  rw [getParentName, if_pos hvalid, htype]
  cases t <;> cases hd <;> rfl

theorem tagged_path (h : isAssetNameOfType t s = true) (hd : parentDelimiter t = some d) (ht : t ≠ .SUB) :
    ∃ pre post, s = pre ++ d :: post ∧ isNameValidBeforeTag pre = true ∧ s.length ≤ maxNameLength ∧
      ∀ b ∈ post, isAfterTagChar b = true := by
  obtain ⟨check, hpattern, hok⟩ := check_of_isAssetNameOfType h
  have htag : tagIndicator d s = true ∧ isBeforeTagChar d = false := by
    cases hpattern with
    | unique hind | msgChannel hind | vote hind =>
      cases hd
      exact ⟨hind, by decide⟩
    | _ => first | exact absurd rfl ht | cases hd
  have hbefore : isNameValidBeforeTag ((splitName d s).headD []) = true := by
    cases hpattern with
    | unique | vote =>
      cases hd
      simp only [isTypeCheckNameValid] at hok
      split_ifs at hok with hlong hvalid
      exact (Bool.and_eq_true_iff.mp hvalid).1
    | msgChannel =>
      cases hd
      simp only [isTypeCheckNameValid] at hok
      split_ifs at hok with hlong hchannel hvalid
      exact (Bool.and_eq_true_iff.mp hvalid).1
    | _ => first | exact absurd rfl ht | cases hd
  obtain ⟨pre, post, rfl, -, hpost, hpre⟩ := tagIndicator_eq_true htag.1
  have hnot : d ∉ pre := fun hmem => by
    rw [hpre d hmem] at htag
    cases htag.2
  rw [splitName, List.splitOn_append_cons_self_of_not_mem hnot, List.headD_cons] at hbefore
  exact ⟨pre, post, rfl, hbefore, length_le_of_isAssetNameValid (valid_of_isAssetNameOfType h).1, hpost⟩

/-- The parent of a name is a root or sub-asset with an owner token. -/
def HasParent (s : Bytes) : Prop :=
  (isAssetNameOfType .ROOT (getParentName s) = true ∨ isAssetNameOfType .SUB (getParentName s) = true) ∧
    isAssetNameOfType .OWNER (getParentName s ++ ownerTag) = true

theorem hasParent_iff : HasParent s ↔
    isNameValidBeforeTag (getParentName s) = true ∧ (getParentName s).length ≤ maxNameLength - 1 := by
  rw [HasParent, isPath_iff, isOwner_iff, and_self_iff]

theorem hasParent_of_sub (h : isAssetNameOfType .SUB s = true) : HasParent s := by
  obtain ⟨hpath, hlen⟩ := isPath_iff.mp (.inr h)
  obtain ⟨check, hpattern, -⟩ := check_of_isAssetNameOfType h
  have hmem : subNameDelimiter ∈ s := by
    cases hpattern with
    | sub hsub =>
      by_contra hnot
      simp [isAssetNameASubasset, splitName, List.splitOn_eq_singleton hnot] at hsub
  obtain ⟨pre, post, rfl, hpost⟩ := exists_last hmem
  rw [hasParent_iff, getParentName_eq h rfl, beforeLast_append hpost]
  refine ⟨path_of_append hpath, ?_⟩
  simp only [List.length_append] at hlen
  omega

theorem hasParent_of_tagged_iff (h : isAssetNameOfType t s = true) (hd : parentDelimiter t = some d)
    (ht : t ≠ .SUB) : HasParent s ↔ s.count d = 1 := by
  have hbefore : isBeforeTagChar d = false := by
    cases t <;> cases hd <;> first | exact absurd rfl ht | decide
  have hnot : ∀ {p : Bytes}, isNameValidBeforeTag p = true → d ∉ p := fun hp hmem => by
    rw [isBeforeTagChar_of_path hp d hmem] at hbefore
    cases hbefore
  rw [hasParent_iff, getParentName_eq h hd]
  obtain ⟨pre, post, rfl, hpath, hlen, -⟩ := tagged_path h hd ht
  have hcount : (pre ++ d :: post).count d = post.count d + 1 := by
    simp [List.count_eq_zero.mpr (hnot hpath)]
  rw [hcount, Nat.succ_inj, List.count_eq_zero]
  constructor
  · rintro ⟨hparent, -⟩ hmem
    -- the last tag leaves an earlier one in the parent
    obtain ⟨middle, last, rfl, hlast⟩ := exists_last hmem
    have htext : pre ++ d :: (middle ++ d :: last) = (pre ++ d :: middle) ++ d :: last := by simp
    rw [htext, beforeLast_append hlast] at hparent
    exact hnot hparent (by simp)
  · intro hpost
    rw [beforeLast_append hpost]
    simp only [List.length_append, List.length_cons] at hlen
    exact ⟨hpath, by omega⟩

theorem hasParent_of_tagged (h : isAssetNameOfType t s = true) (ht : t = .UNIQUE ∨ t = .MSGCHANNEL) : HasParent s := by
  have hd : ∃ d, parentDelimiter t = some d ∧ isAfterTagChar d = false ∧ isBeforeTagChar d = false ∧ t ≠ .SUB := by
    rcases ht with rfl | rfl
    · exact ⟨uniqueTagDelimiter, rfl, by decide, by decide, by decide⟩
    · exact ⟨msgChannelTagDelimiter, rfl, by decide, by decide, by decide⟩
  obtain ⟨d, hd, hafter, hbefore, hne⟩ := hd
  rw [hasParent_of_tagged_iff h hd hne]
  obtain ⟨pre, post, rfl, hpath, -, hpost⟩ := tagged_path h hd hne
  have hpre : d ∉ pre := fun hmem => by
    rw [isBeforeTagChar_of_path hpath d hmem] at hbefore
    cases hbefore
  have hpost' : d ∉ post := fun hmem => by
    rw [hpost d hmem] at hafter
    cases hafter
  simp [List.count_eq_zero.mpr hpre, List.count_eq_zero.mpr hpost']

/-! ## Qualifiers and restricted assets -/

theorem isQualifier_of_isQualifierNameValid (h : isQualifierNameValid s = true)
    (hlen : s.length ≤ maxNameLength) : isAssetNameOfType .QUALIFIER s = true := by
  have hled : ledNameCharacters qualifierChar 3 s = true := by
    simp only [isQualifierNameValid, Bool.and_eq_true] at h
    exact h.1.1.1.1
  have hparts : s.splitOn subNameDelimiter = [s] := List.splitOn_eq_singleton (delimiter_notMem_of_ledNameCharacters hled)
  have hsub : isAssetNameASubQualifier s = false := by simp [isAssetNameASubQualifier, splitName, hparts]
  have hmark : ∃ rest, s = qualifierChar :: rest := by
    cases s with
    | nil => cases hled
    | cons b rest =>
      simp only [ledNameCharacters, Bool.and_eq_true, beq_iff_eq] at hled
      exact ⟨rest, by rw [hled.1]⟩
  obtain ⟨rest, rfl⟩ := hmark
  -- nothing stands in front of the mark, so no pattern with a tag applies
  have hspan : (qualifierChar :: rest).span isBeforeTagChar = ([], qualifierChar :: rest) :=
    span_append (s := []) (by simp) (by decide)
  have htag : ∀ d, tagIndicator d (qualifierChar :: rest) = false := fun d => by
    rw [tagIndicator, hspan]
    rfl
  have howner : ownerIndicator (qualifierChar :: rest) = false := by
    rw [ownerIndicator, hspan]
    cases rest <;> rfl
  have hforty : ¬ 40 < (qualifierChar :: rest).length := by
    unfold maxNameLength at hlen
    omega
  have hverdict : isAssetNameValidTyped (qualifierChar :: rest) = nameVerdict .QUALIFIER .QUALIFIER (qualifierChar :: rest) := by
    simp only [isAssetNameValidTyped, if_neg hforty, uniqueIndicator, msgChannelIndicator, voteIndicator,
      qualifierIndicator, htag, howner, hled, hsub, Bool.false_eq_true, if_false, if_true]
  refine isAssetNameOfType_of_verdict hverdict ?_
  have hvalid : isQualifierNameValidBeforeTag (qualifierChar :: rest) = true := by
    simp [isQualifierNameValidBeforeTag, splitName, hparts, h]
  simp only [isTypeCheckNameValid, if_neg (Nat.not_lt.mpr hlen), if_pos hvalid]

theorem isQualifier_parent (h : isAssetNameOfType .SUB_QUALIFIER s = true) :
    isAssetNameOfType .QUALIFIER (getParentName s) = true := by
  obtain ⟨-, part, hname, hroot, -⟩ := subQualifier_parts h
  obtain ⟨check, hpattern, hok⟩ := check_of_isAssetNameOfType h
  have hlen := length_le_of_isAssetNameValid (valid_of_isAssetNameOfType h).1
  have hvalid : isQualifierNameValidBeforeTag s = true := by
    cases hpattern with
    | qualifierWithSub | subQualifier =>
      simp only [isTypeCheckNameValid] at hok
      split_ifs at hok with hlong hvalid
      exact hvalid
  rw [isQualifierNameValidBeforeTag, splitName, hname, List.splitOn_append_cons_self_of_not_mem hroot] at hvalid
  simp only [List.headD_cons, Bool.and_eq_true] at hvalid
  refine isQualifier_of_isQualifierNameValid hvalid.1.1 ?_
  rw [hname, List.length_append] at hlen
  omega

theorem doublePunctuation_cons (hpunct : isPunct d = false) (hdot : isDot d = true) :
    doublePunctuation (d :: s) = doublePunctuation s := by
  cases s with
  | nil => simp [doublePunctuation]
  | cons b s => simp [doublePunctuation, hpunct, hdot]

theorem trailingPunctuation_cons (hdot : isDot d = true) (hne : s ≠ []) :
    trailingPunctuation (d :: s) = trailingPunctuation s := by
  obtain ⟨b, rest, htext⟩ := List.exists_cons_of_ne_nil (List.reverse_ne_nil_iff.mpr hne)
  simp [trailingPunctuation, htext, leadingPunctuation, hdot]

theorem restricted_parts (h : isAssetNameOfType .RESTRICTED s = true) :
    ∃ rest, s = restrictedChar :: rest ∧ nameCharacters 3 rest = true ∧
      doublePunctuation rest = false ∧ trailingPunctuation rest = false ∧ rest.length ≤ maxNameLength - 1 := by
  obtain ⟨check, hpattern, hok⟩ := check_of_isAssetNameOfType h
  have hlen := length_le_of_isAssetNameValid (valid_of_isAssetNameOfType h).1
  have hvalid : isRestrictedNameValid s = true := by
    cases hpattern with
    | restricted =>
      simp only [isTypeCheckNameValid] at hok
      split_ifs at hok with hlong hvalid
      exact hvalid
  cases s with
  | nil => cases hvalid
  | cons b rest =>
    simp only [isRestrictedNameValid, ledNameCharacters, punctuationOk, Bool.and_eq_true, beq_iff_eq, Bool.not_eq_true'] at hvalid
    obtain ⟨⟨⟨rfl, hchars⟩, ⟨hdouble, -⟩, htrailing⟩, -⟩ := hvalid
    have hne : rest ≠ [] := by
      rintro rfl
      cases hchars
    rw [doublePunctuation_cons (by decide) (by decide)] at hdouble
    rw [trailingPunctuation_cons (by decide) hne] at htrailing
    exact ⟨rest, rfl, hchars, hdouble, htrailing, Nat.le_sub_one_of_lt (by simpa using hlen)⟩

theorem isOwner_of_restricted_iff (h : isAssetNameOfType .RESTRICTED s = true) :
    isAssetNameOfType .OWNER (restrictedNameToOwnerName s) = true ↔
      leadingPunctuation (s.drop 1) = false ∧ hempNames (s.drop 1) = false := by
  rw [restrictedNameToOwnerName, if_pos (isAssetNameAnRestricted_of_isAssetNameOfType h), isOwner_iff]
  obtain ⟨rest, rfl, hchars, hdouble, htrailing, hlen⟩ := restricted_parts h
  have hparts : rest.splitOn subNameDelimiter = [rest] := by
    simp only [nameCharacters, Bool.and_eq_true, List.all_eq_true] at hchars
    exact List.splitOn_eq_singleton (delimiter_notMem_of_isNameChar hchars.2)
  simp [isNameValidBeforeTag, splitName, hparts, isRootNameValid, hchars, punctuationOk, hdouble, htrailing, hlen]

/-! ## The result -/

def nameTypes : List AssetType :=
  [.ROOT, .SUB, .UNIQUE, .MSGCHANNEL, .QUALIFIER, .SUB_QUALIFIER, .RESTRICTED, .VOTE, .OWNER]

theorem delimiter_mem_of_subQualifierIndicator (h : subQualifierIndicator s = true) : subNameDelimiter ∈ s := by
  cases s with
  | nil => cases h
  | cons b s =>
    simp only [subQualifierIndicator, List.span_eq_takeWhile_dropWhile] at h
    cases hdrop : s.dropWhile isNameChar with
    | nil => simp [hdrop] at h
    | cons c post =>
      simp only [hdrop, Bool.and_eq_true, beq_iff_eq] at h
      have hmem : c ∈ s := (List.dropWhile_sublist isNameChar).subset (hdrop ▸ List.mem_cons_self)
      exact List.mem_cons_of_mem b (h.1.2 ▸ hmem)

theorem isAssetNameASubQualifier_of_parts (hvalid : isQualifierNameValidBeforeTag s = true)
    (hmem : subNameDelimiter ∈ s) : isAssetNameASubQualifier s = true := by
  simp only [isQualifierNameValidBeforeTag, Bool.and_eq_true] at hvalid
  obtain ⟨pre, post, rfl, -⟩ := exists_last hmem
  have hpre := List.length_pos_iff.mpr (List.splitOn_ne_nil subNameDelimiter pre)
  have hpost := List.length_pos_iff.mpr (List.splitOn_ne_nil subNameDelimiter post)
  rw [isAssetNameASubQualifier, Bool.and_eq_true, decide_eq_true_eq, splitName, List.splitOn_append_cons_self, List.length_append]
  rw [splitName, List.splitOn_append_cons_self] at hvalid
  exact ⟨hvalid.1.1, by omega⟩

theorem exists_type (h : isAssetNameValid s = true) : ∃! t, t ∈ nameTypes ∧ isAssetNameOfType t s = true := by
  obtain ⟨check, written, hpattern, hok, htype⟩ := pattern_of_isAssetNameValid h
  have hwritten : written ∈ nameTypes := by
    cases hpattern with
    | subQualifierAlone hind hsub =>
      simp only [isTypeCheckNameValid] at hok
      split_ifs at hok with hlong hvalid
      rw [isAssetNameASubQualifier_of_parts hvalid (delimiter_mem_of_subQualifierIndicator hind)] at hsub
      cases hsub
    | _ => decide
  have hne : written ≠ .INVALID := by
    rintro rfl
    exact absurd hwritten (by decide)
  refine ⟨written, ⟨hwritten, isAssetNameOfType_of_assetType hne htype⟩, ?_⟩
  rintro t ⟨-, ht⟩
  exact isAssetNameOfType_inj ht (isAssetNameOfType_of_assetType hne htype)

structure NameHierarchy (s : Bytes) : Prop where
  type : ∃! t, t ∈ nameTypes ∧ isAssetNameOfType t s = true
  parent : ∀ t ∈ [AssetType.SUB, .UNIQUE, .MSGCHANNEL, .VOTE], isAssetNameOfType t s = true → HasParent s
  owner : isAssetNameOfType .ROOT s = true ∨ isAssetNameOfType .SUB s = true →
    isAssetNameOfType .OWNER (s ++ ownerTag) = true
  qualifier : isAssetNameOfType .SUB_QUALIFIER s = true → isAssetNameOfType .QUALIFIER (getParentName s) = true
  restricted : isAssetNameOfType .RESTRICTED s = true →
    isAssetNameOfType .OWNER (restrictedNameToOwnerName s) = true

/-- Every valid name fits into the hierarchy, but for a vote with several tags and a restricted asset
that is no root name behind its `$`. -/
theorem nameHierarchy_iff (s : Bytes) (h : isAssetNameValid s = true) :
    NameHierarchy s ↔
      (isAssetNameOfType .VOTE s = true → s.count voteTagDelimiter = 1) ∧
      (isAssetNameOfType .RESTRICTED s = true →
        leadingPunctuation (s.drop 1) = false ∧ hempNames (s.drop 1) = false) := by
  constructor
  · intro hs
    refine ⟨fun hvote => ?_, fun hrestricted => ?_⟩
    · exact (hasParent_of_tagged_iff hvote rfl (by decide)).mp (hs.parent .VOTE (by decide) hvote)
    · exact (isOwner_of_restricted_iff hrestricted).mp (hs.restricted hrestricted)
  · rintro ⟨hvote, hrestricted⟩
    refine ⟨exists_type h, fun t ht hs => ?_, fun hs => isOwner_iff.mpr (isPath_iff.mp hs),
      isQualifier_parent, fun hs => (isOwner_of_restricted_iff hs).mpr (hrestricted hs)⟩
    simp only [List.mem_cons, List.not_mem_nil, or_false] at ht
    rcases ht with rfl | rfl | rfl | rfl
    · exact hasParent_of_sub hs
    · exact hasParent_of_tagged hs (.inl rfl)
    · exact hasParent_of_tagged hs (.inr rfl)
    · exact (hasParent_of_tagged_iff hs rfl (by decide)).mpr (hvote hs)

theorem vote_nameHierarchy : isAssetNameValid (str "ABC/DEF^VOTE1") = true ∧ NameHierarchy (str "ABC/DEF^VOTE1") :=
  ⟨by decide +kernel, (nameHierarchy_iff (str "ABC/DEF^VOTE1") (by decide +kernel)).mpr (by decide +kernel)⟩

/-- Valid names with a parent, or an owner token, that is none. -/
theorem nameHierarchy_broken :
    isAssetNameOfType .VOTE (str "ABC^X^Y") = true ∧ ¬ NameHierarchy (str "ABC^X^Y") ∧
      isAssetNameOfType .RESTRICTED (str "$.ABC") = true ∧ ¬ NameHierarchy (str "$.ABC") ∧
      isAssetNameOfType .RESTRICTED (str "$HEMP") = true ∧ ¬ NameHierarchy (str "$HEMP") := by
  refine ⟨by decide +kernel, fun h => ?_, by decide +kernel, fun h => ?_, by decide +kernel, fun h => ?_⟩
  · have hparent := (h.parent .VOTE (by decide) (by decide +kernel)).1
    revert hparent
    decide +kernel
  · have howner := h.restricted (by decide +kernel)
    revert howner
    decide +kernel
  · have howner := h.restricted (by decide +kernel)
    revert howner
    decide +kernel

end HempCore
