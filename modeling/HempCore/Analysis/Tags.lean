import HempCore.Analysis.Commands
import HempCore.Lib.Groups

/-!
# Tagged addresses

A tag is a switch, and a root qualifier stands for the group of its sub-qualifiers. The sub-qualifiers
added since the last write are kept in a map by root, from which merging a block takes nothing out,
and the pending command for the root is asked before the map and the database. The answers follow the
tags of the active chain as long as every block treats the group of the root well.
-/

set_option autoImplicit false

namespace HempCore

open Lib Std

variable {cfg : Config} {g : AssetGlobals}

/-! ## Tags in blocks -/

def tagHistory (cfg : Config) (chain : List CBlock) : List (List (NameAddress × Bool)) :=
  chain.map fun block => (block.tags cfg).map fun c => (c.1, c.2.isOn)

/-- The last command for a qualifier at an address, in the blocks of the chain, adds it. -/
def taggedByHistory (cfg : Config) (chain : List CBlock) (key : NameAddress) : Bool :=
  switchedOn (tagHistory cfg chain) key

/-- The sub-qualifiers of a root, at its address. -/
def subQualifiersAt (root : NameAddress) : Set NameAddress :=
  { key | key.2 = root.2 ∧ isSubQualifierOf root.1 key.1 = true }

theorem subQualifiersAt_eq_empty {key : NameAddress} (h : subNameDelimiter ∈ key.1) : subQualifiersAt key = ∅ := by
  refine Set.eq_empty_of_forall_notMem fun sub hsub => ?_
  exact not_isSubQualifierOf hsub.2 h

/-! ## Sub-qualifiers by root -/

namespace CAssetsCache

def rootLists (cache : CAssetsCache) (root : NameAddress) (sub : Bytes) : Bool :=
  (cache.mapRootQualifierAddressesAdd.getD root ∅).contains sub

variable {cache : CAssetsCache}

theorem hasRootQualifier_iff (root : NameAddress) :
    cache.hasRootQualifier root = true ↔ ∃ sub, cache.rootLists root sub = true := by
  unfold hasRootQualifier rootLists
  rw [TreeMap.getD_eq_getD_getElem?]
  cases cache.mapRootQualifierAddressesAdd[root]? with
  | none => simp
  | some subs =>
    simp only [Bool.not_eq_true', Option.getD_some, TreeSet.isEmpty_eq_false_iff_exists_mem, TreeSet.mem_iff_contains]

def listTag (lists : NameAddress → Bytes → Bool) (c : NameAddress × Bool) :
    NameAddress → Bytes → Bool := fun root sub =>
  if isAssetNameASubQualifier c.1.1 = true ∧ root = (getParentName c.1.1, c.1.2) ∧ sub = c.1.1 then
    c.2
  else lists root sub

theorem rootLists_setRootQualifier (name address : Bytes) (on : Bool) :
    (cache.setRootQualifier name address on).rootLists = listTag cache.rootLists ((name, address), on) := by
  funext root sub
  unfold setRootQualifier listTag
  by_cases hsub : isAssetNameASubQualifier name = true
  · simp only [hsub, if_true, true_and, rootLists, TreeMap.getD_insert, LawfulEqOrd.compare_eq_iff_eq]
    by_cases hroot : root = (getParentName name, address)
    · subst hroot
      simp only [if_true, true_and]
      cases on with
      | true =>
        simp only [if_true, TreeSet.contains_insert]
        by_cases h : sub = name
        · simp [h]
        · simp [h, Ne.symm h]
      | false =>
        simp only [Bool.false_eq_true, if_false, TreeSet.contains_erase]
        by_cases h : sub = name
        · simp [h]
        · simp [h, Ne.symm h]
    · simp [hroot, Ne.symm hroot]
  · simp [hsub]

theorem foldl_listTag {cmds : List (NameAddress × Bool)} (hnames : ∀ c ∈ cmds, isTagName c.1.1 = true)
    (lists : NameAddress → Bytes → Bool) (root : NameAddress) (sub : Bytes) :
    cmds.foldl listTag lists root sub = if isSubQualifierOf root.1 sub then (lastFor cmds (sub, root.2)).getD (lists root sub)
      else lists root sub := by
  induction cmds generalizing lists with
  | nil => simp [lastFor]
  | cons c cmds ih =>
    have hiff := isSubQualifierOf_iff_of_isTagName root.1 (hnames c List.mem_cons_self)
    rw [List.foldl_cons, ih (fun c' hc' => hnames c' (List.mem_cons_of_mem _ hc')), lastFor_cons]
    by_cases hsub : isSubQualifierOf root.1 sub = true
    · simp only [hsub, if_true]
      cases lastFor cmds (sub, root.2) with
      | some b => rfl
      | none =>
        simp only [Option.none_or, Option.getD_none, listTag]
        by_cases hkey : (sub, root.2) = c.1
        · rw [if_pos hkey, if_pos, Option.getD_some]
          rw [← hkey] at hiff ⊢
          obtain ⟨hkind, hparent⟩ := hiff.mp hsub
          exact ⟨hkind, by rw [hparent], rfl⟩
        · rw [if_neg hkey, if_neg, Option.getD_none]
          rintro ⟨-, hroot, hname⟩
          exact hkey (by rw [hname, hroot])
    · simp only [hsub, Bool.false_eq_true, if_false, listTag]
      rw [if_neg]
      rintro ⟨hkind, hroot, hname⟩
      exact hsub (hname ▸ hiff.mpr ⟨hkind, by rw [hroot]⟩)

theorem contains_uniteWith (m extra : TreeMap NameAddress (TreeSet Bytes)) (root : NameAddress)
    (sub : Bytes) : ((uniteWith m extra).getD root ∅).contains sub =
      ((m.getD root ∅).contains sub || (extra.getD root ∅).contains sub) := by
  have hinsert : ∀ (subs : List Bytes) (t : TreeSet Bytes), (subs.foldl (·.insert ·) t).contains sub =
      (t.contains sub || subs.contains sub) := by
    intro subs
    induction subs with
    | nil => simp
    | cons x subs ih =>
      intro t
      rw [List.foldl_cons, ih, TreeSet.contains_insert, List.contains_cons, Bool.eq_iff_iff]
      simp only [Bool.or_eq_true, beq_iff_eq, LawfulEqOrd.compare_eq_iff_eq]
      rw [eq_comm (a := x), or_comm (a := sub = x), or_assoc]
  have hone : ∀ (subs : List Bytes) (k j : NameAddress) (m : TreeMap NameAddress (TreeSet Bytes)),
      (subs.foldl (fun m sub => m.insert k ((m.getD k ∅).insert sub)) m).getD j ∅ =
        if j = k then subs.foldl (·.insert ·) (m.getD j ∅) else m.getD j ∅ := by
    intro subs k j
    induction subs with
    | nil => simp
    | cons x subs ih =>
      intro m
      rw [List.foldl_cons, ih]
      by_cases hj : j = k
      · simp [hj]
      · simp [hj, Ne.symm hj, TreeMap.getD_insert]
  have hunited := treeMap_foldl_keyLocal
    (fun (m : TreeMap NameAddress (TreeSet Bytes)) (root : NameAddress) => m.getD root ∅)
    (fun m root (subs : TreeSet Bytes) => subs.foldl (fun m sub => m.insert root ((m.getD root ∅).insert sub)) m)
    (fun subs t => subs.toList.foldl (·.insert ·) t)
    (fun m k subs j => by
      rw [TreeSet.foldl_eq_foldl_toList]
      exact hone subs.toList k j m)
    extra m root
  rw [uniteWith]
  rw [hunited, TreeMap.getD_eq_getD_getElem? (t := extra)]
  cases extra[root]? with
  | none => simp
  | some subs =>
    simp only [Option.getD_some]
    rw [hinsert, Bool.eq_iff_iff]
    simp [TreeSet.mem_toList]

theorem rootLists_flushInto (passets : CAssetsCache) (root : NameAddress) (sub : Bytes) :
    (cache.flushInto passets).rootLists root sub = (passets.rootLists root sub || cache.rootLists root sub) :=
  contains_uniteWith _ _ root sub

/-! ## Commands of a block -/

variable (cmds : List NullAssetCommand)

theorem rootLists_applyCommands :
    (cmds.foldl applyCommand cache).rootLists =
      ((cmds.filterMap NullAssetCommand.tag?).map fun c => (c.1, c.2.isOn)).foldl listTag cache.rootLists := by
  rw [List.map_filterMap]
  refine foldl_filterMap_field rootLists _ _ (fun s c => ?_) cmds cache
  cases c with
  | qualifier name address type => exact rootLists_setRootQualifier name address type.isOn
  | restrictedAddress name address type => rfl
  | globalRestricted name type => rfl

theorem rootLists_undoCommands :
    (cmds.foldl undoCommand cache).rootLists =
      ((cmds.filterMap NullAssetCommand.tag?).map fun c => (c.1, !c.2.isOn)).foldl listTag cache.rootLists := by
  rw [List.map_filterMap]
  refine foldl_filterMap_field rootLists _ _ (fun s c => ?_) cmds cache
  cases c with
  | qualifier name address type => exact rootLists_setRootQualifier name address (!type.isOn)
  | restrictedAddress name address type => rfl
  | globalRestricted name type => rfl

/-- What a block lists under a root: its last command for the sub-qualifier adds it. -/
theorem rootLists_of_tags {tags : List (NameAddress × Bool)} (hnames : ∀ c ∈ tags, isTagName c.1.1 = true)
    (h : cache.rootLists = tags.foldl listTag CAssetsCache.empty.rootLists) (root : NameAddress) (sub : Bytes) :
    cache.rootLists root sub = true ↔ isSubQualifierOf root.1 sub = true ∧ lastFor tags (sub, root.2) = some true := by
  have hempty : CAssetsCache.empty.rootLists root sub = false := by
    simp [rootLists, CAssetsCache.empty]
  rw [h, foldl_listTag hnames, hempty]
  cases hsub : isSubQualifierOf root.1 sub with
  | false => simp
  | true => cases lastFor tags (sub, root.2) <;> simp

end CAssetsCache

/-! ## The store -/

theorem checkForAddressQualifier_iff (hmarked : ∀ key, g.qualifiers.db.contains key = true → isTagName key.1 = true)
    (name address : Bytes) :
    CAssetsCache.checkForAddressQualifier cfg g name address = true ↔
      g.tags.GroupAnswer (getHash cfg) QualifierType.isOn (name, address)
        (subQualifiersAt (name, address)) (g.passets.hasRootQualifier (name, address) = true) := by
  have hsearch : CAssetsCache.checkForAddressRootQualifier g address name = true ↔
      g.tags.Marked (name, address) (subQualifiersAt (name, address)) := by
    simp only [CAssetsCache.checkForAddressRootQualifier, List.any_eq_true, TreeMap.mem_keys,
      Bool.and_eq_true, beq_iff_eq, Bool.or_eq_true, Switches.Marked, AssetGlobals.tags]
    refine exists_congr fun key => ?_
    rw [TreeMap.mem_iff_contains, and_comm (b := g.qualifiers.db.contains key = true)]
    refine and_congr_right fun hkey => ?_
    rw [isPrefixOf_iff_of_isTagName (hmarked key hkey)]
    constructor
    · rintro ⟨rfl, rfl | hsub⟩
      · exact .inl rfl
      · exact .inr ⟨rfl, hsub⟩
    · rintro (rfl | ⟨haddress, hsub⟩)
      · exact ⟨rfl, .inl rfl⟩
      · exact ⟨haddress, .inr hsub⟩
  simp only [CAssetsCache.checkForAddressQualifier, Switches.GroupAnswer, AssetGlobals.tags, Pending.entry]
  cases g.passets.qualifierAddress.toRemove[(name, address)]? with
  | some type => simp
  | none =>
    cases g.passets.qualifierAddress.toAdd[(name, address)]? with
    | some type => simp
    | none =>
      simp only [Bool.or_eq_true, hsearch, or_assoc]
      rfl

theorem checkForAddressQualifier_of_sub (hmarked : ∀ key, g.qualifiers.db.contains key = true → isTagName key.1 = true)
    (hlists : ∀ root sub, g.passets.rootLists root sub = true → isSubQualifierOf root.1 sub = true) {name : Bytes}
    (hname : subNameDelimiter ∈ name) (address : Bytes) :
    CAssetsCache.checkForAddressQualifier cfg g name address =
      g.tags.answer (getHash cfg) QualifierType.isOn (name, address) := by
  have hroot : ¬ g.passets.hasRootQualifier (name, address) = true := by
    rw [CAssetsCache.hasRootQualifier_iff]
    rintro ⟨sub, hsub⟩
    exact not_isSubQualifierOf (hlists _ sub hsub) hname
  rw [Bool.eq_iff_iff, checkForAddressQualifier_iff hmarked, subQualifiersAt_eq_empty hname, eq_false hroot]
  exact Switches.groupAnswer_alone

/-! ## Runs -/

def tagKeys (cfg : Config) (actions : List Node.Action) : Set NameAddress :=
  { key | ∃ block, .connect block ∈ actions ∧ ∃ type, (key, type) ∈ block.tags cfg }

/-- What a node may do to the group of a root qualifier. Nothing is asked for a sub-qualifier, which
is answered for by its own switch. -/
def TagStep (cfg : Config) (root : NameAddress) (node : Node) : Node.Action → Prop
  | .connect block => isAssetNameOfType .QUALIFIER root.1 = true →
    Switches.ConnectsWell QualifierType.isOn root (subQualifiersAt root) node.assets.tags
      (node.assets.passets.hasRootQualifier root = true)
      ((block.tags cfg).map fun c => (c.1, c.2.isOn)) (tagHistory cfg node.chain)
  | .disconnect => isAssetNameOfType .QUALIFIER root.1 = true →
    ∀ block rest, node.chain = block :: rest →
      Switches.DisconnectsWell QualifierType.isOn root (subQualifiersAt root) node.assets.tags
        ((block.tags cfg).map fun c => (c.1, c.2.isOn)) (tagHistory cfg rest)
  | _ => True

/-- The store follows the blocks of the chain for the group of a root, and the lists hold
sub-qualifiers under their roots. -/
structure TagInvariant (cfg : Config) (keys : Set NameAddress) (root : NameAddress) (node : Node) :
    Prop where
  follows : node.assets.tags.Follows (getHash cfg) QualifierType.isOn keys root (subQualifiersAt root)
    (node.assets.passets.hasRootQualifier root = true) (tagHistory cfg node.chain)
  lists : ∀ root sub, node.assets.passets.rootLists root sub = true →
    isSubQualifierOf root.1 sub = true
  used : ∀ block ∈ node.chain, ∀ c ∈ block.tags cfg, c.1 ∈ keys
  deployed : Revocable cfg node.chain node.dep

theorem rootLists_empty (root : NameAddress) (sub : Bytes) : CAssetsCache.empty.rootLists root sub = false := by
  simp [CAssetsCache.rootLists, CAssetsCache.empty]

theorem hasRootQualifier_empty (root : NameAddress) : (CAssetsCache.empty.hasRootQualifier root = true) = False := by
  simp [CAssetsCache.hasRootQualifier_iff, rootLists_empty]

theorem tagInvariant_genesis (keys : Set NameAddress) (root : NameAddress) (dep : Deployments) :
    TagInvariant cfg keys root (.genesis dep) where
  follows := by
    have hnone := hasRootQualifier_empty root
    simp only [Node.genesis, AssetGlobals.empty, hnone]
    exact Switches.follows_empty maxCacheAssetsSize
  lists root sub h := by
    rw [Node.genesis, AssetGlobals.empty, rootLists_empty] at h
    cases h
  used := by simp [Node.genesis]
  deployed := by simp [Node.genesis, Revocable]

theorem tags_of_commands {block : CBlock} (h : ∀ c ∈ block.commands cfg, CommandAccepted cfg g c) :
    ∀ c ∈ block.tags cfg, ReadableKey cfg c.1 ∧ isTagName c.1.1 = true ∧
      CAssetsCache.checkForAddressQualifier cfg g c.1.1 c.1.2 = !c.2.isOn := by
  intro c hc
  obtain ⟨command, s, hpick, haccepted, hout⟩ := accepted_of_pick h hc
  cases command with
  | restrictedAddress name address type => cases hpick
  | globalRestricted name type => cases hpick
  | qualifier name address type =>
    cases hpick
    obtain ⟨hqualifier, hanswer⟩ := haccepted
    have hvalid : isAssetNameValid name = true := by
      simp only [isAssetNameAQualifier, Bool.and_eq_true] at hqualifier
      exact hqualifier.1
    exact ⟨⟨address_of_nullAssetCommand hout rfl, length_le_of_isAssetNameValid hvalid⟩,
      isTagName_of_nullAssetCommand hout hvalid, hanswer⟩

section Steps

variable {keys : Set NameAddress} {root : NameAddress} {node node' : Node}

theorem hasRootQualifier_flush {cache : CAssetsCache} {tags : List (NameAddress × Bool)}
    (hlists : ∀ root sub, cache.rootLists root sub = true ↔
      isSubQualifierOf root.1 sub = true ∧ lastFor tags (sub, root.2) = some true) :
    (node.assets.flush cache).passets.hasRootQualifier root = true ↔
      node.assets.passets.hasRootQualifier root = true ∨ ∃ m ∈ subQualifiersAt root, lastFor tags m = some true := by
  simp only [CAssetsCache.hasRootQualifier_iff, AssetGlobals.flush, CAssetsCache.rootLists_flushInto, Bool.or_eq_true, exists_or]
  refine or_congr_right ⟨?_, ?_⟩
  · rintro ⟨sub, hsub⟩
    obtain ⟨hof, hlast⟩ := (hlists root sub).mp hsub
    exact ⟨(sub, root.2), ⟨rfl, hof⟩, hlast⟩
  · rintro ⟨⟨sub, address⟩, ⟨rfl, hof⟩, hlast⟩
    exact ⟨sub, (hlists root sub).mpr ⟨hof, hlast⟩⟩

theorem lists_flush {cache : CAssetsCache} {tags : List (NameAddress × Bool)}
    (hlists : ∀ root sub, cache.rootLists root sub = true ↔
      isSubQualifierOf root.1 sub = true ∧ lastFor tags (sub, root.2) = some true)
    (h : ∀ root sub, node.assets.passets.rootLists root sub = true → isSubQualifierOf root.1 sub = true) :
    ∀ root sub, (node.assets.flush cache).passets.rootLists root sub = true → isSubQualifierOf root.1 sub = true := by
  intro root sub hsub
  rw [AssetGlobals.flush, CAssetsCache.rootLists_flushInto, Bool.or_eq_true] at hsub
  exact hsub.elim (h root sub) fun hnew => ((hlists root sub).mp hnew).1

theorem connectsWell_of_sub (hnode : TagInvariant cfg keys root node)
    (hroot : subNameDelimiter ∈ root.1) (tags : List (NameAddress × Bool)) :
    Switches.ConnectsWell QualifierType.isOn root (subQualifiersAt root) node.assets.tags
      (node.assets.passets.hasRootQualifier root = true) tags (tagHistory cfg node.chain) := by
  have hlisted : ¬ node.assets.passets.hasRootQualifier root = true := by
    rw [CAssetsCache.hasRootQualifier_iff]
    rintro ⟨sub, hsub⟩
    exact not_isSubQualifierOf (hnode.lists _ sub hsub) hroot
  rw [subQualifiersAt_eq_empty hroot]
  constructor
  · rintro - ⟨m, hm, -⟩
    exact hm.elim
  · rintro - ⟨m, hm, -⟩
    exact hm.elim
  · rintro - ⟨m, hm, -⟩
    exact hm.elim
  · intro _
    simp [hlisted, Turns, MemberOn]

theorem disconnectsWell_of_sub (hroot : subNameDelimiter ∈ root.1) (tags : List (NameAddress × Bool))
    (blocks : List (List (NameAddress × Bool))) :
    Switches.DisconnectsWell QualifierType.isOn root (subQualifiersAt root) node.assets.tags tags blocks := by
  rw [subQualifiersAt_eq_empty hroot]
  constructor
  · rintro - ⟨m, hm, -⟩
    exact hm.elim
  · rintro - ⟨m, hm, -⟩
    exact hm.elim

variable (hnames : ∀ key ∈ keys, isTagName key.1 = true)

include hnames in
theorem tagInvariant_connect (hinj : Set.InjOn (getHash cfg) keys) (hroot : root ∈ keys)
    {block : CBlock} (hnode : TagInvariant cfg keys root node)
    (hkeys : ∀ c ∈ block.tags cfg, ReadableKey cfg c.1 → isTagName c.1.1 = true → c.1 ∈ keys)
    (hcoinbase : CoinbaseChecked node (.connect block)) (hwell : TagStep cfg root node (.connect block))
    (h : node.connectTip cfg block = .ok node') : TagInvariant cfg keys root node' := by
  obtain ⟨cache, happlies⟩ := commands_of_connectTip hcoinbase h
  have htags := tags_of_commands fun c hc => (happlies.accepted c hc).2.2
  have hused : ∀ c ∈ block.tags cfg, c.1 ∈ keys := fun c hc => hkeys c hc (htags c hc).1 (htags c hc).2.1
  have hmarked : ∀ key, node.assets.qualifiers.db.contains key = true → isTagName key.1 = true :=
    fun key hkey => hnames key (hnode.follows.tracks.sound.markers.marked key hkey)
  have hturned : ∀ c ∈ (block.tags cfg).map fun c => (c.1, c.2.isOn), isTagName c.1.1 = true := by
    intro c hc
    obtain ⟨c', hc', rfl⟩ := List.mem_map.mp hc
    exact (htags c' hc').2.1
  have hlists := CAssetsCache.rootLists_of_tags hturned
    ((congrArg CAssetsCache.rootLists happlies.commands).trans (CAssetsCache.rootLists_applyCommands _))
  have hwell' : Switches.ConnectsWell QualifierType.isOn root (subQualifiersAt root) node.assets.tags
      (node.assets.passets.hasRootQualifier root = true)
      ((block.tags cfg).map fun c => (c.1, c.2.isOn)) (tagHistory cfg node.chain) := by
    have hname := hnames root hroot
    simp only [isTagName, Bool.or_eq_true] at hname
    rcases hname with hname | hname
    · exact hwell hname
    · exact connectsWell_of_sub hnode (delimiter_mem_of_subQualifier hname) _
  refine ⟨?_, ?_, ?_, happlies.deployed hnode.deployed⟩
  · rw [happlies.tags, happlies.passets, happlies.chain]
    refine hnode.follows.connect hinj hroot hused (fun c hc hmember => ?_) (fun c hc hc1 => ?_) hwell'
      (hasRootQualifier_flush hlists)
    · have hsub := hmember.2
      simp only [isSubQualifierOf, Bool.and_eq_true] at hsub
      rw [← checkForAddressQualifier_of_sub hmarked hnode.lists (delimiter_mem_of_subQualifier hsub.1)]
      exact (htags c hc).2.2
    · rw [← hc1, ← checkForAddressQualifier_iff hmarked, (htags c hc).2.2, Bool.not_eq_true']
  · rw [happlies.passets]
    exact lists_flush hlists hnode.lists
  · rw [happlies.chain, List.forall_mem_cons]
    exact ⟨hused, hnode.used⟩

include hnames in
theorem tagInvariant_disconnect (hroot : root ∈ keys) (hnode : TagInvariant cfg keys root node)
    (hwell : TagStep cfg root node .disconnect) (h : node.disconnectTip cfg = some node') :
    TagInvariant cfg keys root node' := by
  obtain ⟨block, undone, cache, hundoes⟩ := commands_of_disconnectTip hnode.deployed h
  obtain ⟨hfollows, hlistsBefore, hused, -⟩ := hnode
  rw [hundoes.chain] at hfollows hused
  obtain ⟨hblock, hrest⟩ := List.forall_mem_cons.mp hused
  have hmem : ∀ c, c ∈ undone.filterMap NullAssetCommand.tag? ↔ c ∈ block.tags cfg := by
    intro c
    simp [CBlock.tags, List.mem_filterMap, hundoes.mem]
  have hturned : ∀ c ∈ (undone.filterMap NullAssetCommand.tag?).map fun c => (c.1, !c.2.isOn), isTagName c.1.1 = true := by
    intro c hc
    obtain ⟨c', hc', rfl⟩ := List.mem_map.mp hc
    exact hnames c'.1 (hblock c' ((hmem c').mp hc'))
  have hlists := CAssetsCache.rootLists_of_tags hturned
    ((congrArg CAssetsCache.rootLists hundoes.commands).trans (CAssetsCache.rootLists_undoCommands _))
  have hwell' : Switches.DisconnectsWell QualifierType.isOn root (subQualifiersAt root)
      node.assets.tags ((block.tags cfg).map fun c => (c.1, c.2.isOn)) (tagHistory cfg node'.chain) := by
    have hname := hnames root hroot
    simp only [isTagName, Bool.or_eq_true] at hname
    rcases hname with hname | hname
    · exact hwell hname block _ hundoes.chain
    · exact disconnectsWell_of_sub (delimiter_mem_of_subQualifier hname) _ _
  refine ⟨?_, ?_, hrest, hundoes.deployed⟩
  · rw [hundoes.tags, hundoes.passets]
    exact hfollows.disconnect hmem hblock hwell' (hasRootQualifier_flush hlists)
  · rw [hundoes.passets]
    exact lists_flush hlists hlistsBefore

theorem tagInvariant_dump (hnode : TagInvariant cfg keys root node) :
    TagInvariant cfg keys root { node with assets := node.assets.dumpCacheToDatabase (node.config cfg) } := by
  have htables := AssetGlobals.switchTables_dumpCacheToDatabase (node.config cfg) node.assets
  simp only [AssetGlobals.switchTables, Prod.mk.injEq] at htables
  obtain ⟨hpassets, hqualifiers, -, -⟩ := htables
  refine ⟨?_, fun root sub h => ?_, hnode.used, hnode.deployed⟩
  · simp only [AssetGlobals.tags, hpassets, hqualifiers, hasRootQualifier_empty]
    exact hnode.follows.dump
  · simp only [hpassets, rootLists_empty] at h
    cases h

theorem tagInvariant_touch (hnode : TagInvariant cfg keys root node) (t : AssetGlobals.Touch) :
    TagInvariant cfg keys root { node with assets := node.assets.touch cfg t } := by
  refine ⟨?_, hnode.lists, hnode.used, hnode.deployed⟩
  cases hkey : t.qualifier with
  | none =>
    simp only [AssetGlobals.tags, AssetGlobals.touch, hkey]
    exact hnode.follows
  | some key =>
    simp only [AssetGlobals.tags, AssetGlobals.touch, hkey]
    exact hnode.follows.refill key

include hnames in
theorem tagInvariant_step {actions : List Node.Action} (hinj : Set.InjOn (getHash cfg) keys) (hroot : root ∈ keys)
    (hkeys : ∀ key ∈ tagKeys cfg actions, ReadableKey cfg key → isTagName key.1 = true → key ∈ keys) (node : Node)
    (action : Node.Action) (node' : Node) (hnode : TagInvariant cfg keys root node)
    (haction : (CoinbaseChecked node action ∧ TagStep cfg root node action) ∧ action ∈ actions)
    (h : node.step cfg action = some node') : TagInvariant cfg keys root node' := by
  obtain ⟨⟨hcoinbase, hwell⟩, hmem⟩ := haction
  cases action with
  | connect block =>
    refine tagInvariant_connect hnames hinj hroot hnode (fun c hc => ?_) hcoinbase hwell (step_connect h)
    exact hkeys c.1 ⟨block, hmem, c.2, hc⟩
  | disconnect => exact tagInvariant_disconnect hnames hroot hnode hwell h
  | dump =>
    cases h
    split_ifs
    · exact tagInvariant_dump hnode
    · exact hnode
  | touch t =>
    cases h
    exact tagInvariant_touch hnode t
  | activate dep =>
    simp only [Node.step] at h
    split_ifs at h with hle
    cases h
    exact ⟨hnode.follows, hnode.lists, hnode.used, hnode.deployed.activate hle⟩

end Steps

/-! ## The result -/

/-- On every node whose blocks treat the group of the qualifier well and have coinbases without
assets and commands, the qualifier is found at the address exactly when the active chain left it, or
a sub-qualifier of it, assigned there. -/
theorem tag_state_eq_history (hformat : AddressFormat cfg) (dep : Deployments)
    (actions : List Node.Action) (node : Node) (name address : Bytes)
    (hname : isTagName name = true) (haddress : CommandAddress cfg address)
    (hsteps : Along (Node.step cfg) (fun node action => CoinbaseChecked node action ∧
      TagStep cfg (name, address) node action) (.genesis dep) actions)
    (hrun : (Node.genesis dep).run cfg actions = some node)
    (hhash : Set.InjOn cfg.hash
      (Set.image (fun key : NameAddress => key.1 ++ key.2)
        (insert (name, address) (tagKeys cfg actions)))) :
    CAssetsCache.checkForAddressQualifier cfg node.assets name address = true ↔
      taggedByHistory cfg node.chain (name, address) = true ∨
        ∃ sub, isSubQualifierOf name sub = true ∧
          taggedByHistory cfg node.chain (sub, address) = true := by
  set asked : Set NameAddress := insert (name, address) (tagKeys cfg actions) with hasked
  set keys : Set NameAddress :=
    { key | key ∈ asked ∧ ReadableKey cfg key ∧ isTagName key.1 = true } with hkeys
  have hsub : keys ⊆ asked := fun key hkey => hkey.1
  have hinj : Set.InjOn (getHash cfg) keys :=
    getHash_injOn hformat (fun key hkey => ⟨hkey.2.1.1, fun _ => hkey.2.1.2⟩)
      (hhash.mono (Set.image_mono hsub))
  have hvalid : isAssetNameValid name = true := by
    simp only [isTagName, isAssetNameOfType, Bool.or_eq_true, Bool.and_eq_true] at hname
    exact hname.elim And.left And.left
  have hmem : (name, address) ∈ keys :=
    ⟨Set.mem_insert _ _, ⟨haddress, length_le_of_isAssetNameValid hvalid⟩, hname⟩
  have hnames : ∀ key ∈ keys, isTagName key.1 = true := fun key hkey => hkey.2.2
  have hnode : TagInvariant cfg keys (name, address) node :=
    run_invariant
      (tagInvariant_step hnames hinj hmem fun key hkey hreadable htag =>
        ⟨Set.mem_insert_of_mem _ hkey, hreadable, htag⟩)
      (tagInvariant_genesis keys (name, address) dep) hsteps.and_mem hrun
  have hmarked : ∀ key, node.assets.qualifiers.db.contains key = true → isTagName key.1 = true :=
    fun key hkey => hnames key (hnode.follows.tracks.sound.markers.marked key hkey)
  rw [checkForAddressQualifier_iff hmarked, hnode.follows.answer_iff hinj hmem]
  refine or_congr_right ⟨?_, ?_⟩
  · rintro ⟨⟨sub, address'⟩, ⟨rfl, hof⟩, hon⟩
    exact ⟨sub, hof, hon⟩
  · rintro ⟨sub, hof, hon⟩
    exact ⟨(sub, address), ⟨rfl, hof⟩, hon⟩

/-! ## A sub-qualifier that is added and removed -/

def tagAsset : CNewAsset := ⟨str "#TAG", COIN, 0, 0, 0, []⟩
def tagSubAsset : CNewAsset := ⟨str "#TAG/#SUB", COIN, 0, 0, 0, []⟩

def tagIssueTx : CTransaction where
  vin := [⟨⟨1001, 0⟩, []⟩]
  vout := [paymentOut qualifierBurnKeyID 25000000, paymentOut aliceKeyID (9 * COIN),
    issueOut aliceKeyID tagAsset]
  hash := 3001

def tagSubIssueTx : CTransaction where
  vin := [⟨⟨3001, 1⟩, []⟩, ⟨⟨3001, 2⟩, []⟩]
  vout := [paymentOut subQualifierBurnKeyID 5000000, paymentOut aliceKeyID (8 * COIN),
    transferOut aliceKeyID (str "#TAG") COIN, issueOut aliceKeyID tagSubAsset]
  hash := 3002

def tagAddTx : CTransaction where
  vin := [⟨⟨3002, 1⟩, []⟩, ⟨⟨3002, 3⟩, []⟩]
  vout := [paymentOut addTagBurnKeyID 5000000, transferOut aliceKeyID (str "#TAG/#SUB") COIN,
    freezeOut bobKeyID (str "#TAG/#SUB") 1]
  hash := 3003

def tagRemoveTx : CTransaction where
  vin := [⟨⟨3003, 1⟩, []⟩]
  vout := [transferOut aliceKeyID (str "#TAG/#SUB") COIN, freezeOut bobKeyID (str "#TAG/#SUB") 0]
  hash := 3004

def tagAddRun : List Node.Action :=
  maturedChain ++ [.connect ⟨101, [coinbaseAt 101, tagIssueTx]⟩,
    .connect ⟨102, [coinbaseAt 102, tagSubIssueTx]⟩, .connect ⟨103, [coinbaseAt 103, tagAddTx]⟩]

theorem undone_connect {root : NameAddress} {node node' : Node} {block : CBlock}
    (hcoinbase : CoinbaseChecked node (.connect block)) (h : node.connectTip cfg block = .ok node')
    (hnode : (node.assets.tags.pending.entry root).2 = none) : (node'.assets.tags.pending.entry root).2 = none := by
  obtain ⟨cache, happlies⟩ := commands_of_connectTip hcoinbase h
  have hentry : node'.assets.tags.pending.entry root =
      Pending.merge ((Pending.empty.addAll (block.tags cfg)).entry root) (node.assets.tags.pending.entry root) := by
    rw [happlies.tags, ← Pending.entry_flushInto _ _ _ (Pending.exclusive_empty.addAll _)]
    rfl
  rw [hentry]
  rcases Pending.entry_addAll (block.tags cfg) root Pending.empty with ⟨-, hnone⟩ | ⟨c, -, hsome⟩
  · rw [hnone, Pending.entry_empty]
    exact hnode
  · rw [hsome]
    rfl

theorem tags_tagAddRun {block : CBlock} (h : .connect block ∈ tagAddRun) :
    block.tags mainAll = [] ∨ block.tags mainAll = [((str "#TAG/#SUB", bobAddress), .ADD_QUALIFIER)] := by
  have hout : nullAssetCommand mainAll (paymentOut aliceKeyID (10 * COIN)).scriptPubKey =
      none := by decide +kernel
  simp only [tagAddRun, maturedChain, List.mem_append, List.mem_map, List.mem_cons,
    Node.Action.connect.injEq, List.not_mem_nil, or_false] at h
  rcases h with ⟨i, -, rfl⟩ | rfl | rfl | rfl
  · left
    simp [CBlock.tags, CBlock.commands, CTransaction.commands, coinbaseAt, hout]
  · exact .inl (by decide +kernel)
  · exact .inl (by decide +kernel)
  · exact .inr (by decide +kernel)

theorem along_tagAddRun : Along (Node.step mainAll) (fun node action =>
    CoinbaseChecked node action ∧ TagStep mainAll (str "#TAG", bobAddress) node action) (.genesis .all) tagAddRun := by
  have hconnect : ∀ action ∈ tagAddRun, ∃ block, action = .connect block := by
    intro action haction
    simp only [tagAddRun, maturedChain, List.mem_append, List.mem_map, List.mem_cons, List.not_mem_nil, or_false] at haction
    rcases haction with ⟨i, -, rfl⟩ | rfl | rfl | rfl <;> exact ⟨_, rfl⟩
  have hchecked : ∀ node : Node, node.dep = .all → ∀ block, CoinbaseChecked node (.connect block) :=
    fun node hdep block => .inl (by rw [hdep]; rfl)
  refine along_of_invariant (I := fun node : Node => node.dep = .all ∧
    (node.assets.tags.pending.entry (str "#TAG", bobAddress)).2 = none) ?_ ?_ ⟨rfl, by decide +kernel⟩
  · rintro node action haction node' ⟨hdep, hnone⟩ hstep
    obtain ⟨block, rfl⟩ := hconnect action haction
    have htip := step_connect hstep
    obtain ⟨cache, happlies⟩ := commands_of_connectTip (hchecked node hdep block) htip
    exact ⟨happlies.dep.trans hdep, undone_connect (hchecked node hdep block) htip hnone⟩
  · rintro node action haction ⟨hdep, hnone⟩
    obtain ⟨block, rfl⟩ := hconnect action haction
    refine ⟨hchecked node hdep block, fun _ => ?_⟩
    have hmem : ∀ c ∈ (block.tags mainAll).map fun c => (c.1, c.2.isOn), c = ((str "#TAG/#SUB", bobAddress), true) := by
      rcases tags_tagAddRun haction with htags | htags <;> simp [htags, QualifierType.isOn]
    constructor
    · rintro - ⟨m, -, hm⟩
      cases hmem _ hm
    · rintro - - ⟨c, hc, -⟩
      rw [hnone] at hc
      cases hc
    · intro hroot
      cases hmem _ hroot
    · intro hroot
      cases hmem _ hroot

theorem tagAdd_state_eq_history :
    ∃ node, (Node.genesis .all).run mainAll tagAddRun = some node ∧
      taggedByHistory mainAll node.chain (str "#TAG/#SUB", bobAddress) = true ∧
      CAssetsCache.checkForAddressQualifier mainAll node.assets (str "#TAG") bobAddress =
        true := by
  have hhistory : ((Node.genesis .all).run mainAll tagAddRun).map (fun node =>
      taggedByHistory mainAll node.chain (str "#TAG/#SUB", bobAddress)) = some true := by
    decide +kernel
  obtain ⟨node, hrun, htagged⟩ := Option.map_eq_some_iff.mp hhistory
  have hhash : Set.InjOn mainAll.hash
      (Set.image (fun key : NameAddress => key.1 ++ key.2)
        (insert (str "#TAG", bobAddress) (tagKeys mainAll tagAddRun))) := by
    have hpair : Set.InjOn mainAll.hash
        {str "#TAG" ++ bobAddress, str "#TAG/#SUB" ++ bobAddress} := by
      rw [Set.injOn_pair]
      intro heq
      exact absurd heq (by decide +kernel)
    refine hpair.mono ?_
    rintro _ ⟨key, rfl | ⟨block, hblock, type, htag⟩, rfl⟩
    · exact .inl rfl
    · rcases tags_tagAddRun hblock with htags | htags
      · simp [htags] at htag
      · rw [htags, List.mem_singleton] at htag
        obtain ⟨rfl, -⟩ := Prod.mk.inj htag
        exact .inr rfl
  have hanswer := tag_state_eq_history (addressFormat_mainConfig .all) .all tagAddRun node
    (str "#TAG") bobAddress (by decide +kernel) (.inr ⟨bobKeyID, rfl, rfl⟩) along_tagAddRun hrun hhash
  exact ⟨node, hrun, htagged, hanswer.mpr (.inr ⟨str "#TAG/#SUB", by decide +kernel, htagged⟩)⟩

/-- Nothing is assigned to Bob any more, and `#TAG` is found there until the next write. -/
theorem removed_sub_still_found :
    ∃ node written,
      (Node.genesis .all).run mainAll
        (tagAddRun ++ [.connect ⟨104, [coinbaseAt 104, tagRemoveTx]⟩]) = some node ∧
      node.step mainAll .dump = some written ∧
      (∀ name, taggedByHistory mainAll node.chain (name, bobAddress) = false) ∧
      CAssetsCache.checkForAddressQualifier mainAll node.assets (str "#TAG") bobAddress =
        true ∧
      CAssetsCache.checkForAddressQualifier mainAll written.assets (str "#TAG") bobAddress =
        false := by
  have h : ((Node.genesis .all).run mainAll
      (tagAddRun ++ [.connect ⟨104, [coinbaseAt 104, tagRemoveTx]⟩])).map (fun node =>
        ((tagHistory mainAll node.chain).reverse.flatten,
          CAssetsCache.checkForAddressQualifier mainAll node.assets (str "#TAG") bobAddress,
          (node.step mainAll .dump).map fun written =>
            CAssetsCache.checkForAddressQualifier mainAll written.assets (str "#TAG")
              bobAddress)) =
      some ([((str "#TAG/#SUB", bobAddress), true), ((str "#TAG/#SUB", bobAddress), false)], true,
        some false) := by
    decide +kernel
  obtain ⟨node, hrun, hanswers⟩ := Option.map_eq_some_iff.mp h
  obtain ⟨hhistory, hrest⟩ := Prod.mk.inj hanswers
  obtain ⟨hanswer, hdump⟩ := Prod.mk.inj hrest
  obtain ⟨written, hwritten, hafter⟩ := Option.map_eq_some_iff.mp hdump
  refine ⟨node, written, hrun, hwritten, fun name => ?_, hanswer, hafter⟩
  rw [taggedByHistory, switchedOn, hhistory]
  by_cases hname : str "#TAG/#SUB" = name
  · simp [lastFor, hname]
  · simp [lastFor, hname]

end HempCore
