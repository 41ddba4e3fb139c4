import HempCore.Analysis.AssetScripts
import HempCore.Model.AssetDirectory

/-!
# What the listings list

A listing is a slice of all the records that match. An offset from the end holds only for assets,
and only as far as the list goes; the listings of quantities start over at the first record of the
whole database, which is one of another kind.
-/

set_option autoImplicit false

namespace HempCore

open Lib

/-! ## Keys -/

theorem writeString_append_inj {a b x y : Bytes} (ha : a.length ≤ maxSize) (hb : b.length ≤ maxSize)
    (h : writeString a ++ x = writeString b ++ y) : a = b := by
  have hread := readString_of_le ha x
  rw [h, readString_of_le hb y] at hread
  exact ((Prod.mk.inj (Option.some.inj hread)).1).symm

theorem writeString_nil : writeString [] = [0] := rfl

theorem not_writeString_lt (s : Bytes) : ¬writeString s < writeString [] := by
  rw [writeString_nil]
  cases hs : writeString s with
  | nil =>
    have hlen : 0 < (writeString s).length := by
      rw [writeString, writeCompactSize, List.length_append]
      split_ifs <;> simp only [writeLE_length, List.length_cons] <;> omega
    rw [hs] at hlen
    cases hlen
  | cons b t =>
    rw [List.cons_lt_cons_iff]
    rintro (hlt | ⟨-, hlt⟩)
    · exact absurd hlt (by simp)
    · exact List.not_lt_nil _ hlt

theorem append_lt_append_iff (s x y : Bytes) : s ++ x < s ++ y ↔ x < y := by
  induction s with
  | nil => rfl
  | cons a s ih =>
    rw [List.cons_append, List.cons_append, List.cons_lt_cons_iff, ih]
    simp

namespace AssetsDBRecord

def flag : AssetsDBRecord → UInt8
  | .asset _ _ => assetFlag
  | .assetAddressQuantity _ _ _ => assetAddressQuantityFlag
  | .addressAssetQuantity _ _ _ => addressAssetQuantityFlag
  | .blockAssetUndoData _ _ => blockAssetUndoFlag
  | .mempoolReissuedTx _ => mempoolReissuedFlag

theorem exists_key (r : AssetsDBRecord) : ∃ rest, r.key = r.flag :: rest := by
  cases r <;> exact ⟨_, rfl⟩

theorem not_flag_lt (r : AssetsDBRecord) : ¬r.flag < assetFlag := by
  cases r <;> simp [flag, assetFlag, assetAddressQuantityFlag, addressAssetQuantityFlag, blockAssetUndoFlag, mempoolReissuedFlag]

theorem isAsset_iff {r : AssetsDBRecord} : r.isAsset = true ↔ r.flag = assetFlag := by
  cases r <;> simp [isAsset, flag, assetFlag, assetAddressQuantityFlag, addressAssetQuantityFlag, blockAssetUndoFlag,
    mempoolReissuedFlag]

end AssetsDBRecord

namespace AssetsDB

open AssetsDBRecord

variable (db : AssetsDB)

/-! ## Lists of quantities -/

/-- The keys of the entries begin with `s`, and no other key does. -/
structure Listed (s : Bytes) (entry : AssetsDBRecord → Option (Bytes × Int)) : Prop where
  begins : ∀ r ∈ db.records, (entry r).isSome = true → ∃ str, r.key = s ++ writeString str
  only : ∀ a ∈ db.records, ∀ b ∈ db.records, (entry b).isSome = true → s <+: a.key → (entry a).isSome = true

section Quantities

variable {db} {s : Bytes} {entry : AssetsDBRecord → Option (Bytes × Int)}

theorem Listed.takeWhile (h : db.Listed s entry) {l : List AssetsDBRecord} (hl : l.Sublist db.records) {x : Bytes}
    (hlow : ∀ r ∈ l, ¬r.key < s ++ x) :
    l.takeWhile (fun r => (entry r).isSome) = l.filter fun r => (entry r).isSome := by
  refine takeWhile_eq_filter ((db.sorted.sublist hl).imp_of_mem ?_)
  intro a b ha hb hlt hentry
  obtain ⟨str, hstr⟩ := h.begins b (hl.subset hb) hentry
  rw [hstr] at hlt
  exact h.only a (hl.subset ha) b (hl.subset hb) hentry (isPrefix_of_between (hlow a ha) hlt)

theorem Listed.seek (h : db.Listed s entry) :
    (db.seek (s ++ writeString [])).takeWhile (fun r => (entry r).isSome) = db.records.filter (fun r => (entry r).isSome) ∧
      (db.seek (s ++ writeString [])).filter (fun r => (entry r).isSome) = db.records.filter fun r => (entry r).isSome := by
  have hfilter : (db.seek (s ++ writeString [])).filter (fun r => (entry r).isSome) =
      db.records.filter fun r => (entry r).isSome := by
    refine filter_dropWhile fun r hr hentry => ?_
    obtain ⟨str, hstr⟩ := h.begins r hr hentry
    rw [decide_eq_false_iff_not, hstr, append_lt_append_iff]
    exact not_writeString_lt str
  refine ⟨?_, hfilter⟩
  rw [← hfilter]
  refine h.takeWhile (x := writeString []) (List.dropWhile_sublist _) fun r hr => ?_
  have hsorted : db.records.Pairwise fun a b =>
      decide (b.key < s ++ writeString []) = true → decide (a.key < s ++ writeString []) = true := by
    refine db.sorted.imp ?_
    intro a b hlt hb
    rw [decide_eq_true_eq] at hb ⊢
    exact List.lt_trans hlt hb
  simpa using not_of_mem_dropWhile hsorted r hr

theorem Listed.records (h : db.Listed s entry) {r : AssetsDBRecord} (hhead : db.records.head? = some r)
    (hentry : (entry r).isSome = true) :
    db.records.takeWhile (fun r => (entry r).isSome) = db.records.filter fun r => (entry r).isSome := by
  obtain ⟨str, hstr⟩ := h.begins r (List.mem_of_mem_head? hhead) hentry
  refine h.takeWhile (x := writeString str) (List.Sublist.refl _) fun a ha hlt => ?_
  rw [← hstr] at hlt
  cases hrecords : db.records with
  | nil =>
    rw [hrecords] at ha
    cases ha
  | cons first rest =>
    have hsorted := db.sorted
    rw [hrecords, List.head?_cons, Option.some.injEq] at hhead
    rw [hrecords] at ha hsorted
    subst hhead
    rcases List.mem_cons.mp ha with rfl | ha
    · exact List.lt_irrefl _ hlt
    · exact List.lt_asymm ((List.pairwise_cons.mp hsorted).1 a ha) hlt

theorem toSizeT_of_neg {v : Int} (h : v < 0) : toSizeT v = (2 ^ 64 + v).toNat := by
  rw [toSizeT, if_neg (by omega)]

variable (l : List AssetsDBRecord)

theorem filterMap_loadPage (skip count : Nat) :
    (loadPage (fun r => (entry r).isSome) (fun _ => true) skip count 0 0 l).filterMap entry =
      (((l.takeWhile fun r => (entry r).isSome).filterMap entry).drop skip).take count := by
  rw [loadPage_eq, List.filter_eq_self.mpr (fun _ _ => rfl), Nat.sub_zero, Nat.sub_zero]
  refine filterMap_take_drop (fun r hr => ?_) skip count
  exact List.all_eq_true.mp List.all_takeWhile r hr

theorem filterMap_filter_isSome :
    (l.filter fun r => (entry r).isSome).filterMap entry = l.filterMap entry := by
  rw [List.filterMap_filter]
  refine List.filterMap_congr fun r _ => ?_
  cases hr : entry r <;> rfl

theorem length_filter_isSome :
    (l.filter fun r => (entry r).isSome).length = (l.filterMap entry).length := by
  induction l with
  | nil => rfl
  | cons r l ih =>
    cases hr : entry r with
    | none => simpa [List.filterMap_cons, hr] using ih
    | some p => simpa [List.filterMap_cons, hr] using ih

/-- A listing of quantities is the slice that was asked for, except from the end: there it has to
find an entry at the first record of all. -/
theorem Listed.quantityDir_eq_slice_iff (h : db.Listed s entry) (count : Nat) (start : Int64) :
    db.quantityDir (s ++ writeString []) entry count start =
        slice start.toInt (min count maxDatabaseResults) (db.records.filterMap entry) ↔
      0 ≤ start.toInt ∨ db.records.filterMap entry = [] ∨ count = 0 ∨
        (0 ≤ (db.records.filterMap entry).length + start.toInt ∧ ∃ r, db.records.head? = some r ∧ (entry r).isSome = true) := by
  obtain ⟨hseek, hcount⟩ := h.seek
  have hmin := start.le_toInt
  simp only [quantityDir]
  by_cases hstart : 0 ≤ start.toInt
  · rw [if_pos hstart, filterMap_loadPage, hseek, filterMap_filter_isSome, slice, if_pos hstart, toSizeT, if_pos hstart]
    simp [hstart]
  · have hneg : start.toInt < 0 := by omega
    rw [if_neg hstart, filterMap_loadPage, hcount, length_filter_isSome]
    simp only [hstart, false_or]
    by_cases hfirst : ∃ r, db.records.head? = some r ∧ (entry r).isSome = true
    · obtain ⟨r, hhead, hentry⟩ := hfirst
      rw [h.records hhead hentry, filterMap_filter_isSome]
      by_cases hwithin : 0 ≤ ((db.records.filterMap entry).length : Int) + start.toInt
      · rw [toSizeT, if_pos hwithin, slice, if_neg hstart]
        simp [hwithin, hhead, hentry]
      · have hpast : (db.records.filterMap entry).length ≤ toSizeT ((db.records.filterMap entry).length + start.toInt) := by
          rw [toSizeT_of_neg (by omega)]
          omega
        rw [List.drop_eq_nil_of_le hpast, List.take_nil, eq_comm, slice_eq_nil_iff hneg]
        simp [hwithin, maxDatabaseResults]
    · have hnone : db.records.takeWhile (fun r => (entry r).isSome) = [] := by
        cases hrecords : db.records with
        | nil => rfl
        | cons first rest =>
          refine List.takeWhile_cons_of_neg fun hentry => hfirst ⟨first, ?_, hentry⟩
          rw [hrecords, List.head?_cons]
      rw [hnone, List.filterMap_nil, List.drop_nil, List.take_nil, eq_comm, slice_eq_nil_iff hneg]
      simp [hfirst, maxDatabaseResults]

end Quantities

/-- The records of one kind, listed by the first of the two texts in their keys. -/
theorem listed_first (make : Bytes → Bytes → Int → AssetsDBRecord) {flag : UInt8} {first : Bytes}
    {entry : AssetsDBRecord → Option (Bytes × Int)}
    (hmake : ∀ a b q, (make a b q).key = flag :: (writeString a ++ writeString b))
    (hreadable : ∀ a b q, (make a b q).Readable → a.length ≤ maxSize)
    (hflag : ∀ r : AssetsDBRecord, r.flag = flag → ∃ a b q, r = make a b q)
    (hentry : ∀ r, (entry r).isSome = true ↔ ∃ b q, r = make first b q) :
    db.Listed (flag :: writeString first) entry := by
  refine ⟨fun r _ hr => ?_, fun a ha b hb hr hinit => ?_⟩
  · obtain ⟨second, quantity, rfl⟩ := (hentry r).mp hr
    exact ⟨second, hmake _ _ _⟩
  · obtain ⟨second, quantity, rfl⟩ := (hentry b).mp hr
    obtain ⟨rest, hrest⟩ := hinit
    obtain ⟨x, hx⟩ := a.exists_key
    rw [List.cons_append] at hrest
    obtain ⟨name, other, amount, rfl⟩ := hflag a (List.cons.inj (hx.symm.trans hrest.symm)).1
    have heq := (List.cons.inj (hrest.trans (hmake name other amount))).2
    have hname := writeString_append_inj (hreadable _ _ _ (db.readable _ hb)) (hreadable _ _ _ (db.readable _ ha)) heq
    exact (hentry _).mpr ⟨other, amount, by rw [hname]⟩

theorem listed_address (address : Bytes) : db.Listed (addressAssetQuantityFlag :: writeString address) (ofAddress address) := by
  refine db.listed_first .addressAssetQuantity (fun _ _ _ => rfl) (fun _ _ _ h => h.1) ?_ ?_
  · intro r hr
    cases r with
    | addressAssetQuantity a b q => exact ⟨a, b, q, rfl⟩
    | _ => cases hr
  · intro r
    cases r <;> simp [ofAddress]

theorem listed_asset (assetName : Bytes) : db.Listed (assetAddressQuantityFlag :: writeString assetName) (ofAsset assetName) := by
  refine db.listed_first .assetAddressQuantity (fun _ _ _ => rfl) (fun _ _ _ h => h.1) ?_ ?_
  · intro r hr
    cases r with
    | assetAddressQuantity a b q => exact ⟨a, b, q, rfl⟩
    | _ => cases hr
  · intro r
    cases r <;> simp [ofAsset]

/-! ## Lists of assets -/

theorem takeWhile_isAsset : db.records.takeWhile isAsset = db.records.filter isAsset := by
  refine takeWhile_eq_filter (db.sorted.imp ?_)
  intro a b hlt hb
  obtain ⟨x, hx⟩ := a.exists_key
  obtain ⟨y, hy⟩ := b.exists_key
  rw [isAsset_iff] at hb ⊢
  rw [hx, hy, hb, List.cons_lt_cons_iff] at hlt
  rcases hlt with hlt | ⟨heq, -⟩
  · exact absurd hlt a.not_flag_lt
  · exact heq

theorem seek_assets : db.seek (assetFlag :: writeString []) = db.records := by
  have hnone : ∀ r ∈ db.records, ¬r.key < assetFlag :: writeString [] := by
    intro r _ hlt
    obtain ⟨x, hx⟩ := r.exists_key
    rw [hx, List.cons_lt_cons_iff] at hlt
    rcases hlt with hlt | ⟨hflag, hlt⟩
    · exact r.not_flag_lt hlt
    · cases r with
      | asset strName data =>
        have hrest : x = writeString strName := by simpa [key, flag] using hx.symm
        rw [hrest] at hlt
        exact not_writeString_lt strName hlt
      | _ => exact absurd (isAsset_iff.mpr hflag) (by simp [isAsset])
  rw [seek]
  cases hrecords : db.records with
  | nil => rfl
  | cons first rest =>
    rw [hrecords] at hnone
    exact List.dropWhile_cons_of_neg (by simpa using hnone first List.mem_cons_self)

def assetsMatching (filter : Bytes) : List CDatabasedAssetData :=
  (db.records.filter (matchesFilter filter)).filterMap assetValue

def holdings (address : Bytes) : List (Bytes × Int) := db.records.filterMap (ofAddress address)

def owners (assetName : Bytes) : List (Bytes × Int) := db.records.filterMap (ofAsset assetName)

/-- A listing of assets is the slice that was asked for, except from before the beginning. -/
theorem assetDir_eq_slice_iff (filter : Bytes) (count : Nat) (start : Int64) :
    db.assetDir filter count start = slice start.toInt count (db.assetsMatching filter) ↔ 0 ≤ start.toInt ∨
      db.assetsMatching filter = [] ∨ count = 0 ∨ 0 ≤ (db.assetsMatching filter).length + start.toInt := by
  have hvalue : ∀ r ∈ db.records.filter (matchesFilter filter), (assetValue r).isSome = true := by
    intro r hr
    have hmatch := (List.mem_filter.mp hr).2
    cases r with
    | asset => rfl
    | _ => cases hmatch
  have hlength : (db.assetsMatching filter).length = (db.records.filter (matchesFilter filter)).length := by
    rw [assetsMatching, List.length_filterMap_eq_countP, List.countP_eq_length]
    exact hvalue
  have hload : ∀ skip, (loadPage isAsset (matchesFilter filter) skip count 0 0 db.records).filterMap assetValue =
      ((db.assetsMatching filter).drop skip).take count := by
    intro skip
    have hboth : (db.records.filter isAsset).filter (matchesFilter filter) = db.records.filter (matchesFilter filter) := by
      rw [List.filter_filter]
      refine List.filter_congr fun r _ => ?_
      cases r <;> simp [isAsset, matchesFilter]
    rw [loadPage_eq, takeWhile_isAsset, hboth, Nat.sub_zero, Nat.sub_zero]
    exact filterMap_take_drop hvalue skip count
  have hmin := start.le_toInt
  simp only [assetDir, seek_assets]
  by_cases hstart : 0 ≤ start.toInt
  · rw [if_pos hstart, hload, slice, if_pos hstart, toSizeT, if_pos hstart]
    simp [hstart]
  · have hneg : start.toInt < 0 := by omega
    rw [if_neg hstart, hload, ← hlength]
    simp only [hstart, false_or]
    by_cases hwithin : 0 ≤ ((db.assetsMatching filter).length : Int) + start.toInt
    · rw [toSizeT, if_pos hwithin, slice, if_neg hstart]
      simp [hwithin]
    · have hpast : (db.assetsMatching filter).length ≤ toSizeT ((db.assetsMatching filter).length + start.toInt) := by
        rw [toSizeT_of_neg (by omega)]
        omega
      rw [List.drop_eq_nil_of_le hpast, List.take_nil, eq_comm, slice_eq_nil_iff hneg]
      simp [hwithin]

/-! ## All three -/

/-- When the three listings are the slices that were asked for. -/
theorem listings_are_slices_iff (filter address assetName : Bytes) (count : Nat) (start : Int64) :
    (db.assetDir filter count start = slice start.toInt count (db.assetsMatching filter) ↔
      0 ≤ start.toInt ∨ db.assetsMatching filter = [] ∨ count = 0 ∨
        0 ≤ (db.assetsMatching filter).length + start.toInt) ∧
    (db.addressDir address count start = slice start.toInt (min count maxDatabaseResults) (db.holdings address) ↔
      0 ≤ start.toInt ∨ db.holdings address = [] ∨ count = 0 ∨
        (0 ≤ (db.holdings address).length + start.toInt ∧
          ∃ r, db.records.head? = some r ∧ (ofAddress address r).isSome = true)) ∧
    (db.assetAddressDir assetName count start =
        slice start.toInt (min count maxDatabaseResults) (db.owners assetName) ↔
      0 ≤ start.toInt ∨ db.owners assetName = [] ∨ count = 0 ∨
        (0 ≤ (db.owners assetName).length + start.toInt ∧
          ∃ r, db.records.head? = some r ∧ (ofAsset assetName r).isSome = true)) :=
  ⟨db.assetDir_eq_slice_iff filter count start, (db.listed_address address).quantityDir_eq_slice_iff count start,
    (db.listed_asset assetName).quantityDir_eq_slice_iff count start⟩

def aliceDB : AssetsDB where
  records := [.asset (str "ABC") ⟨⟨str "ABC", 100, 0, 1, 0, []⟩, 1, 1⟩,
    .assetAddressQuantity (str "ABC") (str "alice") 100, .addressAssetQuantity (str "alice") (str "ABC") 100]
  sorted := by decide
  readable := by decide

/-- The last holding of an address is not found, nor the last owner of an asset. -/
theorem last_holding_missed :
    aliceDB.addressDir (str "alice") 10 (-1) = [] ∧ aliceDB.assetAddressDir (str "ABC") 10 (-1) = [] ∧
      slice (-1) (min 10 maxDatabaseResults) (aliceDB.holdings (str "alice")) = [(str "ABC", 100)] ∧
      slice (-1) (min 10 maxDatabaseResults) (aliceDB.owners (str "ABC")) = [(str "alice", 100)] := by
  decide

end AssetsDB

end HempCore
