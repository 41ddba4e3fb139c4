import HempCore.Analysis.MigrationText
import HempCore.Model.Snapshots

/-!
# Snapshots of different assets and heights

The key of a snapshot is its height followed by its name, and a name may begin with digits. Two
pairs share a key when the digits in front of one name complete the height of the other; apart from
that the databases answer for each pair with what was last stored for it.
-/

set_option autoImplicit false

namespace HempCore

open Lib

variable {cfg : Config}

/-! ## Keys -/

/-- Digits in front of one name complete the height of the other. -/
def Collide (p q : Bytes × Int) : Prop :=
  ∃ digits ≠ [], p.1 = digits ++ q.1 ∧ decimalInt q.2 = decimalInt p.2 ++ digits ∨
    q.1 = digits ++ p.1 ∧ decimalInt p.2 = decimalInt q.2 ++ digits

theorem decimalInt_inj {m n : Int} (hm : 0 < m) (hn : 0 < n) (h : decimalInt m = decimalInt n) : m = n := by
  rw [decimalInt, decimalInt, if_neg (by omega), if_neg (by omega)] at h
  have hvalue := congrArg digitsValue h
  rw [digitsValue_decimal, digitsValue_decimal] at hvalue
  omega

theorem snapshotKey_eq_iff {p q : Bytes × Int} (hp : 0 < p.2) (hq : 0 < q.2) :
    snapshotKey p.1 p.2 = snapshotKey q.1 q.2 ↔ p = q ∨ Collide p q := by
  rw [snapshotKey, snapshotKey, List.append_eq_append_iff]
  constructor
  · rintro (⟨digits, hheight, hname⟩ | ⟨digits, hheight, hname⟩)
    · by_cases hnil : digits = []
      · rw [hnil, List.append_nil] at hheight
        rw [hnil, List.nil_append] at hname
        exact .inl (Prod.ext hname (decimalInt_inj hp hq hheight.symm))
      · exact .inr ⟨digits, hnil, .inl ⟨hname, hheight⟩⟩
    · by_cases hnil : digits = []
      · rw [hnil, List.append_nil] at hheight
        rw [hnil, List.nil_append] at hname
        exact .inl (Prod.ext hname.symm (decimalInt_inj hp hq hheight))
      · exact .inr ⟨digits, hnil, .inr ⟨hname, hheight⟩⟩
  · rintro (rfl | ⟨digits, -, ⟨hname, hheight⟩ | ⟨hname, hheight⟩⟩)
    · exact .inl ⟨[], by simp, by simp⟩
    · exact .inl ⟨digits, hheight, hname⟩
    · exact .inr ⟨digits, hheight, hname⟩

theorem not_collide_of_not_digit {p q : Bytes × Int} (hp : ∀ b ∈ p.1.head?, isDigit b = false)
    (hq : ∀ b ∈ q.1.head?, isDigit b = false) (hpos : 0 < p.2) (hpos' : 0 < q.2) : ¬Collide p q := by
  have hdigit : ∀ {m : Int} {s t : Bytes} {b : UInt8}, 0 < m → decimalInt m = s ++ b :: t → isDigit b = true := by
    intro m s t b hm hdec
    rw [decimalInt, if_neg (by omega)] at hdec
    refine decimal_digit (n := m.natAbs) ?_
    rw [hdec]
    exact List.mem_append_right _ List.mem_cons_self
  rintro ⟨digits, hne, hcase⟩
  cases digits with
  | nil => exact hne rfl
  | cons b t =>
    rcases hcase with ⟨hname, hheight⟩ | ⟨hname, hheight⟩
    · have hb := hp b (by rw [hname]; rfl)
      rw [hdigit hpos' hheight] at hb
      cases hb
    · have hb := hq b (by rw [hname]; rfl)
      rw [hdigit hpos hheight] at hb
      cases hb

/-! ## What was last stored -/

namespace SnapshotDBs

def requestAfter (p : Bytes × Int) (last : Option CSnapshotRequestDBEntry) (c : Call) : Option CSnapshotRequestDBEntry :=
  if c.pair = p then
    match c with
    | .scheduleSnapshot assetName height => some (.make assetName height)
    | .removeSnapshotRequest _ _ => none
    | _ => last
  else last

/-- The request last made for a pair and not removed since. -/
def lastRequest (p : Bytes × Int) (calls : List Call) : Option CSnapshotRequestDBEntry :=
  calls.foldl (requestAfter p) none

/-- The snapshot for a pair after one more call; without owners none is taken. -/
def snapshotAfter (cfg : Config) (p : Bytes × Int) (last : Option CAssetSnapshotDBEntry) (c : Call) :
    Option CAssetSnapshotDBEntry :=
  if c.pair = p then
    match c with
    | .addAssetOwnershipSnapshot assets assetName height =>
      if (ownersAndAmounts cfg assets assetName).isEmpty then last
      else some (.make assetName height (ownersAndAmounts cfg assets assetName))
    | .removeOwnershipSnapshot _ _ => none
    | _ => last
  else last

/-- The snapshot last taken for a pair and not removed since. -/
def lastSnapshot (cfg : Config) (p : Bytes × Int) (calls : List Call) : Option CAssetSnapshotDBEntry :=
  calls.foldl (snapshotAfter cfg p) none

section Calls

variable {dbs : SnapshotDBs} {p : Bytes × Int} {c : Call}

section

variable (hpos : 0 < p.2) (hc : 0 < c.pair.2 ∧ ¬Collide c.pair p)
include hpos hc

theorem key_eq_iff :
    snapshotKey p.1 p.2 = snapshotKey c.pair.1 c.pair.2 ↔ c.pair = p := by
  rw [eq_comm, snapshotKey_eq_iff hc.1 hpos, or_iff_left hc.2]

theorem retrieveSnapshotRequest_perform :
    (dbs.perform cfg c).retrieveSnapshotRequest p.1 p.2 = requestAfter p (dbs.retrieveSnapshotRequest p.1 p.2) c := by
  have hkey := key_eq_iff hpos hc
  cases c with
  | scheduleSnapshot assetName height =>
    simp only [Call.pair] at hkey
    simp only [perform, scheduleSnapshot, retrieveSnapshotRequest, requestAfter, Call.pair,
      CSnapshotRequestDBEntry.make, getElem?_insert_eq, hkey]
    congr
  | removeSnapshotRequest assetName height =>
    simp only [Call.pair] at hkey
    simp only [perform, removeSnapshotRequest, retrieveSnapshotRequest, requestAfter, Call.pair, getElem?_erase_eq, hkey]
    congr
  | addAssetOwnershipSnapshot assets assetName height =>
    have hsame : ((dbs.addAssetOwnershipSnapshot cfg assets assetName height).getD dbs).requests = dbs.requests := by
      simp only [addAssetOwnershipSnapshot]
      split_ifs <;> rfl
    simp only [perform, retrieveSnapshotRequest, requestAfter, hsame, ite_self]
  | removeOwnershipSnapshot assetName height =>
    simp only [perform, removeOwnershipSnapshot, retrieveSnapshotRequest, requestAfter, ite_self]

theorem retrieveOwnershipSnapshot_perform :
    (dbs.perform cfg c).retrieveOwnershipSnapshot p.1 p.2 = snapshotAfter cfg p (dbs.retrieveOwnershipSnapshot p.1 p.2) c := by
  have hkey := key_eq_iff hpos hc
  cases c with
  | scheduleSnapshot assetName height =>
    simp only [perform, scheduleSnapshot, retrieveOwnershipSnapshot, snapshotAfter, ite_self]
  | removeSnapshotRequest assetName height =>
    simp only [perform, removeSnapshotRequest, retrieveOwnershipSnapshot, snapshotAfter, ite_self]
  | addAssetOwnershipSnapshot assets assetName height =>
    simp only [Call.pair] at hkey
    simp only [perform, retrieveOwnershipSnapshot, snapshotAfter, Call.pair]
    simp only [addAssetOwnershipSnapshot, CAssetSnapshotDBEntry.make]
    split_ifs with hnone hpair hpair
    · rfl
    · rfl
    · rw [Option.getD_some, getElem?_insert_eq, if_pos (hkey.mpr hpair)]
    · rw [Option.getD_some, getElem?_insert_eq, if_neg fun h => hpair (hkey.mp h)]
  | removeOwnershipSnapshot assetName height =>
    simp only [Call.pair] at hkey
    simp only [perform, removeOwnershipSnapshot, retrieveOwnershipSnapshot, snapshotAfter, Call.pair, getElem?_erase_eq, hkey]
    congr

end

end Calls

/-- The databases answer for a pair with what was last stored for it, as long as no call was about
a pair that collides with it. -/
theorem retrieve_eq_last (cfg : Config) (calls : List Call) (name : Bytes) (height : Int) (hpos : 0 < height)
    (hcalls : ∀ c ∈ calls, 0 < c.pair.2 ∧ ¬Collide c.pair (name, height)) :
    (after cfg calls).retrieveSnapshotRequest name height = lastRequest (name, height) calls ∧
      (after cfg calls).retrieveOwnershipSnapshot name height = lastSnapshot cfg (name, height) calls := by
  induction calls using List.reverseRecOn with
  | nil => exact ⟨by simp [after, empty, retrieveSnapshotRequest, lastRequest],
      by simp [after, empty, retrieveOwnershipSnapshot, lastSnapshot]⟩
  | append_singleton calls c ih =>
    obtain ⟨hrequest, hsnapshot⟩ := ih fun d hd => hcalls d (List.mem_append_left _ hd)
    have hc := hcalls c (by simp)
    have hlast : after cfg (calls ++ [c]) = (after cfg calls).perform cfg c := List.foldl_concat ..
    rw [hlast, lastRequest, lastSnapshot, List.foldl_concat, List.foldl_concat]
    constructor
    · rw [retrieveSnapshotRequest_perform (p := (name, height)) hpos hc, hrequest]
      rfl
    · rw [retrieveOwnershipSnapshot_perform (p := (name, height)) hpos hc, hsnapshot]
      rfl

def holderDB : AssetsDB where
  records := [.assetAddressQuantity (str "ABC") mainParams.strIssueAssetBurnAddress 100,
    .assetAddressQuantity (str "3ABC") mainParams.strIssueAssetBurnAddress 5]
  sorted := by decide
  readable := by decide

/-- A snapshot of `ABC` is requested, taken twice and its request removed. -/
def abcCalls : List Call :=
  [.scheduleSnapshot (str "ABC") 123, .addAssetOwnershipSnapshot holderDB (str "ABC") 123,
    .addAssetOwnershipSnapshot holderDB (str "ABC") 124, .removeSnapshotRequest (str "ABC") 123]

theorem abcCalls_retrieve :
    (after mainAll abcCalls).retrieveSnapshotRequest (str "ABC") 123 = none ∧
      (after mainAll abcCalls).retrieveOwnershipSnapshot (str "ABC") 123 =
        some (.make (str "ABC") 123 [(mainParams.strIssueAssetBurnAddress, 100)]) := by
  have hlast := retrieve_eq_last mainAll abcCalls (str "ABC") 123 (by decide) (by
    intro c hc
    have hc' : 0 < c.pair.2 ∧ ∀ b ∈ c.pair.1.head?, isDigit b = false := by
      revert c
      decide +kernel
    exact ⟨hc'.1, not_collide_of_not_digit hc'.2 (by decide +kernel) hc'.1 (by decide)⟩)
  rw [hlast.1, hlast.2]
  decide +kernel

def threeCalls : List Call :=
  [.scheduleSnapshot (str "3ABC") 12, .addAssetOwnershipSnapshot holderDB (str "3ABC") 12]

/-- Nothing was stored for `ABC` at height 123. -/
theorem other_snapshot_retrieved :
    isAssetNameValid (str "3ABC") = true ∧ isAssetNameValid (str "ABC") = true ∧
      lastRequest (str "ABC", 123) threeCalls = none ∧
      (after mainAll threeCalls).retrieveSnapshotRequest (str "ABC") 123 = some (.make (str "3ABC") 12) ∧
      lastSnapshot mainAll (str "ABC", 123) threeCalls = none ∧
      (after mainAll threeCalls).retrieveOwnershipSnapshot (str "ABC") 123 =
        some (.make (str "3ABC") 12 [(mainParams.strIssueAssetBurnAddress, 5)]) := by
  decide +kernel

end SnapshotDBs

end HempCore
