import HempCore.Model.AssetDirectory
import HempCore.Model.UniValue

/-!
# Ownership snapshots

The requests for snapshots and the snapshots taken, with the two databases that keep them under
keys made of a height and a name.
Lines without a file are those of `assets/assetsnapshotdb.cpp`.
-/

set_option autoImplicit false

namespace HempCore

open Std

variable (cfg : Config)

/-! ## Reading an address -/

/-- The bytes of a number, most significant first. -/
def bigEndian (n : Nat) : Bytes := (Nat.digits 256 n).reverse.map UInt8.ofNat

/-- The digits are gathered in a number here, in an array of bytes in the source.
base58.cpp:22-70 -/
def decodeBase58 (s : Bytes) : Option Bytes :=
  let psz := (s.takeWhile (· != 0)).dropWhile isSpace
  let zeroes := psz.takeWhile (· == byteAt pszBase58 0)
  let text := psz.drop zeroes.length
  let digits := text.takeWhile fun c => !isSpace c
  let trailing := (text.drop digits.length).dropWhile isSpace
  if digits.all pszBase58.contains && trailing.isEmpty then
    some (List.replicate zeroes.length 0 ++
      bigEndian (digits.foldl (fun n c => n * 58 + pszBase58.idxOf c) 0))
  else none

/-- base58.cpp:131-146 -/
def decodeBase58Check (s : Bytes) : Option Bytes := do
  let vch ← decodeBase58 s
  let data := vch.take (vch.length - 4)
  if vch.length < 4 ∨ (cfg.hash data).take 4 ≠ vch.drop (vch.length - 4) then none else some data

/-- base58.cpp:175-190, 254-274, 333-336 -/
def decodeDestination (s : Bytes) : CTxDestination :=
  match decodeBase58Check cfg s with
  | some (version :: data) =>
    if data.length ≠ 20 then .noDestination
    else if version = cfg.params.pubkeyAddress then .keyID data
    else if version = cfg.params.scriptAddress then .scriptID data
    else .noDestination
  | _ => .noDestination

/-- script/standard.cpp:402-404 -/
def isValidDestination (dest : CTxDestination) : Bool := dest != .noDestination

/-! ## Entries -/

/-- assets/snapshotrequestdb.h:17-54 -/
structure CSnapshotRequestDBEntry where
  assetName : Bytes
  heightForSnapshot : Int
  heightAndName : Bytes
deriving DecidableEq

/-- The owners stand in the order of the set. assets/assetsnapshotdb.h:13-54 -/
structure CAssetSnapshotDBEntry where
  height : Int
  assetName : Bytes
  ownersAndAmounts : List (Bytes × Int)
  heightAndName : Bytes
deriving DecidableEq

/-- The key of both databases. L32, assets/snapshotrequestdb.cpp:29 -/
def snapshotKey (assetName : Bytes) (height : Int) : Bytes := decimalInt height ++ assetName

/-- assets/snapshotrequestdb.cpp:20-30 -/
def CSnapshotRequestDBEntry.make (assetName : Bytes) (heightForSnapshot : Int) : CSnapshotRequestDBEntry :=
  ⟨assetName, heightForSnapshot, snapshotKey assetName heightForSnapshot⟩

/-- L19-33 -/
def CAssetSnapshotDBEntry.make (assetName : Bytes) (snapshotHeight : Int) (ownersAndAmounts : List (Bytes × Int)) :
    CAssetSnapshotDBEntry :=
  ⟨snapshotHeight, assetName, ownersAndAmounts, snapshotKey assetName snapshotHeight⟩

/-! ## The databases -/

/-- `pSnapshotRequestDb` and `pAssetSnapshotDb`, each with the one kind of record that these
functions read. -/
structure SnapshotDBs where
  requests : TreeMap Bytes CSnapshotRequestDBEntry
  snapshots : TreeMap Bytes CAssetSnapshotDBEntry

namespace SnapshotDBs

def empty : SnapshotDBs := ⟨∅, ∅⟩

variable (dbs : SnapshotDBs)

variable (assetName : Bytes)

/-- assets/snapshotrequestdb.cpp:37-56 -/
def scheduleSnapshot (heightForSnapshot : Int) : SnapshotDBs :=
  let snapshotRequest := CSnapshotRequestDBEntry.make assetName heightForSnapshot
  { dbs with requests := dbs.requests.insert snapshotRequest.heightAndName snapshotRequest }

/-- assets/snapshotrequestdb.cpp:58-77 -/
def retrieveSnapshotRequest (heightForSnapshot : Int) : Option CSnapshotRequestDBEntry :=
  dbs.requests[snapshotKey assetName heightForSnapshot]?

/-- assets/snapshotrequestdb.cpp:87-107 -/
def removeSnapshotRequest (heightForSnapshot : Int) : SnapshotDBs :=
  { dbs with requests := dbs.requests.erase (snapshotKey assetName heightForSnapshot) }

/-- How many owners are read at a time. L60 -/
def maxRetrievalCount : Nat := 100

/-- The owners with a valid address, read piece by piece. L50-90 -/
def ownersAndAmounts (assets : AssetsDB) (assetName : Bytes) : List (Bytes × Int) :=
  let totalEntryCount := assets.assetAddressTotal assetName
  let batches := (totalEntryCount + maxRetrievalCount - 1) / maxRetrievalCount
  let owners : TreeSet (Bytes × Int) := (List.range batches).foldl (fun owners i =>
    (assets.assetAddressDir assetName maxRetrievalCount (Int64.ofNat (i * maxRetrievalCount))).foldl
      (fun owners p =>
        if isValidDestination (decodeDestination cfg p.1) then owners.insert p else owners) owners) ∅
  owners.toList

/-- `none` when nothing is written. L38-110 -/
def addAssetOwnershipSnapshot (assets : AssetsDB) (assetName : Bytes) (height : Int) : Option SnapshotDBs :=
  let owners := ownersAndAmounts cfg assets assetName
  if owners.isEmpty then none
  else
    let snapshotEntry := CAssetSnapshotDBEntry.make assetName height owners
    some { dbs with snapshots := dbs.snapshots.insert snapshotEntry.heightAndName snapshotEntry }

/-- L112-131 -/
def retrieveOwnershipSnapshot (height : Int) : Option CAssetSnapshotDBEntry :=
  dbs.snapshots[snapshotKey assetName height]?

/-- L132-151 -/
def removeOwnershipSnapshot (height : Int) : SnapshotDBs :=
  { dbs with snapshots := dbs.snapshots.erase (snapshotKey assetName height) }

/-- A call of one of the four functions that write; a snapshot is taken of what the asset database
holds at that moment. -/
inductive Call where
  | scheduleSnapshot (assetName : Bytes) (height : Int)
  | removeSnapshotRequest (assetName : Bytes) (height : Int)
  | addAssetOwnershipSnapshot (assets : AssetsDB) (assetName : Bytes) (height : Int)
  | removeOwnershipSnapshot (assetName : Bytes) (height : Int)

/-- The name and the height a call is about. -/
def Call.pair : Call → Bytes × Int
  | .scheduleSnapshot assetName height => (assetName, height)
  | .removeSnapshotRequest assetName height => (assetName, height)
  | .addAssetOwnershipSnapshot _ assetName height => (assetName, height)
  | .removeOwnershipSnapshot assetName height => (assetName, height)

def perform : Call → SnapshotDBs
  | .scheduleSnapshot assetName height => dbs.scheduleSnapshot assetName height
  | .removeSnapshotRequest assetName height => dbs.removeSnapshotRequest assetName height
  | .addAssetOwnershipSnapshot assets assetName height =>
    (dbs.addAssetOwnershipSnapshot cfg assets assetName height).getD dbs
  | .removeOwnershipSnapshot assetName height => dbs.removeOwnershipSnapshot assetName height

/-- The databases after calls, from empty ones on. -/
def after (calls : List Call) : SnapshotDBs := calls.foldl (perform cfg) .empty

end SnapshotDBs

end HempCore
