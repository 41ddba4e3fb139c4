import HempCore.Lib.Cursor
import HempCore.Model.AssetsCache
import HempCore.Model.Construct

/-!
# The listings of the asset database

`CAssetsDB` keeps records of several kinds under one key space and lists them with a cursor.
Lines without a file are those of `assets/assetdb.cpp`.
-/

set_option autoImplicit false

namespace HempCore

open Lib (loadPage)

/-! ## Records and keys -/

/-- The records of `CAssetsDB`, each with its value. L15-20 -/
inductive AssetsDBRecord where
  | asset (strName : Bytes) (data : CDatabasedAssetData)
  | assetAddressQuantity (assetName address : Bytes) (quantity : Int)
  | addressAssetQuantity (address assetName : Bytes) (quantity : Int)
  | blockAssetUndoData (blockhash : Uint256) (assetUndoData : List (Bytes × CBlockAssetUndo))
  | mempoolReissuedTx (mapReissuedAssets : List (Bytes × Uint256))
deriving DecidableEq

namespace AssetsDBRecord

/-- `'A'` -/
def assetFlag : UInt8 := 65
/-- `'B'` -/
def assetAddressQuantityFlag : UInt8 := 66
/-- `'C'` -/
def addressAssetQuantityFlag : UInt8 := 67
/-- `'U'` -/
def blockAssetUndoFlag : UInt8 := 85
/-- `'Z'` -/
def mempoolReissuedFlag : UInt8 := 90

/-- The serialized key. L27-40, 85-106 -/
def key : AssetsDBRecord → Bytes
  | .asset strName _ => assetFlag :: writeString strName
  | .assetAddressQuantity assetName address _ =>
    assetAddressQuantityFlag :: (writeString assetName ++ writeString address)
  | .addressAssetQuantity address assetName _ =>
    addressAssetQuantityFlag :: (writeString address ++ writeString assetName)
  | .blockAssetUndoData blockhash _ => blockAssetUndoFlag :: writeLE 32 blockhash
  | .mempoolReissuedTx _ => [mempoolReissuedFlag]

/-- The strings of a key can be read back. serialize.h:283-284 -/
def Readable : AssetsDBRecord → Prop
  | .asset strName _ => strName.length ≤ maxSize
  | .assetAddressQuantity assetName address _ => assetName.length ≤ maxSize ∧ address.length ≤ maxSize
  | .addressAssetQuantity address assetName _ => address.length ≤ maxSize ∧ assetName.length ≤ maxSize
  | .blockAssetUndoData _ _ => True
  | .mempoolReissuedTx _ => True

instance : DecidablePred Readable
  | .asset _ _ => inferInstanceAs (Decidable (_ ≤ _))
  | .assetAddressQuantity _ _ _ => inferInstanceAs (Decidable (_ ∧ _))
  | .addressAssetQuantity _ _ _ => inferInstanceAs (Decidable (_ ∧ _))
  | .blockAssetUndoData _ _ => inferInstanceAs (Decidable True)
  | .mempoolReissuedTx _ => inferInstanceAs (Decidable True)

/-- `GetKey(key) && key.first == ASSET_FLAG` -/
def isAsset : AssetsDBRecord → Bool
  | .asset _ _ => true
  | _ => false

/-- The address and the quantity, for a record of that asset. -/
def ofAsset (assetName : Bytes) : AssetsDBRecord → Option (Bytes × Int)
  | .assetAddressQuantity name address quantity => if name = assetName then some (address, quantity) else none
  | _ => none

/-- The asset and the quantity, for a record of that address. -/
def ofAddress (address : Bytes) : AssetsDBRecord → Option (Bytes × Int)
  | .addressAssetQuantity addr assetName quantity => if addr = address then some (assetName, quantity) else none
  | _ => none

end AssetsDBRecord

/-- What the database holds, in the order its iterator visits the keys: byte by byte. -/
structure AssetsDB where
  records : List AssetsDBRecord
  sorted : records.Pairwise fun a b => a.key < b.key
  readable : ∀ r ∈ records, r.Readable

namespace AssetsDB

variable (db : AssetsDB)

/-- The records from the first key that is not below the given one. dbwrapper.h:138-144 -/
def seek (key : Bytes) : List AssetsDBRecord := db.records.dropWhile fun r => r.key < key

/-- A `long` stored in a `size_t`. -/
def toSizeT (v : Int) : Nat := if 0 ≤ v then v.toNat else (2 ^ 64 + v).toNat

/-- L22 -/
def maxDatabaseResults : Nat := 50000

/-! ## Assets -/

/-- The last character of an empty filter is none of the string's; in memory it is the top byte of
the string's length, which is no star. L183-186 -/
def filterPrefix (filter : Bytes) : Bytes × Bool :=
  if filter.getLast? = some 42 then (filter.dropLast, true) else (filter, false)

/-- L199-201, 221-223 -/
def matchesFilter (filter : Bytes) : AssetsDBRecord → Bool
  | .asset strName _ =>
    let (pre, wildcard) := filterPrefix filter
    pre == [] || (wildcard && pre.isPrefixOf strName) || (!wildcard && strName == pre)
  | _ => false

/-- `GetValue` of an asset record. -/
def assetValue : AssetsDBRecord → Option CDatabasedAssetData
  | .asset _ data => some data
  | _ => none

/-- L176-245 -/
def assetDir (filter : Bytes) (count : Nat) (start : Int64) : List CDatabasedAssetData :=
  let cursor := db.seek (AssetsDBRecord.assetFlag :: writeString [])
  let loaded :=
    if 0 ≤ start.toInt then
      loadPage AssetsDBRecord.isAsset (matchesFilter filter) (toSizeT start.toInt) count 0 0 cursor
    else
      let tableSize : Int := (cursor.filter (matchesFilter filter)).length
      loadPage AssetsDBRecord.isAsset (matchesFilter filter) (toSizeT (tableSize + start.toInt)) count 0 0 db.records
  loaded.filterMap assetValue

/-! ## Quantities -/

/-- The walk of both listings of quantities: from a key, over the records that `entry` reads.
L247-317, 320-389 -/
def quantityDir (key : Bytes) (entry : AssetsDBRecord → Option (Bytes × Int)) (count : Nat) (start : Int64) :
    List (Bytes × Int) :=
  let cursor := db.seek key
  let isEntry r := (entry r).isSome
  let count := min count maxDatabaseResults
  let loaded :=
    if 0 ≤ start.toInt then loadPage isEntry (fun _ => true) (toSizeT start.toInt) count 0 0 cursor
    else
      let tableSize : Int := (cursor.filter isEntry).length
      loadPage isEntry (fun _ => true) (toSizeT (tableSize + start.toInt)) count 0 0 db.records
  loaded.filterMap entry

/-- With `fGetTotal`. L254-266, 327-339 -/
def quantityTotal (key : Bytes) (entry : AssetsDBRecord → Option (Bytes × Int)) : Nat :=
  ((db.seek key).filter fun r => (entry r).isSome).length

/-- The key that the listing of an address starts from. -/
def addressKey (address : Bytes) : Bytes :=
  AssetsDBRecord.addressAssetQuantityFlag :: (writeString address ++ writeString [])

/-- The key that the listing of the owners of an asset starts from. -/
def assetKey (assetName : Bytes) : Bytes :=
  AssetsDBRecord.assetAddressQuantityFlag :: (writeString assetName ++ writeString [])

/-- L247-317 -/
def addressDir (address : Bytes) (count : Nat) (start : Int64) : List (Bytes × Int) :=
  db.quantityDir (addressKey address) (AssetsDBRecord.ofAddress address) count start

/-- L320-389 -/
def assetAddressDir (assetName : Bytes) (count : Nat) (start : Int64) : List (Bytes × Int) :=
  db.quantityDir (assetKey assetName) (AssetsDBRecord.ofAsset assetName) count start

/-- L320-339 -/
def assetAddressTotal (assetName : Bytes) : Nat :=
  db.quantityTotal (assetKey assetName) (AssetsDBRecord.ofAsset assetName)

end AssetsDB

end HempCore
