import HempCore.Lib.KeyOrder

/-!
# Bytes, amounts, transactions and coins

The data every other module is about: byte strings (`std::string`, `CScript` and
`std::vector<unsigned char>` alike), amounts, outpoints, transactions and the coins they create.
A transaction carries its id as a stored field, as `CTransaction::hash` does; nothing here
computes a digest.
Lines without a file are those of `primitives/transaction.h`.
-/

set_option autoImplicit false

namespace HempCore

/-- Byte strings: `std::string`, `CScript` and `std::vector<unsigned char>`. -/
abbrev Bytes := List UInt8

/-- The bytes of a string literal. -/
def str (s : String) : Bytes := s.toList.map fun c => UInt8.ofNat c.toNat

/-- A byte of a script or a name, `0` past the end. The callers test the length first. -/
def byteAt (s : Bytes) (i : Nat) : UInt8 := s.getD i 0

/-! ## Amounts

`CAmount` is `int64_t` (amount.h:13). The sums that could leave that range are the subject of
theorems, so amounts are integers and the model adds without wrapping. -/

/-- amount.h:15 -/
def COIN : Int := 100000000

/-- amount.h:33 -/
def maxMoney : Int := 21000000000 * COIN

/-- amount.h:34 -/
def moneyRange (nValue : Int) : Bool := decide (0 ≤ nValue) && decide (nValue ≤ maxMoney)

theorem moneyRange_iff {v : Int} : moneyRange v = true ↔ 0 ≤ v ∧ v ≤ maxMoney := by
  simp [moneyRange]

/-! ## Transactions -/

/-- A 256-bit id; the model only compares them. -/
abbrev Uint256 := Nat

/-- L22-60 -/
structure COutPoint where
  hash : Uint256
  n : Nat
deriving DecidableEq, Repr

/-- The pair a `COutPoint` compares by. -/
def COutPoint.key (o : COutPoint) : Uint256 × Nat := (o.hash, o.n)

/-- `operator<` orders by hash, then by index. L41-45 -/
instance : Ord COutPoint := ⟨fun a b => compare a.key b.key⟩

instance : Std.TransOrd COutPoint := Lib.transOrd_of_key COutPoint.key fun _ _ => rfl

instance : Std.LawfulEqOrd COutPoint :=
  Lib.lawfulEqOrd_of_key COutPoint.key
    (fun a b h => by
      cases a
      cases b
      simpa [COutPoint.key] using h)
    fun _ _ => rfl

/-- L40 -/
def COutPoint.isNull (o : COutPoint) : Bool := o.hash == 0 && o.n == 2 ^ 32 - 1

/-- An input; the sequence number and the witness stack are read by no modelled function. -/
structure CTxIn where
  prevout : COutPoint
  scriptSig : Bytes
deriving DecidableEq, Repr

/-- L137-180 -/
structure CTxOut where
  nValue : Int
  scriptPubKey : Bytes
deriving DecidableEq, Repr

/-- L270-300 -/
structure CTransaction where
  vin : List CTxIn
  vout : List CTxOut
  hash : Uint256
deriving DecidableEq, Repr

namespace CTransaction

/-- L360 -/
def isCoinBase (tx : CTransaction) : Bool :=
  match tx.vin with
  | [txin] => txin.prevout.isNull
  | _ => false

end CTransaction

/-! ## Coins -/

/-- An unspent output with the height and kind of the transaction that made it.
coins.h:32-89 -/
structure Coin where
  out : CTxOut
  fCoinBase : Bool
  nHeight : Nat
deriving DecidableEq, Repr

/-- coins.h:78-80, primitives/transaction.h:164-167 -/
def Coin.isSpent (coin : Coin) : Bool := coin.out.nValue == -1

end HempCore
