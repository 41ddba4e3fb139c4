import Mathlib.Tactic

/-!
# Byte readers

A reader consumes a prefix of a byte string and fails when the string is too short. Readers are
state transformers over `Option`, so `do` blocks sequence them and a failure anywhere fails the
whole read.
-/

set_option autoImplicit false

namespace HempCore.Lib

/-- A computation that reads from the front of a byte string. -/
abbrev Reader := StateT (List UInt8) Option

namespace Reader

def remaining : Reader Nat := fun s => some (s.length, s)

def takeBytes (n : Nat) : Reader (List UInt8) := fun s =>
  if s.length < n then none else some (s.take n, s.drop n)

/-- Refuses to go on unless the condition holds. -/
def ensure (c : Bool) : Reader Unit := fun s => if c then some ((), s) else none

def leValue : List UInt8 → Nat
  | [] => 0
  | b :: s => b.toNat + 256 * leValue s

def readLE (n : Nat) : Reader Nat := do
  let s ← takeBytes n
  pure (leValue s)

/-- The signed value of an `n`-byte two's-complement pattern. -/
def signed (n v : Nat) : Int := if v < 2 ^ (8 * n - 1) then v else (v : Int) - 2 ^ (8 * n)

def readSigned (n : Nat) : Reader Int := do
  let v ← readLE n
  pure (signed n v)

/-- The result of a reader, without what follows it. -/
def parse {α : Type} (r : Reader α) (s : List UInt8) : Option α := (r s).map Prod.fst

/-- A reader that goes on from where another one stopped. -/
theorem bind_eq {α β : Type} {r : Reader α} {s rest : List UInt8} {a : α} (h : r s = some (a, rest))
    (f : α → Reader β) : (r >>= f) s = f a rest := by
  change (r s).bind (fun p => f p.1 p.2) = f a rest
  rw [h]
  rfl

end Reader

end HempCore.Lib
