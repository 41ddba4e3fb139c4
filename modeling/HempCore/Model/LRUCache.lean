import HempCore.Lib.LRUCache
import Mathlib.Tactic

/-!
# The cache in memory

`CLRUCache` keeps a doubly linked list of its items and an index of iterators into that list. An
iterator is the address of a node, so nodes have an identity here: `CacheMemory` holds the nodes of
all lists, and unlinking a node takes it out of whichever list it is in. A call that follows an
iterator to a node that was freed is undefined, and the model gives no result.
Lines without a file are those of `assets/assettypes.h`.
-/

set_option autoImplicit false

namespace HempCore

variable {ι K V : Type} [DecidableEq ι] [DecidableEq K]

/-- The items as addresses, front first, and the index. L650-652 -/
structure CLRUCache (K : Type) where
  cacheItemsList : List Nat
  cacheItemsMap : List (K × Nat)
  maxSize : Nat

/-- The nodes allocated, the addresses used so far, and the caches that live in this memory. -/
structure CacheMemory (ι K V : Type) where
  node : Nat → Option (K × V)
  used : Nat
  cache : ι → CLRUCache K

/-- L545-547 -/
def CLRUCache.ofSize (maxSize : Nat) : CLRUCache K := ⟨[], [], maxSize⟩

/-- `cacheItemsMap.find(key)` -/
def CLRUCache.find (c : CLRUCache K) (key : K) : Option Nat := c.cacheItemsMap.lookup key

/-- `cacheItemsMap.erase(key)` -/
def CLRUCache.eraseIndex (c : CLRUCache K) (key : K) : CLRUCache K :=
  { c with cacheItemsMap := c.cacheItemsMap.filter fun p => p.1 ≠ key }

/-- `cacheItemsMap[key] = it` -/
def CLRUCache.setIndex (c : CLRUCache K) (key : K) (it : Nat) : CLRUCache K :=
  { c with cacheItemsMap := (key, it) :: (c.eraseIndex key).cacheItemsMap }

namespace CacheMemory

def ofSizes (maxSize : ι → Nat) : CacheMemory ι K V :=
  ⟨fun _ => none, 0, fun i => .ofSize (maxSize i)⟩

def modify (m : CacheMemory ι K V) (i : ι) (f : CLRUCache K → CLRUCache K) : CacheMemory ι K V :=
  { m with cache := Function.update m.cache i (f (m.cache i)) }

/-! ## `std::list` -/

section

variable (m : CacheMemory ι K V)

/-- `push_front` of cache `i`: a new node. -/
def pushFront (i : ι) (item : K × V) : CacheMemory ι K V :=
  { (m.modify i fun c => { c with cacheItemsList := m.used :: c.cacheItemsList }) with
    node := Function.update m.node m.used (some item)
    used := m.used + 1 }

/-- Joins the neighbours of a node, whichever list they are in. -/
def unlink (n : Nat) : CacheMemory ι K V :=
  { m with cache := fun j =>
      { m.cache j with cacheItemsList := (m.cache j).cacheItemsList.erase n } }

/-- `list::erase(it)` -/
def eraseNode (n : Nat) : Option (CacheMemory ι K V) :=
  match m.node n with
  | some _ => some { m.unlink n with node := Function.update m.node n none }
  | none => none

/-- `splice(begin(), list, it)` of cache `i` -/
def spliceFront (i : ι) (n : Nat) : Option (CacheMemory ι K V) :=
  match m.node n with
  | some _ =>
    some ((m.unlink n).modify i fun c => { c with cacheItemsList := n :: c.cacheItemsList })
  | none => none

end

/-! ## The calls -/

section

variable (m : CacheMemory ι K V) (i : ι)

/-- What was found goes, with its node. L557-561, 575-580 -/
def drop (key : K) : Option Nat → Option (CacheMemory ι K V)
  | some it => do
    let m ← m.eraseNode it
    pure (m.modify i (·.eraseIndex key))
  | none => pure m

/-- The node at the back goes, and the entry of the key it holds. L566-569 -/
def evict : Option (CacheMemory ι K V) := do
  let last ← (m.cache i).cacheItemsList.getLast?
  let item ← m.node last
  (m.modify i (·.eraseIndex item.1)).eraseNode last

/-- L553-571 -/
def put (key : K) (value : V) : Option (CacheMemory ι K V) := do
  let it := (m.cache i).find key
  let m := m.pushFront i (key, value)
  let m ← m.drop i key it
  let first ← (m.cache i).cacheItemsList.head?
  let m := m.modify i (·.setIndex key first)
  if (m.cache i).maxSize < (m.cache i).cacheItemsMap.length then m.evict i else pure m

/-- L573-581 -/
def erase (key : K) : Option (CacheMemory ι K V) :=
  m.drop i key ((m.cache i).find key)

/-- A missing key makes it throw, which is the answer `none`. L583-595 -/
def get (key : K) : Option (CacheMemory ι K V × Option V) :=
  match (m.cache i).find key with
  | none => pure (m, none)
  | some n => do
    let m ← m.spliceFront i n
    let item ← m.node n
    pure (m, some item.2)

/-- L597-600 -/
def hasKey (key : K) : Bool := ((m.cache i).find key).isSome

/-- L602-605 -/
def size : Nat := (m.cache i).cacheItemsMap.length

/-- L608-612 -/
def clear : CacheMemory ι K V :=
  { (m.modify i fun c => { c with cacheItemsMap := [], cacheItemsList := [] }) with
    node := fun n => if n ∈ (m.cache i).cacheItemsList then none else m.node n }

/-- `GetItemsList` -/
def items : List (K × V) :=
  (m.cache i).cacheItemsList.filterMap m.node

end

end CacheMemory

inductive CacheCall (K V : Type) where
  | put (key : K) (value : V)
  | get (key : K)
  | erase (key : K)
  | hasKey (key : K)
  | clear
  | size

inductive CacheAnswer (V : Type) where
  | done
  | value (v : V)
  | thrown
  | found (b : Bool)
  | count (n : Nat)

/-- What `Get` gives: the value, or the exception. -/
def CacheAnswer.ofGet : Option V → CacheAnswer V
  | some v => .value v
  | none => .thrown

namespace CacheMemory

def call (m : CacheMemory ι K V) (i : ι) : CacheCall K V → Option (CacheMemory ι K V × CacheAnswer V)
  | .put key value => (m.put i key value).map fun m => (m, .done)
  | .get key => (m.get i key).map fun r => (r.1, .ofGet r.2)
  | .erase key => (m.erase i key).map fun m => (m, .done)
  | .hasKey key => some (m, .found (m.hasKey i key))
  | .clear => some (m.clear i, .done)
  | .size => some (m, .count (m.size i))

/-- The calls one after another, each on one of the caches, with their answers. -/
def run (m : CacheMemory ι K V) :
    List (ι × CacheCall K V) → Option (CacheMemory ι K V × List (CacheAnswer V))
  | [] => some (m, [])
  | (i, c) :: calls => do
    let (m, answer) ← m.call i c
    let (m, answers) ← m.run calls
    pure (m, answer :: answers)

end CacheMemory

/-! ## Copies -/

inductive CacheSide where
  | original
  | copy
deriving DecidableEq

def CacheSide.other : CacheSide → CacheSide
  | .original => .copy
  | .copy => .original

/-- The copy constructor: the list is copied node by node, the index entry by entry, so its
iterators still lead to the nodes of the original. L642-647 -/
def CacheMemory.copyCache (m : CacheMemory CacheSide K V) : CacheMemory CacheSide K V :=
  let c := m.cache .original
  { node := fun n => if n < m.used then m.node n else (m.items .original)[n - m.used]?
    used := m.used + (m.items .original).length
    cache := Function.update m.cache .copy
      { cacheItemsList := List.range' m.used (m.items .original).length
        cacheItemsMap := c.cacheItemsMap
        maxSize := c.maxSize } }

end HempCore
