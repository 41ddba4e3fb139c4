import HempCore.Model.Coins

/-!
# The coins cache

`CCoinsViewCache` keeps coins in memory on top of another view, which may be a cache as well, and
says of each entry whether it differs from the view below (`DIRTY`) and whether the view below is
known to have no unspent coin there (`FRESH`). Memory accounting, the best block and `Uncache` are
left out. coins.cpp:50-95, 369-495
Lines without a file are those of `coins.cpp`.
-/

set_option autoImplicit false

namespace HempCore

/-- What `Coin()` makes and `Clear` leaves. coins.h:48-55 -/
def Coin.empty : Coin := ⟨⟨-1, []⟩, false, 0⟩

/-- coins.h:110-127 -/
structure CCoinsCacheEntry where
  coin : Coin
  dirty : Bool
  fresh : Bool
deriving DecidableEq

/-- coins.h:129 -/
abbrev CCoinsMap := Std.TreeMap COutPoint CCoinsCacheEntry

/-- A view with its two virtual functions. A read leaves a new state: caches are filled from
`const` functions. coins.h:152-185 -/
structure CCoinsView (σ : Type) where
  getCoin : σ → COutPoint → Option Coin × σ
  batchWrite : σ → CCoinsMap → Except String σ

/-- txdb.cpp:68-70, 91-145 -/
def CCoinsViewDB : CCoinsView Coins where
  getCoin db out := (db[out]?, db)
  batchWrite db mapCoins := .ok (mapCoins.foldl (fun db out entry =>
    if entry.dirty then if entry.coin.isSpent then db.erase out else db.insert out entry.coin
    else db) db)

/-- A cache and the state of the view below. coins.h:208-216 -/
structure CCoinsViewCache (σ : Type) where
  cacheCoins : CCoinsMap
  base : σ

namespace CCoinsViewCache

variable {σ : Type} (view : CCoinsView σ) (cache : CCoinsViewCache σ) (out : COutPoint)

/-- L50-65 -/
def fetchCoin : Option CCoinsCacheEntry × CCoinsViewCache σ :=
  match cache.cacheCoins[out]? with
  | some entry => (some entry, cache)
  | none =>
    match view.getCoin cache.base out with
    | (none, base) => (none, { cache with base := base })
    | (some tmp, base) =>
      let entry : CCoinsCacheEntry := ⟨tmp, false, tmp.isSpent⟩
      (some entry, ⟨cache.cacheCoins.insert out entry, base⟩)

/-- L67-74 -/
def getCoin : Option Coin × CCoinsViewCache σ :=
  match cache.fetchCoin view out with
  | (some entry, cache) => (if entry.coin.isSpent then none else some entry.coin, cache)
  | (none, cache) => (none, cache)

/-- The first failure is the assertion. L76-95 -/
def addCoin (coin : Coin) (possible_overwrite : Bool) : Except String (CCoinsViewCache σ) :=
  if coin.isSpent then .error "!coin.IsSpent()"
  else if isUnspendable coin.out.scriptPubKey then .ok cache
  else
    let entry := (cache.cacheCoins[out]?).getD ⟨.empty, false, false⟩
    if !possible_overwrite && !entry.coin.isSpent then
      .error "Adding new coin that replaces non-pruned entry"
    else
      let fresh := !possible_overwrite && !entry.dirty
      .ok { cache with cacheCoins := cache.cacheCoins.insert out ⟨coin, true, entry.fresh || fresh⟩ }

/-- The coin that `moveout` receives, `none` where the source returns `false`. There is no asset
cache. L369-401 -/
def spendCoin : Option Coin × CCoinsViewCache σ :=
  match cache.fetchCoin view out with
  | (none, cache) => (none, cache)
  | (some entry, cache) =>
    if entry.fresh then (some entry.coin, { cache with cacheCoins := cache.cacheCoins.erase out })
    else (some entry.coin,
      { cache with cacheCoins := cache.cacheCoins.insert out ⟨.empty, true, entry.fresh⟩ })

/-- L405-412 -/
def accessCoin : Coin × CCoinsViewCache σ :=
  match cache.fetchCoin view out with
  | (none, cache) => (.empty, cache)
  | (some entry, cache) => (entry.coin, cache)

/-- L414-417 -/
def haveCoin : Bool × CCoinsViewCache σ :=
  match cache.fetchCoin view out with
  | (none, cache) => (false, cache)
  | (some entry, cache) => (!entry.coin.isSpent, cache)

/-- One entry of the cache above. L436-481 -/
def writeEntry (cacheCoins : CCoinsMap) (out : COutPoint) (entry : CCoinsCacheEntry) :
    Except String CCoinsMap :=
  if entry.dirty then
    match cacheCoins[out]? with
    | none =>
      if entry.fresh && entry.coin.isSpent then .ok cacheCoins
      else .ok (cacheCoins.insert out ⟨entry.coin, true, entry.fresh⟩)
    | some us =>
      if entry.fresh && !us.coin.isSpent then
        .error "FRESH flag misapplied to cache entry for base transaction with spendable outputs"
      else if us.fresh && entry.coin.isSpent then .ok (cacheCoins.erase out)
      else .ok (cacheCoins.insert out ⟨entry.coin, true, us.fresh⟩)
  else .ok cacheCoins

/-- The source takes the entries in the order of a hash table; they have distinct keys. L434-488 -/
def batchWrite (mapCoins : CCoinsMap) : Except String (CCoinsViewCache σ) := do
  let cacheCoins ← mapCoins.toList.foldlM (fun cacheCoins p => writeEntry cacheCoins p.1 p.2)
    cache.cacheCoins
  .ok { cache with cacheCoins := cacheCoins }

/-- L490-495 -/
def flush : Except String (CCoinsViewCache σ) := do
  let base ← view.batchWrite cache.base cache.cacheCoins
  .ok ⟨∅, base⟩

/-- A cache is a view. -/
def asView : CCoinsView (CCoinsViewCache σ) := ⟨getCoin view, batchWrite⟩

end CCoinsViewCache

/-! ## Stacks of caches -/

/-- The state of a number of caches, each on the next, over a view. -/
def CoinsStack (σ : Type) : Nat → Type
  | 0 => σ
  | n + 1 => CCoinsViewCache (CoinsStack σ n)

/-- The calls on the topmost cache, and a flush of the cache at some depth below it. -/
inductive CoinsCall where
  | addCoin (out : COutPoint) (coin : Coin) (possible_overwrite : Bool)
  | spendCoin (out : COutPoint)
  | accessCoin (out : COutPoint)
  | haveCoin (out : COutPoint)
  | flush (depth : Nat)

namespace CoinsStack

variable {σ : Type} (view : CCoinsView σ)

/-- The caches as they are made. -/
def start (base : σ) : (n : Nat) → CoinsStack σ n
  | 0 => base
  | n + 1 => ⟨∅, start base n⟩

def asView : (n : Nat) → CCoinsView (CoinsStack σ n)
  | 0 => view
  | n + 1 => CCoinsViewCache.asView (asView n)

def flush : (n depth : Nat) → CoinsStack σ n → Except String (CoinsStack σ n)
  | 0, _, base => .ok base
  | n + 1, 0, cache => CCoinsViewCache.flush (asView view n) cache
  | n + 1, depth + 1, cache => do
    let base ← flush n depth cache.base
    .ok { cache with base := base }

def perform (n : Nat) (cache : CoinsStack σ (n + 1)) : CoinsCall → Except String (CoinsStack σ (n + 1))
  | .addCoin out coin possible_overwrite => CCoinsViewCache.addCoin cache out coin possible_overwrite
  | .spendCoin out => .ok (CCoinsViewCache.spendCoin (asView view n) cache out).2
  | .accessCoin out => .ok (CCoinsViewCache.accessCoin (asView view n) cache out).2
  | .haveCoin out => .ok (CCoinsViewCache.haveCoin (asView view n) cache out).2
  | .flush depth => flush view (n + 1) depth cache

end CoinsStack

/-- What a call does to a single map of the unspent coins. -/
def CoinsCall.apply (coins : CoinsView) : CoinsCall → CoinsView
  | .addCoin out coin _ =>
    if isUnspendable coin.out.scriptPubKey then coins else Function.update coins out (some coin)
  | .spendCoin out => Function.update coins out none
  | .accessCoin _ | .haveCoin _ | .flush _ => coins

end HempCore
