import HempCore.Model.MempoolAccept

/-!
# A node with its memory pool, from start to start

Everything that adds to the pool or takes from it, and what of it outlives the process: the reissues,
which are written with the chain state and read back at the next start.
-/

set_option autoImplicit false

namespace HempCore

open Std

namespace CTxMemPool

variable (pool : CTxMemPool)

/-- The reissues are globals and not the pool's own. txmempool.cpp:1018-1051 -/
def clear : CTxMemPool :=
  { CTxMemPool.empty with
    mapReissuedAssets := pool.mapReissuedAssets
    mapReissuedTx := pool.mapReissuedTx }

/-- Which transactions a reorganisation makes invalid is for the chain to say.
txmempool.cpp:790-825 -/
def removeForReorg (txToRemove : List Uint256) : CTxMemPool :=
  pool.removeWithDescendants (txToRemove.filter pool.existsTx)

/-- The pool of a new process; the names are read in order and a hash keeps its first.
assets/assetdb.cpp:106-117 -/
def readReissuedMempoolState (stored : TreeMap Bytes Uint256) : CTxMemPool :=
  { CTxMemPool.empty with
    mapReissuedAssets := stored
    mapReissuedTx := stored.toList.foldl (fun m pair => m.insertIfNew pair.2 pair.1) ∅ }

end CTxMemPool

/-- `stored` is the database entry of `WriteReissuedMempoolState`. -/
structure PoolSession where
  node : Node
  pool : CTxMemPool
  stored : TreeMap Bytes Uint256

namespace PoolSession

/-- What happens to a pool. The links that `UpdateTransactionsFromBlock` finds are left open, and so is
the chain a new process finds on disk. -/
inductive Event where
  | accept (args : AcceptArgs) (tx : CTransaction)
  | connect (block : CBlock)
  | removeRecursive (tx : CTransaction)
  | removeForReorg (txToRemove : List Uint256)
  | limitMempoolSize (args : AcceptArgs)
  | updateTransactionsFromBlock (mapLinks : TreeMap Uint256 TxLinks)
  | clear
  | flushStateToDisk
  | restart (node : Node)
  | other (action : Node.Action)

variable (cfg : Config) (s : PoolSession)

/-- `none` for what does not happen. The pool is the one after the call whether or not it accepts the
transaction. validation.cpp:451-487, 3041-3069, 3197-3246, 3326-3415 -/
def step : Event → Option PoolSession
  | .accept args tx =>
    some { s with pool := (s.pool.acceptToMemoryPoolWorker (s.node.config cfg) s.node args tx).1 }
  | .connect block =>
    ((⟨s.node, s.pool⟩ : PoolNode).connectTip cfg block).toOption.map fun t =>
      { s with node := t.node, pool := t.pool }
  | .removeRecursive tx => some { s with pool := s.pool.removeRecursive tx }
  | .removeForReorg txToRemove => some { s with pool := s.pool.removeForReorg txToRemove }
  | .limitMempoolSize args => some { s with pool := s.pool.limitMempoolSize args }
  | .updateTransactionsFromBlock mapLinks => some { s with pool := { s.pool with mapLinks := mapLinks } }
  | .clear => some { s with pool := s.pool.clear }
  | .flushStateToDisk =>
    (s.node.step cfg .dump).map fun node => { s with node := node, stored := s.pool.mapReissuedAssets }
  | .restart node => some { s with node := node, pool := .readReissuedMempoolState s.stored }
  | .other (.connect _) => none
  | .other .dump => none
  | .other action => (s.node.step cfg action).map fun node => { s with node := node }

def run (events : List Event) : Option PoolSession := events.foldlM (step cfg) s

end PoolSession

end HempCore
