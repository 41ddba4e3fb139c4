import HempCore.Lib.Check
import HempCore.Model.Pow

/-!
# Accepting headers

The block index and the checks a header passes before it is added to it. The hash functions are
parameters; what other parts of the node do to the validity of blocks and to the active chain is given
with each call.
Lines without a file are those of `validation.cpp`.
-/

set_option autoImplicit false

namespace HempCore

/-- The hashes of a header: the one before the activation of KAWPOW, the one made from the mix hash that
the header carries, and the full computation with the mix hash it produces. -/
structure HeaderHashes where
  hashX16 : CBlockHeader → Uint256
  kawpowOnlyMix : CBlockHeader → Uint256
  kawpow : CBlockHeader → Uint256 × Uint256

/-- Checkpoints are a map by height. chainparams.h:30-34 -/
structure HeaderConfig where
  params : PowParams
  hashes : HeaderHashes
  checkpoints : List (Nat × Uint256)
  checkpoints_sorted : checkpoints.Pairwise fun a b => a.1 < b.1
  hashGenesisBlock : Uint256

/-- `mapBlockIndex`. -/
abbrev BlockMap := Std.TreeMap Uint256 CBlockIndex

/-- What a call reads that is not decided by the headers: the clock, the arguments of the node, its peers,
its active chain, and what is known about the validity of blocks. -/
structure HeaderEnv where
  fCheckpointsEnabled : Bool
  nMaxReorgDepth : Int
  nMinReorgPeers : Int
  nMinReorgAge : Int
  nodeCount : Option Int
  time : Int
  nAdjustedTime : Int
  activeHeight : Int
  activeTipTime : Int
  areAssetsDeployed : Bool
  isFailed : CBlockIndex → Bool
  isValidScripts : CBlockIndex → Bool
  failedBlocks : List CBlockIndex

namespace HeaderConfig

variable (hc : HeaderConfig)

def isKawpow (block : CBlockHeader) : Bool := hc.params.nKAWPOWActivationTime ≤ block.nTime

/-- primitives/block.cpp:37-54 -/
def getHash (block : CBlockHeader) : Uint256 :=
  if hc.isKawpow block then hc.hashes.kawpowOnlyMix block else hc.hashes.hashX16 block

/-- Before the activation the mix hash is left null. primitives/block.cpp:56-73 -/
def getHashFull (block : CBlockHeader) : Uint256 × Uint256 :=
  if hc.isKawpow block then hc.hashes.kawpow block else (hc.hashes.hashX16 block, 0)

/-- checkpoints.cpp:19-31 -/
def getLastCheckpoint (index : BlockMap) : Option CBlockIndex :=
  hc.checkpoints.reverse.findSome? fun checkpoint => index[checkpoint.2]?

/-- L4030-4057 -/
def checkBlockHeader (index : BlockMap) (env : HeaderEnv) (block : CBlockHeader) : Except String Unit :=
  let cheap := env.fCheckpointsEnabled && hc.isKawpow block &&
    (hc.getLastCheckpoint index).any fun pcheckpoint => block.nHeight.toNat ≤ pcheckpoint.nHeight
  if cheap then
    if checkProofOfWork hc.params (hc.getHash block) block.nBits then .ok () else .error "high-hash"
  else if !checkProofOfWork hc.params (hc.getHashFull block).1 block.nBits then .error "high-hash"
  else if hc.isKawpow block ∧ (hc.getHashFull block).2 ≠ block.mix_hash then .error "invalid-mix-hash"
  else .ok ()

end HeaderConfig

/-- chain.h:22-23 -/
def maxFutureBlockTime : Int := 2 * 60 * 60
def maxFutureBlockTimeDGW : Int := maxFutureBlockTime / 10

/-- versionbits.h:17 -/
def versionbitsTopBitsAssets : Int := 0x30000000

/-- `%08x` of a 32-bit number. -/
def hex8 (n : Int) : String :=
  let digits := Nat.toDigits 16 (n % 2 ^ 32).toNat
  String.ofList (List.replicate (8 - digits.length) '0' ++ digits)

namespace HeaderConfig

variable (hc : HeaderConfig)

/-- A fork that starts too deep below the tip of a node that has peers and is caught up.
L4211-4230 -/
def forksTooDeep (env : HeaderEnv) (nHeight : Nat) : Bool :=
  env.nMaxReorgDepth ≤ env.activeHeight - (nHeight - 1) &&
    env.nodeCount.any fun nCurrentNodeCount =>
      env.nMinReorgPeers ≤ nCurrentNodeCount && env.time - env.activeTipTime ≤ env.nMinReorgAge

variable (index : BlockMap)

/-- L4205-4290 -/
def contextualCheckBlockHeader (env : HeaderEnv) (block : CBlockHeader)
    (pindexPrev : CBlockIndex) : Except String Unit :=
  let nHeight := pindexPrev.nHeight + 1
  if forksTooDeep env nHeight then .error "bad-fork-prior-to-maxreorgdepth"
  else if getNextWorkRequired hc.params pindexPrev block ≠ some block.nBits then .error "bad-diffbits"
  else if 0 ≤ hc.params.nHeightHeaderCheckActivation ∧ hc.params.nHeightHeaderCheckActivation ≤ nHeight ∧
      hc.isKawpow block ∧ block.nHeight.toNat ≠ nHeight then .error "bad-blk-height"
  else if env.fCheckpointsEnabled ∧
      (hc.getLastCheckpoint index).any (fun pcheckpoint => nHeight < pcheckpoint.nHeight) then
    .error "bad-fork-prior-to-checkpoint"
  else if block.getBlockTime ≤ pindexPrev.getMedianTimePast then .error "time-too-old"
  else if env.nAdjustedTime + (if isDGWActive hc.params nHeight then maxFutureBlockTimeDGW
      else maxFutureBlockTime) < block.getBlockTime then .error "time-too-new"
  else if env.areAssetsDeployed ∧ block.nVersion < versionbitsTopBitsAssets then
    .error ("bad-version(0x" ++ hex8 block.nVersion ++ ")")
  else .ok ()

/-- L3859-3891 -/
def addToBlockIndex (block : CBlockHeader) : BlockMap :=
  if index.contains (hc.getHash block) then index
  else
    index.insert (hc.getHash block)
      (match index[block.hashPrevBlock]? with
      | some pprev => .child block pprev
      | none => .genesis block)

/-- Some block before this one is known to be invalid. L4406-4418 -/
def hasFailedAncestor (env : HeaderEnv) (pindexPrev : CBlockIndex) : Bool :=
  !env.isValidScripts pindexPrev &&
    env.failedBlocks.any fun failedit => pindexPrev.getAncestor failedit.nHeight == some failedit

/-- L4372-4429 -/
def acceptBlockHeader (env : HeaderEnv) (block : CBlockHeader) : Except String BlockMap :=
  if hc.getHash block = hc.hashGenesisBlock then .ok (hc.addToBlockIndex index block)
  else
    match index[hc.getHash block]? with
    | some pindex => if env.isFailed pindex then .error "duplicate" else .ok index
    | none => do
      hc.checkBlockHeader index env block
      match index[block.hashPrevBlock]? with
      | none => .error "prev-blk-not-found"
      | some pindexPrev =>
        if env.isFailed pindexPrev then .error "bad-prevblk"
        else do
          hc.contextualCheckBlockHeader index env block pindexPrev
          if hasFailedAncestor env pindexPrev then .error "bad-prevblk"
          else .ok (hc.addToBlockIndex index block)

/-- A call, whether the header is accepted or not. -/
def receive (call : HeaderEnv × CBlockHeader) : BlockMap :=
  match hc.acceptBlockHeader index call.1 call.2 with
  | .ok index => index
  | .error _ => index

/-- The index of a node that starts with the genesis block. -/
def run (genesis : CBlockHeader) (calls : List (HeaderEnv × CBlockHeader)) : BlockMap :=
  calls.foldl hc.receive ((∅ : BlockMap).insert hc.hashGenesisBlock (.genesis genesis))

end HeaderConfig

end HempCore
