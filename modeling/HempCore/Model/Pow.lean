import HempCore.Model.Basic

/-!
# Proof of work

The 256-bit numbers of `arith_uint256.cpp` with their compact form, the index of block headers and the
difficulty rules of `pow.cpp`. An assertion that fails is `none`.
Lines without a file are those of `pow.cpp`.
-/

set_option autoImplicit false

namespace HempCore

/-! ## Compact numbers -/

/-- arith_uint256.h:24-270 -/
abbrev ArithUint256 := BitVec 256

/-- What `SetCompact` leaves in the number and writes through its arguments. -/
structure CompactTarget where
  bnTarget : ArithUint256
  fNegative : Bool
  fOverflow : Bool
deriving DecidableEq, Repr

/-- arith_uint256.cpp:207-225 -/
def setCompact (nCompact : UInt32) : CompactTarget :=
  let nSize := (nCompact >>> 24).toNat
  let nWord :=
    if nSize ≤ 3 then (nCompact &&& 0x007fffff) >>> UInt32.ofNat (8 * (3 - nSize))
    else nCompact &&& 0x007fffff
  { bnTarget :=
      if nSize ≤ 3 then BitVec.ofNat 256 nWord.toNat
      else BitVec.ofNat 256 nWord.toNat <<< (8 * (nSize - 3))
    fNegative := nWord != 0 && nCompact &&& 0x00800000 != 0
    fOverflow := nWord != 0 && (34 < nSize || (0xff < nWord && 33 < nSize) || (0xffff < nWord && 32 < nSize)) }

namespace ArithUint256

section

variable (a : ArithUint256)

/-- arith_uint256.cpp:174-187 -/
def bits : Nat := if a.toNat = 0 then 0 else a.toNat.log2 + 1

/-- arith_uint256.h:252-256 -/
def getLow64 : UInt64 := UInt64.ofNat a.toNat

/-- No caller here asks for a negative number. The assertions on mantissa and size hold of every number.
arith_uint256.cpp:227-248 -/
def getCompact : UInt32 :=
  let nSize := (bits a + 7) / 8
  let nCompact :=
    if nSize ≤ 3 then (getLow64 a <<< UInt64.ofNat (8 * (3 - nSize))).toUInt32
    else (getLow64 (a >>> (8 * (nSize - 3)))).toUInt32
  if nCompact &&& 0x00800000 ≠ 0 then (nCompact >>> 8) ||| (UInt32.ofNat (nSize + 1) <<< 24)
  else nCompact ||| (UInt32.ofNat nSize <<< 24)

/-- `*= uint32_t`; the argument is narrowed. arith_uint256.cpp:58-68 -/
def mulUint32 (n : Int) : ArithUint256 := a * BitVec.ofNat 256 (n % 2 ^ 32).toNat

/-- `/ uint64_t`, for divisors that are not zero. arith_uint256.cpp:86-110 -/
def divUint64 (n : Int) : ArithUint256 := a / BitVec.ofNat 256 (n % 2 ^ 64).toNat

end

end ArithUint256

/-! ## Headers -/

/-- primitives/block.h:36-95 -/
structure CBlockHeader where
  nVersion : Int
  hashPrevBlock : Uint256
  hashMerkleRoot : Uint256
  nTime : UInt32
  nBits : UInt32
  nNonce : UInt32
  nHeight : UInt32
  nNonce64 : UInt64
  mix_hash : Uint256
deriving DecidableEq, Repr

/-- primitives/block.h:108-111 -/
def CBlockHeader.getBlockTime (block : CBlockHeader) : Int := block.nTime.toNat

/-- A block in the index, with the block its `pprev` points to. The header is kept as it was given.
chain.h:172-310 -/
inductive CBlockIndex where
  | genesis (header : CBlockHeader)
  | child (header : CBlockHeader) (pprev : CBlockIndex)
deriving DecidableEq, Repr

namespace CBlockIndex

def header : CBlockIndex → CBlockHeader
  | genesis header => header
  | child header _ => header

def pprev : CBlockIndex → Option CBlockIndex
  | genesis _ => none
  | child _ pprev => some pprev

/-- The genesis block declares height 0. validation.cpp:3875-3881 -/
def nHeight : CBlockIndex → Nat
  | genesis _ => 0
  | child _ pprev => pprev.nHeight + 1

/-- A block with the blocks before it. -/
def chain : CBlockIndex → List CBlockIndex
  | genesis header => [genesis header]
  | child header pprev => child header pprev :: pprev.chain

/-- chain.cpp:84-113 -/
def getAncestor (index : CBlockIndex) (height : Nat) : Option CBlockIndex :=
  index.chain.find? fun b => b.nHeight == height

/-- chain.h:326-340 -/
def getMedianTimePast (index : CBlockIndex) : Int :=
  let times := ((index.chain.take 11).map fun b => b.header.getBlockTime).insertionSort (· ≤ ·)
  times.getD (times.length / 2) 0

end CBlockIndex

/-! ## Difficulty -/

/-- consensus/params.h:71-88, chainparams.h, primitives/block.h:22 -/
structure PowParams where
  powLimit : ArithUint256
  kawpowLimit : ArithUint256
  fPowAllowMinDifficultyBlocks : Bool
  fPowNoRetargeting : Bool
  nPowTargetSpacing : Int
  nPowTargetTimespan : Int
  nDGWFixHeight : Int
  nHeightHeaderCheckActivation : Int
  nDGWActivationBlock : Nat
  nKAWPOWActivationTime : UInt32
deriving DecidableEq, Repr

/-- chainparams.cpp:121-132,260-276 -/
def mainPow : PowParams where
  powLimit := BitVec.ofNat 256 0x00000fffffffffffffffffffffffffffffffffffffffffffffffffffffffffff
  kawpowLimit := BitVec.ofNat 256 0x0000000000ffffffffffffffffffffffffffffffffffffffffffffffffffffff
  fPowAllowMinDifficultyBlocks := false
  fPowNoRetargeting := false
  nPowTargetSpacing := 5
  nPowTargetTimespan := 7 * 24 * 60 * 60
  nDGWFixHeight := 181
  nHeightHeaderCheckActivation := 3894000
  nDGWActivationBlock := 1
  nKAWPOWActivationTime := 1766126932

/-- chainparams.cpp:295-300,472-484 -/
def testPow : PowParams where
  powLimit := BitVec.ofNat 256 0x00000fffffffffffffffffffffffffffffffffffffffffffffffffffffffffff
  kawpowLimit := BitVec.ofNat 256 0x000000ffffffffffffffffffffffffffffffffffffffffffffffffffffffffff
  fPowAllowMinDifficultyBlocks := true
  fPowNoRetargeting := false
  nPowTargetSpacing := 5
  nPowTargetTimespan := 7 * 24 * 60 * 60
  nDGWFixHeight := 181
  nHeightHeaderCheckActivation := 0
  nDGWActivationBlock := 1
  nKAWPOWActivationTime := 1766126932

/-- chainparams.cpp:502-507,669-683 -/
def regtestPow : PowParams where
  powLimit := BitVec.ofNat 256 0x7fffffffffffffffffffffffffffffffffffffffffffffffffffffffffffffff
  kawpowLimit := BitVec.ofNat 256 0x7fffffffffffffffffffffffffffffffffffffffffffffffffffffffffffffff
  fPowAllowMinDifficultyBlocks := true
  fPowNoRetargeting := true
  nPowTargetSpacing := 5
  nPowTargetTimespan := 7 * 24 * 60 * 60
  nDGWFixHeight := 181
  nHeightHeaderCheckActivation := 0
  nDGWActivationBlock := 1
  nKAWPOWActivationTime := 1766126932

variable (params : PowParams)

namespace PowParams

def nPowLimitBits : UInt32 := params.powLimit.getCompact

/-- consensus/params.h:76 -/
def difficultyAdjustmentInterval : Int := params.nPowTargetTimespan / params.nPowTargetSpacing

/-- The last block, back to the start of the interval, that was not mined at the limit.
L57-63,137-140 -/
def lastOrdinary : CBlockIndex → CBlockIndex
  | .genesis header => .genesis header
  | .child header pprev =>
    if ((CBlockIndex.child header pprev).nHeight : Int) % params.difficultyAdjustmentInterval ≠ 0 ∧
        header.nBits = params.nPowLimitBits then lastOrdinary pprev
    else .child header pprev

end PowParams

/-- L28 -/
def nPastBlocks : Nat := 180

/-- L75-76 -/
def averageTargets (i : Nat) (bnPastTargetAvg bnTarget : ArithUint256) : ArithUint256 :=
  if i = 1 then bnTarget else ((bnPastTargetAvg.mulUint32 i) + bnTarget).divUint64 (i + 1)

/-- The variables of the loop over the past blocks. -/
structure PastBlocks where
  pindex : CBlockIndex
  bnPastTargetAvg : ArithUint256
  nKAWPOWBlocksFound : Nat

/-- Round `i` without the step to the next block. L72-78 -/
def pastRound (i : Nat) (st : PastBlocks) : PastBlocks :=
  { st with
    bnPastTargetAvg := averageTargets i st.bnPastTargetAvg (setCompact st.pindex.header.nBits).bnTarget
    nKAWPOWBlocksFound := st.nKAWPOWBlocksFound +
      if params.nKAWPOWActivationTime ≤ st.pindex.header.nTime then 1 else 0 }

/-- Round `i` and the rounds that are left. L71-84 -/
def pastLoop (i : Nat) (st : PastBlocks) : Nat → Option PastBlocks
  | 0 => some (pastRound params i st)
  | left + 1 =>
    match st.pindex.pprev with
    | none => none
    | some pprev => pastLoop (i + 1) { pastRound params i st with pindex := pprev } left

variable (pindexLast : CBlockIndex)

/-- L66-84 -/
def pastBlocks : Option PastBlocks :=
  pastLoop params 1 ⟨pindexLast, 0, 0⟩ (nPastBlocks - 1)

/-- L96 -/
def nTargetTimespan : Int := nPastBlocks * params.nPowTargetSpacing

/-- The time the past blocks took, within the bounds of a single step. L95-109 -/
def actualTimespan (pindex : CBlockIndex) : Int :=
  let nActualTimespan := pindexLast.header.getBlockTime - pindex.header.getBlockTime
  let nActualTimespan :=
    if params.nDGWFixHeight ≤ pindexLast.nHeight + 1 then
      let nActualTimespan := if nActualTimespan < 1 then 1 else nActualTimespan
      if nActualTimespan < params.nPowTargetSpacing then params.nPowTargetSpacing else nActualTimespan
    else nActualTimespan
  let nActualTimespan :=
    if nActualTimespan < nTargetTimespan params / 3 then nTargetTimespan params / 3 else nActualTimespan
  if nTargetTimespan params * 3 < nActualTimespan then nTargetTimespan params * 3 else nActualTimespan

/-- L111-112 -/
def scaledTarget (past : PastBlocks) : ArithUint256 :=
  (past.bnPastTargetAvg.mulUint32 (actualTimespan params pindexLast past.pindex)).divUint64
    (nTargetTimespan params)

/-- The limit is returned around the height of the repair and while there are too few blocks.
L38-47 -/
def returnsPowLimit : Bool :=
  (params.nDGWFixHeight ≤ pindexLast.nHeight + 1 &&
    ((pindexLast.nHeight : Int) + 1) < params.nDGWFixHeight + nPastBlocks) || pindexLast.nHeight < nPastBlocks

/-- L87-91 -/
def returnsKawpowLimit (past : PastBlocks) (pblock : CBlockHeader) : Bool :=
  params.nKAWPOWActivationTime ≤ pblock.nTime && past.nKAWPOWBlocksFound != nPastBlocks

/-- L19-117 -/
def darkGravityWave (pblock : CBlockHeader) : Option UInt32 :=
  if returnsPowLimit params pindexLast then some params.nPowLimitBits
  else if params.fPowAllowMinDifficultyBlocks && params.fPowNoRetargeting then
    if pindexLast.header.getBlockTime + params.nPowTargetSpacing * 2 < pblock.getBlockTime then
      some params.nPowLimitBits
    else some (params.lastOrdinary pindexLast).header.nBits
  else do
    let past ← pastBlocks params pindexLast
    if returnsKawpowLimit params past pblock then pure params.kawpowLimit.getCompact
    else
      let bnNew := scaledTarget params pindexLast past
      pure (if params.powLimit < bnNew then params.powLimit else bnNew).getCompact

/-- L172-195 -/
def calculateNextWorkRequired (nFirstBlockTime : Int) : UInt32 :=
  if params.fPowNoRetargeting then pindexLast.header.nBits
  else
    let nActualTimespan := pindexLast.header.getBlockTime - nFirstBlockTime
    let nActualTimespan :=
      if nActualTimespan < params.nPowTargetTimespan / 4 then params.nPowTargetTimespan / 4
      else nActualTimespan
    let nActualTimespan :=
      if params.nPowTargetTimespan * 4 < nActualTimespan then params.nPowTargetTimespan * 4
      else nActualTimespan
    let bnNew := ((setCompact pindexLast.header.nBits).bnTarget.mulUint32 nActualTimespan).divUint64
      params.nPowTargetTimespan
    (if params.powLimit < bnNew then params.powLimit else bnNew).getCompact

/-- L119-153 -/
def getNextWorkRequiredBTC (pblock : CBlockHeader) : Option UInt32 :=
  if ((pindexLast.nHeight : Int) + 1) % params.difficultyAdjustmentInterval ≠ 0 then
    if params.fPowAllowMinDifficultyBlocks then
      if pindexLast.header.getBlockTime + params.nPowTargetSpacing * 2 < pblock.getBlockTime then
        some params.nPowLimitBits
      else some (params.lastOrdinary pindexLast).header.nBits
    else some pindexLast.header.nBits
  else
    let nHeightFirst := (pindexLast.nHeight : Int) - (params.difficultyAdjustmentInterval - 1)
    if nHeightFirst < 0 then none
    else
      (pindexLast.getAncestor nHeightFirst.toNat).map fun pindexFirst =>
        calculateNextWorkRequired params pindexLast pindexFirst.header.getBlockTime

/-- validation.cpp:5932-5934 -/
def isDGWActive (nBlockNumber : Nat) : Bool := params.nDGWActivationBlock ≤ nBlockNumber

/-- L155-170 -/
def getNextWorkRequired (pblock : CBlockHeader) : Option UInt32 :=
  if isDGWActive params (pindexLast.nHeight + 1) then darkGravityWave params pindexLast pblock
  else getNextWorkRequiredBTC params pindexLast pblock

/-- L197-214 -/
def checkProofOfWork (hash : Uint256) (nBits : UInt32) : Bool :=
  let compact := setCompact nBits
  if compact.fNegative || compact.bnTarget == 0 || compact.fOverflow || params.powLimit < compact.bnTarget then
    false
  else if compact.bnTarget.toNat < hash then false
  else true

/-- chain.cpp:121-134 -/
def getBlockProof (block : CBlockIndex) : ArithUint256 :=
  let compact := setCompact block.header.nBits
  if compact.fNegative || compact.fOverflow || compact.bnTarget == 0 then 0
  else ~~~compact.bnTarget / (compact.bnTarget + 1) + 1

/-- validation.cpp:3883 -/
def CBlockIndex.nChainWork : CBlockIndex → ArithUint256
  | genesis header => getBlockProof (genesis header)
  | child header pprev => pprev.nChainWork + getBlockProof (child header pprev)

example : (mainPow.powLimit.getCompact, mainPow.kawpowLimit.getCompact) = (0x1e0fffff, 0x1c00ffff) := by
  decide +kernel

end HempCore
