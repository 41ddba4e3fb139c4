import HempCore.Model.Basic
import HempCore.Lib.BitString

/-!
# Mnemonics

`CMnemonic::FromData` writes entropy and a few bits of its hash as words of a list, eleven bits a
word, and `CMnemonic::Check` reads them back. The hash is a parameter. A language is given by its
word list; the detection of the language is not part of the model. The counters of `Check` are
`uint32_t`, its buffer is a fixed one, and its argument is a string that the allocator could hold.
Lines without a file are those of `wallet/bip39.cpp`.
-/

set_option autoImplicit false

namespace HempCore

/-- The size of the arenas of locked memory. support/lockedpool.h:126 -/
def arenaSize : Nat := 256 * 1024

/-- A string in locked memory: the allocator refuses more than an arena holds, the terminator included.
support/allocators/secure.h:42-59, support/lockedpool.cpp:275-282 -/
structure SecureString where
  bytes : Bytes
  fits : bytes.length < arenaSize

/-- The entries of a `bip39_*.h` before the null pointer that ends it. -/
structure WordList where
  words : List Bytes
  length_words : words.length = 2048
  nodup : words.Nodup
  ne_nil : ∀ w ∈ words, w ≠ []
  no_space : ∀ w ∈ words, 32 ∉ w

/-- The eleven bits of word `i`. L76-80 -/
def wordIndexAt (bits : Bytes) (i : Nat) : Nat :=
  (List.range 11).foldl (fun idx j => idx * 2 + (Lib.bitAt bits (i * 11 + j)).toNat) 0

/-- L53-88 -/
def fromData (sha256 : Bytes → Vector UInt8 32) (wordlist : WordList) (data : Bytes) (len : Nat) :
    Bytes :=
  if len % 4 ≠ 0 ∨ len < 16 ∨ 32 < len then []
  else
    let checksum := sha256 (data.take len)
    let bits := data.take len ++ [checksum[0]]
    let mlen := len * 3 / 4
    (List.range mlen).foldl (fun mnemonic i =>
      let mnemonic := mnemonic ++ wordlist.words.getD (wordIndexAt bits i) []
      if i < mlen - 1 then mnemonic ++ [32] else mnemonic) []

/-- The bits `fromData` spells. -/
def entropyBits (sha256 : Bytes → Vector UInt8 32) (data : Bytes) : Bytes := data ++ [(sha256 data)[0]]

/-- How the reading of the words can stop: at one that is not in the list, or at a bit that is
outside of the buffer. -/
inductive CheckStop where
  | wordNotFound
  | outOfRange
deriving DecidableEq

structure CheckState where
  bits : Bytes
  nBitsCount : Nat

/-- L131-136 -/
def putBit (nWordIndex : Nat) (s : CheckState) (ki : Nat) : Except CheckStop CheckState :=
  let nBitsCount := (s.nBitsCount + 1) % 2 ^ 32
  if nWordIndex.testBit (10 - ki) then
    if s.nBitsCount / 8 < s.bits.length then .ok ⟨Lib.setBit s.bits s.nBitsCount, nBitsCount⟩
    else .error .outOfRange
  else .ok ⟨s.bits, nBitsCount⟩

/-- L125-140 -/
def checkWord (wordlist : WordList) (s : CheckState) (ssCurrentWord : Bytes) :
    Except CheckStop CheckState :=
  match wordlist.words.idxOf? ssCurrentWord with
  | none => .error .wordNotFound
  | some nWordIndex => (List.range 11).foldlM (putBit nWordIndex) s

/-- The loop over the string: a word ends before the next space, which is stepped over.
L119-141 -/
def checkWords (wordlist : WordList) (mnemonic : Bytes) (s : CheckState) :
    Except CheckStop CheckState :=
  if mnemonic = [] then .ok s
  else
    let ssCurrentWord := mnemonic.takeWhile (· != 32)
    checkWord wordlist s ssCurrentWord >>= fun s =>
      checkWords wordlist (mnemonic.drop (ssCurrentWord.length + 1)) s
termination_by mnemonic.length
decreasing_by
  have hpos : 0 < mnemonic.length := List.length_pos_iff.mpr ‹_›
  rw [List.length_drop]
  omega

/-- The comparison of the checksum: the hash lies at the start of the buffer, the bits read at its
end. L148-158 -/
def checksumAgrees (nWordCount : Nat) (bits : Bytes) : Bool :=
  if nWordCount = 12 then (byteAt bits 0 &&& 0xF0) == (byteAt bits 32 &&& 0xF0)
  else if nWordCount = 18 then (byteAt bits 0 &&& 0xFC) == (byteAt bits 32 &&& 0xFC)
  else if nWordCount = 24 then byteAt bits 0 == byteAt bits 32
  else false

/-- `none` when a bit was written outside of the buffer. L90-161 -/
def check (sha256 : Bytes → Vector UInt8 32) (wordlist : WordList) (mnemonic : SecureString) :
    Option Bool :=
  if mnemonic.bytes = [] then some false
  else
    let nWordCount := (mnemonic.bytes.count 32 + 1) % 2 ^ 32
    if nWordCount ≠ 12 ∧ nWordCount ≠ 18 ∧ nWordCount ≠ 24 then some false
    else
      match checkWords wordlist mnemonic.bytes ⟨List.replicate 33 0, 0⟩ with
      | .error .wordNotFound => some false
      | .error .outOfRange => none
      | .ok s =>
        if s.nBitsCount ≠ nWordCount * 11 then some false
        else
          let bits := s.bits.set 32 (byteAt s.bits (nWordCount * 4 / 3))
          let hash := sha256 (bits.take (nWordCount * 4 / 3))
          some (checksumAgrees nWordCount (hash.toList ++ bits.drop 32))

end HempCore
