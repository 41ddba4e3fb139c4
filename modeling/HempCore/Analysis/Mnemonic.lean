import HempCore.Model.Mnemonic
import HempCore.Lib.Check
import HempCore.Lib.Nesting
import HempCore.Lib.Search

/-!
# Mnemonics are checked as they are made

A mnemonic is a list of word numbers, and a list of word numbers is a stream of bits. `FromData`
cuts the stream of the entropy and its checksum into words; `Check` writes the stream of the words
into its buffer and compares. Both directions are read off from the streams.
-/

set_option autoImplicit false

namespace HempCore

open Lib

variable {sha256 : Bytes → Vector UInt8 32} {wordlist : WordList} {data : Bytes} {ks : List Nat}

/-! ## Words and their numbers -/

namespace WordList

def word (wordlist : WordList) (k : Nat) : Bytes := wordlist.words.getD k []

variable {k : Nat}

theorem word_eq_getElem (hk : k < wordlist.words.length) : wordlist.word k = wordlist.words[k] := by
  rw [word, List.getD_eq_getElem?_getD, List.getElem?_eq_getElem hk, Option.getD_some]

theorem word_mem (hk : k < 2048) : wordlist.word k ∈ wordlist.words := by
  have hlt : k < wordlist.words.length := by rwa [wordlist.length_words]
  rw [word_eq_getElem hlt]
  exact List.getElem_mem hlt

theorem idxOf?_word (hk : k < 2048) : wordlist.words.idxOf? (wordlist.word k) = some k := by
  have hlt : k < wordlist.words.length := by rwa [wordlist.length_words]
  rw [word_eq_getElem hlt, List.idxOf?_eq_some_iff]
  refine ⟨hlt, rfl, ?_⟩
  intro j hj heq
  have hjk := (List.Nodup.getElem_inj_iff wordlist.nodup).mp heq
  omega

theorem of_idxOf?_eq_some {w : Bytes} (h : wordlist.words.idxOf? w = some k) : k < 2048 ∧ w = wordlist.word k := by
  rw [List.idxOf?_eq_some_iff] at h
  obtain ⟨hlt, heq, -⟩ := h
  refine ⟨by rwa [wordlist.length_words] at hlt, ?_⟩
  rw [word_eq_getElem hlt, heq]

end WordList

def WordNumbers (ks : List Nat) : Prop := ∀ k ∈ ks, k < 2048

/-- The text with the words of a list of numbers. -/
def phrase (wordlist : WordList) (ks : List Nat) : Bytes := [32].intercalate (ks.map wordlist.word)

theorem WordNumbers.pieces_phrase (hks : WordNumbers ks) (hne : ks ≠ []) :
    pieces 32 (phrase wordlist ks) = ks.map wordlist.word := by
  apply pieces_intercalate
  · simpa using hne
  · intro w hw
    obtain ⟨k, hk, rfl⟩ := List.mem_map.mp hw
    have hmem : wordlist.word k ∈ wordlist.words := WordList.word_mem (hks k hk)
    exact ⟨wordlist.no_space _ hmem, wordlist.ne_nil _ hmem⟩

theorem WordNumbers.count_phrase (hks : WordNumbers ks) (hne : ks ≠ []) : (phrase wordlist ks).count 32 + 1 = ks.length := by
  rw [← length_splitOn, phrase, List.splitOn_intercalate, List.length_map]
  · intro w hw
    obtain ⟨k, hk, rfl⟩ := List.mem_map.mp hw
    exact wordlist.no_space _ (WordList.word_mem (hks k hk))
  · simpa using hne

theorem WordNumbers.phrase_inj {ks' : List Nat} (hks : WordNumbers ks) (hks' : WordNumbers ks')
    (hne : ks ≠ []) (hne' : ks' ≠ []) (h : phrase wordlist ks = phrase wordlist ks') : ks = ks' := by
  have hmap : ks.map wordlist.word = ks'.map wordlist.word := by
    rw [← hks.pieces_phrase hne, h, hks'.pieces_phrase hne']
  have hnumber : ∀ {l : List Nat}, WordNumbers l → (l.map wordlist.word).map (wordlist.words.idxOf? ·) = l.map some := by
    intro l hl
    rw [List.map_map]
    exact List.map_congr_left fun k hk => WordList.idxOf?_word (hl k hk)
  apply List.map_injective_iff.mpr (Option.some_injective Nat)
  rw [← hnumber hks, hmap, hnumber hks']

/-! ## The stream of the words -/

/-- The bits of the numbers, eleven of each. -/
def streamOf (ks : List Nat) (n : Nat) : Bool := (ks.getD (n / 11) 0).testBit (10 - n % 11)

section

variable (sha256 : Bytes → Vector UInt8 32) (data : Bytes)

def wordNumbers : List Nat :=
  (List.range (data.length * 3 / 4)).map (wordIndexAt (entropyBits sha256 data))

theorem wordNumbers_valid : WordNumbers (wordNumbers sha256 data) := by
  intro k hk
  obtain ⟨i, -, rfl⟩ := List.mem_map.mp hk
  exact spell_lt _ 11

theorem length_wordNumbers :
    (wordNumbers sha256 data).length = data.length * 3 / 4 := by
  rw [wordNumbers, List.length_map, List.length_range]

/-- The words spell the entropy and its checksum. -/
def Spells (ks : List Nat) : Prop :=
  ∀ n < 11 * ks.length, bitAt (entropyBits sha256 data) n = streamOf ks n

end

theorem spells_iff (hks : WordNumbers ks) (hlength : ks.length = data.length * 3 / 4) :
    Spells sha256 data ks ↔ ks = wordNumbers sha256 data := by
  constructor
  · intro h
    apply List.ext_getElem (by rw [hlength, length_wordNumbers])
    intro i hi hi'
    simp only [wordNumbers, List.getElem_map, List.getElem_range]
    symm
    apply spell_eq _ (hks _ (List.getElem_mem hi))
    intro j hj
    rw [h _ (by omega), streamOf]
    have hdiv : (i * 11 + j) / 11 = i := by omega
    have hmod : (i * 11 + j) % 11 = j := by omega
    rw [hdiv, hmod, List.getD_eq_getElem?_getD, List.getElem?_eq_getElem hi, Option.getD_some]
  · rintro rfl n hn
    have hi : n / 11 < (wordNumbers sha256 data).length := by omega
    have hbit := testBit_spell (fun j => bitAt (entropyBits sha256 data) (n / 11 * 11 + j)) (Nat.mod_lt n (by norm_num : 11 > 0))
    rw [streamOf, List.getD_eq_getElem?_getD, List.getElem?_eq_getElem hi, Option.getD_some]
    simp only [wordNumbers, List.getElem_map, List.getElem_range]
    rw [Nat.div_add_mod'] at hbit
    exact hbit.symm

/-! ## `FromData` -/

theorem foldl_words (f : Nat → Bytes) (n : Nat) : (List.range n).foldl (fun mnemonic i =>
      let mnemonic := mnemonic ++ f i
      if i < n - 1 then mnemonic ++ [32] else mnemonic) [] =
      [32].intercalate ((List.range n).map f) := by
  have hloop : ∀ k, k ≤ n - 1 → (List.range k).foldl (fun mnemonic i =>
        let mnemonic := mnemonic ++ f i
        if i < n - 1 then mnemonic ++ [32] else mnemonic) [] =
        ((List.range k).map f).flatMap (· ++ [32]) := by
    intro k hk
    induction k with
    | zero => rfl
    | succ k ih =>
      rw [List.range_succ, List.foldl_append, ih (by omega)]
      simp [show k < n - 1 by omega]
  cases n with
  | zero => rfl
  | succ n =>
    rw [List.range_succ, List.foldl_append, hloop n le_rfl, List.map_append, List.map_singleton, Nesting.intercalate_concat]
    simp

/-- Lengths of entropy that `FromData` takes. -/
def EntropyLength (len : Nat) : Prop := len % 4 = 0 ∧ 16 ≤ len ∧ len ≤ 32
deriving Decidable

theorem fromData_eq (hlen : EntropyLength data.length) :
    fromData sha256 wordlist data data.length = phrase wordlist (wordNumbers sha256 data) := by
  obtain ⟨hmod, hmin, hmax⟩ := hlen
  rw [fromData, if_neg (by omega), List.take_length]
  dsimp only
  rw [foldl_words fun i => wordlist.words.getD (wordIndexAt (data ++ [(sha256 data)[0]]) i) []]
  rw [phrase, wordNumbers, List.map_map]
  rfl

theorem wordNumbers_ne_nil (hlen : EntropyLength data.length) : wordNumbers sha256 data ≠ [] := by
  obtain ⟨hmod, hmin, hmax⟩ := hlen
  apply List.ne_nil_of_length_pos
  rw [length_wordNumbers]
  omega

theorem entropy_eq_of_wordNumbers {data' : Bytes} (hlen : data.length % 4 = 0) (hlength : data.length = data'.length)
    (h : wordNumbers sha256 data = wordNumbers sha256 data') : data = data' := by
  have hspells := (spells_iff (wordNumbers_valid sha256 data) (length_wordNumbers ..)).mpr rfl
  have hspells' := (spells_iff (wordNumbers_valid sha256 data') (length_wordNumbers ..)).mpr rfl
  apply eq_of_bitAt hlength
  intro n hn
  have hlt : n < 11 * (wordNumbers sha256 data).length := by
    rw [length_wordNumbers]
    omega
  calc bitAt data n
      = bitAt (entropyBits sha256 data) n := (bitAt_append_left hn).symm
    _ = streamOf (wordNumbers sha256 data) n := hspells n hlt
    _ = bitAt (entropyBits sha256 data') n := by
        rw [h] at hlt ⊢
        exact (hspells' n hlt).symm
    _ = bitAt data' n := bitAt_append_left (by rwa [← hlength])

/-! ## The buffer of `Check` -/

/-- The buffer holds the first `c` bits of a stream. -/
structure Written (b : Nat → Bool) (c : Nat) (s : CheckState) : Prop where
  length : s.bits.length = 33
  count : s.nBitsCount = c
  bit : ∀ n, bitAt s.bits n = (decide (n < c) && b n)

variable {b : Nat → Bool} {c : Nat} {s : CheckState}

theorem written_initial (b : Nat → Bool) : Written b 0 ⟨List.replicate 33 0, 0⟩ where
  length := List.length_replicate
  count := rfl
  bit n := by rw [bitAt_replicate_zero, decide_eq_false n.not_lt_zero, Bool.false_and]

theorem Written.putBit {k ki : Nat} (hw : Written b c s) (hc : c < 264)
    (hbit : b c = k.testBit (10 - ki)) : ∃ s', putBit k s ki = .ok s' ∧ Written b (c + 1) s' := by
  have hcount : (s.nBitsCount + 1) % 2 ^ 32 = c + 1 := by
    rw [hw.count]
    omega
  have hroom : s.nBitsCount / 8 < s.bits.length := by
    rw [hw.count, hw.length]
    omega
  unfold HempCore.putBit
  rw [hcount]
  by_cases hset : k.testBit (10 - ki) = true
  · rw [if_pos hset, if_pos hroom]
    refine ⟨_, rfl, ?_, rfl, ?_⟩
    · rw [length_setBit, hw.length]
    · intro n
      rw [bitAt_setBit hroom, hw.bit, hw.count]
      rcases lt_trichotomy n c with hlt | rfl | hgt
      · simp [hlt, show n < c + 1 by omega, show c ≠ n by omega]
      · simp [hbit, hset]
      · simp [show ¬n < c by omega, show ¬n < c + 1 by omega, show c ≠ n by omega]
  · rw [if_neg hset]
    refine ⟨_, rfl, hw.length, rfl, ?_⟩
    intro n
    rw [hw.bit]
    rcases lt_trichotomy n c with hlt | rfl | hgt
    · simp [hlt, show n < c + 1 by omega]
    · simp [hbit, hset]
    · simp [show ¬n < c by omega, show ¬n < c + 1 by omega]

theorem Written.putBits {k : Nat} (hw : Written b c s) (m : Nat) (hc : c + m ≤ 264)
    (hbit : ∀ j < m, b (c + j) = k.testBit (10 - j)) :
    ∃ s', (List.range m).foldlM (HempCore.putBit k) s = .ok s' ∧ Written b (c + m) s' := by
  induction m with
  | zero => exact ⟨s, rfl, hw⟩
  | succ m ih =>
    obtain ⟨t, ht, hwt⟩ := ih (by omega) fun j hj => hbit j (by omega)
    obtain ⟨s', hs', hws'⟩ := hwt.putBit (by omega) (hbit m (by omega))
    refine ⟨s', ?_, hws'⟩
    rw [List.range_succ, List.foldlM_append, ht]
    show List.foldlM (HempCore.putBit k) t [m] = _
    rw [List.foldlM_cons, hs']
    rfl

theorem Written.checkWords (wordlist : WordList) (ks : List Nat) :
    ∀ (c : Nat) (s : CheckState), Written b c s → WordNumbers ks → c + 11 * ks.length ≤ 264 →
      (∀ n < 11 * ks.length, b (c + n) = streamOf ks n) →
      ∃ s', (ks.map wordlist.word).foldlM (checkWord wordlist) s = .ok s' ∧ Written b (c + 11 * ks.length) s' := by
  induction ks with
  | nil =>
    intro c s hw _ _ _
    exact ⟨s, rfl, hw⟩
  | cons k ks ih =>
    intro c s hw hks hroom hstream
    rw [List.length_cons] at hroom hstream
    have hfirst : ∀ j < 11, b (c + j) = k.testBit (10 - j) := by
      intro j hj
      rw [hstream j (by omega), streamOf, Nat.div_eq_of_lt hj, Nat.mod_eq_of_lt hj]
      rfl
    obtain ⟨t, ht, hwt⟩ := hw.putBits 11 (by omega) hfirst
    have hrest : ∀ n < 11 * ks.length, b (c + 11 + n) = streamOf ks n := by
      intro n hn
      have hn' := hstream (11 + n) (by omega)
      have hdiv : (11 + n) / 11 = n / 11 + 1 := by omega
      have hmod : (11 + n) % 11 = n % 11 := by omega
      rw [← add_assoc, streamOf, hdiv, hmod, List.getD_cons_succ] at hn'
      exact hn'
    obtain ⟨s', hs', hws'⟩ := ih (c + 11) t hwt (fun k' hk' => hks k' (List.mem_cons_of_mem k hk')) (by omega) hrest
    refine ⟨s', ?_, ?_⟩
    · rw [List.map_cons, List.foldlM_cons, checkWord, WordList.idxOf?_word (hks k List.mem_cons_self)]
      show (List.range 11).foldlM (HempCore.putBit k) s >>= _ = _
      rw [ht]
      exact hs'
    · rw [List.length_cons]
      have hsum : c + 11 + 11 * ks.length = c + 11 * (ks.length + 1) := by omega
      rwa [hsum] at hws'

theorem checkWords_eq_foldlM (wordlist : WordList) (mnemonic : Bytes) (s : CheckState) :
    checkWords wordlist mnemonic s = (pieces 32 mnemonic).foldlM (checkWord wordlist) s := by
  induction hn : mnemonic.length using Nat.strong_induction_on generalizing mnemonic s with
  | _ n ih =>
    rw [checkWords]
    by_cases hnil : mnemonic = []
    · rw [if_pos hnil, hnil, pieces_nil]
      rfl
    · have hpos : 0 < mnemonic.length := List.length_pos_iff.mpr hnil
      rw [if_neg hnil, pieces_of_ne_nil 32 hnil, List.foldlM_cons]
      dsimp only
      congr 1
      funext t
      exact ih _ (by rw [List.length_drop]; omega) _ t rfl

theorem exists_wordNumbers {ws : List Bytes} {s' : CheckState} (h : ws.foldlM (checkWord wordlist) s = .ok s') :
    ∃ ks, WordNumbers ks ∧ ws = ks.map wordlist.word := by
  induction ws generalizing s with
  | nil => exact ⟨[], fun k hk => absurd hk List.not_mem_nil, rfl⟩
  | cons w ws ih =>
    rw [List.foldlM_cons, bind_eq_ok] at h
    obtain ⟨t, ht, hrest⟩ := h
    obtain ⟨ks, hks, rfl⟩ := ih hrest
    unfold checkWord at ht
    cases hk : wordlist.words.idxOf? w with
    | none =>
      rw [hk] at ht
      cases ht
    | some k =>
      obtain ⟨hlt, rfl⟩ := WordList.of_idxOf?_eq_some hk
      exact ⟨k :: ks, by simpa [WordNumbers] using ⟨hlt, hks⟩, rfl⟩

/-! ## The checksum -/

def CheckedLength (n : Nat) : Prop := n = 12 ∨ n = 18 ∨ n = 24
deriving Decidable

theorem checksumAgrees_iff {n : Nat} (hn : CheckedLength n) (bits : Bytes) :
    checksumAgrees n bits = true ↔ ∀ j < n / 3, bitAt [byteAt bits 0] j = bitAt [byteAt bits 32] j := by
  have hmask : ∀ (mask : UInt8) (top : Nat), top ≤ 8 → (∀ i < 8, mask.toNat.testBit i = decide (8 - top ≤ i)) →
      (((byteAt bits 0 &&& mask) == (byteAt bits 32 &&& mask)) = true ↔
        ∀ j < top, bitAt [byteAt bits 0] j = bitAt [byteAt bits 32] j) := by
    intro mask top htop hbits
    rw [beq_iff_eq]
    exact and_mask_eq_iff htop hbits
  rcases hn with rfl | rfl | rfl
  · exact hmask 0xF0 4 (by norm_num) (by decide)
  · exact hmask 0xFC 6 (by norm_num) (by decide)
  · have hall : ∀ x : UInt8, x &&& 0xFF = x := by
      intro x
      apply eq_of_testBit_eq
      intro i hi
      rw [UInt8.toNat_and, Nat.testBit_and]
      have hone : (0xFF : UInt8).toNat.testBit i = true := by
        revert i
        decide
      rw [hone, Bool.and_true]
    have h8 := hmask 0xFF 8 le_rfl (by decide)
    rw [hall, hall] at h8
    exact h8

theorem bitAt_byteAt (bits : Bytes) (q : Nat) {j : Nat} (hj : j < 8) : bitAt [byteAt bits q] j = bitAt bits (8 * q + j) := by
  have hdiv : (8 * q + j) / 8 = q := by omega
  have hmod : (8 * q + j) % 8 = j := by omega
  rw [bitAt, bitAt, hdiv, hmod, Nat.div_eq_of_lt hj, Nat.mod_eq_of_lt hj]
  rfl

/-- The buffer after the hash was written over its start. -/
def hashedBuffer (sha256 : Bytes → Vector UInt8 32) (bits : Bytes) (q : Nat) : Bytes :=
  (sha256 ((bits.set 32 (byteAt bits q)).take q)).toList ++ (bits.set 32 (byteAt bits q)).drop 32

theorem byteAt_hashedBuffer (sha256 : Bytes → Vector UInt8 32) {bits : Bytes} {q : Nat} (hlength : bits.length = 33) (hq : q ≤ 32) :
    byteAt (hashedBuffer sha256 bits q) 0 = (sha256 (bits.take q))[0] ∧
    byteAt (hashedBuffer sha256 bits q) 32 = byteAt bits q := by
  unfold hashedBuffer
  rw [List.take_set_of_le hq]
  generalize sha256 (bits.take q) = hash
  have hsize : hash.toList.length = 32 := Vector.length_toList
  constructor
  · simp [byteAt]
  · rw [byteAt, List.getD_eq_getElem?_getD, List.getElem?_append_right (by omega), hsize]
    simp [hlength]

/-- The comparison says that the words spell the bytes read and their checksum. -/
theorem Written.checksum_iff (hw : Written (streamOf ks) (11 * ks.length) s) (hn : CheckedLength ks.length) :
    checksumAgrees ks.length (hashedBuffer sha256 s.bits (ks.length * 4 / 3)) = true ↔
      Spells sha256 (s.bits.take (ks.length * 4 / 3)) ks := by
  have hq : ks.length * 4 / 3 ≤ 32 := by rcases hn with h | h | h <;> rw [h] <;> norm_num
  have hthird : 11 * ks.length = 8 * (ks.length * 4 / 3) + ks.length / 3 := by
    rcases hn with h | h | h <;> rw [h]
  have hsmall : ks.length / 3 ≤ 8 := by omega
  generalize ks.length * 4 / 3 = q at hq hthird
  obtain ⟨hhash, hlast⟩ := byteAt_hashedBuffer sha256 hw.length hq
  rw [checksumAgrees_iff hn, hhash, hlast]
  have hsize : (s.bits.take q).length = q := by
    rw [List.length_take, hw.length]
    omega
  constructor
  · intro h n hlt
    rw [entropyBits]
    by_cases hdata : n < 8 * q
    · rw [bitAt_append_left (by rwa [hsize]), bitAt_take hdata, hw.bit, decide_eq_true hlt,
        Bool.true_and]
    · obtain ⟨j, rfl⟩ := Nat.exists_eq_add_of_le (not_lt.mp hdata)
      have hbit := bitAt_append_right (s := s.bits.take q) (t := [(sha256 (s.bits.take q))[0]]) j
      rw [hsize] at hbit
      rw [hbit, h j (by omega), bitAt_byteAt _ _ (by omega), hw.bit, decide_eq_true hlt,
        Bool.true_and]
  · intro h j hj
    have hlt : 8 * q + j < 11 * ks.length := by omega
    have hbit := bitAt_append_right (s := s.bits.take q) (t := [(sha256 (s.bits.take q))[0]]) j
    rw [hsize] at hbit
    rw [bitAt_byteAt _ _ (by omega), hw.bit, decide_eq_true hlt, Bool.true_and, ← h _ hlt,
      entropyBits, hbit]

theorem Written.take_eq (hw : Written (streamOf ks) (11 * ks.length) s)
    (hdata : data.length * 3 / 4 = ks.length) (hmod : data.length % 4 = 0) (hmax : data.length ≤ 32)
    (hspells : Spells sha256 data ks) : s.bits.take data.length = data := by
  have hsize : (s.bits.take data.length).length = data.length := by
    rw [List.length_take, hw.length]
    omega
  apply eq_of_bitAt hsize
  intro n hn
  rw [hsize] at hn
  have hlt : n < 11 * ks.length := by omega
  rw [bitAt_take hn, hw.bit, decide_eq_true hlt, Bool.true_and, ← hspells n hlt, entropyBits, bitAt_append_left hn]

/-! ## `Check` -/

variable {mnemonic : SecureString}

/-- Once all words are found, the counts and the checksum decide. -/
theorem check_of_checkWords {n : Nat} (hne : mnemonic.bytes ≠ [])
    (hcount : (mnemonic.bytes.count 32 + 1) % 2 ^ 32 = n) (hn : CheckedLength n)
    (hread : checkWords wordlist mnemonic.bytes ⟨List.replicate 33 0, 0⟩ = .ok s) :
    check sha256 wordlist mnemonic =
      some (decide (s.nBitsCount = n * 11) && checksumAgrees n (hashedBuffer sha256 s.bits (n * 4 / 3))) := by
  have htaken : ¬(n ≠ 12 ∧ n ≠ 18 ∧ n ≠ 24) := by
    rcases hn with rfl | rfl | rfl <;> decide
  rw [check, if_neg hne]
  dsimp only
  rw [hcount, if_neg htaken, hread]
  dsimp only
  by_cases hbits : s.nBitsCount = n * 11
  · rw [if_neg (not_not.mpr hbits), decide_eq_true hbits, Bool.true_and]
    rfl
  · rw [if_pos hbits, decide_eq_false hbits, Bool.false_and]

/-- What is accepted consists of words of the list. The counters do not wrap in a string that fits. -/
theorem exists_phrase_of_check (h : check sha256 wordlist mnemonic = some true) :
    ∃ ks, WordNumbers ks ∧ CheckedLength ks.length ∧ mnemonic.bytes = phrase wordlist ks := by
  have hne : mnemonic.bytes ≠ [] := by
    intro hnil
    simp [check, hnil] at h
  have hspaces : mnemonic.bytes.count 32 < 2 ^ 18 := List.count_le_length.trans_lt mnemonic.fits
  have hn : CheckedLength ((mnemonic.bytes.count 32 + 1) % 2 ^ 32) := by
    by_contra hn
    rw [check, if_neg hne] at h
    dsimp only at h
    rw [if_pos (by simpa [CheckedLength] using hn)] at h
    cases h
  have hwrap : (mnemonic.bytes.count 32 + 1) % 2 ^ 32 = mnemonic.bytes.count 32 + 1 :=
    Nat.mod_eq_of_lt (by omega)
  rw [hwrap] at hn
  cases hread : checkWords wordlist mnemonic.bytes ⟨List.replicate 33 0, 0⟩ with
  | error e =>
    rw [check, if_neg hne] at h
    dsimp only at h
    rw [hwrap, if_neg (by rcases hn with hn | hn | hn <;> rw [hn] <;> decide), hread] at h
    cases e <;> cases h
  | ok s =>
    rw [check_of_checkWords hne hwrap hn hread] at h
    simp only [Option.some.injEq, Bool.and_eq_true, decide_eq_true_eq] at h
    rw [checkWords_eq_foldlM] at hread
    obtain ⟨ks, hks, hpieces⟩ := exists_wordNumbers hread
    have hfew : ks.length ≤ mnemonic.bytes.count 32 + 1 := by
      have hmap : (ks.map wordlist.word).length = ks.length := List.length_map ..
      rw [← length_splitOn, ← hmap, ← hpieces]
      rcases splitOn_eq_pieces 32 mnemonic.bytes with heq | heq <;> rw [heq]
      rw [List.length_append]
      exact Nat.le_add_right ..
    -- the count of the bits shows that no part was left out
    have hroom : 0 + 11 * ks.length ≤ 264 := by
      rcases hn with hn | hn | hn <;> omega
    rw [hpieces] at hread
    obtain ⟨s', hs', hw⟩ := Written.checkWords wordlist ks 0 _
      (written_initial (streamOf ks)) hks hroom fun n _ => by rw [Nat.zero_add]
    obtain rfl := Except.ok.inj (hread.symm.trans hs')
    have hlength : ks.length = mnemonic.bytes.count 32 + 1 := by
      have hcount := hw.count
      omega
    refine ⟨ks, hks, by rwa [hlength], ?_⟩
    rw [phrase, ← hpieces]
    exact (intercalate_pieces 32 (by rw [hpieces, List.length_map, hlength])).symm

/-- Words of the list are accepted when they spell some entropy and its checksum. -/
theorem check_phrase_iff (hks : WordNumbers ks) (hn : CheckedLength ks.length)
    (hmnemonic : mnemonic.bytes = phrase wordlist ks) :
    check sha256 wordlist mnemonic = some true ↔
      ∃ data : Bytes, data.length = ks.length * 4 / 3 ∧ Spells sha256 data ks := by
  have hpos : ks ≠ [] := by
    rintro rfl
    rcases hn with hn | hn | hn <;> cases hn
  have hspaces : mnemonic.bytes.count 32 + 1 = ks.length := by
    rw [hmnemonic]
    exact hks.count_phrase hpos
  have hcount : (mnemonic.bytes.count 32 + 1) % 2 ^ 32 = ks.length := by
    rw [hspaces]
    apply Nat.mod_eq_of_lt
    rcases hn with hn | hn | hn <;> omega
  have hne : mnemonic.bytes ≠ [] := by
    intro hnil
    rw [hnil] at hspaces
    rcases hn with hn | hn | hn <;> simp [hn] at hspaces
  have hlength : ks.length * 4 / 3 * 3 / 4 = ks.length ∧ ks.length * 4 / 3 % 4 = 0 ∧ ks.length * 4 / 3 ≤ 32 := by
    rcases hn with hn | hn | hn <;> rw [hn] <;> decide
  obtain ⟨s, hs, hw⟩ := Written.checkWords wordlist ks 0 _
    (written_initial (streamOf ks)) hks (by rcases hn with hn | hn | hn <;> omega)
    fun n _ => by rw [Nat.zero_add]
  rw [Nat.zero_add] at hw
  have hread : checkWords wordlist mnemonic.bytes ⟨List.replicate 33 0, 0⟩ = .ok s := by
    rw [hmnemonic, checkWords_eq_foldlM, hks.pieces_phrase hpos, hs]
  rw [check_of_checkWords hne hcount hn hread, hw.count, mul_comm 11, decide_eq_true rfl,
    Bool.true_and, Option.some.injEq, hw.checksum_iff hn]
  constructor
  · intro hspells
    refine ⟨_, ?_, hspells⟩
    rw [List.length_take, hw.length]
    omega
  · rintro ⟨data, hdata, hspells⟩
    have htake := hw.take_eq (by rw [hdata]; exact hlength.1) (by rw [hdata]; exact hlength.2.1)
      (by rw [hdata]; exact hlength.2.2) hspells
    rwa [← hdata, htake]

/-- `Check` accepts what `FromData` makes of 16, 24 or 32 bytes, and nothing else; and `FromData` loses
nothing. -/
theorem check_iff_fromData (sha256 : Bytes → Vector UInt8 32) (wordlist : WordList) :
    (∀ mnemonic : SecureString, check sha256 wordlist mnemonic = some true ↔
      ∃ data : Bytes, (data.length = 16 ∨ data.length = 24 ∨ data.length = 32) ∧
        mnemonic.bytes = fromData sha256 wordlist data data.length) ∧
    ∀ (len : Nat) (data data' : Bytes), EntropyLength len → data.length = len → data'.length = len →
      fromData sha256 wordlist data len = fromData sha256 wordlist data' len → data = data' := by
  refine ⟨fun mnemonic => ⟨fun h => ?_, ?_⟩, ?_⟩
  · obtain ⟨ks, hks, hn, hmnemonic⟩ := exists_phrase_of_check h
    obtain ⟨data, hdata, hspells⟩ := (check_phrase_iff hks hn hmnemonic).mp h
    have hlen : data.length = 16 ∨ data.length = 24 ∨ data.length = 32 := by
      rcases hn with hn | hn | hn <;> rw [hdata, hn] <;> decide
    have hnumbers : ks.length = data.length * 3 / 4 := by
      rcases hn with hn | hn | hn <;> rw [hdata, hn]
    refine ⟨data, hlen, ?_⟩
    rw [hmnemonic, fromData_eq (by rcases hlen with hl | hl | hl <;> rw [hl] <;> decide),
      (spells_iff hks hnumbers).mp hspells]
  · rintro ⟨data, hlen, hmnemonic⟩
    rw [fromData_eq (by rcases hlen with hl | hl | hl <;> rw [hl] <;> decide)] at hmnemonic
    have hn : CheckedLength (wordNumbers sha256 data).length := by
      rw [length_wordNumbers]
      rcases hlen with hl | hl | hl <;> rw [hl] <;> decide
    apply (check_phrase_iff (wordNumbers_valid sha256 data) hn hmnemonic).mpr
    refine ⟨data, ?_, (spells_iff (wordNumbers_valid _ _) (length_wordNumbers ..)).mpr rfl⟩
    rw [length_wordNumbers]
    omega
  · rintro len data data' hlen rfl hlength h
    rw [fromData_eq hlen, ← hlength, fromData_eq (by rwa [hlength])] at h
    have hnumbers := (wordNumbers_valid sha256 data).phrase_inj (wordNumbers_valid sha256 data')
      (wordNumbers_ne_nil hlen) (wordNumbers_ne_nil (by rwa [hlength])) h
    exact entropy_eq_of_wordNumbers hlen.1 hlength.symm hnumbers

/-! ## Examples -/

def tallies : WordList where
  words := (List.range 2048).map fun i => List.replicate (i + 1) 97
  length_words := by rw [List.length_map, List.length_range]
  nodup := by
    apply List.Nodup.map _ List.nodup_range
    intro i j h
    simpa using congrArg List.length h
  ne_nil := by
    intro w hw
    obtain ⟨i, -, rfl⟩ := List.mem_map.mp hw
    simp
  no_space := by
    intro w hw hmem
    obtain ⟨i, -, rfl⟩ := List.mem_map.mp hw
    exact absurd (List.eq_of_mem_replicate hmem) (by decide)

def zeroHash : Bytes → Vector UInt8 32 := fun _ => Vector.replicate 32 0

/-- Sixteen zero bytes and their checksum: the first word of the list twelve times. -/
theorem zeroEntropy_checked : ∃ mnemonic : SecureString,
    mnemonic.bytes = fromData zeroHash tallies (List.replicate 16 0) 16 ∧
      check zeroHash tallies mnemonic = some true := by
  have hfits : (fromData zeroHash tallies (List.replicate 16 0) 16).length < arenaSize := by
    decide +kernel
  refine ⟨⟨_, hfits⟩, rfl, ((check_iff_fromData zeroHash tallies).1 ⟨_, hfits⟩).mpr ?_⟩
  exact ⟨List.replicate 16 0, by simp, by simp⟩

end HempCore
