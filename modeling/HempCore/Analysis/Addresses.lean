import HempCore.Analysis.Acceptance
import HempCore.Model.AssetsCache
import HempCore.Model.Construct

/-!
# Addresses

Base58Check writes 34 characters for a key hash, whatever the hash. The digest of a name followed
by an address therefore determines both, as far as it separates the strings it is taken of.
-/

set_option autoImplicit false

namespace HempCore

variable {cfg : Config}

/-! ## Base58 -/

theorem carryDigits_eq {carry : Nat} (h : carry ≤ 256) : carryDigits carry = Nat.digits 58 carry := by
  unfold carryDigits
  split_ifs with hzero hone
  · simp [hzero]
  · rw [Nat.digits_def' (by norm_num) (by omega), hone, Nat.digits_zero]
  · rw [Nat.digits_def' (by norm_num) (by omega), Nat.digits_def' (by norm_num) (by omega),
      Nat.mod_eq_of_lt (by omega : carry / 58 < 58), Nat.div_eq_of_lt (by omega : carry / 58 < 58),
      Nat.digits_zero]

theorem mulAdd256_digits (n : Nat) {carry : Nat} (h : carry ≤ 256) :
    mulAdd256 (Nat.digits 58 n) carry = Nat.digits 58 (256 * n + carry) := by
  induction n using Nat.strong_induction_on generalizing carry with
  | _ n ih =>
    rcases Nat.eq_zero_or_pos n with rfl | hpos
    · rw [Nat.digits_zero, mulAdd256, carryDigits_eq h, Nat.mul_zero, Nat.zero_add]
    · have hdigit : n % 58 < 58 := Nat.mod_lt n (by norm_num)
      have hmod : (carry + 256 * (n % 58)) % 58 = (256 * n + carry) % 58 := by omega
      have hdiv : 256 * (n / 58) + (carry + 256 * (n % 58)) / 58 = (256 * n + carry) / 58 := by
        omega
      rw [Nat.digits_def' (by norm_num) hpos, mulAdd256,
        ih (n / 58) (Nat.div_lt_self hpos (by norm_num)) (by omega), hmod, hdiv,
        ← Nat.digits_def' (by norm_num) (by omega : 0 < 256 * n + carry)]

def beValue (vch : Bytes) : Nat := vch.foldl (fun n b => 256 * n + b.toNat) 0

theorem foldl_mulAdd256 (vch : Bytes) (n : Nat) :
    vch.foldl (fun ds b => mulAdd256 ds b.toNat) (Nat.digits 58 n) =
      Nat.digits 58 (vch.foldl (fun n b => 256 * n + b.toNat) n) := by
  induction vch generalizing n with
  | nil => rfl
  | cons b vch ih =>
    have hb : b.toNat ≤ 256 := by have := b.toNat_lt; omega
    rw [List.foldl_cons, mulAdd256_digits n hb, ih, List.foldl_cons]

theorem foldl_beValue (vch : Bytes) (n : Nat) :
    n * 256 ^ vch.length ≤ vch.foldl (fun n b => 256 * n + b.toNat) n ∧
      vch.foldl (fun n b => 256 * n + b.toNat) n < (n + 1) * 256 ^ vch.length := by
  induction vch generalizing n with
  | nil => simp
  | cons b vch ih =>
    obtain ⟨hlow, hhigh⟩ := ih (256 * n + b.toNat)
    have hb : b.toNat < 256 := b.toNat_lt
    rw [List.foldl_cons, List.length_cons, pow_succ]
    constructor
    · calc n * (256 ^ vch.length * 256) = (256 * n) * 256 ^ vch.length := by ring
        _ ≤ (256 * n + b.toNat) * 256 ^ vch.length := Nat.mul_le_mul_right _ (by omega)
        _ ≤ _ := hlow
    · calc _ < (256 * n + b.toNat + 1) * 256 ^ vch.length := hhigh
        _ ≤ (256 * (n + 1)) * 256 ^ vch.length := Nat.mul_le_mul_right _ (by omega)
        _ = (n + 1) * (256 ^ vch.length * 256) := by ring

theorem beValue_ne_zero {b : UInt8} (hb : b ≠ 0) (vch : Bytes) : beValue (b :: vch) ≠ 0 := by
  have hlow := (foldl_beValue vch (256 * 0 + b.toNat)).1
  have hb' : b.toNat ≠ 0 := fun h => hb (UInt8.toNat_inj.mp h)
  have hpow : 0 < 256 ^ vch.length := by positivity
  have : 0 < (256 * 0 + b.toNat) * 256 ^ vch.length := Nat.mul_pos (by omega) hpow
  rw [beValue, List.foldl_cons]
  omega

theorem encodeBase58_length {b : UInt8} (hb : b ≠ 0) (vch : Bytes) :
    (encodeBase58 (b :: vch)).length = (Nat.digits 58 (beValue (b :: vch))).length := by
  have hzeroes : (b :: vch).takeWhile (· == 0) = [] := by simp [hb]
  have hdigits : (b :: vch).foldl (fun ds b => mulAdd256 ds b.toNat) [] = Nat.digits 58 (beValue (b :: vch)) := by
    rw [← Nat.digits_zero 58, foldl_mulAdd256, beValue]
  have hpos := beValue_ne_zero hb vch
  have hlast : ((Nat.digits 58 (beValue (b :: vch))).reverse).dropWhile (· == 0) =
      (Nat.digits 58 (beValue (b :: vch))).reverse := by
    have hne : Nat.digits 58 (beValue (b :: vch)) ≠ [] := Nat.digits_ne_nil_iff_ne_zero.mpr hpos
    have htop := Nat.getLast_digit_ne_zero 58 hpos
    cases hrev : (Nat.digits 58 (beValue (b :: vch))).reverse with
    | nil => rfl
    | cons d ds =>
      have hd : d ≠ 0 := by
        have hhead := List.head_reverse (l := Nat.digits 58 (beValue (b :: vch))) (by simpa using hne)
        simp only [hrev, List.head_cons] at hhead
        rw [hhead]
        exact htop
      simp [hd]
  simp only [encodeBase58, hzeroes, List.length_nil, List.drop_zero, List.map_nil, List.nil_append,
    List.length_map, hdigits, hlast, List.length_reverse]

/-! ## Addresses of keys -/

/-- What addresses are built from: a version byte like those of all three networks, and digests of
32 bytes. chainparams.cpp:199, 425, 633, hash.h:98-105 -/
structure AddressFormat (cfg : Config) : Prop where
  version : 3 ≤ cfg.params.pubkeyAddress.toNat ∧ cfg.params.pubkeyAddress.toNat ≤ 143
  digest : ∀ s, (cfg.hash s).length = 32

theorem encodeDestination_length (hformat : AddressFormat cfg) {id : Bytes} (hid : id.length = 20) :
    (encodeDestination cfg (.keyID id)).length = 34 := by
  obtain ⟨hlow, hhigh⟩ := hformat.version
  set version := cfg.params.pubkeyAddress with hversion
  have hne : version ≠ 0 := by
    intro h
    rw [h] at hlow
    exact absurd hlow (by decide)
  have hlen : (id ++ (cfg.hash (version :: id)).take 4).length = 24 := by
    simp [hid, hformat.digest]
  obtain ⟨hge, hlt⟩ := foldl_beValue (id ++ (cfg.hash (version :: id)).take 4) version.toNat
  have hvalue : beValue (version :: (id ++ (cfg.hash (version :: id)).take 4)) =
      (id ++ (cfg.hash (version :: id)).take 4).foldl (fun n b => 256 * n + b.toNat) version.toNat := by
    simp [beValue]
  rw [hlen, ← hvalue] at hge hlt
  have hencode : encodeDestination cfg (.keyID id) = encodeBase58 (version :: (id ++ (cfg.hash (version :: id)).take 4)) := rfl
  rw [hencode, encodeBase58_length hne]
  apply le_antisymm
  · rw [Nat.digits_length_le_iff (by norm_num)]
    calc _ < (version.toNat + 1) * 256 ^ 24 := hlt
      _ ≤ 144 * 256 ^ 24 := Nat.mul_le_mul_right _ (by omega)
      _ ≤ 58 ^ 34 := by norm_num
  · have hlong : 33 < (Nat.digits 58 (beValue (version :: (id ++ (cfg.hash (version :: id)).take 4)))).length := by
      rw [Nat.lt_digits_length_iff (by norm_num)]
      calc 58 ^ 33 ≤ 3 * 256 ^ 24 := by norm_num
        _ ≤ version.toNat * 256 ^ 24 := Nat.mul_le_mul_right _ hlow
        _ ≤ _ := hge
    exact hlong

theorem addressFormat_mainConfig (dep : Deployments) : AddressFormat (mainConfig dep) where
  version := (by decide : 3 ≤ (60 : UInt8).toNat ∧ (60 : UInt8).toNat ≤ 143)
  digest s := by
    have hlisted : ∀ p ∈ addressDigests ++ commandDigests, p.2.length = 32 := by decide +kernel
    show (((addressDigests ++ commandDigests).lookup s).getD (bytesBE 32 0)).length = 32
    cases hs : (addressDigests ++ commandDigests).lookup s with
    | none => rfl
    | some d =>
      obtain ⟨l₁, l₂, hsplit, -⟩ := List.lookup_eq_some_iff.mp hs
      exact hlisted (s, d) (by simp [hsplit])

/-! ## Addresses of commands -/

/-- An address a command can name: that of a key, or none when the script has no destination. -/
def CommandAddress (cfg : Config) (address : Bytes) : Prop :=
  address = [] ∨ ∃ id : Bytes, id.length = 20 ∧ address = encodeDestination cfg (.keyID id)

theorem matchTemplates_hempAsset (s : Bytes) : matchTemplates (opHempAsset :: s) = none := by
  have hops : scriptOps (opHempAsset :: s) = ([⟨opHempAsset, s⟩], true) := by
    have hnil : getOps s.length [] = ([], true) := by cases s.length <;> rfl
    have hop : getOp (opHempAsset :: s) = some (⟨opHempAsset, s⟩, []) := rfl
    simp [scriptOps, getOps, hop, hnil]
  simp [matchTemplates, hops, matchMultisig]

theorem commandAddress_of_script {s : Bytes} (h : isNullAssetTxDataScript s = true) :
    CommandAddress cfg (scriptAddressString cfg s) := by
  simp only [isNullAssetTxDataScript, Bool.and_eq_true, decide_eq_true_eq, beq_iff_eq] at h
  obtain ⟨⟨hlen, hfirst⟩, -⟩ := h
  have htake : ∀ n, n ≤ 3 → ((s.drop n).take 20).length = 20 := by
    intro n hn
    rw [List.length_take, List.length_drop]
    omega
  have hp2sh : isPayToScriptHash s = false := by
    simp [isPayToScriptHash, hfirst, opHempAsset, opHash160]
  have hwitness : isWitnessProgram s = none := by
    unfold isWitnessProgram
    split_ifs with h₁ h₂ h₃
    · rfl
    · rfl
    · exact absurd ⟨by rw [hfirst]; decide, .inr (by rw [hfirst]; decide)⟩ h₂
    · rfl
  have hkey : ∀ id : Bytes, id.length = 20 → extractDestination cfg s = some (.keyID id) →
      CommandAddress cfg (scriptAddressString cfg s) := by
    intro id hid hdest
    exact .inr ⟨id, hid, by simp [scriptAddressString, hdest]⟩
  have hnone : extractDestination cfg s = none → CommandAddress cfg (scriptAddressString cfg s) := by
    intro hdest
    exact .inl (by simp [scriptAddressString, hdest, encodeDestination])
  cases hasset : isAssetScript s with
  | some a =>
    -- the bytes can be those of an asset script as well, which then decides the key
    have hsolver : solver s = some (a.nType, [(s.drop 3).take 20]) := by
      simp [solver, hp2sh, hasset]
    refine hkey _ (htake 3 le_rfl) ?_
    rcases isAssetScript_cases hasset with h | h | h | h <;>
      simp [extractDestination, hsolver, h.1]
  | none =>
    have htail : s = opHempAsset :: s.tail := by
      cases s with
      | nil => simp at hlen
      | cons b s => simpa [byteAt] using hfirst
    have hsolver : solver s =
        if isPushOnly s.tail then
          if 23 ≤ s.length ∧ byteAt s 1 ≠ opReserved then
            some (.TX_RESTRICTED_ASSET_DATA, [(s.drop 2).take 20])
          else some (.TX_RESTRICTED_ASSET_DATA, [])
        else none := by
      have hreturn : ¬opHempAsset = opReturn := by decide
      have htemplates : matchTemplates s = none := by
        rw [htail]
        exact matchTemplates_hempAsset _
      simp [solver, hp2sh, hasset, hwitness, hfirst, hreturn, htemplates]
    split_ifs at hsolver with hpush hkeyed
    · exact hkey _ (htake 2 (by omega)) (by simp [extractDestination, hsolver])
    · exact hnone (by simp [extractDestination, hsolver])
    · exact hnone (by simp [extractDestination, hsolver])

/-! ## Digests of a name with an address -/

/-- A digest that separates the strings it is taken of separates the pairs: the addresses have one
length, and a name without an address is shorter than any address. -/
theorem getHash_injOn (hformat : AddressFormat cfg) {keys : Set NameAddress}
    (hkeys : ∀ key ∈ keys, CommandAddress cfg key.2 ∧ (key.2 = [] → key.1.length ≤ maxNameLength))
    (hhash : Set.InjOn cfg.hash (Set.image (fun key : NameAddress => key.1 ++ key.2) keys)) :
    Set.InjOn (getHash cfg) keys := by
  have hlength : ∀ key ∈ keys, key.2.length = 34 ∨ key.2 = [] ∧ key.1.length ≤ maxNameLength := by
    intro key hkey
    obtain ⟨hnil | ⟨id, hid, haddress⟩, hshort⟩ := hkeys key hkey
    · exact .inr ⟨hnil, hshort hnil⟩
    · exact .inl (haddress ▸ encodeDestination_length hformat hid)
  rintro ⟨n, a⟩ hna ⟨n', a'⟩ hna' heq
  have happend : n ++ a = n' ++ a' := hhash (Set.mem_image_of_mem _ hna) (Set.mem_image_of_mem _ hna') heq
  have hsum := congrArg List.length happend
  rw [List.length_append, List.length_append] at hsum
  have hshort : maxNameLength < 34 := by decide
  have hsame : a.length = a'.length := by
    rcases hlength _ hna with h | ⟨h, hn⟩ <;> rcases hlength _ hna' with h' | ⟨h', hn'⟩
    · exact h.trans h'.symm
    · simp only at h h' hn'
      rw [h', List.length_nil] at hsum
      omega
    · simp only at h h' hn
      rw [h, List.length_nil] at hsum
      omega
    · simp only at h h'
      rw [h, h']
  obtain ⟨rfl, rfl⟩ := List.append_inj' happend hsame
  rfl

end HempCore
