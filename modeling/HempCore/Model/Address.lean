import HempCore.Model.Config
import HempCore.Model.Script

/-!
# Destinations and addresses

`ExtractDestination` with the Base58Check encoding of `base58.cpp`.
Lines without a file are those of `base58.cpp`.
-/

set_option autoImplicit false

namespace HempCore

/-- script/standard.h:89 -/
inductive CTxDestination where
  | noDestination
  | keyID (id : Bytes)
  | scriptID (id : Bytes)
deriving DecidableEq, Repr

/-- `CPubKey::IsValid` for a key built from these bytes. pubkey.h:51-82,159-162 -/
def pubKeyIsValid (vch : Bytes) : Bool :=
  match byteAt vch 0 with
  | 2 | 3 => vch.length == 33
  | 4 | 6 | 7 => vch.length == 65
  | _ => false

/-- `none` when the function returns false; its callers then keep `CNoDestination`.
script/standard.cpp:210-249 -/
def extractDestination (cfg : Config) (s : Bytes) : Option CTxDestination :=
  match solver s with
  | some (.TX_PUBKEY, key :: _) =>
    if pubKeyIsValid key then some (.keyID (cfg.hash160 key)) else none
  | some (.TX_PUBKEYHASH, h :: _) => some (.keyID h)
  | some (.TX_SCRIPTHASH, h :: _) => some (.scriptID h)
  | some (.TX_NEW_ASSET, h :: _) => some (.keyID h)
  | some (.TX_REISSUE_ASSET, h :: _) => some (.keyID h)
  | some (.TX_TRANSFER_ASSET, h :: _) => some (.keyID h)
  | some (.TX_RESTRICTED_ASSET_DATA, h :: _) => some (.keyID h)
  | _ => none

/-! ## Base58 -/

/-- L20 -/
def pszBase58 : Bytes := str "123456789ABCDEFGHJKLMNPQRSTUVWXYZabcdefghijkmnopqrstuvwxyz"

/-- The digits that hold a carry once the existing digits are used up, least significant first. A
carry below `58 ^ 2` needs at most two. -/
def carryDigits (carry : Nat) : List Nat :=
  if carry = 0 then []
  else if carry / 58 = 0 then [carry % 58]
  else [carry % 58, carry / 58]

/-- `b58 = b58 * 256 + ch` on digits, least significant first: the inner loop runs over the digits
in use and on while there is a carry. L87-95 -/
def mulAdd256 : List Nat → Nat → List Nat
  | [], carry => carryDigits carry
  | d :: ds, carry => (carry + 256 * d) % 58 :: mulAdd256 ds ((carry + 256 * d) / 58)

/-- L72-110 -/
def encodeBase58 (vch : Bytes) : Bytes :=
  let zeroes := vch.takeWhile (· == 0)
  let digits := (vch.drop zeroes.length).foldl (fun ds b => mulAdd256 ds b.toNat) []
  let significant := digits.reverse.dropWhile (· == 0)
  zeroes.map (fun _ => byteAt pszBase58 0) ++ significant.map (byteAt pszBase58)

/-- L122-129 -/
def encodeBase58Check (cfg : Config) (vch : Bytes) : Bytes :=
  encodeBase58 (vch ++ (cfg.hash vch).take 4)

/-- L232-246,326-331 -/
def encodeDestination (cfg : Config) : CTxDestination → Bytes
  | .noDestination => []
  | .keyID id => encodeBase58Check cfg (cfg.params.pubkeyAddress :: id)
  | .scriptID id => encodeBase58Check cfg (cfg.params.scriptAddress :: id)

/-- The address string the asset code keeps for a script. -/
def scriptAddressString (cfg : Config) (s : Bytes) : Bytes :=
  encodeDestination cfg ((extractDestination cfg s).getD .noDestination)

end HempCore
