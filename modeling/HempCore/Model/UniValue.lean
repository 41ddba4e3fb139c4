import HempCore.Model.Basic

/-!
# JSON values

`UniValue` and its writer. Numbers are integers: the one other number in the documents below, the
balance of the export, is read by nothing. Where a document comes from elsewhere, a number that is
not an integer stands for one out of every range, since both are read with the same exception. The
reader of the library is a parameter where it is used.
-/

set_option autoImplicit false

namespace HempCore

/-- Lower-case hexadecimal digits. utilstrencodings.h:111-112 -/
def hexmap (v : Nat) : UInt8 := UInt8.ofNat (if v < 10 then 48 + v else 87 + v)

/-- `-1` is the missing value. utilstrencodings.cpp:34-57 -/
def hexDigit (c : UInt8) : Option Nat :=
  if 48 ≤ c ∧ c ≤ 57 then some (c.toNat - 48)
  else if 97 ≤ c ∧ c ≤ 102 then some (c.toNat - 87)
  else if 65 ≤ c ∧ c ≤ 70 then some (c.toNat - 55)
  else none

/-- utilstrencodings.h:107-130 -/
def hexStr (bytes : Bytes) : Bytes :=
  bytes.flatMap fun b => [hexmap (b.toNat / 16), hexmap (b.toNat % 16)]

/-- White space is skipped in front of a byte, not inside one. utilstrencodings.cpp:82-106 -/
def parseHex : Bytes → Bytes
  | [] => []
  | c :: s =>
    if (9 ≤ c ∧ c ≤ 13) ∨ c = 32 then parseHex s
    else
      match hexDigit c, s with
      | some hi, c' :: s =>
        match hexDigit c' with
        | some lo => UInt8.ofNat (16 * hi + lo) :: parseHex s
        | none => []
      | _, _ => []

/-- The decimal digits of a number, as `operator<<` writes them. -/
def decimal (n : Nat) : Bytes :=
  if n = 0 then [48] else (Nat.digits 10 n).reverse.map fun d => UInt8.ofNat (48 + d)

def decimalInt (n : Int) : Bytes := if n < 0 then 45 :: decimal n.natAbs else decimal n.natAbs

/-- univalue/include/univalue.h:20-24 -/
inductive UniValue where
  | vnull
  | vbool (val : Bool)
  | vnum (val : Int)
  | vstr (val : Bytes)
  | varr (values : List UniValue)
  | vobj (keys : List String) (values : List UniValue)

/-- univalue/lib/univalue_escapes.h:4-261 -/
def escapes (ch : UInt8) : Option Bytes :=
  if ch = 8 then some (str "\\b")
  else if ch = 9 then some (str "\\t")
  else if ch = 10 then some (str "\\n")
  else if ch = 12 then some (str "\\f")
  else if ch = 13 then some (str "\\r")
  else if ch = 34 then some (str "\\\"")
  else if ch = 92 then some (str "\\\\")
  else if ch < 32 ∨ ch = 127 then
    some (str "\\u00" ++ [hexmap (ch.toNat / 16), hexmap (ch.toNat % 16)])
  else none

/-- univalue/lib/univalue_write.cpp:13-30 -/
def jsonEscape (s : Bytes) : Bytes := s.flatMap fun ch => (escapes ch).getD [ch]

namespace UniValue

def indentStr (prettyIndent indentLevel : Nat) : Bytes := List.replicate (prettyIndent * indentLevel) 32

def newline (prettyIndent : Nat) : Bytes := if prettyIndent = 0 then [] else [10]

mutual

/-- The callers below pass the indentation level that `write` makes of its argument.
univalue/lib/univalue_write.cpp:32-63 -/
def write (prettyIndent : Nat) (level : Nat) : UniValue → Bytes
  | .vnull => str "null"
  | .vbool val => if val then str "true" else str "false"
  | .vnum val => decimalInt val
  | .vstr val => 34 :: jsonEscape val ++ [34]
  | .varr values =>
    91 :: newline prettyIndent ++ writeArray prettyIndent (max 1 level) values ++
      indentStr prettyIndent (max 1 level - 1) ++ [93]
  | .vobj keys values =>
    123 :: newline prettyIndent ++ writeObject prettyIndent (max 1 level) keys values ++
      indentStr prettyIndent (max 1 level - 1) ++ [125]

/-- univalue/lib/univalue_write.cpp:70-89 -/
def writeArray (prettyIndent : Nat) (level : Nat) : List UniValue → Bytes
  | [] => []
  | value :: values =>
    indentStr prettyIndent level ++ write prettyIndent (level + 1) value ++
      (if values.isEmpty then [] else [44]) ++ newline prettyIndent ++
      writeArray prettyIndent level values

/-- univalue/lib/univalue_write.cpp:91-114 -/
def writeObject (prettyIndent : Nat) (level : Nat) : List String → List UniValue → Bytes
  | key :: keys, value :: values =>
    indentStr prettyIndent level ++ 34 :: jsonEscape (str key) ++ [34, 58] ++
      (if prettyIndent = 0 then [] else [32]) ++ write prettyIndent (level + 1) value ++
      (if values.isEmpty then [] else [44]) ++ newline prettyIndent ++
      writeObject prettyIndent level keys values
  | _, _ => []

end

/-- An object from its `pushKV` calls, of different keys. univalue/lib/univalue.cpp:124-143 -/
def object (members : List (String × UniValue)) : UniValue :=
  .vobj (members.map Prod.fst) (members.map Prod.snd)

/-- `operator[]`: a missing key gives the null value. univalue/lib/univalue.cpp:164-197 -/
def get : UniValue → String → UniValue
  | .vobj keys values, key => ((keys.zip values).lookup key).getD .vnull
  | _, _ => .vnull

def has : UniValue → String → Bool
  | .vobj keys _, key => keys.contains key
  | _, _ => false

/-! The accessors under `exists(key)` and the type tests: the value is missing when the key is or the
type is another. -/

section

variable (v : UniValue) (key : String)

def num? : Option Int :=
  match v.get key with
  | .vnum val => some val
  | _ => none

def str? : Option Bytes :=
  match v.get key with
  | .vstr val => some val
  | _ => none

def bool? : Option Bool :=
  match v.get key with
  | .vbool val => some val
  | _ => none

def arr? : Option (List UniValue) :=
  match v.get key with
  | .varr values => some values
  | _ => none

def obj? : Option UniValue :=
  match v.get key with
  | .vobj keys values => some (.vobj keys values)
  | _ => none

end

/-- univalue/lib/univalue_get.cpp:135-143 -/
def getInt : UniValue → Except String Int
  | .vnum val =>
    if -2 ^ 31 ≤ val ∧ val < 2 ^ 31 then .ok val else .error "JSON integer out of range"
  | _ => .error "JSON value is not an integer as expected"

/-- univalue/lib/univalue_get.cpp:155-163 -/
def getInt64 : UniValue → Except String Int
  | .vnum val =>
    if -2 ^ 63 ≤ val ∧ val < 2 ^ 63 then .ok val else .error "JSON integer out of range"
  | _ => .error "JSON value is not an integer as expected"

/-- univalue/lib/univalue_get.cpp:128-133 -/
def getStr : UniValue → Except String Bytes
  | .vstr val => .ok val
  | _ => .error "JSON value is not a string as expected"

end UniValue

end HempCore
