import HempCore.Model.Basic

/-!
# Asset names

The name rules of `assets.cpp:43-422`. Every regular expression of the source is a Boolean
function on bytes; `std::regex_match` matches the whole string, so the anchors drop out. In
ECMAScript a dot matches every byte but line feed and carriage return, which `isDot` keeps.
Lines without a file are those of `assets.cpp`.
-/

set_option autoImplicit false

namespace HempCore

/-- assets/assettypes.h:22-36 -/
inductive AssetType where
  | ROOT | SUB | UNIQUE | MSGCHANNEL | QUALIFIER | SUB_QUALIFIER | RESTRICTED | VOTE
  | REISSUE | OWNER | NULL_ADD_QUALIFIER | INVALID
deriving DecidableEq, Repr

/-- assets/assets.h:31 -/
def minAssetLength : Nat := 3
/-- assets/assets.h:33 -/
def ownerTag : Bytes := [33]
/-- assets/assets.h:34 -/
def ownerLength : Nat := 1
/-- Excluding the owner tag. L44 -/
def maxNameLength : Nat := 31
/-- L45 -/
def maxChannelNameLength : Nat := 12
/-- `'$'`. assets/assets.h:41 -/
def restrictedChar : UInt8 := 36
/-- `'#'`. assets/assets.h:42 -/
def qualifierChar : UInt8 := 35
/-- `'/'`. L64 -/
def subNameDelimiter : UInt8 := 47
/-- `'#'`. L65 -/
def uniqueTagDelimiter : UInt8 := 35
/-- `'~'`. L66 -/
def msgChannelTagDelimiter : UInt8 := 126
/-- `'^'`. L67 -/
def voteTagDelimiter : UInt8 := 94

/-! ## Character classes -/

section

variable (b : UInt8)

/-- `[A-Z]` -/
def isUpper : Bool := 65 ≤ b && b ≤ 90
/-- `[a-z]` -/
def isLower : Bool := 97 ≤ b && b ≤ 122
/-- `[0-9]` -/
def isDigit : Bool := 48 ≤ b && b ≤ 57
/-- `[._]` -/
def isPunct : Bool := b == 46 || b == 95
/-- `[A-Z0-9._]` -/
def isNameChar : Bool := isUpper b || isDigit b || isPunct b
/-- `[-A-Za-z0-9@$%&*()[\]{}_.?:]` -/
def isUniqueTagChar : Bool :=
  isUpper b || isLower b || isDigit b || (str "-@$%&*()[]\x7b\x7d_.?:").contains b
/-- `[A-Za-z0-9_]` -/
def isChannelChar : Bool := isUpper b || isLower b || isDigit b || b == 95
/-- The ECMAScript dot. -/
def isDot : Bool := !(b == 10 || b == 13)
/-- `[^^~#!]`, the class before a tag. -/
def isBeforeTagChar : Bool := !(b == 94 || b == 126 || b == 35 || b == 33)
/-- `[^~#!\/]`, the class after a tag. -/
def isAfterTagChar : Bool := !(b == 126 || b == 35 || b == 33 || b == 47)

end

/-! ## Regular expressions -/

/-- `^[A-Z0-9._]{n,}$` -/
def nameCharacters (n : Nat) (s : Bytes) : Bool := n ≤ s.length && s.all isNameChar

/-- `c[A-Z0-9._]{n,}$` for a leading byte `c`. -/
def ledNameCharacters (c : UInt8) (n : Nat) : Bytes → Bool
  | [] => false
  | b :: s => b == c && nameCharacters n s

/-- `^.*[._]{2,}.*$` -/
def doublePunctuation (s : Bytes) : Bool :=
  s.all isDot && (s.zip s.tail).any fun p => isPunct p.1 && isPunct p.2

/-- `^[._].*$` -/
def leadingPunctuation : Bytes → Bool
  | [] => false
  | b :: s => isPunct b && s.all isDot

/-- `^.*[._]$` -/
def trailingPunctuation (s : Bytes) : Bool := leadingPunctuation s.reverse

/-- `^[#\$][._].*$` -/
def qualifierLeadingPunctuation : Bytes → Bool
  | [] => false
  | b :: s => (b == 35 || b == 36) && leadingPunctuation s

/-- `^[^^~#!]+d[^~#!\/]+$` for a delimiter `d` outside the first class: the greedy first part is
the longest run of that class. -/
def tagIndicator (d : UInt8) (s : Bytes) : Bool :=
  match s.span isBeforeTagChar with
  | (pre, c :: post) => !pre.isEmpty && c == d && !post.isEmpty && post.all isAfterTagChar
  | (_, []) => false

/-- L70 -/
def uniqueIndicator : Bytes → Bool := tagIndicator uniqueTagDelimiter
/-- L71 -/
def msgChannelIndicator : Bytes → Bool := tagIndicator msgChannelTagDelimiter
/-- L73 -/
def voteIndicator : Bytes → Bool := tagIndicator voteTagDelimiter

/-- `^[^^~#!]+!$`. L72 -/
def ownerIndicator (s : Bytes) : Bool :=
  match s.span isBeforeTagChar with
  | (pre, [c]) => !pre.isEmpty && c == 33
  | _ => false

/-- `^[#][A-Z0-9._]{3,}$`. L75 -/
def qualifierIndicator : Bytes → Bool := ledNameCharacters qualifierChar 3
/-- `^[\$][A-Z0-9._]{3,}$`. L77 -/
def restrictedIndicator : Bytes → Bool := ledNameCharacters restrictedChar 3

/-- `^#[A-Z0-9._]+\/#[A-Z0-9._]+$`. L76 -/
def subQualifierIndicator : Bytes → Bool
  | [] => false
  | b :: s =>
    match s.span isNameChar with
    | (pre, c :: post) =>
      b == qualifierChar && !pre.isEmpty && c == subNameDelimiter &&
        ledNameCharacters qualifierChar 1 post
    | (_, []) => false

/-- L79 -/
def hempNames (s : Bytes) : Bool :=
  [str "HEMP", str "HEMP0X", str "H0X", str "HEMPCOIN",
    str "#HEMP", str "#HEMP0X", str "#H0X", str "#HEMPCOIN"].contains s

/-! ## Parts of a name -/

/-- The punctuation rules every part shares. -/
def punctuationOk (s : Bytes) : Bool :=
  !doublePunctuation s && !leadingPunctuation s && !trailingPunctuation s

variable (name : Bytes)

/-- L81-88 -/
def isRootNameValid : Bool :=
  nameCharacters 3 name && punctuationOk name && !hempNames name

/-- The leading `#` is outside the punctuation test, so this one has its own leading rule.
L90-97 -/
def isQualifierNameValid : Bool :=
  ledNameCharacters qualifierChar 3 name && !doublePunctuation name &&
    !qualifierLeadingPunctuation name && !trailingPunctuation name && !hempNames name

/-- L99-106 -/
def isRestrictedNameValid : Bool :=
  ledNameCharacters restrictedChar 3 name && punctuationOk name && !hempNames name

/-- L108-114 -/
def isSubQualifierNameValid : Bool :=
  ledNameCharacters qualifierChar 1 name && punctuationOk name

/-- L116-122 -/
def isSubNameValid : Bool := nameCharacters 1 name && punctuationOk name

/-- L124-127 -/
def isUniqueTagValid (tag : Bytes) : Bool := !tag.isEmpty && tag.all isUniqueTagChar

/-- L129-132 -/
def isVoteTagValid (tag : Bytes) : Bool := nameCharacters 1 tag

/-- L134-140 -/
def isMsgChannelTagValid (tag : Bytes) : Bool :=
  !tag.isEmpty && tag.all isChannelChar && punctuationOk tag

/-- `boost::split` keeps empty tokens and never returns an empty vector. -/
def splitName (d : UInt8) (name : Bytes) : List Bytes := name.splitOn d

/-- L142-158 -/
def isNameValidBeforeTag : Bool :=
  let parts := splitName subNameDelimiter name
  isRootNameValid (parts.headD []) && parts.tail.all isSubNameValid

/-- A qualifier has at most one sub-qualifier under it. L160-182 -/
def isQualifierNameValidBeforeTag : Bool :=
  let parts := splitName subNameDelimiter name
  isQualifierNameValid (parts.headD []) && parts.length ≤ 2 &&
    parts.tail.all isSubQualifierNameValid

/-- L184-192 -/
def isAssetNameASubasset : Bool :=
  let parts := splitName subNameDelimiter name
  isRootNameValid (parts.headD []) && 1 < parts.length

/-- L194-202 -/
def isAssetNameASubQualifier : Bool :=
  let parts := splitName subNameDelimiter name
  isQualifierNameValid (parts.headD []) && 1 < parts.length

/-! ## The type of a name -/

/-- The error text for a name over `n` bytes. -/
def nameTooLong (n : Nat) : String := "Name is greater than max length of " ++ toString n

/-- The checks a name of the given type passes, or the text of `error`. The text of a failed
character check differs from type to type. L330-376 -/
def isTypeCheckNameValid (type : AssetType) (name : Bytes) : Except String Unit :=
  match type with
  | .UNIQUE =>
    let parts := splitName uniqueTagDelimiter name
    if maxNameLength < name.length then .error (nameTooLong maxNameLength)
    else if isNameValidBeforeTag (parts.headD []) && isUniqueTagValid (parts.getLastD []) then .ok ()
    else .error "Unique name contains invalid characters (Valid characters are: A-Z a-z 0-9 @ $ % & * ( ) [ ] \x7b \x7d _ . ? : -)"
  | .MSGCHANNEL =>
    let parts := splitName msgChannelTagDelimiter name
    if maxNameLength < name.length then .error (nameTooLong maxNameLength)
    else if maxChannelNameLength < (parts.getLastD []).length then
      .error ("Channel name is greater than max length of " ++ toString maxChannelNameLength)
    else if isNameValidBeforeTag (parts.headD []) && isMsgChannelTagValid (parts.getLastD []) then
      .ok ()
    else .error "Message Channel name contains invalid characters (Valid characters are: A-Z 0-9 _ .) (special characters can't be the first or last characters)"
  | .OWNER =>
    if maxNameLength < name.length then .error (nameTooLong maxNameLength)
    else if isNameValidBeforeTag name.dropLast then .ok ()
    else .error "Owner name contains invalid characters (Valid characters are: A-Z 0-9 _ .) (special characters can't be the first or last characters)"
  | .VOTE =>
    let parts := splitName voteTagDelimiter name
    if maxNameLength < name.length then .error (nameTooLong maxNameLength)
    else if isNameValidBeforeTag (parts.headD []) && isVoteTagValid (parts.getLastD []) then .ok ()
    else .error "Vote name contains invalid characters (Valid characters are: A-Z 0-9 _ .) (special characters can't be the first or last characters)"
  | .QUALIFIER | .SUB_QUALIFIER =>
    if maxNameLength < name.length then .error (nameTooLong maxNameLength)
    else if isQualifierNameValidBeforeTag name then .ok ()
    else .error "Qualifier name contains invalid characters (Valid characters are: A-Z 0-9 _ .) (# must be the first character, _ . special characters can't be the first or last characters)"
  | .RESTRICTED =>
    if maxNameLength < name.length then .error (nameTooLong maxNameLength)
    else if isRestrictedNameValid name then .ok ()
    else .error "Restricted name contains invalid characters (Valid characters are: A-Z 0-9 _ .) ($ must be the first character, _ . special characters can't be the first or last characters)"
  | _ =>
    -- Assets and sub-assets leave one character for the owner tag.
    if maxNameLength - 1 < name.length then .error (nameTooLong (maxNameLength - 1))
    else if !isAssetNameASubasset name && name.length < minAssetLength then
      .error ("Name must be contain " ++ toString minAssetLength ++ " characters")
    else if isNameValidBeforeTag name then .ok ()
    else if isAssetNameASubasset name && name.length < 3 then
      .error "Name must have at least 3 characters (Valid characters are: A-Z 0-9 _ .)"
    else .error "Name contains invalid characters (Valid characters are: A-Z 0-9 _ .) (special characters can't be the first or last characters)"

/-- What `IsAssetNameValid` leaves behind: its verdict, the type it writes through its reference
argument (`none` when it returns before writing) and the error text. -/
structure NameVerdict where
  valid : Bool
  assetType : Option AssetType
  error : String
deriving DecidableEq, Repr

/-- The type a valid name of each indicator is given. L212-283 -/
def nameVerdict (check written : AssetType) (name : Bytes) : NameVerdict :=
  match isTypeCheckNameValid check name with
  | .ok () => ⟨true, some written, ""⟩
  | .error e => ⟨false, some .INVALID, e⟩

/-- Overload with type and error. A name over 40 bytes is refused before the type is written.
L205-284 -/
def isAssetNameValidTyped : NameVerdict :=
  if 40 < name.length then ⟨false, none, ""⟩
  else if uniqueIndicator name then nameVerdict .UNIQUE .UNIQUE name
  else if msgChannelIndicator name then nameVerdict .MSGCHANNEL .MSGCHANNEL name
  else if ownerIndicator name then nameVerdict .OWNER .OWNER name
  else if voteIndicator name then nameVerdict .VOTE .VOTE name
  else if qualifierIndicator name then
    nameVerdict .QUALIFIER (if isAssetNameASubQualifier name then .SUB_QUALIFIER else .QUALIFIER)
      name
  else if subQualifierIndicator name then
    nameVerdict .SUB_QUALIFIER (if isAssetNameASubQualifier name then .SUB_QUALIFIER else .INVALID)
      name
  else if restrictedIndicator name then nameVerdict .RESTRICTED .RESTRICTED name
  else
    let type := if isAssetNameASubasset name then AssetType.SUB else .ROOT
    nameVerdict type type name

/-- L286-291 -/
def isAssetNameValid : Bool := (isAssetNameValidTyped name).valid

/-- The type variable of a caller that ignores the verdict: `uninit` is what the variable held
before the call. L293-297 -/
def assetTypeOf (uninit : AssetType) (name : Bytes) : AssetType :=
  (isAssetNameValidTyped name).assetType.getD uninit

/-- The name is valid and has the given type. -/
def isAssetNameOfType (type : AssetType) (name : Bytes) : Bool :=
  (isAssetNameValidTyped name).valid && (isAssetNameValidTyped name).assetType == some type

/-- L305-308 -/
def isAssetNameAnOwner : Bool := isAssetNameValid name && ownerIndicator name

/-- L310-313 -/
def isAssetNameAnRestricted : Bool :=
  isAssetNameValid name && restrictedIndicator name

/-- L315-322 -/
def isAssetNameAQualifier (fOnlyQualifiers : Bool) : Bool :=
  isAssetNameValid name &&
    (qualifierIndicator name || (!fOnlyQualifiers && subQualifierIndicator name))

/-- L324-327 -/
def isAssetNameAnMsgChannel : Bool :=
  isAssetNameValid name && msgChannelIndicator name

/-! ## Related names -/

/-- L379-389 -/
def restrictedNameToOwnerName : Bytes :=
  if isAssetNameAnRestricted name then name.drop 1 ++ ownerTag else []

/-- `name.substr(0, name.find_last_of(d))`, the whole name when `d` is absent. -/
def beforeLast (d : UInt8) (name : Bytes) : Bytes :=
  if name.contains d then ((name.reverse.dropWhile (· != d)).drop 1).reverse else name

/-- L391-422 -/
def getParentName : Bytes :=
  if isAssetNameValid name then
    match (isAssetNameValidTyped name).assetType with
    | some .SUB | some .SUB_QUALIFIER => beforeLast subNameDelimiter name
    | some .UNIQUE => beforeLast uniqueTagDelimiter name
    | some .MSGCHANNEL => beforeLast msgChannelTagDelimiter name
    | some .VOTE => beforeLast voteTagDelimiter name
    | _ => name
  else []

end HempCore
