import OnekvmVnc.Capability
import OnekvmVnc.Lib.Numeral

/-! What the extension is known by, and how it asks for media: `LoadIdentity` and `SubscriptionJSON` of
    `src/protocol_ipc.cpp`. The environment and the file of the credential are given. -/

namespace OnekvmVnc

/-! ### `LoadIdentity` -/

/-- `std::isspace` in the default locale. -/
def isSpace (b : UInt8) : Bool := b = 0x20 || 0x09 ≤ b && b ≤ 0x0d

/-- `std::isxdigit`. -/
def isXDigit (b : UInt8) : Bool := isDigit b || 0x61 ≤ b && b ≤ 0x66 || 0x41 ≤ b && b ≤ 0x46

/-- `[a-z0-9]`. -/
def isIdCharacter (b : UInt8) : Bool := 0x61 ≤ b && b ≤ 0x7a || isDigit b

/-- A match of `^[a-z0-9][a-z0-9-]{1,62}$`. -/
def matchesIdPattern (id : List UInt8) : Bool :=
  match id with
  | [] => false
  | first :: rest =>
    isIdCharacter first && 1 ≤ rest.length && rest.length ≤ 62 && rest.all fun b => isIdCharacter b || b = 0x2d

/-- The file of the credential in its directory. -/
def tokenPath (credentials : List UInt8) : List UInt8 :=
  if credentials.getLast? = some 0x2f then credentials ++ bytesOf "onekvm-token"
  else credentials ++ bytesOf "/onekvm-token"

/-- `id` and `credentials` are in the environment; `file` reads a file that can be opened. -/
def loadIdentity (id credentials : Option (List UInt8)) (file : List UInt8 → Option (List UInt8)) :
    Except String ByteIdentity :=
  match id, credentials with
  | some id, some credentials =>
    if id = [] ∨ credentials = [] then .error "extension identity is unavailable"
    else if !matchesIdPattern id then .error "extension identity is invalid"
    else
      match file (tokenPath credentials) with
      | none => .error "read extension credential"
      | some input =>
        let token := input.filter fun value => !isSpace value
        if token.length ≠ 64 ∨ !token.all isXDigit then .error "extension credential has invalid format"
        else .ok { extensionId := id, token }
  | _, _ => .error "extension identity is unavailable"

/-! ### `SubscriptionJSON` -/

/-- `std::to_string` of an `int` that is not negative. -/
def toStringInt (value : Int) : List UInt8 := Json.decimalCode value.toNat

/-- `std::to_string` of a quotient by 100.0, with six decimals. For an `int` the quotient is so close to its hundredths
    that these are what is printed. -/
def toStringHundredths (value : Int) : List UInt8 := Json.hundredthsCode 4 value.toNat

namespace ByteIdentity

/-- `SubscriptionJSON` with all its arguments: `{"version":1,"extension_id":"…","token":"…","video":"…",…}` on a line. The
    braces are `\x7b` and `\x7d`. -/
def subscriptionJSON (identity : ByteIdentity) (video : List UInt8) (fps jpegQuality : Int) (sharedRing : Bool)
    (codec : List UInt8) (trackSession : Bool) (audio : List UInt8) : List UInt8 :=
  let request :=
    bytesOf "\x7b\"version\":1,\"extension_id\":\"" ++ identity.extensionId ++
      bytesOf "\",\"token\":\"" ++ identity.token ++ bytesOf "\",\"video\":\"" ++ video ++ bytesOf "\""
  let request := if 0 < fps then request ++ (bytesOf ",\"fps\":" ++ toStringInt fps) else request
  let request :=
    if 0 < jpegQuality then request ++ (bytesOf ",\"quality_factor\":" ++ toStringHundredths jpegQuality) else request
  let request := if codec ≠ [] then request ++ (bytesOf ",\"codec\":\"" ++ codec ++ bytesOf "\"") else request
  let request := if audio ≠ [] then request ++ (bytesOf ",\"audio\":\"" ++ audio ++ bytesOf "\"") else request
  let request := if sharedRing then request ++ bytesOf ",\"transport\":\"shm-ring-v1\"" else request
  let request := if !trackSession then request ++ bytesOf ",\"track_session\":false" else request
  request ++ bytesOf "\x7d\n"

/-- The request of `MediaSubscription::Run`. -/
def mediaRequest (identity : ByteIdentity) (fps jpegQuality : Int) (sharedRing : Bool) : List UInt8 :=
  identity.subscriptionJSON (bytesOf "mjpeg") fps jpegQuality sharedRing [] false []

/-- The request of `AudioSubscription::Run`. -/
def audioRequest (identity : ByteIdentity) : List UInt8 :=
  identity.subscriptionJSON (bytesOf "encoded") 0 0 false [] false (bytesOf "opus")

end ByteIdentity

end OnekvmVnc
