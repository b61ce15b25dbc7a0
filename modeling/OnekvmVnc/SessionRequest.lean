import OnekvmVnc.AdminHID

/-! The request that `SessionReporter` sends for a client, as bytes: `JSONString` and `SessionJSON` of
    `src/protocol_ipc.cpp`. -/

namespace OnekvmVnc

def hexDigits : List UInt8 := bytesOf "0123456789abcdef"

/-- What `JSONString` makes of a character. -/
def jsonCharacter (character : UInt8) : List UInt8 :=
  if character = 0x22 then bytesOf "\\\""
  else if character = 0x5c then bytesOf "\\\\"
  else if character = 0x08 then bytesOf "\\b"
  else if character = 0x0c then bytesOf "\\f"
  else if character = 0x0a then bytesOf "\\n"
  else if character = 0x0d then bytesOf "\\r"
  else if character = 0x09 then bytesOf "\\t"
  else if character < 0x20 then
    bytesOf "\\u00" ++
      [hexDigits.getD (character >>> 4).toNat 0, hexDigits.getD (character &&& 0x0f).toNat 0]
  else [character]

def jsonString (value : List UInt8) : List UInt8 := bytesOf "\"" ++ value.flatMap jsonCharacter ++ bytesOf "\""

/-- `Identity`, as bytes. -/
structure ByteIdentity where
  extensionId : List UInt8
  token : List UInt8
  deriving DecidableEq, Repr

/-- `{"version":1,"extension_id":"…",…,"client_transport":"…"}` on a line. The braces are `\x7b` and `\x7d`. -/
def sessionJSON (identity : ByteIdentity) (clientIp clientUser clientTransport codec : List UInt8) : List UInt8 :=
  let request :=
    bytesOf "\x7b\"version\":1,\"extension_id\":" ++ jsonString identity.extensionId ++
      bytesOf ",\"token\":" ++ jsonString identity.token ++
      bytesOf ",\"video\":\"session\",\"codec\":" ++ jsonString codec ++
      bytesOf ",\"client_ip\":" ++ jsonString clientIp ++
      bytesOf ",\"client_transport\":" ++ jsonString clientTransport
  let request := if clientUser ≠ [] then request ++ (bytesOf ",\"client_user\":" ++ jsonString clientUser) else request
  request ++ bytesOf "\x7d\n"

end OnekvmVnc
