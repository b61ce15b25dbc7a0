import Mathlib.Algebra.GroupWithZero.Nat
import OnekvmVnc.Input
import OnekvmVnc.Lib.Search

/-! `AdminHID` of `src/admin_hid.cpp`: a request is posted to the admin API over a socket that is kept open, and the
    response is parsed as it comes in. What the socket calls find is given in the order in which they find it. -/

namespace OnekvmVnc

/-- The bytes of a text. -/
def bytesOf (text : String) : List UInt8 := text.toUTF8.data.toList

def maxResponseHeader : Nat := 16 <<< 10

def maxResponseBody : Nat := 64 <<< 10

/-- A call on a socket is still waiting, or has failed, or is done. -/
inductive SocketOutcome (α : Type) where
  | waiting
  | failed (error : String)
  | done (value : α)
  deriving DecidableEq, Repr

/-- Why `WaitFor` gives up. -/
inductive WaitFailure where
  | timedOut
  | failed (errno : String)
  | closed
  deriving DecidableEq, Repr

def WaitFailure.error (operation : String) : WaitFailure → String
  | .timedOut => operation ++ ": timed out"
  | .failed errno => operation ++ ": " ++ errno
  | .closed => operation ++ ": connection closed"

/-- What a turn of `ReadMore` finds: bytes that have come, none at the end of the stream, an interrupted call, a failed
    `WaitFor` or a failed `recv`. -/
inductive Arrival where
  | bytes (chunk : List UInt8)
  | interrupted
  | unready (failure : WaitFailure)
  | failed (errno : String)
  deriving DecidableEq, Repr

/-- What a turn of `WriteAll` finds: what `send` returns, an interrupted call or a failed `WaitFor`. -/
inductive WriteResult where
  | send (written : Int) (errno : String)
  | interrupted
  | unready (failure : WaitFailure)
  deriving DecidableEq, Repr

/-- How `Connect` ends that opens a socket. -/
inductive ConnectResult where
  | noSocket (errno : String)
  | refused (errno : String)
  | unready (failure : WaitFailure)
  | socketError (errno : String)
  | connected
  deriving DecidableEq, Repr

/-! ### Sockets -/

def writeAll (data : List UInt8) : List WriteResult → SocketOutcome Unit
  | [] => if data = [] then .done () else .waiting
  | result :: rest =>
    if data = [] then .done ()
    else
      match result with
      | .send written errno =>
        if written ≤ 0 then .failed ("write OneKVM admin API: " ++ errno) else writeAll (data.drop written.toNat) rest
      | .interrupted => writeAll data rest
      | .unready failure => .failed (failure.error "write OneKVM admin API")

/-- What `recv` takes of what has come, at most `wanted` bytes, and what is left. -/
def receive (wanted : Nat) : List Arrival → SocketOutcome (List UInt8 × List Arrival)
  | [] => .waiting
  | .interrupted :: rest => receive wanted rest
  | .unready failure :: _ => .failed (failure.error "read OneKVM admin API")
  | .failed errno :: _ => .failed ("read OneKVM admin API: " ++ errno)
  | .bytes chunk :: rest =>
    if chunk = [] then .failed "OneKVM admin API closed the connection"
    else .done (chunk.take wanted, if chunk.length ≤ wanted then rest else .bytes (chunk.drop wanted) :: rest)

/-- `ReadMore`, with what it leaves. -/
def readMore (data : List UInt8) (limit : Nat) (arrivals : List Arrival) : SocketOutcome (List UInt8 × List Arrival) :=
  if limit ≤ data.length then .failed "OneKVM admin API response is too large"
  else
    match receive (min 4096 (limit - data.length)) arrivals with
    | .waiting => .waiting
    | .failed error => .failed error
    | .done (received, rest) => .done (data ++ received, rest)

theorem receive_length {wanted : Nat} (pos : 0 < wanted) {arrivals rest : List Arrival} {received : List UInt8}
    (h : receive wanted arrivals = .done (received, rest)) : 0 < received.length ∧ received.length ≤ wanted := by
  fun_induction receive wanted arrivals with
  | case1 => cases h
  | case2 _ ih => exact ih h
  | case3 => cases h
  | case4 => cases h
  | case5 => cases h
  | case6 chunk rest hchunk =>
    have hlength := List.length_pos_of_ne_nil hchunk
    cases h
    rw [List.length_take]
    omega

theorem readMore_length {data data' : List UInt8} {limit : Nat} {arrivals rest : List Arrival}
    (h : readMore data limit arrivals = .done (data', rest)) : data.length < data'.length ∧ data'.length ≤ limit := by
  unfold readMore at h
  split at h
  · cases h
  · split at h
    · cases h
    · cases h
    · rename_i hreceived
      obtain ⟨hpos, hle⟩ := receive_length (by omega) hreceived
      cases h
      rw [List.length_append]
      omega

/-- A loop of `ReadMore` up to a limit, until `stop` finds what it looks for in what has been read. -/
def readUntil {α : Type} (stop : List UInt8 → Option α) (limit : Nat) (data : List UInt8) (arrivals : List Arrival) :
    SocketOutcome (List UInt8 × α × List Arrival) :=
  match stop data with
  | some found => .done (data, found, arrivals)
  | none =>
    match _h : readMore data limit arrivals with
    | .waiting => .waiting
    | .failed error => .failed error
    | .done (data', rest) => readUntil stop limit data' rest
termination_by limit - data.length
decreasing_by
  have hlength := readMore_length ‹_›
  omega

/-! ### Responses -/

/-- What `std::tolower` does in the default locale. -/
def toLower (b : UInt8) : UInt8 := if 65 ≤ b ∧ b ≤ 90 then b + 32 else b

def lower (value : List UInt8) : List UInt8 := value.map toLower

def isDigit (b : UInt8) : Bool := 48 ≤ b && b ≤ 57

def decimal (text : List UInt8) : Nat := text.foldl (fun n b => 10 * n + (b.toNat - 48)) 0

/-- `std::from_chars` for a `std::size_t`, if it takes all of the text. -/
def fromCharsSize (text : List UInt8) : Option Nat :=
  if text ≠ [] ∧ text.all isDigit ∧ decimal text < 2 ^ 64 then some (decimal text) else none

/-- `std::from_chars` for an `int`, if it takes all of the text, which is too short for an overflow. -/
def fromCharsInt : List UInt8 → Option Int
  | 45 :: digits => if digits ≠ [] ∧ digits.all isDigit then some (-(decimal digits : Int)) else none
  | text => if text ≠ [] ∧ text.all isDigit then some (decimal text) else none

def substr (text : List UInt8) (pos count : Nat) : List UInt8 := (text.drop pos).take count

def crlf : List UInt8 := [13, 10]

/-- The line end before the blank line, and the blank line. -/
def blankLine : List UInt8 := [13, 10, 13, 10]

/-- What `ParseResponse` takes from the header lines. -/
structure HeaderFields where
  contentLength : Option Nat := none
  closeConnection : Bool := false
  deriving DecidableEq, Repr

/-- One header line. -/
def HeaderFields.line (fields : HeaderFields) (name value : List UInt8) : Except String HeaderFields :=
  let name := lower name
  let value := value.dropWhile fun b => b = 32 ∨ b = 9
  if name = bytesOf "content-length" then
    match fromCharsSize value with
    | none => .error "OneKVM admin API returned an invalid Content-Length"
    | some contentLength =>
      if contentLength > maxResponseBody then .error "OneKVM admin API returned an invalid Content-Length"
      else .ok { fields with contentLength := some contentLength }
  else if name = bytesOf "connection" ∧ lower value = bytesOf "close" then .ok { fields with closeConnection := true }
  else if name = bytesOf "transfer-encoding" ∧ lower value ≠ bytesOf "identity" then
    .error "OneKVM admin API returned an unsupported transfer encoding"
  else .ok fields

/-- The loop over the header lines, from `lineStart` on. -/
def parseHeaders (response : List UInt8) (headerEnd lineStart : Nat) (fields : HeaderFields) :
    Except String HeaderFields :=
  if lineStart < headerEnd then
    match _h : Search.find crlf response lineStart with
    | none => .ok fields
    | some lineEnd =>
      if lineEnd > headerEnd then .ok fields
      else
        let parsed : Except String HeaderFields :=
          match Search.find [58] response lineStart with
          | none => .ok fields
          | some colon =>
            if colon < lineEnd then
              fields.line (substr response lineStart (colon - lineStart))
                (substr response (colon + 1) (lineEnd - colon - 1))
            else .ok fields
        match parsed with
        | .error error => .error error
        | .ok fields => parseHeaders response headerEnd (lineEnd + 2) fields
  else .ok fields
termination_by headerEnd - lineStart
decreasing_by
  have hle := Search.le_of_find ‹_›
  omega

/-- The status line and the header lines, once all of them are there. -/
def parseHead (response : List UInt8) (headerEnd : Nat) : Except String (Int × HeaderFields) :=
  match Search.find crlf response 0 with
  | none => .error "OneKVM admin API returned an invalid HTTP response"
  | some firstLineEnd =>
    if response.take 5 ≠ bytesOf "HTTP/" then .error "OneKVM admin API returned an invalid HTTP response"
    else
      match Search.find [32] response 5 with
      | none => .error "OneKVM admin API returned an invalid HTTP status"
      | some firstSpace =>
        if firstSpace + 4 > firstLineEnd then .error "OneKVM admin API returned an invalid HTTP status"
        else
          match fromCharsInt (substr response (firstSpace + 1) 3) with
          | none => .error "OneKVM admin API returned an invalid HTTP status"
          | some status => (parseHeaders response headerEnd (firstLineEnd + 2) {}).map fun fields => (status, fields)

/-- A response as `ParseResponse` has read it. -/
structure ParsedResponse where
  response : List UInt8
  status : Int
  closeConnection : Bool
  deriving DecidableEq, Repr

/-- `ParseResponse`, with what it leaves unread. -/
def parseResponse (arrivals : List Arrival) : SocketOutcome (ParsedResponse × List Arrival) :=
  match readUntil (Search.find blankLine · 0) maxResponseHeader [] arrivals with
  | .waiting => .waiting
  | .failed error => .failed error
  | .done (response, headerEnd, arrivals) =>
    match parseHead response headerEnd with
    | .error error => .failed error
    | .ok (status, fields) =>
      match fields.contentLength with
      | none => .failed "OneKVM admin API response has no Content-Length"
      | some contentLength =>
        let bodyStart := headerEnd + 4
        match readUntil (fun response => if response.length - bodyStart < contentLength then none else some ())
            (bodyStart + contentLength) response arrivals with
        | .waiting => .waiting
        | .failed error => .failed error
        | .done (response, _, arrivals) =>
          .done ({ response, status, closeConnection := fields.closeConnection }, arrivals)

/-! ### Requests -/

namespace HIDRequest

def path : HIDRequest → String
  | .keyboard _ _ => "/api/hid/keyboard"
  | .absoluteMouse _ _ _ => "/api/hid/mouse/absolute"
  | .mouse _ _ => "/api/hid/mouse"

/-- An object, `{"modifiers":2,"keys":[4]}`, `{"buttons":1,"x":5,"y":7}` or `{"buttons":1,"x":0,"y":0,"wheel":-1}`. Its
    braces are `\x7b` and `\x7d`. -/
def payload : HIDRequest → String
  | .keyboard modifiers keys =>
    "\x7b\"modifiers\":" ++ toString modifiers.toNat ++ ",\"keys\":[" ++
      String.intercalate "," (keys.map fun key => toString key.toNat) ++ "]\x7d"
  | .absoluteMouse buttons x y =>
    "\x7b\"buttons\":" ++ toString buttons.toNat ++ ",\"x\":" ++ toString x.toNat ++ ",\"y\":" ++ toString y.toNat ++ "\x7d"
  | .mouse buttons wheel =>
    "\x7b\"buttons\":" ++ toString buttons.toNat ++ ",\"x\":0,\"y\":0,\"wheel\":" ++ toString wheel ++ "\x7d"

end HIDRequest

/-- `Identity` of `src/protocol_ipc.hpp`. -/
structure Identity where
  extensionId : String
  token : String
  deriving DecidableEq, Repr

/-- The client of the admin API. Connections are numbered as they are opened, and for each of them there is what has
    come from the server and is not read yet. -/
structure AdminHID where
  socketPath : String
  identity : Identity
  /-- The connection of `socket_fd_`, `none` for -1. -/
  socket : Option Nat := none
  opened : Nat := 0
  unread : Nat → List Arrival := fun _ => []

/-- A call of `Post`, with what its socket calls find. `arrivals` come on its connection while it runs. -/
structure PostCall where
  path : String
  payload : String
  connect : ConnectResult := .connected
  writes : List WriteResult
  arrivals : List Arrival

/-- What a call of `Post` leaves behind: its connection, the response that it has read, whether writing or parsing
    failed, and what it returns. -/
structure PostRecord where
  connection : Option Nat := none
  response : List UInt8 := []
  broken : Bool := false
  result : Except String Unit

namespace AdminHID
variable (s : AdminHID)

/-- `sizeof(sockaddr_un::sun_path)`. -/
def sunPathSize : Nat := 108

def connect (result : ConnectResult) : Except String (AdminHID × Nat) :=
  match s.socket with
  | some connection => .ok (s, connection)
  | none =>
    if s.socketPath.utf8ByteSize ≥ sunPathSize then .error "OneKVM admin socket path is too long"
    else
      match result with
      | .noSocket errno => .error ("create OneKVM admin socket: " ++ errno)
      | .refused errno => .error ("connect OneKVM admin socket: " ++ errno)
      | .unready failure => .error (failure.error "connect OneKVM admin socket")
      | .socketError errno => .error ("connect OneKVM admin socket: " ++ errno)
      | .connected => .ok ({ s with socket := some s.opened, opened := s.opened + 1 }, s.opened)

def close : AdminHID := { s with socket := none }

def setUnread (connection : Nat) (arrivals : List Arrival) : AdminHID :=
  { s with unread := Function.update s.unread connection arrivals }

/-- More comes from the server on a connection. -/
def arrive (connection : Nat) (arrivals : List Arrival) : AdminHID :=
  s.setUnread connection (s.unread connection ++ arrivals)

def request (path payload : String) : List UInt8 :=
  bytesOf ("POST " ++ path ++ " HTTP/1.1\r\nHost: unix\r\nContent-Type: application/json\r\nAuthorization: Bearer " ++
    s.identity.token ++ "\r\nX-OneKVM-Extension: " ++ s.identity.extensionId ++ "\r\nContent-Length: " ++
    toString payload.utf8ByteSize ++ "\r\nConnection: keep-alive\r\n\r\n" ++ payload)

/-- What `Post` returns for a status. -/
def postResult (path : String) (status : Int) : Except String Unit :=
  if status < 200 ∨ status ≥ 300 then .error ("OneKVM admin API " ++ path ++ " returned HTTP " ++ toString status)
  else .ok ()

/-- `Post`, `none` while it has not returned. -/
def post (call : PostCall) : Option (AdminHID × PostRecord) :=
  match s.connect call.connect with
  | .error error => some (s, { result := .error error })
  | .ok (s, connection) =>
    let s := s.arrive connection call.arrivals
    match writeAll (s.request call.path call.payload) call.writes with
    | .waiting => none
    | .failed error => some (s.close, { connection := some connection, broken := true, result := .error error })
    | .done () =>
      match parseResponse (s.unread connection) with
      | .waiting => none
      | .failed error => some (s.close, { connection := some connection, broken := true, result := .error error })
      | .done (parsed, unread) =>
        let s := s.setUnread connection unread
        let s := if parsed.closeConnection then s.close else s
        some (s, { connection := some connection, response := parsed.response, result := postResult call.path parsed.status })

end AdminHID

/-- A call of `Post`, or something comes from the server at any other time. -/
inductive HIDAction where
  | post (call : PostCall)
  | arrive (connection : Nat) (arrivals : List Arrival)

namespace AdminHID

def start (socketPath : String) (identity : Identity) : AdminHID := { socketPath, identity }

/-- One step, `none` where it cannot happen. -/
def step (s : AdminHID) : HIDAction → Option AdminHID
  | .post call => (s.post call).map Prod.fst
  | .arrive connection arrivals => if connection < s.opened then some (s.arrive connection arrivals) else none

/-- What a step leaves behind. -/
def record (s : AdminHID) : HIDAction → List PostRecord
  | .post call => ((s.post call).map Prod.snd).toList
  | .arrive _ _ => []

end AdminHID

end OnekvmVnc
