import OnekvmVnc.Client
import OnekvmVnc.Lib.Decoder
import OnekvmVnc.Sink.Consumers
import OnekvmVnc.Sink.Raw

/-! The messages that `runClient` in `internal/vnc/sink.go` reads from a client and what it does with them: those that
    the RFB package reads, `EnableContinuousUpdates`, and the extensions whose messages are skipped. -/

namespace OnekvmVnc

open Decoder

/-! ### The reader -/

structure ContinuousUpdateRequest where
  enabled : Bool
  x : UInt16
  y : UInt16
  width : UInt16
  height : UInt16
  deriving DecidableEq, Repr

/-- A message that was read. `M` are the messages of the RFB package. -/
inductive SinkMessage (M : Type) where
  | rfb (message : M)
  | continuousUpdates (request : ContinuousUpdateRequest)
  | skipped (messageType : UInt8)
  deriving DecidableEq, Repr

/-- How the loop of `runClient` ends. -/
inductive MessageError where
  /-- The error of the connection is returned. -/
  | connection
  | continuousUpdates
  | message (messageType : UInt8)
  | unsupported (messageType : UInt8)
  /-- The check of a pixel format, as `String` puts it. -/
  | pixelFormat (format : String)
  | setPixelFormat (error : String)
  /-- The second call of `SetEncoding`, whose error is returned. -/
  | setEncoding (error : String)
  | framebuffer (error : String)
  deriving DecidableEq, Repr

/-- The text of the error, with that of the connection. -/
def MessageError.text (connection : String) : MessageError → String
  | .connection => connection
  | .continuousUpdates => "read VNC continuous update request: " ++ connection
  | .message messageType => "read VNC client message " ++ toString messageType.toNat ++ ": " ++ connection
  | .unsupported messageType => "unsupported VNC client message type " ++ toString messageType.toNat
  | .pixelFormat format => "unsupported VNC pixel format: " ++ format
  | .setPixelFormat error => "set VNC pixel format: " ++ error
  | .setEncoding error => error
  | .framebuffer error => "write VNC framebuffer: " ++ error

/-- `SetPixelFormat`, `SetEncodings`, `FramebufferUpdateRequest`, `KeyEvent`, `PointerEvent` and `ClientCutText`. -/
def rfbMessageTypes : List UInt8 := [0, 2, 3, 4, 5, 6]

def readBE16At (payload : List UInt8) (offset : Nat) : UInt16 :=
  ((payload.getD offset 0).toUInt16 <<< 8) ||| (payload.getD (offset + 1) 0).toUInt16

def readContinuousUpdateRequest : Decoder UInt8 ContinuousUpdateRequest := do
  let payload ← units 9
  return { enabled := payload.getD 0 0 ≠ 0, x := readBE16At payload 1, y := readBE16At payload 3,
           width := readBE16At payload 5, height := readBE16At payload 7 }

/-- `discardClientExtension`, for a message that it handles. -/
def discardClientExtension (messageType : UInt8) : Option (Decoder UInt8 Unit) :=
  match messageType with
  | 248 => some do  -- ClientFence
    let header ← units 8
    let _ ← units (header.getD 7 0).toNat
    return ()
  | 251 => some do  -- SetDesktopSize
    let header ← units 7
    let _ ← units ((header.getD 5 0).toNat * 16)
    return ()
  | 255 => some do  -- QEMU extended key event
    let _ ← units 11
    return ()
  | _ => none

variable {M : Type}

/-- What a decoder that fails for want of bytes leads to. -/
def orError {α : Type} (error : MessageError) (result : Option α) : Except MessageError α :=
  match result with
  | some value => .ok value
  | none => .error error

/-- A turn of the loop. `read` are the `Read` methods of the RFB package. -/
def readMessage (read : UInt8 → Decoder UInt8 M) (stream : List UInt8) :
    Except MessageError (SinkMessage M × List UInt8) := do
  let (messageType, stream) ← orError .connection (unit.run stream)
  if rfbMessageTypes.contains messageType then
    let (message, stream) ← orError (.message messageType) ((read messageType).run stream)
    return (.rfb message, stream)
  else if messageType = 150 then
    let (request, stream) ← orError .continuousUpdates (readContinuousUpdateRequest.run stream)
    return (.continuousUpdates request, stream)
  else
    match discardClientExtension messageType with
    | some discard =>
      let (_, stream) ← orError .connection (discard.run stream)
      return (.skipped messageType, stream)
    | none => throw (.unsupported messageType)

/-! ### What the loop does with a message -/

def encDesktopSizePseudo : Int := -223

/-- A message of the RFB package, as far as `runClient` looks at it. -/
inductive ParsedMessage where
  | setPixelFormat (pf : RFBPixelFormat)
  | setEncodings (encodings : List Int)
  | framebufferUpdateRequest (request : UpdateRequest)
  | keyEvent (down : Bool) (key : UInt32)
  | pointerEvent (mask : UInt8) (x y : UInt16)
  | clientCutText
  deriving DecidableEq, Repr

/-- What the loop calls. `σ` is what the calls find and leave behind. -/
structure ClientCalls (M σ : Type) where
  parsed : M → ParsedMessage
  /-- `String` of a pixel format. -/
  formatString : RFBPixelFormat → String
  /-- `SetPixelFormat` of the connection. -/
  setPixelFormat : σ → RFBPixelFormat → Except String Unit × σ
  /-- `SetEncoding` of the client. -/
  setEncoding : σ → ClientEncoding → Bool → Except String Unit × σ
  /-- `Write` of the client. -/
  write : σ → UpdateRequest → Except String Unit × σ
  /-- `key` and `pointer` of its input. -/
  key : σ → Bool → UInt32 → σ
  pointer : σ → UInt8 → UInt16 → UInt16 → σ
  /-- `Start` and `Stop` of its updater. -/
  start : σ → ContinuousUpdateRequest → σ
  stop : σ → σ

/-- What was read until the loop ended or ran out of fuel. -/
structure MessageLoop (M σ : Type) where
  messages : List (SinkMessage M) := []
  state : σ
  error : Option MessageError := none

namespace ClientCalls
variable {σ : Type} (calls : ClientCalls M σ) (cfg : SinkConfig)

/-- The error of a call ends the loop. -/
def orReturn (error : String → MessageError) (result : Except String Unit × σ) : Except MessageError Unit × σ :=
  (result.1.mapError error, result.2)

/-- What is done with a message. If the client cannot have the encoding that it is to get, it gets the one without JPEG. -/
def handle (s : σ) : SinkMessage M → Except MessageError Unit × σ
  | .rfb message =>
    match calls.parsed message with
    | .setPixelFormat pf =>
      if pf.trueColor = 0 ∨ (pf.bpp ≠ 16 ∧ pf.bpp ≠ 32) then (.error (.pixelFormat (calls.formatString pf)), s)
      else orReturn .setPixelFormat (calls.setPixelFormat s pf)
    | .setEncodings encodings =>
      let supportsDesktopSize := encodings.contains encDesktopSizePseudo
      match calls.setEncoding s (cfg.desiredEncoding encodings) supportsDesktopSize with
      | (.ok (), s) => (.ok (), s)
      | (.error _, s) => orReturn .setEncoding (calls.setEncoding s (cfg.fallbackEncoding encodings) supportsDesktopSize)
    | .framebufferUpdateRequest request => orReturn .framebuffer (calls.write s request)
    | .keyEvent down key => (.ok (), calls.key s down key)
    | .pointerEvent mask x y => (.ok (), calls.pointer s mask x y)
    | .clientCutText => (.ok (), s)
  | .continuousUpdates request => (.ok (), if request.enabled then calls.start s request else calls.stop s)
  | .skipped _ => (.ok (), s)

/-- A turn with this message, and what the next turns come to. -/
def serve (s : σ) (message : SinkMessage M) (next : σ → MessageLoop M σ) : MessageLoop M σ :=
  match calls.handle cfg s message with
  | (.error error, s) => { messages := [message], state := s, error := some error }
  | (.ok (), s) => { next s with messages := message :: (next s).messages }

/-- Turns of the loop, as many as there is fuel for. -/
def readMessages (read : UInt8 → Decoder UInt8 M) : Nat → σ → List UInt8 → MessageLoop M σ
  | 0, s, _ => { state := s }
  | fuel + 1, s, stream =>
    match readMessage read stream with
    | .error error => { state := s, error := some error }
    | .ok (message, stream) => calls.serve cfg s message fun s => readMessages read fuel s stream

end ClientCalls

/-! ### What clients send -/

/-- Bytes of a length. -/
abbrev Bytes (n : Nat) := { bytes : List UInt8 // bytes.length = n }

/-- A message of a client, as RFB and its extensions define it. What the sink does not look at is any bytes. -/
inductive ViewerMessage (M : Type) where
  | rfb (message : M)
  | continuousUpdates (enabled : UInt8) (x y width height : UInt16)
  | fence (paddingAndFlags : Bytes 7) (length : UInt8) (payload : Bytes length.toNat)
  | setDesktopSize (paddingAndSize : Bytes 5) (screens padding : UInt8) (layout : Bytes (screens.toNat * 16))
  | extendedKey (submessageAndKey : Bytes 11)

/-- The messages of the RFB package as they go over the connection. -/
structure MessageFormat (M : Type) where
  messageType : M → UInt8
  body : M → List UInt8

namespace ViewerMessage
variable (format : MessageFormat M)

def code : ViewerMessage M → List UInt8
  | .rfb message => format.messageType message :: format.body message
  | .continuousUpdates enabled x y width height => 150 :: enabled :: (be16 x ++ be16 y ++ be16 width ++ be16 height)
  | .fence head length payload => 248 :: (head.1 ++ [length] ++ payload.1)
  | .setDesktopSize head screens padding layout => 251 :: (head.1 ++ [screens, padding] ++ layout.1)
  | .extendedKey body => 255 :: body.1

/-- What the sink is to make of it. -/
def meaning : ViewerMessage M → SinkMessage M
  | .rfb message => .rfb message
  | .continuousUpdates enabled x y width height => .continuousUpdates { enabled := enabled ≠ 0, x, y, width, height }
  | .fence .. => .skipped 248
  | .setDesktopSize .. => .skipped 251
  | .extendedKey _ => .skipped 255

end ViewerMessage

end OnekvmVnc
