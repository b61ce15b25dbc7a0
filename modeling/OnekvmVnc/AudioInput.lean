import OnekvmVnc.EventLoop

/-! The QEMU audio messages of a client as a stream of bytes, and `AudioHandleMessage` message by message. The
    library has read the type byte when the handler is called; how many bytes after it have arrived by then is up
    to the network. -/

namespace OnekvmVnc

/-- A message as the client sends it. -/
def AudioMessage.bytes : AudioMessage → List UInt8
  | .enable => [255, 1] ++ be16 0
  | .disable => [255, 1] ++ be16 1
  | .setFormat format =>
    [255, 1] ++ be16 2 ++ [format.sampleFormat, format.channels] ++ be32 (UInt32.ofNat format.frequency)

def AudioMessage.Valid : AudioMessage → Prop
  | .setFormat format => format.Valid
  | _ => True

/-- What is still to be read. -/
def SocketInput.bytes (input : SocketInput) : List UInt8 := input.available ++ input.later

namespace Client

/-- `AudioHandleMessage` with what it leaves to be read, nothing once the client has gone. -/
def audioHandle (k : Client) (input : SocketInput) (ok : Bool) : (Client × Bool) × SocketInput :=
  match input.peek with
  | none => ((k, true), input)
  | some subtype =>
    if subtype ≠ 1 then ((k, true), input)
    else
      match input.readExact 3 with
      | none => ((k, true), { available := [] })
      | some (header, input) =>
        if !k.data.audioSupported then ((k, true), input)
        else
          let operation := (header.getD 1 0).toNat * 256 + (header.getD 2 0).toNat
          if operation = 0 then
            let k := k.record (.audioMessage .enable)
            (({ k with data := { k.data with audioEnabled := true, audioResamplePosition := 0 } }, false), input)
          else if operation = 1 then (k.disableAudio ok, input)
          else if operation = 2 then
            match input.readExact 6 with
            | none => ((k, true), { available := [] })
            | some (format, input) => (k.setAudioFormat format ok, input)
          else ((k, true), input)

end Client

/-- A call of the handler: how many bytes have arrived after the type byte, and the outcome of a write. -/
structure AudioCall where
  arrived : Nat
  ok : Bool
  deriving DecidableEq, Repr

namespace AudioCall

/-- The bytes after the type byte, as a call finds them. -/
def input (call : AudioCall) (rest : List UInt8) : SocketInput :=
  { available := rest.take call.arrived, later := rest.drop call.arrived }

/-- The same call once the whole stream has arrived. -/
def atOnce (stream : List UInt8) (call : AudioCall) : AudioCall := { call with arrived := stream.length }

end AudioCall

namespace Client

/-- The client that a call leaves, and the bytes that are left to be read. -/
def audioCall (k : Client) (call : AudioCall) (rest : List UInt8) : Client × List UInt8 :=
  let (handled, input) := k.audioHandle (call.input rest) call.ok
  (if handled.2 then { handled.1 with sock := none } else handled.1, input.bytes)

/-- The messages of a stream are handled, one call for each, until the client is closed. -/
def handleAudio : Client → List UInt8 → List AudioCall → Client × List UInt8
  | k, type :: rest, call :: calls =>
    if k.sock = none ∨ type ≠ 255 then (k, type :: rest)
    else
      let (k, rest) := k.audioCall call rest
      handleAudio k rest calls
  | k, stream, _ => (k, stream)

/-- The calls that are made, with the client open. -/
def callsMade : Client → List UInt8 → List AudioCall → List AudioCall
  | k, type :: rest, call :: calls =>
    if k.sock = none ∨ type ≠ 255 then []
    else
      let (k, rest) := k.audioCall call rest
      call :: callsMade k rest calls
  | _, _, _ => []

end Client

end OnekvmVnc
