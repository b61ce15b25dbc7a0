import OnekvmVnc.AdminHID
import OnekvmVnc.Lib.Pieces
import OnekvmVnc.RingMapping

/-! The frames that OneKVM sends to the subscriptions of `src/protocol_ipc.cpp`, and how `ReadFrame` reads one from the
    socket. What the calls of `recv` find is given in the order in which they find it. -/

namespace OnekvmVnc

open Pieces

/-- What `recv` finds, or its errno. -/
abbrev Received := Piece UInt8 String

def headerSize : Nat := 40

def magic : List UInt8 := bytesOf "OKVF"

def infoFlagAudioAvailable : UInt8 := (1 : UInt8) <<< 0

def infoFlagEventsSupported : UInt8 := (1 : UInt8) <<< 2

def infoFlagValid : UInt8 := (1 : UInt8) <<< 7

inductive Codec where
  | h264
  | h265
  | mjpeg
  | opus
  deriving DecidableEq, Repr

/-- `IsCodec`, with the codec. -/
def codecOf (value : UInt8) : Option Codec :=
  if value = 1 then some .h264
  else if value = 2 then some .h265
  else if value = 3 then some .mjpeg
  else if value = 4 then some .opus
  else none

structure Frame where
  codec : Codec
  durationUs : UInt32
  width : UInt16
  height : UInt16
  audioAvailable : Bool := true
  eventsSupported : Bool := false
  payload : List UInt8
  deriving DecidableEq, Repr

def bigEndian (bytes : List UInt8) : Nat := bytes.foldl (fun n b => n * 256 + b.toNat) 0

def readBE16 (data : List UInt8) (offset : Nat) : UInt16 := UInt16.ofNat (bigEndian (substr data offset 2))

def readBE32 (data : List UInt8) (offset : Nat) : UInt32 := UInt32.ofNat (bigEndian (substr data offset 4))

/-- `ReadAll`, with what it leaves. -/
def readAll (size : Nat) (calls : List Received) : SocketOutcome (List UInt8) × List Received :=
  match take size [] calls with
  | (.waiting, rest) => (.waiting, rest)
  | (.ended, rest) => (.failed "media subscription closed", rest)
  | (.failed errno, rest) => (.failed ("read media subscription: " ++ errno), rest)
  | (.done bytes, rest) => (.done bytes, rest)

/-- What `ReadFrame` makes of a header: the frame without its payload, and the length of that. -/
def parseHeader (header : List UInt8) : Except String (Frame × Nat) :=
  match codecOf (header.getD 5 0) with
  | none => .error "invalid protocol frame header"
  | some codec =>
    if header.take 4 ≠ magic ∨ header.getD 4 0 ≠ 1 then .error "invalid protocol frame header"
    else
      let length := (readBE32 header 32).toNat
      if length > maxPayloadBytes then .error "invalid protocol frame payload length"
      else
        let flags := header.getD 7 0
        .ok ({ codec
               durationUs := readBE32 header 24
               width := readBE16 header 28
               height := readBE16 header 30
               audioAvailable := flags &&& infoFlagValid = 0 || flags &&& infoFlagAudioAvailable ≠ 0
               eventsSupported := flags &&& infoFlagValid ≠ 0 && flags &&& infoFlagEventsSupported ≠ 0
               payload := [] }, length)

/-- `ReadFrame`, with what it leaves. -/
def readFrame (calls : List Received) : SocketOutcome Frame × List Received :=
  match readAll headerSize calls with
  | (.waiting, calls) => (.waiting, calls)
  | (.failed error, calls) => (.failed error, calls)
  | (.done header, calls) =>
    match parseHeader header with
    | .error error => (.failed error, calls)
    | .ok (frame, length) =>
      match readAll length calls with
      | (.waiting, calls) => (.waiting, calls)
      | (.failed error, calls) => (.failed error, calls)
      | (.done payload, calls) => (.done { frame with payload }, calls)

/-- Calls of `ReadFrame` one after the other, up to the first one that fails. -/
def readFrames : Nat → List Received → SocketOutcome (List Frame) × List Received
  | 0, calls => (.done [], calls)
  | n + 1, calls =>
    match readFrame calls with
    | (.waiting, calls) => (.waiting, calls)
    | (.failed error, calls) => (.failed error, calls)
    | (.done frame, calls) =>
      match readFrames n calls with
      | (.waiting, calls) => (.waiting, calls)
      | (.failed error, calls) => (.failed error, calls)
      | (.done frames, calls) => (.done (frame :: frames), calls)

end OnekvmVnc
