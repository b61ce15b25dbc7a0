import Mathlib.Algebra.GroupWithZero.Nat
import Mathlib.Data.Finset.Prod
import Mathlib.Order.Interval.Finset.Nat
import OnekvmVnc.Audio

/-! A client of `src/vnc_server.cpp`: what LibVNCServer keeps of it, its `ClientData`, and what reaches
    the viewer at the other end. The functions here change one client only; `Server` puts them together. -/

namespace OnekvmVnc

/-- A set of pixels, as LibVNCServer's regions are. -/
abbrev Region := Finset (Nat × Nat)

/-- The pixels of a rectangle. -/
def rectRegion (x1 y1 x2 y2 : Nat) : Region := Finset.Ico x1 x2 ×ˢ Finset.Ico y1 y2

/-- The pixel of a framebuffer, row by row. -/
def pixelAt (framebuffer : List UInt16) (width : Nat) (p : Nat × Nat) : Option UInt16 :=
  framebuffer[p.2 * width + p.1]?

/-- A frame of the media subscription, with an owner. -/
structure JPEGFrame where
  data : List UInt8
  width : UInt16
  height : UInt16
  durationUs : UInt32 := 0
  deriving DecidableEq, Repr

def be16 (value : UInt16) : List UInt8 := [(value >>> 8).toUInt8, value.toUInt8]

def be32 (value : UInt32) : List UInt8 :=
  [(value >>> 24).toUInt8, (value >>> 16).toUInt8, (value >>> 8).toUInt8, value.toUInt8]

def nativeJPEGEncoding : Int := 21

def qemuAudioEncoding : Int := -259

def rfbEncodingTight : Int := 7

/-- A `FramebufferUpdate` message with the header of its only rectangle, at the origin. -/
def updateHeader (width height : UInt16) (encoding : Int) : List UInt8 :=
  [0, 0] ++ be16 1 ++ be16 0 ++ be16 0 ++ be16 width ++ be16 height ++ be32 (UInt32.ofInt encoding)

/-- The control byte of a Tight JPEG rectangle and its compact length. -/
def tightHeader (size : Nat) : List UInt8 :=
  [0x90, (size &&& 0x7f).toUInt8 ||| (if size > 0x7f then 0x80 else 0)] ++
    if size > 0x7f then
      [((size >>> 7) &&& 0x7f).toUInt8 ||| (if size > 0x3fff then 0x80 else 0)] ++
        if size > 0x3fff then [((size >>> 14) &&& 0xff).toUInt8] else []
    else []

/-- A QEMU audio message of a client. -/
inductive AudioMessage where
  | enable
  | disable
  | setFormat (format : AudioFormat)
  deriving DecidableEq, Repr

/-- What a client sent and was handled, what was sent to it, and which audio packets were converted for it. -/
inductive ClientEvent where
  | request (region : Region) (incremental : Bool)
  | continuousUpdates (enabled : Bool)
  | audioMessage (message : AudioMessage)
  | audioPacket (source : List Int16)
  | serverInit (width height : UInt16) (bytes : List UInt8)
  | newFBSize (width height : UInt16) (bytes : List UInt8)
  /-- An update of the requested `region`: where the viewer then shows something else than the latest
      frame, and which pixels of `Client.base` were not marked as modified. -/
  | update (region stale unmarked : Region) (bytes : List UInt8)
  | jpeg (frame : JPEGFrame) (header : List UInt8)
  | audioCapability (width height : UInt16)
  | audioControl (operation : UInt16)
  | audioData (pcm : List UInt8)
  | reply (bytes : List UInt8)
  deriving DecidableEq

namespace ClientEvent

/-- The RFB message that the server sent, empty for what it only received or converted. -/
def bytes : ClientEvent → List UInt8
  | .serverInit _ _ bytes | .newFBSize _ _ bytes | .update _ _ _ bytes | .reply bytes => bytes
  | .jpeg frame header => header ++ frame.data
  | .audioCapability width height => updateHeader width height qemuAudioEncoding
  | .audioControl operation => [255, 1] ++ be16 operation
  | .audioData pcm => [255, 1] ++ be16 2 ++ be32 (UInt32.ofNat pcm.length) ++ pcm
  | _ => []

def isOutput : ClientEvent → Bool
  | .request .. | .continuousUpdates _ | .audioMessage _ | .audioPacket _ => false
  | _ => true

def isJPEG : ClientEvent → Bool
  | .jpeg .. => true
  | _ => false

/-- Where the viewer shows something else than the latest frame after an update of the region. -/
def stale : ClientEvent → Region
  | .update _ stale _ _ => stale
  | _ => ∅

/-- Where the client's base was not marked as modified before an update of the region. -/
def unmarked : ClientEvent → Region
  | .update _ _ unmarked _ => unmarked
  | _ => ∅

end ClientEvent

/-- An event, and whether a JPEG was still being written to the client when it happened. -/
structure HistoryEntry where
  event : ClientEvent
  pending : Bool
  deriving DecidableEq

structure ClientData where
  needUpdate : Bool := false
  forceUpdate : Bool := false
  continuousSupported : Bool := false
  continuousEnabled : Bool := false
  audioSupported : Bool := false
  audioCapabilityPending : Bool := false
  audioEnabled : Bool := false
  audioStarted : Bool := false
  audioFormat : AudioFormat := {}
  audioResamplePosition : Nat := 0
  deferredAudio : List (List Int16) := []
  deferredAudioSamples : Nat := 0
  loggedEncoding : Bool := false
  lastSequence : Nat := 0
  pendingJPEG : Option JPEGFrame := none
  /-- The first `jpeg_header_size` bytes of `jpeg_header`. -/
  jpegHeader : List UInt8 := []
  jpegWritten : Nat := 0
  jpegEncoding : Int := 0
  jpegStarted : Int := 0

/-- `rfbClientRec`, with its `ClientData` and the viewer behind it. -/
structure Client where
  /-- `none` is `RFB_INVALID_SOCKET`. -/
  sock : Option Nat
  /-- The handshake is over: `RFB_NORMAL`. -/
  normal : Bool := false
  requestedRegion : Region := ∅
  modifiedRegion : Region := ∅
  preferredEncoding : Int := -1
  tightQualityLevel : Int := -1
  turboQualityLevel : Int := -1
  useNewFBSize : Bool := false
  newFBSizePending : Bool := false
  ublen : Nat := 0
  data : ClientData := {}
  /-- The bytes written to the socket. -/
  wire : List UInt8 := []
  history : List HistoryEntry := []
  /-- What the viewer shows once it has received everything that was sent. -/
  display : Nat × Nat → Option UInt16 := fun _ => none
  /-- The framebuffer size that the viewer was last told. -/
  announced : Option (UInt16 × UInt16) := none
  /-- The pixels that the viewer shows from a JPEG frame, where that frame differed from `previous_rgb_`
      when it was queued. -/
  base : Region := ∅

namespace Client
variable (k : Client)

def record (event : ClientEvent) : Client :=
  { k with history := k.history ++ [{ event, pending := k.data.pendingJPEG.isSome }] }

/-- A whole message is written to the socket. -/
def output (event : ClientEvent) : Client := { k.record event with wire := k.wire ++ event.bytes }

/-- `rfbWriteExact`, which writes a whole message or fails. -/
def writeExact (event : ClientEvent) (ok : Bool) : Client × Bool :=
  if k.sock.isSome && ok then (k.output event, true) else (k, false)

/-- `ClearClientRegions`. -/
def clearRegions : Client := { k with requestedRegion := ∅, modifiedRegion := ∅ }

/-- `ClientWantsTightJPEG`. -/
def wantsTightJPEG : Bool := k.tightQualityLevel ≥ 0 || k.turboQualityLevel ≥ 0

/-- `ClientWantsNativeJPEG`. -/
def wantsNativeJPEG : Bool := k.preferredEncoding = nativeJPEGEncoding

/-- `direct_jpeg`: the client is served with JPEG, not with the decoded framebuffer. -/
def wantsDirectJPEG : Bool := k.wantsNativeJPEG || k.wantsTightJPEG

/-! ### Direct JPEG -/

/-- `QueueJPEG`. `image` is what the viewer makes of the frame, `previous` the frame last decoded here. -/
def queueJPEG (frame : JPEGFrame) (encoding : Int) (now : Int) (image previous : Nat × Nat → Option UInt16) :
    Client × Bool :=
  if k.data.pendingJPEG.isSome || k.ublen ≠ 0 then (k, false)
  else
    let header := updateHeader frame.width frame.height encoding ++
      if encoding = rfbEncodingTight then tightHeader frame.data.length else []
    let k := k.record (.jpeg frame header)
    let k := { k with
      data := { k.data with
        pendingJPEG := some frame, jpegHeader := header, jpegWritten := 0, jpegEncoding := encoding, jpegStarted := now }
      display := image
      base := (rectRegion 0 0 frame.width.toNat frame.height.toNat).filter fun p =>
        (previous p).isSome ∧ image p ≠ previous p }
    (k.clearRegions, true)

def sendJPEG (frame : JPEGFrame) (now : Int) (image previous : Nat × Nat → Option UInt16) : Client × Bool :=
  if frame.data.length = 0 ∨ frame.data.length > 0x3fffff then (k, false)
  else k.queueJPEG frame rfbEncodingTight now image previous

def sendNativeJPEG (frame : JPEGFrame) (now : Int) (image previous : Nat × Nat → Option UInt16) : Client × Bool :=
  let size := frame.data.length
  if size < 4 ∨ size > 2147483647 ∨ frame.data[0]? ≠ some 0xff ∨ frame.data[1]? ≠ some 0xd8 ∨
      frame.data[size - 2]? ≠ some 0xff ∨ frame.data[size - 1]? ≠ some 0xd9 then (k, false)
  else k.queueJPEG frame nativeJPEGEncoding now image previous

end Client

/-- The outcome of a nonblocking `sendmsg`: a byte count, a blocked or interrupted call, or an error. -/
inductive SendResult where
  | sent (count : Nat)
  | again
  | error
  deriving DecidableEq, Repr

namespace Client
variable (k : Client)

/-- `FlushJPEGWrites` for one client: the client after it, and whether it is to be closed. -/
def flushJPEG (now : Int) (result : SendResult) : Client × Bool :=
  match k.sock, k.data.pendingJPEG with
  | some _, some frame =>
    if now - k.data.jpegStarted > 2000000000 then ({ k with data := { k.data with pendingJPEG := none } }, true)
    else
      let rest := k.data.jpegHeader.drop k.data.jpegWritten ++
        frame.data.drop (k.data.jpegWritten - k.data.jpegHeader.length)
      match result with
      | .again => (k, false)
      | .error => ({ k with data := { k.data with pendingJPEG := none } }, true)
      | .sent count =>
        let sent := rest.take count
        let written := k.data.jpegWritten + sent.length
        ({ k with
            wire := k.wire ++ sent
            data := { k.data with
              jpegWritten := written
              pendingJPEG := if written = k.data.jpegHeader.length + frame.data.length then none else some frame } },
          false)
  | _, _ => (k, false)

/-- An `iovec` of `FlushJPEGWrites`, with the buffer that it points into. -/
structure JPEGChunk where
  buffer : List UInt8
  offset : Nat
  length : Nat
  deriving DecidableEq, Repr

def JPEGChunk.bytes (chunk : JPEGChunk) : List UInt8 := (chunk.buffer.drop chunk.offset).take chunk.length

/-- The scatter list that `FlushJPEGWrites` passes to `sendmsg`. -/
def jpegChunks (frame : JPEGFrame) : List JPEGChunk :=
  let headerSize := k.data.jpegHeader.length
  let offset := if k.data.jpegWritten > headerSize then k.data.jpegWritten - headerSize else 0
  (if k.data.jpegWritten < headerSize then
      [{ buffer := k.data.jpegHeader, offset := k.data.jpegWritten, length := headerSize - k.data.jpegWritten }]
    else []) ++
    [{ buffer := frame.data, offset, length := frame.data.length - offset }]

/-! ### The RGB fallback -/

/-- What the viewer shows after an update with the given pixels. -/
def shown (pixels : Nat × Nat → Option UInt16) (p : Nat × Nat) : Option UInt16 :=
  if p ∈ k.modifiedRegion ∩ k.requestedRegion then pixels p else k.display p

/-- `rfbSendFramebufferUpdate`, which writes a whole message (`some`) or fails: the new size, if one is
    pending, or else the pixels of the modified part of the requested region. -/
def sendFramebufferUpdate (width height : UInt16) (pixels latest : Nat × Nat → Option UInt16)
    (result : Option (List UInt8)) : Client × Bool :=
  match k.sock, result with
  | some _, some bytes =>
    if k.useNewFBSize && k.newFBSizePending then
      ({ k.output (.newFBSize width height bytes) with
          newFBSizePending := false, announced := some (width, height) }, true)
    else
      let delivered := k.modifiedRegion ∩ k.requestedRegion
      let stale := k.requestedRegion.filter fun p => k.shown pixels p ≠ latest p
      let unmarked := (k.base ∩ k.requestedRegion) \ k.modifiedRegion
      ({ k.output (.update k.requestedRegion stale unmarked bytes) with
          display := k.shown pixels
          modifiedRegion := k.modifiedRegion \ delivered
          base := k.base \ delivered
          requestedRegion := ∅ }, true)
  | _, _ => (k, false)

/-- What became of `SendFramebuffer`: it failed, there was nothing to send, or an update was sent. -/
inductive Delivery where
  | failed
  | unchanged
  | sent
  deriving DecidableEq, Repr

/-- The regions that `SendFramebuffer` adds for a forced update and for continuous updates. -/
def growRegions (width height : UInt16) (forceUpdate : Bool) : Client :=
  let region := rectRegion 0 0 width.toNat height.toNat
  { k with
    modifiedRegion := if forceUpdate then k.modifiedRegion ∪ region else k.modifiedRegion
    requestedRegion := if k.data.continuousEnabled then k.requestedRegion ∪ region else k.requestedRegion }

def sendFramebuffer (width height : UInt16) (pixels latest : Nat × Nat → Option UInt16) (forceUpdate : Bool)
    (result : Option (List UInt8)) : Client × Delivery :=
  let k := k.growRegions width height forceUpdate
  if k.modifiedRegion ∩ k.requestedRegion = ∅ then (k, .unchanged)
  else
    let (k, ok) := k.sendFramebufferUpdate width height pixels latest result
    (k, if ok then .sent else .failed)

/-! ### Audio -/

def maxDeferredAudioSamples : Nat := opusSampleRate

def sendAudioData (pcm : List UInt8) (ok : Bool) : Client × Bool :=
  if pcm = [] then (k, true)
  else if pcm.length > 2147483647 - 8 then (k, false)
  else k.writeExact (.audioData pcm) ok

/-- The deferred packets are converted and sent, up to the first one that fails. -/
def sendDeferred : Client → (Nat → Bool) → List (List Int16) → Client × Bool
  | k, _, [] => (k, true)
  | k, ok, source :: rest =>
    let (pcm, position) := convertAudio source k.data.audioFormat k.data.audioResamplePosition
    let k := k.record (.audioPacket source)
    let k := { k with data := { k.data with audioResamplePosition := position } }
    let (k, sent) := k.sendAudioData pcm (ok 0)
    if sent then sendDeferred k (fun n => ok (n + 1)) rest else (k, false)

/-- The packets of this `ProcessAudio` join the deferred ones. -/
def deferAudio (queued : List (List Int16)) : Client :=
  if k.data.audioEnabled then
    { k with
      data := { k.data with
        deferredAudio := k.data.deferredAudio ++ queued
        deferredAudioSamples := k.data.deferredAudioSamples + (queued.map List.length).sum } }
  else k

/-- The capability rectangle, if it is pending. -/
def sendAudioCapability (width height : UInt16) (ok : Bool) : Client × Bool :=
  if k.data.audioCapabilityPending then
    let (k, sent) := k.writeExact (.audioCapability width height) ok
    if sent then ({ k with data := { k.data with audioCapabilityPending := false } }, true) else (k, false)
  else (k, true)

/-- The audio stream begins, if it has not. -/
def beginAudio (ok : Bool) : Client × Bool :=
  if k.data.audioStarted then (k, true)
  else
    let (k, sent) := k.writeExact (.audioControl 1) ok
    if sent then ({ k with data := { k.data with audioStarted := true } }, true) else (k, false)

/-- `ProcessAudio` for one client: the client after it, and whether it is to be closed. -/
def processAudio (width height : UInt16) (queued : List (List Int16)) (ok : Nat → Bool) : Client × Bool :=
  let k := k.deferAudio queued
  if k.data.audioEnabled && k.data.deferredAudioSamples > maxDeferredAudioSamples then (k, true)
  else if k.data.pendingJPEG.isSome then (k, false)
  else
    let (k, sent) := k.sendAudioCapability width height (ok 0)
    if !sent then (k, true)
    else if !k.data.audioEnabled || k.data.deferredAudio = [] then (k, false)
    else
      let (k, sent) := k.beginAudio (ok 1)
      if !sent then (k, true)
      else
        let (k, sent) := k.sendDeferred (fun n => ok (n + 2)) k.data.deferredAudio
        ({ k with data := { k.data with deferredAudio := [], deferredAudioSamples := 0 } }, !sent)

end Client

end OnekvmVnc
