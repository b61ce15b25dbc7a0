import Mathlib.Logic.Function.Basic
import OnekvmVnc.Client
import OnekvmVnc.Jpeg

/-! `VNCServer` of `src/vnc_server.cpp`: the latest frame, the decoder state and the clients. LibVNCServer
    keeps the clients in a list; each loop of the source goes over that list. -/

namespace OnekvmVnc

abbrev ClientPtr := Nat

structure Server where
  /-- `config_.fps`. -/
  fps : Nat
  audioAvailable : Bool
  width : UInt16
  height : UInt16
  framebuffer : List UInt16
  /-- Empty until a frame has been decoded. -/
  previousRGB : List UInt16 := []
  decodedSequence : Nat := 0
  latestFrame : Option JPEGFrame := none
  latestSequence : Nat := 0
  /-- 0 is `time_point{}`. -/
  lastJPEGSent : Int := 0
  lastFramebufferProcessed : Int := 0
  audioQueue : List (List Int16) := []
  subscription : Bool := false
  audioSubscription : Bool := false
  clientCount : Nat := 0
  /-- The size that LibVNCServer announces: `server_->width` and `server_->height`. -/
  screenWidth : UInt16
  screenHeight : UInt16
  /-- The list from `server_->clientHead`. -/
  clients : List ClientPtr := []
  client : ClientPtr → Client
  /-- `server_->allFds` and `server_->maxFd`. -/
  allFds : Finset Nat := ∅
  maxFd : Nat := 0

/-- A duration in microseconds, in nanoseconds. -/
def microseconds (n : Nat) : Int := n * 1000

namespace Server
variable (s : Server)

def modify (c : ClientPtr) (f : Client → Client) : Server := { s with client := Function.update s.client c (f (s.client c)) }

def pixels : Nat × Nat → Option UInt16 := pixelAt s.framebuffer s.width.toNat

def previous : Nat × Nat → Option UInt16 := pixelAt s.previousRGB s.width.toNat

/-! ### LibVNCServer -/

/-- The greatest set descriptor up to a bound, 0 without one. -/
def lowerMaxFd (fds : Finset Nat) : Nat → Nat
  | 0 => 0
  | n + 1 => if n + 1 ∈ fds then n + 1 else lowerMaxFd fds n

def rfbCloseClient (c : ClientPtr) : Server :=
  match (s.client c).sock with
  | none => s
  | some fd =>
    let allFds := s.allFds.erase fd
    { s.modify c fun k => { k with sock := none } with
      allFds, maxFd := if fd = s.maxFd then lowerMaxFd allFds s.maxFd else s.maxFd }

/-- `rfbClientConnectionGone`, with the count of `ClientGone`. -/
def rfbClientConnectionGone (c : ClientPtr) : Server :=
  { s with
    clients := s.clients.erase c
    clientCount := if s.clientCount > 0 then s.clientCount - 1 else s.clientCount }

/-- `rfbMarkRectAsModified`, for every client. -/
def rfbMarkRectAsModified (x1 y1 x2 y2 : Nat) : Server :=
  { s with client := fun c =>
    { s.client c with modifiedRegion := (s.client c).modifiedRegion ∪
      (rectRegion x1 y1 x2 y2 ∩ rectRegion 0 0 s.screenWidth.toNat s.screenHeight.toNat) } }

/-- `rfbNewFramebuffer`: everything is modified, and the new size is pending for every client. -/
def rfbNewFramebuffer (width height : UInt16) : Server :=
  { s with
    screenWidth := width
    screenHeight := height
    client := fun c =>
      { s.client c with
        modifiedRegion := rectRegion 0 0 width.toNat height.toNat
        newFBSizePending := true } }

def closeClients (clients : List ClientPtr) : Server :=
  clients.foldl (fun s c => (s.rfbCloseClient c).rfbClientConnectionGone c) s

/-! ### Frames, subscriptions and audio -/

def setFrame (frame : JPEGFrame) : Server :=
  { s with latestFrame := some frame, latestSequence := s.latestSequence + 1 }

def clearLatestFrame : Server :=
  { s with
    latestFrame := none
    latestSequence := 0
    lastJPEGSent := 0
    lastFramebufferProcessed := 0
    previousRGB := []
    decodedSequence := 0 }

def maxQueuedAudioFrames : Nat := 12

def queueAudio (pcm : List Int16) : Server :=
  if pcm = [] then s
  else { s with audioQueue := s.audioQueue.drop (s.audioQueue.length - (maxQueuedAudioFrames - 1)) ++ [pcm] }

def syncSubscription : Server :=
  if s.clientCount > 0 ∧ s.subscription = false then { s with subscription := true }
  else if s.clientCount = 0 ∧ s.subscription = true then { s with subscription := false }.clearLatestFrame
  else s

def syncAudioSubscription : Server :=
  if !s.audioAvailable then s
  else
    let wanted := s.clients.any fun c => (s.client c).data.audioEnabled
    if wanted && !s.audioSubscription then { s with audioSubscription := true }
    else if !wanted && s.audioSubscription then { s with audioSubscription := false, audioQueue := [] }
    else s

/-- The loop of `ProcessAudio`, with the clients to be closed. `ok` gives the outcome of each write. -/
def processAudioLoop (queued : List (List Int16)) (ok : ClientPtr → Nat → Bool) :
    Server → List ClientPtr → Server × List ClientPtr
  | s, [] => (s, [])
  | s, c :: rest =>
    let (k, close) := (s.client c).processAudio s.width s.height queued (ok c)
    let (t, closing) := processAudioLoop queued ok (s.modify c fun _ => k) rest
    (t, if close then c :: closing else closing)

def processAudio (ok : ClientPtr → Nat → Bool) : Server :=
  let (t, closing) := processAudioLoop s.audioQueue ok { s with audioQueue := [] } s.clients
  t.closeClients closing

/-! ### JPEG writes -/

def hasPendingJPEG : Bool := s.clients.any fun c => (s.client c).data.pendingJPEG.isSome

/-- `FlushJPEGWrites`, over the clients from `list` on. -/
def flushJPEGWrites (now : Int) (sendmsg : ClientPtr → SendResult) : Server → List ClientPtr → Server
  | s, [] => s
  | s, c :: rest =>
    let (k, close) := (s.client c).flushJPEG now (sendmsg c)
    let t := s.modify c fun _ => k
    flushJPEGWrites now sendmsg (if close then t.rfbCloseClient c else t) rest

/-! ### Frame processing -/

def maxFramebufferBytes : Nat := 64 <<< 20

/-- `AllocateFramebuffer`, which may also run out of memory. -/
def allocateFramebuffer (width height : UInt16) (memory : Bool) : Option (List UInt16) :=
  if width = 0 ∨ height = 0 ∨ width.toNat * height.toNat * 2 > maxFramebufferBytes ∨ !memory then none
  else some (List.replicate (width.toNat * height.toNat) 0)

/-- The loop of `Resize`, with the clients to be closed. `update` gives the outcome of each update. -/
def resizeLoop (update : ClientPtr → Option (List UInt8)) : Server → List ClientPtr → Server × List ClientPtr
  | s, [] => (s, [])
  | s, c :: rest =>
    let k := s.client c
    let (t, close) :=
      if !k.useNewFBSize then (s, true)
      else
        match k.sendFramebufferUpdate s.screenWidth s.screenHeight s.pixels s.pixels (update c) with
        | (k, false) => (s.modify c fun _ => k, true)
        | (k, true) =>
          let k := k.clearRegions
          (s.modify c fun _ => { k with
            data := { k.data with needUpdate := k.data.continuousEnabled, forceUpdate := false, lastSequence := 0 } }, false)
    let (t, closing) := resizeLoop update t rest
    (t, if close then c :: closing else closing)

/-- `Resize`, `none` if the framebuffer cannot be allocated. -/
def resize (width height : UInt16) (memory : Bool) (update : ClientPtr → Option (List UInt8)) : Option Server :=
  (allocateFramebuffer width height memory).map fun framebuffer =>
    let t := { s with framebuffer, width, height }.rfbNewFramebuffer width height
    let t := { t with previousRGB := [], decodedSequence := 0 }
    let (t, closing) := resizeLoop update t t.clients
    t.closeClients closing

/-- What the viewer makes of a frame: the pixels that decoding it gives, none if it fails. -/
def image (decoder : JPEGDecoder) (frame : JPEGFrame) (width height : UInt16) : Nat × Nat → Option UInt16 :=
  let (out, ok) := decoder.decodeJPEGToRGB565 frame.data (List.replicate (width.toNat * height.toNat) 0)
    width.toNat height.toNat
  if ok then pixelAt out width.toNat else fun _ => none

/-- The tiles that `DecodeLatestFrame` marks. -/
def markTiles (tiles : List TileRect) : Server :=
  tiles.foldl (fun s tile => s.rfbMarkRectAsModified tile.x tile.y (tile.x + tile.width) (tile.y + tile.height)) s

def decodeLatestFrame (decoder : JPEGDecoder) (frame : JPEGFrame) (sequence : Nat) : Server × Bool :=
  if s.decodedSequence = sequence ∧ s.previousRGB ≠ [] then (s, true)
  else
    let width := s.width.toNat
    let height := s.height.toNat
    let previousRGB := if s.previousRGB.length ≠ width * height then [] else s.previousRGB
    let (framebuffer, ok) := decoder.decodeJPEGToRGB565 frame.data s.framebuffer width height
    let t := { s with previousRGB, framebuffer }
    if !ok then (t, false)
    else
      let tiles := collectDirtyTiles (if previousRGB = [] then none else some previousRGB) framebuffer width height
      ({ t.markTiles tiles with previousRGB := framebuffer.take (width * height), decodedSequence := sequence }, true)

def jpegInterval : Int := microseconds (1000000 / s.fps)

/-- The tenth of `jpeg_interval` that the gate leaves, in whole microseconds. -/
def jpegSlack : Int := microseconds (1000000 / s.fps / 10)

def framebufferInterval : Int := microseconds (1000000 / max (min s.fps 15) 1)

/-- What happens around one `ProcessFrame`: the clock, the outcome of each fallback update and of each
    `sendmsg`, and whether a new framebuffer can be allocated. -/
structure FrameEnv where
  now : Int
  queued : ClientPtr → Int := fun _ => now
  flushed : Int := now
  memory : Bool := true
  update : ClientPtr → Option (List UInt8)
  sendmsg : ClientPtr → SendResult

/-- The client waits for an update, and no JPEG is being written to it. -/
def waiting (k : Client) (sequence : Nat) : Bool :=
  !(k.data.pendingJPEG.isSome || !k.data.needUpdate || (!k.data.forceUpdate && k.data.lastSequence = sequence))

/-- The rate limiter skips the client. -/
def paced (k : Client) (now : Int) : Bool :=
  if k.wantsDirectJPEG then
    s.lastJPEGSent ≠ 0 && now - s.lastJPEGSent < s.jpegInterval - s.jpegSlack && !k.data.forceUpdate
  else
    s.lastFramebufferProcessed ≠ 0 && now - s.lastFramebufferProcessed < s.framebufferInterval && !k.data.forceUpdate

end Server

/-- The locals of the loop of `ProcessFrame`. -/
structure FrameLoop where
  server : Server
  sentJPEG : Bool := false
  sentFramebuffer : Bool := false
  decoded : Bool := false
  closing : List ClientPtr := []

/-- The flags after an update has been delivered. -/
def Client.served (k : Client) (sequence : Nat) : Client :=
  { k with data := { k.data with
      needUpdate := k.data.continuousEnabled, forceUpdate := false, lastSequence := sequence } }

namespace FrameLoop
variable (l : FrameLoop)

def close (c : ClientPtr) : FrameLoop := { l with closing := l.closing ++ [c] }

/-- A client with direct JPEG is served. -/
def serveJPEG (decoder : JPEGDecoder) (env : Server.FrameEnv) (frame : JPEGFrame) (sequence : Nat) (c : ClientPtr) :
    FrameLoop :=
  let k := l.server.client c
  let image := Server.image decoder frame l.server.width l.server.height
  let (k, ok) :=
    if k.wantsNativeJPEG then k.sendNativeJPEG frame (env.queued c) image l.server.previous
    else k.sendJPEG frame (env.queued c) image l.server.previous
  if ok then { l with server := l.server.modify c fun _ => k.served sequence, sentJPEG := true } else l.close c

/-- A fallback client is sent the decoded framebuffer. -/
def serveFramebuffer (decoder : JPEGDecoder) (env : Server.FrameEnv) (frame : JPEGFrame) (sequence : Nat)
    (c : ClientPtr) : FrameLoop :=
  let k := l.server.client c
  let image := Server.image decoder frame l.server.width l.server.height
  let (k, delivery) := k.sendFramebuffer l.server.width l.server.height l.server.pixels image k.data.forceUpdate
    (env.update c)
  match delivery with
  | .failed => { l with server := l.server.modify c fun _ => k }.close c
  | .unchanged => { l with server := l.server.modify c fun _ => k }
  | .sent => { l with server := l.server.modify c fun _ => k.served sequence, sentFramebuffer := true }

/-- A fallback client is served, once the frame is decoded. -/
def serveFallback (decoder : JPEGDecoder) (env : Server.FrameEnv) (frame : JPEGFrame) (sequence : Nat)
    (c : ClientPtr) : FrameLoop :=
  if l.decoded then l.serveFramebuffer decoder env frame sequence c
  else
    match l.server.decodeLatestFrame decoder frame sequence with
    | (server, false) => { l with server }.close c
    | (server, true) => { l with server, decoded := true }.serveFramebuffer decoder env frame sequence c

/-- One round of the loop of `ProcessFrame`. -/
def client (decoder : JPEGDecoder) (env : Server.FrameEnv) (frame : JPEGFrame) (sequence : Nat) (c : ClientPtr) :
    FrameLoop :=
  let k := l.server.client c
  if !Server.waiting k sequence then l
  else
    let l := { l with server := l.server.modify c fun k => { k with data := { k.data with loggedEncoding := true } } }
    if l.server.paced k env.now then l
    else if k.wantsDirectJPEG then l.serveJPEG decoder env frame sequence c
    else l.serveFallback decoder env frame sequence c

end FrameLoop

namespace Server
variable (s : Server)

/-- `last_jpeg_sent_` after frames were sent at `now`: it advances in whole intervals. -/
def advanceJPEGSent (now : Int) : Int :=
  if s.lastJPEGSent = 0 then now
  else
    let sent := s.lastJPEGSent + s.jpegInterval
    if sent + s.jpegInterval ≤ now then sent + s.jpegInterval * ((now - sent).tdiv s.jpegInterval) else sent

/-- The end of `ProcessFrame`: closed clients go, the schedules move on and JPEG writes are tried. -/
def finishFrame (env : FrameEnv) (l : FrameLoop) : Server :=
  let t := l.server.closeClients l.closing
  let t :=
    if l.sentJPEG then
      let t := { t with lastJPEGSent := t.advanceJPEGSent env.now }
      flushJPEGWrites env.flushed env.sendmsg t t.clients
    else t
  if l.sentFramebuffer || l.decoded then { t with lastFramebufferProcessed := env.now } else t

/-- `ProcessFrame`, `none` if it fails and the server ends. -/
def processFrame (decoder : JPEGDecoder) (env : FrameEnv) : Option Server :=
  match s.latestFrame with
  | none => some s
  | some frame =>
    if s.latestSequence = 0 then some s
    else if frame.width ≠ s.width ∨ frame.height ≠ s.height then
      if s.hasPendingJPEG then some s else s.resize frame.width frame.height env.memory env.update
    else
      let l := s.clients.foldl (fun l c => l.client decoder env frame s.latestSequence c) { server := s }
      some (finishFrame env l)

end Server

end OnekvmVnc
