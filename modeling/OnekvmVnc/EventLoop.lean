import Mathlib.Order.Lattice.Nat
import OnekvmVnc.Server

/-! The event loop of `src/vnc_server.cpp`: `PollClientEvents` with the message handlers that
    `rfbCheckFds` calls, and the steps of `Run` among the callbacks of the other threads. -/

namespace OnekvmVnc

/-- What a client's socket holds: the bytes that have arrived, and those that arrive while the library
    waits for them. -/
structure SocketInput where
  available : List UInt8
  later : List UInt8 := []
  deriving DecidableEq, Repr

namespace SocketInput

/-- `recv` of one byte with `MSG_PEEK`. -/
def peek (input : SocketInput) : Option UInt8 := input.available.head?

/-- `rfbReadExact`: the bytes and the rest, `none` if the client goes before they arrive. -/
def readExact (input : SocketInput) (size : Nat) : Option (List UInt8 × SocketInput) :=
  if input.available.length + input.later.length < size then none
  else
    some ((input.available ++ input.later).take size,
      { available := input.available.drop size, later := input.later.drop (size - input.available.length) })

end SocketInput

/-- The encodings of a `SetEncodings` message, as the library sorts them out. -/
structure Encodings where
  preferred : Int := -1
  tightQuality : Int := -1
  turboQuality : Int := -1
  newFBSize : Bool := false
  nativeJPEG : Bool := false
  audio : Bool := false
  continuous : Bool := false
  deriving DecidableEq, Repr

inductive ClientMessage where
  /-- Anything the library deals with on its own, with its reply and what that leaves in its buffer. -/
  | other (reply : List UInt8) (ublen : Nat)
  | clientInit (serverInit : List UInt8)
  | setEncodings (encodings : Encodings)
  | updateRequest (x y width height : Nat) (incremental : Bool)
  | continuousUpdates (input : SocketInput)
  | audio (input : SocketInput) (ok : Bool)
  | close
  deriving DecidableEq, Repr

namespace Client
variable (k : Client)

/-- The library's own part of `SetEncodings`, then `NativeJPEGEnableEncoding`, `AudioEnableEncoding` and
    `ContinuousEnablePseudoEncoding`. -/
def setEncodings (e : Encodings) (audioAvailable : Bool) : Client :=
  let audio := e.audio && audioAvailable
  { k with
    preferredEncoding := if e.nativeJPEG then nativeJPEGEncoding else e.preferred
    tightQualityLevel := e.tightQuality
    turboQualityLevel := e.turboQuality
    useNewFBSize := e.newFBSize
    data := { k.data with
      audioSupported := k.data.audioSupported || audio
      audioCapabilityPending := k.data.audioCapabilityPending || audio
      continuousSupported := k.data.continuousSupported || e.continuous } }

/-- The library's part of a `FramebufferUpdateRequest`, then `FramebufferUpdateRequested`. -/
def framebufferUpdateRequested (region : Region) (incremental : Bool) : Client :=
  let k := k.record (.request region incremental)
  { k with
    requestedRegion := k.requestedRegion ∪ region
    modifiedRegion := if incremental then k.modifiedRegion else k.modifiedRegion ∪ region
    data := { k.data with needUpdate := true, forceUpdate := k.data.forceUpdate || !incremental } }

/-- `ContinuousHandleMessage`: the client after it, and whether it is to be closed. -/
def continuousHandleMessage (input : SocketInput) : Client × Bool :=
  if !k.data.continuousSupported then (k, true)
  else
    match input.readExact 9 with
    | none => (k, true)
    | some (payload, _) =>
      let enabled := payload[0]? ≠ some 0
      let k := k.record (.continuousUpdates enabled)
      ({ k with
          data := { k.data with continuousEnabled := enabled, needUpdate := enabled, forceUpdate := enabled } }, false)

/-- `SendAudioControl` with `kQEMUAudioEnd`, if the stream has begun. -/
def endAudio (ok : Bool) : Client × Bool := if k.data.audioStarted then k.writeExact (.audioControl 0) ok else (k, true)

/-- `kQEMUAudioDisable`: the stream ends even if the message saying so is not sent. -/
def disableAudio (ok : Bool) : Client × Bool :=
  let k := k.record (.audioMessage .disable)
  let (k, sent) := k.endAudio ok
  ({ k with
      data := { k.data with
        audioEnabled := false
        audioStarted := false
        deferredAudio := []
        deferredAudioSamples := 0
        audioResamplePosition := 0 } }, !sent)

/-- `kQEMUAudioSetFormat`, for the six bytes of a format. -/
def setAudioFormat (format : List UInt8) (ok : Bool) : Client × Bool :=
  let sampleFormat := format.getD 0 0
  let channels := format.getD 1 0
  let frequency := (format.drop 2).foldl (fun n b => n * 256 + b.toNat) 0
  if sampleFormat > 5 ∨ (channels ≠ 1 ∧ channels ≠ 2) ∨ frequency = 0 ∨ frequency > opusSampleRate then (k, true)
  else
    let (k, sent) := k.endAudio ok
    if !sent then (k, true)
    else
      let k := k.record (.audioMessage (.setFormat { sampleFormat, channels, frequency }))
      ({ k with
          data := { k.data with
            audioStarted := false
            audioFormat := { sampleFormat, channels, frequency }
            audioResamplePosition := 0 } }, false)

/-- `AudioHandleMessage`, after the type byte has been read. -/
def audioHandleMessage (input : SocketInput) (ok : Bool) : Client × Bool :=
  match input.peek with
  | none => (k, true)
  | some subtype =>
    if subtype ≠ 1 then (k, true)
    else
      match input.readExact 3 with
      | none => (k, true)
      | some (header, input) =>
        if !k.data.audioSupported then (k, true)
        else
          let operation := (header.getD 1 0).toNat * 256 + (header.getD 2 0).toNat
          if operation = 0 then
            let k := k.record (.audioMessage .enable)
            ({ k with data := { k.data with audioEnabled := true, audioResamplePosition := 0 } }, false)
          else if operation = 1 then k.disableAudio ok
          else if operation = 2 then
            match input.readExact 6 with
            | none => (k, true)
            | some (format, _) => k.setAudioFormat format ok
          else (k, true)

/-- The handling of a message: the client after it, and whether it is to be closed. The size is that of
    the screen, which `ServerInit` announces and to which requests are clipped. -/
def handle (width height : UInt16) (audioAvailable : Bool) : ClientMessage → Client × Bool
  | .other reply ublen => ({ k.output (.reply reply) with ublen }, false)
  | .clientInit serverInit =>
    if k.normal then (k, true)
    else
      ({ k.output (.serverInit width height serverInit) with normal := true, announced := some (width, height) }, false)
  | .setEncodings e => if k.normal then (k.setEncodings e audioAvailable, false) else (k, true)
  | .updateRequest x y w h incremental =>
    if k.normal then
      let region := rectRegion x y (x + w) (y + h) ∩ rectRegion 0 0 width.toNat height.toNat
      (k.framebufferUpdateRequested region incremental, false)
    else (k, true)
  | .continuousUpdates input => if k.normal then k.continuousHandleMessage input else (k, true)
  | .audio input ok => if k.normal then k.audioHandleMessage input ok else (k, true)
  | .close => (k, true)

end Client

/-- What `rfbCheckFds` does: it accepts a connection, or reads a message from a readable socket. -/
inductive LibraryEvent where
  | accept (client : ClientPtr) (fd : Nat) (version : List UInt8)
  | message (client : ClientPtr) (message : ClientMessage)
  deriving DecidableEq, Repr

/-- What happens around one `PollClientEvents`. -/
structure PollEnv where
  now : Int
  sendmsg : ClientPtr → SendResult
  events : List LibraryEvent

namespace Server
variable (s : Server)

/-- A new client, with the library's initial regions and the `ClientData` of `NewClient`. -/
def newClient (fd : Nat) (version : List UInt8) : Client :=
  Client.output
    { sock := some fd, modifiedRegion := rectRegion 0 0 s.screenWidth.toNat s.screenHeight.toNat } (.reply version)

def accept (c : ClientPtr) (fd : Nat) (version : List UInt8) : Server :=
  { s.modify c fun _ => s.newClient fd version with
    clients := c :: s.clients
    clientCount := s.clientCount + 1
    allFds := insert fd s.allFds
    maxFd := max s.maxFd fd }

def handle (c : ClientPtr) (message : ClientMessage) : Server :=
  let (k, close) := (s.client c).handle s.screenWidth s.screenHeight s.audioAvailable message
  let t := s.modify c fun _ => k
  if close then t.rfbCloseClient c else t

/-- The client's socket is open and polled for input. -/
def readable (c : ClientPtr) : Bool :=
  match (s.client c).sock with
  | some fd => fd ∈ s.allFds
  | none => false

/-- One event of `rfbCheckFds`, `none` where it cannot happen: a new connection gets a descriptor that no
    open client has, and only readable sockets are read. -/
def checkFd : LibraryEvent → Option Server
  | .accept c fd version =>
    if c ∉ s.clients ∧ fd ∉ s.allFds ∧ ∀ d ∈ s.clients, (s.client d).sock ≠ some fd then some (s.accept c fd version)
    else none
  | .message c message => if c ∈ s.clients ∧ s.readable c = true then some (s.handle c message) else none

def rfbCheckFds (events : List LibraryEvent) : Option Server := events.foldlM checkFd s

def reapClosed : Server → List ClientPtr → Server
  | s, [] => s
  | s, c :: rest => reapClosed (if (s.client c).sock = none then s.rfbClientConnectionGone c else s) rest

/-- The clients with a JPEG to be written, and their descriptors. -/
def deferred : List (ClientPtr × Nat) :=
  s.clients.filterMap fun c =>
    match (s.client c).sock with
    | some fd => if (s.client c).data.pendingJPEG.isSome then some (c, fd) else none
    | none => none

def clearFds (fds : List (ClientPtr × Nat)) : Server := { s with allFds := s.allFds \ (fds.map (·.2)).toFinset }

/-- The descriptors of the deferred clients that are still there are read again. -/
def restoreFds : Server → List (ClientPtr × Nat) → Server
  | s, [] => s
  | s, (c, fd) :: rest =>
    restoreFds
      (if c ∈ s.clients ∧ (s.client c).sock = some fd then
        { s with allFds := insert fd s.allFds, maxFd := max s.maxFd fd } else s) rest

/-- `PollClientEvents`, `none` where the events cannot happen. -/
def pollClientEvents (env : PollEnv) : Option Server :=
  let t := flushJPEGWrites env.now env.sendmsg s s.clients
  let t := reapClosed t t.clients
  let deferred := t.deferred
  ((t.clearFds deferred).rfbCheckFds env.events).map fun t =>
    let t := restoreFds t deferred
    reapClosed t t.clients

end Server

/-- A step of `Run`, or a callback of the media and audio threads. -/
inductive ServerAction where
  | setFrame (frame : JPEGFrame)
  | queueAudio (pcm : List Int16)
  | pollClientEvents (env : PollEnv)
  | syncSubscription
  | syncAudioSubscription
  | processAudio (ok : ClientPtr → Nat → Bool)
  | processFrame (env : Server.FrameEnv)

namespace Server

/-- One step, `none` where it cannot happen or ends the server. -/
def step (decoder : JPEGDecoder) (s : Server) : ServerAction → Option Server
  | .setFrame frame => some (s.setFrame frame)
  | .queueAudio pcm => some (s.queueAudio pcm)
  | .pollClientEvents env => s.pollClientEvents env
  | .syncSubscription => some s.syncSubscription
  | .syncAudioSubscription => some s.syncAudioSubscription
  | .processAudio ok => some (s.processAudio ok)
  | .processFrame env => s.processFrame decoder env

/-- The server as constructed, with its listening sockets. -/
def start (fps : Nat) (audioAvailable : Bool) (width height : UInt16) (listening : Finset Nat) : Server :=
  { fps
    audioAvailable
    width
    height
    framebuffer := List.replicate (width.toNat * height.toNat) 0
    screenWidth := width
    screenHeight := height
    client := fun _ => { sock := none }
    allFds := listening
    maxFd := listening.sup id }

end Server

end OnekvmVnc
