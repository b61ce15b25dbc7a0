import OnekvmVnc.Sink.Consumers
import OnekvmVnc.Sink.Input
import OnekvmVnc.Sink.Jpeg
import OnekvmVnc.Sink.Raw

/-! `clientFramebufferState` in `internal/vnc/sink.go`, which decides what a client of `Sink` is sent. The goroutine of
    `runClient` and the one of `continuousUpdater` call `Write`, and `runClient` calls `SetEncoding` and reports input in
    between. What `Write` finds in the sink is an input of the step. -/

namespace OnekvmVnc

/-! ### Updates -/

/-- The rectangle of an update. `seq` is the number of the payload. -/
inductive SinkRectangle where
  | desktopSize (width height : UInt16)
  | raw (rect : RawRectangle)
  | tight (rectangle : TightRectangle) (seq : Nat)
  | h264 (width height : UInt16) (frame : H264Frame)
  deriving DecidableEq, Repr

/-- What `writeFramebuffer` comes to, on a connection that takes what it writes. -/
inductive UpdateReply where
  | failed (error : String)
  /-- The error of `currentFrame`. -/
  | unconverted (failure : ConvertFailure)
  /-- An update without rectangles. -/
  | empty
  | rectangle (rectangle : SinkRectangle)
  deriving DecidableEq, Repr

namespace UpdateReply

def ofRaw : RawReply → UpdateReply
  | .desktopSize width height => .rectangle (.desktopSize (UInt16.ofInt width) (UInt16.ofInt height))
  | .failed error => .failed error
  | .empty => .empty
  | .rectangle rect => .rectangle (.raw rect)

def ofJPEG (seq : Nat) : JPEGReply → UpdateReply
  | .desktopSize width height => .rectangle (.desktopSize (UInt16.ofInt width) (UInt16.ofInt height))
  | .failed error => .failed error
  | .empty => .empty
  | .tight rect => .rectangle (.tight rect seq)

def ofH264 : H264Reply → UpdateReply
  | .desktopSize width height => .rectangle (.desktopSize (UInt16.ofNat width) (UInt16.ofNat height))
  | .failed error => .failed error
  | .empty => .empty
  | .rectangle width height frame => .rectangle (.h264 (UInt16.ofNat width) (UInt16.ofNat height) frame)

end UpdateReply

/-- What a call finds in the sink: what `currentFrame` returns, the snapshots before and after the wait of
    `writeJPEGFramebuffer`, and what `writeH264Framebuffer` reads. -/
structure SinkView where
  frame : Except ConvertFailure RGBA
  first : JPEGSnapshot
  second : JPEGSnapshot
  buffer : H264Buffer
  videoWidth : Nat
  videoHeight : Nat

structure ClientFramebufferState where
  width : UInt16
  height : UInt16
  supportsDesktopSize : Bool := false
  encoding : ClientEncoding := .raw
  jpegCursor : Nat := 0
  h264Cursor : Nat := 0
  deriving DecidableEq, Repr

namespace ClientFramebufferState
variable (c : ClientFramebufferState)

def jpegViewer : JPEGViewer :=
  { width := c.width.toNat, height := c.height.toNat, supportsDesktopSize := c.supportsDesktopSize, cursor := c.jpegCursor }

def h264Client : H264Client :=
  { width := c.width.toNat, height := c.height.toNat, supportsDesktopSize := c.supportsDesktopSize, cursor := c.h264Cursor }

/-- The snapshot that `writeJPEGFramebuffer` writes. -/
def jpegSnapshot (view : SinkView) : JPEGSnapshot :=
  if view.first.fresh c.jpegCursor then view.first else view.second

/-- `writeFramebuffer`. -/
def reply (request : UpdateRequest) (view : SinkView) : UpdateReply :=
  match c.encoding with
  | .jpeg => .ofJPEG (c.jpegSnapshot view).seq (c.jpegViewer.reply (c.jpegSnapshot view))
  | .h264 =>
    .ofH264 (H264Stream.reply
      { buffer := view.buffer, videoWidth := view.videoWidth, videoHeight := view.videoHeight, client := c.h264Client })
  | .none | .raw =>
    match view.frame with
    | .error failure => .unconverted failure
    | .ok image => .ofRaw (image.rawReply request c.width c.height c.supportsDesktopSize)

/-- The state once the connection has taken a rectangle. -/
def taken : SinkRectangle → ClientFramebufferState
  | .desktopSize width height => { c with width, height }
  | .raw _ => c
  | .tight _ seq => { c with jpegCursor := seq }
  | .h264 _ _ frame => { c with h264Cursor := frame.seq }

/-- `SetEncoding`, where `switchClientEncoding` returns no error. -/
def setEncoding (encoding : ClientEncoding) (supportsDesktopSize : Bool) : ClientFramebufferState :=
  if encoding = c.encoding then { c with supportsDesktopSize }
  else { c with encoding, supportsDesktopSize, jpegCursor := 0, h264Cursor := 0 }

end ClientFramebufferState

/-! ### The goroutines of a client -/

inductive FramebufferParty where
  | runClient
  | updater
  deriving DecidableEq, Repr

/-- Where the call of `Write` stands that holds `mu`. -/
inductive WriteStage where
  | locked (request : UpdateRequest)
  /-- The client has been told a size, and `input` has not. -/
  | resizing
  deriving DecidableEq, Repr

/-- A rectangle that the connection took, with what held when it was written: whether the client supported DesktopSize,
    and how often its encoding had changed. -/
structure SentRectangle where
  rectangle : SinkRectangle
  supportsDesktopSize : Bool
  changes : Nat
  deriving DecidableEq, Repr

/-- `changes` and `sent` are ghosts: how often the encoding has changed, and the rectangles that the connection took. -/
structure FramebufferSession where
  state : ClientFramebufferState
  /-- The size that the connection keeps. -/
  connWidth : UInt16
  connHeight : UInt16
  input : SinkInput
  /-- The call that holds `mu`. -/
  mu : Option (FramebufferParty × WriteStage) := none
  /-- What `continuousUpdater` asks for, while its goroutine runs. -/
  updater : Option UpdateRequest := none
  /-- A call of `Write` has failed, and `runClient` reads no more messages. -/
  left : Bool := false
  /-- The connection takes nothing more. -/
  broken : Bool := false
  changes : Nat := 0
  sent : List SentRectangle := []
  deriving DecidableEq, Repr

inductive FramebufferAction where
  /-- `SetEncoding`, and whether `switchClientEncoding` returns no error. -/
  | setEncoding (encoding : ClientEncoding) (supportsDesktopSize ok : Bool)
  /-- A key or a pointer event. -/
  | event (call : SinkInputCall)
  /-- `runClient` calls `Write`. -/
  | request (request : UpdateRequest)
  | enable (request : UpdateRequest)
  | disable
  /-- The goroutine of `continuousUpdater` calls `Write`. -/
  | tick
  /-- The call writes its reply, and whether the connection takes it. -/
  | write (view : SinkView) (ok : Bool)
  /-- The call tells `input` the size. -/
  | resizeInput

namespace FramebufferSession
variable (s : FramebufferSession)

/-- A client behind its handshake. -/
def start (controller : Bool) (width height : UInt16) : FramebufferSession :=
  { state := { width, height }, connWidth := width, connHeight := height, input := { controller, width, height } }

def setEncoding (encoding : ClientEncoding) (supportsDesktopSize : Bool) : FramebufferSession :=
  { s with
    state := s.state.setEncoding encoding supportsDesktopSize
    changes := if encoding = s.state.encoding then s.changes else s.changes + 1 }

/-- `Write` returns an error. The goroutine of `continuousUpdater` then closes the connection. -/
def fail : FramebufferParty → Bool → FramebufferSession
  | .runClient, broken => { s with mu := none, left := true, broken := s.broken || broken }
  | .updater, _ => { s with mu := none, updater := none, broken := true }

/-- The connection has taken a rectangle. -/
def take (party : FramebufferParty) (rectangle : SinkRectangle) : FramebufferSession :=
  let t : FramebufferSession := { s with
    state := s.state.taken rectangle
    sent := s.sent ++ [{ rectangle, supportsDesktopSize := s.state.supportsDesktopSize, changes := s.changes }] }
  match rectangle with
  | .desktopSize width height => { t with connWidth := width, connHeight := height, mu := some (party, .resizing) }
  | _ => { t with mu := none }

def write (party : FramebufferParty) (reply : UpdateReply) (ok : Bool) : FramebufferSession :=
  match reply with
  | .failed _ | .unconverted _ => s.fail party false
  | .empty => if ok then { s with mu := none } else s.fail party true
  | .rectangle rectangle => if ok then s.take party rectangle else s.fail party true

def resizeInput : FramebufferSession :=
  { s with input := (s.input.call (.resize s.state.width s.state.height)).1, mu := none }

/-- The calls that an event leads to. -/
def isEvent : SinkInputCall → Bool
  | .key _ _ | .pointer _ _ _ => true
  | .release | .resize _ _ => false

def step (s : FramebufferSession) : FramebufferAction → Option FramebufferSession
  | .setEncoding encoding supportsDesktopSize ok =>
    if s.left = false ∧ s.mu = none then some (if ok then s.setEncoding encoding supportsDesktopSize else s) else none
  | .event call =>
    if s.left = false ∧ s.mu.all (·.1 ≠ .runClient) ∧ isEvent call then some { s with input := (s.input.call call).1 }
    else none
  | .request request =>
    if s.left = false ∧ s.mu = none then some { s with mu := some (.runClient, .locked request) } else none
  | .enable request => if s.left = false ∧ s.mu = none then some { s with updater := some request } else none
  | .disable => if s.mu = none then some { s with updater := none } else none
  | .tick =>
    match s.updater, s.mu with
    | some request, none => some { s with mu := some (.updater, .locked request) }
    | _, _ => none
  | .write view ok =>
    match s.mu with
    | some (party, .locked request) =>
      if ok ∧ s.broken then none else some (s.write party (s.state.reply request view) ok)
    | _ => none
  | .resizeInput =>
    match s.mu with
    | some (_, .resizing) => some s.resizeInput
    | _ => none

end FramebufferSession

end OnekvmVnc
