import OnekvmVnc.Sink.H264

/-! How JPEG payloads reach the viewers of `Sink` in `internal/vnc/sink.go`: `WriteRawVideo` and `WriteJPEGFrame`,
    which publish them, and `writeJPEGFramebuffer`, which takes a snapshot and writes a rectangle. Each section
    under `mu` is one step; an encoder runs in the step that publishes what it made. -/

namespace OnekvmVnc

/-! ### Video frames -/

inductive PixelFormat where
  | mjpeg
  | yuv420p
  | nv12
  | nv21
  | other (name : String)
  deriving DecidableEq, Repr

structure VideoFrame where
  width : Int
  height : Int
  pixelFormat : PixelFormat
  data : List UInt8
  deriving DecidableEq, Repr

inductive VideoFrameError where
  /-- "invalid raw video frame dimensions" -/
  | dimensions
  /-- "empty MJPEG frame" -/
  | emptyMJPEG
  /-- "VNC does not support raw pixel format" -/
  | unsupported (format : PixelFormat)
  /-- "raw frame is truncated" -/
  | truncated (format : PixelFormat)
  deriving DecidableEq, Repr

namespace VideoFrame
variable (frame : VideoFrame)

/-- The number of bytes that a frame without compression takes. -/
def required : Option Int :=
  let ySize := frame.width * frame.height
  let chromaWidth := (frame.width + 1) / 2
  let chromaHeight := (frame.height + 1) / 2
  match frame.pixelFormat with
  | .yuv420p => some (ySize + 2 * chromaWidth * chromaHeight)
  | .nv12 | .nv21 => some (ySize + frame.width * chromaHeight)
  | .mjpeg | .other _ => none

/-- `validateVideoFrame`. -/
def validate : Except VideoFrameError Unit :=
  if frame.width ≤ 0 ∨ frame.height ≤ 0 then .error .dimensions
  else if frame.pixelFormat = .mjpeg then
    if frame.data = [] then .error .emptyMJPEG else .ok ()
  else
    match frame.required with
    | none => .error (.unsupported frame.pixelFormat)
    | some required => if frame.data.length < required then .error (.truncated frame.pixelFormat) else .ok ()

end VideoFrame

/-- A JPEG payload. `width` and `height` are ghosts: the size of the frame that it was made from. -/
structure JPEGPicture where
  payload : List UInt8
  width : Int
  height : Int
  deriving DecidableEq, Repr

/-! ### The calls of `WriteRawVideo` -/

/-- Where a call stands, with the time it took and whether there are raw consumers, once it knows them. -/
inductive RawStage where
  | setSize
  | readConsumers
  | throttle (now : Int) (hasRaw : Bool)
  /-- It waits for `jpegMu`. -/
  | lock (now : Int) (hasRaw : Bool)
  | readEncoder (now : Int) (hasRaw : Bool)
  | encode (now : Int) (hasRaw : Bool)
  | throttleRaw (now : Int)
  | publishRaw
  | done
  deriving DecidableEq, Repr

structure RawWrite where
  frame : VideoFrame
  stage : RawStage := .setSize
  deriving DecidableEq, Repr

/-- A step of a call, with what it finds. -/
inductive RawAction where
  | setSize
  | readConsumers (hasRaw hasJPEG : Bool) (now : Int)
  | throttle
  | lock
  | readEncoder (present : Bool)
  /-- The encoder returns a payload, or an error. -/
  | encode (payload : Option (List UInt8))
  | throttleRaw
  | publishRaw
  deriving DecidableEq, Repr

/-! ### The viewers -/

/-- What `jpegSnapshot` returns. -/
structure JPEGSnapshot where
  picture : Option JPEGPicture
  seq : Nat
  width : Int
  height : Int
  deriving DecidableEq, Repr

/-- Where `writeJPEGFramebuffer` stands. -/
inductive JPEGCall where
  | idle
  /-- The first snapshot was not new, and the call waits for another. -/
  | waiting
  | holding (snapshot : JPEGSnapshot)
  deriving DecidableEq, Repr

/-- A client that gets JPEG. -/
structure JPEGViewer where
  width : Int
  height : Int
  supportsDesktopSize : Bool
  cursor : Nat := 0
  call : JPEGCall := .idle
  deriving DecidableEq, Repr

/-- A rectangle with Tight encoding. -/
structure TightRectangle where
  width : Nat
  height : Nat
  picture : JPEGPicture
  deriving DecidableEq, Repr

inductive JPEGReply where
  | desktopSize (width height : Int)
  | empty
  | failed (error : String)
  | tight (rectangle : TightRectangle)
  deriving DecidableEq, Repr

/-- Go's conversion to `uint16`. -/
def uint16 (value : Int) : Nat := (value % 0x10000).toNat

namespace JPEGSnapshot
variable (snapshot : JPEGSnapshot)

/-- The snapshot is past the cursor. -/
def fresh (cursor : Nat) : Bool := snapshot.seq ≠ 0 && cursor < snapshot.seq

/-- The dimensions exceed the protocol's limits. -/
def large : Bool := decide ((maxDimension : Int) < snapshot.width) || decide ((maxDimension : Int) < snapshot.height)

end JPEGSnapshot

namespace JPEGViewer
variable (v : JPEGViewer)

/-- What `writeJPEGFramebuffer` writes with its snapshot. -/
def reply (snapshot : JPEGSnapshot) : JPEGReply :=
  if v.supportsDesktopSize ∧ (snapshot.width ≠ v.width ∨ snapshot.height ≠ v.height) then
    if snapshot.large then .failed dimensionsExceed else .desktopSize snapshot.width snapshot.height
  else if snapshot.fresh v.cursor then
    if snapshot.large then .failed dimensionsExceed
    else
      match snapshot.picture with
      | some picture => .tight { width := uint16 snapshot.width, height := uint16 snapshot.height, picture }
      -- A snapshot that is fresh has a payload, so this is not reached.
      | none => .empty
  else .empty

end JPEGViewer

/-! ### The sink -/

/-- `written` is a ghost: the Tight rectangles written so far. -/
structure JPEGSink where
  fps : Int
  videoWidth : Int
  videoHeight : Int
  jpegFrame : Option JPEGPicture := none
  jpegSeq : Nat := 0
  lastJPEGAt : Option Int := none
  lastFrameAt : Option Int := none
  rawFrame : Option VideoFrame := none
  frameSeq : Nat := 0
  /-- A call of `encodeJPEG` holds `jpegMu`. -/
  jpegMu : Bool := false
  writes : List RawWrite := []
  viewers : List JPEGViewer := []
  written : List TightRectangle := []
  deriving DecidableEq, Repr

/-- A step of a client's `writeJPEGFramebuffer`. -/
inductive ViewerAction where
  | snapshot
  | snapshotAgain
  /-- The client writes what it has found, and whether the connection takes it. -/
  | write (ok : Bool)
  deriving DecidableEq, Repr

inductive JPEGAction where
  | writeRawVideo (frame : VideoFrame)
  /-- A step of a call of `WriteRawVideo`. -/
  | raw (k : Nat) (action : RawAction)
  /-- `WriteJPEGFrame`, and whether it finds raw consumers. -/
  | writeJPEGFrame (payload : List UInt8) (width height : Int) (hasRaw : Bool)
  /-- The last section of `Stop`, after the clients have left. -/
  | teardown
  /-- A client gets JPEG from now on. -/
  | select (width height : Int) (supportsDesktopSize : Bool)
  | viewer (i : Nat) (action : ViewerAction)
  deriving DecidableEq, Repr

def second : Int := 1000000000

def vncFrameInterval : Int := second / 2

def jpegFrameInterval (fps : Int) : Int :=
  let fps := if fps ≤ 0 then 60 else fps
  let fps := if fps > 60 then 60 else fps
  second / fps

namespace JPEGSink
variable (s : JPEGSink)

/-- `NewSink`, with the defaults for its size. -/
def start (fps width height : Int) : JPEGSink :=
  if width ≤ 0 ∨ height ≤ 0 then { fps, videoWidth := 1920, videoHeight := 1080 }
  else { fps, videoWidth := width, videoHeight := height }

def shouldEncodeJPEG (now : Int) : Bool × JPEGSink :=
  match s.lastJPEGAt with
  | none => (true, { s with lastJPEGAt := some now })
  | some last =>
    let interval := jpegFrameInterval s.fps
    if s.fps ≥ 60 ∨ ¬ now - last < interval - interval / 10 then (true, { s with lastJPEGAt := some now })
    else (false, s)

/-- The section of `encodeJPEG` that publishes a payload. -/
def publish (picture : JPEGPicture) : JPEGSink := { s with jpegFrame := some picture, jpegSeq := s.jpegSeq + 1 }

/-- What is left of a call once JPEG is done. -/
def afterJPEG (now : Int) (hasRaw : Bool) : RawStage := if hasRaw then .throttleRaw now else .done

/-- A step of a call of `WriteRawVideo`. -/
def rawStep (w : RawWrite) : RawAction → Option (JPEGSink × RawWrite)
  | .setSize =>
    if w.stage = .setSize then
      some ({ s with videoWidth := w.frame.width, videoHeight := w.frame.height }, { w with stage := .readConsumers })
    else none
  | .readConsumers hasRaw hasJPEG now =>
    if w.stage = .readConsumers then
      let stage : RawStage :=
        if !hasRaw && !hasJPEG then .done
        else
          match w.frame.validate with
          | .error _ => .done
          | .ok _ => if hasJPEG then .throttle now hasRaw else .throttleRaw now
      some (s, { w with stage })
    else none
  | .throttle =>
    match w.stage with
    | .throttle now hasRaw =>
      let (encode, t) := s.shouldEncodeJPEG now
      some (t, { w with stage := if encode then .lock now hasRaw else afterJPEG now hasRaw })
    | _ => none
  | .lock =>
    match w.stage with
    | .lock now hasRaw =>
      if s.jpegMu then none else some ({ s with jpegMu := true }, { w with stage := .readEncoder now hasRaw })
    | _ => none
  | .readEncoder present =>
    match w.stage with
    | .readEncoder now hasRaw =>
      if present then some (s, { w with stage := .encode now hasRaw })
      else some ({ s with jpegMu := false }, { w with stage := afterJPEG now hasRaw })
    | _ => none
  | .encode payload =>
    match w.stage with
    | .encode now hasRaw =>
      match payload with
      | none => some ({ s with jpegMu := false }, { w with stage := .done })
      | some [] => some ({ s with jpegMu := false }, { w with stage := afterJPEG now hasRaw })
      | some payload =>
        let t := s.publish { payload, width := w.frame.width, height := w.frame.height }
        some ({ t with jpegMu := false }, { w with stage := afterJPEG now hasRaw })
    | _ => none
  | .throttleRaw =>
    match w.stage with
    | .throttleRaw now =>
      if s.lastFrameAt.any fun last => decide (now - last < vncFrameInterval) then some (s, { w with stage := .done })
      else some ({ s with lastFrameAt := some now }, { w with stage := .publishRaw })
    | _ => none
  | .publishRaw =>
    if w.stage = .publishRaw then
      some ({ s with rawFrame := some w.frame, frameSeq := s.frameSeq + 1 }, { w with stage := .done })
    else none

/-- The errors of `WriteJPEGFrame`. -/
def checkJPEGFrame (payload : List UInt8) (width height : Int) : Except String Unit :=
  if payload = [] ∨ maxH264BufferBytes < payload.length then
    .error ("invalid VNC JPEG payload length " ++ toString payload.length)
  else if width ≤ 0 ∨ height ≤ 0 ∨ (maxDimension : Int) < width ∨ (maxDimension : Int) < height then
    .error ("invalid VNC JPEG dimensions " ++ toString width ++ "x" ++ toString height)
  else .ok ()

def writeJPEGFrame (payload : List UInt8) (width height : Int) (hasRaw : Bool) : JPEGSink :=
  match checkJPEGFrame payload width height with
  | .error _ => s
  | .ok _ =>
    let t := { s with videoWidth := width, videoHeight := height }.publish { payload, width, height }
    if hasRaw then
      { t with rawFrame := some { width, height, pixelFormat := .mjpeg, data := payload }, frameSeq := t.frameSeq + 1 }
    else t

def jpegSnapshot : JPEGSnapshot :=
  { picture := s.jpegFrame, seq := s.jpegSeq, width := s.videoWidth, height := s.videoHeight }

/-- The client's call ends with the connection's answer. A rectangle that it does not take counts as written. -/
def writeReply (v : JPEGViewer) (snapshot : JPEGSnapshot) (ok : Bool) : List TightRectangle × JPEGViewer :=
  match v.reply snapshot with
  | .desktopSize width height => ([], if ok then { v with width, height, call := .idle } else { v with call := .idle })
  | .empty | .failed _ => ([], { v with call := .idle })
  | .tight rectangle =>
    ([rectangle], if ok then { v with cursor := snapshot.seq, call := .idle } else { v with call := .idle })

/-- A step of a client, with the rectangles that it writes. -/
def viewerStep (v : JPEGViewer) : ViewerAction → Option (List TightRectangle × JPEGViewer)
  | .snapshot =>
    if v.call = .idle then
      let snapshot := s.jpegSnapshot
      some ([], { v with call := if snapshot.fresh v.cursor then .holding snapshot else .waiting })
    else none
  | .snapshotAgain => if v.call = .waiting then some ([], { v with call := .holding s.jpegSnapshot }) else none
  | .write ok =>
    match v.call with
    | .holding snapshot => some (writeReply v snapshot ok)
    | _ => none

def step (s : JPEGSink) : JPEGAction → Option JPEGSink
  | .writeRawVideo frame =>
    some (if frame.width ≤ 0 ∨ frame.height ≤ 0 then s else { s with writes := s.writes ++ [{ frame }] })
  | .raw k action =>
    match s.writes[k]? with
    | some w => (s.rawStep w action).map fun (t, w) => { t with writes := s.writes.set k w }
    | none => none
  | .writeJPEGFrame payload width height hasRaw => some (s.writeJPEGFrame payload width height hasRaw)
  | .teardown =>
    if s.jpegMu then none else some { s with jpegFrame := none, jpegSeq := 0, lastJPEGAt := none, viewers := [] }
  | .select width height supportsDesktopSize =>
    some { s with viewers := s.viewers ++ [{ width, height, supportsDesktopSize }] }
  | .viewer i action =>
    match s.viewers[i]? with
    | some v => (s.viewerStep v action).map fun (rectangles, v) =>
      { s with viewers := s.viewers.set i v, written := s.written ++ rectangles }
    | none => none

end JPEGSink

end OnekvmVnc
