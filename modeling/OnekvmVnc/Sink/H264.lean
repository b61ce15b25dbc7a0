/-! The H.264 buffer of `Sink` in `internal/vnc/sink.go`, what `WriteVideo` does with an access unit, and how
    `writeH264Framebuffer` reads the buffer for a client. -/

namespace OnekvmVnc

/-! ### NAL units -/

/-- The first start code at or after `i` that is looked at, with its length. -/
def startCode (payload : List UInt8) (i : Nat) : Option (Nat × Nat) :=
  if h : i + 3 < payload.length then
    if payload[i] = 0 ∧ payload[i + 1] = 0 ∧ payload[i + 2] = 1 then some (i, 3)
    else if i + 4 ≤ payload.length ∧ payload[i] = 0 ∧ payload[i + 1] = 0 ∧ payload[i + 2] = 0 ∧ payload[i + 3] = 1 then
      some (i, 4)
    else startCode payload (i + 1)
  else none
termination_by payload.length - i

theorem startCode_bound {payload : List UInt8} {i start length : Nat} (h : startCode payload i = some (start, length)) :
    i ≤ start := by
  induction i using startCode.induct payload with
  | case1 i hi hthree =>
    rw [startCode, dif_pos hi, if_pos hthree] at h
    cases h
    exact Nat.le_refl _
  | case2 i hi hthree hfour =>
    rw [startCode, dif_pos hi, if_neg hthree, if_pos hfour] at h
    cases h
    exact Nat.le_refl _
  | case3 i hi hthree hfour ih =>
    rw [startCode, dif_pos hi, if_neg hthree, if_neg hfour] at h
    have := ih h
    omega
  | case4 i hi =>
    rw [startCode, dif_neg hi] at h
    cases h

/-- The loop of `h264NALTypes` from `offset` on. -/
def nalTypesFrom (payload : List UInt8) (offset : Nat) : List UInt8 :=
  if offset + 3 < payload.length then
    match _hcode : startCode payload offset with
    | none => []
    | some (start, length) =>
      if h : start + length < payload.length then
        (payload[start + length] &&& 0x1f) :: nalTypesFrom payload (start + length + 1)
      else []
  else []
termination_by payload.length - offset
decreasing_by
  have := startCode_bound _hcode
  omega

def h264NALTypes (payload : List UInt8) : List UInt8 :=
  match nalTypesFrom payload 0, payload with
  | [], first :: _ => [first &&& 0x1f]
  | types, _ => types

def containsNALType (types : List UInt8) (target : UInt8) : Bool := types.contains target

/-! ### The buffer -/

def maxH264Frames : Nat := 240
def maxH264BufferBytes : Nat := 8 <<< 20

/-- The payload of a `WriteVideo` call. `number` is a ghost: how many calls came before. -/
structure AccessUnit where
  payload : List UInt8
  number : Nat := 0
  deriving DecidableEq, Repr

namespace AccessUnit
variable (unit : AccessUnit)

/-- It holds an IDR slice. -/
def keyframe : Bool := containsNALType (h264NALTypes unit.payload) 5

def parameterSet : Bool :=
  containsNALType (h264NALTypes unit.payload) 7 || containsNALType (h264NALTypes unit.payload) 8

/-- It holds a slice, of an IDR picture or another one. -/
def slice : Bool := containsNALType (h264NALTypes unit.payload) 1 || unit.keyframe

/-- `WriteVideo` parks it until the next keyframe. -/
def parked : Bool := unit.parameterSet && !unit.keyframe

/-- `WriteVideo` refuses it for its length. -/
def tooLong : Bool := decide (maxH264BufferBytes < unit.payload.length)

/-- What `WriteVideo` finds before its first section: whether it goes on, or its error. -/
def check : Except String Bool :=
  if unit.payload = [] then .ok false
  else if unit.tooLong then .error ("VNC H.264 access unit exceeds " ++ toString maxH264BufferBytes ++ " bytes")
  else .ok true

end AccessUnit

structure H264Frame where
  seq : Nat
  unit : AccessUnit
  keyframe : Bool
  deriving DecidableEq, Repr

structure H264Buffer where
  frames : List H264Frame := []
  bytes : Nat := 0
  seq : Nat := 0
  ready : Bool := false
  bootstrap : List AccessUnit := []
  deriving DecidableEq, Repr

namespace H264Buffer
variable (b : H264Buffer) (unit : AccessUnit)

/-- `resetH264BufferLocked`. -/
def reset : H264Buffer := { b with frames := [], bytes := 0, ready := false, bootstrap := [] }

/-- `appendH264FrameLocked`. -/
def appendFrame (keyframe : Bool) : H264Buffer :=
  let appended := { b with
    seq := b.seq + 1
    frames := b.frames ++ [{ seq := b.seq + 1, unit, keyframe }]
    bytes := b.bytes + unit.payload.length }
  if maxH264Frames < appended.frames.length ∨ maxH264BufferBytes < appended.bytes then appended.reset else appended

/-- The parked units are appended again, before a keyframe. -/
def replay : H264Buffer := b.bootstrap.foldl (fun b unit => b.appendFrame unit true) { b with frames := [], bytes := 0 }

/-- Only the last four units stay parked. -/
def park : H264Buffer :=
  let bootstrap := b.bootstrap ++ [unit]
  { b with bootstrap := bootstrap.drop (bootstrap.length - 4) }

/-- The section of `WriteVideo` that updates the buffer. -/
def append : H264Buffer :=
  if unit.parked then b.park unit
  else if unit.keyframe then { b.replay with bootstrap := [], ready := true }.appendFrame unit true
  else if b.ready then b.appendFrame unit false
  else b

/-- `WriteVideo`, where `enabled` is what it finds in its first section. -/
def writeVideo (enabled : Bool) : Except String H264Buffer := do
  let present ← unit.check
  return if present && enabled then b.append unit else b

end H264Buffer

/-! ### A client that reads the buffer -/

/-- `^uint16(0)`. -/
def maxDimension : Nat := 0xffff

def dimensionsExceed : String := "VNC framebuffer dimensions exceed protocol limits"

/-- What `writeH264Framebuffer` does with the connection. -/
inductive H264Reply where
  | desktopSize (width height : Nat)
  /-- An update without rectangles. -/
  | empty
  | failed (error : String)
  | rectangle (width height : Nat) (frame : H264Frame)
  deriving DecidableEq, Repr

/-- A client's `clientFramebufferState`, as far as `writeH264Framebuffer` uses it. -/
structure H264Client where
  width : Nat
  height : Nat
  supportsDesktopSize : Bool
  cursor : Nat := 0
  deriving DecidableEq, Repr

/-- The sink while H.264 clients are subscribed, and one of them. `input` and `delivered` are ghosts: the units
    of all calls of `WriteVideo`, and the frames the client was sent. -/
structure H264Stream where
  buffer : H264Buffer
  videoWidth : Nat
  videoHeight : Nat
  client : H264Client
  input : List AccessUnit := []
  delivered : List H264Frame := []
  deriving DecidableEq, Repr

inductive H264Action where
  | writeVideo (payload : List UInt8)
  /-- `WriteRawVideo` sets the size of the video. -/
  | resize (width height : Nat)
  /-- The client's update, and whether the connection takes it. -/
  | update (ok : Bool)
  deriving DecidableEq, Repr

namespace H264Stream
variable (s : H264Stream)

/-- The reply of `writeH264Framebuffer`. -/
def reply : H264Reply :=
  let { width, height, supportsDesktopSize, cursor } := s.client
  let large := maxDimension < s.videoWidth ∨ maxDimension < s.videoHeight
  if supportsDesktopSize ∧ (s.videoWidth ≠ width ∨ s.videoHeight ≠ height) then
    if large then .failed dimensionsExceed else .desktopSize s.videoWidth s.videoHeight
  else
    match s.buffer.frames.find? (cursor < ·.seq) with
    | none => .empty
    | some frame => if large then .failed dimensionsExceed else .rectangle s.videoWidth s.videoHeight frame

/-- The client's state once the connection has taken the reply. -/
def sent : H264Stream :=
  match s.reply with
  | .desktopSize width height => { s with client := { s.client with width, height } }
  | .empty | .failed _ => s
  | .rectangle _ _ frame =>
    { s with client := { s.client with cursor := frame.seq }, delivered := s.delivered ++ [frame] }

def step (s : H264Stream) : H264Action → Option H264Stream
  | .writeVideo payload =>
    let unit := { payload, number := s.input.length }
    some { s with buffer := (s.buffer.writeVideo unit true).toOption.getD s.buffer, input := s.input ++ [unit] }
  | .resize width height => some { s with videoWidth := width, videoHeight := height }
  | .update ok => some (if ok then s.sent else s)

end H264Stream

end OnekvmVnc
