import OnekvmVnc.Lib.Decoder
import OnekvmVnc.Sink.Convert

/-! What a viewer with raw encoding gets from `Sink` in `internal/vnc/sink.go`: `currentFrame`, which converts the newest
    raw frame when one is asked for, `writeFramebuffer`, which cuts the request to the image, and `rawEncoding`, which
    writes the pixels in the format of the client. -/

namespace OnekvmVnc

/-! ### `currentFrame` -/

/-- Where the call of `currentFrame` stands that holds `convertMu`. -/
inductive FrameStage where
  | locked
  /-- There was neither a raw frame nor an image. -/
  | blank (width height : Int)
  | converting (raw : VideoFrame) (seq : Nat)
  deriving DecidableEq, Repr

/-- What a call returned. The numbers are ghosts: the raw frames that there had been when it began, when it looked, and
    when it returned. -/
structure FrameReturn where
  result : Except ConvertFailure RGBA
  since : Nat
  seen : Nat
  upTo : Nat
  deriving DecidableEq

/-- A call is known by the number of raw frames that there had been when it began, which is a ghost; so are `published`
    and `returned`. -/
structure RawSink where
  videoWidth : Int
  videoHeight : Int
  rawFrame : Option VideoFrame := none
  frame : Option RGBA := none
  frameSeq : Nat := 0
  convertedSeq : Nat := 0
  /-- The calls that wait for `convertMu`. -/
  waiting : List Nat := []
  /-- The call that holds it. -/
  convertMu : Option (Nat × FrameStage) := none
  /-- An index out of range has ended the program. -/
  panicked : Bool := false
  published : List VideoFrame := []
  returned : List FrameReturn := []
  deriving DecidableEq

inductive FrameAction where
  | setSize (width height : Int)
  /-- A raw frame becomes the newest one. -/
  | publish (frame : VideoFrame)
  | call
  | lock (k : Nat)
  /-- The section under `mu.RLock`. -/
  | read
  /-- The section that makes an image without a picture. -/
  | blank
  /-- The conversion, and the section that keeps what it has made. -/
  | convert
  deriving DecidableEq, Repr

namespace RawSink
variable (s : RawSink)

/-- The call returns, and unlocks `convertMu`. -/
def finish (since : Nat) (result : Except ConvertFailure RGBA) (seen : Nat) : RawSink :=
  { s with convertMu := none, returned := s.returned ++ [{ result, since, seen, upTo := s.frameSeq }] }

def readStep (since : Nat) : RawSink :=
  match s.rawFrame with
  | none =>
    match s.frame with
    | none => { s with convertMu := some (since, .blank s.videoWidth s.videoHeight) }
    | some frame => s.finish since (.ok frame) s.frameSeq
  | some raw =>
    if s.convertedSeq = s.frameSeq then
      match s.frame with
      | some frame => s.finish since (.ok frame) s.frameSeq
      -- What was converted is kept, so this is not reached.
      | none => s
    else { s with convertMu := some (since, .converting raw s.frameSeq) }

def blankStep (since : Nat) (width height : Int) : RawSink :=
  let image := s.frame.getD (.new width height)
  { s with frame := some image }.finish since (.ok image) 0

def convertStep (decode : List UInt8 → Except String RGBA) (since : Nat) (raw : VideoFrame) (seq : Nat) : RawSink :=
  match raw.frameToRGBA decode with
  | .error .outOfRange => { s with panicked := true }
  | .error failure => s.finish since (.error failure) seq
  | .ok image =>
    let t := if seq ≥ s.convertedSeq then { s with frame := some image, convertedSeq := seq } else s
    t.finish since (.ok (t.frame.getD image)) seq

def step (decode : List UInt8 → Except String RGBA) (s : RawSink) (action : FrameAction) : Option RawSink :=
  if s.panicked then none
  else
    match action, s.convertMu with
    | .setSize width height, _ => some { s with videoWidth := width, videoHeight := height }
    | .publish frame, _ =>
      some { s with rawFrame := some frame, frameSeq := s.frameSeq + 1, published := s.published ++ [frame] }
    | .call, _ => some { s with waiting := s.waiting ++ [s.frameSeq] }
    | .lock k, none =>
      s.waiting[k]?.map fun since => { s with waiting := s.waiting.eraseIdx k, convertMu := some (since, .locked) }
    | .read, some (since, .locked) => some (s.readStep since)
    | .blank, some (since, .blank width height) => some (s.blankStep since width height)
    | .convert, some (since, .converting raw seq) => some (s.convertStep decode since raw seq)
    | _, _ => none

end RawSink

/-! ### Pixels -/

/-- `rfb.PixelFormat`, as far as a pixel depends on it and `runClient` looks at it. -/
structure RFBPixelFormat where
  bpp : UInt8
  bigEndian : UInt8
  trueColor : UInt8
  redMax : UInt16
  greenMax : UInt16
  blueMax : UInt16
  redShift : UInt8
  greenShift : UInt8
  blueShift : UInt8
  deriving DecidableEq, Repr

/-- `rfb.Rectangle`. -/
structure RawRectangle where
  x : UInt16
  y : UInt16
  width : UInt16
  height : UInt16
  deriving DecidableEq, Repr

namespace RFBPixelFormat
variable (pf : RFBPixelFormat)

def bytesPerPixel : Nat := pf.bpp.toNat / 8

/-- A component of 8 bits on the scale of the format. -/
def scaled (value : UInt8) (max : UInt16) : Nat := value.toNat * max.toNat / 255

/-- A shift of 32 bits, from which a long one leaves nothing. -/
def shifted (value : Nat) (shift : UInt8) : Nat := value <<< shift.toNat % UInt32.size

def pixel (r g b : UInt8) : Nat :=
  shifted (scaled r pf.redMax) pf.redShift ||| shifted (scaled g pf.greenMax) pf.greenShift |||
    shifted (scaled b pf.blueMax) pf.blueShift

/-- The bytes of a pixel, the lowest one first. `runClient` takes formats of 16 and 32 bits only. -/
def littleEndian (pixel : Nat) : List UInt8 :=
  if pf.bpp = 16 then [UInt8.ofNat pixel, UInt8.ofNat (pixel >>> 8)]
  else [UInt8.ofNat pixel, UInt8.ofNat (pixel >>> 8), UInt8.ofNat (pixel >>> 16), UInt8.ofNat (pixel >>> 24)]

/-- `PutUint16` and `PutUint32`. -/
def bytes (pixel : Nat) : List UInt8 :=
  if pf.bigEndian ≠ 0 then (pf.littleEndian pixel).reverse else pf.littleEndian pixel

end RFBPixelFormat

namespace RGBA
variable (image : RGBA)

/-- A turn of the inner loop. -/
def rawPixel (pf : RFBPixelFormat) (x y : Nat) : Except ConvertFailure (List UInt8) := do
  let colorOffset := image.pixOffset x y
  let r ← index image.pix colorOffset
  let g ← index image.pix (colorOffset + 1)
  let b ← index image.pix (colorOffset + 2)
  return pf.bytes (pf.pixel r g b)

/-- A line, which has been made of zeros, with its pixels from the front on. The sum of 16 bits may wrap. -/
def rawLine (pf : RFBPixelFormat) (rect : RawRectangle) (y : Nat) : Except ConvertFailure (List UInt8) := do
  let pixels ← (List.range' rect.x.toNat ((rect.x + rect.width).toNat - rect.x.toNat)).mapM fun x => image.rawPixel pf x y
  let line := pixels.flatten
  return line ++ List.replicate (rect.width.toNat * pf.bytesPerPixel - line.length) 0

end RGBA

/-! ### `writeFramebuffer` -/

/-- `rfb.FramebufferUpdateRequest`, of which `Inc` is not read. -/
structure UpdateRequest where
  x : UInt16
  y : UInt16
  width : UInt16
  height : UInt16
  deriving DecidableEq, Repr

inductive RawReply where
  | desktopSize (width height : Int)
  | failed (error : String)
  /-- An update without rectangles. -/
  | empty
  | rectangle (rect : RawRectangle)
  deriving DecidableEq, Repr

/-- What `writeFramebuffer` writes of the image that `currentFrame` returns. -/
def RGBA.rawReply (image : RGBA) (request : UpdateRequest) (clientWidth clientHeight : UInt16) (supportsDesktopSize : Bool) :
    RawReply :=
  if supportsDesktopSize ∧ (image.width ≠ clientWidth.toNat ∨ image.height ≠ clientHeight.toNat) then
    if (maxDimension : Int) < image.width ∨ (maxDimension : Int) < image.height then .failed dimensionsExceed
    else .desktopSize image.width image.height
  else
    let x0 := min (request.x.toNat : Int) image.width
    let y0 := min (request.y.toNat : Int) image.height
    let x1 := min (x0 + request.width.toNat) image.width
    let y1 := min (y0 + request.height.toNat) image.height
    if x1 ≤ x0 ∨ y1 ≤ y0 then .empty
    else .rectangle { x := UInt16.ofInt x0, y := UInt16.ofInt y0, width := UInt16.ofInt (x1 - x0), height := UInt16.ofInt (y1 - y0) }

/-! ### How a viewer reads the pixels -/

namespace RFBPixelFormat
open Decoder

variable (pf : RFBPixelFormat)

/-- The number that the bytes are, the lowest one first. -/
def number : List UInt8 → Nat
  | [] => 0
  | b :: rest => b.toNat + UInt8.size * number rest

end RFBPixelFormat

end OnekvmVnc
