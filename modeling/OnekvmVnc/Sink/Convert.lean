import OnekvmVnc.Sink.Jpeg

/-! `frameToRGBA` in `internal/vnc/sink.go`. An index out of range stops the program in Go, which is a failure here.
    What decodes MJPEG is a parameter. -/

namespace OnekvmVnc

inductive ConvertFailure where
  /-- The program panics. -/
  | outOfRange
  | invalid (error : VideoFrameError)
  /-- "decode MJPEG for VNC" -/
  | decode (error : String)
  deriving DecidableEq, Repr

/-- `bytes[i]`. -/
def index (bytes : List UInt8) (i : Int) : Except ConvertFailure UInt8 :=
  if 0 ≤ i then
    match bytes[i.toNat]? with
    | some byte => .ok byte
    | none => .error .outOfRange
  else .error .outOfRange

/-- `bytes[i] = byte`. -/
def assign (bytes : List UInt8) (i : Int) (byte : UInt8) : Except ConvertFailure (List UInt8) :=
  if 0 ≤ i ∧ i < bytes.length then .ok (bytes.set i.toNat byte) else .error .outOfRange

/-- A component of `color.YCbCrToRGB`, from 16 bits behind the point. -/
def component (value : Int) : UInt8 :=
  if value < 0 then 0 else if value < 0x1000000 then UInt8.ofNat (value / 0x10000).toNat else 255

/-- `color.YCbCrToRGB`. -/
def yCbCrToRGB (y cb cr : UInt8) : UInt8 × UInt8 × UInt8 :=
  let yy1 : Int := y.toNat * 0x10101
  let cb1 : Int := cb.toNat - 128
  let cr1 : Int := cr.toNat - 128
  (component (yy1 + 91881 * cr1), component (yy1 - 22554 * cb1 - 46802 * cr1), component (yy1 + 116130 * cb1))

/-- `image.RGBA`, whose rectangle begins at the origin. -/
structure RGBA where
  width : Int
  height : Int
  pix : List UInt8
  deriving DecidableEq, Repr

namespace RGBA

/-- `image.NewRGBA`. -/
def new (width height : Int) : RGBA := { width, height, pix := List.replicate (4 * width * height).toNat 0 }

variable (rgba : RGBA)

def pixOffset (x y : Int) : Int := y * (4 * rgba.width) + x * 4

/-- The indices of `Pix` that the pixel is written to. -/
def writes (x y : Int) : List Int :=
  let offset := rgba.pixOffset x y
  [offset, offset + 1, offset + 2, offset + 3]

/-- The assignment of the four components. -/
def write (x y : Int) (r g b : UInt8) : Except ConvertFailure RGBA := do
  let pix ← ((rgba.writes x y).zip [r, g, b, 255]).foldlM (fun pix (i, byte) => assign pix i byte) rgba.pix
  return { rgba with pix }

end RGBA

namespace VideoFrame
variable (frame : VideoFrame)

def lumaOffset (x y : Int) : Int := y * frame.width + x

/-- Where `cb` and `cr` of a pixel are. -/
def chromaOffsets (x y : Int) : Except ConvertFailure (Int × Int) :=
  let ySize := frame.width * frame.height
  let chromaWidth := (frame.width + 1) / 2
  let chromaHeight := (frame.height + 1) / 2
  match frame.pixelFormat with
  | .yuv420p =>
    let chromaOffset := y / 2 * chromaWidth + x / 2
    .ok (ySize + chromaOffset, ySize + chromaWidth * chromaHeight + chromaOffset)
  | .nv12 =>
    let chromaOffset := ySize + y / 2 * frame.width + x / 2 * 2
    .ok (chromaOffset, chromaOffset + 1)
  | .nv21 =>
    let chromaOffset := ySize + y / 2 * frame.width + x / 2 * 2
    .ok (chromaOffset + 1, chromaOffset)
  | .mjpeg | .other _ => .error (.invalid (.unsupported frame.pixelFormat))

/-- The indices of `Data` that are read for a pixel. -/
def reads (x y : Int) : List Int :=
  match frame.chromaOffsets x y with
  | .ok (cb, cr) => [frame.lumaOffset x y, cb, cr]
  | .error _ => [frame.lumaOffset x y]

/-- The body of the loops. -/
def convertPixel (x y : Int) (rgba : RGBA) : Except ConvertFailure RGBA := do
  let yv ← index frame.data (frame.lumaOffset x y)
  let (cbOffset, crOffset) ← frame.chromaOffsets x y
  let cb ← index frame.data cbOffset
  let cr ← index frame.data crOffset
  let (r, g, b) := yCbCrToRGB yv cb cr
  rgba.write x y r g b

def convertRow (y : Int) (rgba : RGBA) : Except ConvertFailure RGBA :=
  (List.range frame.width.toNat).foldlM (fun rgba (x : Nat) => frame.convertPixel x y rgba) rgba

/-- `frameToRGBA`. -/
def frameToRGBA (decode : List UInt8 → Except String RGBA) : Except ConvertFailure RGBA :=
  match frame.validate with
  | .error error => .error (.invalid error)
  | .ok () =>
    if frame.pixelFormat = .mjpeg then
      match decode frame.data with
      | .ok rgba => .ok rgba
      | .error error => .error (.decode error)
    else
      (List.range frame.height.toNat).foldlM (fun rgba (y : Nat) => frame.convertRow y rgba) (.new frame.width frame.height)

end VideoFrame

end OnekvmVnc
