/-! `src/jpeg_rgb.cpp` and `src/jpeg_rgb.hpp`: decoding a JPEG frame into the RGB565 framebuffer, and
    the tiles in which two framebuffers differ. A framebuffer is the list of its pixels, row by row. -/

namespace OnekvmVnc

/-- libjpeg, as far as `DecodeJPEGToRGB565` uses it: what it makes of a byte string. -/
structure JPEGDecoder where
  /-- The output width, height and components after `jpeg_start_decompress`, `none` on an error. -/
  header : List UInt8 → Option (Nat × Nat × Nat)
  /-- The pixels of a scanline, `none` where `jpeg_read_scanlines` fails. -/
  scanline : List UInt8 → Nat → Option (Nat → UInt8 × UInt8 × UInt8)
  /-- Whether `jpeg_finish_decompress` succeeds. -/
  finish : List UInt8 → Bool

/-- `PackRGB565`. -/
def packRGB565 (rgb : UInt8 × UInt8 × UInt8) : UInt16 :=
  ((rgb.1 >>> 3).toUInt16 <<< 11) ||| ((rgb.2.1 >>> 2).toUInt16 <<< 5) ||| (rgb.2.2 >>> 3).toUInt16

/-- The buffer after row `y` has been written. -/
def writeRow (out : List UInt16) (width y : Nat) (row : Nat → UInt8 × UInt8 × UInt8) : List UInt16 :=
  out.take (y * width) ++ (List.range width).map (fun x => packRGB565 (row x)) ++ out.drop ((y + 1) * width)

namespace JPEGDecoder
variable (decoder : JPEGDecoder)

/-- The scanlines from `y` on. A failure leaves the rows written so far in the buffer. -/
def decodeRows (data : List UInt8) (width : Nat) : Nat → Nat → List UInt16 → List UInt16 × Bool
  | 0, _, out => (out, true)
  | rows + 1, y, out =>
    match decoder.scanline data y with
    | none => (out, false)
    | some row => decodeRows data width rows (y + 1) (writeRow out width y row)

/-- `DecodeJPEGToRGB565`: the buffer after the call, and whether it succeeded. -/
def decodeJPEGToRGB565 (data : List UInt8) (out : List UInt16) (width height : Nat) : List UInt16 × Bool :=
  if data = [] ∨ width = 0 ∨ height = 0 then (out, false)
  else
    match decoder.header data with
    | none => (out, false)
    | some (outputWidth, outputHeight, components) =>
      if outputWidth ≠ width ∨ outputHeight ≠ height ∨ components ≠ 3 then (out, false)
      else
        let (out, ok) := decoder.decodeRows data width height 0 out
        (out, ok && decoder.finish data)

/-- A decoder for runs on concrete frames: each byte is a gray pixel of the only row. -/
def grayRow : JPEGDecoder where
  header data := some (data.length, 1, 3)
  scanline data _ := some fun x => (data.getD x 0, data.getD x 0, data.getD x 0)
  finish _ := true

end JPEGDecoder

structure TileRect where
  x : Nat
  y : Nat
  width : Nat
  height : Nat
  deriving DecidableEq, Repr

def framebufferTileSize : Nat := 32

/-- Some row of the tile differs. -/
def tileDirty (previous current : List UInt16) (width x y tileW tileH : Nat) : Bool :=
  (List.range tileH).any fun row =>
    let offset := (y + row) * width + x
    (previous.drop offset).take tileW ≠ (current.drop offset).take tileW

def collectDirtyTiles (previous : Option (List UInt16)) (current : List UInt16) (width height : Nat) : List TileRect :=
  if width = 0 ∨ height = 0 then []
  else
    match previous with
    | none => [{ x := 0, y := 0, width, height }]
    | some previous =>
      let tilesX := (width + framebufferTileSize - 1) / framebufferTileSize
      let tilesY := (height + framebufferTileSize - 1) / framebufferTileSize
      let total := tilesX * tilesY
      let tiles := (List.range tilesY).flatMap fun ty =>
        let y := ty * framebufferTileSize
        let tileH := min framebufferTileSize (height - y)
        (List.range tilesX).filterMap fun tx =>
          let x := tx * framebufferTileSize
          let tileW := min framebufferTileSize (width - x)
          if tileDirty previous current width x y tileW tileH then
            some { x, y, width := tileW, height := tileH }
          else none
      if tiles.length * 5 ≥ total * 2 then [{ x := 0, y := 0, width, height }] else tiles

end OnekvmVnc
