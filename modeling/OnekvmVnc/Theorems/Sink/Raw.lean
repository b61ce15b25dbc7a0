import OnekvmVnc.Lib.Fields
import OnekvmVnc.Sink.Raw
import OnekvmVnc.Theorems.Sink.Convert

/-! A viewer reads back what `rawEncoding` writes. Every component of a pixel has its own bits in the format of the
    viewer, and the rectangle is what the request and the image have in common. -/

namespace OnekvmVnc

open Decoder Fields Loop

/-! ### Pixels -/

namespace RFBPixelFormat
variable {pf : RFBPixelFormat} {r g b value : UInt8}

/-- The components of a colour on the scale of the format. -/
def scaledColour (pf : RFBPixelFormat) (colour : UInt8 × UInt8 × UInt8) : Nat × Nat × Nat :=
  (scaled colour.1 pf.redMax, scaled colour.2.1 pf.greenMax, scaled colour.2.2 pf.blueMax)

/-- The bits of the components. -/
def fields (pf : RFBPixelFormat) (redBits greenBits blueBits : Nat) : List BitField :=
  [.mk pf.redShift.toNat redBits, .mk pf.greenShift.toNat greenBits, .mk pf.blueShift.toNat blueBits]

/-- A format that a viewer may ask for: the greatest values fill their bits, and no bit is taken twice. -/
structure Proper (pf : RFBPixelFormat) (redBits greenBits blueBits : Nat) : Prop where
  bpp : pf.bpp = 16 ∨ pf.bpp = 32
  red : pf.redMax.toNat = 2 ^ redBits - 1
  green : pf.greenMax.toNat = 2 ^ greenBits - 1
  blue : pf.blueMax.toNat = 2 ^ blueBits - 1
  apart : (pf.fields redBits greenBits blueBits).Pairwise BitField.Apart
  room : ∀ f ∈ pf.fields redBits greenBits blueBits, f.shift + f.width ≤ pf.bpp.toNat

theorem scaled_le (value : UInt8) (max : UInt16) : scaled value max ≤ max.toNat := by
  have hvalue : value.toNat ≤ 255 := Nat.le_of_lt_succ value.toNat_lt
  calc value.toNat * max.toNat / 255 ≤ 255 * max.toNat / 255 := Nat.div_le_div_right (Nat.mul_le_mul_right _ hvalue)
    _ = max.toNat := Nat.mul_div_cancel_left _ (by decide)

theorem fits_scaled {max : UInt16} {bits : Nat} (h : max.toNat = 2 ^ bits - 1) (value : UInt8) (shift : Nat) :
    (BitField.mk shift bits).Fits (scaled value max) := by
  have hle := scaled_le value max
  have hpos := Nat.two_pow_pos bits
  change scaled value max < 2 ^ bits
  omega

theorem shifted_eq {value bits : Nat} {shift : UInt8} (h : (BitField.mk shift.toNat bits).Fits value)
    (room : shift.toNat + bits ≤ 32) : shifted value shift = (BitField.mk shift.toNat bits).put value :=
  Nat.mod_eq_of_lt (BitField.put_lt h room)

theorem get_eq {max : UInt16} {bits : Nat} (h : max.toNat = 2 ^ bits - 1) (pixel shift : Nat) :
    pixel >>> shift &&& max.toNat = (BitField.mk shift bits).get pixel := by
  rw [h, Nat.and_two_pow_sub_one_eq_mod]
  rfl

variable {redBits greenBits blueBits : Nat}

/-- The fields with what is put into them. -/
def entries (pf : RFBPixelFormat) (redBits greenBits blueBits : Nat) (r g b : UInt8) : List (BitField × Nat) :=
  [(.mk pf.redShift.toNat redBits, scaled r pf.redMax), (.mk pf.greenShift.toNat greenBits, scaled g pf.greenMax),
    (.mk pf.blueShift.toNat blueBits, scaled b pf.blueMax)]

theorem Proper.bits (h : pf.Proper redBits greenBits blueBits) : pf.bpp.toNat ≤ 32 := by
  rcases h.bpp with hbpp | hbpp <;> rw [hbpp] <;> decide

theorem Proper.fits (h : pf.Proper redBits greenBits blueBits) (r g b : UInt8) :
    ∀ entry ∈ pf.entries redBits greenBits blueBits r g b, entry.1.Fits entry.2 :=
  List.forall_mem_cons.mpr ⟨fits_scaled h.red r _, List.forall_mem_cons.mpr ⟨fits_scaled h.green g _,
    List.forall_mem_singleton.mpr (fits_scaled h.blue b _)⟩⟩

theorem Proper.entries_apart (h : pf.Proper redBits greenBits blueBits) (r g b : UInt8) :
    (pf.entries redBits greenBits blueBits r g b).Pairwise fun entry other => entry.1.Apart other.1 :=
  List.pairwise_map.mp h.apart

/-- The pixel is a word with a field for each component. -/
theorem Proper.pixel_eq (h : pf.Proper redBits greenBits blueBits) (r g b : UInt8) :
    pf.pixel r g b = word (pf.entries redBits greenBits blueBits r g b) := by
  have hroom := h.room
  simp only [fields, List.forall_mem_cons] at hroom
  obtain ⟨hred, hgreen, hblue, -⟩ := hroom
  rw [pixel, shifted_eq (fits_scaled h.red r _) (hred.trans h.bits), shifted_eq (fits_scaled h.green g _) (hgreen.trans h.bits),
    shifted_eq (fits_scaled h.blue b _) (hblue.trans h.bits), Nat.or_assoc]
  simp only [entries, word, Nat.or_zero]

/-- Every component is found in its bits. -/
theorem Proper.components (h : pf.Proper redBits greenBits blueBits) (r g b : UInt8) :
    (pf.pixel r g b >>> pf.redShift.toNat &&& pf.redMax.toNat, pf.pixel r g b >>> pf.greenShift.toNat &&& pf.greenMax.toNat,
      pf.pixel r g b >>> pf.blueShift.toNat &&& pf.blueMax.toNat) = pf.scaledColour (r, g, b) := by
  have hfits := h.fits r g b
  have hapart := h.entries_apart r g b
  rw [h.pixel_eq, get_eq h.red, get_eq h.green, get_eq h.blue, get_word hfits hapart (List.mem_cons_self ..),
    get_word hfits hapart (List.mem_cons_of_mem _ (List.mem_cons_self ..)),
    get_word hfits hapart (List.mem_cons_of_mem _ (List.mem_cons_of_mem _ (List.mem_cons_self ..)))]
  rfl

/-! ### Bytes -/

theorem Proper.length_bytes (h : pf.Proper redBits greenBits blueBits) (pixel : Nat) :
    (pf.bytes pixel).length = pf.bytesPerPixel := by
  have hlittle : (pf.littleEndian pixel).length = pf.bytesPerPixel := by
    rw [littleEndian, bytesPerPixel]
    rcases h.bpp with hbpp | hbpp
    · rw [hbpp, if_pos rfl]
      change 2 = _
      decide
    · rw [hbpp, if_neg (by decide)]
      change 4 = _
      decide
  rw [bytes]
  split
  · rw [List.length_reverse, hlittle]
  · exact hlittle

end RFBPixelFormat

/-! ### Rectangles -/

namespace RawRectangle

end RawRectangle

namespace RGBA
variable {image : RGBA} {width height : Int} {pf : RFBPixelFormat} {rect : RawRectangle} {x y : Nat}

/-- The colour of a pixel of the image. -/
def colour (image : RGBA) (x y : Nat) : UInt8 × UInt8 × UInt8 :=
  let offset := (image.pixOffset x y).toNat
  (image.pix.getD offset 0, image.pix.getD (offset + 1) 0, image.pix.getD (offset + 2) 0)

/-- The colours of a rectangle, row by row. -/
def colours (image : RGBA) (rect : RawRectangle) : List (UInt8 × UInt8 × UInt8) :=
  (List.range' rect.y.toNat rect.height.toNat).flatMap fun y =>
    (List.range' rect.x.toNat rect.width.toNat).map fun x => image.colour x y

theorem index_getD {bytes : List UInt8} {i : Int} (h : InRange bytes i) : index bytes i = .ok (bytes.getD i.toNat 0) := by
  obtain ⟨byte, hbyte⟩ := inRange_iff.mp h
  have hget : bytes[i.toNat]? = some byte := by
    unfold index at hbyte
    rw [if_pos h.1] at hbyte
    split at hbyte
    · rename_i hget
      cases hbyte
      exact hget
    · cases hbyte
  rw [hbyte, List.getD_eq_getElem?_getD, hget]
  rfl

/-- Every pixel of the image is written. -/
theorem Sized.rawPixel (sized : image.Sized width height) (hx : (x : Int) < width) (hy : (y : Int) < height) :
    image.rawPixel pf x y = .ok (pf.bytes (pf.pixel (image.colour x y).1 (image.colour x y).2.1 (image.colour x y).2.2)) := by
  have hrange := sized.writes (Int.natCast_nonneg x) hx (Int.natCast_nonneg y) hy
  simp only [RGBA.writes, List.forall_mem_cons] at hrange
  obtain ⟨hr, hg, hb, -⟩ := hrange
  have hsecond : (image.pixOffset x y + 1).toNat = (image.pixOffset x y).toNat + 1 := by
    have := hr.1
    omega
  have hthird : (image.pixOffset x y + 2).toNat = (image.pixOffset x y).toNat + 2 := by
    have := hr.1
    omega
  rw [RGBA.rawPixel, index_getD hr, index_getD hg, index_getD hb, hsecond, hthird]
  rfl

/-- The bytes of a colour. -/
def code (pf : RFBPixelFormat) (colour : UInt8 × UInt8 × UInt8) : List UInt8 :=
  pf.bytes (pf.pixel colour.1 colour.2.1 colour.2.2)

variable {redBits greenBits blueBits : Nat}

theorem length_code (proper : pf.Proper redBits greenBits blueBits) (colours : List (UInt8 × UInt8 × UInt8)) :
    (colours.flatMap (code pf)).length = colours.length * pf.bytesPerPixel := by
  induction colours with
  | nil => rw [List.flatMap_nil, List.length_nil, List.length_nil, Nat.zero_mul]
  | cons colour rest ih =>
    rw [List.flatMap_cons, List.length_append, List.length_cons, ih, code, proper.length_bytes, Nat.succ_mul, Nat.add_comm]

/-- A line is made of the pixels that the loop comes to, which may be none: the sum of 16 bits may wrap. -/
theorem Sized.rawLine_eq (sized : image.Sized width height) (hx : (rect.x.toNat + rect.width.toNat : Int) ≤ width)
    (hy : (y : Int) < height) : image.rawLine pf rect y =
      .ok (((List.range' rect.x.toNat ((rect.x + rect.width).toNat - rect.x.toNat)).map fun x =>
          code pf (image.colour x y)).flatten ++
        List.replicate (rect.width.toNat * pf.bytesPerPixel -
          ((List.range' rect.x.toNat ((rect.x + rect.width).toNat - rect.x.toNat)).map fun x =>
            code pf (image.colour x y)).flatten.length) 0) := by
  have hsum : (rect.x + rect.width).toNat ≤ rect.x.toNat + rect.width.toNat := by
    rw [UInt16.toNat_add]
    exact Nat.mod_le _ _
  have hpixels : (List.range' rect.x.toNat ((rect.x + rect.width).toNat - rect.x.toNat)).mapM
      (fun x => image.rawPixel pf x y) =
        .ok ((List.range' rect.x.toNat ((rect.x + rect.width).toNat - rect.x.toNat)).map fun x =>
          code pf (image.colour x y)) := by
    refine mapM_ok fun x hmem => sized.rawPixel ?_ hy
    have := (List.mem_range'_1.mp hmem).2
    omega
  rw [RGBA.rawLine, hpixels]
  rfl

/-- Without a wrap, every line is made of its pixels. -/
theorem Sized.rawLine (sized : image.Sized width height) (proper : pf.Proper redBits greenBits blueBits)
    (wraps : rect.x.toNat + rect.width.toNat < 65536) (hx : (rect.x.toNat + rect.width.toNat : Int) ≤ width)
    (hy : (y : Int) < height) : image.rawLine pf rect y =
      .ok (((List.range' rect.x.toNat rect.width.toNat).map fun x => image.colour x y).flatMap (code pf)) := by
  have hsum : (rect.x + rect.width).toNat - rect.x.toNat = rect.width.toNat := by
    rw [UInt16.toNat_add, Nat.mod_eq_of_lt wraps, Nat.add_sub_cancel_left]
  have hlength := length_code proper ((List.range' rect.x.toNat rect.width.toNat).map fun x => image.colour x y)
  rw [List.length_map, List.length_range'] at hlength
  have hflatten : ((List.range' rect.x.toNat rect.width.toNat).map fun x => code pf (image.colour x y)).flatten =
      ((List.range' rect.x.toNat rect.width.toNat).map fun x => image.colour x y).flatMap (code pf) := by
    rw [List.flatMap_def, List.map_map]
    rfl
  rw [sized.rawLine_eq hx hy, hsum, hflatten, hlength, Nat.sub_self, List.replicate_zero, List.append_nil]

theorem toNat_ofInt {value : Int} (hpos : 0 ≤ value) (hlt : value < 65536) :
    (UInt16.ofInt value).toNat = value.toNat := by
  rw [UInt16.ofInt, UInt16.toNat_ofNat']
  omega

end RGBA

end OnekvmVnc
