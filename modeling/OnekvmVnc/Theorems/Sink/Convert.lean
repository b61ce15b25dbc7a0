import OnekvmVnc.Lib.Loop
import OnekvmVnc.Sink.Convert

/-! The indices that `frameToRGBA` uses for a frame that `validateVideoFrame` accepts. A row of NV12 or NV21 has
    pairs of chroma samples, but is counted with the width, so that with an odd width the last pair of the last row
    ends one byte behind what is required. -/

namespace OnekvmVnc

open Loop

/-- An index of the bytes. -/
def InRange (bytes : List UInt8) (i : Int) : Prop := 0 ≤ i ∧ i < bytes.length

section
variable {bytes : List UInt8} {i : Int}

theorem inRange_iff : InRange bytes i ↔ ∃ byte, index bytes i = .ok byte := by
  unfold InRange index
  constructor
  · rintro ⟨hpos, hlt⟩
    have hnat : i.toNat < bytes.length := by omega
    rw [if_pos hpos, List.getElem?_eq_getElem hnat]
    exact ⟨_, rfl⟩
  · rintro ⟨byte, h⟩
    split at h
    · rename_i hpos
      split at h
      · rename_i hget
        have := (List.getElem?_eq_some_iff.mp hget).1
        exact ⟨hpos, by omega⟩
      · cases h
    · cases h

theorem assign_ok (h : InRange bytes i) (byte : UInt8) : assign bytes i byte = .ok (bytes.set i.toNat byte) :=
  if_pos h

end

namespace RGBA

/-- An image of the size. -/
structure Sized (rgba : RGBA) (width height : Int) : Prop where
  pix : (rgba.pix.length : Int) = 4 * (width * height)
  width : rgba.width = width
  height : rgba.height = height

variable {rgba : RGBA} {width height x y : Int}

theorem Sized.new (hwidth : 0 < width) (hheight : 0 < height) : (RGBA.new width height).Sized width height where
  width := rfl
  height := rfl
  pix := by
    have hpos : 0 < width * height := Int.mul_pos hwidth hheight
    change ((List.replicate (4 * width * height).toNat (0 : UInt8)).length : Int) = _
    rw [List.length_replicate, Int.mul_assoc]
    omega

theorem Sized.writes (h : rgba.Sized width height) (hx : 0 ≤ x) (hwidth : x < width) (hy : 0 ≤ y) (hheight : y < height) :
    ∀ i ∈ rgba.writes x y, InRange rgba.pix i := by
  obtain ⟨hpos, hlt⟩ := position_bounds hy hheight hx hwidth
  have hoffset : rgba.pixOffset x y = 4 * (y * width + x) := by
    rw [pixOffset, h.width, Int.mul_left_comm, Int.mul_comm x, Int.mul_add]
  have hpix := h.pix
  unfold InRange
  simp only [RGBA.writes, hoffset, List.forall_mem_cons, List.not_mem_nil, false_implies, implies_true, and_true]
  omega

theorem write_eq (r g b : UInt8) : rgba.write x y r g b = (do
    let pix ← ((rgba.writes x y).zip [r, g, b, 255]).foldlM (fun pix p => assign pix p.1 p.2) rgba.pix
    return { rgba with pix }) :=
  rfl

theorem Sized.write (h : rgba.Sized width height) (hwrites : ∀ i ∈ rgba.writes x y, InRange rgba.pix i)
    (r g b : UInt8) : ∃ image, rgba.write x y r g b = .ok image ∧ image.Sized width height := by
  have hassign (pix : List UInt8) (hpix : pix.length = rgba.pix.length) (p : Int × UInt8)
      (hmem : p ∈ (rgba.writes x y).zip [r, g, b, 255]) :
      ∃ pix', assign pix p.1 p.2 = .ok pix' ∧ pix'.length = rgba.pix.length := by
    obtain ⟨hpos, hlt⟩ := hwrites p.1 (List.of_mem_zip hmem).1
    refine ⟨_, assign_ok ⟨hpos, hpix ▸ hlt⟩ p.2, ?_⟩
    rw [List.length_set, hpix]
  obtain ⟨pix, hpix, hlength⟩ := foldlM_ok hassign rfl
  refine ⟨{ rgba with pix }, ?_, ?_, h.width, h.height⟩
  · rw [write_eq, hpix]
    rfl
  · exact hlength ▸ h.pix

end RGBA

namespace VideoFrame
variable {frame : VideoFrame} {rgba image : RGBA} {x y : Int}

/-- The pixels of the frame. -/
def Pixel (frame : VideoFrame) (x y : Int) : Prop := 0 ≤ x ∧ x < frame.width ∧ 0 ≤ y ∧ y < frame.height

/-- A format without compression. -/
def Raw (frame : VideoFrame) : Prop :=
  frame.pixelFormat = .yuv420p ∨ frame.pixelFormat = .nv12 ∨ frame.pixelFormat = .nv21

instance (frame : VideoFrame) : Decidable frame.Raw := inferInstanceAs (Decidable (_ ∨ _ ∨ _))

/-- The frame has the bytes that it needs. -/
structure Accepted (frame : VideoFrame) (required : Int) : Prop where
  width : 0 < frame.width
  height : 0 < frame.height
  enough : required ≤ frame.data.length
  required : frame.required = some required

theorem Raw.accepted (raw : frame.Raw) (h : frame.validate = .ok ()) : ∃ required, frame.Accepted required := by
  have hformat : frame.pixelFormat ≠ .mjpeg := by
    rcases raw with hf | hf | hf <;> rw [hf] <;> exact nofun
  obtain ⟨required, hrequired⟩ : ∃ required, frame.required = some required := by
    unfold VideoFrame.required
    rcases raw with hf | hf | hf <;> rw [hf] <;> exact ⟨_, rfl⟩
  unfold validate at h
  rw [if_neg hformat, hrequired] at h
  split at h
  · cases h
  · rename_i hsize
    rw [not_or, Int.not_le, Int.not_le] at hsize
    dsimp only at h
    split at h
    · cases h
    · rename_i henough
      exact ⟨required, hsize.1, hsize.2, Int.not_lt.mp henough, hrequired⟩

theorem Raw.chromaOffsets (raw : frame.Raw) (x y : Int) : ∃ cb cr, frame.chromaOffsets x y = .ok (cb, cr) := by
  unfold VideoFrame.chromaOffsets
  rcases raw with hf | hf | hf <;> rw [hf] <;> exact ⟨_, _, rfl⟩

/-- A pixel is converted exactly when what is read for it is in range. -/
theorem Raw.convertPixel (raw : frame.Raw) {width height : Int} (h : rgba.Sized width height)
    (hwrites : ∀ i ∈ rgba.writes x y, InRange rgba.pix i) (hreads : ∀ i ∈ frame.reads x y, InRange frame.data i) :
    ∃ image, frame.convertPixel x y rgba = .ok image ∧ image.Sized width height := by
  obtain ⟨cbOffset, crOffset, hoffsets⟩ := raw.chromaOffsets x y
  simp only [reads, hoffsets, List.forall_mem_cons, inRange_iff] at hreads
  obtain ⟨⟨yv, hyv⟩, ⟨cb, hcb⟩, ⟨cr, hcr⟩, -⟩ := hreads
  obtain ⟨image, himage, hsized⟩ := h.write hwrites (yCbCrToRGB yv cb cr).1 (yCbCrToRGB yv cb cr).2.1
    (yCbCrToRGB yv cb cr).2.2
  refine ⟨image, ?_, hsized⟩
  rw [VideoFrame.convertPixel, hyv, hoffsets]
  dsimp only [bind, Except.bind]
  rw [hcb, hcr]
  exact himage

theorem Raw.reads_of_convertPixel (raw : frame.Raw) (h : frame.convertPixel x y rgba = .ok image) :
    ∀ i ∈ frame.reads x y, InRange frame.data i := by
  obtain ⟨cbOffset, crOffset, hoffsets⟩ := raw.chromaOffsets x y
  rw [VideoFrame.convertPixel, hoffsets] at h
  simp only [reads, hoffsets, List.forall_mem_cons, inRange_iff]
  dsimp only [bind, Except.bind] at h
  split at h
  · cases h
  · rename_i yv hyv
    split at h
    · cases h
    · rename_i cb hcb
      split at h
      · cases h
      · rename_i cr hcr
        exact ⟨⟨yv, hyv⟩, ⟨cb, hcb⟩, ⟨cr, hcr⟩, fun i hi => nomatch hi⟩

/-- The first byte of the pair of chroma samples in NV12 and NV21. -/
def pairOffset (frame : VideoFrame) (x y : Int) : Int :=
  frame.width * frame.height + y / 2 * frame.width + x / 2 * 2

theorem Accepted.luma {required : Int} (h : frame.Accepted required) (pixel : frame.Pixel x y)
    (hsize : frame.width * frame.height ≤ required) : InRange frame.data (frame.lumaOffset x y) := by
  obtain ⟨hx, hwidth, hy, hheight⟩ := pixel
  obtain ⟨hpos, hlt⟩ := position_bounds hy hheight hx hwidth
  exact ⟨hpos, hlt.trans_le (hsize.trans h.enough)⟩

/-- All samples of YUV420P are in range. -/
theorem Accepted.planar {required : Int} (h : frame.Accepted required) (hformat : frame.pixelFormat = .yuv420p)
    (pixel : frame.Pixel x y) : ∀ i ∈ frame.reads x y, InRange frame.data i := by
  have hrequired := h.required
  have henough := h.enough
  rw [VideoFrame.required, hformat, Option.some.injEq, Int.mul_assoc] at hrequired
  have hsize : 0 < frame.width * frame.height := Int.mul_pos h.width h.height
  obtain ⟨hx, hwidth, hy, hheight⟩ := id pixel
  have hrow : 0 ≤ y / 2 ∧ y / 2 < (frame.height + 1) / 2 := by omega
  have hcolumn : 0 ≤ x / 2 ∧ x / 2 < (frame.width + 1) / 2 := by omega
  obtain ⟨hpos, hlt⟩ := position_bounds hrow.1 hrow.2 hcolumn.1 hcolumn.2
  have hluma := h.luma pixel (by omega)
  simp only [reads, VideoFrame.chromaOffsets, hformat, List.forall_mem_cons]
  refine ⟨hluma, ⟨?_, ?_⟩, ⟨?_, ?_⟩, fun i hi => nomatch hi⟩ <;> omega

/-- What is read of NV12 and NV21 is in range when the second byte of the pair is. -/
theorem Accepted.paired {required : Int} (h : frame.Accepted required)
    (hformat : frame.pixelFormat = .nv12 ∨ frame.pixelFormat = .nv21) (pixel : frame.Pixel x y) :
    (∀ i ∈ frame.reads x y, InRange frame.data i) ↔ frame.pairOffset x y + 1 < frame.data.length := by
  have henough := h.enough
  have hrequired : frame.width * frame.height + frame.width * ((frame.height + 1) / 2) = required := by
    have hrequired := h.required
    unfold VideoFrame.required at hrequired
    rcases hformat with hf | hf <;> rw [hf] at hrequired <;> exact Option.some.inj hrequired
  have hsize : 0 < frame.width * frame.height := Int.mul_pos h.width h.height
  obtain ⟨hx, hwidth, hy, hheight⟩ := id pixel
  have hrow : 0 ≤ y / 2 ∧ y / 2 < (frame.height + 1) / 2 := by omega
  have hcolumn : 0 ≤ x / 2 * 2 ∧ x / 2 * 2 < frame.width := by omega
  obtain ⟨hpos, hlt⟩ := position_bounds hrow.1 hrow.2 hcolumn.1 hcolumn.2
  have hluma := h.luma pixel (by omega)
  have hfirst : InRange frame.data (frame.pairOffset x y) := by
    constructor <;> rw [pairOffset] <;> omega
  have hnonneg : 0 ≤ frame.pairOffset x y + 1 := Int.le_add_one hfirst.1
  have hsecond : InRange frame.data (frame.pairOffset x y + 1) ↔ frame.pairOffset x y + 1 < frame.data.length :=
    and_iff_right hnonneg
  rw [← hsecond]
  rcases hformat with hf | hf
  all_goals
    simp only [reads, VideoFrame.chromaOffsets, hf, List.forall_mem_cons]
    constructor
  · exact fun hall => hall.2.2.1
  · exact fun hlast => ⟨hluma, hfirst, hlast, fun i hi => nomatch hi⟩
  · exact fun hall => hall.2.1
  · exact fun hlast => ⟨hluma, hlast, hfirst, fun i hi => nomatch hi⟩

/-- What is read for all pixels is in range, unless the width is odd and the frame has no byte more than required. -/
theorem Accepted.readable {required : Int} (h : frame.Accepted required) (raw : frame.Raw) :
    (∀ x y, frame.Pixel x y → ∀ i ∈ frame.reads x y, InRange frame.data i) ↔
      frame.pixelFormat = .yuv420p ∨ frame.width % 2 = 0 ∨ frame.required ≠ some (frame.data.length : Int) := by
  rcases raw with hplanar | hpaired
  · exact iff_of_true (fun x y pixel => h.planar hplanar pixel) (.inl hplanar)
  · have hnot : frame.pixelFormat ≠ .yuv420p := by
      rcases hpaired with hf | hf <;> rw [hf] <;> exact nofun
    have hrequired := h.required
    have hsum : frame.width * frame.height + frame.width * ((frame.height + 1) / 2) = required := by
      unfold VideoFrame.required at hrequired
      rcases hpaired with hf | hf <;> rw [hf] at hrequired <;> exact Option.some.inj hrequired
    have henough := h.enough
    have hwidth := h.width
    have hheight := h.height
    rw [or_iff_right hnot, hrequired, ne_eq, Option.some.injEq]
    constructor
    · -- the last pixel of an odd width has its pair half behind what is required
      intro hall
      by_contra hneither
      rw [not_or, not_not] at hneither
      have pixel : frame.Pixel (frame.width - 1) (frame.height - 1) := ⟨by omega, by omega, by omega, by omega⟩
      have hlast := (h.paired hpaired pixel).mp (hall _ _ pixel)
      have hrow : (frame.height - 1) / 2 = (frame.height + 1) / 2 - 1 := by omega
      have hcolumn : (frame.width - 1) / 2 * 2 = frame.width - 1 := by omega
      rw [pairOffset, hrow, hcolumn, Int.sub_mul, Int.one_mul, Int.mul_comm ((frame.height + 1) / 2)] at hlast
      omega
    · intro hroom x y pixel
      rw [h.paired hpaired pixel, pairOffset]
      obtain ⟨hx, hlt, hy, hlty⟩ := pixel
      have hrow : 0 ≤ y / 2 ∧ y / 2 < (frame.height + 1) / 2 := by omega
      rcases hroom with heven | hmore
      · have hcolumn : 0 ≤ x / 2 * 2 + 1 ∧ x / 2 * 2 + 1 < frame.width := by omega
        obtain ⟨-, hend⟩ := position_bounds hrow.1 hrow.2 hcolumn.1 hcolumn.2
        omega
      · have hcolumn : 0 ≤ x / 2 * 2 ∧ x / 2 * 2 < frame.width := by omega
        obtain ⟨-, hend⟩ := position_bounds hrow.1 hrow.2 hcolumn.1 hcolumn.2
        omega

/-- A row is converted when what is read for its pixels is in range. -/
theorem Raw.convertRow (raw : frame.Raw) (h : rgba.Sized frame.width frame.height) (hy : 0 ≤ y)
    (hheight : y < frame.height)
    (hreads : ∀ x, 0 ≤ x → x < frame.width → ∀ i ∈ frame.reads x y, InRange frame.data i) :
    ∃ image, frame.convertRow y rgba = .ok image ∧ image.Sized frame.width frame.height := by
  refine foldlM_ok (fun image hsized x hx => ?_) h
  have hlt : (x : Int) < frame.width := by
    have := List.mem_range.mp hx
    omega
  exact raw.convertPixel hsized (hsized.writes (Int.natCast_nonneg x) hlt hy hheight)
    (hreads x (Int.natCast_nonneg x) hlt)

/-- An accepted frame is converted exactly when what is read for its pixels is in range. -/
theorem Raw.frameToRGBA (raw : frame.Raw) (decode : List UInt8 → Except String RGBA) (hvalid : frame.validate = .ok ())
    (hwidth : 0 < frame.width) (hheight : 0 < frame.height) :
    (∀ x y, frame.Pixel x y → ∀ i ∈ frame.reads x y, InRange frame.data i) ↔
      ∃ image, frame.frameToRGBA decode = .ok image ∧ image.Sized frame.width frame.height := by
  have hformat : frame.pixelFormat ≠ .mjpeg := by
    rcases raw with hf | hf | hf <;> rw [hf] <;> exact nofun
  rw [VideoFrame.frameToRGBA, hvalid]
  dsimp only
  rw [if_neg hformat]
  constructor
  · intro hall
    refine foldlM_ok (fun image hsized y hy => ?_) (.new hwidth hheight)
    have hlt : (y : Int) < frame.height := by
      have := List.mem_range.mp hy
      omega
    exact raw.convertRow hsized (Int.natCast_nonneg y) hlt
      fun x hx hltx => hall x y ⟨hx, hltx, Int.natCast_nonneg y, hlt⟩
  · rintro ⟨image, himage, -⟩ x y ⟨hx, hltx, hy, hlty⟩
    obtain ⟨u, v, hrow⟩ := turn_of_foldlM_ok himage y.toNat (List.mem_range.mpr (by omega))
    obtain ⟨u', v', hpixel⟩ := turn_of_foldlM_ok hrow x.toNat (List.mem_range.mpr (by omega))
    rw [Int.toNat_of_nonneg hx, Int.toNat_of_nonneg hy] at hpixel
    exact raw.reads_of_convertPixel hpixel

/-- The conversion uses only indices in range, and returns an image of the size of the frame. -/
structure Converts (frame : VideoFrame) (decode : List UInt8 → Except String RGBA) : Prop where
  reads : ∀ x y, frame.Pixel x y → ∀ i ∈ frame.reads x y, InRange frame.data i
  writes : ∀ x y, frame.Pixel x y → ∀ rgba : RGBA, rgba.Sized frame.width frame.height →
    ∀ i ∈ rgba.writes x y, InRange rgba.pix i
  image : ∃ image, frame.frameToRGBA decode = .ok image ∧ image.Sized frame.width frame.height

end VideoFrame

/-- An accepted frame without compression is converted exactly when it is YUV420P, or its width is even, or it has a
    byte more than required. -/
theorem frameToRGBA_converts (frame : VideoFrame) (decode : List UInt8 → Except String RGBA)
    (hvalid : frame.validate = .ok ()) (raw : frame.Raw) : frame.Converts decode ↔
      frame.pixelFormat = .yuv420p ∨ frame.width % 2 = 0 ∨ frame.required ≠ some (frame.data.length : Int) := by
  obtain ⟨required, accepted⟩ := raw.accepted hvalid
  rw [← accepted.readable raw]
  constructor
  · exact VideoFrame.Converts.reads
  · intro hreads
    refine ⟨hreads, fun x y pixel rgba hsized => ?_, ?_⟩
    · obtain ⟨hx, hwidth, hy, hheight⟩ := pixel
      exact hsized.writes hx hwidth hy hheight
    · exact (raw.frameToRGBA decode hvalid accepted.width accepted.height).mp hreads

/-- A frame of NV12 with an odd width, and no byte more than required. -/
def oddFrame : VideoFrame := { width := 3, height := 2, pixelFormat := .nv12, data := List.replicate 9 128 }

/-- The second byte of its last pair is the byte behind the frame. -/
theorem oddFrame_outOfRange : oddFrame.frameToRGBA (fun _ => .error "") = .error .outOfRange ∧
    ¬ ∀ (frame : VideoFrame) (decode : List UInt8 → Except String RGBA),
      frame.validate = .ok () → frame.Raw → frame.Converts decode := by
  refine ⟨by rfl, fun h => ?_⟩
  have hconverts := h oddFrame (fun _ => .error "") (by decide) (.inr (.inl rfl))
  have hlast := hconverts.reads 2 1 ⟨by decide, by decide, by decide, by decide⟩ 9 (by decide)
  exact absurd hlast.2 (by decide)

/-- An even width is converted. -/
theorem frameToRGBA_converts_even :
    let frame : VideoFrame := { width := 2, height := 2, pixelFormat := .nv12, data := List.replicate 6 128 }
    frame.Converts (fun _ => .error "") ∧ ¬ oddFrame.Converts (fun _ => .error "") :=
  ⟨(frameToRGBA_converts _ _ (by decide) (.inr (.inl rfl))).mpr (.inr (.inl (by decide))),
    fun h => absurd ((frameToRGBA_converts oddFrame _ (by decide) (.inr (.inl rfl))).mp h) (by decide)⟩

end OnekvmVnc
