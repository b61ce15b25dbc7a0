import OnekvmVnc.Server

/-! Decoding writes every pixel, and the tiles of `CollectDirtyTiles` cover every pixel that differs. -/

namespace OnekvmVnc

namespace JPEGDecoder
variable {decoder : JPEGDecoder} {data : List UInt8} {out : List UInt16} {width height : Nat}

/-- The pixels of the scanlines from `y` on, none after a failure. -/
def scanlines (decoder : JPEGDecoder) (data : List UInt8) (width : Nat) : Nat → Nat → Option (List UInt16)
  | 0, _ => some []
  | rows + 1, y =>
    match decoder.scanline data y with
    | none => none
    | some row => (decoder.scanlines data width rows (y + 1)).map ((List.range width).map (fun x => packRGB565 (row x)) ++ ·)

theorem scanlines_length {rows y : Nat} {pixels : List UInt16} (h : decoder.scanlines data width rows y = some pixels) :
    pixels.length = rows * width := by
  induction rows generalizing y pixels with
  | zero =>
    obtain rfl := Option.some.inj h
    simp
  | succ rows ih =>
    rw [scanlines] at h
    cases hrow : decoder.scanline data y with
    | none => simp [hrow] at h
    | some row =>
      simp only [hrow, Option.map_eq_some_iff] at h
      obtain ⟨rest, hrest, rfl⟩ := h
      rw [List.length_append, ih hrest, List.length_map, List.length_range, Nat.succ_mul, Nat.add_comm]

/-- The rows up to `y`, after row `y` has been written. -/
def writtenRows (out : List UInt16) (width y : Nat) (row : Nat → UInt8 × UInt8 × UInt8) : List UInt16 :=
  out.take (y * width) ++ (List.range width).map fun x => packRGB565 (row x)

theorem writtenRows_length {y : Nat} {row : Nat → UInt8 × UInt8 × UInt8} (h : (y + 1) * width ≤ out.length) :
    (writtenRows out width y row).length = (y + 1) * width := by
  have hrow : (y + 1) * width = y * width + width := Nat.succ_mul y width
  simp only [writtenRows, List.length_append, List.length_take, List.length_map, List.length_range]
  omega

theorem writeRow_length {y : Nat} {row : Nat → UInt8 × UInt8 × UInt8} (h : (y + 1) * width ≤ out.length) :
    (writeRow out width y row).length = out.length := by
  have hrow : (writtenRows out width y row).length = (y + 1) * width := writtenRows_length h
  have heq : writeRow out width y row = writtenRows out width y row ++ out.drop ((y + 1) * width) := rfl
  rw [heq, List.length_append, hrow, List.length_drop]
  omega

/-- The rows before `y` are kept, those from `y` on are the scanlines. -/
theorem decodeRows_eq {rows y : Nat} (h : (y + rows) * width ≤ out.length) {decoded : List UInt16}
    (hdecode : decoder.decodeRows data width rows y out = (decoded, true)) :
    ∃ pixels, decoder.scanlines data width rows y = some pixels ∧
      decoded = out.take (y * width) ++ pixels ++ out.drop ((y + rows) * width) := by
  induction rows generalizing y out with
  | zero =>
    cases hdecode
    exact ⟨[], rfl, by simp⟩
  | succ rows ih =>
    rw [decodeRows] at hdecode
    cases hrow : decoder.scanline data y with
    | none => simp [hrow] at hdecode
    | some row =>
      simp only [hrow] at hdecode
      have hrows : y + 1 + rows = y + (rows + 1) := by omega
      have hfits : (y + 1) * width ≤ out.length := le_trans (Nat.mul_le_mul_right width (by omega)) h
      obtain ⟨pixels, hpixels, hdecoded⟩ := ih (by rwa [writeRow_length hfits, hrows]) hdecode
      refine ⟨_, by rw [scanlines, hrow, hpixels]; rfl, ?_⟩
      have heq : writeRow out width y row = writtenRows out width y row ++ out.drop ((y + 1) * width) := rfl
      have hlength : (writtenRows out width y row).length = (y + 1) * width := writtenRows_length hfits
      have hle : (y + 1) * width ≤ (y + (rows + 1)) * width := Nat.mul_le_mul_right width (by omega)
      rw [hdecoded, hrows, heq, List.take_left' hlength, List.drop_append, hlength,
        List.drop_eq_nil_of_le (by rw [hlength]; exact hle), List.nil_append, List.drop_drop,
        Nat.add_sub_cancel' hle, writtenRows, List.append_assoc (out.take (y * width))]

theorem decodeRows_snd (rows y : Nat) :
    (decoder.decodeRows data width rows y out).2 = (decoder.scanlines data width rows y).isSome := by
  induction rows generalizing y out with
  | zero => rfl
  | succ rows ih =>
    rw [decodeRows, scanlines]
    cases decoder.scanline data y with
    | none => rfl
    | some row => simp [ih]

theorem decodeRows_all (hlength : out.length = width * height) {decoded : List UInt16}
    (h : decoder.decodeRows data width height 0 out = (decoded, true)) :
    decoder.scanlines data width height 0 = some decoded := by
  have hsize : (0 + height) * width = out.length := by rw [Nat.zero_add, Nat.mul_comm, hlength]
  obtain ⟨pixels, hpixels, rfl⟩ := decodeRows_eq (le_of_eq hsize) h
  rw [hpixels, hsize, Nat.zero_mul, List.take_zero, List.nil_append, List.drop_length, List.append_nil]

theorem decodeJPEGToRGB565_rows {decoded : List UInt16}
    (h : decoder.decodeJPEGToRGB565 data out width height = (decoded, true)) :
    decoder.decodeRows data width height 0 out = (decoded, true) ∧
      ∀ out', decoder.decodeJPEGToRGB565 data out' width height = decoder.decodeRows data width height 0 out' := by
  unfold decodeJPEGToRGB565 at h ⊢
  split at h
  · cases h
  · rename_i hempty
    simp only [if_neg hempty]
    cases hheader : decoder.header data with
    | none => simp [hheader] at h
    | some header =>
      simp only [hheader] at h ⊢
      split at h
      · cases h
      · rename_i hmatch
        simp only [if_neg hmatch]
        rw [Prod.mk.injEq, Bool.and_eq_true] at h
        obtain ⟨hdecoded, hok, hfinish⟩ := h
        refine ⟨Prod.ext hdecoded hok, ?_⟩
        intro out'
        rw [hfinish, Bool.and_true]

/-- A frame that is decoded fills the buffer, whatever was in it. -/
theorem decodeJPEGToRGB565_eq (hlength : out.length = width * height) {decoded : List UInt16}
    (h : decoder.decodeJPEGToRGB565 data out width height = (decoded, true)) :
    decoded.length = width * height ∧
      ∀ out', out'.length = width * height → decoder.decodeJPEGToRGB565 data out' width height = (decoded, true) := by
  obtain ⟨hrows, hall⟩ := decodeJPEGToRGB565_rows h
  have hscanlines := decodeRows_all hlength hrows
  refine ⟨by rw [scanlines_length hscanlines, Nat.mul_comm], ?_⟩
  intro out' hlength'
  rw [hall]
  have hok : (decoder.decodeRows data width height 0 out').2 = true := by rw [decodeRows_snd, hscanlines, Option.isSome_some]
  have hsame := decodeRows_all hlength' (Prod.ext rfl hok)
  rw [hscanlines, Option.some.injEq] at hsame
  exact Prod.ext hsame.symm hok

theorem decodeRows_length (rows y : Nat) (h : (y + rows) * width ≤ out.length) :
    (decoder.decodeRows data width rows y out).1.length = out.length := by
  induction rows generalizing y out with
  | zero => rfl
  | succ rows ih =>
    rw [decodeRows]
    cases decoder.scanline data y with
    | none => rfl
    | some row =>
      have hfits : (y + 1) * width ≤ out.length := le_trans (Nat.mul_le_mul_right width (by omega)) h
      have hlength : (writeRow out width y row).length = out.length := writeRow_length hfits
      dsimp only
      rw [ih (y + 1) (by rwa [hlength, show y + 1 + rows = y + (rows + 1) by omega]), hlength]

/-- A frame that is not decoded leaves the buffer as long as it was. -/
theorem decodeJPEGToRGB565_length (decoder : JPEGDecoder) (data : List UInt8)
    (hlength : out.length = width * height) :
    (decoder.decodeJPEGToRGB565 data out width height).1.length = width * height := by
  unfold decodeJPEGToRGB565
  split
  · exact hlength
  · split
    · exact hlength
    · split
      · exact hlength
      · dsimp only
        rw [decodeRows_length height 0 (by rw [Nat.zero_add, Nat.mul_comm, hlength]), hlength]

end JPEGDecoder

theorem Server.image_eq {decoder : JPEGDecoder} {frame : JPEGFrame} {width height : UInt16} {out decoded : List UInt16}
    (hlength : out.length = width.toNat * height.toNat)
    (h : decoder.decodeJPEGToRGB565 frame.data out width.toNat height.toNat = (decoded, true)) :
    Server.image decoder frame width height = pixelAt decoded width.toNat := by
  have hfresh := (JPEGDecoder.decodeJPEGToRGB565_eq hlength h).2
    (List.replicate (width.toNat * height.toNat) 0) List.length_replicate
  rw [Server.image, hfresh]
  rfl

/-! ### Tiles -/

def TileRect.region (tile : TileRect) : Region := rectRegion tile.x tile.y (tile.x + tile.width) (tile.y + tile.height)

theorem mem_rectRegion {x1 y1 x2 y2 : Nat} {p : Nat × Nat} :
    p ∈ rectRegion x1 y1 x2 y2 ↔ (x1 ≤ p.1 ∧ p.1 < x2) ∧ y1 ≤ p.2 ∧ p.2 < y2 := by
  rw [rectRegion, Finset.mem_product, Finset.mem_Ico, Finset.mem_Ico]

/-- A pixel of the screen is a pixel of the framebuffer. -/
theorem pixelAt_isSome {framebuffer : List UInt16} {width height : Nat} (hlength : framebuffer.length = width * height)
    {p : Nat × Nat} (hp : p ∈ rectRegion 0 0 width height) : (pixelAt framebuffer width p).isSome = true := by
  obtain ⟨⟨-, hx⟩, -, hy⟩ := mem_rectRegion.mp hp
  rw [pixelAt, isSome_getElem?, hlength]
  calc p.2 * width + p.1 < p.2 * width + width := by omega
    _ = (p.2 + 1) * width := (Nat.succ_mul p.2 width).symm
    _ ≤ height * width := Nat.mul_le_mul_right width hy
    _ = width * height := Nat.mul_comm height width

theorem tileDirty_of_ne {previous current : List UInt16} {width x y tileW tileH : Nat} {p : Nat × Nat}
    (hp : p ∈ rectRegion x y (x + tileW) (y + tileH)) (h : pixelAt previous width p ≠ pixelAt current width p) :
    tileDirty previous current width x y tileW tileH = true := by
  obtain ⟨⟨hx, hx'⟩, hy, hy'⟩ := mem_rectRegion.mp hp
  rw [tileDirty, List.any_eq_true]
  refine ⟨p.2 - y, List.mem_range.mpr (by omega), ?_⟩
  rw [decide_eq_true_eq]
  intro hslice
  apply h
  have hpixel := congrArg (·[p.1 - x]?) hslice
  have hoffset : (y + (p.2 - y)) * width + x + (p.1 - x) = p.2 * width + p.1 := by
    rw [show y + (p.2 - y) = p.2 by omega]
    omega
  simp only [List.getElem?_take, List.getElem?_drop, if_pos (show p.1 - x < tileW by omega), hoffset] at hpixel
  exact hpixel

/-- The tiles cover every pixel that differs. -/
theorem collectDirtyTiles_covers (previous : Option (List UInt16)) (current : List UInt16) {width height : Nat}
    {p : Nat × Nat} (hp : p ∈ rectRegion 0 0 width height)
    (h : ∀ pixels, previous = some pixels → pixelAt pixels width p ≠ pixelAt current width p) :
    ∃ tile ∈ collectDirtyTiles previous current width height, p ∈ tile.region := by
  have hwhole : p ∈ TileRect.region { x := 0, y := 0, width, height } := by
    rw [TileRect.region, Nat.zero_add, Nat.zero_add]
    exact hp
  obtain ⟨⟨-, hx⟩, -, hy⟩ := mem_rectRegion.mp hp
  unfold collectDirtyTiles
  rw [if_neg (by omega)]
  cases previous with
  | none => exact ⟨_, List.mem_singleton.mpr rfl, hwhole⟩
  | some previous =>
    dsimp only
    split
    · exact ⟨_, List.mem_singleton.mpr rfl, hwhole⟩
    · obtain ⟨tx, htx⟩ : ∃ tx, tx = p.1 / 32 := ⟨_, rfl⟩
      obtain ⟨ty, hty⟩ : ∃ ty, ty = p.2 / 32 := ⟨_, rfl⟩
      have htile : p ∈ rectRegion (tx * framebufferTileSize) (ty * framebufferTileSize)
          (tx * framebufferTileSize + min framebufferTileSize (width - tx * framebufferTileSize))
          (ty * framebufferTileSize + min framebufferTileSize (height - ty * framebufferTileSize)) := by
        rw [mem_rectRegion]
        unfold framebufferTileSize
        omega
      have hdirty := tileDirty_of_ne htile (h previous rfl)
      refine ⟨⟨tx * framebufferTileSize, ty * framebufferTileSize,
        min framebufferTileSize (width - tx * framebufferTileSize),
        min framebufferTileSize (height - ty * framebufferTileSize)⟩, ?_, htile⟩
      refine List.mem_flatMap.mpr ⟨ty, List.mem_range.mpr ?_, List.mem_filterMap.mpr ⟨tx, List.mem_range.mpr ?_, ?_⟩⟩
      · unfold framebufferTileSize
        omega
      · unfold framebufferTileSize
        omega
      · exact if_pos hdirty

end OnekvmVnc
