import OnekvmVnc.Theorems.Tiles

/-! The tiles of `CollectDirtyTiles` as a patch. They are the cells of the grid that differ, or the whole frame
    where those are many, and copying the current pixels over the previous ones inside them is enough. -/

namespace OnekvmVnc

/-- A cell of the grid, cut at the right and bottom edges. -/
def gridCell (width height tx ty : Nat) : TileRect :=
  { x := tx * framebufferTileSize
    y := ty * framebufferTileSize
    width := min framebufferTileSize (width - tx * framebufferTileSize)
    height := min framebufferTileSize (height - ty * framebufferTileSize) }

/-- The cells of the grid, row by row. -/
def gridCells (width height : Nat) : List TileRect :=
  (List.range ((height + framebufferTileSize - 1) / framebufferTileSize)).flatMap fun ty =>
    (List.range ((width + framebufferTileSize - 1) / framebufferTileSize)).map fun tx => gridCell width height tx ty

/-- Some pixel of the tile differs. -/
def TileRect.Differs (tile : TileRect) (previous current : List UInt16) (width : Nat) : Prop :=
  ∃ p ∈ tile.region, pixelAt previous width p ≠ pixelAt current width p

instance (tile : TileRect) (previous current : List UInt16) (width : Nat) :
    Decidable (tile.Differs previous current width) := inferInstanceAs (Decidable (∃ p ∈ tile.region, _))

/-- The whole frame. -/
def wholeFrame (width height : Nat) : TileRect := { x := 0, y := 0, width, height }

/-- A frame with the pixels of another one copied over it inside the tiles. -/
def copyTiles (tiles : List TileRect) (previous current : List UInt16) (width : Nat) : List UInt16 :=
  (List.range previous.length).map fun i =>
    if ∃ tile ∈ tiles, (i % width, i / width) ∈ tile.region then current.getD i 0 else previous.getD i 0

/-- The tile has pixels, and all of them are in the frame. -/
structure TileRect.Within (tile : TileRect) (width height : Nat) : Prop where
  wide : 0 < tile.width
  high : 0 < tile.height
  right : tile.x + tile.width ≤ width
  bottom : tile.y + tile.height ≤ height

section
variable {previous current : List UInt16} {width height : Nat}

/-- The row scan of a tile finds a difference exactly when some pixel of it differs. -/
theorem tileDirty_iff (tile : TileRect) :
    tileDirty previous current width tile.x tile.y tile.width tile.height = true ↔
      tile.Differs previous current width := by
  constructor
  · intro h
    rw [tileDirty, List.any_eq_true] at h
    obtain ⟨row, hrow, hslice⟩ := h
    rw [List.mem_range] at hrow
    rw [decide_eq_true_eq] at hslice
    -- Two slices that are not the same differ at some pixel of the row.
    obtain ⟨i, hi⟩ : ∃ i, ((previous.drop ((tile.y + row) * width + tile.x)).take tile.width)[i]? ≠
        ((current.drop ((tile.y + row) * width + tile.x)).take tile.width)[i]? := by
      by_contra hall
      push Not at hall
      exact hslice (List.ext_getElem? hall)
    rw [List.getElem?_take, List.getElem?_take] at hi
    split at hi
    · rename_i hwidth
      rw [List.getElem?_drop, List.getElem?_drop, Nat.add_assoc] at hi
      refine ⟨(tile.x + i, tile.y + row), ?_, hi⟩
      rw [TileRect.region, mem_rectRegion]
      omega
    · exact absurd rfl hi
  · rintro ⟨p, hp, hne⟩
    exact tileDirty_of_ne hp hne

theorem length_gridCells : (gridCells width height).length =
    (width + framebufferTileSize - 1) / framebufferTileSize *
      ((height + framebufferTileSize - 1) / framebufferTileSize) := by
  simp [gridCells, List.length_flatMap, Nat.mul_comm]

theorem mem_gridCells {tile : TileRect} (h : tile ∈ gridCells width height) :
    ∃ tx ty, tx * framebufferTileSize < width ∧ ty * framebufferTileSize < height ∧
      tile = gridCell width height tx ty := by
  obtain ⟨ty, hty, hrow⟩ := List.mem_flatMap.mp h
  obtain ⟨tx, htx, rfl⟩ := List.mem_map.mp hrow
  rw [List.mem_range] at hty htx
  unfold framebufferTileSize at *
  exact ⟨tx, ty, by omega, by omega, rfl⟩

theorem within_gridCells {tile : TileRect} (h : tile ∈ gridCells width height) : tile.Within width height := by
  obtain ⟨tx, ty, hx, hy, rfl⟩ := mem_gridCells h
  unfold gridCell framebufferTileSize at *
  constructor <;> dsimp only <;> omega

/-- The cells do not overlap. -/
theorem disjoint_gridCells : (gridCells width height).Pairwise fun a b => Disjoint a.region b.region := by
  have hcells (tx ty tx' ty' : Nat) (h : tx < tx' ∨ ty < ty') :
      Disjoint (gridCell width height tx ty).region (gridCell width height tx' ty').region := by
    rw [Finset.disjoint_left]
    intro p hp hp'
    rw [TileRect.region, mem_rectRegion] at hp hp'
    unfold gridCell framebufferTileSize at hp hp'
    dsimp only at hp hp'
    omega
  rw [gridCells, List.pairwise_flatMap]
  constructor
  · intro ty _
    exact List.Pairwise.map _ (fun tx tx' hlt => hcells tx ty tx' ty (.inl hlt)) List.pairwise_lt_range
  · refine List.pairwise_lt_range.imp fun {ty ty'} hlt => ?_
    intro a ha b hb
    obtain ⟨tx, -, rfl⟩ := List.mem_map.mp ha
    obtain ⟨tx', -, rfl⟩ := List.mem_map.mp hb
    exact hcells tx ty tx' ty' (.inr hlt)

/-- The tiles are the cells that differ, unless they are two fifths of all cells or more. -/
theorem collectDirtyTiles_eq (hwidth : 0 < width) (hheight : 0 < height) :
    collectDirtyTiles (some previous) current width height =
      let differing := (gridCells width height).filter fun tile => tile.Differs previous current width
      if (gridCells width height).length * 2 ≤ differing.length * 5 then [wholeFrame width height] else differing := by
  have hscan : ((List.range ((height + framebufferTileSize - 1) / framebufferTileSize)).flatMap fun ty =>
      (List.range ((width + framebufferTileSize - 1) / framebufferTileSize)).filterMap fun tx =>
        if tileDirty previous current width (tx * framebufferTileSize) (ty * framebufferTileSize)
            (min framebufferTileSize (width - tx * framebufferTileSize))
            (min framebufferTileSize (height - ty * framebufferTileSize)) then
          some (gridCell width height tx ty)
        else none) = (gridCells width height).filter fun tile => tile.Differs previous current width := by
    rw [gridCells, List.filter_flatMap]
    refine congrArg (List.flatMap · _) (funext fun ty => ?_)
    rw [List.filter_map, ← List.filterMap_eq_map, ← List.filterMap_eq_filter, List.filterMap_filterMap]
    refine congrArg (List.filterMap · _) (funext fun tx => ?_)
    have hdirty := @tileDirty_iff previous current width (gridCell width height tx ty)
    by_cases hdiffers : (gridCell width height tx ty).Differs previous current width
    · have htrue := hdirty.mpr hdiffers
      simp only [gridCell] at htrue
      simp [htrue, hdiffers, Option.guard]
    · have hfalse := mt hdirty.mp hdiffers
      simp only [gridCell] at hfalse
      simp [hfalse, hdiffers, Option.guard]
  unfold collectDirtyTiles
  rw [if_neg (by omega)]
  dsimp only
  rw [length_gridCells, ← hscan]
  rfl

theorem within_wholeFrame (hwidth : 0 < width) (hheight : 0 < height) :
    (wholeFrame width height).Within width height :=
  ⟨hwidth, hheight, (Nat.zero_add width).le, (Nat.zero_add height).le⟩

/-- A choice of disjoint cells, or the whole frame: the tiles are disjoint and within the frame. -/
theorem collectDirtyTiles_within (hwidth : 0 < width) (hheight : 0 < height) :
    (collectDirtyTiles (some previous) current width height).Pairwise (fun a b => Disjoint a.region b.region) ∧
      ∀ tile ∈ collectDirtyTiles (some previous) current width height, tile.Within width height := by
  rw [collectDirtyTiles_eq hwidth hheight]
  dsimp only
  split
  · refine ⟨List.pairwise_singleton .., fun tile htile => ?_⟩
    rw [List.mem_singleton.mp htile]
    exact within_wholeFrame hwidth hheight
  · exact ⟨disjoint_gridCells.sublist List.filter_sublist,
      fun tile htile => within_gridCells (List.mem_of_mem_filter htile)⟩

/-- A frame is the same as another one of its size when every pixel is. -/
theorem frame_ext (hprevious : previous.length = width * height) (hcurrent : current.length = width * height)
    (h : ∀ p ∈ rectRegion 0 0 width height, pixelAt previous width p = pixelAt current width p) :
    previous = current := by
  refine List.ext_getElem? fun i => ?_
  by_cases hi : i < width * height
  · have hwidth : 0 < width := Nat.pos_of_mul_pos_right (Nat.zero_lt_of_lt hi)
    have hpixel := h (i % width, i / width) (by
      rw [mem_rectRegion]
      exact ⟨⟨Nat.zero_le _, Nat.mod_lt i hwidth⟩, Nat.zero_le _, Nat.div_lt_of_lt_mul hi⟩)
    simpa [pixelAt, Nat.mul_comm _ width, Nat.div_add_mod] using hpixel
  · rw [List.getElem?_eq_none (by omega), List.getElem?_eq_none (by omega)]

/-- Copying the current pixels inside the tiles, and nowhere else, gives the current frame. -/
theorem copyTiles_collectDirtyTiles (hprevious : previous.length = width * height)
    (hcurrent : current.length = width * height) :
    copyTiles (collectDirtyTiles (some previous) current width height) previous current width = current := by
  have hlength : (copyTiles (collectDirtyTiles (some previous) current width height) previous current width).length =
      width * height := by simp [copyTiles, hprevious]
  refine frame_ext hlength hcurrent fun p hp => ?_
  have hsome := pixelAt_isSome hcurrent hp
  obtain ⟨⟨-, hx⟩, -, hy⟩ := mem_rectRegion.mp hp
  have hpoint : ((p.2 * width + p.1) % width, (p.2 * width + p.1) / width) = p := by
    have hwidth : 0 < width := Nat.zero_lt_of_lt hx
    rw [Nat.mul_comm, Nat.mul_add_mod, Nat.mod_eq_of_lt hx, Nat.mul_add_div hwidth, Nat.div_eq_of_lt hx, Nat.add_zero]
  have hindex : p.2 * width + p.1 < width * height := by
    rwa [pixelAt, isSome_getElem?, hcurrent] at hsome
  have hcopied : pixelAt (copyTiles (collectDirtyTiles (some previous) current width height) previous current width)
      width p = some (if ∃ tile ∈ collectDirtyTiles (some previous) current width height, p ∈ tile.region then
        current.getD (p.2 * width + p.1) 0 else previous.getD (p.2 * width + p.1) 0) := by
    rw [pixelAt, copyTiles, List.getElem?_map, List.getElem?_range (by omega), Option.map_some, hpoint]
  have hdefault (frame : List UInt16) (h : frame.length = width * height) :
      pixelAt frame width p = some (frame.getD (p.2 * width + p.1) 0) := by
    rw [pixelAt, List.getD_eq_getElem?_getD, List.getElem?_eq_getElem (by omega)]
    rfl
  rw [hcopied, hdefault current hcurrent]
  split
  · rfl
  · rename_i hcovered
    -- A pixel that no tile covers is the same in both frames.
    by_contra hne
    refine hcovered (collectDirtyTiles_covers (some previous) current hp fun pixels hpixels heq => hne ?_)
    obtain rfl := Option.some.inj hpixels
    rw [← hdefault previous hprevious, ← hdefault current hcurrent, heq]

theorem collectDirtyTiles_eq_nil (hwidth : 0 < width) (hheight : 0 < height)
    (hprevious : previous.length = width * height) (hcurrent : current.length = width * height) :
    collectDirtyTiles (some previous) current width height = [] ↔ previous = current := by
  constructor
  · intro h
    have hcopied := copyTiles_collectDirtyTiles hprevious hcurrent
    rw [h] at hcopied
    rw [← hcopied]
    refine List.ext_getElem (by simp [copyTiles]) fun i hi hi' => ?_
    simp [copyTiles, hi]
  · rintro rfl
    have hnone : ((gridCells width height).filter fun tile => tile.Differs previous previous width) = [] := by
      simp [TileRect.Differs]
    have hcells : 0 < (gridCells width height).length := by
      rw [length_gridCells]
      refine Nat.mul_pos (Nat.div_pos ?_ (by decide)) (Nat.div_pos ?_ (by decide)) <;>
        unfold framebufferTileSize <;> omega
    rw [collectDirtyTiles_eq hwidth hheight, hnone]
    dsimp only
    rw [if_neg (by rw [List.length_nil]; omega)]

end

/-- The tiles of two frames are disjoint rectangles of the frame, and an exact patch from the one to the other;
    there are none exactly when the frames are equal, and else they are the cells that differ, or the whole frame
    when those are two fifths of all cells or more. Without a previous frame they are the whole frame. -/
theorem dirty_tiles_patch {width height : Nat} {previous current : List UInt16} (hwidth : 0 < width)
    (hheight : 0 < height) (hprevious : previous.length = width * height) (hcurrent : current.length = width * height) :
    let tiles := collectDirtyTiles (some previous) current width height
    let differing := (gridCells width height).filter fun tile => tile.Differs previous current width
    tiles.Pairwise (fun a b => Disjoint a.region b.region) ∧
      (∀ tile ∈ tiles, tile.Within width height) ∧
      copyTiles tiles previous current width = current ∧
      (tiles = [] ↔ previous = current) ∧
      tiles = (if (gridCells width height).length * 2 ≤ differing.length * 5 then [wholeFrame width height]
        else differing) ∧
      collectDirtyTiles none current width height = [wholeFrame width height] := by
  obtain ⟨hdisjoint, hwithin⟩ := @collectDirtyTiles_within previous current width height hwidth hheight
  refine ⟨hdisjoint, hwithin, copyTiles_collectDirtyTiles hprevious hcurrent,
    collectDirtyTiles_eq_nil hwidth hheight hprevious hcurrent, collectDirtyTiles_eq hwidth hheight, ?_⟩
  unfold collectDirtyTiles
  rw [if_neg (by omega)]
  rfl

/-- Two cells in a row, of which the second, a single column, differs: half of them is more than two fifths. -/
theorem dirty_tiles_patch_column :
    copyTiles (collectDirtyTiles (some (List.replicate 33 0)) (List.replicate 32 0 ++ [1]) 33 1) (List.replicate 33 0)
      (List.replicate 32 0 ++ [1]) 33 = List.replicate 32 0 ++ [1] :=
  (dirty_tiles_patch (by decide) (by decide) (by decide) (by decide)).2.2.1

end OnekvmVnc
