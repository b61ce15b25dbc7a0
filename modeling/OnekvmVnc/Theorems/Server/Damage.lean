import OnekvmVnc.Lib.Damage
import OnekvmVnc.Theorems.Tiles
import OnekvmVnc.Theorems.Server.Sizes

/-! The damage of every viewer is relative to `previous_rgb_`: the tiles of each decoded frame are marked for
    all viewers, and an update repairs what is marked. A JPEG clears the damage of its viewer against another
    picture, and where that one differs from `previous_rgb_` nothing is marked. -/

namespace OnekvmVnc

open Damage

variable {decoder : JPEGDecoder}

namespace Server
variable {s t : Server}

def screen (s : Server) : Region := rectRegion 0 0 s.width.toNat s.height.toNat

/-! ### The decoder state -/

/-- The decoder state: after a frame has been decoded, the framebuffer and `previous_rgb_` are its image. -/
structure Decoded (decoder : JPEGDecoder) (s : Server) : Prop where
  framebuffer : s.framebuffer.length = s.width.toNat * s.height.toNat
  previous : s.previousRGB ≠ [] → s.previousRGB.length = s.width.toNat * s.height.toNat
  sequence : s.decodedSequence ≤ s.latestSequence
  cached : s.decodedSequence = s.latestSequence → s.previousRGB ≠ [] → s.framebuffer = s.previousRGB ∧
    ∀ frame, s.latestFrame = some frame → image decoder frame s.width s.height = s.previous

theorem Decoded.congr (h : s.Decoded decoder) (same : SameScreen s t) : t.Decoded decoder := by
  refine ⟨?_, ?_, ?_, ?_⟩
  · rw [same.framebuffer, same.width, same.height]
    exact h.framebuffer
  · rw [same.previousRGB, same.width, same.height]
    exact h.previous
  · rw [same.decodedSequence, same.latestSequence]
    exact h.sequence
  · rw [same.decodedSequence, same.latestSequence, same.previousRGB, same.framebuffer, same.latestFrame, same.width,
      same.height, same.previous]
    exact h.cached

def marked (s : Server) (region : Region) : Server :=
  { s with client := fun c => { s.client c with modifiedRegion := (s.client c).modifiedRegion ∪ region } }

/-- Marking tiles marks their part of the screen. -/
theorem markTiles_eq (tiles : List TileRect) : ∃ region, s.markTiles tiles = s.marked region ∧
    ∀ p, p ∈ region ↔ p ∈ rectRegion 0 0 s.screenWidth.toNat s.screenHeight.toNat ∧ ∃ tile ∈ tiles, p ∈ tile.region := by
  unfold markTiles
  induction tiles generalizing s with
  | nil => exact ⟨∅, by simp [marked], fun p => by simp⟩
  | cons tile tiles ih =>
    obtain ⟨region, heq, hregion⟩ :=
      ih (s := s.rfbMarkRectAsModified tile.x tile.y (tile.x + tile.width) (tile.y + tile.height))
    refine ⟨tile.region ∩ rectRegion 0 0 s.screenWidth.toNat s.screenHeight.toNat ∪ region, ?_, ?_⟩
    · rw [List.foldl_cons, heq]
      simp only [marked, rfbMarkRectAsModified, TileRect.region, Finset.union_assoc]
    · intro p
      have hrest : p ∈ region ↔ p ∈ rectRegion 0 0 s.screenWidth.toNat s.screenHeight.toNat ∧ ∃ tile ∈ tiles,
        p ∈ tile.region := hregion p
      rw [Finset.mem_union, Finset.mem_inter, hrest, List.exists_mem_cons_iff, and_or_left, and_comm (a := p ∈ tile.region)]

/-- The tiles in which a decoded frame differs from `previous_rgb_`. -/
def dirtyTiles (s : Server) (decoded : List UInt16) : List TileRect :=
  collectDirtyTiles (if s.previousRGB = [] then none else some s.previousRGB) decoded s.width.toNat s.height.toNat

theorem dirtyTiles_covers {decoded : List UInt16} {p : Nat × Nat} (hp : p ∈ s.screen)
    (differs : s.previousRGB ≠ [] → s.previous p ≠ pixelAt decoded s.width.toNat p) :
    ∃ tile ∈ s.dirtyTiles decoded, p ∈ tile.region := by
  refine collectDirtyTiles_covers _ decoded hp fun pixels h => ?_
  split at h
  · cases h
  · rename_i hne
    cases h
    exact differs hne

/-- What `DecodeLatestFrame` does: nothing, when the frame is decoded already; a part of the framebuffer is
    overwritten, when it fails; else the frame is decoded, and the tiles that differ are marked. -/
theorem decodeLatestFrame_cases (hs : s.Decoded decoder) (hscreen : s.screenWidth = s.width ∧ s.screenHeight = s.height)
    (frame : JPEGFrame) (sequence : Nat) :
    ((s.decodedSequence = sequence ∧ s.previousRGB ≠ []) ∧ s.decodeLatestFrame decoder frame sequence = (s, true)) ∨
      (¬(s.decodedSequence = sequence ∧ s.previousRGB ≠ []) ∧ ∃ framebuffer,
        framebuffer.length = s.width.toNat * s.height.toNat ∧
          s.decodeLatestFrame decoder frame sequence = ({ s with framebuffer }, false)) ∨
      (¬(s.decodedSequence = sequence ∧ s.previousRGB ≠ []) ∧ ∃ decoded region,
        decoder.decodeJPEGToRGB565 frame.data s.framebuffer s.width.toNat s.height.toNat = (decoded, true) ∧
        s.decodeLatestFrame decoder frame sequence = ({ s.marked region with
          framebuffer := decoded, previousRGB := decoded, decodedSequence := sequence }, true) ∧
        ∀ p, p ∈ region ↔ p ∈ s.screen ∧ ∃ tile ∈ s.dirtyTiles decoded, p ∈ tile.region) := by
  -- A previous frame of another size has already been dropped by `Resize`.
  have hprevious : (if s.previousRGB.length ≠ s.width.toNat * s.height.toNat then [] else s.previousRGB) = s.previousRGB := by
    split
    · rename_i hlength
      by_contra hne
      exact hlength (hs.previous fun h => hne h.symm)
    · rfl
  by_cases hcached : s.decodedSequence = sequence ∧ s.previousRGB ≠ []
  · left
    rw [decodeLatestFrame, if_pos hcached]
    exact ⟨hcached, rfl⟩
  · right
    rw [decodeLatestFrame, if_neg hcached]
    dsimp only
    rw [hprevious]
    cases hdecode : decoder.decodeJPEGToRGB565 frame.data s.framebuffer s.width.toNat s.height.toNat with
    | mk decoded ok =>
      cases ok with
      | false =>
        left
        have hlength := JPEGDecoder.decodeJPEGToRGB565_length decoder frame.data hs.framebuffer
        rw [hdecode] at hlength
        exact ⟨hcached, decoded, hlength, rfl⟩
      | true =>
        right
        have hlength := (JPEGDecoder.decodeJPEGToRGB565_eq hs.framebuffer hdecode).1
        obtain ⟨region, heq, hregion⟩ := markTiles_eq (s := { s with framebuffer := decoded }) (s.dirtyTiles decoded)
        refine ⟨hcached, decoded, region, rfl, ?_, ?_⟩
        · unfold dirtyTiles at heq
          simp only [Bool.not_true, Bool.false_eq_true, if_false, heq]
          rw [← hlength, List.take_length]
          rfl
        · have hsize : rectRegion 0 0 s.screenWidth.toNat s.screenHeight.toNat = s.screen := by
            rw [hscreen.1, hscreen.2, screen]
          rw [← hsize]
          exact hregion

theorem Decoded.decode (hs : s.Decoded decoder) (hscreen : s.screenWidth = s.width ∧ s.screenHeight = s.height)
    {frame : JPEGFrame} (latest : s.latestFrame = some frame) :
    (s.decodeLatestFrame decoder frame s.latestSequence).1.Decoded decoder := by
  obtain ⟨-, heq⟩ | ⟨hcached, framebuffer, hlength, heq⟩ | ⟨-, decoded, region, hdecode, heq, -⟩ :=
    decodeLatestFrame_cases hs hscreen frame s.latestSequence
  · rw [heq]
    exact hs
  · rw [heq]
    exact ⟨hlength, hs.previous, hs.sequence, fun hsequence hne => absurd ⟨hsequence, hne⟩ hcached⟩
  · rw [heq]
    have hlength := (JPEGDecoder.decodeJPEGToRGB565_eq hs.framebuffer hdecode).1
    refine ⟨hlength, fun _ => hlength, le_refl _, fun _ _ => ⟨rfl, fun frame' hframe' => ?_⟩⟩
    obtain rfl : frame = frame' := Option.some.inj (latest.symm.trans hframe')
    exact image_eq hs.framebuffer hdecode

end Server

/-! ### The views -/

namespace Client
variable {s : Server} {k k' : Client}

/-- The client as a view of `previous_rgb_`. -/
def view (k : Client) : View (Nat × Nat) (Option UInt16) := ⟨k.display, k.modifiedRegion, k.base⟩

/-- What the updates of a client have shown: something else than the latest frame exactly where its base was
    not marked. Without a JPEG there is no base. -/
structure Delivered (k : Client) : Prop where
  stale : ∀ entry ∈ k.history, entry.event.stale = entry.event.unmarked
  fallback : (∀ entry ∈ k.history, entry.event.isJPEG = false) →
    k.base = ∅ ∧ ∀ entry ∈ k.history, entry.event.unmarked = ∅

theorem Delivered.of_eq (h : k.Delivered) (history : k'.history = k.history) (base : k'.base = k.base) : k'.Delivered :=
  ⟨by rw [history]; exact h.stale, by rw [history, base]; exact h.fallback⟩

theorem Delivered.record (h : k.Delivered) (event : ClientEvent) (stale : event.stale = event.unmarked)
    (unmarked : k.base = ∅ → event.unmarked = ∅) (history : k'.history = (k.record event).history)
    (base : event.isJPEG = false → k.base = ∅ → k'.base = ∅) : k'.Delivered := by
  have hentries (entry : HistoryEntry) : entry ∈ k'.history ↔
      entry ∈ k.history ∨ entry = ⟨event, k.data.pendingJPEG.isSome⟩ := by
    rw [history, Client.record, List.mem_append, List.mem_singleton]
  constructor
  · intro entry hentry
    rcases (hentries entry).mp hentry with hold | rfl
    · exact h.stale entry hold
    · exact stale
  · intro hjpeg
    obtain ⟨hbase, hunmarked⟩ := h.fallback fun entry hentry => hjpeg entry ((hentries entry).mpr (.inl hentry))
    refine ⟨base (hjpeg _ ((hentries _).mpr (.inr rfl))) hbase, ?_⟩
    intro entry hentry
    rcases (hentries entry).mp hentry with hold | rfl
    · exact hunmarked entry hold
    · exact unmarked hbase

theorem Delivered.record_other (h : k.Delivered) (event : ClientEvent) (stale : event.stale = ∅)
    (unmarked : event.unmarked = ∅) (history : k'.history = (k.record event).history) (base : k'.base = k.base) :
    k'.Delivered :=
  h.record event (by rw [stale, unmarked]) (fun _ => unmarked) history fun _ hbase => base.trans hbase

theorem Delivered.updated (h : k.Delivered) {pixels latest : Nat × Nat → Option UInt16} {bytes : List UInt8}
    (stale : (k.requestedRegion.filter fun p => k.shown pixels p ≠ latest p) =
      (k.base ∩ k.requestedRegion) \ k.modifiedRegion) : (k.updated pixels latest bytes).Delivered := by
  refine h.record (.update k.requestedRegion (k.requestedRegion.filter fun p => k.shown pixels p ≠ latest p)
    ((k.base ∩ k.requestedRegion) \ k.modifiedRegion) bytes) stale (fun hbase => ?_) rfl fun _ hbase => ?_
  · rw [ClientEvent.unmarked, hbase, Finset.empty_inter, Finset.empty_sdiff]
  · show k.base \ _ = ∅
    rw [hbase, Finset.empty_sdiff]

/-- The regions of a client that is there. -/
structure Viewing (s : Server) (k : Client) : Prop where
  requested : k.requestedRegion ⊆ s.screen
  tracks : s.previousRGB ≠ [] → Tracks s.screen s.previous k.view

theorem Viewing.of_eq (h : k.Viewing s) (requested : k'.requestedRegion = k.requestedRegion) (view : k'.view = k.view) :
    k'.Viewing s :=
  ⟨requested ▸ h.requested, fun hne => view ▸ h.tracks hne⟩

theorem Viewing.congr {t : Server} (h : k.Viewing s) (same : SameScreen s t) : k.Viewing t := by
  have hscreen : t.screen = s.screen := by rw [Server.screen, Server.screen, same.width, same.height]
  refine ⟨?_, ?_⟩
  · rw [hscreen]
    exact h.requested
  · rw [hscreen, same.previousRGB, same.previous]
    exact h.tracks

theorem Viewing.grow (h : k.Viewing s) {region : Region} (requested : k'.requestedRegion ⊆ s.screen)
    (view : k'.view = k.view.mark region) : k'.Viewing s :=
  ⟨requested, fun hne => view ▸ (h.tracks hne).mark region⟩

/-- After a JPEG, the view has strayed to it. -/
theorem viewing_queueJPEG (hs : s.Decoded decoder) {frame : JPEGFrame} {encoding now : Int} {image : Nat × Nat → Option UInt16}
    (width : frame.width = s.width) (height : frame.height = s.height)
    (h : k.queueJPEG frame encoding now image s.previous = (k', true)) : k'.Viewing s := by
  obtain ⟨-, rest, rfl⟩ := queueJPEG_eq h
  refine ⟨Finset.empty_subset _, ?_⟩
  intro hne
  have hbase : ((rectRegion 0 0 frame.width.toNat frame.height.toNat).filter fun p =>
      (s.previous p).isSome ∧ image p ≠ s.previous p) = s.screen.filter fun p => image p ≠ s.previous p := by
    rw [width, height, ← Server.screen]
    exact Finset.filter_congr fun p hp => by simp [Server.previous, pixelAt_isSome (hs.previous hne) hp]
  have htracks : Tracks s.screen s.previous (View.replace s.screen s.previous image) := tracks_replace
  rw [View.replace, ← hbase] at htracks
  exact htracks

/-- The decoded frame is what the framebuffer and `previous_rgb_` show. -/
theorem pixels_eq (hs : s.Decoded decoder) {frame : JPEGFrame} (latest : s.latestFrame = some frame)
    (decoded : s.decodedSequence = s.latestSequence ∧ s.previousRGB ≠ []) :
    s.pixels = s.previous ∧ Server.image decoder frame s.width s.height = s.previous := by
  obtain ⟨hframebuffer, himage⟩ := hs.cached decoded.1 decoded.2
  exact ⟨by rw [Server.pixels, hframebuffer, Server.previous], himage frame latest⟩

theorem Viewing.change (hs : s.Decoded decoder) (screen : s.screenWidth = s.width ∧ s.screenHeight = s.height)
    (hk : k.Viewing s) (h : ClientChange decoder s k k') : k'.Viewing s := by
  cases h with
  | other same =>
    exact hk.of_eq same.requestedRegion (by rw [view, view, same.display, same.modifiedRegion, same.base])
  | audioMessage | audioPacket => exact hk.of_eq rfl rfl
  | output event isOpen idle plain capability => exact hk.of_eq rfl rfl
  | serverInit bytes isOpen idle handshake => exact hk.of_eq rfl rfl
  | request region incremental normal clipped =>
    rw [screen.1, screen.2] at clipped
    have hrequested : k.requestedRegion ∪ region ⊆ s.screen := Finset.union_subset hk.requested clipped
    cases incremental with
    | true => exact ⟨hrequested, hk.tracks⟩
    | false => exact hk.grow hrequested rfl
  | continuousUpdates enabled normal => exact hk.of_eq rfl rfl
  | flushed now result h =>
    obtain ⟨wire, pendingJPEG, jpegWritten, rfl⟩ := flushJPEG_eq h
    exact hk.of_eq rfl rfl
  | expired now result h =>
    obtain ⟨wire, pendingJPEG, jpegWritten, rfl⟩ := flushJPEG_eq h
    exact hk.of_eq rfl rfl
  | closed => exact hk.of_eq rfl rfl
  | grown forceUpdate =>
    have hrequested : (k.growRegions s.width s.height forceUpdate).requestedRegion ⊆ s.screen := by
      unfold growRegions
      dsimp only
      split
      · exact Finset.union_subset hk.requested (Finset.Subset.refl _)
      · exact hk.requested
    cases forceUpdate with
    | true => exact hk.grow hrequested rfl
    | false => exact ⟨hrequested, hk.tracks⟩
  | jpeg frame encoding now sequence needed width height h =>
    exact (viewing_queueJPEG hs width height h).of_eq rfl rfl
  | update frame result sequence needed idle latest decoded h =>
    rcases sendFramebufferUpdate_cases h with ⟨hf, -⟩ | ⟨-, -, bytes, ⟨-, -, rfl⟩ | ⟨-, rfl⟩⟩
    · cases hf
    · exact hk.of_eq rfl rfl
    · refine ⟨Finset.empty_subset _, ?_⟩
      intro hne
      show Tracks s.screen s.previous (k.view.deliver s.pixels k.requestedRegion)
      rw [(pixels_eq hs latest decoded).1]
      exact (hk.tracks hne).deliver k.requestedRegion

theorem Delivered.change (hs : s.Decoded decoder) (hk : k.Viewing s) (hd : k.Delivered)
    (h : ClientChange decoder s k k') : k'.Delivered := by
  cases h with
  | other same => exact hd.of_eq same.history same.base
  | audioMessage message => exact hd.record_other (.audioMessage message) rfl rfl rfl rfl
  | audioPacket source => exact hd.record_other (.audioPacket source) rfl rfl rfl rfl
  | output event isOpen idle plain capability =>
    have hother : event.stale = ∅ ∧ event.unmarked = ∅ := by cases event <;> first | exact ⟨rfl, rfl⟩ | cases plain
    exact hd.record_other event hother.1 hother.2 rfl rfl
  | serverInit bytes isOpen idle handshake => exact hd.record_other (.serverInit _ _ bytes) rfl rfl rfl rfl
  | request region incremental normal clipped => exact hd.record_other (.request region incremental) rfl rfl rfl rfl
  | continuousUpdates enabled normal => exact hd.record_other (.continuousUpdates enabled) rfl rfl rfl rfl
  | flushed now result h =>
    obtain ⟨wire, pendingJPEG, jpegWritten, rfl⟩ := flushJPEG_eq h
    exact hd.of_eq rfl rfl
  | expired now result h =>
    obtain ⟨wire, pendingJPEG, jpegWritten, rfl⟩ := flushJPEG_eq h
    exact hd.of_eq rfl rfl
  | closed => exact hd.of_eq rfl rfl
  | grown forceUpdate => exact hd.of_eq rfl rfl
  | jpeg frame encoding now sequence needed width height h =>
    obtain ⟨-, rest, rfl⟩ := queueJPEG_eq h
    exact hd.record (.jpeg frame _) rfl (fun _ => rfl) rfl nofun
  | update frame result sequence needed idle latest decoded h =>
    rcases sendFramebufferUpdate_cases h with ⟨hf, -⟩ | ⟨-, -, bytes, ⟨-, -, rfl⟩ | ⟨-, rfl⟩⟩
    · cases hf
    · exact hd.record_other (.newFBSize _ _ bytes) rfl rfl rfl rfl
    · obtain ⟨hpixels, himage⟩ := pixels_eq hs latest decoded
      rw [hpixels, himage]
      exact (hd.updated ((hk.tracks decoded.2).stale_deliver hk.requested)).of_eq rfl rfl

theorem delivered_newClient (s : Server) (fd : Nat) (version : List UInt8) : (s.newClient fd version).Delivered := by
  have hempty : Client.Delivered
      { sock := some fd, modifiedRegion := rectRegion 0 0 s.screenWidth.toNat s.screenHeight.toNat } :=
    ⟨nofun, fun _ => ⟨rfl, nofun⟩⟩
  exact hempty.record_other (.reply version) rfl rfl rfl rfl

end Client

namespace Server
variable {s t : Server}

/-- The regions of every client are relative to `previous_rgb_`. -/
structure Tracked (decoder : JPEGDecoder) (s : Server) : Prop where
  sized : s.Sized
  decoded : s.Decoded decoder
  viewing : ∀ c ∈ s.clients, (s.client c).Viewing s
  delivered : ∀ c, (s.client c).Delivered

/-- Decoding marks where the source of the views changes. -/
theorem Tracked.decode (hs : s.Tracked decoder) (frame : JPEGFrame) (sequence : Nat) {c : ClientPtr} (hc : c ∈ s.clients) :
    ((s.decodeLatestFrame decoder frame sequence).1.client c).Viewing
      (s.decodeLatestFrame decoder frame sequence).1 := by
  have hv := hs.viewing c hc
  obtain ⟨-, heq⟩ | ⟨-, framebuffer, -, heq⟩ | ⟨-, decoded, region, -, heq, hregion⟩ :=
    decodeLatestFrame_cases hs.decoded hs.sized.screen frame sequence
  · rw [heq]
    exact hv
  · rw [heq]
    exact ⟨hv.requested, hv.tracks⟩
  · rw [heq]
    have hdiffers (p : Nat × Nat) (hp : p ∈ s.screen)
        (h : s.previousRGB ≠ [] → s.previous p ≠ pixelAt decoded s.width.toNat p) : p ∈ region :=
      (hregion p).mpr ⟨hp, dirtyTiles_covers hp h⟩
    refine ⟨hv.requested, ?_⟩
    intro _
    show Tracks s.screen (pixelAt decoded s.width.toNat) ((s.client c).view.mark region)
    by_cases hne : s.previousRGB = []
    · refine tracks_of_subset fun p hp => Finset.mem_union_right _ (hdiffers p hp fun h => absurd hne h)
    · exact (hv.tracks hne).retarget fun p hp h => hdiffers p hp fun _ => h

theorem Tracked.change (hs : s.Tracked decoder) (h : Change decoder s t) : t.Tracked decoder := by
  have hsized := hs.sized.change h
  cases h with
  | other same clients client =>
    refine ⟨hsized, hs.decoded.congr same, ?_, fun c => by rw [client]; exact hs.delivered c⟩
    intro c hc
    rw [clients] at hc
    rw [client]
    exact (hs.viewing c hc).congr same
  | setFrame frame =>
    refine ⟨hsized, ⟨hs.decoded.framebuffer, hs.decoded.previous, Nat.le_succ_of_le hs.decoded.sequence, fun h => ?_⟩,
      fun c hc => ⟨(hs.viewing c hc).requested, (hs.viewing c hc).tracks⟩, hs.delivered⟩
    -- The new frame is newer than any decoded one, so nothing is cached.
    have hle := hs.decoded.sequence
    have h : s.decodedSequence = s.latestSequence + 1 := h
    omega
  | clearLatestFrame =>
    exact ⟨hsized, ⟨hs.decoded.framebuffer, fun h => absurd rfl h, le_refl 0, fun _ h => absurd rfl h⟩,
      fun c hc => ⟨(hs.viewing c hc).requested, fun h => absurd rfl h⟩, hs.delivered⟩
  | client c present same clients others change =>
    refine ⟨hsized, hs.decoded.congr same, ?_, ?_⟩
    · intro d hd
      rw [clients] at hd
      by_cases hdc : d = c
      · subst hdc
        exact ((hs.viewing d hd).change hs.decoded hs.sized.screen change).congr same
      · rw [others d hdc]
        exact (hs.viewing d hd).congr same
    · intro d
      by_cases hdc : d = c
      · subst hdc
        exact (hs.delivered d).change hs.decoded (hs.viewing d present) change
      · rw [others d hdc]
        exact hs.delivered d
  | close c same clients others closed =>
    refine ⟨hsized, hs.decoded.congr same, ?_, ?_⟩
    · intro d hd
      rw [clients] at hd
      refine Client.Viewing.congr ?_ same
      by_cases hdc : d = c
      · rw [hdc, closed]
        exact (hs.viewing c (hdc ▸ hd)).of_eq rfl rfl
      · rw [others d hdc]
        exact hs.viewing d hd
    · intro d
      by_cases hdc : d = c
      · rw [hdc, closed]
        exact (hs.delivered c).of_eq rfl rfl
      · rw [others d hdc]
        exact hs.delivered d
  | gone c same clients client =>
    refine ⟨hsized, hs.decoded.congr same, ?_, fun d => by rw [client]; exact hs.delivered d⟩
    intro d hd
    rw [clients] at hd
    rw [client]
    exact (hs.viewing d (List.mem_of_mem_erase hd)).congr same
  | accept c fd version new =>
    refine ⟨hsized, ⟨hs.decoded.framebuffer, hs.decoded.previous, hs.decoded.sequence, hs.decoded.cached⟩, ?_, ?_⟩
    · intro d hd
      by_cases hdc : d = c
      · rw [hdc, accept_client_self]
        -- A new viewer shows nothing, and everything is marked for it.
        refine ⟨Finset.empty_subset _, fun _ => tracks_of_subset ?_⟩
        show s.screen ⊆ rectRegion 0 0 s.screenWidth.toNat s.screenHeight.toNat
        rw [hs.sized.screen.1, hs.sized.screen.2]
        exact Finset.Subset.refl _
      · rw [accept_client_of_ne hdc]
        have hv := hs.viewing d ((List.mem_cons.mp hd).resolve_left hdc)
        exact ⟨hv.requested, hv.tracks⟩
    · intro d
      by_cases hdc : d = c
      · rw [hdc, accept_client_self]
        exact Client.delivered_newClient s fd version
      · rw [accept_client_of_ne hdc]
        exact hs.delivered d
  | decode frame latest =>
    have hframe : SameFrame s (s.decodeLatestFrame decoder frame s.latestSequence).1 :=
      sameFrame_decodeLatestFrame frame s.latestSequence
    refine ⟨hsized, hs.decoded.decode hs.sized.screen latest, ?_, ?_⟩
    · intro c hc
      rw [hframe.clients] at hc
      exact hs.decode frame s.latestSequence hc
    · intro c
      obtain ⟨region, hclient⟩ := hframe.client c
      rw [hclient]
      exact (hs.delivered c).of_eq rfl rfl

theorem Tracked.resize (hs : s.Tracked decoder) {width height : UInt16} (h : Resized s t width height) :
    t.Tracked decoder := by
  obtain ⟨hwidth, hheight, -⟩ := h.size
  obtain ⟨hprevious, hsequence⟩ := h.decoder
  refine ⟨hs.sized.resize h, ⟨?_, fun hne => absurd hprevious hne, ?_, fun _ hne => absurd hprevious hne⟩,
    fun c hc => ⟨?_, fun hne => absurd hprevious hne⟩, fun c => ?_⟩
  · rw [h.framebuffer, hwidth, hheight, List.length_replicate]
  · rw [hsequence]
    exact Nat.zero_le _
  · obtain ⟨-, -, -, bytes, hclient⟩ := h.told c hc
    rw [hclient]
    exact Finset.empty_subset _
  · rcases h.client_cases c with ⟨-, -, hclient⟩ | ⟨-, -, hclient⟩ | ⟨-, -, -, -, bytes, hclient⟩
    · exact (hs.delivered c).of_eq (by rw [hclient]; rfl) (by rw [hclient]; rfl)
    · exact (hs.delivered c).of_eq (by rw [hclient]; rfl) (by rw [hclient]; rfl)
    · rw [hclient]
      exact (hs.delivered c).record_other (.newFBSize width height bytes) rfl rfl rfl rfl

theorem tracked_start (fps : Nat) (audioAvailable : Bool) (width height : UInt16) (listening : Finset Nat) :
    (start fps audioAvailable width height listening).Tracked decoder :=
  ⟨sized_start fps audioAvailable width height listening,
    ⟨List.length_replicate, fun h => absurd rfl h, le_refl 0, fun _ h => absurd rfl h⟩, nofun,
    fun _ => ⟨nofun, fun _ => ⟨rfl, nofun⟩⟩⟩

theorem tracked_of_run {fps : Nat} {audioAvailable : Bool} {width height : UInt16} {listening : Finset Nat}
    {actions : List ServerAction}
    (h : Transition.run (step decoder) (start fps audioAvailable width height listening) actions = some t) :
    t.Tracked decoder :=
  run_invariant (tracked_start fps audioAvailable width height listening) (fun _ hu => hu.sized.nodup)
    (fun _ _ => Tracked.change) (fun _ _ _ _ hs => hs.resize) h

end Server

/-- A client that was never sent a JPEG: where it shows something else than `previous_rgb_`, that is marked as
    modified, and each of its updates has shown the latest frame in the whole requested region. -/
theorem damage_kept {fps : Nat} {audioAvailable : Bool} {width height : UInt16} {listening : Finset Nat}
    {actions : List ServerAction} {t : Server}
    (h : Transition.run (Server.step decoder) (Server.start fps audioAvailable width height listening) actions = some t)
    {c : ClientPtr} (fallback : ∀ entry ∈ (t.client c).history, entry.event.isJPEG = false) :
    (c ∈ t.clients → ∀ p ∈ rectRegion 0 0 t.width.toNat t.height.toNat, ∀ pixel, t.previous p = some pixel →
      (t.client c).display p ≠ some pixel → p ∈ (t.client c).modifiedRegion) ∧
    (∀ entry ∈ (t.client c).history, ∀ region stale unmarked bytes,
      entry.event = .update region stale unmarked bytes → stale = ∅) := by
  have htracked := Server.tracked_of_run h
  obtain ⟨hbase, hunmarked⟩ := (htracked.delivered c).fallback fallback
  refine ⟨?_, ?_⟩
  · intro hc p hp pixel hpixel hshows
    have hne : t.previousRGB ≠ [] := fun hnil => by simp [Server.previous, pixelAt, hnil] at hpixel
    have hcovered := ((htracked.viewing c hc).tracks hne).covered p hp (by rw [hpixel]; exact hshows)
    refine hcovered.resolve_right fun hstrayed => ?_
    have hstrayed : p ∈ (t.client c).base := hstrayed
    rw [hbase] at hstrayed
    exact absurd hstrayed (Finset.notMem_empty p)
  · intro entry hentry region stale unmarked bytes he
    have hstale := (htracked.delivered c).stale entry hentry
    rw [hunmarked entry hentry, he] at hstale
    exact hstale

/-- A black row with one white pixel, or none. -/
def grayFrame (white : Nat) : JPEGFrame :=
  { data := (List.range 65).map fun x => if x = white then 255 else 0, width := 65, height := 1 }

/-- Two viewers are sent a black frame, and only the first asks for the next one, with its last pixel white. -/
def slowerViewer : List ServerAction :=
  [.pollClientEvents
    { now := 1, sendmsg := fun _ => .again, events :=
      [.accept 0 5 [82], .accept 1 6 [82], .message 0 (.clientInit []), .message 1 (.clientInit []),
        .message 0 (.updateRequest 0 0 65 1 false), .message 1 (.updateRequest 0 0 65 1 false)] },
    .setFrame (grayFrame 65),
    .processFrame { now := 1000000000, update := fun _ => some [0], sendmsg := fun _ => .again },
    .pollClientEvents
      { now := 1000000001, sendmsg := fun _ => .again, events := [.message 0 (.updateRequest 0 0 65 1 true)] },
    .setFrame (grayFrame 64),
    .processFrame { now := 2000000000, update := fun _ => some [0], sendmsg := fun _ => .again }]

theorem damage_kept_slower : ∃ t,
    Transition.run (Server.step .grayRow) (Server.start 30 false 65 1 ∅) slowerViewer = some t ∧
      t.previous (64, 0) = some 65535 ∧ (t.client 0).display (64, 0) = some 65535 ∧
      (t.client 1).display (64, 0) = some 0 ∧ (64, 0) ∈ (t.client 1).modifiedRegion ∧
      ∀ c ∈ [0, 1], ∀ entry ∈ (t.client c).history, ∀ region stale unmarked bytes,
        entry.event = .update region stale unmarked bytes → stale = ∅ := by
  have hrun : ((Transition.run (Server.step .grayRow) (Server.start 30 false 65 1 ∅) slowerViewer).map
      fun t => (t.clients, t.width, t.height,
        [t.previous (64, 0), (t.client 0).display (64, 0), (t.client 1).display (64, 0)],
        [0, 1].all fun c => (t.client c).history.all fun e => !e.event.isJPEG)) =
          some ([1, 0], 65, 1, [some 65535, some 65535, some 0], true) := by decide +kernel
  obtain ⟨t, h, hstate⟩ := Option.map_eq_some_iff.mp hrun
  simp only [Prod.mk.injEq, List.cons.injEq] at hstate
  obtain ⟨hclients, hwidth, hheight, ⟨hprevious, hshown, hblack, -⟩, hjpegs⟩ := hstate
  have hfallback (c : ClientPtr) (hc : c ∈ [0, 1]) : ∀ entry ∈ (t.client c).history, entry.event.isJPEG = false :=
    fun entry hentry => by simpa using List.all_eq_true.mp (List.all_eq_true.mp hjpegs c hc) entry hentry
  refine ⟨t, h, hprevious, hshown, hblack, ?_, fun c hc => (damage_kept h (hfallback c hc)).2⟩
  refine (damage_kept h (hfallback 1 (by simp))).1 ?_ (64, 0) ?_ 65535 hprevious ?_
  · rw [hclients]
    exact List.mem_cons_self
  · simp [mem_rectRegion, hwidth, hheight]
  · rw [hblack]
    decide

end OnekvmVnc
