import OnekvmVnc.Theorems.Server.Resize

/-! No client is sent a rectangle of a size that it has not been told: a client that is still there after
    the handshake has been told the size of the server, and only rectangles of that size are sent. -/

namespace OnekvmVnc

variable {decoder : JPEGDecoder}

/-! ### The announced size -/

/-- The size announced to a client after an event. -/
def announcedAfter (announced : Option (UInt16 × UInt16)) : ClientEvent → Option (UInt16 × UInt16)
  | .serverInit width height _ | .newFBSize width height _ => some (width, height)
  | _ => announced

def announcedIn (history : List HistoryEntry) : Option (UInt16 × UInt16) :=
  history.foldl (fun announced entry => announcedAfter announced entry.event) none

theorem announcedIn_concat (history : List HistoryEntry) (entry : HistoryEntry) :
    announcedIn (history ++ [entry]) = announcedAfter (announcedIn history) entry.event := by
  rw [announcedIn, List.foldl_append]
  rfl

/-- A rectangle has the size announced before it, and no size is announced while a JPEG is pending. -/
def Fits (pre : List HistoryEntry) (entry : HistoryEntry) : Prop :=
  match entry.event with
  | .jpeg frame header => announcedIn pre = some (frame.width, frame.height) ∧
      ∃ encoding rest, header = updateHeader frame.width frame.height encoding ++ rest
  | .audioCapability width height => announcedIn pre = some (width, height)
  | .newFBSize .. => entry.pending = false
  | _ => True

namespace Client
variable {s : Server} {k k' : Client}

/-- The client's history and the size it was told last. -/
structure Told (k : Client) : Prop where
  announced : k.announced = announcedIn k.history
  fits : Transition.Along Fits k.history

/-- What a client that is still there knows of the server's size. -/
structure Informed (s : Server) (k : Client) : Prop where
  size : k.normal = true → k.announced = some (s.width, s.height)
  settled : k.newFBSizePending = false
  useNewFBSize : k.useNewFBSize = true → k.normal = true
  needUpdate : k.data.needUpdate = true → k.normal = true
  capability : k.data.audioCapabilityPending = true → k.normal = true

theorem Told.of_eq (h : k.Told) (history : k'.history = k.history) (announced : k'.announced = k.announced) : k'.Told :=
  ⟨by rw [announced, history]; exact h.announced, by rw [history]; exact h.fits⟩

theorem Told.record (h : k.Told) (event : ClientEvent) (fits : Fits k.history ⟨event, k.data.pendingJPEG.isSome⟩)
    (history : k'.history = (k.record event).history) (announced : k'.announced = announcedAfter k.announced event) :
    k'.Told := by
  refine ⟨?_, ?_⟩
  · rw [announced, history, Client.record, announcedIn_concat, h.announced]
  · rw [history]
    exact Transition.along_concat.mpr ⟨h.fits, fits⟩

theorem Told.change (hk : k.Told) (hi : k.Informed s) (h : ClientChange decoder s k k') : k'.Told := by
  cases h with
  | other same => exact hk.of_eq same.history same.announced
  | audioMessage message => exact hk.record (.audioMessage message) trivial rfl rfl
  | audioPacket source => exact hk.record (.audioPacket source) trivial rfl rfl
  | output event isOpen idle plain capability =>
    cases event with
    | audioCapability width height =>
      obtain ⟨rfl, rfl, hpending⟩ := capability width height rfl
      exact hk.record (.audioCapability s.width s.height)
        (hk.announced.symm.trans (hi.size (hi.capability hpending))) rfl rfl
    | audioControl operation => exact hk.record (.audioControl operation) trivial rfl rfl
    | audioData pcm => exact hk.record (.audioData pcm) trivial rfl rfl
    | reply bytes => exact hk.record (.reply bytes) trivial rfl rfl
    | _ => cases plain
  | serverInit bytes isOpen idle handshake => exact hk.record (.serverInit _ _ bytes) trivial rfl rfl
  | request region incremental normal clipped => exact hk.record (.request region incremental) trivial rfl rfl
  | continuousUpdates enabled normal => exact hk.record (.continuousUpdates enabled) trivial rfl rfl
  | flushed now result h =>
    obtain ⟨wire, pendingJPEG, jpegWritten, rfl⟩ := flushJPEG_eq h
    exact hk.of_eq rfl rfl
  | expired now result h =>
    obtain ⟨wire, pendingJPEG, jpegWritten, rfl⟩ := flushJPEG_eq h
    exact hk.of_eq rfl rfl
  | closed => exact hk.of_eq rfl rfl
  | grown forceUpdate => exact hk.of_eq rfl rfl
  | jpeg frame encoding now sequence needed width height h =>
    obtain ⟨idle, rest, rfl⟩ := queueJPEG_eq h
    have hsize : announcedIn k.history = some (frame.width, frame.height) := by
      rw [width, height, ← hk.announced]
      exact hi.size (hi.needUpdate needed)
    exact hk.record (.jpeg frame _) ⟨hsize, encoding, rest, rfl⟩ rfl rfl
  | update frame result sequence needed idle latest decoded h =>
    rcases sendFramebufferUpdate_cases h with ⟨hf, -⟩ | ⟨-, -, bytes, ⟨-, hpending, -⟩ | ⟨-, rfl⟩⟩
    · cases hf
    · rw [hi.settled] at hpending
      cases hpending
    · exact hk.record (.update _ _ _ bytes) trivial rfl rfl

theorem Informed.change (screen : s.screenWidth = s.width ∧ s.screenHeight = s.height) (hi : k.Informed s)
    (h : ClientChange decoder s k k') : k'.Informed s := by
  cases h with
  | other same =>
    refine ⟨?_, same.newFBSizePending.trans hi.settled, ?_, ?_, ?_⟩
    · intro hn
      rw [same.announced]
      exact hi.size (same.normal ▸ hn)
    · intro hu
      rw [same.normal]
      exact (same.useNewFBSize hu).elim hi.useNewFBSize id
    · intro hu
      rw [same.normal]
      exact hi.needUpdate (same.needUpdate ▸ hu)
    · intro hu
      rw [same.normal]
      exact (same.audioCapabilityPending hu).elim hi.capability id
  | audioMessage | audioPacket => exact ⟨hi.size, hi.settled, hi.useNewFBSize, hi.needUpdate, hi.capability⟩
  | output event isOpen idle plain capability =>
    exact ⟨hi.size, hi.settled, hi.useNewFBSize, hi.needUpdate, hi.capability⟩
  | serverInit bytes isOpen idle handshake =>
    exact ⟨fun _ => by rw [screen.1, screen.2], hi.settled, fun _ => rfl, fun _ => rfl, fun _ => rfl⟩
  | request region incremental normal clipped =>
    exact ⟨hi.size, hi.settled, hi.useNewFBSize, fun _ => normal, hi.capability⟩
  | continuousUpdates enabled normal => exact ⟨hi.size, hi.settled, hi.useNewFBSize, fun _ => normal, hi.capability⟩
  | flushed now result h =>
    obtain ⟨wire, pendingJPEG, jpegWritten, rfl⟩ := flushJPEG_eq h
    exact ⟨hi.size, hi.settled, hi.useNewFBSize, hi.needUpdate, hi.capability⟩
  | expired now result h =>
    obtain ⟨wire, pendingJPEG, jpegWritten, rfl⟩ := flushJPEG_eq h
    exact ⟨hi.size, hi.settled, hi.useNewFBSize, hi.needUpdate, hi.capability⟩
  | closed => exact ⟨hi.size, hi.settled, hi.useNewFBSize, hi.needUpdate, hi.capability⟩
  | grown forceUpdate => exact ⟨hi.size, hi.settled, hi.useNewFBSize, hi.needUpdate, hi.capability⟩
  | jpeg frame encoding now sequence needed width height h =>
    obtain ⟨idle, rest, rfl⟩ := queueJPEG_eq h
    exact ⟨hi.size, hi.settled, hi.useNewFBSize, fun _ => hi.needUpdate needed, hi.capability⟩
  | update frame result sequence needed idle latest decoded h =>
    rcases sendFramebufferUpdate_cases h with ⟨hf, -⟩ | ⟨-, -, bytes, ⟨-, hpending, -⟩ | ⟨-, rfl⟩⟩
    · cases hf
    · rw [hi.settled] at hpending
      cases hpending
    · exact ⟨hi.size, hi.settled, hi.useNewFBSize, fun _ => hi.needUpdate needed, hi.capability⟩

theorem Informed.congr {t : Server} (hi : k.Informed s) (size : t.width = s.width ∧ t.height = s.height) :
    k.Informed t :=
  ⟨fun hn => by rw [size.1, size.2]; exact hi.size hn, hi.settled, hi.useNewFBSize, hi.needUpdate, hi.capability⟩

end Client

theorem Change.size {s t : Server} (h : Change decoder s t) :
    t.width = s.width ∧ t.height = s.height ∧ t.screenWidth = s.screenWidth ∧ t.screenHeight = s.screenHeight := by
  cases h with
  | other same clients client => exact ⟨same.width, same.height, same.screenWidth, same.screenHeight⟩
  | setFrame frame => exact ⟨rfl, rfl, rfl, rfl⟩
  | clearLatestFrame => exact ⟨rfl, rfl, rfl, rfl⟩
  | client c present same clients others change => exact ⟨same.width, same.height, same.screenWidth, same.screenHeight⟩
  | close c same clients others closed => exact ⟨same.width, same.height, same.screenWidth, same.screenHeight⟩
  | gone c same clients client => exact ⟨same.width, same.height, same.screenWidth, same.screenHeight⟩
  | accept c fd version new => exact ⟨rfl, rfl, rfl, rfl⟩
  | decode frame latest => exact (Server.sameFrame_decodeLatestFrame frame _).size

theorem Changes.size {s t : Server} (h : Changes decoder s t) : t.width = s.width ∧ t.height = s.height := by
  induction h with
  | refl => exact ⟨rfl, rfl⟩
  | tail _ hlast ih => exact ⟨hlast.size.1.trans ih.1, hlast.size.2.1.trans ih.2⟩

namespace Server
variable {s t : Server}

/-- The sizes of the server, and what its clients know of them. -/
structure Sized (s : Server) : Prop where
  nodup : s.clients.Nodup
  screen : s.screenWidth = s.width ∧ s.screenHeight = s.height
  informed : ∀ c ∈ s.clients, (s.client c).Informed s
  told : ∀ c, (s.client c).Told

theorem Sized.change (hs : s.Sized) (h : Change decoder s t) : t.Sized := by
  have hsize : t.width = s.width ∧ t.height = s.height := ⟨h.size.1, h.size.2.1⟩
  refine ⟨h.nodup hs.nodup, ?_, ?_, ?_⟩
  · rw [h.size.1, h.size.2.1, h.size.2.2.1, h.size.2.2.2]
    exact hs.screen
  · intro c hc
    cases h.fate c with
    | same h stays => exact (h ▸ hs.informed c (stays hc)).congr hsize
    | change h present => exact ((hs.informed c present).change hs.screen h).congr hsize
    | shut h stays =>
      have hi := hs.informed c (stays hc)
      rw [h]
      exact Client.Informed.congr ⟨hi.size, hi.settled, hi.useNewFBSize, hi.needUpdate, hi.capability⟩ hsize
    | marked region h stays =>
      have hi := hs.informed c (stays.mp hc)
      rw [h]
      exact Client.Informed.congr ⟨hi.size, hi.settled, hi.useNewFBSize, hi.needUpdate, hi.capability⟩ hsize
    | connected fd version h =>
      rw [h]
      exact ⟨nofun, rfl, nofun, nofun, nofun⟩
  · intro c
    have hc := hs.told c
    cases h.fate c with
    | same h stays => exact h ▸ hc
    | change h present => exact hc.change (hs.informed c present) h
    | shut h stays => exact hc.of_eq (by rw [h]) (by rw [h])
    | marked region h stays => exact hc.of_eq (by rw [h]) (by rw [h])
    | connected fd version h =>
      rw [h]
      have hempty : Client.Told { sock := some fd, modifiedRegion := rectRegion 0 0 s.screenWidth.toNat s.screenHeight.toNat } :=
        ⟨rfl, Transition.along_nil⟩
      exact hempty.record (.reply version) trivial rfl rfl

theorem Sized.resize (hs : s.Sized) {width height : UInt16} (h : Resized s t width height) : t.Sized := by
  obtain ⟨hwidth, hheight, hscreen⟩ := h.size
  refine ⟨hs.nodup.sublist h.clients, ?_, ?_, ?_⟩
  · rw [hwidth, hheight]
    exact hscreen
  · intro c hc
    obtain ⟨huse, hopen, hidle, bytes, hclient⟩ := h.told c hc
    have hnormal : (t.client c).normal = true := by
      rw [hclient]
      exact (hs.informed c (h.clients.subset hc)).useNewFBSize huse
    refine ⟨?_, ?_, fun _ => hnormal, fun _ => hnormal, fun _ => hnormal⟩
    · intro _
      rw [hclient, hwidth, hheight]
      rfl
    · rw [hclient]
      rfl
  · intro c
    rcases h.client_cases c with ⟨-, -, hclient⟩ | ⟨-, -, hclient⟩ | ⟨-, -, -, hidle, bytes, hclient⟩
    · exact (hs.told c).of_eq (by rw [hclient]; rfl) (by rw [hclient]; rfl)
    · exact (hs.told c).of_eq (by rw [hclient]; rfl) (by rw [hclient]; rfl)
    · rw [hclient]
      have hfits : Fits (s.client c).history ⟨.newFBSize width height bytes, (s.client c).data.pendingJPEG.isSome⟩ := by
        rw [hidle]
        rfl
      exact (hs.told c).record (.newFBSize width height bytes) hfits rfl rfl

theorem sized_start (fps : Nat) (audioAvailable : Bool) (width height : UInt16) (listening : Finset Nat) :
    (start fps audioAvailable width height listening).Sized :=
  ⟨List.nodup_nil, ⟨rfl, rfl⟩, nofun, fun _ => ⟨rfl, Transition.along_nil⟩⟩

end Server

/-- Every JPEG and every audio capability has the size announced last to its client, and a size is announced
    only while no JPEG is pending. A client that is still there after the handshake has been told the size of
    the server; one without support for `NewFBSize` is closed by the step that changes the size, and sent
    nothing. -/
theorem sizes_announced {fps : Nat} {audioAvailable : Bool} {width height : UInt16} {listening : Finset Nat}
    {actions : List ServerAction} {t : Server}
    (h : Transition.run (Server.step decoder) (Server.start fps audioAvailable width height listening) actions = some t)
    (c : ClientPtr) :
    (∀ pre entry post, (t.client c).history = pre ++ entry :: post →
      (∀ frame header, entry.event = .jpeg frame header → announcedIn pre = some (frame.width, frame.height) ∧
        ∃ encoding rest, header = updateHeader frame.width frame.height encoding ++ rest) ∧
      (∀ w h, entry.event = .audioCapability w h → announcedIn pre = some (w, h)) ∧
      (∀ w h bytes, entry.event = .newFBSize w h bytes → entry.pending = false)) ∧
    (c ∈ t.clients → (t.client c).normal = true → announcedIn (t.client c).history = some (t.width, t.height)) ∧
    (∀ action u, t.step decoder action = some u → (u.width ≠ t.width ∨ u.height ≠ t.height) → c ∈ t.clients →
      (t.client c).useNewFBSize = false →
        c ∉ u.clients ∧ (u.client c).sock = none ∧ (u.client c).wire = (t.client c).wire ∧
          (u.client c).history = (t.client c).history) := by
  have hsized := Server.run_invariant (Server.sized_start fps audioAvailable width height listening)
    (fun _ hu => hu.nodup) (fun _ _ => Server.Sized.change) (fun _ _ _ _ hs => hs.resize) h
  refine ⟨?_, ?_, ?_⟩
  · intro pre entry post hsplit
    have hfits := (hsized.told c).fits pre entry post hsplit
    unfold Fits at hfits
    refine ⟨?_, ?_, ?_⟩
    · intro frame header he
      rwa [he] at hfits
    · intro w h he
      rwa [he] at hfits
    · intro w h bytes he
      rwa [he] at hfits
  · intro hc hnormal
    rw [← (hsized.told c).announced]
    exact (hsized.informed c hc).size hnormal
  · intro action u ha hsize hc huse
    rcases Server.step_changes ha with hchanges | hresizes
    · have hsame := hchanges.size
      exact absurd hsize (by simp [hsame])
    · obtain ⟨w, h, hresized⟩ := hresizes.resized hsized.nodup
      -- Only `Resize` changes the size, and it closes every client without `NewFBSize`.
      rcases hresized.client_cases c with ⟨-, habsent, -⟩ | ⟨hgone, -, hclient⟩ | ⟨-, huse', -⟩
      · exact absurd hc habsent
      · rw [hclient]
        exact ⟨hgone, rfl, rfl, rfl⟩
      · rw [huse] at huse'
        cases huse'

/-- A client with Tight JPEG and `NewFBSize` is sent a frame, the next size, and a frame of that size. -/
def frameOfTwoSizes : List ServerAction :=
  [.pollClientEvents
    { now := 1, sendmsg := fun _ => .again, events :=
      [.accept 0 5 [82], .message 0 (.clientInit []), .message 0 (.setEncodings { tightQuality := 5, newFBSize := true }),
        .message 0 (.updateRequest 0 0 2 1 true)] },
    .setFrame { data := [10, 20], width := 2, height := 1 },
    .processFrame { now := 2, update := fun _ => none, sendmsg := fun _ => .sent 100 },
    .setFrame { data := [10, 20, 30], width := 3, height := 1 },
    .processFrame { now := 3, update := fun _ => some [0], sendmsg := fun _ => .again },
    .pollClientEvents
      { now := 4, sendmsg := fun _ => .again, events := [.message 0 (.updateRequest 0 0 3 1 false)] },
    .processFrame { now := 5, update := fun _ => none, sendmsg := fun _ => .sent 100 }]

theorem sizes_announced_two : ∃ t,
    Transition.run (Server.step .grayRow) (Server.start 30 false 2 1 ∅) frameOfTwoSizes = some t ∧
      (t.width, t.height) = (3, 1) ∧ (t.client 0).history.length = 7 ∧
      announcedIn (t.client 0).history = some (t.width, t.height) := by
  obtain ⟨t, h, hsize, hlength, hmem, hnormal⟩ : ∃ t,
      Transition.run (Server.step .grayRow) (Server.start 30 false 2 1 ∅) frameOfTwoSizes = some t ∧
        (t.width, t.height) = (3, 1) ∧ (t.client 0).history.length = 7 ∧ t.clients = [0] ∧
          (t.client 0).normal = true := ⟨_, rfl, rfl, rfl, rfl, rfl⟩
  exact ⟨t, h, hsize, hlength, (sizes_announced h 0).2.1 (by rw [hmem]; exact List.mem_singleton.mpr rfl) hnormal⟩

end OnekvmVnc
