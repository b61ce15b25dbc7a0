import OnekvmVnc.Theorems.Server.Resize

/-! What the other threads bring to the server, and its count of clients. A turn of `Run` takes the audio queue in
    `ProcessAudio`, and otherwise leaves what has come as it is; `clients_` is the number of clients in the list. -/

namespace OnekvmVnc

open Transition

variable {decoder : JPEGDecoder}

namespace Server
variable {s t u : Server}

/-! ### What a turn leaves as it is -/

/-- The two servers agree on what other threads have brought. -/
structure SameArrivals (s t : Server) : Prop where
  latestFrame : t.latestFrame = s.latestFrame
  latestSequence : t.latestSequence = s.latestSequence
  audioQueue : t.audioQueue = s.audioQueue

namespace SameArrivals

theorem refl : SameArrivals s s := ⟨rfl, rfl, rfl⟩

theorem trans (h : SameArrivals s t) (h' : SameArrivals t u) : SameArrivals s u :=
  ⟨h'.latestFrame.trans h.latestFrame, h'.latestSequence.trans h.latestSequence, h'.audioQueue.trans h.audioQueue⟩

end SameArrivals

/-- The list of clients and their number. -/
structure SameClients (s t : Server) : Prop extends SameArrivals s t where
  clients : t.clients = s.clients
  clientCount : t.clientCount = s.clientCount

namespace SameClients

theorem refl : SameClients s s := ⟨.refl, rfl, rfl⟩

theorem trans (h : SameClients s t) (h' : SameClients t u) : SameClients s u :=
  ⟨h.toSameArrivals.trans h'.toSameArrivals, h'.clients.trans h.clients, h'.clientCount.trans h.clientCount⟩

theorem modify (c : ClientPtr) (f : Client → Client) : SameClients s (s.modify c f) := ⟨⟨rfl, rfl, rfl⟩, rfl, rfl⟩

end SameClients

theorem sameClients_rfbCloseClient (c : ClientPtr) : SameClients s (s.rfbCloseClient c) := by
  unfold rfbCloseClient
  split
  · exact .refl
  · exact ⟨⟨rfl, rfl, rfl⟩, rfl, rfl⟩

/-! ### The count of clients -/

/-- `clients_` is the number of clients, none of which is in the list twice. -/
structure ClientsCounted (s : Server) : Prop where
  nodup : s.clients.Nodup
  count : s.clientCount = s.clients.length

theorem ClientsCounted.of_same (h : s.ClientsCounted) (same : SameClients s t) : t.ClientsCounted :=
  ⟨by rw [same.clients]; exact h.nodup, by rw [same.clientCount, same.clients, h.count]⟩

/-- The other threads' arrivals stay, and so does the count. -/
structure Handled (s t : Server) : Prop extends SameArrivals s t where
  counted : s.ClientsCounted → t.ClientsCounted

namespace Handled

theorem trans (h : Handled s t) (h' : Handled t u) : Handled s u :=
  ⟨h.toSameArrivals.trans h'.toSameArrivals, h'.counted ∘ h.counted⟩

end Handled

theorem SameClients.handled (h : SameClients s t) : Handled s t := ⟨h.toSameArrivals, fun hs => hs.of_same h⟩

theorem ClientsCounted.gone (h : s.ClientsCounted) {c : ClientPtr} (present : c ∈ s.clients) : (s.rfbClientConnectionGone c).ClientsCounted := by
  refine ⟨h.nodup.erase c, ?_⟩
  have hpos : 0 < s.clients.length := List.length_pos_of_mem present
  change (if s.clientCount > 0 then s.clientCount - 1 else s.clientCount) = (s.clients.erase c).length
  rw [List.length_erase_of_mem present, h.count, if_pos hpos]

/-- A list of clients that are told to go, each at most once. -/
theorem handled_closeClients {closing : List ClientPtr} (present : closing ⊆ s.clients) (nodup : closing.Nodup) :
    Handled s (s.closeClients closing) := by
  refine ⟨?_, fun hs => ?_⟩
  · exact List.foldlRecOn (motive := SameArrivals s) closing _ .refl
      fun _ hu c _ => hu.trans ((sameClients_rfbCloseClient c).toSameArrivals.trans ⟨rfl, rfl, rfl⟩)
  · unfold closeClients
    induction closing generalizing s with
    | nil => exact hs
    | cons c closing ih =>
      rw [List.nodup_cons] at nodup
      have hsame := sameClients_rfbCloseClient (s := s) c
      have hpresent : c ∈ (s.rfbCloseClient c).clients := by
        rw [hsame.clients]
        exact present (List.mem_cons_self ..)
      refine ih (fun d hd => ?_) nodup.2 ((hs.of_same hsame).gone hpresent)
      change d ∈ (s.rfbCloseClient c).clients.erase c
      rw [hsame.clients, List.mem_erase_of_ne (by rintro rfl; exact nodup.1 hd)]
      exact present (List.mem_cons_of_mem _ hd)

theorem handled_reapClosed {list : List ClientPtr} (present : list ⊆ s.clients) (nodup : list.Nodup) :
    Handled s (reapClosed s list) := by
  induction list generalizing s with
  | nil => exact SameClients.refl.handled
  | cons c rest ih =>
    rw [List.nodup_cons] at nodup
    have hc : c ∈ s.clients := present (List.mem_cons_self ..)
    rw [reapClosed]
    split
    · have hgone : Handled s (s.rfbClientConnectionGone c) := ⟨⟨rfl, rfl, rfl⟩, fun hs => hs.gone hc⟩
      refine hgone.trans (ih (fun d hd => ?_) nodup.2)
      change d ∈ s.clients.erase c
      rw [List.mem_erase_of_ne (by rintro rfl; exact nodup.1 hd)]
      exact present (List.mem_cons_of_mem _ hd)
    · exact ih (fun d hd => present (List.mem_cons_of_mem _ hd)) nodup.2

/-! ### The functions of a turn -/

theorem sameClients_flushJPEGWrites (now : Int) (sendmsg : ClientPtr → SendResult) (list : List ClientPtr) :
    SameClients s (flushJPEGWrites now sendmsg s list) := by
  induction list generalizing s with
  | nil => exact .refl
  | cons c rest ih =>
    rw [flushJPEGWrites]
    dsimp only
    split
    · exact ((SameClients.modify c _).trans (sameClients_rfbCloseClient c)).trans ih
    · exact (SameClients.modify c _).trans ih

theorem sameClients_processAudioLoop (queued : List (List Int16)) (ok : ClientPtr → Nat → Bool) (list : List ClientPtr) :
    SameClients s (processAudioLoop queued ok s list).1 := by
  induction list generalizing s with
  | nil => exact .refl
  | cons c rest ih => exact (SameClients.modify c _).trans ih

theorem processAudioLoop_sublist (queued : List (List Int16)) (ok : ClientPtr → Nat → Bool) (list : List ClientPtr) :
    (processAudioLoop queued ok s list).2.Sublist list := by
  induction list generalizing s with
  | nil => exact .slnil
  | cons c rest ih =>
    rw [processAudioLoop]
    dsimp only
    split
    · exact .cons_cons c ih
    · exact .cons c ih

/-- `ProcessAudio` takes the queue, and leaves the latest frame. -/
theorem handled_processAudio (hs : s.ClientsCounted) (ok : ClientPtr → Nat → Bool) :
    Handled { s with audioQueue := [] } (s.processAudio ok) := by
  have hloop := sameClients_processAudioLoop (s := { s with audioQueue := [] }) s.audioQueue ok s.clients
  have hclosing := processAudioLoop_sublist (s := { s with audioQueue := [] }) s.audioQueue ok s.clients
  refine hloop.handled.trans (handled_closeClients ?_ (hs.nodup.sublist hclosing))
  rw [hloop.clients]
  exact hclosing.subset

theorem sameClients_restoreFds (fds : List (ClientPtr × Nat)) : SameClients s (restoreFds s fds) := by
  induction fds generalizing s with
  | nil => exact .refl
  | cons p rest ih =>
    rw [restoreFds]
    split
    · refine SameClients.trans ?_ ih
      exact ⟨⟨rfl, rfl, rfl⟩, rfl, rfl⟩
    · exact ih

theorem handled_checkFd {event : LibraryEvent} (h : s.checkFd event = some t) : Handled s t := by
  cases event with
  | accept c fd version =>
    simp only [checkFd, Option.ite_none_right_eq_some, Option.some.injEq] at h
    obtain ⟨⟨hnew, -, -⟩, rfl⟩ := h
    refine ⟨⟨rfl, rfl, rfl⟩, fun hs => ⟨List.nodup_cons.mpr ⟨hnew, hs.nodup⟩, ?_⟩⟩
    change s.clientCount + 1 = s.clients.length + 1
    rw [hs.count]
  | message c message =>
    simp only [checkFd, Option.ite_none_right_eq_some, Option.some.injEq] at h
    obtain ⟨-, rfl⟩ := h
    unfold handle
    dsimp only
    split
    · exact ((SameClients.modify c _).trans (sameClients_rfbCloseClient c)).handled
    · exact (SameClients.modify c _).handled

theorem handled_pollClientEvents (hs : s.ClientsCounted) {env : PollEnv} (h : s.pollClientEvents env = some t) : Handled s t := by
  simp only [pollClientEvents, Option.map_eq_some_iff] at h
  obtain ⟨v, hv, rfl⟩ := h
  have hflushed := (sameClients_flushJPEGWrites (s := s) env.now env.sendmsg s.clients).handled
  have hreaped := hflushed.trans
    (handled_reapClosed (List.Subset.refl _) (hflushed.counted hs).nodup)
  have hchecked : Handled s v := by
    refine Transition.run_invariant (P := fun v => Handled s v) ?_ (fun _ _ _ hu he => hu.trans (handled_checkFd he)) hv
    exact hreaped.trans ⟨⟨rfl, rfl, rfl⟩, fun h => ⟨h.nodup, h.count⟩⟩
  have hrestored (fds : List (ClientPtr × Nat)) : Handled s (restoreFds v fds) :=
    hchecked.trans (sameClients_restoreFds fds).handled
  exact (hrestored _).trans (handled_reapClosed (List.Subset.refl _) ((hrestored _).counted hs).nodup)

theorem sameClients_resizeLoop (update : ClientPtr → Option (List UInt8)) (list : List ClientPtr) :
    SameClients s (resizeLoop update s list).1 ∧ (resizeLoop update s list).2.Sublist list := by
  induction list generalizing s with
  | nil => exact ⟨.refl, .slnil⟩
  | cons c rest ih =>
    rw [resizeLoop]
    dsimp only
    split
    · exact ⟨ih.1, .cons_cons c ih.2⟩
    · split
      · refine ⟨SameClients.trans ?_ ih.1, .cons_cons c ih.2⟩
        exact ⟨⟨rfl, rfl, rfl⟩, rfl, rfl⟩
      · refine ⟨SameClients.trans ?_ ih.1, .cons c ih.2⟩
        exact ⟨⟨rfl, rfl, rfl⟩, rfl, rfl⟩

theorem handled_resize (hs : s.ClientsCounted) {width height : UInt16} {memory : Bool}
    {update : ClientPtr → Option (List UInt8)} (h : s.resize width height memory update = some t) : Handled s t := by
  obtain rfl := resize_eq h
  obtain ⟨hloop, hclosing⟩ := sameClients_resizeLoop (s := s.resizing width height) update s.clients
  have hresizing : SameClients s (s.resizing width height) := ⟨⟨rfl, rfl, rfl⟩, rfl, rfl⟩
  refine (hresizing.trans hloop).handled.trans (handled_closeClients ?_ (hs.nodup.sublist hclosing))
  rw [hloop.clients]
  exact hclosing.subset

theorem sameClients_markTiles (tiles : List TileRect) : SameClients s (s.markTiles tiles) :=
  List.foldlRecOn (motive := SameClients s) tiles _ .refl fun _ hs _ _ => hs.trans ⟨⟨rfl, rfl, rfl⟩, rfl, rfl⟩

theorem sameClients_decodeLatestFrame (s : Server) (decoder : JPEGDecoder) (frame : JPEGFrame) (sequence : Nat) :
    SameClients s (s.decodeLatestFrame decoder frame sequence).1 := by
  unfold decodeLatestFrame
  split
  · exact .refl
  · dsimp only
    split
    · exact ⟨⟨rfl, rfl, rfl⟩, rfl, rfl⟩
    · have hmarked (tiles : List TileRect) := sameClients_markTiles (s := { s with
          previousRGB := if s.previousRGB.length ≠ s.width.toNat * s.height.toNat then [] else s.previousRGB
          framebuffer := (decoder.decodeJPEGToRGB565 frame.data s.framebuffer s.width.toNat s.height.toNat).1 }) tiles
      exact ⟨⟨(hmarked _).latestFrame, (hmarked _).latestSequence, (hmarked _).audioQueue⟩, (hmarked _).clients,
        (hmarked _).clientCount⟩

end Server

namespace FrameLoop
variable {l : FrameLoop} {env : Server.FrameEnv} {frame : JPEGFrame} {sequence : Nat}

open Server in
/-- A round of the loop may put its client on the list of those to be closed. -/
structure Round (l : FrameLoop) (c : ClientPtr) (m : FrameLoop) : Prop where
  same : SameClients l.server m.server
  closing : m.closing = l.closing ∨ m.closing = l.closing ++ [c]

theorem round_serveJPEG (c : ClientPtr) : Round l c (l.serveJPEG decoder env frame sequence c) := by
  unfold serveJPEG
  dsimp only
  cases (if (l.server.client c).wantsNativeJPEG then
      (l.server.client c).sendNativeJPEG frame (env.queued c)
        (Server.image decoder frame l.server.width l.server.height) l.server.previous
    else (l.server.client c).sendJPEG frame (env.queued c)
      (Server.image decoder frame l.server.width l.server.height) l.server.previous) with
  | mk k ok =>
    cases ok with
    | true => exact ⟨⟨⟨rfl, rfl, rfl⟩, rfl, rfl⟩, .inl rfl⟩
    | false => exact ⟨.refl, .inr rfl⟩

theorem round_serveFramebuffer (c : ClientPtr) : Round l c (l.serveFramebuffer decoder env frame sequence c) := by
  unfold serveFramebuffer
  dsimp only
  split
  · exact ⟨⟨⟨rfl, rfl, rfl⟩, rfl, rfl⟩, .inr rfl⟩
  · exact ⟨⟨⟨rfl, rfl, rfl⟩, rfl, rfl⟩, .inl rfl⟩
  · exact ⟨⟨⟨rfl, rfl, rfl⟩, rfl, rfl⟩, .inl rfl⟩

theorem Round.of_same {m : FrameLoop} {c : ClientPtr} {server : Server} {decoded : Bool} (same : Server.SameClients l.server server)
    (h : Round { l with server, decoded } c m) : Round l c m := ⟨same.trans h.same, h.closing⟩

variable (l decoder env frame sequence)

theorem round_client (c : ClientPtr) : Round l c (l.client decoder env frame sequence c) := by
  unfold FrameLoop.client
  dsimp only
  split
  · exact ⟨.refl, .inl rfl⟩
  · have hlogged := Server.SameClients.modify (s := l.server) c
      fun k => { k with data := { k.data with loggedEncoding := true } }
    split
    · exact ⟨hlogged, .inl rfl⟩
    · split
      · exact (round_serveJPEG c).of_same hlogged
      · unfold serveFallback
        split
        · exact (round_serveFramebuffer c).of_same hlogged
        · have hdecoded := hlogged.trans (Server.sameClients_decodeLatestFrame _ decoder frame sequence)
          split
          · rename_i server heq
            rw [heq] at hdecoded
            exact ⟨hdecoded, .inr rfl⟩
          · rename_i server heq
            rw [heq] at hdecoded
            exact (round_serveFramebuffer c).of_same hdecoded

/-- The loop closes clients of the list, in its order. -/
theorem rounds (list : List ClientPtr) :
    Server.SameClients l.server (list.foldl (fun l c => l.client decoder env frame sequence c) l).server ∧
      ∃ closing, (list.foldl (fun l c => l.client decoder env frame sequence c) l).closing = l.closing ++ closing ∧
        closing.Sublist list := by
  induction list generalizing l with
  | nil => exact ⟨.refl, [], (List.append_nil _).symm, .slnil⟩
  | cons c rest ih =>
    have hround := round_client decoder l env frame sequence c
    obtain ⟨hsame, closing, hclosing, hsublist⟩ := ih (l.client decoder env frame sequence c)
    rw [List.foldl_cons]
    refine ⟨hround.same.trans hsame, ?_⟩
    rcases hround.closing with hnone | hone
    · exact ⟨closing, by rw [hclosing, hnone], .cons c hsublist⟩
    · exact ⟨c :: closing, by rw [hclosing, hone, List.append_assoc, List.singleton_append], .cons_cons c hsublist⟩

end FrameLoop

namespace Server
variable {s t : Server}

theorem handled_finishFrame {l : FrameLoop} (env : FrameEnv) (present : l.closing ⊆ l.server.clients)
    (nodup : l.closing.Nodup) : Handled l.server (finishFrame env l) := by
  have hclosed := handled_closeClients present nodup
  unfold finishFrame
  dsimp only
  generalize l.server.closeClients l.closing = u at hclosed
  have hsent : Handled l.server (if l.sentJPEG then
      flushJPEGWrites env.flushed env.sendmsg { u with lastJPEGSent := u.advanceJPEGSent env.now } u.clients else u) := by
    split
    · have hadvanced : SameClients u { u with lastJPEGSent := u.advanceJPEGSent env.now } := ⟨⟨rfl, rfl, rfl⟩, rfl, rfl⟩
      exact hclosed.trans (hadvanced.trans (sameClients_flushJPEGWrites _ _ _)).handled
    · exact hclosed
  split
  · exact hsent.trans ⟨⟨rfl, rfl, rfl⟩, fun h => ⟨h.nodup, h.count⟩⟩
  · exact hsent

theorem handled_processFrame (hs : s.ClientsCounted) {env : FrameEnv} (h : s.processFrame decoder env = some t) : Handled s t := by
  unfold processFrame at h
  split at h
  · cases h
    exact SameClients.refl.handled
  · rename_i frame _
    split at h
    · cases h
      exact SameClients.refl.handled
    · split at h
      · split at h
        · cases h
          exact SameClients.refl.handled
        · exact handled_resize hs h
      · cases h
        obtain ⟨hsame, closing, hclosing, hsublist⟩ := FrameLoop.rounds decoder { server := s } env frame s.latestSequence s.clients
        rw [List.nil_append] at hclosing
        refine hsame.handled.trans (handled_finishFrame env ?_ ?_)
        · rw [hclosing, hsame.clients]
          exact hsublist.subset
        · rw [hclosing]
          exact hs.nodup.sublist hsublist

theorem clientsCounted_syncSubscription (hs : s.ClientsCounted) : s.syncSubscription.ClientsCounted := by
  unfold syncSubscription
  split
  · exact ⟨hs.nodup, hs.count⟩
  · split
    · exact ⟨hs.nodup, hs.count⟩
    · exact hs

theorem sameFrames_syncAudioSubscription : s.syncAudioSubscription.latestFrame = s.latestFrame ∧
    s.syncAudioSubscription.latestSequence = s.latestSequence ∧
    (s.syncAudioSubscription.audioQueue = s.audioQueue ∨ s.syncAudioSubscription.audioQueue = []) ∧
    s.syncAudioSubscription.clients = s.clients ∧ s.syncAudioSubscription.clientCount = s.clientCount := by
  unfold syncAudioSubscription
  dsimp only
  split
  · exact ⟨rfl, rfl, .inl rfl, rfl, rfl⟩
  · split
    · exact ⟨rfl, rfl, .inl rfl, rfl, rfl⟩
    · split
      · exact ⟨rfl, rfl, .inr rfl, rfl, rfl⟩
      · exact ⟨rfl, rfl, .inl rfl, rfl, rfl⟩

theorem queueAudio_eq (s : Server) (pcm : List Int16) : ∃ audioQueue, s.queueAudio pcm = { s with audioQueue } ∧
    (audioQueue = s.audioQueue ∨ pcm ≠ []) := by
  unfold queueAudio
  split
  · exact ⟨s.audioQueue, rfl, .inl rfl⟩
  · rename_i hne
    exact ⟨_, rfl, .inr hne⟩

/-- The count of clients in a run of the server: it is always the number of clients there are. -/
theorem clientsCounted_step (decoder : JPEGDecoder) (action : ServerAction) (hs : s.ClientsCounted)
    (h : step decoder s action = some t) : t.ClientsCounted := by
  cases action with
  | setFrame frame =>
    cases h
    exact ⟨hs.nodup, hs.count⟩
  | queueAudio pcm =>
    cases h
    obtain ⟨audioQueue, hqueue, -⟩ := queueAudio_eq s pcm
    rw [hqueue]
    exact ⟨hs.nodup, hs.count⟩
  | pollClientEvents env => exact (handled_pollClientEvents hs h).counted hs
  | syncSubscription =>
    cases h
    exact clientsCounted_syncSubscription hs
  | syncAudioSubscription =>
    cases h
    obtain ⟨-, -, -, hclients, hcount⟩ := sameFrames_syncAudioSubscription (s := s)
    exact ⟨by rw [hclients]; exact hs.nodup, by rw [hclients, hcount, hs.count]⟩
  | processAudio ok =>
    cases h
    exact (handled_processAudio hs ok).counted ⟨hs.nodup, hs.count⟩
  | processFrame env => exact (handled_processFrame hs h).counted hs

/-- However clients come, go and fail in a run, `clients_` is their number, and `SyncSubscription` leaves the media
    subscription on exactly while there are any. -/
theorem clients_counted {fps : Nat} {audioAvailable : Bool} {width height : UInt16} {listening : Finset Nat}
    {actions : List ServerAction} (h : run (step decoder) (start fps audioAvailable width height listening) actions = some s) :
    s.clientCount = s.clients.length ∧ s.clients.Nodup ∧ (s.syncSubscription.subscription = true ↔ s.clients ≠ []) := by
  have hcounted : s.ClientsCounted :=
    Transition.run_invariant (P := ClientsCounted) ⟨List.nodup_nil, rfl⟩ (fun _ _ _ hu ha => clientsCounted_step decoder _ hu ha) h
  refine ⟨hcounted.count, hcounted.nodup, ?_⟩
  rw [← List.length_pos_iff, ← hcounted.count, syncSubscription]
  split
  · rename_i hstart
    exact iff_of_true rfl hstart.1
  · rename_i hstart
    split
    · rename_i hstop
      exact iff_of_false (Bool.eq_false_iff.mp rfl) (by omega)
    · rename_i hstop
      cases hsubscription : s.subscription with
      | true => exact iff_of_true rfl (Nat.pos_of_ne_zero fun hcount => hstop ⟨hcount, hsubscription⟩)
      | false => exact iff_of_false Bool.false_ne_true fun hcount => hstart ⟨hcount, hsubscription⟩

/-- Two clients connect, and one of them leaves. -/
theorem clients_counted_two : ∃ s, run (step .grayRow) (start 30 false 1 1 ∅)
      [.pollClientEvents { now := 1, sendmsg := fun _ => .again, events := [.accept 0 5 [82], .accept 1 6 [82]] },
        .syncSubscription,
        .pollClientEvents { now := 2, sendmsg := fun _ => .again, events := [.message 0 .close] }] = some s ∧
    s.clients = [1] ∧ s.syncSubscription.subscription = true := by
  have hrun : ((run (step .grayRow) (start 30 false 1 1 ∅)
      [.pollClientEvents { now := 1, sendmsg := fun _ => .again, events := [.accept 0 5 [82], .accept 1 6 [82]] },
        .syncSubscription,
        .pollClientEvents { now := 2, sendmsg := fun _ => .again, events := [.message 0 .close] }]).map
          fun s => s.clients) = some [1] := by decide +kernel
  obtain ⟨s, hs, hclients⟩ := Option.map_eq_some_iff.mp hrun
  exact ⟨s, hs, hclients, (clients_counted hs).2.2.mpr (by rw [hclients]; exact List.cons_ne_nil _ _)⟩

end Server

end OnekvmVnc
