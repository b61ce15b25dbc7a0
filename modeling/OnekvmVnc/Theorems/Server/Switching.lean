import OnekvmVnc.Theorems.Server.AudioTurns
import OnekvmVnc.Theorems.Server.Damage
import OnekvmVnc.Theorems.Server.Pacing

/-! Viewers that switch between direct JPEG and the fallback. Only `ProcessFrame` sends updates. What an update
    shows is settled by the state before the call: by the JPEG that the viewer was sent last, by `previous_rgb_`,
    and by the tiles that the new frame changes. -/

namespace OnekvmVnc

open Damage Relation

variable {decoder : JPEGDecoder}

namespace ClientEvent

def isUpdate : ClientEvent → Bool
  | .update .. => true
  | _ => false

def jpegFrame : ClientEvent → Option JPEGFrame
  | .jpeg frame _ => some frame
  | _ => none

end ClientEvent

/-- What a viewer makes of a frame of its own size. -/
def JPEGFrame.picture (frame : JPEGFrame) (decoder : JPEGDecoder) : Nat × Nat → Option UInt16 :=
  Server.image decoder frame frame.width frame.height

/-! ### Where updates come from -/

namespace Client
variable {s : Server} {k k' k'' : Client}

/-- No update is sent: those that the client has been sent after it were sent before. -/
def NoUpdate (k k' : Client) : Prop :=
  ∀ past entry future, k'.history = past ++ entry :: future → entry.event.isUpdate = true →
    ∃ rest, k.history = past ++ entry :: rest

theorem NoUpdate.trans (h : NoUpdate k k') (h' : NoUpdate k' k'') : NoUpdate k k'' := by
  intro past entry future hsplit hupdate
  obtain ⟨rest, hrest⟩ := h' past entry future hsplit hupdate
  exact h past entry rest hrest hupdate

theorem noUpdate_of_history (h : k'.history = k.history) : NoUpdate k k' := by
  intro past entry future hsplit _
  exact ⟨future, h.symm.trans hsplit⟩

theorem noUpdate_append {e : HistoryEntry} (other : e.event.isUpdate = false)
    (h : k'.history = k.history ++ [e]) : NoUpdate k k' := by
  intro past entry future hsplit hupdate
  rcases Transition.split_concat (h.symm.trans hsplit) with hbefore | ⟨-, rfl⟩
  · exact hbefore
  · rw [other] at hupdate
    cases hupdate

/-- Without a frame, no change of a client is an update. -/
theorem ClientChange.noUpdate (unseen : s.latestFrame = none) (h : ClientChange decoder s k k') : NoUpdate k k' := by
  cases h with
  | other same => exact noUpdate_of_history same.history
  | audioMessage message => exact noUpdate_append (e := ⟨.audioMessage message, _⟩) rfl rfl
  | audioPacket source => exact noUpdate_append (e := ⟨.audioPacket source, _⟩) rfl rfl
  | output event isOpen idle plain capability =>
    exact noUpdate_append (e := ⟨event, _⟩) (by cases event <;> first | rfl | cases plain) rfl
  | serverInit bytes isOpen idle handshake => exact noUpdate_append (e := ⟨.serverInit _ _ bytes, _⟩) rfl rfl
  | request region incremental normal clipped =>
    exact noUpdate_append (e := ⟨.request region incremental, _⟩) rfl rfl
  | continuousUpdates enabled normal => exact noUpdate_append (e := ⟨.continuousUpdates enabled, _⟩) rfl rfl
  | flushed now result h | expired now result h =>
    obtain ⟨wire, pendingJPEG, jpegWritten, rfl⟩ := flushJPEG_eq h
    exact noUpdate_of_history rfl
  | closed => exact noUpdate_of_history rfl
  | grown forceUpdate => exact noUpdate_of_history rfl
  | jpeg frame encoding now sequence needed width height h =>
    obtain ⟨-, rest, rfl⟩ := queueJPEG_eq h
    exact noUpdate_append (e := ⟨.jpeg frame _, _⟩) rfl rfl
  | update frame result sequence needed idle latest decoded h =>
    rw [unseen] at latest
    cases latest

theorem ClientChanges.noUpdate (unseen : s.latestFrame = none) (h : ClientChanges decoder s k k') : NoUpdate k k' := by
  induction h with
  | refl => exact noUpdate_of_history rfl
  | tail _ hlast ih => exact ih.trans (ClientChange.noUpdate unseen hlast)

theorem noUpdate_closing {close : Bool} (h : NoUpdate k k') : NoUpdate k (closing (k', close)) := by
  unfold closing
  split
  · exact h.trans (noUpdate_of_history rfl)
  · exact h

end Client

namespace Server
open Client (NoUpdate noUpdate_of_history)
variable {s t u : Server}

/-- No client is sent an update. -/
def Silent (s t : Server) : Prop := ∀ c, NoUpdate (s.client c) (t.client c)

theorem Silent.trans (h : Silent s t) (h' : Silent t u) : Silent s u := fun c => (h c).trans (h' c)

theorem silent_of_client (h : t.client = s.client) : Silent s t := fun _ => noUpdate_of_history (by rw [h])

theorem checkFd_silent (quiet : Quiet s) {event : LibraryEvent} (h : s.checkFd event = some t) : Silent s t := by
  intro c
  cases event with
  | accept d fd version =>
    simp only [checkFd, Option.ite_none_right_eq_some, Option.some.injEq] at h
    obtain ⟨-, rfl⟩ := h
    by_cases hcd : c = d
    · subst hcd
      rw [accept_client_self]
      intro past entry future hsplit hupdate
      -- All that a new client has been sent is the version.
      have hversion : [] ++ [(⟨.reply version, false⟩ : HistoryEntry)] = past ++ entry :: future := hsplit
      rcases Transition.split_concat hversion with ⟨rest, hrest⟩ | ⟨-, rfl⟩
      · exact absurd hrest.symm (List.append_ne_nil_of_right_ne_nil _ (List.cons_ne_nil _ _))
      · cases hupdate
    · rw [accept_client_of_ne hcd]
      exact noUpdate_of_history rfl
  | message d message =>
    simp only [checkFd, Option.ite_none_right_eq_some, Option.some.injEq] at h
    obtain ⟨⟨hd, hreadable⟩, rfl⟩ := h
    by_cases hcd : c = d
    · subst hcd
      obtain ⟨hopen, hidle⟩ := quiet.idle hd hreadable
      rw [handle_client_self]
      -- Messages are handled in the same way without a frame.
      exact Client.noUpdate_closing (Client.ClientChanges.noUpdate (s := { s with latestFrame := none }) rfl
        (Client.changes_handle .grayRow { s with latestFrame := none } message hopen hidle).1)
    · rw [(handle_eq d message).2.1 c hcd]
      exact noUpdate_of_history rfl

theorem pollClientEvents_silent {env : PollEnv} (h : s.pollClientEvents env = some t) : Silent s t := by
  simp only [pollClientEvents, Option.map_eq_some_iff] at h
  obtain ⟨v, hv, rfl⟩ := h
  have hflushed : Silent s (flushJPEGWrites env.now env.sendmsg s s.clients) := fun c =>
    noUpdate_of_history (flushJPEGWrites_flags env.now env.sendmsg s.clients c).history
  generalize flushJPEGWrites env.now env.sendmsg s s.clients = u at hflushed hv
  have hreaped := hflushed.trans (silent_of_client (reapClosed_client u.clients))
  generalize reapClosed u u.clients = w at hreaped hv
  have hchecked : Quiet v ∧ Silent (w.clearFds w.deferred) v :=
    Transition.run_invariant (P := fun v => Quiet v ∧ Silent (w.clearFds w.deferred) v)
      ⟨quiet_clearFds, silent_of_client rfl⟩
      (fun u event v hu he => by
        obtain ⟨-, hquiet⟩ : Changes .grayRow u v ∧ Quiet v := checkFd_changes hu.1 he
        exact ⟨hquiet, hu.2.trans (checkFd_silent hu.1 he)⟩) hv
  refine (hreaped.trans hchecked.2).trans (silent_of_client ?_)
  rw [reapClosed_client, restoreFds_client]

theorem processAudio_silent (nodup : s.clients.Nodup) (ok : ClientPtr → Nat → Bool) : Silent s (s.processAudio ok) := by
  intro c
  rw [processAudio_client nodup]
  split
  · have hchanges : ClientChanges .grayRow { s with latestFrame := none } (s.client c)
        ((s.client c).processAudio s.width s.height s.audioQueue (ok c)).1 :=
      Client.changes_processAudio s.audioQueue (ok c)
    exact Client.noUpdate_closing (Client.ClientChanges.noUpdate rfl hchanges)
  · exact noUpdate_of_history rfl

/-- A step other than `ProcessFrame` sends no update. -/
theorem step_silent_of_other (nodup : s.clients.Nodup) {action : ServerAction} (h : step decoder s action = some t)
    (other : ∀ env, action ≠ .processFrame env) : Silent s t := by
  cases action with
  | setFrame frame =>
    obtain rfl := Option.some.inj h
    exact silent_of_client rfl
  | queueAudio pcm =>
    obtain rfl := Option.some.inj h
    refine silent_of_client ?_
    unfold queueAudio
    split <;> rfl
  | pollClientEvents env => exact pollClientEvents_silent h
  | syncSubscription =>
    obtain rfl := Option.some.inj h
    refine silent_of_client ?_
    unfold syncSubscription
    split
    · rfl
    · split <;> rfl
  | syncAudioSubscription =>
    obtain rfl := Option.some.inj h
    refine silent_of_client ?_
    unfold syncAudioSubscription
    dsimp only
    split
    · rfl
    · split
      · rfl
      · split <;> rfl
  | processAudio ok =>
    obtain rfl := Option.some.inj h
    exact processAudio_silent nodup ok
  | processFrame env => exact absurd rfl (other env)

end Server

/-! ### The last JPEG -/

namespace Client
variable {s : Server} {k k' : Client}

/-- The JPEG that was queued to the client last. -/
def lastJPEG (k : Client) : Option JPEGFrame := (k.history.filterMap fun entry => entry.event.jpegFrame).getLast?

/-- Where the client's base is, it shows its last JPEG. -/
def Strayed (decoder : JPEGDecoder) (k : Client) : Prop :=
  ∀ p ∈ k.base, ∃ jpeg, k.lastJPEG = some jpeg ∧ k.display p = jpeg.picture decoder p

theorem lastJPEG_append {e : HistoryEntry} (other : e.event.jpegFrame = none)
    (h : k'.history = k.history ++ [e]) : k'.lastJPEG = k.lastJPEG := by
  simp [lastJPEG, h, other]

theorem lastJPEG_jpeg {e : HistoryEntry} {frame : JPEGFrame} (jpeg : e.event.jpegFrame = some frame)
    (h : k'.history = k.history ++ [e]) : k'.lastJPEG = some frame := by
  simp [lastJPEG, h, jpeg]

theorem Strayed.of_eq (h : k.Strayed decoder) (history : k'.history = k.history) (base : k'.base ⊆ k.base)
    (display : k'.display = k.display) : k'.Strayed decoder := by
  intro p hp
  obtain ⟨jpeg, hlast, hshows⟩ := h p (base hp)
  refine ⟨jpeg, ?_, by rw [display, hshows]⟩
  rw [lastJPEG, history]
  exact hlast

theorem Strayed.append (h : k.Strayed decoder) {e : HistoryEntry} (other : e.event.jpegFrame = none)
    (history : k'.history = k.history ++ [e]) (base : k'.base ⊆ k.base)
    (display : ∀ p ∈ k'.base, k'.display p = k.display p) : k'.Strayed decoder := by
  intro p hp
  obtain ⟨jpeg, hlast, hshows⟩ := h p (base hp)
  exact ⟨jpeg, (lastJPEG_append other history).trans hlast, (display p hp).trans hshows⟩

theorem Strayed.change (hk : k.Strayed decoder) (h : ClientChange decoder s k k') : k'.Strayed decoder := by
  have record {e : ClientEvent} (other : e.jpegFrame = none) {k' : Client}
      (history : k'.history = (k.record e).history) (base : k'.base = k.base) (display : k'.display = k.display) :
      k'.Strayed decoder :=
    hk.append (e := ⟨e, _⟩) other history base.subset fun p _ => by rw [display]
  cases h with
  | other same => exact hk.of_eq same.history same.base.subset same.display
  | audioMessage message => exact record (e := .audioMessage message) rfl rfl rfl rfl
  | audioPacket source => exact record (e := .audioPacket source) rfl rfl rfl rfl
  | output event isOpen idle plain capability =>
    exact record (e := event) (by cases event <;> first | rfl | cases plain) rfl rfl rfl
  | serverInit bytes isOpen idle handshake => exact record (e := .serverInit _ _ bytes) rfl rfl rfl rfl
  | request region incremental normal clipped => exact record (e := .request region incremental) rfl rfl rfl rfl
  | continuousUpdates enabled normal => exact record (e := .continuousUpdates enabled) rfl rfl rfl rfl
  | flushed now result h | expired now result h =>
    obtain ⟨wire, pendingJPEG, jpegWritten, rfl⟩ := flushJPEG_eq h
    exact hk.of_eq rfl (Finset.Subset.refl _) rfl
  | closed => exact hk.of_eq rfl (Finset.Subset.refl _) rfl
  | grown forceUpdate => exact hk.of_eq rfl (Finset.Subset.refl _) rfl
  | jpeg frame encoding now sequence needed width height h =>
    obtain ⟨-, rest, rfl⟩ := queueJPEG_eq h
    intro p _
    refine ⟨frame, lastJPEG_jpeg (k := k) (e := ⟨.jpeg frame _, _⟩) rfl rfl, ?_⟩
    rw [JPEGFrame.picture, width, height]
    rfl
  | update frame result sequence needed idle latest decoded h =>
    rcases sendFramebufferUpdate_cases h with ⟨hf, -⟩ | ⟨-, -, bytes, ⟨-, -, rfl⟩ | ⟨-, rfl⟩⟩
    · cases hf
    · exact record (e := .newFBSize _ _ bytes) rfl rfl rfl rfl
    · refine hk.append (e := ⟨.update _ _ _ bytes, _⟩) rfl rfl Finset.sdiff_subset fun p hp => ?_
      -- What has been delivered is no longer in the base.
      exact if_neg (Finset.mem_sdiff.mp hp).2

end Client

namespace Server
variable {s t : Server}

def Strayed (decoder : JPEGDecoder) (s : Server) : Prop := s.clients.Nodup ∧ ∀ c, (s.client c).Strayed decoder

theorem Strayed.change (hs : s.Strayed decoder) (h : Change decoder s t) : t.Strayed decoder := by
  refine ⟨h.nodup hs.1, ?_⟩
  intro c
  have hc := hs.2 c
  cases h.fate c with
  | same h stays => exact h ▸ hc
  | change h present => exact hc.change h
  | shut h stays | marked region h stays =>
    rw [h]
    exact hc.of_eq rfl (Finset.Subset.refl _) rfl
  | connected fd version h =>
    rw [h]
    intro p hp
    cases hp

theorem Strayed.resize (hs : s.Strayed decoder) {width height : UInt16} (h : Resized s t width height) :
    t.Strayed decoder := by
  refine ⟨hs.1.sublist h.clients, ?_⟩
  intro c
  rcases h.client_cases c with ⟨-, -, hclient⟩ | ⟨-, -, hclient⟩ | ⟨-, -, -, -, bytes, hclient⟩
  · rw [hclient]
    exact (hs.2 c).of_eq rfl (Finset.Subset.refl _) rfl
  · rw [hclient]
    exact (hs.2 c).of_eq rfl (Finset.Subset.refl _) rfl
  · rw [hclient]
    exact (hs.2 c).append (e := ⟨.newFBSize width height bytes, _⟩) rfl rfl (Finset.Subset.refl _) fun _ _ => rfl

theorem strayed_start (fps : Nat) (audioAvailable : Bool) (width height : UInt16) (listening : Finset Nat) :
    (start fps audioAvailable width height listening).Strayed decoder :=
  ⟨List.nodup_nil, fun _ _ hp => by cases hp⟩

end Server

/-! ### Before the call -/

namespace Server
variable {s : Server} {k k' : Client}

/-- The tiles that the latest frame changes against `previous_rgb_`, none when it is decoded already. -/
def changedTiles (s : Server) (decoder : JPEGDecoder) : List TileRect :=
  match s.latestFrame with
  | none => []
  | some frame =>
    if s.decodedSequence = s.latestSequence ∧ s.previousRGB ≠ [] then []
    else s.dirtyTiles (decoder.decodeJPEGToRGB565 frame.data s.framebuffer s.width.toNat s.height.toNat).1

/-- The region that an update of the client is for. -/
def asked (s : Server) (k : Client) : Region :=
  if k.data.continuousEnabled then k.requestedRegion ∪ s.screen else k.requestedRegion

/-- The pixel is to be sent to the client: it is marked, or will be because the request is forced or the new frame
    changes its tile. -/
def Marks (s : Server) (decoder : JPEGDecoder) (k : Client) (p : Nat × Nat) : Prop :=
  p ∈ k.modifiedRegion ∨ k.data.forceUpdate = true ∨ ∃ tile ∈ s.changedTiles decoder, p ∈ tile.region

/-- Every pixel asked for that the client still shows of its last JPEG, and where that one differs from
    `previous_rgb_`, is to be sent. -/
def MarksJPEG (s : Server) (decoder : JPEGDecoder) (k : Client) : Prop :=
  ∀ jpeg, k.lastJPEG = some jpeg → ∀ p ∈ s.asked k, k.display p = jpeg.picture decoder p →
    jpeg.picture decoder p ≠ s.previous p → s.Marks decoder k p

theorem asked_subset (h : k.Viewing s) : s.asked k ⊆ s.screen := by
  unfold asked
  split
  · exact Finset.union_subset h.requested (Finset.Subset.refl _)
  · exact h.requested

/-- What an update leaves stale, by the state of the client before the call: `k'` is the client when it is sent, and
    `latest` is the frame, which the decoder has shown to be `previous_rgb_` outside the marked pixels. -/
theorem stale_iff (viewing : k.Viewing s) (strayed : k.Strayed decoder) {latest : Nat × Nat → Option UInt16}
    (requested : k'.requestedRegion = s.asked k) (display : k'.display = k.display)
    (marked : ∀ p ∈ s.screen, p ∈ k'.modifiedRegion ↔ s.Marks decoder k p)
    (unchanged : ∀ p ∈ s.screen, ¬s.Marks decoder k p → s.previousRGB ≠ [] ∧ latest p = s.previous p) :
    (k'.requestedRegion.filter fun p => k'.shown latest p ≠ latest p) = ∅ ↔ s.MarksJPEG decoder k := by
  have hscreen : s.asked k ⊆ s.screen := asked_subset viewing
  have hshown (p : Nat × Nat) (hp : p ∈ s.asked k) (hmarks : ¬s.Marks decoder k p) : k'.shown latest p = k.display p := by
    rw [← display]
    exact if_neg fun hdelivered => hmarks ((marked p (hscreen hp)).mp (Finset.mem_inter.mp hdelivered).1)
  rw [Finset.filter_eq_empty_iff, requested]
  constructor
  · intro hfresh jpeg hlast p hp hshows hdiffers
    by_contra hmarks
    have hlatest := not_not.mp (hfresh hp)
    rw [hshown p hp hmarks, (unchanged p (hscreen hp) hmarks).2, hshows] at hlatest
    exact hdiffers hlatest
  · intro hjpeg p hp
    rw [not_not]
    by_cases hmarks : s.Marks decoder k p
    · have hdelivered : p ∈ k'.modifiedRegion ∩ k'.requestedRegion :=
        Finset.mem_inter.mpr ⟨(marked p (hscreen hp)).mpr hmarks, requested ▸ hp⟩
      exact if_pos hdelivered
    · obtain ⟨hne, hlatest⟩ := unchanged p (hscreen hp) hmarks
      rw [hshown p hp hmarks, hlatest]
      by_contra hstale
      -- Where the client shows something else than `previous_rgb_`, and nothing is marked, it shows its last JPEG.
      have hbase := ((viewing.tracks hne).covered p (hscreen hp) hstale).resolve_left fun hmodified => hmarks (.inl hmodified)
      obtain ⟨jpeg, hlast, hshows⟩ := strayed p hbase
      exact hmarks (hjpeg jpeg hlast p hp hshows (hshows ▸ hstale))

end Server

/-! ### In the call -/

/-- The client with a marked region more, before its turn is over. -/
def Client.faced (k : Client) (region : Region) (loggedEncoding : Bool) : Client :=
  { k with modifiedRegion := k.modifiedRegion ∪ region, data := { k.data with loggedEncoding } }

namespace Server
variable {s : Server} {k k' k'' : Client}

/-- What a call sends to a client. An update is for the region asked for, and shows the latest frame in all of it
    when, before the call, the last JPEG was to be overwritten wherever the client still shows it. -/
inductive Outgoing (decoder : JPEGDecoder) (s : Server) (k k' : Client) : Prop
  | nothing (history : k'.history = k.history)
  | other (last : HistoryEntry) (history : k'.history = k.history ++ [last]) (kind : last.event.isUpdate = false)
  | update (region stale unmarked : Region) (bytes : List UInt8) (pending : Bool)
      (history : k'.history = k.history ++ [⟨.update region stale unmarked bytes, pending⟩])
      (asked : region = s.asked k) (latest : stale = ∅ ↔ s.MarksJPEG decoder k)

theorem Outgoing.congr (h : Outgoing decoder s k k') (history : k''.history = k'.history) : Outgoing decoder s k k'' := by
  cases h with
  | nothing h => exact .nothing (history.trans h)
  | other last h kind => exact .other last (history.trans h) kind
  | update region stale unmarked bytes pending h asked latest =>
    exact .update region stale unmarked bytes pending (history.trans h) asked latest

end Server

namespace FrameLoop
open Server (Outgoing Tracked modify_client_self modify_client_of_ne)
variable {s : Server} {l l' l'' : FrameLoop} {c d : ClientPtr} {env : Server.FrameEnv} {frame : JPEGFrame} {sequence : Nat}
  {region : Region}

/-- The turn of `d` leaves the screen, the decoder state and the other clients as they are. -/
structure Beside (l l' : FrameLoop) (d : ClientPtr) : Prop where
  screen : SameScreen l.server l'.server
  others : ∀ c, c ≠ d → l'.server.client c = l.server.client c
  decoded : l'.decoded = l.decoded

theorem Beside.refl : Beside l l d := ⟨.refl, fun _ _ => rfl, rfl⟩

theorem Beside.trans (h : Beside l l' d) (h' : Beside l' l'' d) : Beside l l'' d :=
  ⟨h.screen.trans h'.screen, fun c hc => (h'.others c hc).trans (h.others c hc), h'.decoded.trans h.decoded⟩

theorem beside_modify (f : Client → Client) (sentJPEG sentFramebuffer : Bool) :
    Beside l { l with server := l.server.modify d f, sentJPEG, sentFramebuffer } d :=
  ⟨Server.sameScreen_modify d f, fun _ hc => modify_client_of_ne hc f, rfl⟩

theorem beside_close : Beside l (l.close c) d := ⟨.refl, fun _ _ => rfl, rfl⟩

theorem beside_serveJPEG : Beside l (l.serveJPEG decoder env frame sequence d) d := by
  rcases serveJPEG_cases l d with h | ⟨k, h⟩
  · rw [h]
    exact beside_close
  · rw [h]
    exact beside_modify (fun _ => k.served sequence) true l.sentFramebuffer

theorem beside_serveFramebuffer : Beside l (l.serveFramebuffer decoder env frame sequence d) d := by
  unfold serveFramebuffer
  dsimp only
  split
  · exact (beside_modify _ l.sentJPEG l.sentFramebuffer).trans beside_close
  · exact beside_modify _ l.sentJPEG l.sentFramebuffer
  · exact beside_modify _ l.sentJPEG true

/-- What a client finds at its turn: it has not changed since before the call, but for the tiles marked when the frame
    was decoded, and outside of them `previous_rgb_` has not changed either. -/
structure Facing (decoder : JPEGDecoder) (s : Server) (l : FrameLoop) (c : ClientPtr) (region : Region) : Prop where
  client : ∃ logged, l.server.client c = (s.client c).faced region logged
  undecoded : l.decoded = false → region = ∅ ∧ l.server.previousRGB = s.previousRGB ∧
    l.server.decodedSequence = s.decodedSequence
  decoded : l.decoded = true → ∀ p ∈ s.screen, (p ∈ region ↔ ∃ tile ∈ s.changedTiles decoder, p ∈ tile.region) ∧
    (p ∉ region → s.previousRGB ≠ [] ∧ l.server.previous p = s.previous p)

theorem facing_start (c : ClientPtr) : Facing decoder s { server := s } c ∅ :=
  ⟨⟨(s.client c).data.loggedEncoding, by simp [Client.faced]⟩, fun _ => ⟨rfl, rfl, rfl⟩, nofun⟩

theorem Facing.history (h : Facing decoder s l c region) : (l.server.client c).history = (s.client c).history := by
  obtain ⟨logged, hclient⟩ := h.client
  rw [hclient]
  rfl

theorem Facing.beside (h : Facing decoder s l c region) (hb : Beside l l' d) (hcd : c ≠ d) :
    Facing decoder s l' c region := by
  refine ⟨?_, ?_, ?_⟩
  · rw [hb.others c hcd]
    exact h.client
  · rw [hb.decoded, hb.screen.previousRGB, hb.screen.decodedSequence]
    exact h.undecoded
  · rw [hb.decoded, hb.screen.previous]
    exact h.decoded

theorem Facing.logged (h : Facing decoder s l c region) : Facing decoder s (l.logged c) c region := by
  obtain ⟨logged, hclient⟩ := h.client
  refine ⟨⟨true, ?_⟩, h.undecoded, h.decoded⟩
  rw [FrameLoop.logged, modify_client_self, hclient]
  rfl

/-- The frame is decoded, or fails to be, at the first turn that needs it. -/
theorem Facing.decode (h : Facing decoder s l c region) (hs : s.Tracked decoder) (hl : Sound decoder s frame l)
    (latest : s.latestFrame = some frame) (hdecoded : l.decoded = false) {server : Server} {ok : Bool}
    (hd : l.server.decodeLatestFrame decoder frame s.latestSequence = (server, ok)) :
    ∃ region', Facing decoder s { l with server, decoded := ok } c region' := by
  have htracked : l.server.Tracked decoder := hl.changes.keep (fun _ _ => Tracked.change) hs
  obtain ⟨hwidth, hheight⟩ := hl.changes.size
  obtain ⟨logged, hclient⟩ := h.client
  obtain ⟨rfl, hprevious, hsequence⟩ := h.undecoded hdecoded
  have hshows : l.server.previous = s.previous := by rw [Server.previous, Server.previous, hprevious, hwidth]
  rcases Server.decodeLatestFrame_cases htracked.decoded htracked.sized.screen frame s.latestSequence with
    ⟨hcached, heq⟩ | ⟨-, framebuffer, -, heq⟩ | ⟨hfresh, decoded, region, hdecode, heq, hregion⟩
  · cases heq.symm.trans hd
    rw [hsequence, hprevious] at hcached
    have hnone : s.changedTiles decoder = [] := by
      rw [Server.changedTiles, latest]
      exact if_pos hcached
    exact ⟨∅, ⟨logged, hclient⟩, by rintro ⟨⟩,
      fun _ p _ => ⟨by simp [hnone], fun _ => ⟨hcached.2, by rw [hshows]⟩⟩⟩
  · cases heq.symm.trans hd
    exact ⟨∅, ⟨logged, hclient⟩, fun _ => ⟨rfl, hprevious, hsequence⟩, by rintro ⟨⟩⟩
  · cases heq.symm.trans hd
    have hscreen : l.server.screen = s.screen := by rw [Server.screen, Server.screen, hwidth, hheight]
    have htiles : s.changedTiles decoder = l.server.dirtyTiles decoded := by
      have hagain := (JPEGDecoder.decodeJPEGToRGB565_eq htracked.decoded.framebuffer hdecode).2 s.framebuffer
        (by rw [hs.decoded.framebuffer, hwidth, hheight])
      rw [hsequence, hprevious] at hfresh
      rw [Server.changedTiles, latest]
      dsimp only
      rw [if_neg hfresh, ← hwidth, ← hheight, hagain, Server.dirtyTiles, Server.dirtyTiles, hprevious, hwidth, hheight]
    refine ⟨region, ⟨logged, ?_⟩, by rintro ⟨⟩, fun _ p hp => ⟨?_, fun hout => ?_⟩⟩
    · show { l.server.client c with modifiedRegion := (l.server.client c).modifiedRegion ∪ region } = _
      rw [hclient]
      simp [Client.faced]
    · rw [hregion p, hscreen, htiles]
      exact ⟨And.right, fun hmem => ⟨hp, hmem⟩⟩
    · -- A pixel that differs would be in a dirty tile.
      by_contra hchanged
      refine hout ((hregion p).mpr ⟨hscreen ▸ hp, Server.dirtyTiles_covers (hscreen ▸ hp) fun hne hsame => hchanged ?_⟩)
      refine ⟨hprevious ▸ hne, ?_⟩
      rw [← hshows, hsame]
      rfl

/-! ### A turn -/

/-- The pixels to be sent are marked when the update is put together. -/
theorem Facing.mem_growRegions (h : Facing decoder s l c region) (hdecoded : l.decoded = true) {p : Nat × Nat}
    (hp : p ∈ s.screen) (size : l.server.width = s.width ∧ l.server.height = s.height) :
    p ∈ ((l.server.client c).growRegions l.server.width l.server.height (l.server.client c).data.forceUpdate).modifiedRegion ↔
      s.Marks decoder (s.client c) p := by
  obtain ⟨logged, hclient⟩ := h.client
  have hregion := (h.decoded hdecoded p hp).1
  have hscreen : p ∈ rectRegion 0 0 l.server.width.toNat l.server.height.toNat := by
    rw [size.1, size.2]
    exact hp
  rw [hclient, Server.Marks, ← hregion]
  unfold Client.growRegions Client.faced
  dsimp only
  cases (s.client c).data.forceUpdate with
  | true => simp [hscreen]
  | false => simp

theorem Facing.requestedRegion (h : Facing decoder s l c region) (size : l.server.width = s.width ∧ l.server.height = s.height)
    (forceUpdate : Bool) : ((l.server.client c).growRegions l.server.width l.server.height forceUpdate).requestedRegion =
      s.asked (s.client c) := by
  obtain ⟨logged, hclient⟩ := h.client
  rw [hclient, size.1, size.2]
  rfl

theorem Facing.serveFramebuffer (h : Facing decoder s l c region) (hs : s.Tracked decoder) (hl : Sound decoder s frame l)
    (strayed : (s.client c).Strayed decoder) (present : c ∈ s.clients) (hdecoded : l.decoded = true) :
    Outgoing decoder s (s.client c) ((l.serveFramebuffer decoder env frame sequence c).server.client c) := by
  have hsize := hl.changes.size
  have hrequested := h.requestedRegion hsize (l.server.client c).data.forceUpdate
  have hmarked (p : Nat × Nat) (hp : p ∈ s.screen) := h.mem_growRegions hdecoded hp hsize
  have hunchanged (p : Nat × Nat) (hp : p ∈ s.screen) (hout : ¬s.Marks decoder (s.client c) p) :
      s.previousRGB ≠ [] ∧ l.server.previous p = s.previous p :=
    (h.decoded hdecoded p hp).2 fun hmem => hout (.inr (.inr ((h.decoded hdecoded p hp).1.mp hmem)))
  obtain ⟨logged, hclient⟩ := h.client
  have hhistory : ((l.server.client c).growRegions l.server.width l.server.height
      (l.server.client c).data.forceUpdate).history = (s.client c).history := by
    rw [hclient]
    rfl
  have hdisplay : ((l.server.client c).growRegions l.server.width l.server.height
      (l.server.client c).data.forceUpdate).display = (s.client c).display := by
    rw [hclient]
    rfl
  unfold FrameLoop.serveFramebuffer Client.sendFramebuffer
  dsimp only
  generalize (l.server.client c).growRegions l.server.width l.server.height
    (l.server.client c).data.forceUpdate = k at hrequested hmarked hhistory hdisplay
  by_cases hempty : k.modifiedRegion ∩ k.requestedRegion = ∅
  · rw [if_pos hempty]
    refine .nothing ?_
    rw [modify_client_self]
    exact hhistory
  · rw [if_neg hempty]
    cases hsend : k.sendFramebufferUpdate l.server.width l.server.height l.server.pixels
        (Server.image decoder frame l.server.width l.server.height) (env.update c) with
    | mk k' ok =>
      rcases Client.sendFramebufferUpdate_cases hsend with ⟨rfl, rfl⟩ | ⟨rfl, -, bytes, ⟨-, -, rfl⟩ | ⟨-, rfl⟩⟩
      · refine .nothing ?_
        show ((l.server.modify c fun _ => k').client c).history = _
        rw [modify_client_self]
        exact hhistory
      · refine .other ⟨.newFBSize l.server.width l.server.height bytes, k.data.pendingJPEG.isSome⟩ ?_ rfl
        show ((l.server.modify c fun _ => (k.toldSize l.server.width l.server.height bytes).served sequence).client c).history = _
        rw [modify_client_self, ← hhistory]
        rfl
      · have htracked : l.server.Tracked decoder := hl.changes.keep (fun _ _ => Tracked.change) hs
        obtain ⟨hpixels, himage⟩ := Client.pixels_eq htracked.decoded hl.latest (hl.decoded hdecoded)
        rw [hpixels, himage]
        refine .update k.requestedRegion _ ((k.base ∩ k.requestedRegion) \ k.modifiedRegion) bytes
          k.data.pendingJPEG.isSome ?_ hrequested
          (Server.stale_iff (hs.viewing c present) strayed hrequested hdisplay hmarked hunchanged)
        show ((l.server.modify c fun _ =>
          (k.updated l.server.previous l.server.previous bytes).served sequence).client c).history = _
        rw [modify_client_self, ← hhistory]
        rfl

theorem Facing.serveJPEG (h : Facing decoder s l c region) :
    Outgoing decoder s (s.client c) ((l.serveJPEG decoder env frame sequence c).server.client c) := by
  unfold FrameLoop.serveJPEG
  dsimp only
  cases hsend : (if (l.server.client c).wantsNativeJPEG then
      (l.server.client c).sendNativeJPEG frame (env.queued c)
        (Server.image decoder frame l.server.width l.server.height) l.server.previous
    else (l.server.client c).sendJPEG frame (env.queued c)
      (Server.image decoder frame l.server.width l.server.height) l.server.previous) with
  | mk k ok =>
    cases ok with
    | false => exact .nothing h.history
    | true =>
      obtain ⟨encoding, hqueue⟩ := sendJPEG_eq hsend
      obtain ⟨-, rest, rfl⟩ := Client.queueJPEG_eq hqueue
      refine .other ⟨.jpeg frame (updateHeader frame.width frame.height encoding ++ rest),
        (l.server.client c).data.pendingJPEG.isSome⟩ ?_ rfl
      rw [if_pos rfl]
      dsimp only
      rw [modify_client_self, ← h.history]
      rfl

theorem Facing.serveFallback (h : Facing decoder s l c region) (hs : s.Tracked decoder) (hl : Sound decoder s frame l)
    (latest : s.latestFrame = some frame) (strayed : (s.client c).Strayed decoder) (present : c ∈ s.clients) :
    Outgoing decoder s (s.client c) ((l.serveFallback decoder env frame s.latestSequence c).server.client c) := by
  unfold FrameLoop.serveFallback
  cases hdecoded : l.decoded with
  | true => exact h.serveFramebuffer hs hl strayed present hdecoded
  | false =>
    cases hd : l.server.decodeLatestFrame decoder frame s.latestSequence with
    | mk server ok =>
      obtain ⟨region', hfacing⟩ := h.decode hs hl latest hdecoded hd
      have hsound := hl.decode (hl.sequence ▸ hd)
      cases ok with
      | false => exact .nothing hfacing.history
      | true => exact hfacing.serveFramebuffer hs hsound strayed present rfl

theorem Sound.logged (h : Sound decoder s frame l) (present : c ∈ s.clients) : Sound decoder s frame (l.logged c) := by
  have hsame : SameCore (l.server.client c)
      { l.server.client c with data := { (l.server.client c).data with loggedEncoding := true } } :=
    Client.sameCore_data rfl rfl rfl rfl rfl .inl
  exact h.modify present (.single (.other hsame)) l.sentJPEG l.sentFramebuffer l.closing

/-- What the turn of a client sends to it. -/
theorem Facing.turn (h : Facing decoder s l c region) (hs : s.Tracked decoder) (hl : Sound decoder s frame l)
    (latest : s.latestFrame = some frame) (strayed : (s.client c).Strayed decoder) (present : c ∈ s.clients) :
    Outgoing decoder s (s.client c) ((l.client decoder env frame s.latestSequence c).server.client c) := by
  by_cases hserved : Server.waiting (l.server.client c) s.latestSequence = true ∧
      l.server.paced (l.server.client c) env.now = false
  · rw [client_served hserved.1 hserved.2]
    split
    · exact h.logged.serveJPEG
    · exact h.logged.serveFallback hs (hl.logged present) latest strayed present
  · rw [not_and_or, Bool.not_eq_true, Bool.not_eq_false] at hserved
    have hskipped : l.client decoder env frame s.latestSequence c = l ∨
        l.client decoder env frame s.latestSequence c = l.logged c := client_skipped hserved
    rcases hskipped with heq | heq
    · rw [heq]
      exact .nothing h.history
    · rw [heq]
      exact .nothing h.logged.history

/-- The turn of another client. -/
theorem Facing.aside (h : Facing decoder s l c region) (hs : s.Tracked decoder) (hl : Sound decoder s frame l)
    (latest : s.latestFrame = some frame) (present : d ∈ s.clients) (hcd : c ≠ d) :
    ∃ region', Facing decoder s (l.client decoder env frame s.latestSequence d) c region' := by
  have hlogged : Beside l (l.logged d) d := beside_modify _ l.sentJPEG l.sentFramebuffer
  by_cases hserved : Server.waiting (l.server.client d) s.latestSequence = true ∧
      l.server.paced (l.server.client d) env.now = false
  · rw [client_served hserved.1 hserved.2]
    split
    · exact ⟨region, h.beside (hlogged.trans beside_serveJPEG) hcd⟩
    · unfold FrameLoop.serveFallback
      cases hdecoded : (l.logged d).decoded with
      | true => exact ⟨region, h.beside (hlogged.trans beside_serveFramebuffer) hcd⟩
      | false =>
        cases hd : (l.logged d).server.decodeLatestFrame decoder frame s.latestSequence with
        | mk server ok =>
          obtain ⟨region', hfacing⟩ := (h.beside hlogged hcd).decode hs (hl.logged present) latest hdecoded hd
          cases ok with
          | false => exact ⟨region', hfacing.beside beside_close hcd⟩
          | true => exact ⟨region', hfacing.beside beside_serveFramebuffer hcd⟩
  · rw [not_and_or, Bool.not_eq_true, Bool.not_eq_false] at hserved
    have hskipped : l.client decoder env frame s.latestSequence d = l ∨
        l.client decoder env frame s.latestSequence d = l.logged d := client_skipped hserved
    rcases hskipped with heq | heq
    · rw [heq]
      exact ⟨region, h⟩
    · rw [heq]
      exact ⟨region, h.beside hlogged hcd⟩

/-- What the loop sends to a client. -/
theorem Facing.clients (h : Facing decoder s l c region) (hs : s.Tracked decoder) (hl : Sound decoder s frame l)
    (latest : s.latestFrame = some frame) (strayed : (s.client c).Strayed decoder) (present : c ∈ s.clients)
    {list : List ClientPtr} (nodup : list.Nodup) (subset : list ⊆ s.clients) :
    Outgoing decoder s (s.client c) ((l.clients decoder env frame s.latestSequence list).server.client c) := by
  induction list generalizing l region with
  | nil => exact .nothing h.history
  | cons d rest ih =>
    obtain ⟨hnew, hrest⟩ := List.nodup_cons.mp nodup
    obtain ⟨hd, hsubset⟩ := List.cons_subset.mp subset
    show Outgoing decoder s (s.client c)
      (((l.client decoder env frame s.latestSequence d).clients decoder env frame s.latestSequence rest).server.client c)
    by_cases hcd : c = d
    · subst hcd
      have haside : Aside (l.client decoder env frame s.latestSequence c)
          ((l.client decoder env frame s.latestSequence c).clients decoder env frame s.latestSequence rest) c :=
        clients_aside hnew
      obtain ⟨marked, hclient⟩ := haside.client
      have hturn : Outgoing decoder s (s.client c) ((l.client decoder env frame s.latestSequence c).server.client c) :=
        h.turn hs hl latest strayed present
      refine hturn.congr ?_
      rw [hclient]
    · obtain ⟨region', hfacing⟩ :
          ∃ region', Facing decoder s (l.client decoder env frame s.latestSequence d) c region' :=
        h.aside hs hl latest hd hcd
      exact ih hfacing (hl.client hd) hrest hsubset

end FrameLoop

namespace Server
variable {s t : Server} {c : ClientPtr}

/-- What a call of `ProcessFrame` sends to a client. -/
theorem processFrame_outgoing {env : FrameEnv} (hs : s.Tracked decoder) (strayed : (s.client c).Strayed decoder)
    (h : s.processFrame decoder env = some t) : Outgoing decoder s (s.client c) (t.client c) := by
  rcases processFrame_cases h with ⟨frame, hcurrent, rfl⟩ | ⟨-, rfl | hresizes⟩
  · have hflags := (finishFrame_client env (s.frameLoop decoder env frame) c).1
    refine Outgoing.congr ?_ hflags.history
    by_cases hc : c ∈ s.clients
    · exact (FrameLoop.facing_start c).clients hs hcurrent.sound hcurrent.latest strayed hc hs.sized.nodup
        (List.Subset.refl _)
    · have haside : FrameLoop.Aside { server := s } (s.frameLoop decoder env frame) c := FrameLoop.clients_aside hc
      obtain ⟨region, hclient⟩ := haside.client
      exact .nothing ((congrArg Client.history hclient).trans rfl)
  · exact .nothing rfl
  · obtain ⟨width, height, hresized⟩ := hresizes.resized hs.sized.nodup
    rcases hresized.client_cases c with ⟨-, -, hclient⟩ | ⟨-, -, hclient⟩ | ⟨-, -, -, -, bytes, hclient⟩
    · exact .nothing (by rw [hclient]; rfl)
    · exact .nothing (by rw [hclient]; rfl)
    · exact .other ⟨.newFBSize width height bytes, (s.client c).data.pendingJPEG.isSome⟩ (by rw [hclient]; rfl) rfl

/-! ### Runs -/

theorem strayed_of_run {fps : Nat} {audioAvailable : Bool} {width height : UInt16} {listening : Finset Nat}
    {actions : List ServerAction}
    (h : Transition.run (step decoder) (start fps audioAvailable width height listening) actions = some t) :
    t.Strayed decoder :=
  run_invariant (strayed_start fps audioAvailable width height listening) (fun _ => And.left) (fun _ _ => Strayed.change)
    (fun _ _ _ _ hs => hs.resize) h

/-- A call of `ProcessFrame` in a run sends the client an update, after all that it was sent before. -/
structure SendsUpdate (decoder : JPEGDecoder) (start : Server) (actions : List ServerAction) (c : ClientPtr)
    (past : List HistoryEntry) (entry : HistoryEntry) (s : Server) : Prop where
  call : ∃ before env after, actions = before ++ .processFrame env :: after ∧
    Transition.run (step decoder) start before = some s ∧
      ∃ t, s.processFrame decoder env = some t ∧ (t.client c).history = past ++ [entry]
  history : (s.client c).history = past

theorem SendsUpdate.mono {start : Server} {actions : List ServerAction} {past : List HistoryEntry} {entry : HistoryEntry}
    (h : SendsUpdate decoder start actions c past entry s) (more : List ServerAction) :
    SendsUpdate decoder start (actions ++ more) c past entry s := by
  obtain ⟨before, env, after, rfl, hrun, hsent⟩ := h.call
  exact ⟨⟨before, env, after ++ more, by simp, hrun, hsent⟩, h.history⟩

/-- The update is sent by a call, for the region asked for, and the state before it settles whether the update shows
    the latest frame there. -/
def Settled (decoder : JPEGDecoder) (start : Server) (actions : List ServerAction) (c : ClientPtr)
    (past : List HistoryEntry) (entry : HistoryEntry) : Prop :=
  ∃ s, SendsUpdate decoder start actions c past entry s ∧ ∃ region stale unmarked bytes,
    entry.event = .update region stale unmarked bytes ∧ region = s.asked (s.client c) ∧
      (stale = ∅ ↔ s.MarksJPEG decoder (s.client c))

theorem updates_settled {fps : Nat} {audioAvailable : Bool} {width height : UInt16} {listening : Finset Nat}
    {actions : List ServerAction}
    (h : Transition.run (step decoder) (start fps audioAvailable width height listening) actions = some t) (c : ClientPtr) :
    ∀ past entry future, (t.client c).history = past ++ entry :: future → entry.event.isUpdate = true →
      Settled decoder (start fps audioAvailable width height listening) actions c past entry := by
  refine Transition.run_history (P := fun actions t => ∀ past entry future, (t.client c).history = past ++ entry :: future →
    entry.event.isUpdate = true →
      Settled decoder (start fps audioAvailable width height listening) actions c past entry) ?_ ?_ h
  · intro past entry future hsplit
    exact absurd hsplit.symm (List.append_ne_nil_of_right_ne_nil _ (List.cons_ne_nil _ _))
  · intro before s action t hrun ih hstep past entry future hsplit hupdate
    have keep (hbefore : ∃ rest, (s.client c).history = past ++ entry :: rest) :
        Settled decoder (start fps audioAvailable width height listening) (before ++ [action]) c past entry := by
      obtain ⟨rest, hrest⟩ := hbefore
      obtain ⟨u, hsends, hsettled⟩ := ih past entry rest hrest hupdate
      exact ⟨u, hsends.mono [action], hsettled⟩
    by_cases hcall : ∃ env, action = .processFrame env
    · obtain ⟨env, rfl⟩ := hcall
      have hframe : s.processFrame decoder env = some t := hstep
      have hout : Outgoing decoder s (s.client c) (t.client c) :=
        processFrame_outgoing (tracked_of_run hrun) ((strayed_of_run hrun).2 c) hframe
      cases hout with
      | nothing history => exact keep ⟨future, history.symm.trans hsplit⟩
      | other last history kind => exact keep (Client.noUpdate_append kind history past entry future hsplit hupdate)
      | update region stale unmarked bytes pending history asked latest =>
        rcases Transition.split_concat (history.symm.trans hsplit) with hbefore | ⟨hpast, rfl⟩
        · exact keep hbefore
        · refine ⟨s, ⟨⟨before, env, [], rfl, hrun, t, hframe, ?_⟩, hpast⟩, region, stale, unmarked, bytes, rfl, asked, latest⟩
          rw [history, hpast]
    · have hsilent : Silent s t :=
        step_silent_of_other (run_nodup List.nodup_nil hrun) hstep fun env he => hcall ⟨env, he⟩
      exact keep (hsilent c past entry future hsplit hupdate)

/-- A call of `ProcessFrame` meets the client with its last JPEG to be sent over. -/
def OverwritesJPEG (decoder : JPEGDecoder) (c : ClientPtr) (s : Server) : ServerAction → Prop
  | .processFrame _ => s.MarksJPEG decoder (s.client c)
  | _ => True

instance (k : Client) (p : Nat × Nat) : Decidable (s.Marks decoder k p) := inferInstanceAs (Decidable (_ ∨ _ ∨ _))

instance (k : Client) : Decidable (s.MarksJPEG decoder k) :=
  decidable_of_iff (∀ jpeg ∈ k.lastJPEG, ∀ p ∈ s.asked k, k.display p = jpeg.picture decoder p →
    jpeg.picture decoder p ≠ s.previous p → s.Marks decoder k p) Iff.rfl

instance (s : Server) (c : ClientPtr) : (action : ServerAction) → Decidable (OverwritesJPEG decoder c s action)
  | .processFrame _ => inferInstanceAs (Decidable (s.MarksJPEG decoder (s.client c)))
  | .setFrame _ | .queueAudio _ | .pollClientEvents _ | .syncSubscription | .syncAudioSubscription | .processAudio _ =>
    .isTrue trivial

end Server

/-- An update shows the latest frame in the whole region asked for exactly when, before the call of `ProcessFrame` that
    sends it, every pixel there that the viewer still shows of its last JPEG, and where that one differs from
    `previous_rgb_`, is marked, or forced, or in a tile that the new frame changes. So in a run whose calls all meet that
    condition, every update of the viewer does. -/
theorem update_shows_latest_iff {fps : Nat} {audioAvailable : Bool} {width height : UInt16} {listening : Finset Nat}
    {actions : List ServerAction} {t : Server}
    (h : Transition.run (Server.step decoder) (Server.start fps audioAvailable width height listening) actions = some t)
    (c : ClientPtr) :
    (∀ past entry future region stale unmarked bytes, (t.client c).history = past ++ entry :: future →
      entry.event = .update region stale unmarked bytes → ∃ s,
        Server.SendsUpdate decoder (Server.start fps audioAvailable width height listening) actions c past entry s ∧
          region = s.asked (s.client c) ∧ (stale = ∅ ↔ s.MarksJPEG decoder (s.client c))) ∧
    (Transition.Allowed (Server.step decoder) (Server.OverwritesJPEG decoder c)
        (Server.start fps audioAvailable width height listening) actions →
      ∀ entry ∈ (t.client c).history, ∀ region stale unmarked bytes,
        entry.event = .update region stale unmarked bytes → stale = ∅) := by
  have hsettled (past : List HistoryEntry) (entry : HistoryEntry) (future : List HistoryEntry) (region stale unmarked : Region)
      (bytes : List UInt8) (hsplit : (t.client c).history = past ++ entry :: future)
      (he : entry.event = .update region stale unmarked bytes) : ∃ s,
        Server.SendsUpdate decoder (Server.start fps audioAvailable width height listening) actions c past entry s ∧
          region = s.asked (s.client c) ∧ (stale = ∅ ↔ s.MarksJPEG decoder (s.client c)) := by
    obtain ⟨s, hsends, region', stale', unmarked', bytes', he', hasked, hlatest⟩ :=
      Server.updates_settled h c past entry future hsplit (by rw [he]; rfl)
    cases he.symm.trans he'
    exact ⟨s, hsends, hasked, hlatest⟩
  refine ⟨hsettled, fun allowed entry hentry region stale unmarked bytes he => ?_⟩
  obtain ⟨past, future, hsplit⟩ := List.append_of_mem hentry
  obtain ⟨s, hsends, -, hlatest⟩ := hsettled past entry future region stale unmarked bytes hsplit he
  obtain ⟨before, env, after, hactions, hrun, -⟩ := hsends.call
  exact hlatest.mpr (allowed before (.processFrame env) after s hactions hrun)

/-- A client is sent a black frame as a fallback viewer, one as a JPEG, and as a fallback viewer again the one
    with its last pixel white. -/
def switchEncodings (jpeg : Nat) : List ServerAction :=
  [.pollClientEvents
    { now := 1, sendmsg := fun _ => .again, events :=
      [.accept 0 5 [82], .message 0 (.clientInit []), .message 0 (.updateRequest 0 0 65 1 false)] },
    .setFrame (grayFrame 65),
    .processFrame { now := 1000000000, update := fun _ => some [0], sendmsg := fun _ => .again },
    .pollClientEvents
      { now := 1000000001, sendmsg := fun _ => .again, events :=
        [.message 0 (.setEncodings { tightQuality := 5 }), .message 0 (.updateRequest 0 0 65 1 true)] },
    .setFrame (grayFrame jpeg),
    .processFrame { now := 2000000000, update := fun _ => none, sendmsg := fun _ => .sent 1000 },
    .pollClientEvents
      { now := 2000000001, sendmsg := fun _ => .again, events :=
        [.message 0 (.setEncodings {}), .message 0 (.updateRequest 0 0 65 1 true)] },
    .setFrame (grayFrame 64),
    .processFrame { now := 3000000000, update := fun _ => some [0], sendmsg := fun _ => .again }]

/-- The JPEG differs from the frame decoded last in the pixel that the new frame changes. -/
theorem update_shows_latest_iff_tile : ∃ t,
    Transition.run (Server.step .grayRow) (Server.start 30 false 65 1 ∅) (switchEncodings 64) = some t ∧
      (t.client 0).display (64, 0) = some 65535 ∧
      ∀ entry ∈ (t.client 0).history, ∀ region stale unmarked bytes,
        entry.event = .update region stale unmarked bytes → stale = ∅ := by
  have hrun : ((Transition.run (Server.step .grayRow) (Server.start 30 false 65 1 ∅) (switchEncodings 64)).map
      fun t => (t.client 0).display (64, 0)) = some (some 65535) := by decide +kernel
  obtain ⟨t, h, hshown⟩ := Option.map_eq_some_iff.mp hrun
  exact ⟨t, h, hshown, (update_shows_latest_iff h 0).2 (by decide +kernel)⟩

/-- Some update of the history is as given. -/
def anyUpdate (history : List HistoryEntry) (holds : Region → Region → Bool) : Bool :=
  history.any fun entry =>
    match entry.event with
    | .update _ stale unmarked _ => holds stale unmarked
    | _ => false

theorem anyUpdate_eq_true {history : List HistoryEntry} {holds : Region → Region → Bool}
    (h : anyUpdate history holds = true) : ∃ entry ∈ history, ∃ region stale unmarked bytes,
      entry.event = .update region stale unmarked bytes ∧ holds stale unmarked = true := by
  obtain ⟨entry, hentry, h⟩ := List.any_eq_true.mp h
  split at h
  · rename_i region stale unmarked bytes he
    exact ⟨entry, hentry, region, stale, unmarked, bytes, he, h⟩
  · cases h

/-- After a JPEG with its first pixel white, the fallback viewer still shows that pixel. -/
theorem update_leaves_jpeg : ∃ t,
    Transition.run (Server.step .grayRow) (Server.start 30 false 65 1 ∅) (switchEncodings 0) = some t ∧
      ∃ entry ∈ (t.client 0).history, ∃ region stale unmarked bytes,
        entry.event = .update region stale unmarked bytes ∧ stale ≠ ∅ := by
  have hrun : ((Transition.run (Server.step .grayRow) (Server.start 30 false 65 1 ∅) (switchEncodings 0)).map
      fun t => anyUpdate (t.client 0).history fun stale _ => stale ≠ ∅) = some true := by decide +kernel
  obtain ⟨t, h, hany⟩ := Option.map_eq_some_iff.mp hrun
  obtain ⟨entry, hentry, region, stale, unmarked, bytes, he, hstale⟩ := anyUpdate_eq_true hany
  rw [decide_eq_true_eq] at hstale
  exact ⟨t, h, entry, hentry, region, stale, unmarked, bytes, he, hstale⟩

end OnekvmVnc
