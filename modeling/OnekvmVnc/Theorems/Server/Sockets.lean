import OnekvmVnc.Theorems.Server.AudioBacklog
import OnekvmVnc.Theorems.Server.Resize

/-! `PollClientEvents` and the descriptors of the clients. A client with a JPEG to be written is away from the
    descriptors that `rfbCheckFds` reads, and is put back afterwards. -/

namespace OnekvmVnc

open Relation Transition

variable {decoder : JPEGDecoder}

namespace Server
variable {s t : Server} {away : List (ClientPtr × Nat)}

theorem le_lowerMaxFd {fds : Finset Nat} {fd n : Nat} (hmem : fd ∈ fds) (hle : fd ≤ n) : fd ≤ lowerMaxFd fds n := by
  induction n with
  | zero => exact hle
  | succ n ih =>
    rw [lowerMaxFd]
    split
    · exact hle
    · rename_i hunset
      have hne : fd ≠ n + 1 := fun heq => hunset (heq ▸ hmem)
      exact ih (by omega)

/-- Every open socket of a client belongs to that client alone, and is read unless it is away. -/
structure Watched (s : Server) (away : List (ClientPtr × Nat)) : Prop where
  nodup : s.clients.Nodup
  gone : ∀ c, c ∉ s.clients → (s.client c).sock = none
  own : ∀ c d fd, (s.client c).sock = some fd → (s.client d).sock = some fd → c = d
  read : ∀ c fd, (s.client c).sock = some fd → (c, fd) ∉ away → fd ∈ s.allFds ∧ fd ≤ s.maxFd

/-- The two servers agree on the clients and on their descriptors. -/
structure SameSockets (s t : Server) : Prop where
  clients : t.clients = s.clients
  sock : ∀ c, (t.client c).sock = (s.client c).sock
  allFds : t.allFds = s.allFds
  maxFd : t.maxFd = s.maxFd

theorem SameSockets.refl : SameSockets s s := ⟨rfl, fun _ => rfl, rfl, rfl⟩

theorem SameSockets.trans {u : Server} (h : SameSockets s t) (h' : SameSockets t u) : SameSockets s u :=
  ⟨h'.clients.trans h.clients, fun c => (h'.sock c).trans (h.sock c), h'.allFds.trans h.allFds, h'.maxFd.trans h.maxFd⟩

theorem SameSockets.modify {c : ClientPtr} {k : Client} (h : k.sock = (s.client c).sock) :
    SameSockets s (s.modify c fun _ => k) where
  clients := rfl
  sock d := by
    by_cases hd : d = c
    · rw [hd, modify_client_self, h]
    · rw [modify_client_of_ne hd]
  allFds := rfl
  maxFd := rfl

namespace Watched

theorem of_same (h : s.Watched away) (same : SameSockets s t) : t.Watched away where
  nodup := by
    rw [same.clients]
    exact h.nodup
  gone c hc := by
    rw [same.clients] at hc
    rw [same.sock]
    exact h.gone c hc
  own c d fd hfd hfd' := by
    rw [same.sock] at hfd hfd'
    exact h.own c d fd hfd hfd'
  read c fd hfd haway := by
    rw [same.sock] at hfd
    rw [same.allFds, same.maxFd]
    exact h.read c fd hfd haway

/-- A client keeps its socket or loses it. -/
theorem modify (h : s.Watched away) {c : ClientPtr} {k : Client} (hk : k.sock = (s.client c).sock ∨ k.sock = none) :
    (s.modify c fun _ => k).Watched away := by
  have hsock (d : ClientPtr) (fd : Nat) (hfd : ((s.modify c fun _ => k).client d).sock = some fd) :
      (s.client d).sock = some fd := by
    by_cases hd : d = c
    · subst hd
      rw [modify_client_self] at hfd
      rcases hk with hk | hk
      · rw [← hk, hfd]
      · rw [hk] at hfd
        cases hfd
    · rwa [modify_client_of_ne hd] at hfd
  refine ⟨h.nodup, fun d hd => ?_, fun d e fd hfd hfd' => ?_, fun d fd hfd haway => ?_⟩
  · cases hfd : ((s.modify c fun _ => k).client d).sock with
    | none => rfl
    | some fd =>
      have := h.gone d hd
      rw [hsock d fd hfd] at this
      cases this
  · exact h.own d e fd (hsock d fd hfd) (hsock e fd hfd')
  · exact h.read d fd (hsock d fd hfd) haway

/-- The socket of the client is no other client's, so that the others stay read when it is cleared. -/
theorem close (h : s.Watched away) (c : ClientPtr) : (s.rfbCloseClient c).Watched away := by
  unfold rfbCloseClient
  cases hc : (s.client c).sock with
  | none => exact h
  | some fd =>
    have hclosed : (s.modify c fun _ => { s.client c with sock := none }).Watched away := h.modify (.inr rfl)
    refine ⟨hclosed.nodup, hclosed.gone, hclosed.own, fun d g hg haway => ?_⟩
    obtain ⟨hmem, hle⟩ := hclosed.read d g hg haway
    have hne : g ≠ fd := by
      rintro rfl
      by_cases hd : d = c
      · subst hd
        change ((s.modify d fun _ => _).client d).sock = _ at hg
        rw [modify_client_self] at hg
        cases hg
      · change ((s.modify c fun _ => _).client d).sock = _ at hg
        rw [modify_client_of_ne hd] at hg
        exact hd (h.own d c g hg hc)
    have herase : g ∈ s.allFds.erase fd := Finset.mem_erase.mpr ⟨hne, hmem⟩
    refine ⟨herase, ?_⟩
    dsimp only
    split
    · exact le_lowerMaxFd herase hle
    · exact hle

theorem drop (h : s.Watched away) {c : ClientPtr} (hc : (s.client c).sock = none) :
    (s.rfbClientConnectionGone c).Watched away := by
  refine ⟨h.nodup.erase c, fun d hd => ?_, h.own, h.read⟩
  by_cases hdc : d = c
  · exact hdc ▸ hc
  · exact h.gone d fun hmem => hd ((List.mem_erase_of_ne hdc).mpr hmem)

theorem closeClients (h : s.Watched away) (closing : List ClientPtr) : (s.closeClients closing).Watched away :=
  List.foldlRecOn (motive := (Watched · away)) closing _ h
    fun _ hs c _ => (hs.close c).drop (by rw [rfbCloseClient_client_self])

theorem reapClosed (h : s.Watched away) (list : List ClientPtr) : (reapClosed s list).Watched away := by
  induction list generalizing s with
  | nil => exact h
  | cons c rest ih =>
    rw [Server.reapClosed]
    split
    · exact ih (h.drop ‹_›)
    · exact ih h

theorem flushJPEGWrites (h : s.Watched away) (now : Int) (sendmsg : ClientPtr → SendResult) (list : List ClientPtr) :
    (flushJPEGWrites now sendmsg s list).Watched away := by
  induction list generalizing s with
  | nil => exact h
  | cons c rest ih =>
    rw [Server.flushJPEGWrites]
    cases hflush : (s.client c).flushJPEG now (sendmsg c) with
    | mk k close =>
      obtain ⟨wire, pendingJPEG, jpegWritten, rfl⟩ := Client.flushJPEG_eq hflush
      have hmodified := h.modify (c := c)
        (k := { s.client c with wire, data := { (s.client c).data with pendingJPEG, jpegWritten } }) (.inl rfl)
      cases close with
      | false => exact ih hmodified
      | true => exact ih (hmodified.close c)

end Watched

/-! ### Audio and frames -/

theorem Watched.processAudioLoop (h : s.Watched away) (queued : List (List Int16)) (ok : ClientPtr → Nat → Bool)
    (list : List ClientPtr) : (processAudioLoop queued ok s list).1.Watched away := by
  induction list generalizing s with
  | nil => exact h
  | cons c rest ih => exact ih (h.modify (.inl (Client.processAudio_sock _ _ _ _)))

theorem Watched.processAudio (h : s.Watched away) (ok : ClientPtr → Nat → Bool) : (s.processAudio ok).Watched away :=
  ((h.of_same (t := { s with audioQueue := [] }) ⟨rfl, fun _ => rfl, rfl, rfl⟩).processAudioLoop s.audioQueue ok
    s.clients).closeClients _

theorem sendFramebufferUpdate_sock {k k' : Client} {width height : UInt16} {pixels latest : Nat × Nat → Option UInt16}
    {result : Option (List UInt8)} {ok : Bool}
    (h : k.sendFramebufferUpdate width height pixels latest result = (k', ok)) : k'.sock = k.sock := by
  rcases Client.sendFramebufferUpdate_cases h with ⟨-, rfl⟩ | ⟨-, -, bytes, ⟨-, -, rfl⟩ | ⟨-, rfl⟩⟩ <;> rfl

theorem Watched.resizeLoop (h : s.Watched away) (update : ClientPtr → Option (List UInt8)) (list : List ClientPtr) :
    (resizeLoop update s list).1.Watched away := by
  induction list generalizing s with
  | nil => exact h
  | cons c rest ih =>
    rw [Server.resizeLoop]
    dsimp only
    split
    · exact ih h
    · cases hsend : (s.client c).sendFramebufferUpdate s.screenWidth s.screenHeight s.pixels s.pixels (update c) with
      | mk k ok =>
        have hsock := sendFramebufferUpdate_sock hsend
        cases ok with
        | false => exact ih (h.modify (.inl hsock))
        | true => exact ih (h.modify (.inl hsock))

theorem Watched.resize (h : s.Watched away) {width height : UInt16} {memory : Bool}
    {update : ClientPtr → Option (List UInt8)} (hresize : s.resize width height memory update = some t) :
    t.Watched away := by
  unfold Server.resize at hresize
  obtain ⟨framebuffer, -, rfl⟩ := Option.map_eq_some_iff.mp hresize
  dsimp only
  have hstart : Watched { { s with framebuffer, width, height }.rfbNewFramebuffer width height with
      previousRGB := [], decodedSequence := 0 } away := h.of_same ⟨rfl, fun _ => rfl, rfl, rfl⟩
  exact (hstart.resizeLoop update _).closeClients _

theorem sameSockets_markTiles (tiles : List TileRect) : SameSockets s (s.markTiles tiles) :=
  List.foldlRecOn (motive := SameSockets s) tiles _ .refl
    fun _ hs _ _ => hs.trans ⟨rfl, fun _ => rfl, rfl, rfl⟩

theorem sameSockets_decodeLatestFrame (frame : JPEGFrame) (sequence : Nat) :
    SameSockets s (s.decodeLatestFrame decoder frame sequence).1 := by
  unfold decodeLatestFrame
  split
  · exact .refl
  · dsimp only
    split
    · exact ⟨rfl, fun _ => rfl, rfl, rfl⟩
    · have hmarked := sameSockets_markTiles
        (s := { s with
          previousRGB := if s.previousRGB.length ≠ s.width.toNat * s.height.toNat then [] else s.previousRGB
          framebuffer := (decoder.decodeJPEGToRGB565 frame.data s.framebuffer s.width.toNat s.height.toNat).1 })
        (collectDirtyTiles
          (if (if s.previousRGB.length ≠ s.width.toNat * s.height.toNat then [] else s.previousRGB) = [] then none
            else some (if s.previousRGB.length ≠ s.width.toNat * s.height.toNat then [] else s.previousRGB))
          (decoder.decodeJPEGToRGB565 frame.data s.framebuffer s.width.toNat s.height.toNat).1 s.width.toNat
          s.height.toNat)
      exact ⟨hmarked.clients, hmarked.sock, hmarked.allFds, hmarked.maxFd⟩

end Server

namespace FrameLoop
variable {l : FrameLoop} {env : Server.FrameEnv} {frame : JPEGFrame} {sequence : Nat}

theorem watched_serveJPEG (h : l.server.Watched away) (c : ClientPtr) :
    (l.serveJPEG decoder env frame sequence c).server.Watched away := by
  unfold FrameLoop.serveJPEG
  dsimp only
  cases hsend : (if (l.server.client c).wantsNativeJPEG then
      (l.server.client c).sendNativeJPEG frame (env.queued c)
        (Server.image decoder frame l.server.width l.server.height) l.server.previous
    else (l.server.client c).sendJPEG frame (env.queued c)
      (Server.image decoder frame l.server.width l.server.height) l.server.previous) with
  | mk k ok =>
    cases ok with
    | false => exact h
    | true =>
      obtain ⟨encoding, hqueue⟩ := sendJPEG_eq hsend
      obtain ⟨-, rest, rfl⟩ := Client.queueJPEG_eq hqueue
      exact h.modify (.inl rfl)

theorem sendFramebuffer_sock (k : Client) (width height : UInt16) (pixels latest : Nat × Nat → Option UInt16)
    (forceUpdate : Bool) (result : Option (List UInt8)) :
    (k.sendFramebuffer width height pixels latest forceUpdate result).1.sock = k.sock := by
  unfold Client.sendFramebuffer
  dsimp only
  split
  · rfl
  · exact Server.sendFramebufferUpdate_sock (k := k.growRegions width height forceUpdate) (Prod.ext rfl rfl)

theorem watched_serveFramebuffer (h : l.server.Watched away) (c : ClientPtr) :
    (l.serveFramebuffer decoder env frame sequence c).server.Watched away := by
  have hsock := sendFramebuffer_sock (l.server.client c) l.server.width l.server.height l.server.pixels
    (Server.image decoder frame l.server.width l.server.height) (l.server.client c).data.forceUpdate (env.update c)
  unfold FrameLoop.serveFramebuffer
  dsimp only
  split <;> exact h.modify (.inl hsock)

theorem watched_client (h : l.server.Watched away) (c : ClientPtr) :
    (l.client decoder env frame sequence c).server.Watched away := by
  unfold FrameLoop.client
  dsimp only
  split
  · exact h
  · have hlogged : (l.server.modify c fun k => { k with data := { k.data with loggedEncoding := true } }).Watched away :=
      h.modify (.inl rfl)
    split
    · exact hlogged
    · split
      · exact watched_serveJPEG hlogged c
      · unfold FrameLoop.serveFallback
        dsimp only
        split
        · exact watched_serveFramebuffer hlogged c
        · cases hd : (l.server.modify c fun k => { k with data := { k.data with loggedEncoding := true } }
              ).decodeLatestFrame decoder frame sequence with
          | mk server ok =>
            have hdecoded : server.Watched away := by
              obtain rfl : _ = server := congrArg Prod.fst hd
              exact hlogged.of_same (Server.sameSockets_decodeLatestFrame frame sequence)
            cases ok with
            | false => exact hdecoded
            | true => exact watched_serveFramebuffer hdecoded c

end FrameLoop

namespace Server
variable {s t : Server} {away : List (ClientPtr × Nat)}

theorem Watched.processFrame (h : s.Watched away) {env : FrameEnv} (hframe : s.processFrame decoder env = some t) :
    t.Watched away := by
  unfold Server.processFrame at hframe
  split at hframe
  · cases hframe
    exact h
  · rename_i frame _
    split at hframe
    · cases hframe
      exact h
    · split at hframe
      · split at hframe
        · cases hframe
          exact h
        · exact h.resize hframe
      · cases hframe
        have hloop : (s.clients.foldl (fun l c => l.client decoder env frame s.latestSequence c)
            ({ server := s } : FrameLoop)).server.Watched away :=
          List.foldlRecOn (motive := fun l : FrameLoop => l.server.Watched away) s.clients _ h
            fun _ hl c _ => FrameLoop.watched_client hl c
        generalize s.clients.foldl (fun l c => l.client decoder env frame s.latestSequence c)
          ({ server := s } : FrameLoop) = l at hloop
        have hclosed := hloop.closeClients l.closing
        unfold finishFrame
        dsimp only
        generalize l.server.closeClients l.closing = u at hclosed
        have hsent : (if l.sentJPEG then
            Server.flushJPEGWrites env.flushed env.sendmsg { u with lastJPEGSent := u.advanceJPEGSent env.now } u.clients
          else u).Watched away := by
          split
          · have hadvanced : Watched { u with lastJPEGSent := u.advanceJPEGSent env.now } away :=
              hclosed.of_same ⟨rfl, fun _ => rfl, rfl, rfl⟩
            exact hadvanced.flushJPEGWrites _ _ _
          · exact hclosed
        split
        · exact hsent.of_same ⟨rfl, fun _ => rfl, rfl, rfl⟩
        · exact hsent

/-! ### Polling -/

theorem endAudio_sock (k : Client) (ok : Bool) : (k.endAudio ok).1.sock = k.sock := by
  unfold Client.endAudio Client.writeExact
  split
  · split <;> rfl
  · rfl

theorem setAudioFormat_sock (k : Client) (format : List UInt8) (ok : Bool) :
    (k.setAudioFormat format ok).1.sock = k.sock := by
  unfold Client.setAudioFormat
  dsimp only
  split
  · rfl
  · split
    · exact endAudio_sock k ok
    · exact endAudio_sock k ok

theorem audioHandleMessage_sock (k : Client) (input : SocketInput) (ok : Bool) :
    (k.audioHandleMessage input ok).1.sock = k.sock := by
  unfold Client.audioHandleMessage
  split
  · rfl
  · split
    · rfl
    · split
      · rfl
      · dsimp only
        split
        · rfl
        · split
          · rfl
          · split
            · exact endAudio_sock (k.record (.audioMessage .disable)) ok
            · split
              · split
                · rfl
                · exact setAudioFormat_sock k _ ok
              · rfl

theorem continuousHandleMessage_sock (k : Client) (input : SocketInput) :
    (k.continuousHandleMessage input).1.sock = k.sock := by
  unfold Client.continuousHandleMessage
  split
  · rfl
  · split <;> rfl

theorem handle_sock (k : Client) (width height : UInt16) (available : Bool) (message : ClientMessage) :
    (k.handle width height available message).1.sock = k.sock := by
  cases message with
  | other | close => rfl
  | clientInit | setEncodings | updateRequest =>
    simp only [Client.handle]
    split <;> rfl
  | continuousUpdates input =>
    simp only [Client.handle]
    split
    · exact continuousHandleMessage_sock k input
    · rfl
  | audio input ok =>
    simp only [Client.handle]
    split
    · exact audioHandleMessage_sock k input ok
    · rfl

theorem Watched.handle (h : s.Watched away) (c : ClientPtr) (message : ClientMessage) :
    (s.handle c message).Watched away := by
  unfold Server.handle
  dsimp only
  have hhandled := h.modify (c := c) (.inl (handle_sock _ s.screenWidth s.screenHeight s.audioAvailable message))
  split
  · exact hhandled.close c
  · exact hhandled

/-- A connection gets a descriptor that is not in use, which is read. -/
theorem Watched.accept (h : s.Watched away) {c : ClientPtr} {fd : Nat} {version : List UInt8} (new : c ∉ s.clients)
    (free : ∀ d ∈ s.clients, (s.client d).sock ≠ some fd) : (s.accept c fd version).Watched away := by
  have hself : ((s.accept c fd version).client c).sock = some fd := by
    change ((s.modify c fun _ => s.newClient fd version).client c).sock = _
    rw [modify_client_self]
    rfl
  have hother {d : ClientPtr} (hd : d ≠ c) : (s.accept c fd version).client d = s.client d :=
    accept_client_of_ne hd fd version
  have hfree {d : ClientPtr} (hd : (s.client d).sock = some fd) : False := by
    by_cases hmem : d ∈ s.clients
    · exact free d hmem hd
    · rw [h.gone d hmem] at hd
      cases hd
  refine ⟨List.nodup_cons.mpr ⟨new, h.nodup⟩, fun d hd => ?_, fun d e g hd he => ?_, fun d g hd haway => ?_⟩
  · obtain ⟨hdc, hd⟩ := List.ne_and_not_mem_of_not_mem_cons hd
    rw [hother hdc]
    exact h.gone d hd
  · by_cases hdc : d = c <;> by_cases hec : e = c
    · rw [hdc, hec]
    · rw [hdc, hself] at hd
      cases hd
      rw [hother hec] at he
      exact (hfree he).elim
    · rw [hec, hself] at he
      cases he
      rw [hother hdc] at hd
      exact (hfree hd).elim
    · rw [hother hdc] at hd
      rw [hother hec] at he
      exact h.own d e g hd he
  · by_cases hdc : d = c
    · rw [hdc, hself] at hd
      cases hd
      exact ⟨Finset.mem_insert_self fd s.allFds, Nat.le_max_right s.maxFd fd⟩
    · rw [hother hdc] at hd
      obtain ⟨hmem, hle⟩ := h.read d g hd haway
      exact ⟨Finset.mem_insert_of_mem hmem, hle.trans (Nat.le_max_left s.maxFd fd)⟩

theorem Watched.checkFd (h : s.Watched away) {event : LibraryEvent} (he : s.checkFd event = some t) :
    t.Watched away := by
  cases event with
  | accept c fd version =>
    simp only [Server.checkFd, Option.ite_none_right_eq_some, Option.some.injEq] at he
    obtain ⟨⟨new, -, free⟩, rfl⟩ := he
    exact h.accept new free
  | message c message =>
    simp only [Server.checkFd, Option.ite_none_right_eq_some, Option.some.injEq] at he
    obtain ⟨-, rfl⟩ := he
    exact h.handle c message

theorem mem_deferred {c : ClientPtr} {fd : Nat} : (c, fd) ∈ s.deferred ↔
    c ∈ s.clients ∧ (s.client c).sock = some fd ∧ (s.client c).data.pendingJPEG.isSome = true := by
  unfold deferred
  rw [List.mem_filterMap]
  constructor
  · rintro ⟨d, hd, hdeferred⟩
    split at hdeferred
    · split at hdeferred
      · cases hdeferred
        exact ⟨hd, ‹_›, ‹_›⟩
      · cases hdeferred
    · cases hdeferred
  · rintro ⟨hc, hfd, hpending⟩
    refine ⟨c, hc, ?_⟩
    rw [hfd]
    exact if_pos hpending

/-- The descriptors that are cleared are those of the clients that are away. -/
theorem Watched.clearFds (h : s.Watched []) : (s.clearFds s.deferred).Watched s.deferred := by
  refine ⟨h.nodup, h.gone, h.own, fun c fd hfd haway => ?_⟩
  obtain ⟨hmem, hle⟩ := h.read c fd hfd (List.not_mem_nil)
  refine ⟨Finset.mem_sdiff.mpr ⟨hmem, fun hcleared => haway ?_⟩, hle⟩
  obtain ⟨⟨d, g⟩, hdeferred, rfl⟩ := List.mem_map.mp (List.mem_toFinset.mp hcleared)
  obtain rfl : c = d := h.own c d g hfd (mem_deferred.mp hdeferred).2.1
  exact hdeferred

/-- Each client that is still there with its descriptor is put back. -/
theorem Watched.restoreFds (h : s.Watched away) : (restoreFds s away).Watched [] := by
  induction away generalizing s with
  | nil => exact h
  | cons p rest ih =>
    obtain ⟨c, fd⟩ := p
    rw [Server.restoreFds]
    apply ih
    split
    · refine ⟨h.nodup, h.gone, h.own, fun d g hg haway => ?_⟩
      by_cases hp : (d, g) = (c, fd)
      · cases hp
        exact ⟨Finset.mem_insert_self _ _, Nat.le_max_right _ _⟩
      · obtain ⟨hmem, hle⟩ := h.read d g hg fun hmem => haway ((List.mem_cons.mp hmem).resolve_left hp)
        exact ⟨Finset.mem_insert_of_mem hmem, hle.trans (Nat.le_max_left s.maxFd fd)⟩
    · rename_i hgone
      refine ⟨h.nodup, h.gone, h.own, fun d g hg haway => h.read d g hg fun hmem => ?_⟩
      rcases List.mem_cons.mp hmem with hp | hmem
      · cases hp
        refine hgone ⟨?_, hg⟩
        by_contra hd
        rw [h.gone _ hd] at hg
        cases hg
      · exact haway hmem

/-! ### Clients that are away -/

/-- The client is open, and its descriptor is not read. -/
structure Deaf (s : Server) (c : ClientPtr) (fd : Nat) : Prop where
  listed : c ∈ s.clients
  sock : (s.client c).sock = some fd
  unread : fd ∉ s.allFds

/-- Nothing is read from such a client, and it stays like that. -/
theorem Deaf.checkFd {c : ClientPtr} {fd : Nat} (h : s.Deaf c fd) {event : LibraryEvent}
    (he : s.checkFd event = some t) : t.Deaf c fd ∧ ∀ message, event ≠ .message c message := by
  cases event with
  | accept d g version =>
    simp only [Server.checkFd, Option.ite_none_right_eq_some, Option.some.injEq] at he
    obtain ⟨⟨new, -, free⟩, rfl⟩ := he
    have hcd : c ≠ d := fun hcd => new (hcd ▸ h.listed)
    have hne : fd ≠ g := fun hfg => free c h.listed (hfg ▸ h.sock)
    refine ⟨⟨List.mem_cons_of_mem d h.listed, ?_, ?_⟩, fun _ hm => LibraryEvent.noConfusion hm⟩
    · rw [accept_client_of_ne hcd]
      exact h.sock
    · exact fun hmem => (Finset.mem_insert.mp hmem).elim hne h.unread
  | message d message =>
    simp only [Server.checkFd, Option.ite_none_right_eq_some, Option.some.injEq] at he
    obtain ⟨⟨-, hreadable⟩, rfl⟩ := he
    have hcd : c ≠ d := by
      rintro rfl
      have hdeaf : s.readable c = false := readable_eq_false.mpr fun g hg hmem => by
        obtain rfl := Option.some.inj (h.sock.symm.trans hg)
        exact h.unread hmem
      rw [hdeaf] at hreadable
      cases hreadable
    obtain ⟨hclients, hothers, hfds, -⟩ := handle_eq (s := s) d message
    refine ⟨⟨hclients ▸ h.listed, ?_, fun hmem => h.unread (hfds hmem)⟩, fun m hm => ?_⟩
    · rw [hothers c hcd]
      exact h.sock
    · cases hm
      exact hcd rfl

theorem Deaf.rfbCheckFds {c : ClientPtr} {fd : Nat} (h : s.Deaf c fd) {events : List LibraryEvent}
    (he : s.rfbCheckFds events = some t) : ∀ message, .message c message ∉ events := by
  induction events generalizing s with
  | nil => exact fun _ => List.not_mem_nil
  | cons event events ih =>
    obtain ⟨u, hu, he⟩ := run_cons_eq_some.mp he
    obtain ⟨hdeaf, hfirst⟩ := h.checkFd hu
    intro message hmem
    rcases List.mem_cons.mp hmem with heq | hmem
    · exact hfirst message heq.symm
    · exact ih hdeaf he message hmem

/-- A loop over all clients reaps those that are closed. -/
theorem reapClosed_open {list : List ClientPtr} (nodup : s.clients.Nodup)
    (all : ∀ c ∈ s.clients, (s.client c).sock = none → c ∈ list) :
    ∀ c ∈ (Server.reapClosed s list).clients, ((Server.reapClosed s list).client c).sock ≠ none := by
  induction list generalizing s with
  | nil => exact fun c hc hclosed => List.not_mem_nil (all c hc hclosed)
  | cons d rest ih =>
    rw [Server.reapClosed]
    split
    · refine ih (nodup.erase d) fun c hc hclosed => ?_
      obtain ⟨hcd, hc⟩ := nodup.mem_erase_iff.mp hc
      exact (List.mem_cons.mp (all c hc hclosed)).resolve_left hcd
    · rename_i hopen
      refine ih nodup fun c hc hclosed => (List.mem_cons.mp (all c hc hclosed)).resolve_left ?_
      rintro rfl
      exact hopen hclosed

/-! ### A call -/

/-- After a call of `PollClientEvents` every client can be heard, and in the call no message was read from one whose
    JPEG was not written completely. -/
structure SocketsKept (s : Server) (env : PollEnv) (t : Server) : Prop where
  heard : ∀ c ∈ t.clients, ∃ fd, (t.client c).sock = some fd ∧ fd ∈ t.allFds ∧ fd ≤ t.maxFd
  quiet : ∀ c ∈ (flushJPEGWrites env.now env.sendmsg s s.clients).clients,
    ((flushJPEGWrites env.now env.sendmsg s s.clients).client c).sock.isSome = true →
    ((flushJPEGWrites env.now env.sendmsg s s.clients).client c).data.pendingJPEG.isSome = true →
    ∀ message, .message c message ∉ env.events

/-- A client that is open is not reaped. -/
theorem mem_reapClosed {c : ClientPtr} (hc : c ∈ s.clients) (hopen : (s.client c).sock.isSome = true)
    (list : List ClientPtr) : c ∈ (reapClosed s list).clients := by
  induction list generalizing s with
  | nil => exact hc
  | cons d rest ih =>
    rw [reapClosed]
    split
    · rename_i hclosed
      refine ih ((List.mem_erase_of_ne ?_).mpr hc) hopen
      rintro rfl
      rw [hclosed] at hopen
      cases hopen
    · exact ih hc hopen

theorem Watched.rfbCheckFds (h : s.Watched away) {events : List LibraryEvent}
    (he : s.rfbCheckFds events = some t) : t.Watched away :=
  Transition.run_invariant (P := (Watched · away)) h (fun _ _ _ hu ha => hu.checkFd ha) he

theorem Watched.pollClientEvents (h : s.Watched []) {env : PollEnv} (hpoll : s.pollClientEvents env = some t) :
    t.Watched [] ∧ SocketsKept s env t := by
  unfold Server.pollClientEvents at hpoll
  obtain ⟨v, hv, rfl⟩ := Option.map_eq_some_iff.mp hpoll
  have hflushed := h.flushJPEGWrites env.now env.sendmsg s.clients
  have hreaped := hflushed.reapClosed (Server.flushJPEGWrites env.now env.sendmsg s s.clients).clients
  have hrestored := (hreaped.clearFds.rfbCheckFds hv).restoreFds
  have hpolled := hrestored.reapClosed (Server.restoreFds v
    (Server.reapClosed (Server.flushJPEGWrites env.now env.sendmsg s s.clients)
      (Server.flushJPEGWrites env.now env.sendmsg s s.clients).clients).deferred).clients
  refine ⟨hpolled, fun c hc => ?_, fun c hc hopen hpending => ?_⟩
  · obtain ⟨fd, hfd⟩ := Option.ne_none_iff_exists'.mp (reapClosed_open hrestored.nodup (fun _ hd _ => hd) c hc)
    exact ⟨fd, hfd, hpolled.read c fd hfd List.not_mem_nil⟩
  · obtain ⟨fd, hfd⟩ := Option.isSome_iff_exists.mp hopen
    have hlisted := mem_reapClosed hc hopen (Server.flushJPEGWrites env.now env.sendmsg s s.clients).clients
    have hdeaf : Deaf (Server.clearFds _ _) c fd := {
      listed := hlisted
      sock := by
        change ((Server.reapClosed _ _).client c).sock = some fd
        rw [reapClosed_client, hfd]
      unread := fun hmem => (Finset.mem_sdiff.mp hmem).2 (List.mem_toFinset.mpr (List.mem_map.mpr ⟨(c, fd),
        mem_deferred.mpr ⟨hlisted, by rw [reapClosed_client, hfd], by rw [reapClosed_client, hpending]⟩, rfl⟩)) }
    exact hdeaf.rfbCheckFds hv

theorem Watched.start (fps : Nat) (audioAvailable : Bool) (width height : UInt16) (listening : Finset Nat) :
    (start fps audioAvailable width height listening).Watched [] :=
  ⟨List.nodup_nil, fun _ _ => rfl, fun _ _ _ => nofun, fun _ _ => nofun⟩

theorem Watched.step (h : s.Watched []) {action : ServerAction} (hstep : s.step decoder action = some t) :
    t.Watched [] := by
  cases action with
  | setFrame frame =>
    cases hstep
    exact h.of_same ⟨rfl, fun _ => rfl, rfl, rfl⟩
  | queueAudio pcm =>
    cases hstep
    unfold queueAudio
    split
    · exact h
    · exact h.of_same ⟨rfl, fun _ => rfl, rfl, rfl⟩
  | pollClientEvents env => exact (h.pollClientEvents hstep).1
  | syncSubscription =>
    cases hstep
    unfold syncSubscription
    split
    · exact h.of_same ⟨rfl, fun _ => rfl, rfl, rfl⟩
    · split
      · exact h.of_same ⟨rfl, fun _ => rfl, rfl, rfl⟩
      · exact h
  | syncAudioSubscription =>
    cases hstep
    unfold syncAudioSubscription
    dsimp only
    split
    · exact h
    · split
      · exact h.of_same ⟨rfl, fun _ => rfl, rfl, rfl⟩
      · split
        · exact h.of_same ⟨rfl, fun _ => rfl, rfl, rfl⟩
        · exact h
  | processAudio ok =>
    cases hstep
    exact h.processAudio ok
  | processFrame env => exact h.processFrame hstep

end Server

open Server in
/-- In every reached state the open sockets are the clients' own and are read, and a call of `PollClientEvents` from
    any such state keeps them. -/
theorem poll_keeps_sockets (decoder : JPEGDecoder) :
    (∀ (fps : Nat) (audioAvailable : Bool) (width height : UInt16) (listening : Finset Nat)
      (actions : List ServerAction) (s : Server),
      run (step decoder) (start fps audioAvailable width height listening) actions = some s → s.Watched []) ∧
    ∀ (s : Server) (env : PollEnv) (t : Server), s.Watched [] → s.pollClientEvents env = some t → SocketsKept s env t :=
  ⟨fun fps audioAvailable width height listening _ _ hrun =>
      Transition.run_invariant (P := (Watched · [])) (Watched.start fps audioAvailable width height listening)
        (fun _ _ _ hu ha => hu.step ha) hrun,
    fun _ _ _ watched hpoll => (watched.pollClientEvents hpoll).2⟩

/-- Two clients; one has a JPEG to be written, and the other one has the greater descriptor. -/
def pairServer : Server :=
  { fps := 30, audioAvailable := false, width := 1, height := 1, framebuffer := [0], screenWidth := 1, screenHeight := 1
    clients := [1, 0]
    client := fun c =>
      if c = 0 then
        { sock := some 5, data := { pendingJPEG := some { data := [0xff], width := 1, height := 1 }, jpegStarted := 1 } }
      else if c = 1 then { sock := some 7 } else { sock := none }
    allFds := {3, 5, 7}
    maxFd := 7 }

theorem watched_pairServer : pairServer.Watched [] := by
  have hsock (c fd : Nat) (h : (pairServer.client c).sock = some fd) : c = 0 ∧ fd = 5 ∨ c = 1 ∧ fd = 7 := by
    change (if c = 0 then _ else if c = 1 then _ else _ : Client).sock = _ at h
    split at h
    · exact .inl ⟨‹_›, (Option.some.inj h).symm⟩
    · split at h
      · exact .inr ⟨‹_›, (Option.some.inj h).symm⟩
      · cases h
  refine ⟨by decide, fun c hc => ?_, fun c d fd hc hd => ?_, fun c fd hfd _ => ?_⟩
  · have hzero : c ≠ 0 := fun h => hc (by rw [h]; exact List.mem_cons_of_mem 1 (List.mem_singleton_self 0))
    have hone : c ≠ 1 := fun h => hc (by rw [h]; exact List.mem_cons_self ..)
    change (if c = 0 then _ else if c = 1 then _ else _ : Client).sock = _
    rw [if_neg hzero, if_neg hone]
  · rcases hsock c fd hc with ⟨rfl, rfl⟩ | ⟨rfl, rfl⟩ <;> rcases hsock d _ hd with ⟨rfl, hfd⟩ | ⟨rfl, hfd⟩
    · rfl
    · cases hfd
    · cases hfd
    · rfl
  · rcases hsock c fd hfd with ⟨-, rfl⟩ | ⟨-, rfl⟩ <;> decide

/-- The other client hangs up while the first one is away, whose descriptor is above all that are read then. -/
theorem poll_keeps_sockets_pair (decoder : JPEGDecoder) : ∃ t,
    pairServer.pollClientEvents { now := 2, sendmsg := fun _ => .again, events := [.message 1 .close] } = some t ∧
      t.clients = [0] ∧ t.maxFd = 5 ∧
      Server.SocketsKept pairServer { now := 2, sendmsg := fun _ => .again, events := [.message 1 .close] } t :=
  ⟨_, rfl, rfl, rfl, (poll_keeps_sockets decoder).2 _ _ _ watched_pairServer rfl⟩

end OnekvmVnc
