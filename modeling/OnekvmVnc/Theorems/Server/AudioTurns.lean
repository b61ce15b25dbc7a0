import OnekvmVnc.Theorems.Server.Turns

/-! What each step of the server does to the audio of one client. `ProcessAudio` and the client's own
    messages change it; everything else leaves it alone. -/

namespace OnekvmVnc

open Relation

variable {decoder : JPEGDecoder}

/-- An audio message, in either direction, or a packet that is converted for one. -/
def ClientEvent.isAudio : ClientEvent → Bool
  | .audioMessage _ | .audioPacket _ | .audioCapability .. | .audioControl _ | .audioData _ => true
  | _ => false

/-- The audio part of `ClientData`. -/
structure ClientAudio where
  supported : Bool
  capabilityPending : Bool
  enabled : Bool
  started : Bool
  format : AudioFormat
  resamplePosition : Nat
  deferred : List (List Int16)
  deferredSamples : Nat

namespace Client
variable {k k' k'' : Client}

def audio (k : Client) : ClientAudio :=
  { supported := k.data.audioSupported
    capabilityPending := k.data.audioCapabilityPending
    enabled := k.data.audioEnabled
    started := k.data.audioStarted
    format := k.data.audioFormat
    resamplePosition := k.data.audioResamplePosition
    deferred := k.data.deferredAudio
    deferredSamples := k.data.deferredAudioSamples }

/-- The audio messages handled and written and the packets converted, in order. -/
def audioEvents (k : Client) : List ClientEvent := (k.history.map (·.event)).filter ClientEvent.isAudio

@[simp] theorem audioEvents_record (event : ClientEvent) :
    (k.record event).audioEvents = k.audioEvents ++ if event.isAudio then [event] else [] := by
  simp [audioEvents, record, List.filter_cons]

theorem audioEvents_record_of_isAudio {event : ClientEvent} (h : event.isAudio = true) :
    (k.record event).audioEvents = k.audioEvents ++ [event] := by
  rw [audioEvents_record, if_pos h]

@[simp] theorem audioEvents_output (event : ClientEvent) : (k.output event).audioEvents = (k.record event).audioEvents := rfl

/-- The client that a message handler asks to close. -/
def closing (r : Client × Bool) : Client := if r.2 then { r.1 with sock := none } else r.1

/-- The audio is left alone, and a closed client stays closed. -/
structure SameAudio (k k' : Client) : Prop where
  audio : k'.audio = k.audio
  events : k'.audioEvents = k.audioEvents
  sock : k'.sock.isSome = true → k.sock.isSome = true

theorem SameAudio.refl : SameAudio k k := ⟨rfl, rfl, id⟩

theorem SameAudio.trans (h : SameAudio k k') (h' : SameAudio k' k'') : SameAudio k k'' :=
  ⟨h'.audio.trans h.audio, h'.events.trans h.events, h.sock ∘ h'.sock⟩

theorem SameAudio.closed (h : SameAudio k k') : SameAudio k { k' with sock := none } :=
  ⟨h.audio, h.events, fun hs => by cases hs⟩

theorem sameAudio_record {event : ClientEvent} (h : event.isAudio = false) : SameAudio k (k.record event) :=
  ⟨rfl, by simp [h], id⟩

/-! ### The functions of a client -/

theorem sameAudio_flushJPEG {now : Int} {result : SendResult} {close : Bool}
    (h : k.flushJPEG now result = (k', close)) : SameAudio k k' := by
  obtain ⟨wire, pendingJPEG, jpegWritten, rfl⟩ := flushJPEG_eq h
  exact ⟨rfl, rfl, id⟩

theorem sameAudio_queueJPEG {frame : JPEGFrame} {encoding now : Int} {image previous : Nat × Nat → Option UInt16}
    (h : k.queueJPEG frame encoding now image previous = (k', true)) : SameAudio k k' := by
  obtain ⟨-, rest, rfl⟩ := queueJPEG_eq h
  exact ⟨rfl, (sameAudio_record rfl).events, id⟩

theorem sameAudio_sendFramebufferUpdate {width height : UInt16} {pixels latest : Nat × Nat → Option UInt16}
    {result : Option (List UInt8)} {ok : Bool} (h : k.sendFramebufferUpdate width height pixels latest result = (k', ok)) :
    SameAudio k k' := by
  rcases sendFramebufferUpdate_cases h with ⟨-, rfl⟩ | ⟨-, -, bytes, ⟨-, -, rfl⟩ | ⟨-, rfl⟩⟩
  · exact .refl
  · exact ⟨rfl, (@sameAudio_record k (.newFBSize width height bytes) rfl).events, id⟩
  · exact ⟨rfl, (sameAudio_record (k := k) rfl).events, id⟩

theorem sameAudio_sendFramebuffer {width height : UInt16} {pixels latest : Nat × Nat → Option UInt16} {forceUpdate : Bool}
    {result : Option (List UInt8)} {delivery : Delivery}
    (h : k.sendFramebuffer width height pixels latest forceUpdate result = (k', delivery)) : SameAudio k k' := by
  have hgrown : SameAudio k (k.growRegions width height forceUpdate) := ⟨rfl, rfl, id⟩
  unfold sendFramebuffer at h
  dsimp only at h
  split at h
  · cases h
    exact hgrown
  · cases hsend : (k.growRegions width height forceUpdate).sendFramebufferUpdate width height pixels latest result with
    | mk k₁ ok =>
      rw [hsend] at h
      cases h
      exact hgrown.trans (sameAudio_sendFramebufferUpdate hsend)

/-! ### Audio messages of the server -/

theorem writeExact_cases {event : ClientEvent} {ok sent : Bool} (h : k.writeExact event ok = (k', sent)) :
    (sent = false ∧ k' = k) ∨ (sent = true ∧ k.sock.isSome = true ∧ k' = k.output event) := by
  unfold writeExact at h
  split at h
  · rename_i hopen
    rw [Bool.and_eq_true] at hopen
    cases h
    exact .inr ⟨rfl, hopen.1, rfl⟩
  · cases h
    exact .inl ⟨rfl, rfl⟩

theorem sendAudioData_cases {pcm : List UInt8} {ok sent : Bool} (h : k.sendAudioData pcm ok = (k', sent)) :
    (sent = false ∧ k' = k) ∨ (sent = true ∧ pcm = [] ∧ k' = k) ∨
      (sent = true ∧ pcm ≠ [] ∧ pcm.length ≤ 2147483647 - 8 ∧ k.sock.isSome = true ∧ k' = k.output (.audioData pcm)) := by
  unfold sendAudioData at h
  split at h
  · rename_i hnil
    cases h
    exact .inr (.inl ⟨rfl, hnil, rfl⟩)
  · rename_i hnil
    split at h
    · cases h
      exact .inl ⟨rfl, rfl⟩
    · rename_i hfits
      rcases writeExact_cases h with ⟨hsent, heq⟩ | ⟨hsent, hopen, heq⟩
      · exact .inl ⟨hsent, heq⟩
      · exact .inr (.inr ⟨hsent, hnil, not_lt.mp hfits, hopen, heq⟩)

/-- A packet is taken to be converted. -/
def taking (k : Client) (source : List Int16) : Client :=
  { k.record (.audioPacket source) with
    data := { k.data with
      audioResamplePosition := (convertAudio source k.data.audioFormat k.data.audioResamplePosition).2 } }

theorem taking_audioEvents (source : List Int16) :
    (k.taking source).audioEvents = k.audioEvents ++ [.audioPacket source] := audioEvents_record_of_isAudio rfl

/-- The first deferred packet is taken; it is not written, or makes no data, or its data is written. -/
theorem sendDeferred_cases {ok : Nat → Bool} {source : List Int16} {rest : List (List Int16)} {sent : Bool}
    (h : k.sendDeferred ok (source :: rest) = (k', sent)) {pcm : List UInt8}
    (converted : (convertAudio source k.data.audioFormat k.data.audioResamplePosition).1 = pcm) :
    (sent = false ∧ k' = k.taking source) ∨
      (pcm = [] ∧ (k.taking source).sendDeferred (fun n => ok (n + 1)) rest = (k', sent)) ∨
      (pcm ≠ [] ∧ pcm.length ≤ 2147483647 - 8 ∧ k.sock.isSome = true ∧
        ((k.taking source).output (.audioData pcm)).sendDeferred (fun n => ok (n + 1)) rest = (k', sent)) := by
  subst converted
  have hfirst : k.sendDeferred ok (source :: rest) = (fun first : Client × Bool =>
      if first.2 = true then first.1.sendDeferred (fun n => ok (n + 1)) rest else (first.1, false))
        ((k.taking source).sendAudioData (convertAudio source k.data.audioFormat k.data.audioResamplePosition).1 (ok 0)) :=
    rfl
  rw [hfirst] at h
  cases hsend : (k.taking source).sendAudioData
      (convertAudio source k.data.audioFormat k.data.audioResamplePosition).1 (ok 0) with
  | mk k₁ written =>
    rw [hsend] at h
    rcases sendAudioData_cases hsend with ⟨rfl, rfl⟩ | ⟨rfl, hnil, rfl⟩ | ⟨rfl, hpcm, hfits, hopen, rfl⟩
    · cases h
      exact .inl ⟨rfl, rfl⟩
    · exact .inr (.inl ⟨hnil, h⟩)
    · exact .inr (.inr ⟨hpcm, hfits, hopen, h⟩)

theorem sendAudioCapability_cases {width height : UInt16} {ok sent : Bool}
    (h : k.sendAudioCapability width height ok = (k', sent)) :
    (sent = false ∧ k' = k) ∨ (sent = true ∧ k.data.audioCapabilityPending = false ∧ k' = k) ∨
      (sent = true ∧ k' = { k.output (.audioCapability width height) with
        data := { k.data with audioCapabilityPending := false } }) := by
  unfold sendAudioCapability at h
  split at h
  · cases hw : k.writeExact (.audioCapability width height) ok with
    | mk k₁ written =>
      rcases writeExact_cases hw with ⟨rfl, rfl⟩ | ⟨rfl, -, rfl⟩
      · rw [hw] at h
        cases h
        exact .inl ⟨rfl, rfl⟩
      · rw [hw] at h
        cases h
        exact .inr (.inr ⟨rfl, rfl⟩)
  · rename_i hpending
    cases h
    exact .inr (.inl ⟨rfl, by simpa using hpending, rfl⟩)

theorem sendAudioCapability_false {width height : UInt16} {ok : Bool}
    (h : k.sendAudioCapability width height ok = (k', false)) : k' = k := by
  rcases sendAudioCapability_cases h with ⟨-, rfl⟩ | ⟨hf, -⟩ | ⟨hf, -⟩
  · rfl
  · cases hf
  · cases hf

theorem beginAudio_cases {ok sent : Bool} (h : k.beginAudio ok = (k', sent)) :
    (sent = false ∧ k' = k) ∨ (sent = true ∧ k.data.audioStarted = true ∧ k' = k) ∨
      (sent = true ∧ k.data.audioStarted = false ∧ k.sock.isSome = true ∧
        k' = { k.output (.audioControl 1) with data := { k.data with audioStarted := true } }) := by
  unfold beginAudio at h
  split at h
  · rename_i hstarted
    cases h
    exact .inr (.inl ⟨rfl, hstarted, rfl⟩)
  · rename_i hstarted
    cases hw : k.writeExact (.audioControl 1) ok with
    | mk k₁ written =>
      rcases writeExact_cases hw with ⟨rfl, rfl⟩ | ⟨rfl, hopen, rfl⟩
      · rw [hw] at h
        cases h
        exact .inl ⟨rfl, rfl⟩
      · rw [hw] at h
        cases h
        exact .inr (.inr ⟨rfl, by simpa using hstarted, hopen, rfl⟩)

theorem beginAudio_false {ok : Bool} (h : k.beginAudio ok = (k', false)) : k' = k := by
  rcases beginAudio_cases h with ⟨-, rfl⟩ | ⟨hf, -⟩ | ⟨hf, -⟩
  · rfl
  · cases hf
  · cases hf

theorem endAudio_cases {ok sent : Bool} (h : k.endAudio ok = (k', sent)) :
    (sent = false ∧ k' = k) ∨ (sent = true ∧ k.data.audioStarted = false ∧ k' = k) ∨
      (sent = true ∧ k.data.audioStarted = true ∧ k.sock.isSome = true ∧ k' = k.output (.audioControl 0)) := by
  unfold endAudio at h
  split at h
  · rename_i hstarted
    rcases writeExact_cases h with ⟨hsent, heq⟩ | ⟨hsent, hopen, heq⟩
    · exact .inl ⟨hsent, heq⟩
    · exact .inr (.inr ⟨hsent, hstarted, hopen, heq⟩)
  · rename_i hstarted
    cases h
    exact .inr (.inl ⟨rfl, by simpa using hstarted, rfl⟩)

end Client

/-! ### The loops of the server -/

namespace Server
open Client (SameAudio)
variable {s t u : Server}

/-- The audio of every client is left alone, and no client joins. -/
structure Hushed (s t : Server) : Prop where
  client : ∀ c, SameAudio (s.client c) (t.client c)
  stays : t.clients ⊆ s.clients

theorem Hushed.refl : Hushed s s := ⟨fun _ => .refl, List.Subset.refl _⟩

theorem Hushed.trans (h : Hushed s t) (h' : Hushed t u) : Hushed s u :=
  ⟨fun c => (h.client c).trans (h'.client c), fun _ hc => h.stays (h'.stays hc)⟩

theorem hushed_of_same (client : t.client = s.client) (clients : t.clients = s.clients) : Hushed s t :=
  ⟨fun c => by rw [client]; exact .refl, by rw [clients]; exact List.Subset.refl _⟩

theorem hushed_modify {c : ClientPtr} {k : Client} (h : SameAudio (s.client c) k) : Hushed s (s.modify c fun _ => k) := by
  refine ⟨fun d => ?_, List.Subset.refl _⟩
  by_cases hd : d = c
  · subst hd
    rw [modify_client_self]
    exact h
  · rw [modify_client_of_ne hd]
    exact .refl

theorem hushed_rfbCloseClient (c : ClientPtr) : Hushed s (s.rfbCloseClient c) := by
  refine ⟨fun d => ?_, by rw [rfbCloseClient_clients]; exact List.Subset.refl _⟩
  by_cases hd : d = c
  · subst hd
    rw [rfbCloseClient_client_self]
    exact SameAudio.refl.closed
  · rw [rfbCloseClient_client_of_ne hd]
    exact .refl

theorem hushed_rfbClientConnectionGone (c : ClientPtr) : Hushed s (s.rfbClientConnectionGone c) :=
  ⟨fun _ => .refl, List.erase_subset⟩

theorem hushed_closeClients (closing : List ClientPtr) : Hushed s (s.closeClients closing) := by
  refine ⟨fun c => ?_, by rw [closeClients_clients]; exact List.diff_subset _ _⟩
  rw [closeClients_client]
  split
  · exact SameAudio.refl.closed
  · exact .refl

theorem hushed_reapClosed (list : List ClientPtr) : Hushed s (reapClosed s list) := by
  induction list generalizing s with
  | nil => exact .refl
  | cons c rest ih =>
    rw [reapClosed]
    split
    · exact (hushed_rfbClientConnectionGone c).trans ih
    · exact ih

theorem hushed_restoreFds (fds : List (ClientPtr × Nat)) : Hushed s (restoreFds s fds) := by
  induction fds generalizing s with
  | nil => exact .refl
  | cons p rest ih =>
    obtain ⟨c, fd⟩ := p
    rw [restoreFds]
    split
    · have hadded : Hushed s { s with allFds := insert fd s.allFds, maxFd := max s.maxFd fd } := hushed_of_same rfl rfl
      exact hadded.trans ih
    · exact ih

theorem hushed_flushJPEGWrites (now : Int) (sendmsg : ClientPtr → SendResult) (list : List ClientPtr) :
    Hushed s (flushJPEGWrites now sendmsg s list) := by
  induction list generalizing s with
  | nil => exact .refl
  | cons c rest ih =>
    rw [flushJPEGWrites]
    cases h : (s.client c).flushJPEG now (sendmsg c) with
    | mk k close =>
      have hflushed : Hushed s (s.modify c fun _ => k) := hushed_modify (Client.sameAudio_flushJPEG h)
      dsimp only
      split
      · exact (hflushed.trans (hushed_rfbCloseClient c)).trans ih
      · exact hflushed.trans ih

theorem hushed_decodeLatestFrame (frame : JPEGFrame) (sequence : Nat) :
    Hushed s (s.decodeLatestFrame decoder frame sequence).1 := by
  have hframe : SameFrame s (s.decodeLatestFrame decoder frame sequence).1 := sameFrame_decodeLatestFrame frame sequence
  refine ⟨fun c => ?_, by rw [hframe.clients]; exact List.Subset.refl _⟩
  obtain ⟨region, h⟩ := hframe.client c
  rw [h]
  exact ⟨rfl, rfl, id⟩

end Server

/-! ### Frames -/

namespace FrameLoop
open Server (Hushed)
variable {l : FrameLoop} {c : ClientPtr} {env : Server.FrameEnv} {frame : JPEGFrame} {sequence : Nat}

theorem hushed_serveJPEG : Hushed l.server (l.serveJPEG decoder env frame sequence c).server := by
  unfold serveJPEG
  dsimp only
  cases hsend : (if (l.server.client c).wantsNativeJPEG then
      (l.server.client c).sendNativeJPEG frame (env.queued c)
        (Server.image decoder frame l.server.width l.server.height) l.server.previous
    else (l.server.client c).sendJPEG frame (env.queued c)
      (Server.image decoder frame l.server.width l.server.height) l.server.previous) with
  | mk k ok =>
    cases ok with
    | false => exact .refl
    | true =>
      obtain ⟨encoding, hqueue⟩ := sendJPEG_eq hsend
      have hsame := Client.sameAudio_queueJPEG hqueue
      exact Server.hushed_modify ⟨hsame.audio, hsame.events, hsame.sock⟩

theorem hushed_serveFramebuffer : Hushed l.server (l.serveFramebuffer decoder env frame sequence c).server := by
  unfold serveFramebuffer
  dsimp only
  cases hsend : (l.server.client c).sendFramebuffer l.server.width l.server.height l.server.pixels
      (Server.image decoder frame l.server.width l.server.height) (l.server.client c).data.forceUpdate (env.update c) with
  | mk k delivery =>
    have hsame := Client.sameAudio_sendFramebuffer hsend
    cases delivery with
    | failed | unchanged => exact Server.hushed_modify hsame
    | sent => exact Server.hushed_modify ⟨hsame.audio, hsame.events, hsame.sock⟩

theorem hushed_client : Hushed l.server (l.client decoder env frame sequence c).server := by
  by_cases h : Server.waiting (l.server.client c) sequence = true ∧ l.server.paced (l.server.client c) env.now = false
  · have hlogged : Hushed l.server (l.logged c).server := Server.hushed_modify ⟨rfl, rfl, id⟩
    rw [client_served h.1 h.2]
    refine hlogged.trans ?_
    split
    · exact hushed_serveJPEG
    · rcases serveFallback_cases (l.logged c) c with ⟨-, heq⟩ | ⟨-, heq | heq⟩
      · rw [heq]
        exact hushed_serveFramebuffer
      · rw [heq]
        exact Server.hushed_decodeLatestFrame frame sequence
      · rw [heq]
        exact (Server.hushed_decodeLatestFrame (s := (l.logged c).server) frame sequence).trans
          (hushed_serveFramebuffer (l := { l.logged c with
            server := ((l.logged c).server.decodeLatestFrame decoder frame sequence).1, decoded := true }))
  · rw [not_and_or, Bool.not_eq_true, Bool.not_eq_false] at h
    have hskipped : l.client decoder env frame sequence c = l ∨ l.client decoder env frame sequence c = l.logged c :=
      client_skipped h
    rcases hskipped with heq | heq
    · rw [heq]
      exact .refl
    · rw [heq]
      exact Server.hushed_modify ⟨rfl, rfl, id⟩

theorem hushed_clients (list : List ClientPtr) :
    Hushed l.server (list.foldl (fun l c => l.client decoder env frame sequence c) l).server := by
  induction list generalizing l with
  | nil => exact .refl
  | cons c list ih => exact hushed_client.trans ih

end FrameLoop

namespace Server
open Client (SameAudio)
variable {s t u : Server}

theorem hushed_finishFrame (env : FrameEnv) (l : FrameLoop) : Hushed l.server (finishFrame env l) := by
  have hclosed : Hushed l.server (l.server.closeClients l.closing) := hushed_closeClients l.closing
  unfold finishFrame
  dsimp only
  generalize l.server.closeClients l.closing = t at hclosed
  have hsent : Hushed l.server (if l.sentJPEG then
      flushJPEGWrites env.flushed env.sendmsg { t with lastJPEGSent := t.advanceJPEGSent env.now } t.clients else t) := by
    split
    · have hmoved : Hushed t { t with lastJPEGSent := t.advanceJPEGSent env.now } := hushed_of_same rfl rfl
      exact (hclosed.trans hmoved).trans (hushed_flushJPEGWrites env.flushed env.sendmsg t.clients)
    · exact hclosed
  split
  · exact hsent.trans (hushed_of_same rfl rfl)
  · exact hsent

theorem Resized.hushed {width height : UInt16} (h : Resized s t width height) : Hushed s t := by
  refine ⟨fun c => ?_, h.clients.subset⟩
  rcases h.client_cases c with ⟨-, -, heq⟩ | ⟨-, -, heq⟩ | ⟨-, -, -, -, bytes, heq⟩
  · rw [heq]
    exact ⟨rfl, rfl, id⟩
  · rw [heq]
    exact SameAudio.closed ⟨rfl, rfl, id⟩
  · rw [heq]
    exact ⟨rfl, (@Client.sameAudio_record (s.client c) (.newFBSize width height bytes) rfl).events, id⟩

theorem hushed_processFrame (nodup : s.clients.Nodup) {env : FrameEnv} (h : s.processFrame decoder env = some t) :
    Hushed s t := by
  rcases processFrame_cases h with ⟨frame, -, rfl⟩ | ⟨-, rfl | hresizes⟩
  · exact (FrameLoop.hushed_clients (l := { server := s }) s.clients).trans (hushed_finishFrame env _)
  · exact .refl
  · obtain ⟨width, height, hresized⟩ := hresizes.resized nodup
    exact hresized.hushed

end Server

/-! ### Messages -/

/-- The client sends an audio message, or a new client takes its place. -/
def LibraryEvent.speaks (c : ClientPtr) : LibraryEvent → Bool
  | .accept d _ _ => d = c
  | .message d (.audio ..) => d = c
  | _ => false

def ServerAction.speaks (c : ClientPtr) : ServerAction → Bool
  | .pollClientEvents env => env.events.any (·.speaks c)
  | _ => false

namespace Client
variable {k k' : Client}

/-- How an audio message is answered: it is refused, and the client to be closed, or its operation is done. -/
inductive AudioReply (k : Client) (ok : Bool) : Client × Bool → Prop
  | refused : AudioReply k ok (k, true)
  | enable (supported : k.data.audioSupported = true) :
      AudioReply k ok ({ k.record (.audioMessage .enable) with
        data := { (k.record (.audioMessage .enable)).data with audioEnabled := true, audioResamplePosition := 0 } }, false)
  | disable : AudioReply k ok (k.disableAudio ok)
  | setFormat (format : List UInt8) : AudioReply k ok (k.setAudioFormat format ok)

theorem audioHandleMessage_reply (input : SocketInput) (ok : Bool) : AudioReply k ok (k.audioHandleMessage input ok) := by
  unfold audioHandleMessage
  cases input.peek with
  | none => exact .refused
  | some subtype =>
    dsimp only
    split
    · exact .refused
    · cases input.readExact 3 with
      | none => exact .refused
      | some read =>
        obtain ⟨header, input⟩ := read
        dsimp only
        split
        · exact .refused
        · rename_i hsupported
          rw [Bool.not_eq_true', Bool.not_eq_false] at hsupported
          split
          · exact .enable hsupported
          · split
            · exact .disable
            · split
              · cases input.readExact 6 with
                | none => exact .refused
                | some read => exact .setFormat read.1
              · exact .refused

/-- What an event of `rfbCheckFds` does to the audio of a client. -/
inductive Polled (speaks : Bool) (k : Client) : Client → Prop
  | quiet {k' : Client} (same : SameAudio k k') : Polled speaks k k'
  | setEncodings (e : Encodings) (available : Bool) : Polled speaks k (k.setEncodings e available)
  | message (input : SocketInput) (ok : Bool) (h : speaks = true) (isOpen : k.sock.isSome = true) :
      Polled speaks k (closing (k.audioHandleMessage input ok))
  | accepted {k' : Client} (h : speaks = true) (audio : k'.audio = ({ sock := none } : Client).audio)
      (events : k'.audioEvents = []) : Polled speaks k k'

theorem Polled.mono {speaks speaks' : Bool} (himp : speaks = true → speaks' = true) (h : Polled speaks k k') :
    Polled speaks' k k' := by
  cases h with
  | quiet same => exact .quiet same
  | setEncodings e available => exact .setEncodings e available
  | message input ok hs isOpen => exact .message input ok (himp hs) isOpen
  | accepted hs audio events => exact .accepted (himp hs) audio events

theorem sameAudio_closing {close : Bool} (h : SameAudio k k') : SameAudio k (closing (k', close)) := by
  unfold closing
  split
  · exact h.closed
  · exact h

theorem sameAudio_continuousHandleMessage (input : SocketInput) :
    SameAudio k (closing (k.continuousHandleMessage input)) := by
  unfold continuousHandleMessage
  split
  · exact sameAudio_closing .refl
  · cases input.readExact 9 with
    | none => exact sameAudio_closing .refl
    | some read => exact sameAudio_closing ⟨rfl, (sameAudio_record (k := k) rfl).events, id⟩

/-- A message of the client, other than an audio message, does no more than `SetEncodings`. -/
theorem handle_polled (width height : UInt16) (available : Bool) (isOpen : k.sock.isSome = true)
    (message : ClientMessage) :
    Polled (message matches .audio ..) k (closing (k.handle width height available message)) := by
  cases message with
  | other reply ublen =>
    exact .quiet (sameAudio_closing ⟨rfl, (@sameAudio_record k (.reply reply) rfl).events, id⟩)
  | clientInit serverInit =>
    simp only [handle]
    split
    · exact .quiet (sameAudio_closing .refl)
    · exact .quiet (sameAudio_closing
        ⟨rfl, (@sameAudio_record k (.serverInit width height serverInit) rfl).events, id⟩)
  | setEncodings e =>
    simp only [handle]
    split
    · exact .setEncodings e available
    · exact .quiet (sameAudio_closing .refl)
  | updateRequest x y w h incremental =>
    simp only [handle]
    split
    · exact .quiet (sameAudio_closing ⟨rfl, (@sameAudio_record k (.request _ incremental) rfl).events, id⟩)
    · exact .quiet (sameAudio_closing .refl)
  | continuousUpdates input =>
    simp only [handle]
    split
    · exact .quiet (sameAudio_continuousHandleMessage input)
    · exact .quiet (sameAudio_closing .refl)
  | audio input ok =>
    simp only [handle]
    split
    · exact .message input ok rfl isOpen
    · exact .quiet (sameAudio_closing .refl)
  | close => exact .quiet (sameAudio_closing .refl)

end Client

namespace Server
open Client (SameAudio Polled closing)
variable {s t u : Server}

theorem handle_client_self (c : ClientPtr) (message : ClientMessage) : (s.handle c message).client c =
    closing ((s.client c).handle s.screenWidth s.screenHeight s.audioAvailable message) := by
  unfold handle closing
  dsimp only
  split
  · rw [rfbCloseClient_client_self, modify_client_self]
  · rw [modify_client_self]

theorem checkFd_polled {event : LibraryEvent} (h : s.checkFd event = some t) (c : ClientPtr) :
    Polled (event.speaks c) (s.client c) (t.client c) := by
  cases event with
  | accept d fd version =>
    simp only [checkFd, Option.ite_none_right_eq_some, Option.some.injEq] at h
    obtain ⟨-, rfl⟩ := h
    by_cases hdc : d = c
    · subst hdc
      rw [accept_client_self]
      exact .accepted (by simp [LibraryEvent.speaks]) rfl rfl
    · rw [accept_client_of_ne (Ne.symm hdc)]
      exact .quiet .refl
  | message d message =>
    simp only [checkFd, Option.ite_none_right_eq_some, Option.some.injEq] at h
    obtain ⟨⟨-, hreadable⟩, rfl⟩ := h
    have hopen : (s.client d).sock.isSome = true := by
      unfold readable at hreadable
      cases hs : (s.client d).sock with
      | none => simp [hs] at hreadable
      | some fd => rfl
    by_cases hdc : d = c
    · subst hdc
      rw [handle_client_self]
      refine (Client.handle_polled s.screenWidth s.screenHeight s.audioAvailable hopen message).mono fun hm => ?_
      cases message <;> simp [LibraryEvent.speaks] at hm ⊢
    · rw [(handle_eq d message).2.1 c (Ne.symm hdc)]
      exact .quiet .refl

theorem rfbCheckFds_polled {events : List LibraryEvent} (h : s.rfbCheckFds events = some t) (c : ClientPtr) :
    ReflTransGen (Polled (events.any (·.speaks c))) (s.client c) (t.client c) := by
  induction events generalizing s with
  | nil =>
    obtain rfl : s = t := by simpa [rfbCheckFds] using h
    exact .refl
  | cons event events ih =>
    simp only [rfbCheckFds, List.foldlM_cons, Option.bind_eq_bind, Option.bind_eq_some_iff] at h
    obtain ⟨u, hu, h⟩ := h
    refine ReflTransGen.head ((checkFd_polled hu c).mono fun hs => by simp [hs]) ?_
    exact ReflTransGen.mono (r := Polled (events.any (·.speaks c)))
      (fun k k' hp => hp.mono fun hs => by simp [hs]) _ _ (ih h)

theorem checkFd_stays {event : LibraryEvent} (h : s.checkFd event = some t) {c : ClientPtr}
    (silent : event.speaks c = false) (hc : c ∈ t.clients) : c ∈ s.clients := by
  cases event with
  | accept d fd version =>
    simp only [checkFd, Option.ite_none_right_eq_some, Option.some.injEq] at h
    obtain ⟨-, rfl⟩ := h
    have hdc : d ≠ c := by simpa [LibraryEvent.speaks] using silent
    exact (List.mem_cons.mp hc).resolve_left hdc.symm
  | message d message =>
    simp only [checkFd, Option.ite_none_right_eq_some, Option.some.injEq] at h
    obtain ⟨-, rfl⟩ := h
    rwa [(handle_eq d message).1] at hc

theorem rfbCheckFds_stays {events : List LibraryEvent} (h : s.rfbCheckFds events = some t) {c : ClientPtr}
    (silent : events.any (·.speaks c) = false) (hc : c ∈ t.clients) : c ∈ s.clients := by
  induction events generalizing s with
  | nil =>
    obtain rfl : s = t := by simpa [rfbCheckFds] using h
    exact hc
  | cons event events ih =>
    simp only [rfbCheckFds, List.foldlM_cons, Option.bind_eq_bind, Option.bind_eq_some_iff] at h
    obtain ⟨u, hu, h⟩ := h
    rw [List.any_cons, Bool.or_eq_false_iff] at silent
    exact checkFd_stays hu silent.1 (ih h silent.2)

theorem pollClientEvents_polled {env : PollEnv} (h : s.pollClientEvents env = some t) (c : ClientPtr) :
    ReflTransGen (Polled (env.events.any (·.speaks c))) (s.client c) (t.client c) ∧
      (env.events.any (·.speaks c) = false → c ∈ t.clients → c ∈ s.clients) := by
  simp only [pollClientEvents, Option.map_eq_some_iff] at h
  obtain ⟨v, hv, rfl⟩ := h
  have hflushed : Hushed s (flushJPEGWrites env.now env.sendmsg s s.clients) := hushed_flushJPEGWrites _ _ _
  generalize flushJPEGWrites env.now env.sendmsg s s.clients = u at hflushed hv
  have hreaped := hflushed.trans (hushed_reapClosed u.clients)
  generalize reapClosed u u.clients = w at hreaped hv
  have hrest := (hushed_restoreFds (s := v) w.deferred).trans (hushed_reapClosed (restoreFds v w.deferred).clients)
  constructor
  · refine ReflTransGen.head (.quiet (hreaped.client c)) (ReflTransGen.tail ?_ (.quiet (hrest.client c)))
    exact rfbCheckFds_polled hv c
  · intro hsilent hc
    exact hreaped.stays (rfbCheckFds_stays hv hsilent (hrest.stays hc))

/-! ### The steps of the server -/

theorem processAudioLoop_client (queued : List (List Int16)) (ok : ClientPtr → Nat → Bool) {list : List ClientPtr}
    (nodup : list.Nodup) (c : ClientPtr) :
    ((processAudioLoop queued ok s list).1.client c =
      if c ∈ list then ((s.client c).processAudio s.width s.height queued (ok c)).1 else s.client c) ∧
    (c ∈ (processAudioLoop queued ok s list).2 ↔
      c ∈ list ∧ ((s.client c).processAudio s.width s.height queued (ok c)).2 = true) := by
  induction list generalizing s with
  | nil => simp [processAudioLoop]
  | cons d rest ih =>
    obtain ⟨hnew, hrest⟩ := List.nodup_cons.mp nodup
    rw [processAudioLoop]
    dsimp only
    have ih := ih hrest (s := s.modify d fun _ => ((s.client d).processAudio s.width s.height queued (ok d)).1)
    by_cases hcd : c = d
    · subst hcd
      simp only [hnew, if_false, false_and, iff_false, modify_client_self] at ih
      refine ⟨by simpa using ih.1, ?_⟩
      split <;> simp_all
    · have hsize : ∀ f, (s.modify d f).width = s.width ∧ (s.modify d f).height = s.height := fun _ => ⟨rfl, rfl⟩
      simp only [modify_client_of_ne hcd, hsize] at ih
      refine ⟨by simpa [hcd] using ih.1, ?_⟩
      split <;> simpa [hcd] using ih.2

/-- `ProcessAudio` for one client: it is left alone unless it is there. -/
theorem processAudio_client (nodup : s.clients.Nodup) (ok : ClientPtr → Nat → Bool) (c : ClientPtr) :
    (s.processAudio ok).client c =
      if c ∈ s.clients then closing ((s.client c).processAudio s.width s.height s.audioQueue (ok c)) else s.client c := by
  have h := processAudioLoop_client (s := { s with audioQueue := [] }) s.audioQueue ok nodup c
  unfold processAudio
  dsimp only
  rw [closeClients_client, h.1]
  unfold closing
  by_cases hc : c ∈ s.clients
  · cases hclose : ((s.client c).processAudio s.width s.height s.audioQueue (ok c)).2 with
    | true => rw [if_pos (h.2.mpr ⟨hc, hclose⟩), if_pos hc, if_pos hc, if_pos rfl]
    | false =>
      have hopen : c ∉ (processAudioLoop s.audioQueue ok { s with audioQueue := [] } s.clients).2 := fun hin => by
        rw [(h.2.mp hin).2] at hclose
        cases hclose
      rw [if_neg hopen, if_pos hc, if_pos hc, if_neg Bool.false_ne_true]
  · rw [if_neg (fun hin => hc (h.2.mp hin).1), if_neg hc, if_neg hc]

theorem processAudioLoop_clients (queued : List (List Int16)) (ok : ClientPtr → Nat → Bool) (list : List ClientPtr) :
    (processAudioLoop queued ok s list).1.clients = s.clients := by
  induction list generalizing s with
  | nil => rfl
  | cons d rest ih => exact ih

/-- What a step does to the audio of a client, and which clients there can be after it. -/
inductive AudioStep (s : Server) (action : ServerAction) (c : ClientPtr) (t : Server) : Prop
  | hushed (same : Hushed s t) (other : ∀ ok, action ≠ .processAudio ok)
  | polled (env : PollEnv) (h : action = .pollClientEvents env)
      (client : ReflTransGen (Polled (action.speaks c)) (s.client c) (t.client c))
      (stays : action.speaks c = false → c ∈ t.clients → c ∈ s.clients)
  | processed (ok : ClientPtr → Nat → Bool) (h : action = .processAudio ok)
      (client : t.client c = if c ∈ s.clients then
        closing ((s.client c).processAudio s.width s.height s.audioQueue (ok c)) else s.client c)
      (stays : t.clients ⊆ s.clients)

theorem step_audio (nodup : s.clients.Nodup) {action : ServerAction} (h : step decoder s action = some t)
    (c : ClientPtr) : AudioStep s action c t := by
  cases action with
  | pollClientEvents env =>
    obtain ⟨hclient, hstays⟩ := pollClientEvents_polled h c
    exact .polled env rfl hclient hstays
  | processAudio ok =>
    obtain rfl := Option.some.inj h
    refine .processed ok rfl (processAudio_client nodup ok c) ?_
    unfold processAudio
    dsimp only
    rw [closeClients_clients, processAudioLoop_clients]
    exact List.diff_subset _ _
  | processFrame env => exact .hushed (hushed_processFrame nodup h) nofun
  | setFrame frame =>
    obtain rfl := Option.some.inj h
    exact .hushed (hushed_of_same rfl rfl) nofun
  | queueAudio pcm =>
    obtain rfl := Option.some.inj h
    refine .hushed ?_ nofun
    unfold queueAudio
    split <;> exact hushed_of_same rfl rfl
  | syncSubscription =>
    obtain rfl := Option.some.inj h
    refine .hushed ?_ nofun
    unfold syncSubscription
    split
    · exact hushed_of_same rfl rfl
    · split <;> exact hushed_of_same rfl rfl
  | syncAudioSubscription =>
    obtain rfl := Option.some.inj h
    refine .hushed ?_ nofun
    unfold syncAudioSubscription
    dsimp only
    split
    · exact .refl
    · split
      · exact hushed_of_same rfl rfl
      · split <;> exact hushed_of_same rfl rfl

end Server

end OnekvmVnc
