import OnekvmVnc.Lib.Framing
import OnekvmVnc.Theorems.Server.Resize

/-! Messages to a client never interleave: its socket is a `Framing.Sender` in which only a JPEG is
    written in parts, and no other message is written while a JPEG is pending. -/

namespace OnekvmVnc

open Framing

variable {decoder : JPEGDecoder}

namespace ClientEvent

def HasHeader : ClientEvent → Prop
  | .jpeg _ header => header ≠ []
  | _ => False

theorem bytes_ne_nil {event : ClientEvent} (h : event.HasHeader) : event.bytes ≠ [] := by
  cases event with
  | jpeg frame header => exact List.append_ne_nil_of_left_ne_nil h frame.data
  | _ => exact h.elim

end ClientEvent

namespace Client
variable {s : Server} {k k' : Client}

/-- The messages of the server to the client, in order. -/
def outputs (k : Client) : List ClientEvent := (k.history.map (·.event)).filter (·.isOutput)

/-- The writing end of the client's socket. -/
def sender (k : Client) : Sender ClientEvent UInt8 where
  isOpen := k.sock.isSome
  messages := k.outputs
  wire := k.wire
  pending := k.data.pendingJPEG.map fun frame => (.jpeg frame k.data.jpegHeader, k.data.jpegWritten)

abbrev SenderStep : Sender ClientEvent UInt8 → Sender ClientEvent UInt8 → Prop :=
  Sender.Step ClientEvent.bytes ClientEvent.HasHeader

theorem outputs_record_of_isOutput (event : ClientEvent) (h : event.isOutput = true) :
    (k.record event).outputs = k.outputs ++ [event] := by
  simp [outputs, record, h]

theorem outputs_record_of_not (event : ClientEvent) (h : event.isOutput = false) :
    (k.record event).outputs = k.outputs := by
  simp [outputs, record, h]

theorem sender_pending_none (h : k.data.pendingJPEG = none) : k.sender.pending = none := by
  simp [sender, h]

theorem sender_output (event : ClientEvent) (h : event.isOutput = true) (isOpen : k.sock.isSome = true)
    (idle : k.data.pendingJPEG = none) (wire : k'.wire = k.wire ++ event.bytes)
    (outputs : k'.outputs = (k.record event).outputs) (sock : k'.sock = k.sock)
    (pending : k'.data.pendingJPEG = k.data.pendingJPEG) : SenderStep k.sender k'.sender := by
  have hsender : k'.sender = { k.sender with
      messages := k.sender.messages ++ [event], wire := k.sender.wire ++ event.bytes } := by
    simp [sender, wire, outputs, sock, pending, idle, outputs_record_of_isOutput event h]
  rw [hsender]
  exact .write event isOpen (sender_pending_none idle)

/-- What `FlushJPEGWrites` does to a client is a step of its sender. -/
theorem sender_flushJPEG {now : Int} {result : SendResult} {close : Bool} (h : k.flushJPEG now result = (k', close)) :
    k'.sender = k.sender ∧ close = false ∨ SenderStep k.sender k'.sender ∧ close = false ∨
      close = true ∧ k' = { k with data := { k.data with pendingJPEG := none } } := by
  unfold flushJPEG at h
  split at h
  · rename_i fd frame hsock hpending
    split at h
    · cases h
      exact .inr (.inr ⟨rfl, rfl⟩)
    · dsimp only at h
      split at h
      · cases h
        exact .inl ⟨rfl, rfl⟩
      · cases h
        exact .inr (.inr ⟨rfl, rfl⟩)
      · rename_i count
        cases h
        -- `sendmsg` took the next `count` bytes of the header and the frame.
        refine .inr (.inl ⟨?_, rfl⟩)
        have hstep : SenderStep k.sender _ := Sender.Step.advance
          (.jpeg frame k.data.jpegHeader) k.data.jpegWritten
          ((k.data.jpegHeader.drop k.data.jpegWritten ++
            frame.data.drop (k.data.jpegWritten - k.data.jpegHeader.length)).take count)
          (by simp [sender, hsock]) (by simp [sender, hpending]) (by
            rw [ClientEvent.bytes, List.drop_append]
            exact List.take_prefix _ _)
        convert hstep using 1
        simp only [sender, outputs, ClientEvent.bytes, List.length_append, Sender.mk.injEq, true_and]
        split <;> rfl
  · cases h
    exact .inl ⟨rfl, rfl⟩

/-- Every change of a client is a step of its sender, or nothing to it. -/
theorem sender_change (h : ClientChange decoder s k k') : k'.sender = k.sender ∨ SenderStep k.sender k'.sender := by
  cases h with
  | other same =>
    left
    simp only [sender, outputs, same.sock, same.wire, same.history, same.pendingJPEG, same.jpegHeader, same.jpegWritten]
  | audioMessage | audioPacket =>
    left
    rw [sender, outputs_record_of_not _ rfl]
    rfl
  | output event isOpen idle plain capability =>
    have hout : event.isOutput = true := by cases event <;> first | rfl | cases plain
    exact .inr (sender_output event hout isOpen idle rfl rfl rfl rfl)
  | serverInit bytes isOpen idle handshake => exact .inr (sender_output _ rfl isOpen idle rfl rfl rfl rfl)
  | request region incremental normal clipped =>
    left
    exact congrArg (fun messages => { k.sender with messages })
      (outputs_record_of_not (.request region incremental) rfl)
  | continuousUpdates enabled normal =>
    left
    exact congrArg (fun messages => { k.sender with messages })
      (outputs_record_of_not (.continuousUpdates enabled) rfl)
  | flushed now result h =>
    rcases sender_flushJPEG h with ⟨h, -⟩ | ⟨h, -⟩ | ⟨h, -⟩
    · exact .inl h
    · exact .inr h
    · cases h
  | expired now result h =>
    rcases sender_flushJPEG h with ⟨-, h⟩ | ⟨-, h⟩ | ⟨-, rfl⟩
    · cases h
    · cases h
    · exact .inr .abandon
  | closed => exact .inr .close
  | grown forceUpdate => exact .inl rfl
  | jpeg frame encoding now sequence needed width height h =>
    obtain ⟨idle, rest, rfl⟩ := queueJPEG_eq h
    right
    have hheader : ClientEvent.HasHeader (.jpeg frame (updateHeader frame.width frame.height encoding ++ rest)) := by
      simp [ClientEvent.HasHeader, updateHeader]
    generalize updateHeader frame.width frame.height encoding ++ rest = header at hheader ⊢
    have hstep : SenderStep k.sender { k.sender with
        messages := k.sender.messages ++ [.jpeg frame header], pending := some (.jpeg frame header, 0) } :=
      .queue (.jpeg frame header) hheader (sender_pending_none idle)
    rw [← show (k.record (.jpeg frame header)).outputs = k.sender.messages ++ [.jpeg frame header] from
      outputs_record_of_isOutput _ rfl] at hstep
    exact hstep
  | update frame result sequence needed idle latest decoded h =>
    right
    rcases sendFramebufferUpdate_cases h with ⟨hf, -⟩ | ⟨-, isOpen, bytes, ⟨-, -, rfl⟩ | ⟨-, rfl⟩⟩
    · cases hf
    · exact sender_output _ rfl isOpen idle rfl rfl rfl rfl
    · exact sender_output _ rfl isOpen idle rfl rfl rfl rfl

/-! ### Nothing is written while a JPEG is pending -/

/-- No message was written while a JPEG was pending. -/
def Unmixed (k : Client) : Prop := ∀ entry ∈ k.history, entry.event.isOutput = true → entry.pending = false

theorem Unmixed.record (h : k.Unmixed) (event : ClientEvent) (idle : event.isOutput = true → k.data.pendingJPEG = none) :
    (k.record event).Unmixed := by
  intro entry hentry hout
  rcases List.mem_append.mp hentry with hold | hnew
  · exact h entry hold hout
  · obtain rfl := List.mem_singleton.mp hnew
    rw [idle hout, Option.isSome_none]

theorem Unmixed.of_history (h : k.Unmixed) (history : k'.history = k.history) : k'.Unmixed := by
  unfold Unmixed
  rw [history]
  exact h

theorem Unmixed.change (hk : k.Unmixed) (h : ClientChange decoder s k k') : k'.Unmixed := by
  cases h with
  | other same => exact hk.of_history same.history
  | audioMessage message => exact hk.record (.audioMessage message) nofun
  | audioPacket source => exact hk.record (.audioPacket source) nofun
  | output event isOpen idle plain capability => exact (hk.record _ fun _ => idle).of_history rfl
  | serverInit bytes isOpen idle handshake => exact (hk.record _ fun _ => idle).of_history rfl
  | request region incremental normal clipped => exact (hk.record (.request region incremental) nofun).of_history rfl
  | continuousUpdates enabled normal => exact (hk.record (.continuousUpdates enabled) nofun).of_history rfl
  | flushed now result h =>
    obtain ⟨wire, pendingJPEG, jpegWritten, rfl⟩ := flushJPEG_eq h
    exact hk.of_history rfl
  | expired now result h =>
    obtain ⟨wire, pendingJPEG, jpegWritten, rfl⟩ := flushJPEG_eq h
    exact hk.of_history rfl
  | closed => exact hk.of_history rfl
  | grown forceUpdate => exact hk.of_history rfl
  | jpeg frame encoding now sequence needed width height h =>
    obtain ⟨idle, rest, rfl⟩ := queueJPEG_eq h
    exact (hk.record (.jpeg frame _) fun _ => idle).of_history rfl
  | update frame result sequence needed idle latest decoded h =>
    rcases sendFramebufferUpdate_cases h with ⟨hf, -⟩ | ⟨-, -, bytes, ⟨-, -, rfl⟩ | ⟨-, rfl⟩⟩
    · cases hf
    · exact (hk.record (.newFBSize _ _ _) fun _ => idle).of_history rfl
    · exact (hk.record (.update _ _ _ _) fun _ => idle).of_history rfl

structure Framed (k : Client) : Prop where
  valid : Sender.Valid ClientEvent.bytes ClientEvent.HasHeader k.sender
  unmixed : k.Unmixed

theorem Framed.of_eq (h : k.Framed) (sender : k'.sender = k.sender) (history : k'.history = k.history) : k'.Framed :=
  ⟨sender ▸ h.valid, h.unmixed.of_history history⟩

theorem Framed.step (h : k.Framed) (sender : SenderStep k.sender k'.sender) (unmixed : k'.Unmixed) : k'.Framed :=
  ⟨sender.valid (fun _ => ClientEvent.bytes_ne_nil) h.valid, unmixed⟩

theorem Framed.change (hk : k.Framed) (h : ClientChange decoder s k k') : k'.Framed := by
  rcases sender_change h with hsender | hsender
  · exact ⟨hsender ▸ hk.valid, hk.unmixed.change h⟩
  · exact hk.step hsender (hk.unmixed.change h)

theorem framed_newClient (s : Server) (fd : Nat) (version : List UInt8) : (s.newClient fd version).Framed := by
  have hempty : Client.Framed { sock := some fd, modifiedRegion := rectRegion 0 0 s.screenWidth.toNat s.screenHeight.toNat } :=
    ⟨Sender.valid_empty true, by intro entry hentry; cases hentry⟩
  exact hempty.step (sender_output (.reply version) rfl rfl rfl rfl rfl rfl rfl)
    ((hempty.unmixed.record _ fun _ => rfl).of_history rfl)

theorem Framed.shut (hk : k.Framed) : Framed { k with sock := none } := hk.step .close (hk.unmixed.of_history rfl)

theorem Framed.resizing (hk : k.Framed) (width height : UInt16) : (k.resizing width height).Framed := hk.of_eq rfl rfl

theorem Framed.resized (hk : k.Framed) (width height : UInt16) (bytes : List UInt8) (isOpen : k.sock.isSome = true)
    (idle : k.data.pendingJPEG = none) : (k.resized width height bytes).Framed :=
  hk.step (sender_output (.newFBSize width height bytes) rfl isOpen idle rfl rfl rfl rfl)
    ((hk.unmixed.record _ fun _ => idle).of_history rfl)

end Client

namespace Server
variable {s t : Server}

/-- Every client's socket is framed, whether the client is still there or not. -/
def Framed (s : Server) : Prop := s.clients.Nodup ∧ ∀ c, (s.client c).Framed

theorem Framed.change (hs : s.Framed) (h : Change decoder s t) : t.Framed := by
  refine ⟨h.nodup hs.1, ?_⟩
  intro c
  have hc := hs.2 c
  cases h.fate c with
  | same h stays => exact h ▸ hc
  | change h present => exact hc.change h
  | shut h stays =>
    rw [h]
    exact hc.shut
  | marked region h stays =>
    rw [h]
    exact hc.of_eq rfl rfl
  | connected fd version h =>
    rw [h]
    exact Client.framed_newClient s fd version

theorem Framed.resize (hs : s.Framed) {width height : UInt16} (h : Resized s t width height) : t.Framed := by
  refine ⟨hs.1.sublist h.clients, ?_⟩
  intro c
  have hc := (hs.2 c).resizing width height
  rcases h.client_cases c with ⟨-, -, hclient⟩ | ⟨-, -, hclient⟩ | ⟨-, -, hopen, hidle, bytes, hclient⟩
  · rw [hclient]
    exact hc
  · rw [hclient]
    exact hc.shut
  · rw [hclient]
    exact hc.resized width height bytes hopen hidle

theorem framed_start (fps : Nat) (audioAvailable : Bool) (width height : UInt16) (listening : Finset Nat) :
    (start fps audioAvailable width height listening).Framed :=
  ⟨List.nodup_nil, fun _ => ⟨Sender.valid_empty false, by intro entry hentry; cases hentry⟩⟩

end Server

/-- What was written to a client is whole messages, then at most a proper prefix of one JPEG: no message was
    written to it while a JPEG was pending. An open client has been sent everything up to that JPEG. -/
theorem messages_framed {fps : Nat} {audioAvailable : Bool} {width height : UInt16} {listening : Finset Nat}
    {actions : List ServerAction} {t : Server}
    (h : Transition.run (Server.step decoder) (Server.start fps audioAvailable width height listening) actions = some t)
    (c : ClientPtr) :
    (∀ entry ∈ (t.client c).history, entry.event.isOutput = true → entry.pending = false) ∧
      ∃ sent part, (t.client c).wire = sent.flatMap ClientEvent.bytes ++ part ∧
        (((t.client c).outputs = sent ∧ part = []) ∨
          ∃ frame header unsent, (t.client c).outputs = sent ++ .jpeg frame header :: unsent ∧
            part <+: header ++ frame.data ∧ part ≠ header ++ frame.data ∧
            ((t.client c).sock.isSome = true → unsent = [])) := by
  have hframed := (Server.run_invariant (Server.framed_start fps audioAvailable width height listening)
    (fun _ => And.left) (fun _ _ => Server.Framed.change) (fun _ _ _ _ hs => hs.resize) h).2 c
  refine ⟨hframed.unmixed, ?_⟩
  obtain ⟨sent, part, hwire, hmessages | ⟨message, unsent, hmessages, hjpeg, hprefix, hproper, hlast⟩⟩ := hframed.valid.framed
  · exact ⟨sent, part, hwire, .inl hmessages⟩
  · cases message with
    | jpeg frame header => exact ⟨sent, part, hwire, .inr ⟨frame, header, unsent, hmessages, hprefix, hproper, hlast⟩⟩
    | _ => exact hjpeg.elim

/-- A client with Tight JPEG, and 20 bytes of a frame sent to it. -/
def partialSend : List ServerAction :=
  [.pollClientEvents
    { now := 1, sendmsg := fun _ => .again, events :=
      [.accept 0 5 [82], .message 0 (.clientInit []), .message 0 (.setEncodings { tightQuality := 5 }),
        .message 0 (.updateRequest 0 0 2 1 true)] },
    .setFrame { data := [10, 20], width := 2, height := 1 },
    .processFrame { now := 2, update := fun _ => none, sendmsg := fun _ => .sent 19 }]

theorem messages_framed_partial : ∃ t, Transition.run (Server.step .grayRow) (Server.start 30 false 2 1 ∅) partialSend =
    some t ∧ (t.client 0).wire.length = 20 ∧
    (∀ entry ∈ (t.client 0).history, entry.event.isOutput = true → entry.pending = false) ∧
      ∃ sent part, (t.client 0).wire = sent.flatMap ClientEvent.bytes ++ part ∧
        (((t.client 0).outputs = sent ∧ part = []) ∨
          ∃ frame header unsent, (t.client 0).outputs = sent ++ .jpeg frame header :: unsent ∧
            part <+: header ++ frame.data ∧ part ≠ header ++ frame.data ∧
            ((t.client 0).sock.isSome = true → unsent = [])) := by
  obtain ⟨t, h, hlength⟩ : ∃ t, Transition.run (Server.step .grayRow) (Server.start 30 false 2 1 ∅) partialSend = some t ∧
      (t.client 0).wire.length = 20 := ⟨_, rfl, rfl⟩
  exact ⟨t, h, hlength, messages_framed h 0⟩

end OnekvmVnc
