import OnekvmVnc.Theorems.Server.AudioTurns
import OnekvmVnc.Theorems.Server.Pacing

/-! A JPEG that is written in parts. Whatever `sendmsg` makes of each call of `FlushJPEGWrites`, the client is sent
    the message from its start without a gap or a repetition, to its end or until the client is closed. -/

namespace OnekvmVnc

/-- A call of `FlushJPEGWrites`: the clock, and what `sendmsg` returns for each client. -/
structure FlushCall where
  now : Int
  sendmsg : ClientPtr → SendResult

namespace FlushCall

/-- The JPEG of a client was started more than two seconds ago. -/
def Expired (call : FlushCall) (k : Client) : Prop := call.now - k.data.jpegStarted > 2000000000

instance (call : FlushCall) (k : Client) : Decidable (call.Expired k) := inferInstanceAs (Decidable (_ > _))

end FlushCall

namespace Server

/-- `FlushJPEGWrites` of one client. -/
def flush (s : Server) (call : FlushCall) : Server := flushJPEGWrites call.now call.sendmsg s s.clients

/-- Some calls of `FlushJPEGWrites`. -/
def flushes (s : Server) (calls : List FlushCall) : Server := calls.foldl flush s

end Server

namespace Client
variable {k k' : Client} {frame : JPEGFrame}

/-! ### The scatter list -/

def jpegMessage (k : Client) (frame : JPEGFrame) : List UInt8 := k.data.jpegHeader ++ frame.data

/-- The scatter list holds what is left of the message. -/
theorem jpegChunks_bytes (k : Client) (frame : JPEGFrame) :
    (k.jpegChunks frame).flatMap JPEGChunk.bytes = (k.jpegMessage frame).drop k.data.jpegWritten := by
  have hdata (offset : Nat) : (JPEGChunk.mk frame.data offset (frame.data.length - offset)).bytes =
      frame.data.drop offset := by
    rw [JPEGChunk.bytes, List.take_of_length_le]
    rw [List.length_drop]
  have hheader : (JPEGChunk.mk k.data.jpegHeader k.data.jpegWritten
      (k.data.jpegHeader.length - k.data.jpegWritten)).bytes = k.data.jpegHeader.drop k.data.jpegWritten := by
    rw [JPEGChunk.bytes, List.take_of_length_le]
    rw [List.length_drop]
  unfold jpegChunks jpegMessage
  dsimp only
  rw [List.flatMap_append, List.flatMap_singleton, hdata, List.drop_append]
  split
  · rename_i hlt
    rw [List.flatMap_singleton, hheader, if_neg (by omega), Nat.sub_eq_zero_of_le hlt.le]
  · rename_i hge
    rw [List.flatMap_nil, List.drop_eq_nil_of_le (Nat.not_lt.mp hge)]
    congr 2
    split <;> omega

/-- No chunk is empty or ends past its buffer while something is left of the message. -/
theorem jpegChunks_inside (hlt : k.data.jpegWritten < (k.jpegMessage frame).length) (hdata : frame.data ≠ []) :
    ∀ chunk ∈ k.jpegChunks frame, (chunk.buffer = k.data.jpegHeader ∨ chunk.buffer = frame.data) ∧
      0 < chunk.length ∧ chunk.offset + chunk.length ≤ chunk.buffer.length := by
  have hpos := List.length_pos_of_ne_nil hdata
  rw [jpegMessage, List.length_append] at hlt
  intro chunk hchunk
  rw [jpegChunks, List.mem_append, List.mem_singleton] at hchunk
  obtain hmem | rfl := hchunk
  · split at hmem
    · rename_i hheader
      obtain rfl := List.mem_singleton.mp hmem
      dsimp only
      refine ⟨.inl rfl, ?_, ?_⟩ <;> omega
    · cases hmem
  · dsimp only
    refine ⟨.inr rfl, ?_, ?_⟩ <;> split <;> omega

/-- A part of the message has been written. -/
def advanced (k : Client) (frame : JPEGFrame) (part : List UInt8) : Client :=
  let written := k.data.jpegWritten + part.length
  { k with
    wire := k.wire ++ part
    data := { k.data with
      jpegWritten := written
      pendingJPEG := if written = (k.jpegMessage frame).length then none else some frame } }

/-- `FlushJPEGWrites` writes the front of its scatter list. -/
theorem flushJPEG_sent (hsock : k.sock.isSome = true) (hpending : k.data.pendingJPEG = some frame) {call : FlushCall}
    (hexpired : ¬call.Expired k) (count : Nat) : k.flushJPEG call.now (.sent count) =
      (k.advanced frame (((k.jpegChunks frame).flatMap JPEGChunk.bytes).take count), false) := by
  obtain ⟨fd, hfd⟩ := Option.isSome_iff_exists.mp hsock
  rw [jpegChunks_bytes, advanced, jpegMessage, List.drop_append, List.length_append]
  unfold flushJPEG
  rw [hfd, hpending]
  exact if_neg hexpired

/-! ### A call -/

/-- A call of `FlushJPEGWrites` for one client. -/
def flush (k : Client) (call : FlushCall) (result : SendResult) : Client := closing (k.flushJPEG call.now result)

/-- The write is given up, and the client closed. -/
def abandoned (k : Client) : Client := { k with sock := none, data := { k.data with pendingJPEG := none } }

theorem flush_skipped (h : k.sock = none ∨ k.data.pendingJPEG = none) (call : FlushCall) (result : SendResult) :
    k.flush call result = k := by
  unfold flush flushJPEG
  obtain hsock | hpending := h
  · cases hk : k.data.pendingJPEG <;> simp [hsock, closing]
  · cases hk : k.sock <;> simp [hpending, closing]

theorem flush_failed (hsock : k.sock.isSome = true) (hpending : k.data.pendingJPEG = some frame) {call : FlushCall}
    {result : SendResult} (h : call.Expired k ∨ result = .error) : k.flush call result = k.abandoned := by
  obtain ⟨fd, hfd⟩ := Option.isSome_iff_exists.mp hsock
  unfold flush flushJPEG
  rw [hfd, hpending]
  by_cases hexpired : call.Expired k
  · exact congrArg closing (if_pos hexpired)
  · obtain rfl := h.resolve_left hexpired
    exact congrArg closing (if_neg hexpired)

theorem flush_again {call : FlushCall} (h : ¬call.Expired k) : k.flush call .again = k := by
  unfold flush flushJPEG
  split
  · exact congrArg closing (if_neg h)
  · rfl

/-- Without a failure, the call writes what `sendmsg` takes. -/
theorem flush_sent (hsock : k.sock.isSome = true) (hpending : k.data.pendingJPEG = some frame) {call : FlushCall}
    (hexpired : ¬call.Expired k) (count : Nat) : k.flush call (.sent count) =
      k.advanced frame (((k.jpegMessage frame).drop k.data.jpegWritten).take count) := by
  rw [Client.flush, flushJPEG_sent hsock hpending hexpired, jpegChunks_bytes]
  rfl

/-- How far the write of a JPEG has come that began after the given wire. -/
structure JPEGWrite (frame : JPEGFrame) (started : Int) (message wire : List UInt8) (k : Client) : Prop where
  data : frame.data ≠ []
  started : k.data.jpegStarted = started
  content : k.jpegMessage frame = message
  wire : k.wire = wire ++ message.take k.data.jpegWritten
  written : k.data.jpegWritten ≤ message.length
  pending : k.data.pendingJPEG = none ∨ k.data.pendingJPEG = some frame
  partway : k.data.pendingJPEG = some frame → k.data.jpegWritten < message.length
  finished : k.data.pendingJPEG = none → (k.sock.isSome = true ↔ k.data.jpegWritten = message.length)

namespace JPEGWrite
variable {started : Int} {message wire : List UInt8}

theorem advanced (h : JPEGWrite frame started message wire k) (hsock : k.sock.isSome = true) {part : List UInt8}
    (hpart : part <+: message.drop k.data.jpegWritten) : JPEGWrite frame started message wire (k.advanced frame part) := by
  have hle : k.data.jpegWritten + part.length ≤ message.length := by
    have hlength := hpart.length_le
    have hwritten := h.written
    rw [List.length_drop] at hlength
    omega
  have hpending : (k.advanced frame part).data.pendingJPEG =
      if k.data.jpegWritten + part.length = message.length then none else some frame := by
    rw [← h.content]
    rfl
  refine ⟨h.data, h.started, h.content, ?_, hle, ?_, fun hpartway => ?_, fun hfinished => ?_⟩
  · have hnext : message.take (k.data.jpegWritten + part.length) = message.take k.data.jpegWritten ++ part := by
      rw [List.take_add, ← List.prefix_iff_eq_take.mp hpart]
    calc k.wire ++ part = wire ++ (message.take k.data.jpegWritten ++ part) := by rw [h.wire, List.append_assoc]
      _ = wire ++ message.take (k.data.jpegWritten + part.length) := by rw [hnext]
  · rw [hpending]
    split
    · exact .inl rfl
    · exact .inr rfl
  · rw [hpending] at hpartway
    split at hpartway
    · cases hpartway
    · exact Nat.lt_of_le_of_ne hle ‹_›
  · rw [hpending] at hfinished
    split at hfinished
    · exact ⟨fun _ => ‹_›, fun _ => hsock⟩
    · cases hfinished

theorem abandoned (h : JPEGWrite frame started message wire k) (hpending : k.data.pendingJPEG = some frame) :
    JPEGWrite frame started message wire k.abandoned :=
  ⟨h.data, h.started, h.content, h.wire, h.written, .inl rfl, nofun,
    fun _ => ⟨nofun, fun hwritten => absurd hwritten (Nat.ne_of_lt (h.partway hpending))⟩⟩

theorem flush (h : JPEGWrite frame started message wire k) (call : FlushCall) (result : SendResult) :
    JPEGWrite frame started message wire (k.flush call result) := by
  by_cases hskipped : k.sock = none ∨ k.data.pendingJPEG = none
  · rw [flush_skipped hskipped]
    exact h
  · obtain ⟨hsock, hpending⟩ := not_or.mp hskipped
    have hsock : k.sock.isSome = true := Option.isSome_iff_ne_none.mpr hsock
    have hpending : k.data.pendingJPEG = some frame := h.pending.resolve_left hpending
    by_cases hfailed : call.Expired k ∨ result = .error
    · rw [flush_failed hsock hpending hfailed]
      exact h.abandoned hpending
    · obtain ⟨hexpired, hresult⟩ := not_or.mp hfailed
      cases result with
      | error => exact absurd rfl hresult
      | again =>
        rw [flush_again hexpired]
        exact h
      | sent count =>
        rw [flush_sent hsock hpending hexpired, h.content]
        exact h.advanced hsock (List.take_prefix _ _)

end JPEGWrite

/-- A frame that is queued is written from the start of its message. -/
theorem jpegWrite_queued {encoding now : Int} {image previous : Nat × Nat → Option UInt16} (hdata : frame.data ≠ [])
    (h : k.queueJPEG frame encoding now image previous = (k', true)) (sequence : Nat) :
    JPEGWrite frame now (k'.jpegMessage frame) k.wire (k'.served sequence) := by
  obtain ⟨-, rest, rfl⟩ := queueJPEG_eq h
  have hpos : 0 < (updateHeader frame.width frame.height encoding ++ rest ++ frame.data).length := by
    rw [List.length_append]
    exact Nat.add_pos_right _ (List.length_pos_of_ne_nil hdata)
  refine ⟨hdata, rfl, rfl, ?_, Nat.zero_le _, .inr rfl, fun _ => hpos, nofun⟩
  exact (List.append_nil _).symm

/-- The calls that accept a frame for a client. -/
def Accepts (k : Client) (frame : JPEGFrame) (now : Int) (image previous : Nat × Nat → Option UInt16) (k' : Client) :
    Prop :=
  k.sendJPEG frame now image previous = (k', true) ∨ k.sendNativeJPEG frame now image previous = (k', true)

theorem jpegWrite_accepted {now : Int} {image previous : Nat × Nat → Option UInt16}
    (h : k.Accepts frame now image previous k') (sequence : Nat) :
    JPEGWrite frame now (k'.jpegMessage frame) k.wire (k'.served sequence) := by
  obtain h | h := h
  · unfold sendJPEG at h
    split at h
    · cases h
    · rename_i hsize
      exact jpegWrite_queued (fun hnil => hsize (.inl (List.length_eq_zero_iff.mpr hnil))) h sequence
  · unfold sendNativeJPEG at h
    dsimp only at h
    split at h
    · cases h
    · rename_i hsize
      refine jpegWrite_queued (fun hnil => hsize (.inl ?_)) h sequence
      rw [hnil]
      decide

end Client

namespace Server
variable {s : Server}

/-! ### A run -/

theorem flushJPEGWrites_not_mem {now : Int} {sendmsg : ClientPtr → SendResult} {list : List ClientPtr} {c : ClientPtr}
    (h : c ∉ list) : (flushJPEGWrites now sendmsg s list).client c = s.client c := by
  induction list generalizing s with
  | nil => rfl
  | cons d rest ih =>
    obtain ⟨hne, hrest⟩ := not_or.mp (mt List.mem_cons.mpr h)
    rw [flushJPEGWrites]
    dsimp only
    rw [ih hrest]
    split
    · rw [rfbCloseClient_client_of_ne hne, modify_client_of_ne hne]
    · rw [modify_client_of_ne hne]

theorem flush_client (call : FlushCall) {c : ClientPtr} (present : c ∈ s.clients) (nodup : s.clients.Nodup) :
    (s.flush call).client c = (s.client c).flush call (call.sendmsg c) := by
  suffices ∀ (list : List ClientPtr) (s : Server), c ∈ list → list.Nodup →
      (flushJPEGWrites call.now call.sendmsg s list).client c = (s.client c).flush call (call.sendmsg c) from
    this _ _ present nodup
  intro list
  induction list with
  | nil => nofun
  | cons d rest ih =>
    intro s hmem hnodup
    obtain ⟨hd, hrest⟩ := List.nodup_cons.mp hnodup
    rw [flushJPEGWrites]
    dsimp only
    obtain rfl | hne := eq_or_ne c d
    · rw [flushJPEGWrites_not_mem hd, Client.flush, Client.closing]
      split
      · rw [rfbCloseClient_client_self, modify_client_self]
      · rw [modify_client_self]
    · rw [ih _ ((List.mem_cons.mp hmem).resolve_left hne) hrest]
      split
      · rw [rfbCloseClient_client_of_ne hne, modify_client_of_ne hne]
      · rw [modify_client_of_ne hne]

theorem flush_clients (call : FlushCall) : (s.flush call).clients = s.clients := flushJPEGWrites_clients _ _ _

theorem flushes_clients (calls : List FlushCall) : (s.flushes calls).clients = s.clients := by
  induction calls generalizing s with
  | nil => rfl
  | cons call calls ih => exact (ih (s := s.flush call)).trans (flush_clients call)

theorem flushes_jpegWrite {c : ClientPtr} (present : c ∈ s.clients) (nodup : s.clients.Nodup) {frame : JPEGFrame}
    {started : Int} {message wire : List UInt8} (h : Client.JPEGWrite frame started message wire (s.client c)) (calls : List FlushCall) :
    Client.JPEGWrite frame started message wire ((s.flushes calls).client c) := by
  induction calls generalizing s with
  | nil => exact h
  | cons call calls ih =>
    rw [← flush_clients call] at present nodup
    refine ih present nodup ?_
    rw [flush_clients] at present nodup
    rw [flush_client call present nodup]
    exact h.flush call _

/-- Without a pending JPEG the calls leave a client as it is. -/
theorem flushes_idle {c : ClientPtr} (present : c ∈ s.clients) (nodup : s.clients.Nodup)
    (idle : (s.client c).data.pendingJPEG = none) (calls : List FlushCall) : (s.flushes calls).client c = s.client c := by
  induction calls generalizing s with
  | nil => rfl
  | cons call calls ih =>
    have hflush : (s.flush call).client c = s.client c := by
      rw [flush_client call present nodup, Client.flush_skipped (.inr idle)]
    rw [← flush_clients call] at present nodup
    exact (ih present nodup (by rw [hflush, idle])).trans hflush

/-- The write of a JPEG to a client as it stands in a state: what was written, what comes next, and what the next
    call and all later ones do. -/
structure JPEGDelivery (s : Server) (c : ClientPtr) (frame : JPEGFrame) (started : Int) (message wire : List UInt8) :
    Prop where
  wire : (s.client c).wire = wire ++ message.take (s.client c).data.jpegWritten
  written : (s.client c).data.jpegWritten ≤ message.length
  scatter : ∀ pending, (s.client c).data.pendingJPEG = some pending → pending = frame ∧
    ((s.client c).jpegChunks frame).flatMap Client.JPEGChunk.bytes = message.drop (s.client c).data.jpegWritten ∧
    message.drop (s.client c).data.jpegWritten ≠ [] ∧
    ∀ chunk ∈ (s.client c).jpegChunks frame,
      (chunk.buffer = (s.client c).data.jpegHeader ∨ chunk.buffer = frame.data) ∧
        0 < chunk.length ∧ chunk.offset + chunk.length ≤ chunk.buffer.length
  whole : ((s.client c).data.pendingJPEG = none ∧ (s.client c).sock.isSome = true) ↔
    (s.client c).data.jpegWritten = message.length
  failed : ∀ call : FlushCall, (s.client c).sock.isSome = true → (s.client c).data.pendingJPEG ≠ none →
    (call.now - started > 2000000000 ∨ call.sendmsg c = .error ↔ ((s.flush call).client c).sock = none) ∧
    (((s.flush call).client c).sock = none →
      ((s.flush call).client c).data.pendingJPEG = none ∧ ((s.flush call).client c).wire = (s.client c).wire)
  sent : ∀ call : FlushCall, (s.client c).sock.isSome = true → (s.client c).data.pendingJPEG ≠ none →
    call.now - started ≤ 2000000000 → ∀ count, call.sendmsg c = .sent count →
      ((s.flush call).client c).data.jpegWritten =
        (s.client c).data.jpegWritten + min count (message.length - (s.client c).data.jpegWritten)
  later : (s.client c).data.pendingJPEG = none → ∀ calls, (s.flushes calls).client c = s.client c

theorem jpegDelivery_of_write {c : ClientPtr} (present : c ∈ s.clients) (nodup : s.clients.Nodup) {frame : JPEGFrame}
    {started : Int} {message wire : List UInt8} (h : Client.JPEGWrite frame started message wire (s.client c)) :
    JPEGDelivery s c frame started message wire := by
  have hflush (call : FlushCall) := flush_client call present nodup
  have hexpired (call : FlushCall) : call.Expired (s.client c) ↔ call.now - started > 2000000000 := by
    rw [FlushCall.Expired, h.started]
  refine ⟨h.wire, h.written, fun pending hpending => ?_, ⟨?_, ?_⟩, fun call hsock hidle => ?_,
    fun call hsock hidle htime count hcount => ?_, fun hidle => flushes_idle present nodup hidle⟩
  · obtain rfl := Option.some.inj (hpending.symm.trans (h.pending.resolve_left (by rw [hpending]; nofun)))
    have hlt := h.partway hpending
    refine ⟨rfl, ?_, ?_, Client.jpegChunks_inside (by rwa [h.content]) h.data⟩
    · rw [Client.jpegChunks_bytes, h.content]
    · rw [Ne, List.drop_eq_nil_iff, Nat.not_le]
      exact hlt
  · rintro ⟨hnone, hsock⟩
    exact (h.finished hnone).mp hsock
  · intro hwhole
    have hnone : (s.client c).data.pendingJPEG = none :=
      h.pending.resolve_right fun hpending => absurd hwhole (Nat.ne_of_lt (h.partway hpending))
    exact ⟨hnone, (h.finished hnone).mpr hwhole⟩
  · have hpending := h.pending.resolve_left hidle
    rw [hflush, ← hexpired]
    by_cases hfailed : call.Expired (s.client c) ∨ call.sendmsg c = .error
    · rw [Client.flush_failed hsock hpending hfailed]
      exact ⟨iff_of_true hfailed rfl, fun _ => ⟨rfl, rfl⟩⟩
    · -- Without a failure the socket is left as it is.
      have hopen : ((s.client c).flush call (call.sendmsg c)).sock = (s.client c).sock := by
        obtain ⟨hfresh, hresult⟩ := not_or.mp hfailed
        cases hcase : call.sendmsg c with
        | error => exact absurd hcase hresult
        | again => rw [Client.flush_again hfresh]
        | sent count =>
          rw [Client.flush_sent hsock hpending hfresh]
          rfl
      have hne : ((s.client c).flush call (call.sendmsg c)).sock ≠ none := by
        rw [hopen]
        exact Option.isSome_iff_ne_none.mp hsock
      exact ⟨iff_of_false hfailed hne, fun hclosed => absurd hclosed hne⟩
  · have hfresh : ¬call.Expired (s.client c) := by
      rw [hexpired]
      omega
    rw [hflush, hcount, Client.flush_sent hsock (h.pending.resolve_left hidle) hfresh, h.content]
    change _ + ((message.drop (s.client c).data.jpegWritten).take count).length = _
    rw [List.length_take, List.length_drop]

theorem jpeg_written_once {c : ClientPtr} (present : c ∈ s.clients) (nodup : s.clients.Nodup) {k k' : Client}
    {frame : JPEGFrame} {started : Int} {image previous : Nat × Nat → Option UInt16}
    (accepted : k.Accepts frame started image previous k') {sequence : Nat} (queued : s.client c = k'.served sequence)
    (calls : List FlushCall) :
    JPEGDelivery (s.flushes calls) c frame started (k'.data.jpegHeader ++ frame.data) k.wire := by
  have hstart := Client.jpegWrite_accepted accepted sequence
  rw [← queued] at hstart
  have hrun := flushes_jpegWrite present nodup hstart calls
  rw [← flushes_clients calls] at present nodup
  exact jpegDelivery_of_write present nodup hrun

/-- A client that has just been given a frame of one byte. -/
def queuedByte : Client :=
  (({ sock := some 5 } : Client).sendJPEG { data := [0xff], width := 1, height := 1 } 0 (fun _ => none)
    fun _ => none).1

/-- The server that is to write that byte. -/
def byteServer : Server :=
  { fps := 30, audioAvailable := false, width := 1, height := 1, framebuffer := [0], screenWidth := 1,
    screenHeight := 1, clients := [0], client := fun _ => queuedByte.served 1 }

theorem jpeg_written_once_byte :
    JPEGDelivery (byteServer.flushes [{ now := 1, sendmsg := fun _ => .sent 7 }]) 0
      { data := [0xff], width := 1, height := 1 } 0 (queuedByte.data.jpegHeader ++ [0xff]) [] := by
  have accepted : Client.Accepts { sock := some 5 } { data := [0xff], width := 1, height := 1 } 0 (fun _ => none)
      (fun _ => none) queuedByte := .inl rfl
  have queued : byteServer.client 0 = queuedByte.served 1 := rfl
  exact jpeg_written_once (List.mem_singleton_self 0) (List.nodup_singleton 0) accepted queued _

end Server

end OnekvmVnc
