import OnekvmVnc.Theorems.Server.AudioBacklog

/-! The limit on deferred audio. It is meant for what waits behind a JPEG, while `ProcessAudio` counts what it has
    just taken from the queue too, before it looks whether a JPEG is pending: a queue of more than half a second
    closes a client that nothing delays. -/

namespace OnekvmVnc

open Transition

variable {decoder : JPEGDecoder}

/-! ### The size of a packet -/

theorem length_appendAudioSample_le (output : List UInt8) (sample : Int16) (sampleFormat : UInt8) :
    (appendAudioSample output sample sampleFormat).length ≤ output.length + 4 := by
  unfold appendAudioSample
  split <;> simp [appendLE16, appendLE32]

theorem length_resample_le (source : List Int16) (format : AudioFormat) (sourceFrames limit position : Nat)
    (output : List UInt8) : (resample source format sourceFrames limit position output).1.length ≤
      output.length + 8 * ((limit - position + 47999) / 48000) := by
  fun_induction resample source format sourceFrames limit position output with
  | case1 position output hlt index fraction next left right appended ih =>
    have hframe : appended.length ≤ output.length + 8 := by
      change (if _ then _ else _ : List UInt8).length ≤ _
      split
      · exact (length_appendAudioSample_le ..).trans (by omega)
      · have hleft := length_appendAudioSample_le output left format.sampleFormat
        exact (length_appendAudioSample_le ..).trans (by omega)
    change _ ≤ _ + 8 * ((limit - (position + 48000) + 47999) / 48000) at ih
    omega
  | case2 => exact Nat.le_add_right _ _

/-- A packet has at most four bytes for each of its samples, and the bytes of one more frame. -/
theorem length_convertAudio_le (source : List Int16) (format : AudioFormat) (position : Nat) :
    (convertAudio source format position).1.length ≤ 4 * source.length + 8 := by
  unfold convertAudio
  dsimp only
  split
  · exact Nat.zero_le _
  · rename_i hvalid
    have hfrequency : format.frequency ≤ 48000 := Nat.not_lt.mp fun h => hvalid (.inr (.inr (.inl h)))
    have hlimit : source.length / 2 * format.frequency ≤ source.length / 2 * 48000 := Nat.mul_le_mul_left _ hfrequency
    have hle := length_resample_le source format (source.length / 2) (source.length / 2 * format.frequency) position []
    rw [List.length_nil] at hle
    dsimp only
    omega

theorem length_convertedAudio_le (format : AudioFormat) (position : Nat) (sources : List (List Int16)) :
    ∀ pcm ∈ (convertedAudio format position sources).1, pcm.length ≤ 4 * (sources.map List.length).sum + 8 := by
  induction sources generalizing position with
  | nil => nofun
  | cons source rest ih =>
    intro pcm hpcm
    have hfirst := length_convertAudio_le source format position
    rw [convertedAudio] at hpcm
    dsimp only at hpcm
    rw [List.map_cons, List.sum_cons]
    split at hpcm
    · have := ih _ pcm hpcm
      omega
    · obtain rfl | hrest := List.mem_cons.mp hpcm
      · omega
      · have := ih _ pcm hrest
        omega

namespace Client
variable {k : Client}

/-- A client over the limit is to be closed, and is sent nothing. -/
theorem processAudio_overloaded (enabled : k.data.audioEnabled = true) {queued : List (List Int16)}
    (full : maxDeferredAudioSamples < k.data.deferredAudioSamples + (queued.map List.length).sum) (width height : UInt16)
    (ok : Nat → Bool) : (k.processAudio width height queued ok).2 = true := by
  unfold processAudio
  rw [deferAudio_enabled enabled]
  dsimp only
  rw [enabled, decide_eq_true full]
  rfl

/-- A client within the limit that nothing delays is sent all of it. -/
theorem processAudio_within (h : k.Backlog) (isOpen : k.sock.isSome = true) (enabled : k.data.audioEnabled = true)
    (idle : k.data.pendingJPEG = none) {queued : List (List Int16)}
    (fits : k.data.deferredAudioSamples + (queued.map List.length).sum ≤ maxDeferredAudioSamples)
    (width height : UInt16) :
    (k.processAudio width height queued fun _ => true).2 = false ∧
      (k.processAudio width height queued fun _ => true).1.data.deferredAudio = [] ∧
      (k.processAudio width height queued fun _ => true).1.audioPackets = (k.settled queued).1 := by
  have hsized : ∀ pcm ∈ (k.settled queued).1, pcm.length ≤ maxAudioPacket := by
    intro pcm hpcm
    obtain hsent | hconverted := List.mem_append.mp hpcm
    · exact h.sized pcm hsent
    · have hle := length_convertedAudio_le _ _ _ pcm hconverted
      rw [List.map_append, List.sum_append, ← h.accounted] at hle
      have hlimit : maxDeferredAudioSamples = 48000 := rfl
      have hmax : maxAudioPacket = 2147483639 := rfl
      omega
  have hok : (k.processAudio width height queued fun _ => true).2 = false := processAudio_ok isOpen enabled fits hsized
  cases hrun : k.processAudio width height queued fun _ => true with
  | mk k' close =>
    rw [hrun] at hok
    obtain rfl : close = false := hok
    have hheard := processAudio_heard enabled hrun
    have hdrained := hheard.drained idle
    refine ⟨rfl, hdrained, ?_⟩
    rw [← hheard.settled, settled_drained hdrained]

end Client

namespace Server
variable {s : Server}

/-- A client that listens, and that no JPEG write delays. -/
structure Undelayed (s : Server) (c : ClientPtr) : Prop where
  present : c ∈ s.clients
  isOpen : (s.client c).sock.isSome = true
  enabled : (s.client c).data.audioEnabled = true
  idle : (s.client c).data.pendingJPEG = none

/-- A `ProcessAudio` closes no such client, unless a write to it fails, and sends it everything that was queued. -/
def UndelayedHeard (s : Server) : Prop :=
  ∀ c ok, s.Undelayed c → (∀ n, ok c n = true) →
    c ∈ (s.processAudio ok).clients ∧ ((s.processAudio ok).client c).sock = (s.client c).sock ∧
      ((s.processAudio ok).client c).data.deferredAudio = [] ∧
      ((s.processAudio ok).client c).audioPackets = ((s.client c).settled s.audioQueue).1

/-- What is queued joins what each such client has deferred without going over the limit. -/
def QueueWithin (s : Server) : Prop :=
  ∀ c, s.Undelayed c →
    (s.client c).data.deferredAudioSamples + (s.audioQueue.map List.length).sum ≤ Client.maxDeferredAudioSamples

/-- The clients that a `ProcessAudio` leaves. -/
theorem mem_processAudio (nodup : s.clients.Nodup) {ok : ClientPtr → Nat → Bool} {c : ClientPtr} :
    c ∈ (s.processAudio ok).clients ↔
      c ∈ s.clients ∧ ((s.client c).processAudio s.width s.height s.audioQueue (ok c)).2 = false := by
  have hclosing := (processAudioLoop_client (s := { s with audioQueue := [] }) s.audioQueue ok nodup c).2
  unfold processAudio
  dsimp only
  rw [closeClients_clients, processAudioLoop_clients, nodup.mem_sdiff_iff, hclosing]
  simp only [not_and, Bool.not_eq_true]
  exact ⟨fun h => ⟨h.1, h.2 h.1⟩, fun h => ⟨h.1, fun _ => h.2⟩⟩

/-- As many packets as the queue has room for are kept. -/
theorem run_queueAudio {pcm : List Int16} (hpcm : pcm ≠ []) {n : Nat}
    (hroom : s.audioQueue.length + n ≤ maxQueuedAudioFrames) :
    run (step decoder) s (List.replicate n (.queueAudio pcm)) =
      some { s with audioQueue := s.audioQueue ++ List.replicate n pcm } := by
  induction n generalizing s with
  | zero => rw [List.replicate_zero, List.replicate_zero, List.append_nil, run_nil]
  | succ n ih =>
    have hstep : step decoder s (.queueAudio pcm) = some { s with audioQueue := s.audioQueue ++ [pcm] } := by
      have hmax : maxQueuedAudioFrames = 12 := rfl
      have hkept : s.audioQueue.length - (maxQueuedAudioFrames - 1) = 0 := by omega
      rw [step, queueAudio, if_neg hpcm, hkept, List.drop_zero]
    rw [List.replicate_succ, run_cons, hstep, Option.bind_some, ih, List.replicate_succ, List.append_assoc,
      List.singleton_append]
    rw [List.length_append, List.length_singleton]
    omega

end Server

/-- In every reached state, a `ProcessAudio` leaves no client that listens, and that no JPEG write delays, without
    what was queued exactly when the queue keeps each of them within the limit. -/
theorem audio_limit_iff {s : Server} (reached : Server.Reached decoder s) : s.UndelayedHeard ↔ s.QueueWithin := by
  constructor
  · intro hheard c hc
    by_contra hfull
    obtain ⟨hpresent, -⟩ := hheard c (fun _ _ => true) hc fun _ => rfl
    have hclosed := Client.processAudio_overloaded hc.enabled (Nat.not_le.mp hfull) s.width s.height fun _ => true
    rw [((Server.mem_processAudio reached.nodup).mp hpresent).2] at hclosed
    cases hclosed
  · intro hwithin c ok hc hok
    have hall : ok c = fun _ => true := funext hok
    obtain ⟨hkept, hdrained, hpackets⟩ := Client.processAudio_within (reached.backlog c) hc.isOpen hc.enabled hc.idle
      (hwithin c hc) s.width s.height
    have hclient : (s.processAudio ok).client c =
        ((s.client c).processAudio s.width s.height s.audioQueue fun _ => true).1 := by
      rw [Server.processAudio_client reached.nodup, if_pos hc.present, hall, Client.closing, hkept]
      rfl
    refine ⟨(Server.mem_processAudio reached.nodup).mpr ⟨hc.present, by rw [hall, hkept]⟩, ?_, ?_, ?_⟩
    · rw [hclient, Client.processAudio_sock]
    · rw [hclient, hdrained]
    · rw [hclient, hpackets]

/-- A client listens, and no JPEG is ever sent to it. -/
def listenOnly : List ServerAction :=
  [.pollClientEvents
    { now := 1, sendmsg := fun _ => .again, events :=
      [.accept 0 5 [82], .message 0 (.clientInit []), .message 0 (.setEncodings { audio := true }),
        .message 0 (.audio { available := [1, 0, 0] } true)] },
    .syncAudioSubscription]

theorem run_listenOnly : ∃ s, run (Server.step .grayRow) (Server.start 30 true 2 1 ∅) listenOnly = some s ∧
    s.Undelayed 0 ∧ s.clients = [0] ∧ s.audioQueue = [] ∧ (s.client 0).data.deferredAudioSamples = 0 := by
  have hrun : ((run (Server.step .grayRow) (Server.start 30 true 2 1 ∅) listenOnly).map fun s =>
      decide (((s.client 0).sock.isSome = true ∧ (s.client 0).data.audioEnabled = true ∧
        (s.client 0).data.pendingJPEG = none) ∧ s.clients = [0] ∧ s.audioQueue = [] ∧
        (s.client 0).data.deferredAudioSamples = 0)) = some true := by decide +kernel
  obtain ⟨s, hs, hstate⟩ := Option.map_eq_some_iff.mp hrun
  obtain ⟨⟨hopen, henabled, hidle⟩, hclients, hqueue, hsamples⟩ := of_decide_eq_true hstate
  exact ⟨s, hs, ⟨hclients ▸ List.mem_singleton_self 0, hopen, henabled, hidle⟩, hclients, hqueue, hsamples⟩

/-- The largest packet that a decoder makes, 120 ms of stereo. -/
def longPacket : List Int16 := List.replicate 11520 0

/-- Five such packets are queued before a `ProcessAudio`. -/
theorem audio_limit_healthy : ∃ s, run (Server.step .grayRow) (Server.start 30 true 2 1 ∅)
      (listenOnly ++ List.replicate 5 (.queueAudio longPacket)) = some s ∧
    s.Undelayed 0 ∧ 0 ∉ (s.processAudio fun _ _ => true).clients := by
  obtain ⟨s, hs, hundelayed, hclients, hqueue, hsamples⟩ := run_listenOnly
  have hnonempty : longPacket ≠ [] := List.ne_nil_of_length_pos (by rw [longPacket, List.length_replicate]; decide)
  have hroom : s.audioQueue.length + 5 ≤ Server.maxQueuedAudioFrames := by
    rw [hqueue]
    decide
  refine ⟨_, run_append_eq_some.mpr ⟨s, hs, Server.run_queueAudio hnonempty hroom⟩,
    ⟨hundelayed.present, hundelayed.isOpen, hundelayed.enabled, hundelayed.idle⟩, fun hpresent => ?_⟩
  have hnodup : s.clients.Nodup := hclients ▸ List.nodup_singleton 0
  have hkept := ((Server.mem_processAudio
    (s := { s with audioQueue := s.audioQueue ++ List.replicate 5 longPacket }) hnodup).mp hpresent).2
  have hfull : Client.maxDeferredAudioSamples < (s.client 0).data.deferredAudioSamples +
      ((s.audioQueue ++ List.replicate 5 longPacket).map List.length).sum := by
    rw [hqueue, hsamples, List.nil_append, List.map_replicate, List.sum_replicate, longPacket, List.length_replicate]
    decide
  have hclosed := Client.processAudio_overloaded hundelayed.enabled hfull s.width s.height fun _ => true
  cases hkept.symm.trans hclosed

/-- One packet is queued for a client that listens. -/
theorem audio_limit_iff_listening : ∃ s, run (Server.step .grayRow) (Server.start 30 true 2 1 ∅)
    (listenOnly ++ List.replicate 1 (.queueAudio longPacket)) = some s ∧ (s.UndelayedHeard ↔ s.QueueWithin) := by
  obtain ⟨s, hs, -, -, hqueue, -⟩ := run_listenOnly
  have hnonempty : longPacket ≠ [] := List.ne_nil_of_length_pos (by rw [longPacket, List.length_replicate]; decide)
  have hroom : s.audioQueue.length + 1 ≤ Server.maxQueuedAudioFrames := by
    rw [hqueue]
    decide
  have hrun := run_append_eq_some.mpr ⟨s, hs, Server.run_queueAudio hnonempty hroom⟩
  exact ⟨_, hrun, audio_limit_iff ⟨_, _, _, _, _, _, hrun⟩⟩

end OnekvmVnc
