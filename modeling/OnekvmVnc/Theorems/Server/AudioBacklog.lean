import OnekvmVnc.Theorems.Server.AudioTurns

/-! Audio behind JPEG writes. A packet that is deferred is converted later, at the position where it would
    have been converted at once, so a client is sent the same data whenever its JPEG writes end. -/

namespace OnekvmVnc

open Relation Transition

variable {decoder : JPEGDecoder}

/-- The packets that `ConvertAudio` makes of a backlog, without the empty ones, and the position after it. -/
def convertedAudio (format : AudioFormat) : Nat → List (List Int16) → List (List UInt8) × Nat
  | position, [] => ([], position)
  | position, source :: rest =>
    let (pcm, next) := convertAudio source format position
    let (packets, last) := convertedAudio format next rest
    (if pcm = [] then packets else pcm :: packets, last)

theorem convertedAudio_append (format : AudioFormat) (position : Nat) (first rest : List (List Int16)) :
    convertedAudio format position (first ++ rest) =
      ((convertedAudio format position first).1 ++ (convertedAudio format (convertedAudio format position first).2 rest).1,
        (convertedAudio format (convertedAudio format position first).2 rest).2) := by
  induction first generalizing position with
  | nil => rfl
  | cons source first ih =>
    simp only [List.cons_append, convertedAudio, ih]
    split <;> simp

/-- The largest packet that `SendAudioData` accepts. -/
def maxAudioPacket : Nat := 2147483647 - 8

namespace Client
variable {k k' k'' : Client}

/-- The data of the Data messages that were written. -/
def audioPackets (k : Client) : List (List UInt8) :=
  k.audioEvents.filterMap fun
    | .audioData pcm => some pcm
    | _ => none

/-- What has been sent once the backlog and the `queued` packets are converted too, and the position then. -/
def settled (k : Client) (queued : List (List Int16)) : List (List UInt8) × Nat :=
  let (packets, position) := convertedAudio k.data.audioFormat k.data.audioResamplePosition (k.data.deferredAudio ++ queued)
  (k.audioPackets ++ packets, position)

/-- A packet that is taken is not sent yet. -/
theorem taking_audioPackets (source : List Int16) : (k.taking source).audioPackets = k.audioPackets := by
  simp [audioPackets, taking_audioEvents]

theorem audioPackets_audioData (pcm : List UInt8) : (k.output (.audioData pcm)).audioPackets = k.audioPackets ++ [pcm] := by
  simp [audioPackets, ClientEvent.isAudio]

/-- Nothing is deferred, converted or sent, and a closed client stays closed. -/
structure SameBacklog (k k' : Client) : Prop where
  enabled : k'.data.audioEnabled = k.data.audioEnabled
  format : k'.data.audioFormat = k.data.audioFormat
  position : k'.data.audioResamplePosition = k.data.audioResamplePosition
  deferred : k'.data.deferredAudio = k.data.deferredAudio
  samples : k'.data.deferredAudioSamples = k.data.deferredAudioSamples
  packets : k'.audioPackets = k.audioPackets
  sock : k'.sock.isSome = true → k.sock.isSome = true

namespace SameBacklog

theorem refl : SameBacklog k k := ⟨rfl, rfl, rfl, rfl, rfl, rfl, id⟩

theorem trans (h : SameBacklog k k') (h' : SameBacklog k' k'') : SameBacklog k k'' :=
  ⟨h'.enabled.trans h.enabled, h'.format.trans h.format, h'.position.trans h.position, h'.deferred.trans h.deferred,
    h'.samples.trans h.samples, h'.packets.trans h.packets, h.sock ∘ h'.sock⟩

theorem of_sameAudio (h : SameAudio k k') : SameBacklog k k' where
  enabled := congrArg ClientAudio.enabled h.audio
  format := congrArg ClientAudio.format h.audio
  position := congrArg ClientAudio.resamplePosition h.audio
  deferred := congrArg ClientAudio.deferred h.audio
  samples := congrArg ClientAudio.deferredSamples h.audio
  packets := congrArg (List.filterMap _) h.events
  sock := h.sock

theorem settled (h : SameBacklog k k') (queued : List (List Int16)) : k'.settled queued = k.settled queued := by
  simp only [Client.settled, h.format, h.position, h.deferred, h.packets]

/-- A message without audio data. -/
theorem output {event : ClientEvent} (h : ∀ pcm, event ≠ .audioData pcm) : SameBacklog k (k.output event) := by
  refine ⟨rfl, rfl, rfl, rfl, rfl, ?_, id⟩
  cases event <;> simp_all [audioPackets, ClientEvent.isAudio]

theorem record (message : AudioMessage) : SameBacklog k (k.record (.audioMessage message)) :=
  ⟨rfl, rfl, rfl, rfl, rfl, by simp [audioPackets, ClientEvent.isAudio], id⟩

end SameBacklog

theorem sameBacklog_sendAudioCapability {width height : UInt16} {ok sent : Bool}
    (h : k.sendAudioCapability width height ok = (k', sent)) :
    SameBacklog k k' ∧ k'.sock = k.sock ∧ k'.data.pendingJPEG = k.data.pendingJPEG := by
  rcases sendAudioCapability_cases h with ⟨-, rfl⟩ | ⟨-, -, rfl⟩ | ⟨-, rfl⟩
  · exact ⟨.refl, rfl, rfl⟩
  · exact ⟨.refl, rfl, rfl⟩
  · have hout : SameBacklog k (k.output (.audioCapability width height)) := .output nofun
    exact ⟨⟨rfl, rfl, rfl, rfl, rfl, hout.packets, id⟩, rfl, rfl⟩

theorem sameBacklog_beginAudio {ok sent : Bool} (h : k.beginAudio ok = (k', sent)) :
    SameBacklog k k' ∧ k'.sock = k.sock := by
  rcases beginAudio_cases h with ⟨-, rfl⟩ | ⟨-, -, rfl⟩ | ⟨-, -, -, rfl⟩
  · exact ⟨.refl, rfl⟩
  · exact ⟨.refl, rfl⟩
  · have hout : SameBacklog k (k.output (.audioControl 1)) := .output nofun
    exact ⟨⟨rfl, rfl, rfl, rfl, rfl, hout.packets, id⟩, rfl⟩

/-- The packets that are sent are those of the conversion, as far as the writing goes. -/
theorem sendDeferred_eq {ok : Nat → Bool} {sources : List (List Int16)} {sent : Bool}
    (h : k.sendDeferred ok sources = (k', sent)) :
    (∃ position, k'.data = { k.data with audioResamplePosition := position }) ∧ k'.sock = k.sock ∧
    (∃ packets, k'.audioPackets = k.audioPackets ++ packets ∧ ∀ pcm ∈ packets, pcm.length ≤ maxAudioPacket) ∧
    (sent = true → (k'.audioPackets, k'.data.audioResamplePosition) =
      (k.audioPackets ++ (convertedAudio k.data.audioFormat k.data.audioResamplePosition sources).1,
        (convertedAudio k.data.audioFormat k.data.audioResamplePosition sources).2)) := by
  induction sources generalizing k ok with
  | nil =>
    cases h
    exact ⟨⟨_, rfl⟩, rfl, ⟨[], by simp, by simp⟩, fun _ => by simp [convertedAudio]⟩
  | cons source rest ih =>
    rw [convertedAudio]
    cases hconverted : convertAudio source k.data.audioFormat k.data.audioResamplePosition with
    | mk pcm next =>
      have hnext : (k.taking source).data.audioResamplePosition = next := congrArg Prod.snd hconverted
      dsimp only
      rcases sendDeferred_cases h (congrArg Prod.fst hconverted) with ⟨rfl, rfl⟩ | ⟨hnil, hrest⟩ | ⟨hpcm, hfits, -, hrest⟩
      · exact ⟨⟨_, rfl⟩, rfl, ⟨[], by rw [taking_audioPackets, List.append_nil], by simp⟩, fun hs => by cases hs⟩
      · obtain ⟨⟨position, hdata⟩, hsock, ⟨packets, hpackets, hsized⟩, hsent⟩ := ih hrest
        refine ⟨⟨position, hdata⟩, hsock, ⟨packets, by rw [hpackets, taking_audioPackets], hsized⟩, fun hs => ?_⟩
        rw [hsent hs, if_pos hnil, taking_audioPackets, hnext]
        rfl
      · obtain ⟨⟨position, hdata⟩, hsock, ⟨packets, hpackets, hsized⟩, hsent⟩ := ih hrest
        have hwrote : ((k.taking source).output (.audioData pcm)).audioPackets = k.audioPackets ++ [pcm] := by
          rw [audioPackets_audioData, taking_audioPackets]
        have hwritten : ((k.taking source).output (.audioData pcm)).data.audioResamplePosition = next := hnext
        refine ⟨⟨position, hdata⟩, hsock, ⟨pcm :: packets, ?_, ?_⟩, fun hs => ?_⟩
        · rw [hpackets, hwrote]
          simp
        · intro p hp
          rcases List.mem_cons.mp hp with rfl | hp
          · exact hfits
          · exact hsized p hp
        · rw [hsent hs, if_neg hpcm, hwrote, hwritten]
          simp [taking, record, output]

/-! ### `ProcessAudio` of one client -/

/-- The packets that join the backlog of a client that listens. -/
theorem deferAudio_enabled (h : k.data.audioEnabled = true) (queued : List (List Int16)) :
    k.deferAudio queued = { k with data := { k.data with
      deferredAudio := k.data.deferredAudio ++ queued
      deferredAudioSamples := k.data.deferredAudioSamples + (queued.map List.length).sum } } := by
  rw [deferAudio, if_pos h]

/-- What `ProcessAudio` does with a client that listens, when it does not close it. -/
structure Heard (k : Client) (queued : List (List Int16)) (k' : Client) : Prop where
  enabled : k'.data.audioEnabled = true
  format : k'.data.audioFormat = k.data.audioFormat
  settled : k'.settled [] = k.settled queued
  fits : k.data.deferredAudioSamples + (queued.map List.length).sum ≤ maxDeferredAudioSamples
  drained : k.data.pendingJPEG = none → k'.data.deferredAudio = []

theorem settled_deferAudio (h : k.data.audioEnabled = true) (queued : List (List Int16)) :
    (k.deferAudio queued).settled [] = k.settled queued := by
  rw [deferAudio_enabled h]
  simp [settled, audioPackets, audioEvents]

theorem processAudio_heard {width height : UInt16} {queued : List (List Int16)} {ok : Nat → Bool}
    (henabled : k.data.audioEnabled = true) (h : k.processAudio width height queued ok = (k', false)) :
    Heard k queued k' := by
  have hsettled := settled_deferAudio henabled queued
  have hdefer := deferAudio_enabled henabled queued
  have hpass := processAudio_pass k width height queued ok
  rw [h] at hpass
  generalize k.deferAudio queued = k₀ at hsettled hdefer hpass
  have henabled₀ : k₀.data.audioEnabled = true := by rw [hdefer]; exact henabled
  have hformat : k₀.data.audioFormat = k.data.audioFormat := by rw [hdefer]
  have hfits (fits : k₀.data.audioEnabled = true → k₀.data.deferredAudioSamples ≤ maxDeferredAudioSamples) :
      k.data.deferredAudioSamples + (queued.map List.length).sum ≤ maxDeferredAudioSamples := by
    simpa [hdefer] using fits henabled₀
  cases hpass with
  | delayed fits pending =>
    refine ⟨henabled₀, hformat, hsettled, hfits fits, fun hnone => ?_⟩
    rw [hdefer] at pending
    simp [hnone] at pending
  | silent fits idle capability nothing =>
    obtain ⟨hsame, -, -⟩ := sameBacklog_sendAudioCapability capability
    have henabled₁ := hsame.enabled.trans henabled₀
    exact ⟨henabled₁, hsame.format.trans hformat, (hsame.settled []).trans hsettled, hfits fits,
      fun _ => nothing.resolve_left (by simp [henabled₁])⟩
  | sent fits idle capability enabled begun deferred =>
    have hsame := (sameBacklog_sendAudioCapability capability).1.trans (sameBacklog_beginAudio begun).1
    obtain ⟨⟨position, hdata⟩, -, -, hsent⟩ := sendDeferred_eq deferred
    refine ⟨?_, ?_, ?_, hfits fits, fun _ => rfl⟩
    · simp [hdata, hsame.enabled, henabled₀]
    · simp [hdata, hsame.format, hformat]
    · rw [← hsettled, ← hsame.settled]
      have hpair := hsent rfl
      simp only [settled, List.append_nil, convertedAudio]
      exact hpair

/-! ### A client that no JPEG write delays -/

theorem sendDeferred_ok {sources : List (List Int16)} (isOpen : k.sock.isSome = true)
    (sized : ∀ pcm ∈ (convertedAudio k.data.audioFormat k.data.audioResamplePosition sources).1,
      pcm.length ≤ maxAudioPacket) : (k.sendDeferred (fun _ => true) sources).2 = true := by
  induction sources generalizing k with
  | nil => rfl
  | cons source rest ih =>
    rw [sendDeferred]
    rw [convertedAudio] at sized
    dsimp only at sized ⊢
    cases hconverted : convertAudio source k.data.audioFormat k.data.audioResamplePosition with
    | mk pcm next =>
      rw [hconverted] at sized
      dsimp only at sized ⊢
      by_cases hnil : pcm = []
      · rw [if_pos hnil] at sized
        simp only [sendAudioData, hnil, if_true]
        exact ih (k := { k.record (.audioPacket source) with data := { k.data with audioResamplePosition := next } })
          isOpen sized
      · rw [if_neg hnil] at sized
        have hsize : ¬ pcm.length > 2147483647 - 8 := not_lt.mpr (sized pcm List.mem_cons_self)
        have hopen : (k.record (.audioPacket source)).sock.isSome = true := isOpen
        simp only [sendAudioData, hnil, hsize, if_false, writeExact, hopen, Bool.and_true, if_true]
        exact ih (k := output { k.record (.audioPacket source) with
          data := { k.data with audioResamplePosition := next } } (.audioData pcm)) isOpen
            fun p hp => sized p (List.mem_cons_of_mem _ hp)

theorem sendAudioCapability_ok {width height : UInt16} (isOpen : k.sock.isSome = true) :
    (k.sendAudioCapability width height true).2 = true := by
  unfold sendAudioCapability writeExact
  split
  · simp [isOpen]
  · rfl

theorem beginAudio_ok (isOpen : k.sock.isSome = true) : (k.beginAudio true).2 = true := by
  unfold beginAudio writeExact
  split
  · rfl
  · simp [isOpen]

theorem processAudio_ok {width height : UInt16} {queued : List (List Int16)} (isOpen : k.sock.isSome = true)
    (enabled : k.data.audioEnabled = true)
    (fits : k.data.deferredAudioSamples + (queued.map List.length).sum ≤ maxDeferredAudioSamples)
    (sized : ∀ pcm ∈ (k.settled queued).1, pcm.length ≤ maxAudioPacket) :
    (k.processAudio width height queued fun _ => true).2 = false := by
  have hsettled := settled_deferAudio enabled queued
  have hdefer := deferAudio_enabled enabled queued
  have hpass := processAudio_pass k width height queued fun _ => true
  generalize k.deferAudio queued = k₀ at hsettled hdefer hpass
  have hopen : k₀.sock.isSome = true := by rw [hdefer]; exact isOpen
  generalize k.processAudio width height queued (fun _ => true) = r at hpass
  cases hpass with
  | delayed | silent | sent => rfl
  | overloaded _ full =>
    rw [hdefer] at full
    exact absurd fits (not_le.mpr full)
  | unannounced _ capability =>
    have hsent : (k₀.sendAudioCapability width height true).2 = true := sendAudioCapability_ok hopen
    rw [capability] at hsent
    cases hsent
  | @unbegun k₁ _ _ capability _ begun =>
    have hopen₁ : k₁.sock.isSome = true := by
      rw [(sameBacklog_sendAudioCapability capability).2.1]
      exact hopen
    have hsent : (k₁.beginAudio true).2 = true := beginAudio_ok hopen₁
    rw [begun] at hsent
    cases hsent
  | @broken k₁ k₂ k₃ _ capability _ begun deferred =>
    obtain ⟨hsame, hsock, -⟩ := sameBacklog_sendAudioCapability capability
    obtain ⟨hsame', hsock'⟩ := sameBacklog_beginAudio begun
    have hopen₂ : k₂.sock.isSome = true := by rw [hsock', hsock]; exact hopen
    have hsent : (k₂.sendDeferred (fun _ => true) k₂.data.deferredAudio).2 = true := by
      refine sendDeferred_ok hopen₂ fun pcm hpcm => sized pcm ?_
      rw [← hsettled, ← (hsame.trans hsame').settled]
      simpa [settled] using .inr hpcm
    rw [deferred] at hsent
    cases hsent

/-! ### The size of a backlog -/

/-- The backlog is counted, a client that is open has a second of it at most, and what was sent could be. -/
structure Backlog (k : Client) : Prop where
  accounted : k.data.deferredAudioSamples = (k.data.deferredAudio.map List.length).sum
  bounded : k.sock.isSome = true → k.data.deferredAudioSamples ≤ maxDeferredAudioSamples
  sized : ∀ pcm ∈ k.audioPackets, pcm.length ≤ maxAudioPacket

namespace Backlog

theorem of_same (h : k.Backlog) (same : SameBacklog k k') : k'.Backlog where
  accounted := by rw [same.samples, same.deferred, h.accounted]
  bounded hopen := same.samples ▸ h.bounded (same.sock hopen)
  sized := by
    rw [same.packets]
    exact h.sized

theorem closing (h : k.Backlog) {close : Bool} : (closing (k, close)).Backlog :=
  h.of_same (.of_sameAudio (sameAudio_closing .refl))

theorem processAudio (h : k.Backlog) (width height : UInt16) (queued : List (List Int16)) (ok : Nat → Bool) :
    (Client.closing (k.processAudio width height queued ok)).Backlog := by
  have hdefer : (k.deferAudio queued).data.deferredAudioSamples =
      ((k.deferAudio queued).data.deferredAudio.map List.length).sum ∧
        (k.deferAudio queued).audioPackets = k.audioPackets ∧
        ((k.deferAudio queued).data.audioEnabled = false → k.deferAudio queued = k) := by
    unfold deferAudio
    split
    · rename_i henabled
      exact ⟨by simp [h.accounted], rfl, fun hf => by simp [henabled] at hf⟩
    · exact ⟨h.accounted, rfl, fun _ => rfl⟩
  have hpass := processAudio_pass k width height queued ok
  generalize k.deferAudio queued = k₀ at hdefer hpass
  obtain ⟨haccounted, hpackets, hsilent⟩ := hdefer
  have hsized : ∀ pcm ∈ k₀.audioPackets, pcm.length ≤ maxAudioPacket := by
    rw [hpackets]
    exact h.sized
  have hopen (fits : k₀.data.audioEnabled = true → k₀.data.deferredAudioSamples ≤ maxDeferredAudioSamples) :
      k₀.Backlog := by
    refine ⟨haccounted, fun hopen => ?_, hsized⟩
    cases henabled : k₀.data.audioEnabled with
    | true => exact fits henabled
    | false =>
      obtain rfl := hsilent henabled
      exact h.bounded hopen
  -- A client that is closed may have any backlog.
  have hshut {k' : Client} (same : SameBacklog k₀ k') : Backlog { k' with sock := none } := by
    have hclosed : Backlog { k₀ with sock := none } := ⟨haccounted, nofun, hsized⟩
    refine hclosed.of_same ⟨same.enabled, same.format, same.position, same.deferred, same.samples, same.packets, nofun⟩
  have hdrained {k₂ k₃ : Client} {all : Bool} (same : SameBacklog k₀ k₂) (deferred : k₂.sendDeferred
      (fun n => ok (n + 2)) k₂.data.deferredAudio = (k₃, all)) : Backlog { k₃ with
        data := { k₃.data with deferredAudio := [], deferredAudioSamples := 0 } } := by
    obtain ⟨-, -, ⟨packets, hpackets, hfit⟩, -⟩ := sendDeferred_eq deferred
    refine ⟨rfl, fun _ => Nat.zero_le _, fun pcm hpcm => ?_⟩
    replace hpcm : pcm ∈ k₃.audioPackets := hpcm
    rw [hpackets, same.packets] at hpcm
    exact (List.mem_append.mp hpcm).elim (hsized pcm) (hfit pcm)
  generalize k.processAudio width height queued ok = r at hpass
  cases hpass with
  | overloaded => exact hshut .refl
  | delayed fits => exact hopen fits
  | unannounced _ capability => exact hshut (sameBacklog_sendAudioCapability capability).1
  | silent fits _ capability => exact (hopen fits).of_same (sameBacklog_sendAudioCapability capability).1
  | unbegun _ capability _ begun =>
    exact hshut ((sameBacklog_sendAudioCapability capability).1.trans (sameBacklog_beginAudio begun).1)
  | broken _ capability _ begun deferred =>
    exact (hdrained ((sameBacklog_sendAudioCapability capability).1.trans (sameBacklog_beginAudio begun).1) deferred).closing
  | sent _ _ capability _ begun deferred =>
    exact hdrained ((sameBacklog_sendAudioCapability capability).1.trans (sameBacklog_beginAudio begun).1) deferred

end Backlog

/-- A backlog is dropped, counted as none. -/
theorem Backlog.dropped (h : k.Backlog) (same : SameBacklog k k') (data : ClientData) (hdeferred : data.deferredAudio = [])
    (hsamples : data.deferredAudioSamples = 0) : Backlog { k' with data } := by
  refine ⟨by simp [hdeferred, hsamples], fun _ => by simp [hsamples], ?_⟩
  change ∀ pcm ∈ k'.audioPackets, _
  rw [same.packets]
  exact h.sized

theorem sameBacklog_endAudio {ok sent : Bool} (h : k.endAudio ok = (k', sent)) : SameBacklog k k' := by
  rcases endAudio_cases h with ⟨-, rfl⟩ | ⟨-, -, rfl⟩ | ⟨-, -, -, rfl⟩
  · exact .refl
  · exact .refl
  · exact .output nofun

theorem Backlog.disableAudio (h : k.Backlog) (ok : Bool) : (Client.closing (k.disableAudio ok)).Backlog := by
  unfold Client.disableAudio
  dsimp only
  cases hend : (k.record (.audioMessage .disable)).endAudio ok with
  | mk k₁ sent => exact (h.dropped ((SameBacklog.record _).trans (sameBacklog_endAudio hend)) _ rfl rfl).closing

theorem Backlog.setAudioFormat (h : k.Backlog) (format : List UInt8) (ok : Bool) :
    (Client.closing (k.setAudioFormat format ok)).Backlog := by
  unfold Client.setAudioFormat
  dsimp only
  split
  · exact h.closing
  · cases hend : k.endAudio ok with
    | mk k₁ sent =>
      have hbacklog := h.of_same (sameBacklog_endAudio hend)
      dsimp only
      split
      · exact hbacklog.closing
      · have hrecorded := hbacklog.of_same (.record (.setFormat
          ⟨format.getD 0 0, format.getD 1 0, (format.drop 2).foldl (fun n b => n * 256 + b.toNat) 0⟩))
        refine Backlog.closing ?_
        exact ⟨hrecorded.accounted, hrecorded.bounded, hrecorded.sized⟩

theorem Backlog.audioHandleMessage (h : k.Backlog) (input : SocketInput) (ok : Bool) :
    (Client.closing (k.audioHandleMessage input ok)).Backlog := by
  have hreply := audioHandleMessage_reply (k := k) input ok
  generalize k.audioHandleMessage input ok = r at hreply
  cases hreply with
  | refused => exact h.closing
  | enable _ =>
    have hrecorded := h.of_same (.record .enable)
    refine Backlog.closing ?_
    exact ⟨hrecorded.accounted, hrecorded.bounded, hrecorded.sized⟩
  | disable => exact h.disableAudio ok
  | setFormat format => exact h.setAudioFormat format ok

theorem sameBacklog_setEncodings (e : Encodings) (available : Bool) : SameBacklog k (k.setEncodings e available) :=
  ⟨rfl, rfl, rfl, rfl, rfl, rfl, id⟩

theorem Backlog.of_polled (h : k.Backlog) {speaks : Bool} (polled : Polled speaks k k') : k'.Backlog := by
  cases polled with
  | quiet same => exact h.of_same (.of_sameAudio same)
  | setEncodings e available => exact h.of_same (sameBacklog_setEncodings e available)
  | message input ok _ _ => exact h.audioHandleMessage input ok
  | accepted _ audio events =>
    have hdeferred : k'.data.deferredAudio = [] := congrArg ClientAudio.deferred audio
    have hsamples : k'.data.deferredAudioSamples = 0 := congrArg ClientAudio.deferredSamples audio
    exact ⟨by simp [hdeferred, hsamples], fun _ => by simp [hsamples], by simp [audioPackets, events]⟩

/-- A client that sends no audio message keeps its backlog. -/
theorem sameBacklog_of_polled (h : ReflTransGen (Polled false) k k') : SameBacklog k k' := by
  induction h with
  | refl => exact .refl
  | tail _ hlast ih =>
    cases hlast with
    | quiet same => exact ih.trans (.of_sameAudio same)
    | setEncodings e available => exact ih.trans (sameBacklog_setEncodings e available)
    | message _ _ hs _ => cases hs
    | accepted hs _ _ => cases hs

/-! ### The undelayed client -/

/-- The client with no JPEG pending. -/
def withoutJPEG (k : Client) : Client := { k with data := { k.data with pendingJPEG := none } }

theorem sameBacklog_withoutJPEG : SameBacklog k k.withoutJPEG := ⟨rfl, rfl, rfl, rfl, rfl, rfl, id⟩

/-- The client after `ProcessAudio` calls that take these packets, none of which finds a JPEG pending or fails
    to write. -/
def undelayed (k : Client) (width height : UInt16) (taken : List (List (List Int16))) : Client :=
  taken.foldl (fun k queued => (k.withoutJPEG.processAudio width height queued fun _ => true).1) k

theorem undelayed_concat (width height : UInt16) (taken : List (List (List Int16))) (queued : List (List Int16)) :
    k.undelayed width height (taken ++ [queued]) =
      ((k.undelayed width height taken).withoutJPEG.processAudio width height queued fun _ => true).1 :=
  List.foldl_concat ..

theorem settled_eq (queued : List (List Int16)) : k.settled queued =
    ((k.settled []).1 ++ (convertedAudio k.data.audioFormat (k.settled []).2 queued).1,
      (convertedAudio k.data.audioFormat (k.settled []).2 queued).2) := by
  simp [settled, convertedAudio_append]

theorem settled_congr (format : k'.data.audioFormat = k.data.audioFormat) (h : k'.settled [] = k.settled [])
    (queued : List (List Int16)) : k'.settled queued = k.settled queued := by
  rw [settled_eq, h, format, ← settled_eq]

/-- With nothing deferred, what is settled has been sent. -/
theorem settled_drained (h : k.data.deferredAudio = []) : (k.settled []).1 = k.audioPackets := by
  simp [settled, h, convertedAudio]

/-- The undelayed client `k'` is ahead of a client `k` by what that one has deferred. -/
structure Ahead (k k' : Client) : Prop where
  isOpen : k'.sock.isSome = true
  enabled : k'.data.audioEnabled = true
  format : k'.data.audioFormat = k.data.audioFormat
  settled : k'.settled [] = k.settled []
  samples : k'.data.deferredAudioSamples ≤ k.data.deferredAudioSamples
  backlog : k'.Backlog

/-- A client that has listened while `ProcessAudio` took the packets, and was `k₀` before. -/
structure Listened (k₀ : Client) (taken : List (List (List Int16))) (k : Client) : Prop where
  enabled : k.data.audioEnabled = true
  format : k.data.audioFormat = k₀.data.audioFormat
  settled : k.settled [] = k₀.settled taken.flatten
  ahead : (∀ pcm ∈ (k₀.settled taken.flatten).1, pcm.length ≤ maxAudioPacket) → ∀ width height,
    Ahead k (k₀.undelayed width height taken) ∧
      (taken ≠ [] → (k₀.undelayed width height taken).data.deferredAudio = [])

@[simp] theorem deferAudio_sock (queued : List (List Int16)) : (k.deferAudio queued).sock = k.sock := by
  unfold deferAudio
  split <;> rfl

theorem processAudio_sock (width height : UInt16) (queued : List (List Int16)) (ok : Nat → Bool) :
    (k.processAudio width height queued ok).1.sock = k.sock := by
  have hdefer := deferAudio_sock (k := k) queued
  have hpass := processAudio_pass k width height queued ok
  generalize k.deferAudio queued = k₀ at hdefer hpass
  generalize k.processAudio width height queued ok = r at hpass
  rw [← hdefer]
  cases hpass with
  | overloaded | delayed => rfl
  | unannounced _ capability | silent _ _ capability _ => exact (sameBacklog_sendAudioCapability capability).2.1
  | unbegun _ capability _ begun =>
    exact (sameBacklog_beginAudio begun).2.trans (sameBacklog_sendAudioCapability capability).2.1
  | broken _ capability _ begun deferred | sent _ _ capability _ begun deferred =>
    have hsock := (sameBacklog_beginAudio begun).2.trans (sameBacklog_sendAudioCapability capability).2.1
    exact (sendDeferred_eq deferred).2.1.trans hsock

/-- The undelayed client takes the same packets and stays ahead. -/
theorem Ahead.heard {k₁ : Client} (h : Ahead k k') {queued : List (List Int16)} (heard : Heard k queued k₁)
    (sized : ∀ pcm ∈ (k.settled queued).1, pcm.length ≤ maxAudioPacket) (width height : UInt16) :
    Ahead k₁ (k'.withoutJPEG.processAudio width height queued fun _ => true).1 ∧
      (k'.withoutJPEG.processAudio width height queued fun _ => true).1.data.deferredAudio = [] := by
  have hsettled : k'.withoutJPEG.settled queued = k.settled queued := settled_congr h.format h.settled queued
  have hok := @processAudio_ok k'.withoutJPEG width height queued
    h.isOpen h.enabled (le_trans (Nat.add_le_add_right h.samples _) heard.fits) (by rwa [hsettled])
  have hsock := processAudio_sock (k := k'.withoutJPEG) width height queued fun _ => true
  have hbacklog := (h.backlog.of_same sameBacklog_withoutJPEG).processAudio width height queued fun _ => true
  cases hrun : k'.withoutJPEG.processAudio width height queued fun _ => true with
  | mk k₂ close =>
    rw [hrun] at hok hsock hbacklog
    obtain rfl : close = false := hok
    have hheard := processAudio_heard (k := k'.withoutJPEG) h.enabled hrun
    have hdrained := hheard.drained rfl
    refine ⟨⟨?_, hheard.enabled, ?_, ?_, ?_, hbacklog⟩, hdrained⟩
    · rw [hsock]
      exact h.isOpen
    · rw [hheard.format, heard.format]
      exact h.format
    · rw [hheard.settled, heard.settled, hsettled]
    · rw [(show k₂.Backlog from hbacklog).accounted, hdrained]
      exact Nat.zero_le _

theorem Listened.start (h : k.Backlog) (isOpen : k.sock.isSome = true) (enabled : k.data.audioEnabled = true) :
    Listened k [] k :=
  ⟨enabled, rfl, rfl, fun _ _ _ => ⟨⟨isOpen, enabled, rfl, rfl, le_rfl, h⟩, fun hne => absurd rfl hne⟩⟩

theorem Listened.of_same {k₀ : Client} {taken : List (List (List Int16))} (h : Listened k₀ taken k)
    (same : SameBacklog k k') : Listened k₀ taken k' := by
  refine ⟨same.enabled.trans h.enabled, same.format.trans h.format, (same.settled []).trans h.settled,
    fun sized width height => ?_⟩
  obtain ⟨ha, hdrained⟩ := h.ahead sized width height
  refine ⟨⟨ha.isOpen, ha.enabled, ha.format.trans same.format.symm, ha.settled.trans (same.settled []).symm, ?_,
    ha.backlog⟩, hdrained⟩
  rw [same.samples]
  exact ha.samples

theorem Listened.heard {k₀ : Client} {taken : List (List (List Int16))} (h : Listened k₀ taken k)
    {queued : List (List Int16)} (heard : Heard k queued k') : Listened k₀ (taken ++ [queued]) k' := by
  have hflatten : k.settled queued = k₀.settled (taken ++ [queued]).flatten := by
    rw [settled_eq, h.settled, h.format, settled_eq (k := k₀) taken.flatten, settled_eq (k := k₀) (taken ++ [queued]).flatten]
    simp [convertedAudio_append]
  refine ⟨heard.enabled, heard.format.trans h.format, heard.settled.trans hflatten, fun sized width height => ?_⟩
  rw [← hflatten] at sized
  have hprefix : ∀ pcm ∈ (k₀.settled taken.flatten).1, pcm.length ≤ maxAudioPacket := fun pcm hpcm => sized pcm (by
    rw [settled_eq, h.settled]
    exact List.mem_append_left _ hpcm)
  obtain ⟨ha, -⟩ := h.ahead hprefix width height
  rw [undelayed_concat]
  obtain ⟨hahead, hdrained⟩ := ha.heard heard sized width height
  exact ⟨hahead, fun _ => hdrained⟩

end Client

/-! ### Runs -/

namespace Server
open Client (SameBacklog Heard Listened)
variable {s t : Server} {c : ClientPtr}

theorem step_backlog (nodup : s.clients.Nodup) {action : ServerAction} (h : step decoder s action = some t)
    (hc : (s.client c).Backlog) : (t.client c).Backlog := by
  rcases step_audio nodup h c with ⟨same, -⟩ | ⟨env, -, client, -⟩ | ⟨ok, -, client, -⟩
  · exact hc.of_same (.of_sameAudio (same.client c))
  · generalize t.client c = k at client
    induction client with
    | refl => exact hc
    | tail _ hlast ih => exact ih.of_polled hlast
  · rw [client]
    split
    · exact hc.processAudio s.width s.height s.audioQueue (ok c)
    · exact hc

/-- The server can get to the state from one of its initial states. -/
def Reached (decoder : JPEGDecoder) (s : Server) : Prop :=
  ∃ fps audioAvailable width height listening actions,
    run (step decoder) (start fps audioAvailable width height listening) actions = some s

theorem Reached.nodup (h : Reached decoder s) : s.clients.Nodup := by
  obtain ⟨fps, audioAvailable, width, height, listening, actions, h⟩ := h
  exact run_nodup List.nodup_nil h

theorem Reached.backlog (h : Reached decoder s) (c : ClientPtr) : (s.client c).Backlog := by
  obtain ⟨fps, audioAvailable, width, height, listening, actions, h⟩ := h
  refine (Transition.run_invariant (P := fun u => u.clients.Nodup ∧ (u.client c).Backlog) ⟨List.nodup_nil, ?_⟩ ?_ h).2
  · exact ⟨rfl, nofun, nofun⟩
  · rintro u action v ⟨hnodup, hc⟩ hstep
    exact ⟨step_nodup hnodup hstep, step_backlog hnodup hstep hc⟩

/-- What a `ProcessAudio` takes from the queue. -/
def takenAudio (s : Server) : ServerAction → List (List (List Int16))
  | .processAudio _ => [s.audioQueue]
  | _ => []

/-- A step in which a client sends no audio message, seen from its end: it either leaves the backlog alone or is
    a `ProcessAudio` that the client has come through. -/
theorem step_silent (nodup : s.clients.Nodup) {action : ServerAction} (h : step decoder s action = some t)
    (silent : action.speaks c = false) (present : c ∈ t.clients) (isOpen : (t.client c).sock.isSome = true) :
    c ∈ s.clients ∧ (s.client c).sock.isSome = true ∧
      ((s.takenAudio action = [] ∧ SameBacklog (s.client c) (t.client c)) ∨
        ∃ ok, action = .processAudio ok ∧
          (s.client c).processAudio s.width s.height s.audioQueue (ok c) = (t.client c, false)) := by
  rcases step_audio nodup h c with ⟨same, other⟩ | ⟨env, rfl, client, stays⟩ | ⟨ok, rfl, client, stays⟩
  · refine ⟨same.stays present, (same.client c).sock isOpen, .inl ⟨?_, .of_sameAudio (same.client c)⟩⟩
    cases action with
    | processAudio ok => exact absurd rfl (other ok)
    | _ => rfl
  · rw [silent] at client
    have hsame := Client.sameBacklog_of_polled client
    exact ⟨stays silent present, hsame.sock isOpen, .inl ⟨rfl, hsame⟩⟩
  · have hin := stays present
    rw [if_pos hin] at client
    have hsock := Client.processAudio_sock (k := s.client c) s.width s.height s.audioQueue (ok c)
    cases hrun : (s.client c).processAudio s.width s.height s.audioQueue (ok c) with
    | mk k close =>
      rw [hrun] at client hsock
      cases close with
      | true =>
        rw [client] at isOpen
        cases isOpen
      | false =>
        obtain rfl : t.client c = k := client
        exact ⟨hin, hsock ▸ isOpen, .inr ⟨ok, rfl, hrun⟩⟩

/-- A span of a run in which a client listens: it has audio enabled, sends no audio message and is there, and
    open, at the end. The span ends with a `ProcessAudio` that finds no JPEG pending. -/
structure AudioSpan (decoder : JPEGDecoder) (c : ClientPtr) (s : Server) (actions : List ServerAction) (t : Server) :
    Prop where
  reached : Reached decoder s
  enabled : (s.client c).data.audioEnabled = true
  silent : ∀ action ∈ actions, action.speaks c = false
  run : run (step decoder) s actions = some t
  present : c ∈ t.clients
  isOpen : (t.client c).sock.isSome = true
  last : ∃ earlier u ok, actions = earlier ++ [.processAudio ok] ∧ Transition.run (step decoder) s earlier = some u ∧
    (u.client c).data.pendingJPEG = none

/-- The packets that the calls of a run take, call by call. -/
def taken (decoder : JPEGDecoder) (s : Server) (actions : List ServerAction) : List (List (List Int16)) :=
  collect (step decoder) takenAudio s actions

theorem run_listened (hs : Reached decoder s) (enabled : (s.client c).data.audioEnabled = true)
    {actions : List ServerAction} (silent : ∀ action ∈ actions, action.speaks c = false)
    (h : run (step decoder) s actions = some t) (present : c ∈ t.clients) (isOpen : (t.client c).sock.isSome = true) :
    Listened (s.client c) (taken decoder s actions) (t.client c) := by
  induction actions using List.reverseRecOn generalizing t with
  | nil =>
    obtain rfl : s = t := by simpa using h
    exact Listened.start (hs.backlog c) isOpen enabled
  | append_singleton earlier action ih =>
    obtain ⟨u, hu, hstep⟩ := run_concat_eq_some.mp h
    obtain ⟨hpresent, hopen, hcase⟩ := step_silent (run_nodup hs.nodup hu) hstep (silent action (by simp)) present isOpen
    have hlistened := ih (fun a ha => silent a (by simp [ha])) hu hpresent hopen
    unfold taken
    rw [collect_concat hu]
    rcases hcase with ⟨hnone, hsame⟩ | ⟨ok, rfl, hrun⟩
    · rw [hnone, List.append_nil]
      exact hlistened.of_same hsame
    · exact hlistened.heard (Client.processAudio_heard hlistened.enabled hrun)

namespace AudioSpan
variable {actions : List ServerAction}

theorem listened (h : AudioSpan decoder c s actions t) :
    Listened (s.client c) (taken decoder s actions) (t.client c) :=
  run_listened h.reached h.enabled h.silent h.run h.present h.isOpen

/-- At its end, nothing is deferred. -/
theorem drained (h : AudioSpan decoder c s actions t) : (t.client c).data.deferredAudio = [] := by
  obtain ⟨earlier, u, ok, rfl, hu, hidle⟩ := h.last
  obtain ⟨v, hv, hstep⟩ := run_concat_eq_some.mp h.run
  obtain rfl : u = v := Option.some.inj (hu.symm.trans hv)
  obtain ⟨hpresent, hopen, hcase⟩ := step_silent (run_nodup h.reached.nodup hu) hstep (h.silent _ (by simp)) h.present
    h.isOpen
  have hlistened := run_listened h.reached h.enabled (fun a ha => h.silent a (by simp [ha])) hu hpresent hopen
  rcases hcase with ⟨hnone, -⟩ | ⟨ok', -, hrun⟩
  · cases hnone
  · exact (Client.processAudio_heard hlistened.enabled hrun).drained hidle

/-- All that was taken has been converted, in order, and sent. -/
theorem packets (h : AudioSpan decoder c s actions t) :
    (t.client c).audioPackets = ((s.client c).settled (taken decoder s actions).flatten).1 := by
  rw [← Client.settled_drained h.drained, h.listened.settled]

theorem taken_ne_nil (h : AudioSpan decoder c s actions t) : taken decoder s actions ≠ [] := by
  obtain ⟨earlier, u, ok, rfl, hu, -⟩ := h.last
  unfold taken
  rw [collect_concat hu]
  simp [takenAudio]

end AudioSpan

end Server

/-- Deferring audio behind JPEG writes changes nothing of it. A client that listens has been sent, at the end, what
    it would have been sent by the same `ProcessAudio` calls had no JPEG ever been pending, and what any other
    client is sent that starts from the same backlog, format and position, of whatever server, when the same packets
    are taken. In every state, the backlog is counted, and an open client has a second of it at most. -/
theorem audio_backlog {c : ClientPtr} {s t : Server} {actions : List ServerAction}
    (h : Server.AudioSpan decoder c s actions t) :
    (∀ width height, (t.client c).audioPackets =
      ((s.client c).undelayed width height (Server.taken decoder s actions)).audioPackets) ∧
    (∀ decoder' c' s' actions' t', Server.AudioSpan decoder' c' s' actions' t' →
      (s'.client c').data.audioFormat = (s.client c).data.audioFormat →
      (s'.client c').data.audioResamplePosition = (s.client c).data.audioResamplePosition →
      (s'.client c').data.deferredAudio = (s.client c).data.deferredAudio →
      (Server.taken decoder' s' actions').flatten = (Server.taken decoder s actions).flatten →
      ∃ data, (t.client c).audioPackets = (s.client c).audioPackets ++ data ∧
        (t'.client c').audioPackets = (s'.client c').audioPackets ++ data) ∧
    (∀ u, Server.Reached decoder u → ∀ d,
      (u.client d).data.deferredAudioSamples = ((u.client d).data.deferredAudio.map List.length).sum ∧
        ((u.client d).sock.isSome = true → (u.client d).data.deferredAudioSamples ≤ 48000)) := by
  refine ⟨fun width height => ?_, fun decoder' c' s' actions' t' h' hformat hposition hdeferred htaken => ?_,
    fun u hu d => ⟨(hu.backlog d).accounted, (hu.backlog d).bounded⟩⟩
  · have hreached : Server.Reached decoder t := by
      obtain ⟨fps, audioAvailable, width, height, listening, earlier, hs⟩ := h.reached
      exact ⟨fps, audioAvailable, width, height, listening, earlier ++ actions, run_append_eq_some.mpr ⟨s, hs, h.run⟩⟩
    have hsized := (hreached.backlog c).sized
    rw [h.packets] at hsized
    obtain ⟨hahead, hdrained⟩ := h.listened.ahead hsized width height
    rw [← Client.settled_drained h.drained, ← Client.settled_drained (hdrained h.taken_ne_nil), hahead.settled]
  · refine ⟨_, h.packets, ?_⟩
    rw [h'.packets]
    simp only [Client.settled, hformat, hposition, hdeferred, htaken]

/-- A client with Tight JPEG listens. -/
def listenWithJPEG : List ServerAction :=
  [.pollClientEvents
    { now := 1, sendmsg := fun _ => .again, events :=
      [.accept 0 5 [82], .message 0 (.clientInit []), .message 0 (.setEncodings { tightQuality := 5, audio := true }),
        .message 0 (.updateRequest 0 0 2 1 true), .message 0 (.audio { available := [1, 0, 0] } true)] }]

/-- Two packets are taken, the first while a JPEG is pending. -/
def packetBehindJPEG : List ServerAction :=
  [.setFrame { data := [10, 20], width := 2, height := 1 },
    .processFrame { now := 2, update := fun _ => none, sendmsg := fun _ => .sent 5 },
    .queueAudio [256, -256],
    .processAudio fun _ _ => true,
    .pollClientEvents { now := 3, sendmsg := fun _ => .sent 100, events := [] },
    .queueAudio [512, 0]]

theorem audio_backlog_jpeg : ∃ s t,
    run (Server.step .grayRow) (Server.start 30 true 2 1 ∅) listenWithJPEG = some s ∧
      run (Server.step .grayRow) s (packetBehindJPEG ++ [.processAudio fun _ _ => true]) = some t ∧
      (t.client 0).audioPackets = [[0, 1, 0, 255], [0, 2, 0, 0]] ∧
      ∀ width height, (t.client 0).audioPackets = ((s.client 0).undelayed width height
        (Server.taken .grayRow s (packetBehindJPEG ++ [.processAudio fun _ _ => true]))).audioPackets := by
  have hrun : ((run (Server.step .grayRow) (Server.start 30 true 2 1 ∅) listenWithJPEG).map fun s =>
      ((s.client 0).data.audioEnabled,
        (run (Server.step .grayRow) s packetBehindJPEG).map fun u =>
          ((u.client 0).data.pendingJPEG.isNone,
            (run (Server.step .grayRow) u [.processAudio fun _ _ => true]).map fun t =>
              decide ((t.client 0).audioPackets = [[0, 1, 0, 255], [0, 2, 0, 0]] ∧ 0 ∈ t.clients ∧
                (t.client 0).sock.isSome = true)))) = some (true, some (true, some true)) := by decide +kernel
  obtain ⟨s, hs, hstate⟩ := Option.map_eq_some_iff.mp hrun
  obtain ⟨henabled, hstate⟩ := Prod.mk.inj hstate
  obtain ⟨u, hu, hstate⟩ := Option.map_eq_some_iff.mp hstate
  obtain ⟨hidle, hstate⟩ := Prod.mk.inj hstate
  obtain ⟨t, ht, hstate⟩ := Option.map_eq_some_iff.mp hstate
  obtain ⟨hpackets, hpresent, hopen⟩ := of_decide_eq_true hstate
  have hspan : Server.AudioSpan .grayRow 0 s (packetBehindJPEG ++ [.processAudio fun _ _ => true]) t :=
    ⟨⟨_, _, _, _, _, _, hs⟩, henabled, by decide, run_append_eq_some.mpr ⟨u, hu, ht⟩, hpresent, hopen,
      packetBehindJPEG, u, _, rfl, hu, Option.isNone_iff_eq_none.mp hidle⟩
  exact ⟨s, t, hs, hspan.run, hpackets, (audio_backlog hspan).1⟩

end OnekvmVnc
