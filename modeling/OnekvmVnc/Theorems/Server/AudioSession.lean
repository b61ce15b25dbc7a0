import OnekvmVnc.Lib.Grouping
import OnekvmVnc.Theorems.Server.AudioTurns

/-! The grammar of a client's audio messages. After the capability rectangle, what the server writes is a
    word of groups: Begin, data converted with the format in force at that Begin, End. `ProcessAudio`
    opens the groups and takes a packet for each data, the messages of the client close them. -/

namespace OnekvmVnc

open Relation Transition Grouping

variable {decoder : JPEGDecoder}

/-- How far the conversion of a client's audio is: the format in force, the running position in the source, and
    the packet that has just been taken, with the position from which it is converted. -/
structure AudioConverter where
  format : AudioFormat := {}
  position : Nat := 0
  packet : Option (List Int16 × Nat) := none
  deriving DecidableEq, Repr

namespace AudioConverter

/-- The conversion after an audio message. Each packet moves the position on, and the client's own messages
    start it afresh. -/
def after (converter : AudioConverter) : ClientEvent → AudioConverter
  | .audioMessage (.setFormat format) => { format }
  | .audioMessage _ => { format := converter.format }
  | .audioPacket source =>
    { converter with
      position := (convertAudio source converter.format converter.position).2
      packet := some (source, converter.position) }
  | _ => { converter with packet := none }

/-- What an audio message adds to the word, with the format in force and the packet taken. -/
def token (converter : AudioConverter) :
    ClientEvent → List (Token AudioFormat (Option (List Int16 × Nat) × List UInt8))
  | .audioControl operation => if operation = 1 then [.opened converter.format] else [.closed]
  | .audioData pcm => [.item (converter.packet, pcm)]
  | _ => []

/-- The word of the audio messages that were written; each group is labelled with the format in force when
    it is opened, and each data comes with its packet. -/
def word (converter : AudioConverter) :
    List ClientEvent → List (Token AudioFormat (Option (List Int16 × Nat) × List UInt8))
  | [] => []
  | event :: events => converter.token event ++ (converter.after event).word events

theorem word_concat (converter : AudioConverter) (events : List ClientEvent) (event : ClientEvent) :
    converter.word (events ++ [event]) = converter.word events ++ (events.foldl after converter).token event := by
  induction events generalizing converter with
  | nil => simp [word]
  | cons e events ih => simp only [List.cons_append, word, ih, List.foldl_cons, List.append_assoc]

end AudioConverter

/-- The data is the packet that was taken for it, converted to the format from its position. -/
def AudioFormat.Converts (format : AudioFormat) (data : Option (List Int16 × Nat) × List UInt8) : Prop :=
  ∃ source position, data.1 = some (source, position) ∧ (convertAudio source format position).1 = data.2

namespace ClientEvent

/-- After the message, audio is enabled. -/
def enables (enabled : Bool) : ClientEvent → Bool
  | .audioMessage .enable => true
  | .audioMessage .disable => false
  | _ => enabled

/-- A message of the stream: Begin, data or End. -/
def isStream : ClientEvent → Bool
  | .audioControl _ | .audioData _ => true
  | _ => false

/-- A message that needs audio enabled: Begin or data. -/
def sounds : ClientEvent → Bool
  | .audioControl operation => operation = 1
  | .audioData _ => true
  | _ => false

end ClientEvent

/-- Whether the last Enable or Disable handled is an Enable. -/
def enabledAfter (events : List ClientEvent) : Bool := events.foldl ClientEvent.enables false

def converterAfter (events : List ClientEvent) : AudioConverter := events.foldl AudioConverter.after {}

/-- What has to come before an audio message: the capability, and an Enable since the last Disable. -/
def Follows (before : List ClientEvent) (event : ClientEvent) : Prop :=
  (event.isStream = true → ∃ w h, .audioCapability w h ∈ before) ∧
    (event.sounds = true → enabledAfter before = true)

/-! ### The invariant -/

/-- What the audio of a client and its messages so far say of each other. -/
structure Session (a : ClientAudio) (events : List ClientEvent) (isOpen : Bool) : Prop where
  enabled_supported : a.enabled = true → a.supported = true
  started_enabled : a.started = true → a.enabled = true
  format : a.format = (converterAfter events).format
  position : a.resamplePosition = (converterAfter events).position
  enabled : a.enabled = enabledAfter events
  announced : a.supported = true → a.capabilityPending = true ∨ ∃ w h, .audioCapability w h ∈ events
  started : a.started = true → ∃ w h, .audioCapability w h ∈ events
  follows : Along Follows events
  /-- The open group of a client that is still open is the one that it has begun. -/
  grouped : ∃ current, Grouped AudioFormat.Converts current (({} : AudioConverter).word events) ∧
    (isOpen = true → current = if a.started then some a.format else none)

namespace Session
variable {a b : ClientAudio} {events : List ClientEvent} {isOpen isOpen' : Bool} {event : ClientEvent}

theorem new : Session ({ sock := none } : Client).audio [] true where
  enabled_supported := nofun
  started_enabled := nofun
  format := rfl
  position := rfl
  enabled := rfl
  announced := nofun
  started := nofun
  follows := along_nil
  grouped := ⟨none, .nil, fun _ => rfl⟩

theorem weaken (h : Session a events isOpen) (himp : isOpen' = true → isOpen = true) : Session a events isOpen' :=
  ⟨h.enabled_supported, h.started_enabled, h.format, h.position, h.enabled, h.announced, h.started, h.follows,
    let ⟨current, hg, hc⟩ := h.grouped
    ⟨current, hg, hc ∘ himp⟩⟩

/-- What is deferred does not matter. -/
theorem of_same (h : Session a events isOpen) (supported : b.supported = a.supported)
    (pending : b.capabilityPending = a.capabilityPending) (enabled : b.enabled = a.enabled)
    (started : b.started = a.started) (format : b.format = a.format)
    (position : b.resamplePosition = a.resamplePosition) : Session b events isOpen := by
  obtain ⟨current, hg, hc⟩ := h.grouped
  refine ⟨?_, ?_, ?_, ?_, ?_, ?_, ?_, h.follows, current, hg, ?_⟩
  · rw [enabled, supported]
    exact h.enabled_supported
  · rw [started, enabled]
    exact h.started_enabled
  · rw [format, h.format]
  · rw [position, h.position]
  · rw [enabled, h.enabled]
  · rw [supported, pending]
    exact h.announced
  · rw [started]
    exact h.started
  · rw [started, format]
    exact hc

theorem setEncodings (h : Session a events isOpen) (audio : Bool) :
    Session { a with supported := a.supported || audio, capabilityPending := a.capabilityPending || audio }
      events isOpen := by
  refine ⟨fun he => ?_, h.started_enabled, h.format, h.position, h.enabled, fun hs => ?_, h.started, h.follows,
    h.grouped⟩
  · simp [h.enabled_supported he]
  · cases audio with
    | true => exact .inl (by simp)
    | false => simpa using h.announced (by simpa using hs)

theorem mem_concat {events : List ClientEvent} (h : ∃ w h, ClientEvent.audioCapability w h ∈ events) :
    ∃ w h, ClientEvent.audioCapability w h ∈ events ++ [event] := by
  obtain ⟨w, h, hmem⟩ := h
  exact ⟨w, h, List.mem_append_left _ hmem⟩

theorem converterAfter_concat : converterAfter (events ++ [event]) = (converterAfter events).after event :=
  List.foldl_concat ..

theorem enabledAfter_concat : enabledAfter (events ++ [event]) = event.enables (enabledAfter events) :=
  List.foldl_concat ..

theorem format_concat {format : AudioFormat} (h : format = ((converterAfter events).after event).format) :
    format = (converterAfter (events ++ [event])).format := by
  rw [converterAfter_concat]
  exact h

theorem position_concat {position : Nat} (h : position = ((converterAfter events).after event).position) :
    position = (converterAfter (events ++ [event])).position := by
  rw [converterAfter_concat]
  exact h

theorem enabled_concat {enabled new : Bool} (h : enabled = enabledAfter events) (hnew : new = event.enables enabled) :
    new = enabledAfter (events ++ [event]) := by
  rw [enabledAfter_concat, ← h, hnew]

/-- The capability rectangle is written. -/
theorem capability (h : Session a events isOpen) (width height : UInt16) :
    Session { a with capabilityPending := false } (events ++ [.audioCapability width height]) isOpen := by
  obtain ⟨current, hg, hc⟩ := h.grouped
  refine ⟨h.enabled_supported, h.started_enabled, ?_, ?_, ?_, fun _ => .inr ⟨width, height, by simp⟩,
    fun hs => mem_concat (h.started hs), ?_, current, ?_, hc⟩
  · exact format_concat h.format
  · exact position_concat h.position
  · exact enabled_concat h.enabled rfl
  · exact along_concat.mpr ⟨h.follows, nofun, nofun⟩
  · rw [AudioConverter.word_concat]
    simpa [AudioConverter.token] using hg

/-- The stream begins: a group is opened under the current format. -/
theorem begin (h : Session a events true) (hidle : a.started = false) (hen : a.enabled = true)
    (hpending : a.capabilityPending = false) :
    Session { a with started := true } (events ++ [.audioControl 1]) true := by
  have hcap : ∃ w h, ClientEvent.audioCapability w h ∈ events :=
    (h.announced (h.enabled_supported hen)).resolve_left (by simp [hpending])
  obtain ⟨current, hg, hc⟩ := h.grouped
  obtain rfl : current = none := by simpa [hidle] using hc rfl
  refine ⟨h.enabled_supported, fun _ => hen, ?_, ?_, ?_, fun _ => .inr (mem_concat hcap), fun _ => mem_concat hcap,
    ?_, some a.format, ?_, fun _ => rfl⟩
  · exact format_concat h.format
  · exact position_concat h.position
  · exact enabled_concat h.enabled rfl
  · exact along_concat.mpr ⟨h.follows, fun _ => hcap, fun _ => h.enabled ▸ hen⟩
  · rw [AudioConverter.word_concat]
    have hopened : (converterAfter events).token (.audioControl 1) = [.opened a.format] := by
      rw [h.format]
      rfl
    unfold converterAfter at hopened
    rw [hopened]
    exact hg.begin a.format

/-- A packet is taken from the backlog, and the position moves on. -/
theorem packet (h : Session a events isOpen) (source : List Int16) :
    Session { a with resamplePosition := (convertAudio source a.format a.resamplePosition).2 }
      (events ++ [.audioPacket source]) isOpen := by
  obtain ⟨current, hg, hc⟩ := h.grouped
  refine ⟨h.enabled_supported, h.started_enabled, ?_, ?_, ?_, fun hs => (h.announced hs).imp id mem_concat,
    fun hs => mem_concat (h.started hs), ?_, current, ?_, hc⟩
  · exact format_concat h.format
  · refine position_concat ?_
    rw [h.format, h.position]
    rfl
  · exact enabled_concat h.enabled rfl
  · exact along_concat.mpr ⟨h.follows, nofun, nofun⟩
  · rw [AudioConverter.word_concat]
    simpa [AudioConverter.token] using hg

/-- The packet that has just been taken is written, converted to the current format. -/
theorem data (h : Session a events true) (hs : a.started = true) {source : List Int16} {position : Nat}
    (taken : (converterAfter events).packet = some (source, position)) :
    Session a (events ++ [.audioData (convertAudio source a.format position).1]) true := by
  obtain ⟨current, hg, hc⟩ := h.grouped
  obtain rfl : current = some a.format := by simpa [hs] using hc rfl
  refine ⟨h.enabled_supported, h.started_enabled, ?_, ?_, ?_, fun _ => .inr (mem_concat (h.started hs)),
    fun _ => mem_concat (h.started hs), ?_, some a.format, ?_, fun _ => by simp [hs]⟩
  · exact format_concat h.format
  · exact position_concat h.position
  · exact enabled_concat h.enabled rfl
  · exact along_concat.mpr ⟨h.follows, fun _ => h.started hs, fun _ => h.enabled ▸ h.started_enabled hs⟩
  · rw [AudioConverter.word_concat]
    exact hg.item ⟨source, position, taken, rfl⟩

/-- The stream ends: the open group is closed. -/
theorem finish (h : Session a events true) (hs : a.started = true) :
    Session { a with started := false } (events ++ [.audioControl 0]) true := by
  obtain ⟨current, hg, hc⟩ := h.grouped
  obtain rfl : current = some a.format := by simpa [hs] using hc rfl
  refine ⟨h.enabled_supported, nofun, ?_, ?_, ?_, fun _ => .inr (mem_concat (h.started hs)),
    nofun, ?_, none, ?_, fun _ => rfl⟩
  · exact format_concat h.format
  · exact position_concat h.position
  · exact enabled_concat h.enabled rfl
  · exact along_concat.mpr ⟨h.follows, fun _ => h.started hs, nofun⟩
  · rw [AudioConverter.word_concat]
    exact hg.end

theorem enable (h : Session a events isOpen) (hs : a.supported = true) :
    Session { a with enabled := true, resamplePosition := 0 } (events ++ [.audioMessage .enable]) isOpen := by
  obtain ⟨current, hg, hc⟩ := h.grouped
  refine ⟨fun _ => hs, fun _ => rfl, ?_, ?_, ?_, fun _ => (h.announced hs).imp id mem_concat,
    fun hst => mem_concat (h.started hst), ?_, current, ?_, hc⟩
  · exact format_concat h.format
  · exact position_concat rfl
  · exact enabled_concat h.enabled rfl
  · exact along_concat.mpr ⟨h.follows, nofun, nofun⟩
  · rw [AudioConverter.word_concat]
    simpa [AudioConverter.token] using hg

/-- A Disable is handled; of a stream that has begun, the End is still to be written, or the client to be
    closed. -/
theorem disable (h : Session a events isOpen) (hidle : isOpen = true → a.started = false) :
    Session { a with enabled := false, started := false, resamplePosition := 0 }
      (events ++ [.audioMessage .disable]) isOpen := by
  obtain ⟨current, hg, hc⟩ := h.grouped
  refine ⟨nofun, nofun, ?_, ?_, ?_, fun hs => (h.announced hs).imp id mem_concat,
    nofun, ?_, current, ?_, fun ho => ?_⟩
  · exact format_concat h.format
  · exact position_concat rfl
  · exact enabled_concat h.enabled rfl
  · exact along_concat.mpr ⟨h.follows, nofun, nofun⟩
  · rw [AudioConverter.word_concat]
    simpa [AudioConverter.token] using hg
  · simpa [hidle ho] using hc ho

/-- A Disable is handled and the stream ends. -/
theorem disable_end (h : Session a events true) (hs : a.started = true) :
    Session { a with enabled := false, started := false, resamplePosition := 0 }
      (events ++ [.audioMessage .disable] ++ [.audioControl 0]) true := by
  have hclosed : Session a events false := h.weaken nofun
  have hd := hclosed.disable nofun
  obtain ⟨current, hg, hc⟩ := h.grouped
  obtain rfl : current = some a.format := by simpa [hs] using hc rfl
  refine ⟨nofun, nofun, ?_, ?_, ?_, fun hsup => (hd.announced hsup).imp id mem_concat,
    nofun, ?_, none, ?_, fun _ => rfl⟩
  · exact format_concat hd.format
  · exact position_concat hd.position
  · exact enabled_concat hd.enabled rfl
  · exact along_concat.mpr ⟨hd.follows, fun _ => mem_concat (h.started hs), nofun⟩
  · rw [AudioConverter.word_concat, AudioConverter.word_concat]
    exact (by simpa [AudioConverter.token] using hg : Grouped _ (some a.format) _).end

/-- A SetFormat is handled while no stream has begun. -/
theorem setFormat (h : Session a events isOpen) (hidle : a.started = false) (format : AudioFormat) :
    Session { a with format, resamplePosition := 0 } (events ++ [.audioMessage (.setFormat format)]) isOpen := by
  obtain ⟨current, hg, hc⟩ := h.grouped
  refine ⟨h.enabled_supported, h.started_enabled, ?_, ?_, ?_, fun hs => (h.announced hs).imp id mem_concat,
    fun hs => mem_concat (h.started hs), ?_, current, ?_, fun ho => ?_⟩
  · exact format_concat rfl
  · exact position_concat rfl
  · exact enabled_concat h.enabled rfl
  · exact along_concat.mpr ⟨h.follows, nofun, nofun⟩
  · rw [AudioConverter.word_concat]
    simpa [AudioConverter.token] using hg
  · simpa [hidle] using hc ho

end Session

/-! ### The functions of a client keep it -/

namespace Client
variable {k k' : Client}

def InSession (k : Client) : Prop := Session k.audio k.audioEvents k.sock.isSome

theorem InSession.of_sameAudio (h : k.InSession) (same : SameAudio k k') : k'.InSession := by
  unfold InSession
  rw [same.audio, same.events]
  exact h.weaken same.sock

theorem InSession.closed (h : k.InSession) : InSession { k with sock := none } := h.of_sameAudio SameAudio.refl.closed

theorem InSession.closing {close : Bool} (h : k.InSession) : InSession (closing (k, close)) :=
  h.of_sameAudio (sameAudio_closing .refl)

/-- What was written to an open client is recorded. -/
theorem inSession_output {d : ClientData} {event : ClientEvent} (haudio : event.isAudio = true)
    (hopen : k.sock.isSome = true)
    (h : Session { k with data := d : Client }.audio (k.audioEvents ++ [event]) true) :
    InSession { k.output event with data := d } := by
  have hevents : ({ k.output event with data := d } : Client).audioEvents = k.audioEvents ++ [event] := by
    change (k.output event).audioEvents = _
    rw [audioEvents_output, audioEvents_record_of_isAudio haudio]
  unfold InSession
  rw [hevents]
  exact hopen ▸ h

theorem InSession.session (h : k.InSession) (hopen : k.sock.isSome = true) : Session k.audio k.audioEvents true :=
  hopen ▸ h

theorem InSession.sendAudioCapability (h : k.InSession) {width height : UInt16} {ok : Bool}
    (hsend : k.sendAudioCapability width height ok = (k', true)) :
    k'.InSession ∧ k'.data.audioCapabilityPending = false ∧ k'.data.audioEnabled = k.data.audioEnabled := by
  rcases sendAudioCapability_cases hsend with ⟨hf, -⟩ | ⟨-, hpending, rfl⟩ | ⟨-, rfl⟩
  · cases hf
  · exact ⟨h, hpending, rfl⟩
  · refine ⟨?_, rfl, rfl⟩
    have hcap := Session.capability h width height
    unfold InSession
    have hevents : ({ k.output (.audioCapability width height) with
        data := { k.data with audioCapabilityPending := false } } : Client).audioEvents =
          k.audioEvents ++ [.audioCapability width height] := by
      change (k.output (.audioCapability width height)).audioEvents = _
      rw [audioEvents_output, audioEvents_record_of_isAudio rfl]
    rw [hevents]
    exact hcap

theorem InSession.beginAudio (h : k.InSession) {ok : Bool} (henabled : k.data.audioEnabled = true)
    (hpending : k.data.audioCapabilityPending = false) (hsend : k.beginAudio ok = (k', true)) :
    k'.InSession ∧ k'.data.audioStarted = true := by
  rcases beginAudio_cases hsend with ⟨hf, -⟩ | ⟨-, hstarted, rfl⟩ | ⟨-, hstarted, hopen, rfl⟩
  · cases hf
  · exact ⟨h, hstarted⟩
  · exact ⟨inSession_output rfl hopen ((h.session hopen).begin hstarted henabled hpending), rfl⟩

theorem InSession.taking (h : k.InSession) (source : List Int16) : (k.taking source).InSession := by
  have htaken := Session.packet h source
  rw [← taking_audioEvents] at htaken
  exact htaken

/-- The packet that has been taken, with the position before it. -/
theorem InSession.taken (h : k.InSession) (source : List Int16) :
    (converterAfter (k.taking source).audioEvents).packet = some (source, k.data.audioResamplePosition) := by
  have hposition : k.data.audioResamplePosition = (converterAfter k.audioEvents).position := Session.position h
  rw [taking_audioEvents, Session.converterAfter_concat, hposition]
  rfl

theorem InSession.sendDeferred (h : k.InSession) (hstarted : k.data.audioStarted = true) (ok : Nat → Bool)
    (packets : List (List Int16)) : (k.sendDeferred ok packets).1.InSession := by
  induction packets generalizing k ok with
  | nil => exact h
  | cons source rest ih =>
    have hk := h.taking source
    cases hsent : k.sendDeferred ok (source :: rest) with
    | mk k' sent =>
      rcases sendDeferred_cases hsent rfl with ⟨rfl, rfl⟩ | ⟨-, hrest⟩ | ⟨-, -, hopen, hrest⟩
      · exact hk
      · have hk' := ih hk hstarted fun n => ok (n + 1)
        rwa [hrest] at hk'
      · have hdata := (hk.session hopen).data hstarted (h.taken source)
        have hwritten : ((k.taking source).output
            (.audioData (convertAudio source k.data.audioFormat k.data.audioResamplePosition).1)).InSession :=
          inSession_output (k := k.taking source) (d := (k.taking source).data) rfl hopen hdata
        have hk' := ih hwritten hstarted fun n => ok (n + 1)
        rwa [hrest] at hk'

theorem InSession.processAudio (h : k.InSession) (width height : UInt16) (queued : List (List Int16)) (ok : Nat → Bool) :
    (k.processAudio width height queued ok).1.InSession := by
  have hdefer : (k.deferAudio queued).InSession := by
    unfold deferAudio
    split
    · exact Session.of_same h rfl rfl rfl rfl rfl rfl
    · exact h
  have hpass := processAudio_pass k width height queued ok
  generalize k.deferAudio queued = k₀ at hdefer hpass
  generalize k.processAudio width height queued ok = r at hpass
  cases hpass with
  | overloaded | delayed => exact hdefer
  | unannounced _ capability => exact sendAudioCapability_false capability ▸ hdefer
  | silent _ _ capability _ => exact (hdefer.sendAudioCapability capability).1
  | unbegun _ capability _ begun => exact beginAudio_false begun ▸ (hdefer.sendAudioCapability capability).1
  | @broken _ k₂ _ _ capability enabled begun deferred | @sent _ k₂ _ _ _ capability enabled begun deferred =>
    obtain ⟨hk₁, hpending, -⟩ := hdefer.sendAudioCapability capability
    obtain ⟨hk₂, hstarted⟩ := hk₁.beginAudio enabled hpending begun
    have hk₃ := hk₂.sendDeferred hstarted (fun n => ok (n + 2)) k₂.data.deferredAudio
    rw [deferred] at hk₃
    exact Session.of_same hk₃ rfl rfl rfl rfl rfl rfl

/-- A Disable closes the group that is open, or the client. -/
theorem InSession.disableAudio (h : k.InSession) (hopen : k.sock.isSome = true) (ok : Bool) :
    (Client.closing (k.disableAudio ok)).InSession := by
  have hsession := h.session hopen
  have hrecorded : (k.record (.audioMessage .disable)).audioEvents = k.audioEvents ++ [.audioMessage .disable] :=
    audioEvents_record_of_isAudio rfl
  unfold Client.disableAudio
  dsimp only
  cases hend : (k.record (.audioMessage .disable)).endAudio ok with
  | mk k₁ sent =>
    rcases endAudio_cases hend with ⟨rfl, rfl⟩ | ⟨rfl, hidle, rfl⟩ | ⟨rfl, hstarted, -, rfl⟩
    · have hclosed : Session k.audio k.audioEvents false := hsession.weaken nofun
      have hd := hclosed.disable nofun
      rw [← hrecorded] at hd
      exact Session.of_same hd rfl rfl rfl rfl rfl rfl
    · have hd := hsession.disable fun _ => hidle
      rw [← hrecorded, ← hopen] at hd
      exact Session.of_same hd rfl rfl rfl rfl rfl rfl
    · have hevents : ((k.record (.audioMessage .disable)).output (.audioControl 0)).audioEvents =
          k.audioEvents ++ [.audioMessage .disable] ++ [.audioControl 0] := by
        rw [audioEvents_output, audioEvents_record_of_isAudio rfl, hrecorded]
      have hd := hsession.disable_end hstarted
      rw [← hevents, ← hopen] at hd
      exact Session.of_same hd rfl rfl rfl rfl rfl rfl

/-- A SetFormat closes the group that is open before the format changes. -/
theorem InSession.setAudioFormat (h : k.InSession) (hopen : k.sock.isSome = true) (format : List UInt8) (ok : Bool) :
    (Client.closing (k.setAudioFormat format ok)).InSession := by
  unfold Client.setAudioFormat
  dsimp only
  split
  · exact h.closing
  · cases hend : k.endAudio ok with
    | mk k₁ sent =>
      rcases endAudio_cases hend with ⟨rfl, rfl⟩ | ⟨rfl, hidle, rfl⟩ | ⟨rfl, hstarted, -, rfl⟩
      · exact h.closed
      · have hs := (h.session hopen).setFormat hidle
          ⟨format.getD 0 0, format.getD 1 0, (format.drop 2).foldl (fun n b => n * 256 + b.toNat) 0⟩
        have hevents (f : AudioFormat) : (k₁.record (.audioMessage (.setFormat f))).audioEvents =
            k₁.audioEvents ++ [.audioMessage (.setFormat f)] := audioEvents_record_of_isAudio rfl
        rw [← hevents, ← hopen] at hs
        exact Session.of_same hs rfl rfl rfl hidle.symm rfl rfl
      · have hs := ((h.session hopen).finish hstarted).setFormat rfl
          ⟨format.getD 0 0, format.getD 1 0, (format.drop 2).foldl (fun n b => n * 256 + b.toNat) 0⟩
        have hevents (f : AudioFormat) :
            ((k.output (.audioControl 0)).record (.audioMessage (.setFormat f))).audioEvents =
              k.audioEvents ++ [.audioControl 0] ++ [.audioMessage (.setFormat f)] := by
          rw [audioEvents_record_of_isAudio rfl, audioEvents_output, audioEvents_record_of_isAudio rfl]
        rw [← hevents, ← hopen] at hs
        exact Session.of_same hs rfl rfl rfl rfl rfl rfl

theorem InSession.audioHandleMessage (h : k.InSession) (hopen : k.sock.isSome = true) (input : SocketInput) (ok : Bool) :
    (Client.closing (k.audioHandleMessage input ok)).InSession := by
  have hreply := audioHandleMessage_reply (k := k) input ok
  generalize k.audioHandleMessage input ok = r at hreply
  cases hreply with
  | refused => exact h.closing
  | enable supported =>
    have he := Session.enable h supported
    have hevents : (k.record (.audioMessage .enable)).audioEvents = k.audioEvents ++ [.audioMessage .enable] :=
      audioEvents_record_of_isAudio rfl
    rw [← hevents] at he
    exact Session.of_same he rfl rfl rfl rfl rfl rfl
  | disable => exact h.disableAudio hopen ok
  | setFormat format => exact h.setAudioFormat hopen format ok

theorem InSession.setEncodings (h : k.InSession) (e : Encodings) (available : Bool) :
    (k.setEncodings e available).InSession :=
  Session.of_same (Session.setEncodings h (e.audio && available)) rfl rfl rfl rfl rfl rfl

theorem InSession.of_polled (h : k.InSession) {speaks : Bool} (polled : Polled speaks k k') : k'.InSession := by
  cases polled with
  | quiet same => exact h.of_sameAudio same
  | setEncodings e available => exact h.setEncodings e available
  | message input ok _ isOpen => exact h.audioHandleMessage isOpen input ok
  | accepted _ audio events =>
    unfold InSession
    rw [audio, events]
    exact Session.new.weaken fun _ => rfl

end Client

/-! ### Runs -/

namespace Server
variable {s t : Server}

/-- A step keeps the session of every client. -/
theorem step_inSession (nodup : s.clients.Nodup) {action : ServerAction} (h : step decoder s action = some t)
    {c : ClientPtr} (hc : (s.client c).InSession) : (t.client c).InSession := by
  rcases step_audio nodup h c with ⟨same, -⟩ | ⟨env, -, client, -⟩ | ⟨ok, -, client, -⟩
  · exact hc.of_sameAudio (same.client c)
  · generalize t.client c = k at client
    induction client with
    | refl => exact hc
    | tail _ hlast ih => exact ih.of_polled hlast
  · rw [client]
    split
    · exact (hc.processAudio s.width s.height s.audioQueue (ok c)).closing
    · exact hc

theorem run_inSession {fps : Nat} {audioAvailable : Bool} {width height : UInt16} {listening : Finset Nat}
    {actions : List ServerAction} (h : run (step decoder) (start fps audioAvailable width height listening) actions = some t)
    (c : ClientPtr) : (t.client c).InSession := by
  refine (Transition.run_invariant (P := fun u => u.clients.Nodup ∧ (u.client c).InSession) ⟨List.nodup_nil, ?_⟩ ?_ h).2
  · exact Session.new.weaken nofun
  · rintro u action v ⟨hnodup, hc⟩ hstep
    exact ⟨step_nodup hnodup hstep, step_inSession hnodup hstep hc⟩

end Server

/-- The grammar of a client's audio, after every run of the server: its flags imply each other; a Begin, Data
    or End comes after a capability rectangle; the messages are groups of a Begin, data and an End, of which the last
    may be open, and each data is the packet taken for it, converted from the running position with the format in force
    at that Begin; and a Begin or Data comes after an Enable that no Disable follows. The rectangle is a
    `FramebufferUpdate`, not one of these messages, and every `SetEncodings` that lists the encoding brings another
    one. -/
theorem audio_session {fps : Nat} {audioAvailable : Bool} {width height : UInt16} {listening : Finset Nat}
    {actions : List ServerAction} {t : Server}
    (h : run (Server.step decoder) (Server.start fps audioAvailable width height listening) actions = some t)
    (c : ClientPtr) :
    ((t.client c).data.audioStarted = true → (t.client c).data.audioEnabled = true) ∧
    ((t.client c).data.audioEnabled = true → (t.client c).data.audioSupported = true) ∧
    (∀ before event after, (t.client c).audioEvents = before ++ event :: after → event.isStream = true →
      ∃ w h, .audioCapability w h ∈ before) ∧
    (∃ current, Grouped AudioFormat.Converts current (({} : AudioConverter).word (t.client c).audioEvents)) ∧
    (∀ before event after, (t.client c).audioEvents = before ++ event :: after → event.sounds = true →
      enabledAfter before = true) := by
  have hc : Session (t.client c).audio (t.client c).audioEvents (t.client c).sock.isSome := Server.run_inSession h c
  refine ⟨hc.started_enabled, hc.enabled_supported, ?_, ?_, ?_⟩
  · intro before event after hsplit hstream
    exact (hc.follows before event after hsplit).1 hstream
  · obtain ⟨current, hgrouped, -⟩ := hc.grouped
    exact ⟨current, hgrouped⟩
  · intro before event after hsplit hsounds
    exact (hc.follows before event after hsplit).2 hsounds

/-- The bytes of an audio message that has arrived. -/
def audioRead (message : List UInt8) : ClientMessage := .audio { available := message } true

/-- A client listens in two formats, with two packets in the first and one in the second. -/
def twoFormats : List ServerAction :=
  [.pollClientEvents
    { now := 1, sendmsg := fun _ => .again, events :=
      [.accept 0 5 [82], .message 0 (.clientInit []), .message 0 (.setEncodings { audio := true }),
        .message 0 (audioRead [1, 0, 0])] },
    .queueAudio [256, -256],
    .queueAudio [512, 512],
    .processAudio fun _ _ => true,
    .pollClientEvents
      { now := 1, sendmsg := fun _ => .again, events := [.message 0 (audioRead [1, 0, 2, 1, 1, 0, 0, 187, 128])] },
    .queueAudio [256, -256],
    .processAudio fun _ _ => true,
    .pollClientEvents { now := 1, sendmsg := fun _ => .again, events := [.message 0 (audioRead [1, 0, 1])] }]

theorem audio_session_two_formats :
    (run (Server.step .grayRow) (Server.start 30 true 1 1 ∅) twoFormats).map (fun t => (t.client 0).audioEvents) =
      some [.audioMessage .enable, .audioCapability 1 1, .audioControl 1, .audioPacket [256, -256],
        .audioData [0, 1, 0, 255], .audioPacket [512, 512], .audioData [0, 2, 0, 2], .audioControl 0,
        .audioMessage (.setFormat ⟨1, 1, 48000⟩), .audioControl 1, .audioPacket [256, -256], .audioData [0],
        .audioMessage .disable, .audioControl 0] ∧
    ∃ t current, run (Server.step .grayRow) (Server.start 30 true 1 1 ∅) twoFormats = some t ∧
      Grouped AudioFormat.Converts current (({} : AudioConverter).word (t.client 0).audioEvents) := by
  obtain ⟨t, h⟩ := Option.isSome_iff_exists.mp
    (show (run (Server.step .grayRow) (Server.start 30 true 1 1 ∅) twoFormats).isSome = true by decide +kernel)
  obtain ⟨current, hgrouped⟩ := (audio_session h 0).2.2.2.1
  exact ⟨by decide +kernel, t, current, h, hgrouped⟩

end OnekvmVnc
