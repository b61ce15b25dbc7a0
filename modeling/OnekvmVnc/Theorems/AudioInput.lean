import OnekvmVnc.AudioInput
import OnekvmVnc.Theorems.Server.AudioTurns

/-! The QEMU audio messages of a client, however the network cuts them. The exact reads wait for what has not
    arrived, while the look at the subtype does not: a call that finds nothing after the type byte closes the
    client. -/

namespace OnekvmVnc

/-! ### Input -/

namespace SocketInput
variable {input input' : SocketInput}

theorem peek_eq (h : input.available ≠ []) : input.peek = input.bytes.head? := by
  obtain ⟨b, available, havailable⟩ := List.exists_cons_of_ne_nil h
  rw [peek, bytes, havailable]
  rfl

/-- An exact read depends on the bytes only, not on which of them have arrived. -/
theorem readExact_cases (input : SocketInput) (n : Nat) :
    (input.readExact n = none ∧ input.bytes.length < n) ∨
      ∃ rest : SocketInput, input.readExact n = some (input.bytes.take n, rest) ∧ rest.bytes = input.bytes.drop n ∧
        n ≤ input.bytes.length := by
  have hlength : input.bytes.length = input.available.length + input.later.length := List.length_append
  unfold readExact
  split
  · exact .inl ⟨rfl, by omega⟩
  · exact .inr ⟨_, rfl, List.drop_append.symm, by omega⟩

theorem readExact_congr (h : input.bytes = input'.bytes) (n : Nat) :
    (input.readExact n = none ∧ input'.readExact n = none) ∨
      ∃ rest rest' : SocketInput, input.readExact n = some (input.bytes.take n, rest) ∧
        input'.readExact n = some (input.bytes.take n, rest') ∧ rest.bytes = rest'.bytes := by
  obtain ⟨hread, hlt⟩ | ⟨rest, hread, hrest, hle⟩ := input.readExact_cases n <;>
    obtain ⟨hread', hlt'⟩ | ⟨rest', hread', hrest', hle'⟩ := input'.readExact_cases n
  · exact .inl ⟨hread, hread'⟩
  · rw [← h] at hle'
    omega
  · rw [← h] at hlt'
    omega
  · rw [← h] at hread' hrest'
    exact .inr ⟨rest, rest', hread, hread', hrest.trans hrest'.symm⟩

end SocketInput

namespace AudioCall

theorem input_bytes (call : AudioCall) (rest : List UInt8) : (call.input rest).bytes = rest :=
  List.take_append_drop call.arrived rest

theorem input_available {call : AudioCall} (h : 0 < call.arrived) {rest : List UInt8} (hrest : rest ≠ []) :
    (call.input rest).available ≠ [] := by
  rw [input, Ne, List.take_eq_nil_iff]
  rintro (hzero | hnil)
  · omega
  · exact hrest hnil

end AudioCall

/-! ### A call -/

namespace Client
variable {k : Client}

/-- The handler with its input is the handler. -/
theorem audioHandle_fst (k : Client) (input : SocketInput) (ok : Bool) :
    (k.audioHandle input ok).1 = k.audioHandleMessage input ok := by
  unfold audioHandle audioHandleMessage
  cases input.peek with
  | none => rfl
  | some subtype =>
    dsimp only
    split
    · rfl
    · cases input.readExact 3 with
      | none => rfl
      | some read =>
        obtain ⟨header, input⟩ := read
        dsimp only
        split
        · rfl
        · split
          · rfl
          · split
            · rfl
            · split
              · cases input.readExact 6 <;> rfl
              · rfl

/-- Once a byte has arrived, it does not matter how many have. -/
theorem audioHandle_congr {input input' : SocketInput} (h : input.available ≠ []) (h' : input'.available ≠ [])
    (hbytes : input.bytes = input'.bytes) (ok : Bool) : (k.audioHandle input ok).1 = (k.audioHandle input' ok).1 ∧
      (k.audioHandle input ok).2.bytes = (k.audioHandle input' ok).2.bytes := by
  have hpeek : input.peek = input'.peek := by
    rw [SocketInput.peek_eq h, SocketInput.peek_eq h', hbytes]
  unfold audioHandle
  rw [hpeek]
  split
  · exact ⟨rfl, hbytes⟩
  · split
    · exact ⟨rfl, hbytes⟩
    · obtain ⟨hread, hread'⟩ | ⟨rest, rest', hread, hread', hrest⟩ := SocketInput.readExact_congr hbytes 3
      · rw [hread, hread']
        exact ⟨rfl, rfl⟩
      · rw [hread, hread']
        dsimp only
        split
        · exact ⟨rfl, hrest⟩
        · split
          · exact ⟨rfl, hrest⟩
          · split
            · exact ⟨rfl, hrest⟩
            · split
              · obtain ⟨hformat, hformat'⟩ | ⟨left, left', hformat, hformat', hleft⟩ :=
                  SocketInput.readExact_congr hrest 6
                · rw [hformat, hformat']
                  exact ⟨rfl, rfl⟩
                · rw [hformat, hformat']
                  exact ⟨rfl, hleft⟩
              · exact ⟨rfl, hrest⟩

theorem audioCall_congr {call call' : AudioCall} (h : 0 < call.arrived) (h' : 0 < call'.arrived)
    (hok : call.ok = call'.ok) {rest : List UInt8} (hrest : rest ≠ []) : k.audioCall call rest = k.audioCall call' rest := by
  obtain ⟨hhandled, hleft⟩ := audioHandle_congr (k := k) (AudioCall.input_available h hrest)
    (AudioCall.input_available h' hrest) ((call.input_bytes rest).trans (call'.input_bytes rest).symm) call.ok
  rw [audioCall, audioCall, ← hok]
  simp only [hhandled, hleft]

/-- A call that finds nothing closes the client. -/
theorem audioCall_missed {call : AudioCall} (h : call.arrived = 0) (rest : List UInt8) :
    k.audioCall call rest = ({ k with sock := none }, rest) := by
  have hinput : call.input rest = { available := [], later := rest } := by rw [AudioCall.input, h]; rfl
  rw [audioCall, hinput]
  rfl

/-- Nothing is read twice. -/
theorem audioHandle_left (k : Client) (input : SocketInput) (ok : Bool) :
    (k.audioHandle input ok).2.bytes.length ≤ input.bytes.length := by
  unfold audioHandle
  split
  · exact le_rfl
  · split
    · exact le_rfl
    · obtain ⟨hread, -⟩ | ⟨rest, hread, hrest, -⟩ := input.readExact_cases 3
      · rw [hread]
        exact Nat.zero_le _
      · have hle : rest.bytes.length ≤ input.bytes.length := by
          rw [hrest, List.length_drop]
          exact Nat.sub_le _ _
        rw [hread]
        dsimp only
        split
        · exact hle
        · split
          · exact hle
          · split
            · exact hle
            · split
              · obtain ⟨hformat, -⟩ | ⟨left, hformat, hleft, -⟩ := rest.readExact_cases 6
                · rw [hformat]
                  exact Nat.zero_le _
                · rw [hformat]
                  dsimp only
                  rw [hleft, List.length_drop]
                  omega
              · exact hle

end Client

namespace AudioMessage

def operation : AudioMessage → UInt8
  | .enable => 0
  | .disable => 1
  | .setFormat _ => 2

/-- The bytes after the operation. -/
def payload : AudioMessage → List UInt8
  | .setFormat format => [format.sampleFormat, format.channels] ++ be32 (UInt32.ofNat format.frequency)
  | _ => []

theorem bytes_eq (m : AudioMessage) : m.bytes = 255 :: ([1, 0, m.operation] ++ m.payload) := by cases m <;> rfl

end AudioMessage

/-- A big-endian word is put together again. -/
theorem foldl_be32 (value : UInt32) : (be32 value).foldl (fun n b => n * 256 + b.toNat) 0 = value.toNat := by
  have hlt := value.toNat_lt
  simp only [be32, List.foldl_cons, List.foldl_nil, UInt32.toNat_toUInt8, UInt32.toNat_shiftRight,
    UInt32.reduceToNat, Nat.reduceMod, Nat.shiftRight_eq_div_pow]
  omega

namespace Client
variable {k : Client}

/-- What the handler does with a message of a client that may send it. -/
def onAudio (k : Client) (ok : Bool) : AudioMessage → Client × Bool
  | .enable =>
    let k := k.record (.audioMessage .enable)
    ({ k with data := { k.data with audioEnabled := true, audioResamplePosition := 0 } }, false)
  | .disable => k.disableAudio ok
  | .setFormat format => k.setAudioFormat (AudioMessage.setFormat format).payload ok

/-- What a call does with a whole message, once a byte of it has arrived. -/
theorem audioHandle_message {input : SocketInput} (h : input.available ≠ []) {m : AudioMessage}
    {following : List UInt8} (hbytes : input.bytes = [1, 0, m.operation] ++ m.payload ++ following) (ok : Bool) :
    (k.data.audioSupported = false ∧ (k.audioHandle input ok).1 = (k, true) ∧
        (k.audioHandle input ok).2.bytes = m.payload ++ following) ∨
      (k.data.audioSupported = true ∧ (k.audioHandle input ok).1 = k.onAudio ok m ∧
        (k.audioHandle input ok).2.bytes = following) := by
  have hpeek : input.peek = some 1 := by
    rw [SocketInput.peek_eq h, hbytes]
    rfl
  obtain ⟨-, hlt⟩ | ⟨rest, hread, hrest, -⟩ := input.readExact_cases 3
  · rw [hbytes] at hlt
    simp only [List.length_append, List.length_cons] at hlt
    omega
  · have hheader : input.bytes.take 3 = [1, 0, m.operation] := by
      rw [hbytes, List.append_assoc]
      rfl
    rw [hbytes, List.append_assoc] at hrest
    change rest.bytes = m.payload ++ following at hrest
    unfold audioHandle
    rw [hpeek, hread, hheader]
    dsimp only
    rw [if_neg (by decide)]
    cases hsupported : k.data.audioSupported with
    | false => exact .inl ⟨rfl, rfl, hrest⟩
    | true =>
      refine .inr ⟨rfl, ?_⟩
      rw [if_neg (by decide)]
      cases m with
      | enable => exact ⟨rfl, hrest⟩
      | disable => exact ⟨rfl, hrest⟩
      | setFormat format =>
        have hpayload : (AudioMessage.setFormat format).payload.length = 6 := rfl
        obtain ⟨-, hlt⟩ | ⟨left, hformat, hleft, -⟩ := rest.readExact_cases 6
        · rw [hrest, List.length_append] at hlt
          omega
        · rw [hrest, ← hpayload, List.take_left] at hformat
          rw [hrest, ← hpayload, List.drop_left] at hleft
          rw [hpayload] at hformat
          simp [AudioMessage.operation, onAudio, hformat, hleft]

theorem endAudio_open (hsock : k.sock.isSome = true) : (k.endAudio true).2 = true ∧ (k.endAudio true).1.sock = k.sock ∧
    (k.endAudio true).1.data = k.data := by
  unfold endAudio writeExact
  split
  · rw [hsock]
    exact ⟨rfl, rfl, rfl⟩
  · exact ⟨rfl, rfl, rfl⟩

/-- A valid message leaves the client open if what is written to it arrives. -/
theorem onAudio_open {m : AudioMessage} (hvalid : m.Valid) (hsock : k.sock.isSome = true) :
    (k.onAudio true m).2 = false ∧ (k.onAudio true m).1.sock = k.sock ∧
      (k.onAudio true m).1.data.audioSupported = k.data.audioSupported := by
  cases m with
  | enable => exact ⟨rfl, rfl, rfl⟩
  | disable =>
    have hend := endAudio_open (k := k.record (.audioMessage .disable)) hsock
    unfold onAudio disableAudio
    dsimp only
    rw [hend.1, hend.2.1, hend.2.2]
    exact ⟨rfl, rfl, rfl⟩
  | setFormat format =>
    obtain ⟨hsent, hsock', hdata⟩ := endAudio_open (k := k) hsock
    obtain ⟨hfrequency, hchannels, hsampleFormat⟩ := hvalid
    have hread : ((AudioMessage.setFormat format).payload.drop 2).foldl (fun n b => n * 256 + b.toNat) 0 =
        format.frequency := by
      have hsmall : format.frequency < 2 ^ 32 := Nat.lt_of_le_of_lt hfrequency.2 (by decide)
      exact (foldl_be32 _).trans (Nat.mod_eq_of_lt hsmall)
    unfold onAudio setAudioFormat
    dsimp only
    rw [hread]
    split
    · rename_i hrefused
      obtain h | h | h | h := hrefused
      · exact absurd hsampleFormat (UInt8.not_le.mpr h)
      · exact absurd hchannels (not_or.mpr h)
      · omega
      · omega
    · cases hend : k.endAudio true with
      | mk k' sent =>
        rw [hend] at hsent hsock' hdata
        obtain rfl : sent = true := hsent
        have hsupported : k'.data.audioSupported = k.data.audioSupported := congrArg ClientData.audioSupported hdata
        exact ⟨rfl, hsock', hsupported⟩

/-! ### A stream -/

theorem audioCall_left (k : Client) (call : AudioCall) (rest : List UInt8) :
    (k.audioCall call rest).2.length ≤ rest.length := by
  have hle := k.audioHandle_left (call.input rest) call.ok
  rwa [AudioCall.input_bytes] at hle

/-- A call with a whole message ahead, once a byte of it has arrived. -/
theorem audioCall_message (call : AudioCall) (h : 0 < call.arrived) (m : AudioMessage) (following : List UInt8) :
    (k.data.audioSupported = false ∧
      k.audioCall call ([1, 0, m.operation] ++ m.payload ++ following) =
        ({ k with sock := none }, m.payload ++ following)) ∨
    (k.data.audioSupported = true ∧
      k.audioCall call ([1, 0, m.operation] ++ m.payload ++ following) = (closing (k.onAudio call.ok m), following)) := by
  obtain ⟨hunsupported, hhandled, hleft⟩ | ⟨hsupported, hhandled, hleft⟩ :=
    audioHandle_message (k := k) (AudioCall.input_available h (by exact List.cons_ne_nil _ _))
      (call.input_bytes ([1, 0, m.operation] ++ m.payload ++ following)) call.ok
  · refine .inl ⟨hunsupported, ?_⟩
    simp only [audioCall, hhandled, hleft]
    rfl
  · refine .inr ⟨hsupported, ?_⟩
    simp only [audioCall, hhandled, hleft, closing]

theorem handleAudio_closed (h : k.sock = none) (stream : List UInt8) (calls : List AudioCall) :
    k.handleAudio stream calls = (k, stream) := by
  cases stream with
  | nil => cases calls <;> rfl
  | cons type rest =>
    cases calls with
    | nil => rfl
    | cons call calls => rw [handleAudio, if_pos (.inl h)]

theorem callsMade_closed (h : k.sock = none) (stream : List UInt8) (calls : List AudioCall) :
    k.callsMade stream calls = [] := by
  cases stream with
  | nil => cases calls <;> rfl
  | cons type rest =>
    cases calls with
    | nil => rfl
    | cons call calls => rw [callsMade, if_pos (.inl h)]

theorem handleAudio_left (k : Client) (stream : List UInt8) (calls : List AudioCall) :
    (k.handleAudio stream calls).2.length ≤ stream.length := by
  induction calls generalizing k stream with
  | nil => cases stream <;> exact le_rfl
  | cons call calls ih =>
    cases stream with
    | nil => exact le_rfl
    | cons type rest =>
      rw [handleAudio]
      split
      · exact le_rfl
      · have hcall := k.audioCall_left call rest
        exact (ih _ _).trans (hcall.trans (Nat.le_succ _))

theorem stream_cons (m : AudioMessage) (messages : List AudioMessage) (following : List UInt8) :
    (m :: messages).flatMap AudioMessage.bytes ++ following =
      255 :: ([1, 0, m.operation] ++ m.payload ++ (messages.flatMap AudioMessage.bytes ++ following)) := by
  rw [List.flatMap_cons, m.bytes_eq, List.append_assoc]
  rfl

/-- The client after the messages depends on what had arrived only through the calls that found nothing. -/
theorem handleAudio_iff (messages : List AudioMessage) (following : List UInt8) (calls : List AudioCall)
    (hlength : calls.length = messages.length) {n : Nat} (hn : 0 < n) :
    (k.handleAudio (messages.flatMap AudioMessage.bytes ++ following) calls =
        k.handleAudio (messages.flatMap AudioMessage.bytes ++ following)
          (calls.map fun call => { call with arrived := n })) ↔
      ∀ call ∈ k.callsMade (messages.flatMap AudioMessage.bytes ++ following) calls, 0 < call.arrived := by
  induction messages generalizing k calls with
  | nil =>
    obtain rfl := List.length_eq_zero_iff.mp hlength
    refine iff_of_true rfl fun call hmem => ?_
    cases h : following <;> rw [h] at hmem <;> cases hmem
  | cons m messages ih =>
    obtain ⟨call, calls, rfl⟩ := List.exists_cons_of_length_eq_add_one hlength
    rw [stream_cons, List.map_cons, handleAudio, handleAudio, callsMade]
    split
    · exact iff_of_true rfl nofun
    · have hmessage := audioCall_message (k := k) { call with arrived := n } hn m
        (messages.flatMap AudioMessage.bytes ++ following)
      obtain hmissed | harrived := Nat.eq_zero_or_pos call.arrived
      · -- The client is closed with the message still to be read, of which the other run reads three bytes.
        rw [audioCall_missed hmissed]
        refine iff_of_false (fun heq => ?_) fun hall => absurd (hall call (List.mem_cons_self ..)) (by omega)
        dsimp only at heq
        rw [handleAudio_closed rfl] at heq
        have hlength := congrArg (fun r => r.2.length) heq
        obtain ⟨-, hcall⟩ | ⟨-, hcall⟩ := hmessage
        · rw [hcall] at hlength
          dsimp only at hlength
          rw [handleAudio_closed rfl] at hlength
          simp only [List.length_append, List.length_cons, List.length_nil] at hlength
          omega
        · rw [hcall] at hlength
          dsimp only at hlength
          have hleft := handleAudio_left (closing (k.onAudio call.ok m))
            (messages.flatMap AudioMessage.bytes ++ following) (calls.map fun call => { call with arrived := n })
          simp only [List.length_append, List.length_cons, List.length_nil] at hlength hleft
          omega
      · have hsame : k.audioCall call ([1, 0, m.operation] ++ m.payload ++
            (messages.flatMap AudioMessage.bytes ++ following)) = k.audioCall { call with arrived := n }
              ([1, 0, m.operation] ++ m.payload ++ (messages.flatMap AudioMessage.bytes ++ following)) :=
          audioCall_congr harrived (show 0 < ({ call with arrived := n } : AudioCall).arrived from hn) rfl
            (List.cons_ne_nil _ _)
        rw [hsame]
        obtain ⟨-, hcall⟩ | ⟨-, hcall⟩ := hmessage
        · rw [hcall]
          dsimp only
          rw [handleAudio_closed rfl, handleAudio_closed rfl, callsMade_closed rfl]
          exact iff_of_true rfl fun made hmade => List.mem_singleton.mp hmade ▸ harrived
        · rw [hcall]
          dsimp only
          rw [ih calls (Nat.succ.inj hlength), List.forall_mem_cons]
          exact ⟨fun h => ⟨harrived, h⟩, fun h => h.2⟩

/-- Valid messages of a client that may send them are read to their end, and leave it open if what is written to it
    arrives. -/
theorem handleAudio_open {messages : List AudioMessage} (valid : ∀ m ∈ messages, m.Valid) (following : List UInt8)
    {calls : List AudioCall} (hlength : calls.length = messages.length) (hok : ∀ call ∈ calls, call.ok = true) {n : Nat}
    (hn : 0 < n) (hsock : k.sock.isSome = true) (hsupported : k.data.audioSupported = true) :
    let r := k.handleAudio (messages.flatMap AudioMessage.bytes ++ following)
      (calls.map fun call => { call with arrived := n })
    r.1.sock = k.sock ∧ r.2 = following := by
  induction messages generalizing k calls with
  | nil =>
    obtain rfl := List.length_eq_zero_iff.mp hlength
    cases following <;> exact ⟨rfl, rfl⟩
  | cons m messages ih =>
    obtain ⟨call, calls, rfl⟩ := List.exists_cons_of_length_eq_add_one hlength
    obtain ⟨hcallOk, hcallsOk⟩ := List.forall_mem_cons.mp hok
    obtain ⟨hm, hmessages⟩ := List.forall_mem_cons.mp valid
    rw [stream_cons, List.map_cons, handleAudio, if_neg]
    · obtain ⟨hunsupported, -⟩ | ⟨-, hcall⟩ := audioCall_message (k := k) { call with arrived := n } hn m
        (messages.flatMap AudioMessage.bytes ++ following)
      · rw [hsupported] at hunsupported
        cases hunsupported
      · obtain ⟨hopen, hsock', hsupported'⟩ := onAudio_open (k := k) hm hsock
        have hclosing : closing (k.onAudio call.ok m) = (k.onAudio true m).1 := by
          rw [hcallOk, closing, hopen]
          rfl
        rw [hcall]
        dsimp only
        rw [hclosing, ← hsock']
        exact ih hmessages (Nat.succ.inj hlength) hcallsOk (hsock' ▸ hsock) (hsupported'.trans hsupported)
    · rintro (hnone | htype)
      · rw [hnone] at hsock
        cases hsock
      · exact htype rfl

end Client

/-- Handling well-formed messages leaves the client and the stream as when all bytes are there at once exactly when
    each call finds a byte after the type byte; and when they are, each message is read to its end and no valid one
    closes the client. -/
theorem audio_segmentation_iff (k : Client) (messages : List AudioMessage) (valid : ∀ m ∈ messages, m.Valid)
    (following : List UInt8) (calls : List AudioCall) (hlength : calls.length = messages.length) :
    let stream := messages.flatMap AudioMessage.bytes ++ following
    let atOnce := k.handleAudio stream (calls.map (AudioCall.atOnce stream))
    (k.handleAudio stream calls = atOnce ↔ ∀ call ∈ k.callsMade stream calls, 0 < call.arrived) ∧
      (k.sock.isSome = true → k.data.audioSupported = true → (∀ call ∈ calls, call.ok = true) →
        atOnce.1.sock = k.sock ∧ atOnce.2 = following) := by
  dsimp only
  cases messages with
  | nil =>
    -- No call is made.
    obtain rfl := List.length_eq_zero_iff.mp hlength
    have hiff := Client.handleAudio_iff (k := k) [] following [] rfl Nat.one_pos
    have hopen := Client.handleAudio_open (k := k) valid following
      (show ([] : List AudioCall).length = ([] : List AudioMessage).length from rfl) nofun Nat.one_pos
    exact ⟨hiff, fun hsock hsupported _ => hopen hsock hsupported⟩
  | cons m messages =>
    have hpos : 0 < ((m :: messages).flatMap AudioMessage.bytes ++ following).length := by
      rw [Client.stream_cons]
      exact Nat.succ_pos _
    exact ⟨Client.handleAudio_iff (m :: messages) following calls hlength hpos,
      fun hsock hsupported hok => Client.handleAudio_open valid following hlength hok hpos hsock hsupported⟩

/-- A client that may send audio messages. -/
def audioClient : Client := { sock := some 5, data := { audioSupported := true } }

/-- Only the type byte of an Enable message has arrived when the handler is called. -/
theorem audio_segmentation_cut :
    let stream := AudioMessage.enable.bytes
    (audioClient.handleAudio stream [{ arrived := 0, ok := true }]).1.sock = none ∧
      (audioClient.handleAudio stream [{ arrived := stream.length, ok := true }]).1.sock = some 5 ∧
      (audioClient.handleAudio stream [{ arrived := stream.length, ok := true }]).2 = [] := by
  decide

theorem audio_segmentation_iff_enable :
    let stream := AudioMessage.enable.bytes
    audioClient.handleAudio stream [{ arrived := 1, ok := true }] =
      audioClient.handleAudio stream [{ arrived := stream.length, ok := true }] := by
  have hlength : [AudioCall.mk 1 true].length = [AudioMessage.enable].length := rfl
  refine (audio_segmentation_iff audioClient [.enable] (fun m hm => ?_) [] _ hlength).1.mpr (by decide)
  obtain rfl := List.mem_singleton.mp hm
  trivial

end OnekvmVnc
