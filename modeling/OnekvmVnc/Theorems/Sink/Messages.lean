import OnekvmVnc.Sink.Messages

/-! `runClient` stays in step with its client: it reads the messages that the client sends, in order, and skips those of
    the extensions whole, until one of them cannot be served. Wherever the connection breaks off before, it has read
    exactly the messages that came whole. -/

namespace OnekvmVnc

open Decoder

variable {M : Type} {read : UInt8 → Decoder UInt8 M} {format : MessageFormat M} {messageType : UInt8} {stream : List UInt8}

/-! ### Decoders -/

/-- What is read behind the type of a message, and the error if that fails. -/
def messageBody (read : UInt8 → Decoder UInt8 M) (messageType : UInt8) :
    Option (MessageError × Decoder UInt8 (SinkMessage M)) :=
  if rfbMessageTypes.contains messageType then
    some (.message messageType, read messageType >>= fun message => pure (.rfb message))
  else if messageType = 150 then
    some (.continuousUpdates, readContinuousUpdateRequest >>= fun request => pure (.continuousUpdates request))
  else (discardClientExtension messageType).map fun discard =>
    (.connection, discard >>= fun _ => pure (.skipped messageType))

theorem orError_map {α β : Type} (error : MessageError) (d : Decoder UInt8 α) (f : α → β) :
    (do let (x, rest) ← orError error (d.run stream); return (f x, rest)) =
      orError error ((d >>= fun x => pure (f x)).run stream) := by
  rw [StateT.run_bind]
  cases d.run stream <;> rfl

/-- Every turn reads the type and then the body. -/
theorem readMessage_cons : readMessage read (messageType :: stream) =
    match messageBody read messageType with
    | some (error, body) => orError error (body.run stream)
    | none => .error (.unsupported messageType) := by
  unfold readMessage messageBody
  change (if _ then _ else _) = _
  split
  · exact orError_map _ _ _
  · split
    · exact orError_map _ _ _
    · cases discardClientExtension messageType with
      | none => rfl
      | some discard => exact orError_map .connection discard fun _ => SinkMessage.skipped messageType

theorem messageBody_other (h : messageType ∉ rfbMessageTypes ++ [150, 248, 251, 255]) : messageBody read messageType = none := by
  rw [List.mem_append, not_or] at h
  obtain ⟨hrfb, hother⟩ := h
  simp only [List.mem_cons, List.not_mem_nil, or_false, not_or] at hother
  obtain ⟨hupdates, hfence, hsize, hkey⟩ := hother
  have hdiscard : discardClientExtension messageType = none := by
    unfold discardClientExtension
    split
    · exact absurd rfl hfence
    · exact absurd rfl hsize
    · exact absurd rfl hkey
    · rfl
  rw [messageBody, if_neg (mt List.contains_iff_mem.mp hrfb), if_neg hupdates, hdiscard]
  rfl

theorem readBE16At_eq (value : UInt16) {payload : List UInt8} {offset : Nat}
    (high : payload[offset]? = some (value >>> 8).toUInt8) (low : payload[offset + 1]? = some value.toUInt8) :
    readBE16At payload offset = value := by
  rw [readBE16At, List.getD_eq_getElem?_getD, List.getD_eq_getElem?_getD, high, low]
  change (value >>> 8).toUInt8.toUInt16 <<< 8 ||| value.toUInt8.toUInt16 = value
  have hlt : value.toNat < 65536 := value.toNat_lt
  rw [← UInt16.toNat_inj, UInt16.toNat_or, UInt16.toNat_shiftLeft, UInt8.toNat_toUInt16, UInt8.toNat_toUInt16,
    UInt16.toNat_toUInt8, UInt16.toNat_toUInt8, UInt16.toNat_shiftRight]
  change (value.toNat >>> 8 % 2 ^ 8) <<< 8 % 2 ^ 16 ||| value.toNat % 2 ^ 8 = value.toNat
  have hhigh : value.toNat >>> 8 % 2 ^ 8 = value.toNat / 2 ^ 8 := by
    rw [Nat.shiftRight_eq_div_pow]
    omega
  have hfits : (value.toNat / 2 ^ 8) <<< 8 % 2 ^ 16 = (value.toNat / 2 ^ 8) <<< 8 := by
    rw [Nat.shiftLeft_eq]
    omega
  rw [hhigh, hfits, ← Nat.shiftLeft_add_eq_or_of_lt (Nat.mod_lt _ (Nat.two_pow_pos 8)), Nat.shiftLeft_eq]
  omega

theorem delimits_continuousUpdates (enabled : UInt8) (x y width height : UInt16) :
    Delimits readContinuousUpdateRequest (enabled :: (be16 x ++ be16 y ++ be16 width ++ be16 height))
      { enabled := enabled ≠ 0, x, y, width, height } := by
  have hunits : Delimits (units 9) (enabled :: (be16 x ++ be16 y ++ be16 width ++ be16 height)) _ := delimits_units rfl
  have hread := hunits.map fun payload =>
    ({ enabled := payload.getD 0 0 ≠ 0, x := readBE16At payload 1, y := readBE16At payload 3,
       width := readBE16At payload 5, height := readBE16At payload 7 } : ContinuousUpdateRequest)
  rw [readBE16At_eq x rfl rfl, readBE16At_eq y rfl rfl, readBE16At_eq width rfl rfl, readBE16At_eq height rfl rfl] at hread
  exact hread

theorem delimits_fence {head : Bytes 7} {length : UInt8} {payload : Bytes length.toNat} {discard : Decoder UInt8 Unit}
    (h : discardClientExtension 248 = some discard) : Delimits discard (head.1 ++ [length] ++ payload.1) () := by
  obtain rfl := Option.some.inj h
  have hheader : (head.1 ++ [length]).length = 8 := by rw [List.length_append, head.2]; rfl
  have hlength : (head.1 ++ [length]).getD 7 0 = length := by
    rw [List.getD_eq_getElem?_getD, List.getElem?_append_right (by rw [head.2]), head.2]
    rfl
  refine (delimits_units hheader).bind ?_
  rw [hlength]
  exact (delimits_units payload.2).map fun _ => ()

theorem delimits_setDesktopSize {head : Bytes 5} {screens padding : UInt8} {layout : Bytes (screens.toNat * 16)}
    {discard : Decoder UInt8 Unit} (h : discardClientExtension 251 = some discard) :
    Delimits discard (head.1 ++ [screens, padding] ++ layout.1) () := by
  obtain rfl := Option.some.inj h
  have hheader : (head.1 ++ [screens, padding]).length = 7 := by rw [List.length_append, head.2]; rfl
  have hscreens : (head.1 ++ [screens, padding]).getD 5 0 = screens := by
    rw [List.getD_eq_getElem?_getD, List.getElem?_append_right (by rw [head.2]), head.2]
    rfl
  refine (delimits_units hheader).bind ?_
  rw [hscreens]
  exact (delimits_units layout.2).map fun _ => ()

theorem delimits_extendedKey {body : Bytes 11} {discard : Decoder UInt8 Unit} (h : discardClientExtension 255 = some discard) :
    Delimits discard body.1 () := by
  obtain rfl := Option.some.inj h
  exact (delimits_units body.2).map fun _ => ()

/-! ### Messages -/

/-- The RFB package reads its own messages: each of them whole, and no part of it. -/
structure MessageFormat.ReadBy (format : MessageFormat M) (read : UInt8 → Decoder UInt8 M) : Prop where
  known : ∀ message, rfbMessageTypes.contains (format.messageType message) = true
  delimits : ∀ message, Delimits (read (format.messageType message)) (format.body message) message

/-- The connection is what failed. -/
def MessageError.OfConnection : MessageError → Prop
  | .connection | .continuousUpdates | .message _ => True
  | _ => False

/-! ### Turns of the loop -/

namespace MessageLoop
variable {σ : Type}

/-- The loop goes on, unless it has ended. -/
def followedBy (l : MessageLoop M σ) (next : σ → MessageLoop M σ) : MessageLoop M σ :=
  match l.error with
  | some _ => l
  | none => { next l.state with messages := l.messages ++ (next l.state).messages }

end MessageLoop

namespace ClientCalls
variable {σ : Type} (calls : ClientCalls M σ) (cfg : SinkConfig)

/-- What serving the messages one after the other leads to. -/
def serveAll : σ → List (SinkMessage M) → MessageLoop M σ
  | s, [] => { state := s }
  | s, message :: rest => calls.serve cfg s message fun s => serveAll s rest

theorem serve_followedBy (s : σ) (message : SinkMessage M) (f g : σ → MessageLoop M σ) :
    (calls.serve cfg s message f).followedBy g = calls.serve cfg s message fun t => (f t).followedBy g := by
  unfold serve
  split
  · rfl
  · rename_i t _
    unfold MessageLoop.followedBy
    dsimp only
    split <;> rfl

/-- All messages are served, or the loop ends with the first one that fails. -/
theorem serveAll_cases (s : σ) (messages : List (SinkMessage M)) :
    (calls.serveAll cfg s messages).error = none ∧ (calls.serveAll cfg s messages).messages = messages ∨
      ∃ before message after error t, messages = before ++ message :: after ∧
        calls.serveAll cfg s before = { messages := before, state := t } ∧ (calls.handle cfg t message).1 = .error error ∧
        calls.serveAll cfg s messages =
          { messages := before ++ [message], state := (calls.handle cfg t message).2, error := some error } := by
  induction messages generalizing s with
  | nil => exact .inl ⟨rfl, rfl⟩
  | cons message rest ih =>
    cases hhandle : calls.handle cfg s message with
    | mk result u =>
      cases result with
      | error error =>
        refine .inr ⟨[], message, rest, error, s, rfl, rfl, by rw [hhandle], ?_⟩
        simp only [serveAll, serve, hhandle, List.nil_append]
      | ok served =>
        have hserve (list : List (SinkMessage M)) : calls.serveAll cfg s (message :: list) =
            { calls.serveAll cfg u list with messages := message :: (calls.serveAll cfg u list).messages } := by
          simp only [serveAll, serve, hhandle]
        rw [hserve]
        rcases ih u with ⟨hnone, hall⟩ | ⟨before, last, after, error, t, rfl, hbefore, herror, hrest⟩
        · exact .inl ⟨hnone, congrArg _ hall⟩
        · refine .inr ⟨message :: before, last, after, error, t, rfl, ?_, herror, ?_⟩
          · rw [hserve, hbefore]
          · rw [hrest]
            rfl

end ClientCalls

namespace ViewerMessage
variable {m : ViewerMessage M}

/-- Behind the type of a message, its body is read whole. -/
theorem exists_body (readBy : format.ReadBy read) (m : ViewerMessage M) :
    ∃ messageType body error decoder, m.code format = messageType :: body ∧ messageBody read messageType = some (error, decoder) ∧
      error.OfConnection ∧ Delimits decoder body m.meaning := by
  cases m with
  | rfb message =>
    refine ⟨_, _, _, _, rfl, if_pos (readBy.known message), trivial, (readBy.delimits message).map _⟩
  | continuousUpdates enabled x y width height =>
    exact ⟨_, _, _, _, rfl, rfl, trivial, (delimits_continuousUpdates enabled x y width height).map _⟩
  | fence head length payload => exact ⟨_, _, _, _, rfl, rfl, trivial, (delimits_fence rfl).map _⟩
  | setDesktopSize head screens padding layout => exact ⟨_, _, _, _, rfl, rfl, trivial, (delimits_setDesktopSize rfl).map _⟩
  | extendedKey body => exact ⟨_, _, _, _, rfl, rfl, trivial, (delimits_extendedKey rfl).map _⟩

theorem readMessage_code (readBy : format.ReadBy read) (m : ViewerMessage M) (rest : List UInt8) :
    readMessage read (m.code format ++ rest) = .ok (m.meaning, rest) := by
  obtain ⟨messageType, body, error, decoder, hcode, hbody, -, hdelimits⟩ := exists_body readBy m
  rw [hcode, List.cons_append, readMessage_cons, hbody]
  change orError error (decoder.run (body ++ rest)) = _
  rw [hdelimits.reads rest]
  rfl

theorem readMessage_short (readBy : format.ReadBy read) (m : ViewerMessage M) {k : Nat} (h : k < (m.code format).length) :
    ∃ error, readMessage read ((m.code format).take k) = .error error ∧ error.OfConnection := by
  obtain ⟨messageType, body, error, decoder, hcode, hbody, herror, hdelimits⟩ := exists_body readBy m
  rw [hcode] at h ⊢
  cases k with
  | zero => exact ⟨.connection, rfl, trivial⟩
  | succ k =>
    refine ⟨error, ?_, herror⟩
    rw [List.take_succ_cons, readMessage_cons, hbody]
    change orError error (decoder.run (body.take k)) = _
    rw [hdelimits.short k (Nat.lt_of_succ_lt_succ h)]
    rfl

theorem readMessages_codes {σ : Type} (readBy : format.ReadBy read) (calls : ClientCalls M σ) (cfg : SinkConfig) (s : σ)
    (ms : List (ViewerMessage M)) (fuel : Nat) (rest : List UInt8) :
    calls.readMessages cfg read (ms.length + fuel) s (ms.flatMap (·.code format) ++ rest) =
      (calls.serveAll cfg s (ms.map meaning)).followedBy fun t => calls.readMessages cfg read fuel t rest := by
  induction ms generalizing s with
  | nil =>
    rw [List.length_nil, Nat.zero_add]
    rfl
  | cons m ms ih =>
    rw [List.length_cons, Nat.succ_add, List.flatMap_cons, List.append_assoc, ClientCalls.readMessages,
      readMessage_code readBy, List.map_cons, ClientCalls.serveAll, ClientCalls.serve_followedBy]
    dsimp only
    simp only [ih]

end ViewerMessage

/-- Whatever messages a client sends, they are read in order and served until one fails, and what comes behind them is
    read next: a message of another type ends the loop with its number. Wherever the connection breaks off, the messages
    before that point have been read, and the loop ends with the error of the connection, if none of them has failed. -/
theorem messages_read {σ : Type} (readBy : format.ReadBy read) (calls : ClientCalls M σ) (cfg : SinkConfig) (s : σ)
    (ms : List (ViewerMessage M)) :
    ((calls.serveAll cfg s (ms.map (·.meaning))).error = none ∧
        (calls.serveAll cfg s (ms.map (·.meaning))).messages = ms.map (·.meaning) ∨
      ∃ before message after error t, ms.map (·.meaning) = before ++ message :: after ∧
        calls.serveAll cfg s before = { messages := before, state := t } ∧ (calls.handle cfg t message).1 = .error error ∧
        calls.serveAll cfg s (ms.map (·.meaning)) =
          { messages := before ++ [message], state := (calls.handle cfg t message).2, error := some error }) ∧
    (∀ fuel rest, calls.readMessages cfg read (ms.length + fuel) s (ms.flatMap (·.code format) ++ rest) =
      (calls.serveAll cfg s (ms.map (·.meaning))).followedBy fun t => calls.readMessages cfg read fuel t rest) ∧
    (∀ messageType, messageType ∉ rfbMessageTypes ++ [150, 248, 251, 255] → ∀ fuel rest, ms.length < fuel →
      calls.readMessages cfg read fuel s (ms.flatMap (·.code format) ++ messageType :: rest) =
        (calls.serveAll cfg s (ms.map (·.meaning))).followedBy fun t =>
          { state := t, error := some (.unsupported messageType) }) ∧
    ∀ n fuel, ms.length < fuel → ∃ whole rest error, ms = whole ++ rest ∧
      calls.readMessages cfg read fuel s ((ms.flatMap (·.code format)).take n) =
        (calls.serveAll cfg s (whole.map (·.meaning))).followedBy (fun t => { state := t, error := some error }) ∧
      error.OfConnection ∧ ∀ m ∈ rest.head?, n < ((whole ++ [m]).flatMap (·.code format)).length := by
  refine ⟨calls.serveAll_cases cfg s _, fun fuel rest => ViewerMessage.readMessages_codes readBy calls cfg s ms fuel rest,
    ?_, ?_⟩
  · intro messageType hother fuel rest hfuel
    obtain ⟨more, rfl⟩ := Nat.exists_eq_add_of_lt hfuel
    rw [Nat.add_assoc, ViewerMessage.readMessages_codes readBy]
    simp only [ClientCalls.readMessages, readMessage_cons, messageBody_other hother]
  · intro n fuel hfuel
    obtain ⟨whole, rest, part, rfl, htake, hpart⟩ := take_flatMap (ViewerMessage.code format) ms n
    rw [List.length_append] at hfuel
    obtain ⟨more, rfl⟩ : ∃ more, fuel = whole.length + (more + 1) := ⟨fuel - whole.length - 1, by omega⟩
    rw [htake, ViewerMessage.readMessages_codes readBy]
    rcases hpart with ⟨rfl, rfl⟩ | ⟨m, after, k, rfl, rfl, hk, hn⟩
    · exact ⟨whole, [], .connection, rfl, rfl, trivial, fun m hm => by cases hm⟩
    · obtain ⟨error, herror, hconnection⟩ := ViewerMessage.readMessage_short readBy m hk
      refine ⟨whole, m :: after, error, rfl, ?_, hconnection, ?_⟩
      · simp only [ClientCalls.readMessages, herror]
      · intro next hnext
        obtain rfl := Option.some.inj hnext
        exact hn

/-- `SetPixelFormat` and `PointerEvent`, as the only messages of the package. -/
inductive ClickMessage where
  | pixelFormat (bpp trueColor : UInt8)
  | pointer (mask : UInt8) (x y : UInt16)
  deriving DecidableEq, Repr

def clickFormat : MessageFormat ClickMessage where
  messageType
    | .pixelFormat .. => 0
    | .pointer .. => 5
  body
    | .pixelFormat bpp trueColor => [0, 0, 0, bpp, 24, 0, trueColor, 0, 255, 0, 255, 0, 255, 16, 8, 0, 0, 0, 0]
    | .pointer mask x y => mask :: (be16 x ++ be16 y)

def readClick (messageType : UInt8) : Decoder UInt8 ClickMessage :=
  if messageType = 0 then do
    let body ← units 19
    return .pixelFormat (body.getD 3 0) (body.getD 6 0)
  else do
    let body ← units 5
    return .pointer (body.getD 0 0) (readBE16At body 1) (readBE16At body 3)

theorem clickFormat_readBy : clickFormat.ReadBy readClick where
  known message := by cases message <;> rfl
  delimits message := by
    cases message with
    | pixelFormat bpp trueColor =>
      have hunits : Delimits (units 19) (clickFormat.body (.pixelFormat bpp trueColor)) _ := delimits_units rfl
      exact hunits.map fun body => ClickMessage.pixelFormat (body.getD 3 0) (body.getD 6 0)
    | pointer mask x y =>
      have hunits : Delimits (units 5) (mask :: (be16 x ++ be16 y)) _ := delimits_units rfl
      have hread := hunits.map fun body =>
        ClickMessage.pointer (body.getD 0 0) (readBE16At body 1) (readBE16At body 3)
      rw [readBE16At_eq x rfl rfl, readBE16At_eq y rfl rfl] at hread
      exact hread

/-- Calls that go well and are counted. -/
def countedCalls : ClientCalls ClickMessage Nat where
  parsed
    | .pixelFormat bpp trueColor =>
      .setPixelFormat
        { bpp, bigEndian := 0, trueColor, redMax := 255, greenMax := 255, blueMax := 255, redShift := 16, greenShift := 8,
          blueShift := 0 }
    | .pointer mask x y => .pointerEvent mask x y
  formatString _ := "palette"
  setPixelFormat s _ := (.ok (), s + 1)
  setEncoding s _ _ := (.ok (), s + 1)
  write s _ := (.ok (), s + 1)
  key s _ _ := s + 1
  pointer s _ _ _ := s + 1
  start s _ := s + 1
  stop s := s + 1

/-- A click, a fence, continuous updates, and the release of the button. -/
def clicked : List (ViewerMessage ClickMessage) :=
  [.rfb (.pointer 1 2 3), .fence ⟨[0, 0, 0, 0x80, 0, 0, 1], rfl⟩ 2 ⟨[5, 5], rfl⟩, .continuousUpdates 1 0 0 640 480,
    .rfb (.pointer 0 2 3)]

/-- True colour of 32 bits, then a palette of 8, and a click. -/
def palette : List (ViewerMessage ClickMessage) :=
  [.rfb (.pixelFormat 32 1), .rfb (.pixelFormat 8 0), .rfb (.pointer 1 2 3)]

def rawOnly : SinkConfig := { codecH264 := false, jpegEncoder := false, jpegInput := false, onDemandChange := false }

/-- The loop ends with the palette; and for the click, the connection breaks off inside of the release. -/
theorem messages_read_clicked :
    countedCalls.readMessages rawOnly readClick 4 0 (palette.flatMap (·.code clickFormat) ++ []) =
      { messages := [.rfb (.pixelFormat 32 1), .rfb (.pixelFormat 8 0)], state := 1,
        error := some (.pixelFormat "palette") } ∧
    ∃ whole rest error, clicked = whole ++ rest ∧
      countedCalls.readMessages rawOnly readClick 5 0 ((clicked.flatMap (·.code clickFormat)).take 30) =
        (countedCalls.serveAll rawOnly 0 (whole.map (·.meaning))).followedBy
          (fun t => { state := t, error := some error }) ∧
      error.OfConnection := by
  obtain ⟨-, hserved, -⟩ := messages_read clickFormat_readBy countedCalls rawOnly 0 palette
  obtain ⟨-, -, -, hcut⟩ := messages_read clickFormat_readBy countedCalls rawOnly 0 clicked
  obtain ⟨whole, rest, error, hsplit, hread, hconnection, -⟩ := hcut 30 5 (by decide)
  exact ⟨(hserved 1 []).trans rfl, whole, rest, error, hsplit, hread, hconnection⟩

example : countedCalls.readMessages rawOnly readClick 5 0 ((clicked.flatMap (·.code clickFormat)).take 30) =
    { messages := [.rfb (.pointer 1 2 3), .skipped 248, .continuousUpdates ⟨true, 0, 0, 640, 480⟩], state := 2,
      error := some (.message 5) } := rfl

end OnekvmVnc
