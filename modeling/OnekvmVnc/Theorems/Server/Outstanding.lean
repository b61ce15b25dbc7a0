import OnekvmVnc.Theorems.Server.Framing

/-! An outstanding update request is kept until an update is produced, except by a message that disables
    continuous updates: that one clears `need_update` whatever was asked for. -/

namespace OnekvmVnc

variable {decoder : JPEGDecoder}

/-! ### Outstanding requests -/

/-- The request that is outstanding after an event, if any, and whether one of those that it stands for was
    non-incremental. -/
def outstandingAfter (outstanding : Option Bool) : ClientEvent → Option Bool
  | .request _ incremental => some (outstanding.getD false || !incremental)
  | .jpeg .. | .update .. | .newFBSize .. => none
  | _ => outstanding

/-- The request that is outstanding after a history. -/
def outstanding (history : List HistoryEntry) : Option Bool :=
  history.foldl (fun outstanding entry => outstandingAfter outstanding entry.event) none

theorem outstanding_concat (history : List HistoryEntry) (entry : HistoryEntry) :
    outstanding (history ++ [entry]) = outstandingAfter (outstanding history) entry.event := by
  rw [outstanding, List.foldl_append]
  rfl

/-- Continuous updates were never disabled while a request was outstanding. -/
def NeverDisabled : List HistoryEntry → Prop :=
  Transition.Along fun pre entry => entry.event = .continuousUpdates false → outstanding pre = none

namespace Client
variable {s : Server} {k k' : Client}

def Remembers (k : Client) : Prop :=
  NeverDisabled k.history → ∀ nonIncremental, outstanding k.history = some nonIncremental →
    k.data.needUpdate = true ∧ (nonIncremental = true → k.data.forceUpdate = true)

theorem Remembers.of_eq (h : k.Remembers) (history : k'.history = k.history)
    (needUpdate : k'.data.needUpdate = k.data.needUpdate) (forceUpdate : k'.data.forceUpdate = k.data.forceUpdate) :
    k'.Remembers := by
  unfold Remembers
  rw [history, needUpdate, forceUpdate]
  exact h

/-- An event that is neither a request nor an update, and that leaves the flags as they are. -/
theorem Remembers.record (h : k.Remembers) (event : ClientEvent)
    (neutral : outstandingAfter (outstanding k.history) event = outstanding k.history)
    (history : k'.history = (k.record event).history)
    (needUpdate : k'.data.needUpdate = k.data.needUpdate) (forceUpdate : k'.data.forceUpdate = k.data.forceUpdate) :
    k'.Remembers := by
  intro hnever nonIncremental hout
  rw [history] at hnever hout
  rw [Client.record, outstanding_concat, neutral] at hout
  rw [needUpdate, forceUpdate]
  exact h (Transition.along_concat.mp hnever).1 nonIncremental hout

theorem remembers_of_update (event : ClientEvent) (update : ∀ o, outstandingAfter o event = none)
    (history : k'.history = (k.record event).history) : k'.Remembers := by
  intro _ nonIncremental hout
  rw [history, Client.record, outstanding_concat, update] at hout
  cases hout

theorem Remembers.request (h : k.Remembers) (region : Region) (incremental : Bool) :
    (k.framebufferUpdateRequested region incremental).Remembers := by
  intro hnever nonIncremental hout
  refine ⟨rfl, ?_⟩
  intro hnon
  have hout : outstanding (k.history ++ [⟨.request region incremental, k.data.pendingJPEG.isSome⟩]) =
    some nonIncremental := hout
  rw [outstanding_concat, outstandingAfter, Option.some.injEq] at hout
  rw [hnon, Bool.or_eq_true] at hout
  show (k.data.forceUpdate || !incremental) = true
  rw [Bool.or_eq_true]
  refine hout.imp_left fun hbefore => ?_
  -- A non-incremental request was outstanding before.
  cases hold : outstanding k.history with
  | none => simp [hold] at hbefore
  | some before =>
    rw [hold, Option.getD_some] at hbefore
    exact (h (Transition.along_concat.mp hnever).1 before hold).2 hbefore

theorem remembers_continuousUpdates (enabled : Bool) :
    Remembers { k.record (.continuousUpdates enabled) with
      data := { k.data with continuousEnabled := enabled, needUpdate := enabled, forceUpdate := enabled } } := by
  intro hnever nonIncremental hout
  cases enabled with
  | true => exact ⟨rfl, fun _ => rfl⟩
  | false =>
    have hout : outstanding (k.history ++ [⟨.continuousUpdates false, k.data.pendingJPEG.isSome⟩]) =
      some nonIncremental := hout
    rw [outstanding_concat, (Transition.along_concat.mp hnever).2 rfl] at hout
    cases hout

theorem Remembers.change (hk : k.Remembers) (h : ClientChange decoder s k k') : k'.Remembers := by
  cases h with
  | other same => exact hk.of_eq same.history same.needUpdate same.forceUpdate
  | audioMessage | audioPacket => exact hk.record _ rfl rfl rfl rfl
  | output event isOpen idle plain capability =>
    have hneutral : outstandingAfter (outstanding k.history) event = outstanding k.history := by
      cases event <;> first | rfl | cases plain
    exact hk.record event hneutral rfl rfl rfl
  | serverInit bytes isOpen idle handshake => exact hk.record (.serverInit _ _ bytes) rfl rfl rfl rfl
  | request region incremental normal clipped => exact hk.request region incremental
  | continuousUpdates enabled normal => exact remembers_continuousUpdates enabled
  | flushed now result h =>
    obtain ⟨wire, pendingJPEG, jpegWritten, rfl⟩ := flushJPEG_eq h
    exact hk.of_eq rfl rfl rfl
  | expired now result h =>
    obtain ⟨wire, pendingJPEG, jpegWritten, rfl⟩ := flushJPEG_eq h
    exact hk.of_eq rfl rfl rfl
  | closed => exact hk.of_eq rfl rfl rfl
  | grown forceUpdate => exact hk.of_eq rfl rfl rfl
  | jpeg frame encoding now sequence needed width height h =>
    obtain ⟨-, rest, rfl⟩ := queueJPEG_eq h
    exact remembers_of_update (k := k) (.jpeg frame _) (fun _ => rfl) rfl
  | update frame result sequence needed idle latest decoded h =>
    rcases sendFramebufferUpdate_cases h with ⟨hf, -⟩ | ⟨-, -, bytes, ⟨-, -, rfl⟩ | ⟨-, rfl⟩⟩
    · cases hf
    · exact remembers_of_update (k := k) (.newFBSize _ _ _) (fun _ => rfl) rfl
    · exact remembers_of_update (k := k) (.update _ _ _ _) (fun _ => rfl) rfl

end Client

namespace Server
variable {s t : Server}

/-- The flags of every client remember its outstanding request. -/
def Remembers (s : Server) : Prop := s.clients.Nodup ∧ ∀ c, (s.client c).Remembers

theorem Remembers.change (hs : s.Remembers) (h : Change decoder s t) : t.Remembers := by
  refine ⟨h.nodup hs.1, ?_⟩
  intro c
  have hc := hs.2 c
  cases h.fate c with
  | same h stays => exact h ▸ hc
  | change h present => exact hc.change h
  | shut h stays => exact hc.of_eq (by rw [h]) (by rw [h]) (by rw [h])
  | marked region h stays => exact hc.of_eq (by rw [h]) (by rw [h]) (by rw [h])
  | connected fd version h =>
    rw [h]
    intro _ nonIncremental hout
    cases hout

theorem Remembers.resize (hs : s.Remembers) {width height : UInt16} (h : Resized s t width height) : t.Remembers := by
  refine ⟨hs.1.sublist h.clients, ?_⟩
  intro c
  rcases h.client_cases c with ⟨-, -, hclient⟩ | ⟨-, -, hclient⟩ | ⟨-, -, -, -, bytes, hclient⟩
  · exact (hs.2 c).of_eq (by rw [hclient]; rfl) (by rw [hclient]; rfl) (by rw [hclient]; rfl)
  · exact (hs.2 c).of_eq (by rw [hclient]; rfl) (by rw [hclient]; rfl) (by rw [hclient]; rfl)
  · rw [hclient]
    exact Client.remembers_of_update (k := s.client c) (.newFBSize width height bytes) (fun _ => rfl) rfl

theorem remembers_start (fps : Nat) (audioAvailable : Bool) (width height : UInt16) (listening : Finset Nat) :
    (start fps audioAvailable width height listening).Remembers :=
  ⟨List.nodup_nil, fun _ _ _ hout => by cases hout⟩

end Server

/-- A client that never disables continuous updates while a request is outstanding has `need_update` set as
    long as one is, and `force_update` if it was non-incremental. -/
theorem outstanding_remembered {fps : Nat} {audioAvailable : Bool} {width height : UInt16} {listening : Finset Nat}
    {actions : List ServerAction} {t : Server}
    (h : Transition.run (Server.step decoder) (Server.start fps audioAvailable width height listening) actions = some t)
    {c : ClientPtr}
    (never : ∀ pre entry post, (t.client c).history = pre ++ entry :: post →
      entry.event = .continuousUpdates false → outstanding pre = none)
    {nonIncremental : Bool} (asked : outstanding (t.client c).history = some nonIncremental) :
    (t.client c).data.needUpdate = true ∧ (nonIncremental = true → (t.client c).data.forceUpdate = true) :=
  (Server.run_invariant (Server.remembers_start fps audioAvailable width height listening) (fun _ => And.left)
    (fun _ _ => Server.Remembers.change) (fun _ _ _ _ hs => hs.resize) h).2 c never nonIncremental asked

/-- A client that disables continuous updates before it asks for the whole screen. -/
def disableThenRequest : List ServerAction :=
  [.pollClientEvents
    { now := 1, sendmsg := fun _ => .again, events :=
      [.accept 0 5 [82], .message 0 (.clientInit []), .message 0 (.setEncodings { continuous := true }),
        .message 0 (.continuousUpdates { available := List.replicate 9 0 }),
        .message 0 (.updateRequest 0 0 2 1 false)] }]

theorem outstanding_remembered_request : ∃ t,
    Transition.run (Server.step .grayRow) (Server.start 30 false 2 1 ∅) disableThenRequest = some t ∧
      ((t.client 0).history.any fun entry => entry.event = .continuousUpdates false) = true ∧
      (t.client 0).data.needUpdate = true ∧ (true = true → (t.client 0).data.forceUpdate = true) := by
  obtain ⟨t, h, hdisables, hnever, hasked⟩ : ∃ t,
      Transition.run (Server.step .grayRow) (Server.start 30 false 2 1 ∅) disableThenRequest = some t ∧
        ((t.client 0).history.any fun entry => entry.event = .continuousUpdates false) = true ∧
        ((List.range (t.client 0).history.length).all fun i =>
          ((t.client 0).history[i]?.map (·.event) ≠ some (.continuousUpdates false) ||
            outstanding ((t.client 0).history.take i) = none)) = true ∧
          outstanding (t.client 0).history = some true := ⟨_, rfl, rfl, rfl, rfl⟩
  refine ⟨t, h, hdisables, outstanding_remembered h (fun pre entry post hsplit hdisabled => ?_) hasked⟩
  rw [hsplit] at hnever
  have hentry := List.all_eq_true.mp hnever pre.length (by simp)
  simpa [hdisabled] using hentry

/-- A client that has asked for the whole screen, and then disables continuous updates. -/
def requestThenDisable : List ServerAction :=
  [.pollClientEvents
    { now := 1, sendmsg := fun _ => .again, events :=
      [.accept 0 5 [82], .message 0 (.clientInit []), .message 0 (.setEncodings { continuous := true }),
        .message 0 (.updateRequest 0 0 2 1 false),
        .message 0 (.continuousUpdates { available := List.replicate 9 0 })] }]

/-- A request is forgotten when continuous updates are disabled. -/
theorem continuousUpdates_forgets : ∃ t,
    Transition.run (Server.step .grayRow) (Server.start 30 false 2 1 ∅) requestThenDisable = some t ∧
      (t.client 0).sock.isSome = true ∧ outstanding (t.client 0).history = some true ∧
      (t.client 0).data.needUpdate = false ∧ (t.client 0).data.forceUpdate = false :=
  ⟨_, rfl, rfl, rfl, rfl, rfl⟩

end OnekvmVnc
