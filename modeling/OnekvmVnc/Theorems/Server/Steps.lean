import OnekvmVnc.Theorems.Server.Change

/-! Every step of the server that does not resize it is a sequence of changes: the loops of the source, one
    client after the other. -/

namespace OnekvmVnc

open Relation

variable {decoder : JPEGDecoder}

namespace Server
variable {s t : Server}

/-! ### Closing clients -/

theorem rfbCloseClient_client_self (c : ClientPtr) :
    (s.rfbCloseClient c).client c = { s.client c with sock := none } := by
  unfold rfbCloseClient
  cases h : (s.client c).sock with
  | none =>
    cases hk : s.client c
    simp_all
  | some fd => simp [modify]

theorem rfbCloseClient_client_of_ne {c d : ClientPtr} (h : d ≠ c) : (s.rfbCloseClient c).client d = s.client d := by
  unfold rfbCloseClient
  cases (s.client c).sock with
  | none => rfl
  | some fd => simp [modify, h]

@[simp] theorem rfbCloseClient_clients (c : ClientPtr) : (s.rfbCloseClient c).clients = s.clients := by
  unfold rfbCloseClient
  cases (s.client c).sock <;> rfl

theorem sameScreen_rfbCloseClient (c : ClientPtr) : SameScreen s (s.rfbCloseClient c) := by
  unfold rfbCloseClient
  cases (s.client c).sock <;> exact ⟨rfl, rfl, rfl, rfl, rfl, rfl, rfl, rfl, rfl⟩

theorem change_rfbCloseClient (c : ClientPtr) : Change decoder s (s.rfbCloseClient c) :=
  .close c (sameScreen_rfbCloseClient c) (rfbCloseClient_clients c) (fun _ => rfbCloseClient_client_of_ne)
    (rfbCloseClient_client_self c)

theorem sameScreen_gone (c : ClientPtr) : SameScreen s (s.rfbClientConnectionGone c) :=
  ⟨rfl, rfl, rfl, rfl, rfl, rfl, rfl, rfl, rfl⟩

theorem change_gone (c : ClientPtr) : Change decoder s (s.rfbClientConnectionGone c) :=
  .gone c (sameScreen_gone c) rfl rfl

theorem changes_closeClients (closing : List ClientPtr) : Changes decoder s (s.closeClients closing) := by
  unfold closeClients
  induction closing generalizing s with
  | nil => exact .refl
  | cons c closing ih => exact ((ReflTransGen.single (change_rfbCloseClient c)).tail (change_gone c)).trans ih

theorem changes_reapClosed (list : List ClientPtr) : Changes decoder s (reapClosed s list) := by
  induction list generalizing s with
  | nil => exact .refl
  | cons c rest ih =>
    rw [reapClosed]
    split
    · exact ReflTransGen.head (change_gone c) ih
    · exact ih

theorem reapClosed_client (list : List ClientPtr) : (reapClosed s list).client = s.client := by
  induction list generalizing s with
  | nil => rfl
  | cons c rest ih =>
    rw [reapClosed, ih]
    split <;> rfl

/-! ### JPEG writes -/

theorem changes_flushJPEGWrites (now : Int) (sendmsg : ClientPtr → SendResult) {list : List ClientPtr}
    (present : list ⊆ s.clients) : Changes decoder s (flushJPEGWrites now sendmsg s list) := by
  induction list generalizing s with
  | nil => exact .refl
  | cons c rest ih =>
    obtain ⟨hc, hrest⟩ := List.cons_subset.mp present
    rw [flushJPEGWrites]
    cases h : (s.client c).flushJPEG now (sendmsg c) with
    | mk k close =>
      cases close with
      | false => exact (changes_modify hc (.single (.flushed now (sendmsg c) h))).trans (ih hrest)
      | true =>
        refine ReflTransGen.head (.client c hc ((sameScreen_modify c _).trans (sameScreen_rfbCloseClient c)) ?_ ?_ ?_) (ih ?_)
        · rw [rfbCloseClient_clients, modify_clients]
        · intro d hd
          rw [rfbCloseClient_client_of_ne hd, modify_client_of_ne hd]
        · rw [rfbCloseClient_client_self, modify_client_self]
          exact .expired now (sendmsg c) h
        · rw [rfbCloseClient_clients]
          exact hrest

end Server

/-! ### Audio -/

namespace Client
variable {s : Server} {k : Client}

theorem sameCore_data {k : Client} {data : ClientData} (pendingJPEG : data.pendingJPEG = k.data.pendingJPEG)
    (jpegHeader : data.jpegHeader = k.data.jpegHeader) (jpegWritten : data.jpegWritten = k.data.jpegWritten)
    (needUpdate : data.needUpdate = k.data.needUpdate) (forceUpdate : data.forceUpdate = k.data.forceUpdate)
    (audioCapabilityPending : data.audioCapabilityPending = true →
      k.data.audioCapabilityPending = true ∨ k.normal = true) : SameCore k { k with data } :=
  ⟨rfl, rfl, rfl, pendingJPEG, jpegHeader, jpegWritten, needUpdate, forceUpdate, rfl, rfl, rfl, rfl, rfl, rfl, rfl,
    Or.inl, audioCapabilityPending⟩

theorem changes_writeExact (decoder : JPEGDecoder) (s : Server) {k' : Client} {event : ClientEvent} {ok : Bool}
    (idle : k.data.pendingJPEG = none)
    (plain : event.isPlain = true) (capability : ∀ w h, event = .audioCapability w h →
      w = s.width ∧ h = s.height ∧ k.data.audioCapabilityPending = true)
    (h : k.writeExact event ok = (k', true)) :
    ClientChange decoder s k k' ∧ k'.data = k.data := by
  unfold writeExact at h
  split at h
  · rename_i hopen
    simp only [Bool.and_eq_true] at hopen
    simp only [Prod.mk.injEq, and_true] at h
    subst h
    exact ⟨.output event hopen.1 idle plain capability, rfl⟩
  · simp at h

theorem writeExact_false {k' : Client} {event : ClientEvent} {ok : Bool} (h : k.writeExact event ok = (k', false)) :
    k' = k := by
  unfold writeExact at h
  split at h
  · simp at h
  · simpa [eq_comm] using h

theorem changes_deferAudio (queued : List (List Int16)) : ClientChange decoder s k (k.deferAudio queued) := by
  unfold deferAudio
  split
  · exact .other (sameCore_data rfl rfl rfl rfl rfl .inl)
  · exact .other (sameCore_data rfl rfl rfl rfl rfl .inl)

theorem changes_sendAudioCapability (decoder : JPEGDecoder) (s : Server) (ok : Bool) (idle : k.data.pendingJPEG = none) :
    ClientChanges decoder s k (k.sendAudioCapability s.width s.height ok).1 ∧
      (k.sendAudioCapability s.width s.height ok).1.data.pendingJPEG = none := by
  unfold sendAudioCapability
  split
  · rename_i hcap
    cases h : k.writeExact (.audioCapability s.width s.height) ok with
    | mk k' sent =>
      cases sent with
      | false =>
        obtain rfl := writeExact_false h
        exact ⟨.refl, idle⟩
      | true =>
        obtain ⟨hchange, hdata⟩ := changes_writeExact decoder s idle rfl (fun w h he => by
          cases he
          exact ⟨rfl, rfl, hcap⟩) h
        refine ⟨(ReflTransGen.single hchange).tail (.other (sameCore_data rfl rfl rfl rfl rfl (fun hf => by cases hf))), ?_⟩
        simp only [if_true, hdata]
        exact idle
  · exact ⟨.refl, idle⟩

theorem changes_beginAudio (decoder : JPEGDecoder) (s : Server) (ok : Bool) (idle : k.data.pendingJPEG = none) :
    ClientChanges decoder s k (k.beginAudio ok).1 ∧ (k.beginAudio ok).1.data.pendingJPEG = none := by
  unfold beginAudio
  split
  · exact ⟨.refl, idle⟩
  · cases h : k.writeExact (.audioControl 1) ok with
    | mk k' sent =>
      cases sent with
      | false =>
        obtain rfl := writeExact_false h
        exact ⟨.refl, idle⟩
      | true =>
        obtain ⟨hchange, hdata⟩ := changes_writeExact decoder s idle rfl (fun w h he => by cases he) h
        refine ⟨(ReflTransGen.single hchange).tail (.other (sameCore_data rfl rfl rfl rfl rfl .inl)), ?_⟩
        simp only [if_true, hdata]
        exact idle

theorem changes_sendAudioData (decoder : JPEGDecoder) (s : Server) (pcm : List UInt8) (ok : Bool)
    (idle : k.data.pendingJPEG = none) :
    ClientChanges decoder s k (k.sendAudioData pcm ok).1 ∧ (k.sendAudioData pcm ok).1.data.pendingJPEG = none := by
  unfold sendAudioData
  split
  · exact ⟨.refl, idle⟩
  · split
    · exact ⟨.refl, idle⟩
    · cases h : k.writeExact (.audioData pcm) ok with
      | mk k' sent =>
        cases sent with
        | false =>
          obtain rfl := writeExact_false h
          exact ⟨.refl, idle⟩
        | true =>
          obtain ⟨hchange, hdata⟩ := changes_writeExact decoder s idle rfl (fun w h he => by cases he) h
          exact ⟨.single hchange, by rw [hdata]; exact idle⟩

theorem changes_sendDeferred (ok : Nat → Bool) (packets : List (List Int16)) (idle : k.data.pendingJPEG = none) :
    ClientChanges decoder s k (k.sendDeferred ok packets).1 := by
  induction packets generalizing k ok with
  | nil => exact .refl
  | cons source rest ih =>
    rw [sendDeferred]
    dsimp only
    generalize (convertAudio source k.data.audioFormat k.data.audioResamplePosition) = converted
    have htaken : ClientChange decoder s k (k.record (.audioPacket source)) := .audioPacket source
    have hfirst : ClientChanges decoder s k { k.record (.audioPacket source) with
        data := { k.data with audioResamplePosition := converted.2 } } :=
      (ReflTransGen.single htaken).tail (.other (sameCore_data rfl rfl rfl rfl rfl .inl))
    obtain ⟨hsend, hidle⟩ := changes_sendAudioData decoder s converted.1 (ok 0)
      (k := { k.record (.audioPacket source) with data := { k.data with audioResamplePosition := converted.2 } }) idle
    split
    · exact (hfirst.trans hsend).trans (ih _ hidle)
    · exact hfirst.trans hsend

/-- How `ProcessAudio` ends for a client whose packets are deferred: the client after it, and whether it is to be
    closed. -/
inductive AudioPass (k : Client) (width height : UInt16) (ok : Nat → Bool) : Client × Bool → Prop
  | overloaded (enabled : k.data.audioEnabled = true)
      (full : maxDeferredAudioSamples < k.data.deferredAudioSamples) : AudioPass k width height ok (k, true)
  | delayed (fits : k.data.audioEnabled = true → k.data.deferredAudioSamples ≤ maxDeferredAudioSamples)
      (pending : k.data.pendingJPEG.isSome = true) : AudioPass k width height ok (k, false)
  | unannounced {k₁ : Client} (idle : k.data.pendingJPEG = none)
      (capability : k.sendAudioCapability width height (ok 0) = (k₁, false)) : AudioPass k width height ok (k₁, true)
  | silent {k₁ : Client} (fits : k.data.audioEnabled = true → k.data.deferredAudioSamples ≤ maxDeferredAudioSamples)
      (idle : k.data.pendingJPEG = none) (capability : k.sendAudioCapability width height (ok 0) = (k₁, true))
      (nothing : k₁.data.audioEnabled = false ∨ k₁.data.deferredAudio = []) : AudioPass k width height ok (k₁, false)
  | unbegun {k₁ k₂ : Client} (idle : k.data.pendingJPEG = none)
      (capability : k.sendAudioCapability width height (ok 0) = (k₁, true)) (enabled : k₁.data.audioEnabled = true)
      (begun : k₁.beginAudio (ok 1) = (k₂, false)) : AudioPass k width height ok (k₂, true)
  | broken {k₁ k₂ k₃ : Client} (idle : k.data.pendingJPEG = none)
      (capability : k.sendAudioCapability width height (ok 0) = (k₁, true)) (enabled : k₁.data.audioEnabled = true)
      (begun : k₁.beginAudio (ok 1) = (k₂, true))
      (deferred : k₂.sendDeferred (fun n => ok (n + 2)) k₂.data.deferredAudio = (k₃, false)) :
      AudioPass k width height ok
        ({ k₃ with data := { k₃.data with deferredAudio := [], deferredAudioSamples := 0 } }, true)
  | sent {k₁ k₂ k₃ : Client} (fits : k.data.audioEnabled = true → k.data.deferredAudioSamples ≤ maxDeferredAudioSamples)
      (idle : k.data.pendingJPEG = none) (capability : k.sendAudioCapability width height (ok 0) = (k₁, true))
      (enabled : k₁.data.audioEnabled = true) (begun : k₁.beginAudio (ok 1) = (k₂, true))
      (deferred : k₂.sendDeferred (fun n => ok (n + 2)) k₂.data.deferredAudio = (k₃, true)) :
      AudioPass k width height ok
        ({ k₃ with data := { k₃.data with deferredAudio := [], deferredAudioSamples := 0 } }, false)

theorem processAudio_pass (k : Client) (width height : UInt16) (queued : List (List Int16)) (ok : Nat → Bool) :
    AudioPass (k.deferAudio queued) width height ok (k.processAudio width height queued ok) := by
  unfold processAudio
  generalize k.deferAudio queued = k
  dsimp only
  split
  · rename_i hfull
    rw [Bool.and_eq_true, decide_eq_true_eq] at hfull
    exact .overloaded hfull.1 hfull.2
  · rename_i hroom
    have hfits : k.data.audioEnabled = true → k.data.deferredAudioSamples ≤ maxDeferredAudioSamples := by
      simpa using hroom
    split
    · exact .delayed hfits ‹_›
    · rename_i hidle
      have hidle : k.data.pendingJPEG = none := by simpa using hidle
      cases hcap : k.sendAudioCapability width height (ok 0) with
      | mk k₁ announced =>
        cases announced with
        | false => exact .unannounced hidle hcap
        | true =>
          dsimp only
          split
          · cases ‹_›
          · split
            · rename_i hnothing
              exact .silent hfits hidle hcap (by simpa using hnothing)
            · rename_i hsome
              have henabled : k₁.data.audioEnabled = true := by
                by_contra hdisabled
                simp [hdisabled] at hsome
              cases hbegin : k₁.beginAudio (ok 1) with
              | mk k₂ begun =>
                cases begun with
                | false => exact .unbegun hidle hcap henabled hbegin
                | true =>
                  dsimp only
                  split
                  · cases ‹_›
                  · cases hsend : k₂.sendDeferred (fun n => ok (n + 2)) k₂.data.deferredAudio with
                    | mk k₃ all =>
                      cases all with
                      | false => exact .broken hidle hcap henabled hbegin hsend
                      | true => exact .sent hfits hidle hcap henabled hbegin hsend

theorem changes_processAudio (queued : List (List Int16)) (ok : Nat → Bool) :
    ClientChanges decoder s k (k.processAudio s.width s.height queued ok).1 := by
  have hdefer : ClientChange decoder s k (k.deferAudio queued) := changes_deferAudio queued
  have hpass := processAudio_pass k s.width s.height queued ok
  generalize k.deferAudio queued = k₀ at hdefer hpass
  have announce {k₁ : Client} {sent : Bool} (idle : k₀.data.pendingJPEG = none)
      (h : k₀.sendAudioCapability s.width s.height (ok 0) = (k₁, sent)) :
      ClientChanges decoder s k k₁ ∧ k₁.data.pendingJPEG = none := by
    obtain ⟨hcap, hidle⟩ := changes_sendAudioCapability decoder s (ok 0) idle
    rw [h] at hcap hidle
    exact ⟨.head hdefer hcap, hidle⟩
  have start {k₁ k₂ : Client} {sent : Bool} (hk₁ : ClientChanges decoder s k k₁ ∧ k₁.data.pendingJPEG = none)
      (h : k₁.beginAudio (ok 1) = (k₂, sent)) : ClientChanges decoder s k k₂ ∧ k₂.data.pendingJPEG = none := by
    obtain ⟨hbegin, hidle⟩ := changes_beginAudio decoder s (ok 1) hk₁.2
    rw [h] at hbegin hidle
    exact ⟨hk₁.1.trans hbegin, hidle⟩
  generalize k.processAudio s.width s.height queued ok = r at hpass
  cases hpass with
  | overloaded | delayed => exact .single hdefer
  | unannounced idle capability | silent _ idle capability _ => exact (announce idle capability).1
  | unbegun idle capability _ begun => exact (start (announce idle capability) begun).1
  | @broken _ k₂ _ idle capability _ begun deferred | @sent _ k₂ _ _ idle capability _ begun deferred =>
    obtain ⟨hbegin, hidle⟩ := start (announce idle capability) begun
    have hsend : ClientChanges decoder s k₂ (k₂.sendDeferred (fun n => ok (n + 2)) k₂.data.deferredAudio).1 :=
      changes_sendDeferred _ _ hidle
    rw [deferred] at hsend
    exact (hbegin.trans hsend).tail (.other (sameCore_data rfl rfl rfl rfl rfl .inl))

end Client

namespace Server
variable {s t : Server}

theorem changes_processAudioLoop (queued : List (List Int16)) (ok : ClientPtr → Nat → Bool) {list : List ClientPtr}
    (present : list ⊆ s.clients) : Changes decoder s (processAudioLoop queued ok s list).1 := by
  induction list generalizing s with
  | nil => exact .refl
  | cons c rest ih =>
    obtain ⟨hc, hrest⟩ := List.cons_subset.mp present
    rw [processAudioLoop]
    exact (changes_modify hc (Client.changes_processAudio queued (ok c))).trans (ih hrest)

theorem changes_processAudio (ok : ClientPtr → Nat → Bool) : Changes decoder s (s.processAudio ok) := by
  have htaken : Change decoder s { s with audioQueue := [] } :=
    .other ⟨rfl, rfl, rfl, rfl, rfl, rfl, rfl, rfl, rfl⟩ rfl rfl
  exact (ReflTransGen.head htaken (changes_processAudioLoop s.audioQueue ok (List.Subset.refl s.clients))).trans
    (changes_closeClients _)

end Server

/-! ### Messages -/

namespace Client
variable {s : Server} {k : Client}

theorem changes_endAudio (decoder : JPEGDecoder) (s : Server) (ok : Bool) (idle : k.data.pendingJPEG = none) :
    ClientChanges decoder s k (k.endAudio ok).1 ∧ (k.endAudio ok).1.data.pendingJPEG = none := by
  unfold endAudio
  split
  · cases h : k.writeExact (.audioControl 0) ok with
    | mk k' sent =>
      cases sent with
      | false =>
        obtain rfl := writeExact_false h
        exact ⟨.refl, idle⟩
      | true =>
        obtain ⟨hchange, hdata⟩ := changes_writeExact decoder s idle rfl (fun w h he => by cases he) h
        exact ⟨.single hchange, by rw [hdata]; exact idle⟩
  · exact ⟨.refl, idle⟩

theorem changes_disableAudio (decoder : JPEGDecoder) (s : Server) (ok : Bool) (idle : k.data.pendingJPEG = none) :
    ClientChanges decoder s k (k.disableAudio ok).1 ∧ (k.disableAudio ok).1.data.pendingJPEG = none := by
  unfold disableAudio
  dsimp only
  have hrecord : ClientChange decoder s k (k.record (.audioMessage .disable)) := .audioMessage .disable
  obtain ⟨hend, hidle⟩ := changes_endAudio decoder s ok (k := k.record (.audioMessage .disable)) idle
  exact ⟨(ReflTransGen.head hrecord hend).tail (.other (sameCore_data rfl rfl rfl rfl rfl .inl)), hidle⟩

theorem changes_setAudioFormat (decoder : JPEGDecoder) (s : Server) (format : List UInt8) (ok : Bool)
    (idle : k.data.pendingJPEG = none) :
    ClientChanges decoder s k (k.setAudioFormat format ok).1 ∧ (k.setAudioFormat format ok).1.data.pendingJPEG = none := by
  unfold setAudioFormat
  dsimp only
  split
  · exact ⟨.refl, idle⟩
  · obtain ⟨hend, hidle⟩ := changes_endAudio decoder s ok idle
    split
    · exact ⟨hend, hidle⟩
    · exact ⟨(hend.tail (.audioMessage _)).tail (.other (sameCore_data rfl rfl rfl rfl rfl .inl)), hidle⟩

theorem changes_audioHandleMessage (decoder : JPEGDecoder) (s : Server) (input : SocketInput) (ok : Bool)
    (idle : k.data.pendingJPEG = none) :
    ClientChanges decoder s k (k.audioHandleMessage input ok).1 ∧
      (k.audioHandleMessage input ok).1.data.pendingJPEG = none := by
  unfold audioHandleMessage
  cases input.peek with
  | none => exact ⟨.refl, idle⟩
  | some subtype =>
    dsimp only
    split
    · exact ⟨.refl, idle⟩
    · cases input.readExact 3 with
      | none => exact ⟨.refl, idle⟩
      | some read =>
        dsimp only
        split
        · exact ⟨.refl, idle⟩
        · split
          · refine ⟨(ReflTransGen.single (.audioMessage .enable)).tail (.other ?_), idle⟩
            exact sameCore_data rfl rfl rfl rfl rfl .inl
          · split
            · exact changes_disableAudio decoder s ok idle
            · split
              · cases read.2.readExact 6 with
                | none => exact ⟨.refl, idle⟩
                | some format => exact changes_setAudioFormat decoder s format.1 ok idle
              · exact ⟨.refl, idle⟩

theorem changes_continuousHandleMessage (decoder : JPEGDecoder) (s : Server) (input : SocketInput)
    (normal : k.normal = true) (idle : k.data.pendingJPEG = none) :
    ClientChanges decoder s k (k.continuousHandleMessage input).1 ∧
      (k.continuousHandleMessage input).1.data.pendingJPEG = none := by
  unfold continuousHandleMessage
  split
  · exact ⟨.refl, idle⟩
  · cases input.readExact 9 with
    | none => exact ⟨.refl, idle⟩
    | some read => exact ⟨.single (.continuousUpdates _ normal), idle⟩

theorem changes_handle (decoder : JPEGDecoder) (s : Server) (message : ClientMessage) (isOpen : k.sock.isSome = true)
    (idle : k.data.pendingJPEG = none) :
    ClientChanges decoder s k (k.handle s.screenWidth s.screenHeight s.audioAvailable message).1 ∧
      (k.handle s.screenWidth s.screenHeight s.audioAvailable message).1.data.pendingJPEG = none := by
  cases message with
  | other reply ublen =>
    refine ⟨(ReflTransGen.single (.output (.reply reply) isOpen idle rfl (fun w h he => by cases he))).tail (.other ?_), idle⟩
    exact ⟨rfl, rfl, rfl, rfl, rfl, rfl, rfl, rfl, rfl, rfl, rfl, rfl, rfl, rfl, rfl, .inl, .inl⟩
  | clientInit serverInit =>
    simp only [handle]
    split
    · exact ⟨.refl, idle⟩
    · rename_i hnormal
      exact ⟨.single (.serverInit serverInit isOpen idle (by simpa using hnormal)), idle⟩
  | setEncodings e =>
    simp only [handle]
    split
    · rename_i hnormal
      refine ⟨.single (.other ?_), idle⟩
      exact ⟨rfl, rfl, rfl, rfl, rfl, rfl, rfl, rfl, rfl, rfl, rfl, rfl, rfl, rfl, rfl, fun _ => .inr hnormal,
        fun _ => .inr hnormal⟩
    · exact ⟨.refl, idle⟩
  | updateRequest x y w h incremental =>
    simp only [handle]
    split
    · rename_i hnormal
      exact ⟨.single (.request _ incremental hnormal Finset.inter_subset_right), idle⟩
    · exact ⟨.refl, idle⟩
  | continuousUpdates input =>
    simp only [handle]
    split
    · rename_i hnormal
      exact changes_continuousHandleMessage decoder s input hnormal idle
    · exact ⟨.refl, idle⟩
  | audio input ok =>
    simp only [handle]
    split
    · exact changes_audioHandleMessage decoder s input ok idle
    · exact ⟨.refl, idle⟩
  | close => exact ⟨.refl, idle⟩

end Client

/-! ### Polling -/

namespace Server
variable {s t : Server}

/-- No client with a JPEG to be written is read. -/
def Quiet (s : Server) : Prop :=
  ∀ c ∈ s.clients, (s.client c).data.pendingJPEG.isSome = true → s.readable c = false

theorem readable_eq_false {c : ClientPtr} : s.readable c = false ↔ ∀ fd, (s.client c).sock = some fd → fd ∉ s.allFds := by
  unfold readable
  cases (s.client c).sock <;> simp

theorem rfbCloseClient_allFds (c : ClientPtr) : (s.rfbCloseClient c).allFds ⊆ s.allFds := by
  unfold rfbCloseClient
  cases (s.client c).sock with
  | none => exact Finset.Subset.refl _
  | some fd => exact Finset.erase_subset fd s.allFds

/-- A client that is idle and keeps its socket, or loses it, and descriptors that are no more than before. -/
theorem Quiet.of_client (h : Quiet s) {c : ClientPtr} (idle : (t.client c).data.pendingJPEG = none)
    (clients : t.clients = s.clients) (others : ∀ d, d ≠ c → t.client d = s.client d) (fds : t.allFds ⊆ s.allFds) :
    Quiet t := by
  intro d hd hpending
  have hdc : d ≠ c := fun hdc => by
    rw [hdc, idle] at hpending
    cases hpending
  rw [others d hdc] at hpending
  rw [clients] at hd
  -- The new descriptor is none that a client has, so no deferred client becomes readable by it.
  have hs := readable_eq_false.mp (h d hd hpending)
  refine readable_eq_false.mpr fun fd hfd hmem => hs fd ?_ (fds hmem)
  rw [← others d hdc]
  exact hfd

/-- A client that is read is open, and no JPEG is being written to it. -/
theorem Quiet.idle (h : Quiet s) {c : ClientPtr} (hc : c ∈ s.clients) (readable : s.readable c = true) :
    (s.client c).sock.isSome = true ∧ (s.client c).data.pendingJPEG = none := by
  refine ⟨?_, ?_⟩
  · unfold Server.readable at readable
    cases hs : (s.client c).sock with
    | none => simp [hs] at readable
    | some fd => rfl
  · cases hp : (s.client c).data.pendingJPEG with
    | none => rfl
    | some frame => simp [h c hc (by rw [hp]; rfl)] at readable

theorem handle_eq (c : ClientPtr) (message : ClientMessage) :
    (s.handle c message).clients = s.clients ∧ (∀ d, d ≠ c → (s.handle c message).client d = s.client d) ∧
      (s.handle c message).allFds ⊆ s.allFds ∧
      ((s.handle c message).client c).data =
        ((s.client c).handle s.screenWidth s.screenHeight s.audioAvailable message).1.data := by
  unfold handle
  generalize (s.client c).handle s.screenWidth s.screenHeight s.audioAvailable message = r
  dsimp only
  split
  · refine ⟨by simp, ?_, (rfbCloseClient_allFds c).trans (Finset.Subset.refl _), ?_⟩
    · intro d hd
      rw [rfbCloseClient_client_of_ne hd, modify_client_of_ne hd]
    · rw [rfbCloseClient_client_self, modify_client_self]
  · exact ⟨rfl, fun d hd => modify_client_of_ne hd _, Finset.Subset.refl _, by rw [modify_client_self]⟩

theorem checkFd_changes (h : Quiet s) {event : LibraryEvent} (he : s.checkFd event = some t) :
    Changes decoder s t ∧ Quiet t := by
  cases event with
  | accept c fd version =>
    simp only [checkFd, Option.ite_none_right_eq_some, Option.some.injEq] at he
    obtain ⟨⟨hnew, hfd, hfree⟩, rfl⟩ := he
    refine ⟨.single (.accept c fd version hnew), ?_⟩
    intro d hd hpending
    by_cases hdc : d = c
    · simp [hdc, accept, newClient, Client.output, Client.record] at hpending
    · have hd' : d ∈ s.clients := by simpa [accept, hdc] using hd
      have hclient : (s.accept c fd version).client d = s.client d := by simp [accept, modify, hdc]
      rw [hclient] at hpending
      have hs := readable_eq_false.mp (h d hd' hpending)
      refine readable_eq_false.mpr fun g hg hmem => ?_
      rw [hclient] at hg
      rcases Finset.mem_insert.mp hmem with rfl | hmem
      · exact hfree d hd' hg
      · exact hs g hg hmem
  | message c message =>
    simp only [checkFd, Option.ite_none_right_eq_some, Option.some.injEq] at he
    obtain ⟨⟨hc, hreadable⟩, rfl⟩ := he
    obtain ⟨hopen, hidle⟩ := h.idle hc hreadable
    obtain ⟨hchanges, hidle'⟩ := Client.changes_handle decoder s message hopen hidle
    obtain ⟨hclients, hothers, hfds, hdata⟩ := handle_eq (s := s) c message
    refine ⟨?_, h.of_client (by rw [hdata]; exact hidle') hclients hothers hfds⟩
    unfold handle
    dsimp only
    split
    · exact (changes_modify hc hchanges).tail (change_rfbCloseClient c)
    · exact changes_modify hc hchanges

theorem rfbCheckFds_changes (h : Quiet s) {events : List LibraryEvent} (he : s.rfbCheckFds events = some t) :
    Changes decoder s t := by
  induction events generalizing s with
  | nil =>
    obtain rfl : s = t := by simpa [rfbCheckFds] using he
    exact .refl
  | cons event events ih =>
    simp only [rfbCheckFds, List.foldlM_cons, Option.bind_eq_bind, Option.bind_eq_some_iff] at he
    obtain ⟨u, hu, he⟩ := he
    obtain ⟨hchanges, hquiet⟩ : Changes decoder s u ∧ Quiet u := checkFd_changes h hu
    exact hchanges.trans (ih hquiet he)

/-- With the deferred descriptors cleared, no client with a JPEG to be written is read. -/
theorem quiet_clearFds : Quiet (s.clearFds s.deferred) := by
  intro c hc hpending
  refine readable_eq_false.mpr fun fd hfd hmem => ?_
  refine (Finset.mem_sdiff.mp hmem).2 (List.mem_toFinset.mpr (List.mem_map.mpr ⟨(c, fd), ?_, rfl⟩))
  have hfd : (s.client c).sock = some fd := hfd
  have hpending : (s.client c).data.pendingJPEG.isSome = true := hpending
  exact List.mem_filterMap.mpr ⟨c, hc, by simp [hfd, hpending]⟩

theorem changes_restoreFds (fds : List (ClientPtr × Nat)) : Changes decoder s (restoreFds s fds) := by
  induction fds generalizing s with
  | nil => exact .refl
  | cons p rest ih =>
    obtain ⟨c, fd⟩ := p
    rw [restoreFds]
    split
    · have hset : Change decoder s { s with allFds := insert fd s.allFds, maxFd := max s.maxFd fd } :=
        .other ⟨rfl, rfl, rfl, rfl, rfl, rfl, rfl, rfl, rfl⟩ rfl rfl
      exact ReflTransGen.head hset ih
    · exact ih

theorem restoreFds_client (fds : List (ClientPtr × Nat)) : (restoreFds s fds).client = s.client := by
  induction fds generalizing s with
  | nil => rfl
  | cons p rest ih =>
    rw [restoreFds, ih]
    split <;> rfl

theorem pollClientEvents_changes {env : PollEnv} (h : s.pollClientEvents env = some t) : Changes decoder s t := by
  simp only [pollClientEvents, Option.map_eq_some_iff] at h
  obtain ⟨v, hv, rfl⟩ := h
  have hflushed : Changes decoder s (flushJPEGWrites env.now env.sendmsg s s.clients) :=
    changes_flushJPEGWrites env.now env.sendmsg (List.Subset.refl s.clients)
  generalize flushJPEGWrites env.now env.sendmsg s s.clients = u at hflushed hv
  have hreaped := hflushed.trans (changes_reapClosed u.clients)
  generalize reapClosed u u.clients = w at hreaped hv
  have hcleared : Change decoder w (w.clearFds w.deferred) :=
    .other ⟨rfl, rfl, rfl, rfl, rfl, rfl, rfl, rfl, rfl⟩ rfl rfl
  have hchecked := (hreaped.tail hcleared).trans (rfbCheckFds_changes quiet_clearFds hv)
  exact (hchecked.trans (changes_restoreFds w.deferred)).trans (changes_reapClosed _)

end Server

/-! ### Frames -/

namespace JPEGDecoder
variable {decoder : JPEGDecoder} {data : List UInt8} {out : List UInt16} {width height : Nat}

/-- Decoding that succeeds has written at least one pixel. -/
theorem decodeRows_ne_nil {rows y : Nat} (hwidth : width ≠ 0) (hrows : rows ≠ 0)
    (h : (decoder.decodeRows data width rows y out).2 = true) : (decoder.decodeRows data width rows y out).1 ≠ [] := by
  induction rows generalizing y out with
  | zero => exact absurd rfl hrows
  | succ rows ih =>
    rw [decodeRows] at h ⊢
    cases hrow : decoder.scanline data y with
    | none => simp [hrow] at h
    | some row =>
      simp only [hrow] at h ⊢
      cases rows with
      | zero => simp [decodeRows, writeRow, hwidth]
      | succ rows => exact ih (Nat.succ_ne_zero rows) h

theorem decode_ne_nil (h : (decoder.decodeJPEGToRGB565 data out width height).2 = true) :
    (decoder.decodeJPEGToRGB565 data out width height).1 ≠ [] ∧ width ≠ 0 ∧ height ≠ 0 := by
  unfold decodeJPEGToRGB565 at h ⊢
  split at h
  · simp at h
  · rename_i hsize
    simp only [not_or] at hsize
    rw [if_neg (by simp [hsize])]
    cases hheader : decoder.header data with
    | none => simp [hheader] at h
    | some header =>
      simp only [hheader] at h ⊢
      split at h
      · simp at h
      · rename_i hmatch
        rw [if_neg hmatch]
        simp only [Bool.and_eq_true] at h
        exact ⟨decodeRows_ne_nil hsize.2.1 hsize.2.2 h.1, hsize.2.1, hsize.2.2⟩

end JPEGDecoder

namespace Server
variable {s t : Server}

/-- Everything but the clients' modified regions, the framebuffer and the decoder state. -/
structure SameFrame (s t : Server) : Prop where
  size : t.width = s.width ∧ t.height = s.height ∧ t.screenWidth = s.screenWidth ∧ t.screenHeight = s.screenHeight
  latestFrame : t.latestFrame = s.latestFrame
  latestSequence : t.latestSequence = s.latestSequence
  clients : t.clients = s.clients
  client : ∀ c, ∃ region, t.client c = { s.client c with modifiedRegion := region }

theorem SameFrame.refl : SameFrame s s := ⟨⟨rfl, rfl, rfl, rfl⟩, rfl, rfl, rfl, fun _ => ⟨_, rfl⟩⟩

theorem SameFrame.data (h : SameFrame s t) (c : ClientPtr) : (t.client c).data = (s.client c).data := by
  obtain ⟨region, hclient⟩ := h.client c
  rw [hclient]

theorem sameFrame_markTiles (tiles : List TileRect) : SameFrame s (s.markTiles tiles) := by
  unfold markTiles
  induction tiles generalizing s with
  | nil => exact .refl
  | cons tile tiles ih =>
    have h := ih (s := s.rfbMarkRectAsModified tile.x tile.y (tile.x + tile.width) (tile.y + tile.height))
    refine ⟨h.size, h.latestFrame, h.latestSequence, h.clients, ?_⟩
    intro c
    obtain ⟨region, hclient⟩ := h.client c
    exact ⟨region, hclient⟩

theorem sameFrame_decodeLatestFrame (frame : JPEGFrame) (sequence : Nat) :
    SameFrame s (s.decodeLatestFrame decoder frame sequence).1 := by
  unfold decodeLatestFrame
  split
  · exact .refl
  · dsimp only
    split
    · exact ⟨⟨rfl, rfl, rfl, rfl⟩, rfl, rfl, rfl, fun _ => ⟨_, rfl⟩⟩
    · exact ⟨(sameFrame_markTiles _).size, (sameFrame_markTiles _).latestFrame, (sameFrame_markTiles _).latestSequence,
        (sameFrame_markTiles _).clients, (sameFrame_markTiles _).client⟩

/-- After `DecodeLatestFrame` succeeded, the frame is the decoded one. -/
theorem decodeLatestFrame_decoded {frame : JPEGFrame} {sequence : Nat}
    (h : s.decodeLatestFrame decoder frame sequence = (t, true)) : t.decodedSequence = sequence ∧ t.previousRGB ≠ [] := by
  unfold decodeLatestFrame at h
  split at h
  · rename_i hcached
    cases h
    exact hcached
  · dsimp only at h
    split at h
    · simp at h
    · rename_i hok
      cases h
      obtain ⟨hne, hwidth, hheight⟩ := JPEGDecoder.decode_ne_nil (by simpa using hok)
      have hsize : s.width.toNat * s.height.toNat ≠ 0 := Nat.mul_ne_zero hwidth hheight
      refine ⟨rfl, ?_⟩
      simpa [List.take_eq_nil_iff, hne] using hsize

end Server

/-- What the loop of `ProcessFrame` keeps: it goes by changes of the server, with the frame that it has
    read at first. -/
structure FrameLoop.Sound (decoder : JPEGDecoder) (s : Server) (frame : JPEGFrame) (l : FrameLoop) : Prop where
  changes : Changes decoder s l.server
  clients : l.server.clients = s.clients
  latest : l.server.latestFrame = some frame
  sequence : l.server.latestSequence = s.latestSequence
  width : frame.width = l.server.width
  height : frame.height = l.server.height
  decoded : l.decoded = true → l.server.decodedSequence = l.server.latestSequence ∧ l.server.previousRGB ≠ []

namespace FrameLoop
variable {s : Server} {frame : JPEGFrame} {l : FrameLoop} {env : Server.FrameEnv}

theorem Sound.modify (h : Sound decoder s frame l) {c : ClientPtr} (present : c ∈ s.clients) {k : Client}
    (hk : ClientChanges decoder l.server (l.server.client c) k) (sentJPEG sentFramebuffer : Bool) (closing : List ClientPtr) :
    Sound decoder s frame { l with server := l.server.modify c fun _ => k, sentJPEG, sentFramebuffer, closing } :=
  ⟨h.changes.trans (Server.changes_modify (h.clients ▸ present) hk), h.clients, h.latest, h.sequence, h.width, h.height,
    h.decoded⟩

theorem Sound.close (h : Sound decoder s frame l) (c : ClientPtr) : Sound decoder s frame (l.close c) :=
  ⟨h.changes, h.clients, h.latest, h.sequence, h.width, h.height, h.decoded⟩

theorem sendJPEG_eq {k k' : Client} {now : Int} {image previous : Nat × Nat → Option UInt16}
    (h : (if k.wantsNativeJPEG then k.sendNativeJPEG frame now image previous
      else k.sendJPEG frame now image previous) = (k', true)) :
    ∃ encoding, k.queueJPEG frame encoding now image previous = (k', true) := by
  split at h
  · unfold Client.sendNativeJPEG at h
    dsimp only at h
    split at h
    · simp at h
    · exact ⟨_, h⟩
  · unfold Client.sendJPEG at h
    split at h
    · simp at h
    · exact ⟨_, h⟩

theorem Sound.serveJPEG (h : Sound decoder s frame l) {c : ClientPtr} (present : c ∈ s.clients) {sequence : Nat}
    (needed : (l.server.client c).data.needUpdate = true) :
    Sound decoder s frame (l.serveJPEG decoder env frame sequence c) := by
  unfold FrameLoop.serveJPEG
  dsimp only
  cases hsend : (if (l.server.client c).wantsNativeJPEG then
      (l.server.client c).sendNativeJPEG frame (env.queued c)
        (Server.image decoder frame l.server.width l.server.height) l.server.previous
    else (l.server.client c).sendJPEG frame (env.queued c)
      (Server.image decoder frame l.server.width l.server.height) l.server.previous) with
  | mk k ok =>
    cases ok with
    | false => exact h.close c
    | true =>
      obtain ⟨encoding, hqueue⟩ := sendJPEG_eq hsend
      exact h.modify present (.single (.jpeg frame encoding _ sequence needed h.width h.height hqueue)) true l.sentFramebuffer
        l.closing

theorem Sound.serveFramebuffer (h : Sound decoder s frame l) {c : ClientPtr} (present : c ∈ s.clients) {sequence : Nat}
    (hdecoded : l.decoded = true)
    (needed : (l.server.client c).data.needUpdate = true) (idle : (l.server.client c).data.pendingJPEG = none) :
    Sound decoder s frame (l.serveFramebuffer decoder env frame sequence c) := by
  unfold FrameLoop.serveFramebuffer Client.sendFramebuffer
  dsimp only
  have hgrown : ClientChange decoder l.server (l.server.client c)
      ((l.server.client c).growRegions l.server.width l.server.height (l.server.client c).data.forceUpdate) := .grown _
  have hidle : ((l.server.client c).growRegions l.server.width l.server.height
      (l.server.client c).data.forceUpdate).data.pendingJPEG = none := idle
  have hneeded : ((l.server.client c).growRegions l.server.width l.server.height
      (l.server.client c).data.forceUpdate).data.needUpdate = true := needed
  generalize (l.server.client c).growRegions l.server.width l.server.height
    (l.server.client c).data.forceUpdate = k at hgrown hidle hneeded
  by_cases hempty : k.modifiedRegion ∩ k.requestedRegion = ∅
  · rw [if_pos hempty]
    exact h.modify present (.single hgrown) l.sentJPEG l.sentFramebuffer l.closing
  · rw [if_neg hempty]
    cases hsend : k.sendFramebufferUpdate l.server.width l.server.height l.server.pixels
        (Server.image decoder frame l.server.width l.server.height) (env.update c) with
    | mk k' ok =>
      cases ok with
      | false =>
        rcases Client.sendFramebufferUpdate_cases hsend with ⟨-, rfl⟩ | ⟨hf, -⟩
        swap
        · cases hf
        exact (h.modify present (.single hgrown) l.sentJPEG l.sentFramebuffer l.closing).close c
      | true =>
        refine h.modify present ((ReflTransGen.single hgrown).tail ?_) l.sentJPEG true l.closing
        exact .update frame (env.update c) sequence hneeded hidle h.latest (h.decoded hdecoded) hsend

/-- The frame is decoded, or fails to be. -/
theorem Sound.decode (h : Sound decoder s frame l) {server : Server} {ok : Bool}
    (hd : l.server.decodeLatestFrame decoder frame l.server.latestSequence = (server, ok)) :
    Sound decoder s frame { l with server, decoded := ok } := by
  have hdecode : Change decoder l.server (l.server.decodeLatestFrame decoder frame l.server.latestSequence).1 :=
    .decode frame h.latest
  have hsame : Server.SameFrame l.server (l.server.decodeLatestFrame decoder frame l.server.latestSequence).1 :=
    Server.sameFrame_decodeLatestFrame frame l.server.latestSequence
  rw [hd] at hdecode hsame
  refine ⟨h.changes.tail hdecode, hsame.clients.trans h.clients, hsame.latestFrame.trans h.latest,
    hsame.latestSequence.trans h.sequence, h.width.trans hsame.size.1.symm, h.height.trans hsame.size.2.1.symm,
    fun hok => ?_⟩
  obtain rfl : ok = true := hok
  obtain ⟨hsequence, hne⟩ := Server.decodeLatestFrame_decoded hd
  exact ⟨hsequence.trans hsame.latestSequence.symm, hne⟩

theorem Sound.serveFallback (h : Sound decoder s frame l) {c : ClientPtr} (present : c ∈ s.clients) {sequence : Nat}
    (hsequence : sequence = l.server.latestSequence) (needed : (l.server.client c).data.needUpdate = true)
    (idle : (l.server.client c).data.pendingJPEG = none) :
    Sound decoder s frame (l.serveFallback decoder env frame sequence c) := by
  subst hsequence
  unfold FrameLoop.serveFallback
  cases hdecoded : l.decoded with
  | true => exact h.serveFramebuffer present hdecoded needed idle
  | false =>
    have hsame : Server.SameFrame l.server (l.server.decodeLatestFrame decoder frame l.server.latestSequence).1 :=
      Server.sameFrame_decodeLatestFrame frame l.server.latestSequence
    cases hd : l.server.decodeLatestFrame decoder frame l.server.latestSequence with
    | mk server ok =>
      rw [hd] at hsame
      have hserver := h.decode hd
      cases ok with
      | false => exact hserver.close c
      | true =>
        refine hserver.serveFramebuffer present rfl ?_ ?_
        · rw [hsame.data]
          exact needed
        · rw [hsame.data]
          exact idle

theorem Sound.client (h : Sound decoder s frame l) {c : ClientPtr} (present : c ∈ s.clients) :
    Sound decoder s frame (l.client decoder env frame s.latestSequence c) := by
  unfold FrameLoop.client
  dsimp only
  split
  · exact h
  · rename_i hwaiting
    simp only [Server.waiting, Bool.not_not, Bool.or_eq_true, not_or, Bool.not_eq_true] at hwaiting
    obtain ⟨⟨hidle, hneed⟩, -⟩ := hwaiting
    have hsame : SameCore (l.server.client c)
        { l.server.client c with data := { (l.server.client c).data with loggedEncoding := true } } :=
      Client.sameCore_data rfl rfl rfl rfl rfl .inl
    have hlogged := h.modify present (.single (.other hsame)) l.sentJPEG l.sentFramebuffer l.closing
    split
    · exact hlogged
    · split
      · exact hlogged.serveJPEG present (by simpa using hneed)
      · exact hlogged.serveFallback present h.sequence.symm (by simpa using hneed) (by simpa using hidle)

theorem Sound.loop (h : Sound decoder s frame l) {list : List ClientPtr} (present : list ⊆ s.clients) :
    Sound decoder s frame (list.foldl (fun l c => l.client decoder env frame s.latestSequence c) l) := by
  induction list generalizing l with
  | nil => exact h
  | cons c list ih =>
    obtain ⟨hc, hlist⟩ := List.cons_subset.mp present
    exact ih (h.client hc) hlist

end FrameLoop

namespace Server
variable {s t : Server}

theorem finishFrame_changes (env : FrameEnv) (l : FrameLoop) : Changes decoder l.server (finishFrame env l) := by
  have hclosed : Changes decoder l.server (l.server.closeClients l.closing) := changes_closeClients l.closing
  have hprocessed (t : Server) (time : Int) : Change decoder t { t with lastFramebufferProcessed := time } :=
    .other ⟨rfl, rfl, rfl, rfl, rfl, rfl, rfl, rfl, rfl⟩ rfl rfl
  unfold finishFrame
  dsimp only
  generalize l.server.closeClients l.closing = t at hclosed
  have hsent : Changes decoder l.server (if l.sentJPEG then
      flushJPEGWrites env.flushed env.sendmsg { t with lastJPEGSent := t.advanceJPEGSent env.now } t.clients else t) := by
    split
    · have hadvanced : Change decoder t { t with lastJPEGSent := t.advanceJPEGSent env.now } :=
        .other ⟨rfl, rfl, rfl, rfl, rfl, rfl, rfl, rfl, rfl⟩ rfl rfl
      exact (hclosed.tail hadvanced).trans (changes_flushJPEGWrites env.flushed env.sendmsg (List.Subset.refl t.clients))
    · exact hclosed
  split
  · exact hsent.tail (hprocessed _ env.now)
  · exact hsent

/-- The server resizes to another size, and no JPEG is being written. -/
def Resizes (s t : Server) : Prop :=
  ∃ width height memory update, (width ≠ s.width ∨ height ≠ s.height) ∧
    (∀ c ∈ s.clients, (s.client c).data.pendingJPEG = none) ∧ s.resize width height memory update = some t

structure Current (s : Server) (frame : JPEGFrame) : Prop where
  latest : s.latestFrame = some frame
  sequence : s.latestSequence ≠ 0
  width : frame.width = s.width
  height : frame.height = s.height

/-- `ProcessFrame` goes over the clients for a frame of the current size; else it does nothing, or resizes. -/
theorem processFrame_cases {env : FrameEnv} (h : s.processFrame decoder env = some t) :
    (∃ frame, s.Current frame ∧ t = finishFrame env
        (s.clients.foldl (fun l c => l.client decoder env frame s.latestSequence c) { server := s })) ∨
      ((∀ frame, ¬s.Current frame) ∧ (t = s ∨ Resizes s t)) := by
  unfold processFrame at h
  cases hframe : s.latestFrame with
  | none =>
    simp only [hframe, Option.some.injEq] at h
    refine .inr ⟨fun frame hcurrent => ?_, .inl h.symm⟩
    have hlatest := hcurrent.latest
    rw [hframe] at hlatest
    cases hlatest
  | some frame =>
    simp only [hframe] at h
    have hsame {frame' : JPEGFrame} (hcurrent : s.Current frame') : frame' = frame :=
      Option.some.inj (hcurrent.latest.symm.trans hframe)
    split at h
    · rename_i hsequence
      exact .inr ⟨fun frame' hcurrent => hcurrent.sequence hsequence, .inl (Option.some.inj h).symm⟩
    · rename_i hsequence
      split at h
      · rename_i hsize
        refine .inr ⟨fun frame' hcurrent => ?_, ?_⟩
        · obtain rfl := hsame hcurrent
          exact hsize.elim (fun hwidth => hwidth hcurrent.width) fun hheight => hheight hcurrent.height
        · split at h
          · exact .inl (Option.some.inj h).symm
          · rename_i hpending
            refine .inr ⟨_, _, _, _, hsize, fun c hc => ?_, h⟩
            simp only [hasPendingJPEG, List.any_eq_true, not_exists, not_and] at hpending
            simpa using hpending c hc
      · rename_i hsize
        simp only [not_or, not_not] at hsize
        exact .inl ⟨frame, ⟨hframe, hsequence, hsize.1, hsize.2⟩, (Option.some.inj h).symm⟩

theorem Current.sound {frame : JPEGFrame} (h : s.Current frame) : FrameLoop.Sound decoder s frame { server := s } :=
  ⟨.refl, rfl, h.latest, rfl, h.width, h.height, nofun⟩

theorem processFrame_changes {env : FrameEnv} (h : s.processFrame decoder env = some t) :
    Changes decoder s t ∨ Resizes s t := by
  rcases processFrame_cases h with ⟨frame, hcurrent, rfl⟩ | ⟨-, rfl | hresizes⟩
  · exact .inl ((hcurrent.sound.loop (List.Subset.refl s.clients)).changes.trans (finishFrame_changes env _))
  · exact .inl .refl
  · exact .inr hresizes

/-! ### The steps of the server -/

theorem changes_syncSubscription : Changes decoder s s.syncSubscription := by
  unfold syncSubscription
  split
  · exact .single (.other ⟨rfl, rfl, rfl, rfl, rfl, rfl, rfl, rfl, rfl⟩ rfl rfl)
  · split
    · have hreset : Change decoder s { s with subscription := false } :=
        .other ⟨rfl, rfl, rfl, rfl, rfl, rfl, rfl, rfl, rfl⟩ rfl rfl
      exact (ReflTransGen.single hreset).tail .clearLatestFrame
    · exact .refl

theorem changes_syncAudioSubscription : Changes decoder s s.syncAudioSubscription := by
  unfold syncAudioSubscription
  dsimp only
  split
  · exact .refl
  · split
    · exact .single (.other ⟨rfl, rfl, rfl, rfl, rfl, rfl, rfl, rfl, rfl⟩ rfl rfl)
    · split
      · exact .single (.other ⟨rfl, rfl, rfl, rfl, rfl, rfl, rfl, rfl, rfl⟩ rfl rfl)
      · exact .refl

theorem queueAudio_change (pcm : List Int16) : Change decoder s (s.queueAudio pcm) := by
  unfold queueAudio
  split
  · exact .other .refl rfl rfl
  · exact .other ⟨rfl, rfl, rfl, rfl, rfl, rfl, rfl, rfl, rfl⟩ rfl rfl

/-- A step of the server is a sequence of changes, or resizes it. -/
theorem step_changes {action : ServerAction} (h : step decoder s action = some t) :
    Changes decoder s t ∨ Resizes s t := by
  cases action with
  | setFrame frame =>
    obtain rfl := Option.some.inj h
    exact .inl (.single (.setFrame frame))
  | queueAudio pcm =>
    obtain rfl := Option.some.inj h
    exact .inl (.single (queueAudio_change pcm))
  | pollClientEvents env => exact .inl (pollClientEvents_changes h)
  | syncSubscription =>
    obtain rfl := Option.some.inj h
    exact .inl changes_syncSubscription
  | syncAudioSubscription =>
    obtain rfl := Option.some.inj h
    exact .inl changes_syncAudioSubscription
  | processAudio ok =>
    obtain rfl := Option.some.inj h
    exact .inl (changes_processAudio ok)
  | processFrame env => exact processFrame_changes h

end Server

end OnekvmVnc
