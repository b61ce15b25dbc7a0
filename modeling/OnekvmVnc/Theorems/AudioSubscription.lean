import OnekvmVnc.Theorems.Media

/-! What the worker of `AudioSubscription` hands on is what a decoder that was just reset makes of the audio on its
    connection. -/

namespace OnekvmVnc

open Transition Backoff

variable {σ : Type} {opus : OpusDecoder σ}

/-- What the frames of a connection become, and the decoder behind them. Frames without audio are passed over. -/
def OpusDecoder.listen (opus : OpusDecoder σ) (frames : List Frame) : List AudioTold × σ :=
  frames.foldl (fun heard frame =>
    if frame.Sounds then (heard.1 ++ (opus.hear heard.2 frame).1, (opus.hear heard.2 frame).2) else heard) ([], opus.reset)

theorem OpusDecoder.listen_concat (opus : OpusDecoder σ) (frames : List Frame) (frame : Frame) : opus.listen (frames ++ [frame]) =
    if frame.Sounds then
      ((opus.listen frames).1 ++ (opus.hear (opus.listen frames).2 frame).1, (opus.hear (opus.listen frames).2 frame).2)
    else opus.listen frames := List.foldl_concat ..

/-- The log of a `Run`: what is asked for is audio, and the sleep doubles with each failed connection. There is a sleep
    before the next connection exactly where `Run` is resting. -/
def AudioRule (identity : ByteIdentity) (pre : List (StreamEvent AudioTold)) : StreamEvent AudioTold → Prop
  | .asked request _ => request = identity.audioRequest
  | .slept milliseconds =>
    StreamEvent.resting false pre = true ∧ milliseconds = StreamEvent.pause (StreamEvent.refusals pre)
  | .refused | .connected => StreamEvent.resting false pre = false
  | _ => True

namespace AudioRun

/-- The connection stands, and no frame was read on it. -/
def Unread : AudioRun → Prop
  | .store | .write => True
  | _ => False

/-- A request was sent on this connection. -/
def Sent : AudioRun → Prop
  | .streamLoop | .readFrame | .close true | .pause => True
  | _ => False

/-- Whether a sleep comes before the next connection, as far as the place knows it. -/
def resting : AudioRun → Option Bool
  | .connect => some false
  | .refused | .streamLoop | .readFrame | .pause => some true
  | .close sleep => some sleep
  | .createDecoder | .loop | .store | .write | .done => none

/-- What a step knows that leaves nothing in the log. -/
structure Quiet (pc pc' : AudioRun) (a : Access) : Prop where
  unread : pc'.Unread → pc.Unread
  sent : pc'.Sent → pc.Sent
  refused : pc ≠ .refused ∧ pc' ≠ .refused
  created : pc' ≠ .createDecoder
  resting : ∀ b, pc'.resting = some b → pc.resting = some b ∨ pc = .loop ∧ a = .checked false ∧ b = false
  loop : pc' = .loop → pc.resting = some false

theorem quiet_next {pc pc' : AudioRun} {outcome : Outcome} {a : Access} (h : next pc outcome = some (a, pc'))
    (plain : pc.plain = true ∨ pc = .readFrame) : Quiet pc pc' a := by
  unfold next at h
  split at h <;> cases h
  case h_15.refl sleep => cases sleep <;> constructor <;> simp_all [Unread, Sent, AudioRun.resting, AudioRun.plain]
  all_goals constructor <;> simp_all [Unread, Sent, AudioRun.resting, AudioRun.plain]

end AudioRun

namespace AudioSubscription
variable {s t : AudioSubscription σ}

/-- What the place of the worker knows. -/
structure Place (opus : OpusDecoder σ) (s : AudioSubscription σ) (pc : AudioRun) : Prop where
  fresh : pc = .createDecoder → s.calls = []
  unread : pc.Unread → .connected ∈ s.calls ∧ s.frames = []
  sent : pc.Sent → .connected ∈ s.calls ∧ s.decoder = (opus.listen s.frames).2 ∧ StreamEvent.refusals s.calls = 0
  refused : pc = .refused → s.backoff = StreamEvent.pause (StreamEvent.refusals s.calls) ∧ 0 < StreamEvent.refusals s.calls
  backoff : pc ≠ .refused → s.backoff = doubled firstBackoff maxBackoff (StreamEvent.refusals s.calls)
  resting : ∀ b, pc.resting = some b → StreamEvent.resting false s.calls = b
  loop : pc = .loop → StreamEvent.resting false s.calls = false ∨ s.sub.stopping = true

/-- What holds in every state. -/
structure Kept (opus : OpusDecoder σ) (s : AudioSubscription σ) : Prop where
  read : readFrames s.frames.length s.opened = (.done s.frames, s.stream)
  heard : .connected ∈ s.calls → StreamEvent.handed s.calls = (opus.listen s.frames).1
  rule : Along (AudioRule s.identity) s.calls
  place : ∀ pc, s.sub.worker = some pc → s.Place opus pc

theorem move_eq {a : SubscriptionAction} (h : s.move a = some t) :
    ∃ sub, Subscription.step AudioRun.worker s.sub a = some sub ∧ t = { s with sub } := by
  obtain ⟨sub, hsub, rfl⟩ := Option.map_eq_some_iff.mp h
  exact ⟨sub, hsub, rfl⟩

theorem goes_of_move {pc : AudioRun} {outcome : Outcome} (h : s.move (.run outcome) = some t)
    (hw : s.sub.worker = some pc) :
    ∃ a pc' sub, AudioRun.next pc outcome = some (a, pc') ∧ t = { s with sub } ∧ sub.worker = some pc' ∧
      ∀ stopping, a = .checked stopping → s.sub.stopping = stopping ∧ sub.stopping = stopping := by
  obtain ⟨sub, hsub, rfl⟩ := move_eq h
  obtain ⟨pc₀, a, pc', u, hw₀, hnext, hu, rfl⟩ := Subscription.step_run hsub
  cases hw.symm.trans hw₀
  refine ⟨a, pc', _, hnext, rfl, rfl, fun stopping ha => ?_⟩
  subst ha
  have hsame := (Subscription.access_stopping hu nofun).1
  simp only [Subscription.access, Option.ite_none_right_eq_some] at hu
  exact ⟨hu.1, hsame.trans hu.1⟩

/-- What the condition of the loop knows. -/
theorem Place.atLoop (backoff : s.backoff = doubled firstBackoff maxBackoff (StreamEvent.refusals s.calls))
    (loop : StreamEvent.resting false s.calls = false ∨ s.sub.stopping = true) : s.Place opus .loop :=
  ⟨nofun, nofun, nofun, nofun, fun _ => backoff, nofun, fun _ => loop⟩

/-- A step of `Stop`. -/
theorem Kept.main (h : s.Kept opus) {sub : Subscription AudioRun} (worker : sub.worker = s.sub.worker ∨ sub.worker = none)
    (stopping : s.sub.stopping = true → sub.stopping = true) : Kept opus { s with sub } where
  read := h.read
  heard := h.heard
  rule := h.rule
  place pc hpc := by
    rcases worker with hsame | hnone
    · have hplace := h.place pc (hsame.symm.trans hpc)
      exact ⟨hplace.fresh, hplace.unread, hplace.sent, hplace.refused, hplace.backoff, hplace.resting,
        fun hl => (hplace.loop hl).imp id stopping⟩
    · cases hnone.symm.trans hpc

/-- A quiet step of the worker. -/
theorem Kept.go (h : s.Kept opus) {pc : AudioRun} (hw : s.sub.worker = some pc) {outcome : Outcome}
    (plain : pc.plain = true ∨ pc = .readFrame) (hmove : s.move (.run outcome) = some t) : t.Kept opus := by
  obtain ⟨a, pc', sub, hnext, rfl, hw', hchecked⟩ := goes_of_move hmove hw
  have hquiet := AudioRun.quiet_next hnext plain
  have hplace := h.place pc hw
  refine ⟨h.read, h.heard, h.rule, fun place hpc => ?_⟩
  cases hw'.symm.trans hpc
  refine ⟨fun hc => absurd hc hquiet.created, fun hu => hplace.unread (hquiet.unread hu),
    fun hs => hplace.sent (hquiet.sent hs), fun hr => absurd hr hquiet.refused.2, fun _ => hplace.backoff hquiet.refused.1,
    fun b hb => ?_, fun hl => .inl (hplace.resting false (hquiet.loop hl))⟩
  rcases hquiet.resting b hb with hsame | ⟨hloop, ha, rfl⟩
  · exact hplace.resting b hsame
  · rcases hplace.loop hloop with hawake | hstopping
    · exact hawake
    · exact absurd (hstopping.symm.trans (hchecked false ha).1) (by decide)

/-- Something is logged that is not handed on. -/
theorem Kept.logged (h : s.Kept opus) {event : StreamEvent AudioTold} {backoff : Nat} {decoder : σ}
    {sub : Subscription AudioRun} (told : ∀ what, event ≠ .told what) (connected : event ≠ .connected)
    (rule : AudioRule s.identity s.calls event)
    (place : ∀ pc, sub.worker = some pc → Place opus { s with calls := s.calls ++ [event], decoder, backoff, sub } pc) :
    Kept opus { s with calls := s.calls ++ [event], decoder, backoff, sub } where
  read := h.read
  heard hconnected := by
    have hsame : StreamEvent.handed (s.calls ++ [event]) = StreamEvent.handed s.calls := by
      rw [StreamEvent.handed, List.foldl_concat]
      cases event with
      | connected => exact absurd rfl connected
      | told what => exact absurd rfl (told what)
      | refused | asked | handshake | slept => rfl
    refine hsame.trans (h.heard ?_)
    rcases List.mem_append.mp hconnected with hmem | hmem
    · exact hmem
    · exact absurd (List.mem_singleton.mp hmem).symm connected
  rule := along_concat.mpr ⟨h.rule, rule⟩
  place := place

/-- The connection fails. -/
theorem Kept.refuse (h : s.Kept opus) (hw : s.sub.worker = some .connect)
    (hmove : (s.log .refused).move (.run .failed) = some t) : t.Kept opus := by
  have hplace := h.place _ hw
  obtain ⟨a, pc', sub, hnext, rfl, hw', -⟩ := goes_of_move hmove hw
  cases hnext
  refine h.logged nofun nofun (hplace.resting false rfl) fun pc hpc => ?_
  cases hw'.symm.trans hpc
  refine ⟨nofun, nofun, nofun, fun _ => ?_, fun hne => absurd rfl hne, ?_, nofun⟩
  · change s.backoff = StreamEvent.pause (StreamEvent.refusals (s.calls ++ [.refused])) ∧
      0 < StreamEvent.refusals (s.calls ++ [.refused])
    rw [StreamEvent.refusals_refused]
    exact ⟨hplace.backoff nofun, Nat.succ_pos _⟩
  · rintro b ⟨⟩
    exact StreamEvent.resting_concat _

/-- The connection stands. -/
theorem Kept.connect (h : s.Kept opus) (hw : s.sub.worker = some .connect) {fd : Nat} {stream : List Received}
    (hmove : ({ s with stream, opened := stream, frames := [] }.log .connected).move (.run (.fd fd)) = some t) :
    t.Kept opus := by
  have hplace := h.place _ hw
  obtain ⟨a, pc', sub, hnext, rfl, hw', -⟩ := goes_of_move hmove hw
  cases hnext
  refine ⟨rfl, fun _ => StreamEvent.handed_connected, along_concat.mpr ⟨h.rule, hplace.resting false rfl⟩,
    fun pc hpc => ?_⟩
  cases hw'.symm.trans hpc
  exact ⟨nofun, fun _ => ⟨List.mem_append_right _ (List.mem_singleton_self _), rfl⟩, nofun, nofun,
    fun _ => (hplace.backoff nofun).trans (congrArg _ (StreamEvent.refusals_concat rfl).symm), nofun, nofun⟩

/-- The sleep behind a connection that failed. -/
theorem Kept.refused (h : s.Kept opus) (hw : s.sub.worker = some .refused) {stopping : Bool}
    (hmove : ({ s.sleep stopping with backoff := min ((s.sleep stopping).backoff * 2) maxBackoff } : AudioSubscription σ).move
      (.run (.flag stopping)) = some t) : t.Kept opus := by
  have hplace := h.place _ hw
  obtain ⟨hbackoff, hpos⟩ := hplace.refused rfl
  have hnext : min (s.backoff * 2) maxBackoff = doubled firstBackoff maxBackoff (StreamEvent.refusals s.calls) := by
    rw [hbackoff, StreamEvent.pause, doubled_succ, Nat.sub_add_cancel hpos]
  cases stopping with
  | true =>
    obtain ⟨a, pc', sub, hstep, rfl, hw', hchecked⟩ := goes_of_move hmove hw
    cases hstep
    refine ⟨h.read, h.heard, h.rule, fun pc hpc => ?_⟩
    cases hw'.symm.trans hpc
    exact .atLoop hnext (.inr (hchecked true rfl).2)
  | false =>
    obtain ⟨a, pc', sub, hstep, rfl, hw', -⟩ := goes_of_move hmove hw
    cases hstep
    refine h.logged (by simp) (by simp) ⟨hplace.resting true rfl, hbackoff⟩ fun pc hpc => ?_
    cases hw'.symm.trans hpc
    exact .atLoop (hnext.trans (congrArg _ (StreamEvent.refusals_concat rfl).symm)) (.inl (StreamEvent.resting_concat _))

/-- The request. Once it is sent, the decoder is reset. -/
theorem Kept.ask (h : s.Kept opus) (hw : s.sub.worker = some .write) {sent : Bool}
    (hmove : (if sent then
      ({ s.log (.asked s.identity.audioRequest sent) with
          decoder := opus.reset, backoff := firstBackoff } : AudioSubscription σ).move (.run .ok)
      else (s.log (.asked s.identity.audioRequest sent)).move (.run .failed)) = some t) : t.Kept opus := by
  have hplace := h.place _ hw
  obtain ⟨hconnected, hframes⟩ := hplace.unread trivial
  cases sent with
  | true =>
    obtain ⟨a, pc', sub, hnext, rfl, hw', -⟩ := goes_of_move hmove hw
    cases hnext
    refine h.logged nofun nofun rfl fun pc hpc => ?_
    cases hw'.symm.trans hpc
    have hsent : StreamEvent.refusals (s.calls ++ [.asked s.identity.audioRequest true]) = 0 :=
      StreamEvent.refusals_sent _ _
    refine ⟨nofun, nofun, fun _ => ⟨List.mem_append_left _ hconnected, ?_, hsent⟩, nofun, fun _ => ?_, ?_, nofun⟩
    · change opus.reset = (opus.listen s.frames).2
      rw [hframes]
      rfl
    · change firstBackoff = doubled _ _ (StreamEvent.refusals (s.calls ++ [.asked s.identity.audioRequest true]))
      rw [hsent, doubled_zero (by decide)]
    · rintro b ⟨⟩
      exact StreamEvent.resting_concat _
  | false =>
    obtain ⟨a, pc', sub, hnext, rfl, hw', -⟩ := goes_of_move hmove hw
    cases hnext
    refine h.logged nofun nofun rfl fun pc hpc => ?_
    cases hw'.symm.trans hpc
    refine ⟨nofun, nofun, nofun, nofun,
      fun _ => (hplace.backoff nofun).trans (congrArg _ (StreamEvent.refusals_concat rfl).symm), ?_, nofun⟩
    rintro b ⟨⟩
    exact StreamEvent.resting_concat _

theorem handed_append (calls : List (StreamEvent AudioTold)) (told : List AudioTold) :
    StreamEvent.handed (calls ++ told.map StreamEvent.told) = StreamEvent.handed calls ++ told := by
  induction told generalizing calls with
  | nil => rw [List.map_nil, List.append_nil, List.append_nil]
  | cons what told ih =>
    rw [List.map_cons, List.append_cons, ih, StreamEvent.handed_told, List.append_assoc, List.singleton_append]

theorem resting_append {calls : List (StreamEvent AudioTold)} (h : StreamEvent.resting false calls = true)
    (told : List AudioTold) : StreamEvent.resting false (calls ++ told.map StreamEvent.told) = true := by
  cases told using List.reverseRecOn with
  | nil => rwa [List.map_nil, List.append_nil]
  | append_singleton told what =>
    rw [List.map_append, List.map_singleton, ← List.append_assoc]
    exact StreamEvent.resting_concat _

/-- A frame is read, and decoded if it carries audio. -/
theorem Kept.receive (h : s.Kept opus) (hw : s.sub.worker = some .readFrame) (hreceive : s.receive opus = some t) :
    t.Kept opus := by
  have hplace := h.place _ hw
  obtain ⟨hconnected, hdecoder, hrefusals⟩ := hplace.sent trivial
  unfold AudioSubscription.receive at hreceive
  split at hreceive
  · cases hreceive
  · exact h.go hw (.inr rfl) hreceive
  · rename_i frame stream hread
    have hframes : readFrames (s.frames ++ [frame]).length s.opened = (.done (s.frames ++ [frame]), stream) := by
      rw [List.length_append]
      exact CapabilitySubscription.readFrames_concat h.read hread
    have hlisten := OpusDecoder.listen_concat opus s.frames frame
    dsimp only at hreceive
    split at hreceive
    · rename_i hsounds
      rw [if_pos hsounds, ← hdecoder] at hlisten
      obtain ⟨a, pc', sub, hnext, rfl, hw', -⟩ := goes_of_move hreceive hw
      cases hnext
      have hsilent : ∀ event ∈ (opus.hear s.decoder frame).1.map StreamEvent.told, event.mark = none := by
        intro event hevent
        obtain ⟨what, -, rfl⟩ := List.mem_map.mp hevent
        rfl
      refine ⟨hframes, fun _ => ?_, ?_, fun pc hpc => ?_⟩
      · change StreamEvent.handed (s.calls ++ (opus.hear s.decoder frame).1.map StreamEvent.told) =
          (opus.listen (s.frames ++ [frame])).1
        rw [handed_append, h.heard hconnected, hlisten]
      · change Along _ (s.calls ++ (opus.hear s.decoder frame).1.map StreamEvent.told)
        generalize (opus.hear s.decoder frame).1 = told
        induction told using List.reverseRecOn with
        | nil => rw [List.map_nil, List.append_nil]; exact h.rule
        | append_singleton told what ih =>
          rw [List.map_append, List.map_singleton, ← List.append_assoc]
          exact along_concat.mpr ⟨ih, trivial⟩
      · cases hw'.symm.trans hpc
        have hsame := StreamEvent.refusals_append s.calls hsilent
        refine ⟨nofun, nofun, fun _ => ⟨List.mem_append_left _ hconnected, ?_, hsame.trans hrefusals⟩, nofun,
          fun _ => (hplace.backoff nofun).trans (congrArg _ hsame.symm), ?_, nofun⟩
        · exact (congrArg Prod.snd hlisten).symm
        · rintro b ⟨⟩
          exact resting_append (hplace.resting true rfl) _
    · rename_i hsounds
      rw [if_neg hsounds] at hlisten
      obtain ⟨a, pc', sub, hnext, rfl, hw', -⟩ := goes_of_move hreceive hw
      cases hnext
      refine ⟨hframes, fun hmem => (h.heard hmem).trans (congrArg Prod.fst hlisten).symm, h.rule, fun pc hpc => ?_⟩
      cases hw'.symm.trans hpc
      exact ⟨nofun, nofun, fun _ => ⟨hconnected, hdecoder.trans (congrArg Prod.snd hlisten).symm, hrefusals⟩, nofun,
        fun _ => hplace.backoff nofun, hplace.resting, nofun⟩

/-- The sleep behind a connection that was closed. -/
theorem Kept.pause (h : s.Kept opus) (hw : s.sub.worker = some .pause) {stopping : Bool}
    (hmove : (s.sleep stopping).move (.run (.flag stopping)) = some t) : t.Kept opus := by
  have hplace := h.place _ hw
  have hbackoff := hplace.backoff nofun
  cases stopping with
  | true =>
    obtain ⟨a, pc', sub, hnext, rfl, hw', hchecked⟩ := goes_of_move hmove hw
    cases hnext
    refine ⟨h.read, h.heard, h.rule, fun pc hpc => ?_⟩
    cases hw'.symm.trans hpc
    exact .atLoop hbackoff (.inr (hchecked true rfl).2)
  | false =>
    obtain ⟨a, pc', sub, hnext, rfl, hw', -⟩ := goes_of_move hmove hw
    cases hnext
    refine h.logged nofun nofun ⟨hplace.resting true rfl, ?_⟩ fun pc hpc => ?_
    · rw [hbackoff, (hplace.sent trivial).2.2]
      rfl
    · cases hw'.symm.trans hpc
      exact .atLoop (hbackoff.trans (congrArg _ (StreamEvent.refusals_concat rfl).symm))
        (.inl (StreamEvent.resting_concat _))

/-- The decoder is created, or the subscription ends with an error. -/
theorem Kept.create (h : s.Kept opus) (hw : s.sub.worker = some .createDecoder) {event : AudioTold} (hmove : (s.log (.told event)).move (.run .failed) = some t) : t.Kept opus := by
  have hplace := h.place _ hw
  obtain ⟨a, pc', sub, hnext, rfl, hw', -⟩ := goes_of_move hmove hw
  cases hnext
  refine ⟨h.read, fun hmem => absurd hmem ?_, along_concat.mpr ⟨h.rule, trivial⟩, fun pc hpc => ?_⟩
  · simp [log, hplace.fresh rfl]
  · cases hw'.symm.trans hpc
    exact ⟨nofun, nofun, nofun, nofun,
      fun _ => (hplace.backoff nofun).trans (congrArg _ (StreamEvent.refusals_concat rfl).symm), nofun, nofun⟩

theorem Kept.runStep (h : s.Kept opus) {pc : AudioRun} (hw : s.sub.worker = some pc) {call : AudioWorkerCall}
    (hstep : s.runStep opus pc call = some t) : t.Kept opus := by
  unfold AudioSubscription.runStep at hstep
  split at hstep
  · obtain ⟨a, pc', sub, hnext, rfl, hw', -⟩ := goes_of_move hstep hw
    cases hnext
    have hplace := h.place _ hw
    refine ⟨h.read, h.heard, h.rule, fun pc hpc => ?_⟩
    cases hw'.symm.trans hpc
    refine .atLoop (hplace.backoff nofun) (.inl ?_)
    change StreamEvent.resting false s.calls = false
    rw [hplace.fresh rfl]
    rfl
  · exact h.create hw hstep
  · exact h.refuse hw hstep
  · exact h.connect hw hstep
  · exact h.refused hw hstep
  · exact h.ask hw hstep
  · exact h.receive hw hstep
  · exact h.pause hw hstep
  · split at hstep
    · rename_i hplain
      exact h.go hw (.inl hplain) hstep
    · cases hstep
  · cases hstep

theorem Kept.step (h : s.Kept opus) {a : AudioWorkerAction} (hstep : s.step opus a = some t) : t.Kept opus := by
  cases a with
  | start =>
    obtain ⟨sub, hsub, rfl⟩ := move_eq hstep
    obtain ⟨-, -, rfl⟩ := Subscription.step_start hsub
    have hfirst : firstBackoff ≤ maxBackoff := by decide
    refine ⟨rfl, nofun, along_nil, fun pc hpc => ?_⟩
    obtain rfl := Option.some.inj hpc
    exact ⟨fun _ => rfl, nofun, nofun, nofun, fun _ => (doubled_zero hfirst).symm, nofun, nofun⟩
  | stop =>
    obtain ⟨sub, hsub, rfl⟩ := move_eq hstep
    obtain ⟨-, rfl⟩ := Subscription.step_stop hsub
    exact h.main (.inl rfl) fun _ => rfl
  | load =>
    obtain ⟨sub, hsub, rfl⟩ := move_eq hstep
    obtain ⟨-, rfl⟩ := Subscription.step_load hsub
    exact h.main (.inl rfl) id
  | shutdown =>
    obtain ⟨sub, hsub, rfl⟩ := move_eq hstep
    obtain ⟨fd, -, rfl⟩ := Subscription.step_shutdown hsub
    exact h.main (.inl rfl) id
  | join =>
    obtain ⟨sub, hsub, rfl⟩ := move_eq hstep
    obtain ⟨-, rfl⟩ := Subscription.step_join hsub
    exact h.main (.inr rfl) id
  | run call =>
    obtain ⟨pc, hw, hrun⟩ := Option.bind_eq_some_iff.mp hstep
    exact h.runStep hw hrun

theorem identity_of_move {u : AudioSubscription σ} {a : SubscriptionAction} (h : u.move a = some t)
    (hu : u.identity = s.identity) : t.identity = s.identity := by
  obtain ⟨sub, -, rfl⟩ := move_eq h
  exact hu

theorem identity_sleep (stopping : Bool) : (s.sleep stopping).identity = s.identity := by cases stopping <;> rfl

theorem identity_step {a : AudioWorkerAction} (h : s.step opus a = some t) : t.identity = s.identity := by
  cases a with
  | start | stop | load | shutdown | join => exact identity_of_move h rfl
  | run call =>
    obtain ⟨pc, -, hrun⟩ := Option.bind_eq_some_iff.mp h
    unfold AudioSubscription.runStep at hrun
    split at hrun
    · exact identity_of_move hrun rfl
    · exact identity_of_move hrun rfl
    · exact identity_of_move hrun rfl
    · exact identity_of_move hrun rfl
    · rename_i stopping
      exact identity_of_move hrun (identity_sleep stopping)
    · dsimp only at hrun
      split at hrun <;> exact identity_of_move hrun rfl
    · unfold AudioSubscription.receive at hrun
      split at hrun
      · cases hrun
      · exact identity_of_move hrun rfl
      · dsimp only at hrun
        split at hrun <;> exact identity_of_move hrun rfl
    · rename_i stopping
      exact identity_of_move hrun (identity_sleep stopping)
    · split at hrun
      · exact identity_of_move hrun rfl
      · cases hrun
    · cases hrun

/-- On every connection, what is handed on is what a decoder that was just reset makes of the frames with audio that have
    come, in their order and whatever came on earlier connections. There is a sleep before the next connection exactly
    behind one that failed and behind a stream that ended, doubled with each connection that fails, from 100 ms up to
    2 s. -/
theorem audio_heard {identity : ByteIdentity} {decoder : σ} {actions : List AudioWorkerAction}
    (h : run (step opus) { identity, decoder } actions = some s) :
    readFrames s.frames.length s.opened = (.done s.frames, s.stream) ∧
      (.connected ∈ s.calls → StreamEvent.handed s.calls = (opus.listen s.frames).1) ∧
      Along (AudioRule identity) s.calls := by
  have hstart : Kept opus { identity, decoder } :=
    ⟨rfl, fun hmem => absurd hmem List.not_mem_nil, along_nil, fun _ hpc => nomatch hpc⟩
  obtain ⟨hkept, hidentity⟩ := run_invariant (P := fun s => s.Kept opus ∧ s.identity = identity) ⟨hstart, rfl⟩
    (fun _ _ _ hu ha => ⟨hu.1.step ha, (identity_step ha).trans hu.2⟩) h
  exact ⟨hkept.read, hkept.heard, hidentity ▸ hkept.rule⟩

/-- A decoder that numbers its packets: each becomes one sample. -/
def numbering : OpusDecoder Nat where
  reset := 0
  decode count _ := (.ok [Int16.ofNat (count + 1)], count + 1)

/-- Two packets with a picture between them, and one more on the next connection. -/
def reconnecting : List AudioWorkerAction :=
  [.start, .run (.create (.ok ())), .run (.other (.flag false)),
    .run (.connect (some (5, [.items (streamPacket ++ MediaSubscription.streamFrame 3 ++ streamPacket), .items []]))),
    .run (.other .ok), .run (.write true), .run (.other (.flag false)), .run .read, .run (.other (.flag false)), .run .read,
    .run (.other (.flag false)), .run .read, .run (.other (.flag false)), .run .read, .run (.other .ok), .run (.sleep false),
    .run (.other (.flag false)), .run (.connect (some (5, [.items streamPacket]))), .run (.other .ok), .run (.write true),
    .run (.other (.flag false)), .run .read]
where
  /-- A packet without a size. -/
  streamPacket : List UInt8 :=
    magic ++ [1, 4, 0, 0] ++ List.replicate 18 0 ++ [0x41, 0x1a, 0, 0, 0, 0, 0, 0, 0, 1, 0, 0, 0, 0, 0xff]

theorem audio_heard_reconnecting : ∃ s,
    run (step numbering) { identity := ⟨bytesOf "vnc", bytesOf "key"⟩, decoder := 7 } reconnecting = some s ∧
      StreamEvent.handed s.calls = [.pcm [1]] := by
  have hrun : (run (step numbering) { identity := ⟨bytesOf "vnc", bytesOf "key"⟩, decoder := 7 } reconnecting).map
      (fun s => (decide (.connected ∈ s.calls), (numbering.listen s.frames).1)) = some (true, [.pcm [1]]) := by
    decide +kernel
  obtain ⟨s, hs, hstate⟩ := Option.map_eq_some_iff.mp hrun
  simp only [Prod.mk.injEq, decide_eq_true_eq] at hstate
  exact ⟨s, hs, ((audio_heard hs).2.1 hstate.1).trans hstate.2⟩

end AudioSubscription

end OnekvmVnc
