import OnekvmVnc.Lib.Backoff
import OnekvmVnc.Media
import OnekvmVnc.Theorems.Capability

/-! What the workers of `MediaSubscription` and `AudioSubscription` hand on is what they read, connection by connection,
    and how they ask and sleep follows from their log. -/

namespace OnekvmVnc

open Transition Backoff

namespace StreamEvent
variable {δ : Type}

/-- What the log tells of the attempts to connect and to ask. -/
def mark : StreamEvent δ → Option Mark
  | .refused => some .failed
  | .asked _ true => some .done
  | _ => none

/-- The connections that failed since a request was sent. -/
def refusals (calls : List (StreamEvent δ)) : Nat := failures (calls.filterMap mark)

variable {calls : List (StreamEvent δ)} {event : StreamEvent δ}

theorem refusals_refused : refusals (calls ++ [.refused]) = refusals calls + 1 := by
  rw [refusals, List.filterMap_append]
  exact failures_failed _

theorem refusals_sent (calls : List (StreamEvent δ)) (request : List UInt8) : refusals (calls ++ [.asked request true]) = 0 := by
  rw [refusals, List.filterMap_append]
  exact failures_done _

theorem refusals_append (calls : List (StreamEvent δ)) {more : List (StreamEvent δ)} (h : ∀ event ∈ more, event.mark = none) :
    refusals (calls ++ more) = refusals calls := by
  rw [refusals, List.filterMap_append, List.filterMap_eq_nil_iff.mpr h, List.append_nil]
  rfl

theorem refusals_concat (h : event.mark = none) : refusals (calls ++ [event]) = refusals calls :=
  refusals_append calls (List.forall_mem_singleton.mpr h)

/-- Behind this event `Run` sleeps before it connects again: behind a connection that failed, and behind a ring or a
    stream that ended. A request stands for a stream, unless it is for the ring. -/
def rests (ring : Bool) : StreamEvent δ → Bool
  | .refused | .told _ => true
  | .asked _ sent => sent && !ring
  | .handshake ok => ok
  | .connected | .slept _ => false

/-- `Run` sleeps before it connects again. -/
def resting (ring : Bool) (calls : List (StreamEvent δ)) : Bool := (calls.getLast?.map (rests ring)).getD false

theorem resting_concat (ring : Bool) : resting ring (calls ++ [event]) = event.rests ring := by
  rw [resting, List.getLast?_concat]
  rfl

/-- The sleep behind that many failed connections, in milliseconds. -/
def pause (refusals : Nat) : Nat := doubled firstBackoff maxBackoff (refusals - 1)

/-- What was handed on since the last connection. -/
def handed (calls : List (StreamEvent δ)) : List δ :=
  calls.foldl (fun told event => match event with | .connected => [] | .told what => told ++ [what] | _ => told) []

theorem handed_told (what : δ) : handed (calls ++ [.told what]) = handed calls ++ [what] := List.foldl_concat ..

theorem handed_connected : handed (calls ++ [.connected]) = [] := List.foldl_concat ..

end StreamEvent

/-! ### `MediaSubscription` -/

/-- The log of a `Run`: nothing follows `fatal_callback_`, the ring is asked for until a handshake fails, which happens
    once at most, and the sleep doubles with each failed connection. There is a sleep before the next connection exactly
    where `Run` is resting. -/
def MediaRule (identity : ByteIdentity) (fps jpegQuality : Int) (pre : List (StreamEvent MediaTold))
    (event : StreamEvent MediaTold) : Prop :=
  (∀ error, .told (.fatal error) ∉ pre) ∧
    match event with
    | .asked request _ => request = identity.mediaRequest fps jpegQuality (decide (.handshake false ∉ pre))
    | .handshake _ => .handshake false ∉ pre
    | .slept milliseconds => StreamEvent.resting (decide (.handshake false ∉ pre)) pre = true ∧
        milliseconds = StreamEvent.pause (StreamEvent.refusals pre)
    | .refused | .connected => StreamEvent.resting (decide (.handshake false ∉ pre)) pre = false
    | .told _ => True

namespace MediaRun

/-- `shared_ring_supported`, as far as the place knows it. -/
def ring : MediaRun → Option Bool
  | .loop ring | .connect ring | .refused ring | .store ring | .write ring | .close ring _ | .pause ring => some ring
  | .handshake | .ringLoop | .ringPoll => some true
  | .streamLoop | .readFrame | .fatal => some false
  | .done => none

/-- No frame was read on this connection from the socket. -/
def Unread : MediaRun → Prop
  | .store _ | .write _ | .handshake | .ringLoop | .ringPoll => True
  | _ => False

/-- No frame was taken on this connection from the ring. -/
def Untaken : MediaRun → Prop
  | .store _ | .write _ | .handshake | .streamLoop | .readFrame => True
  | _ => False

/-- Whether a sleep comes before the next connection, as far as the place knows it. -/
def resting : MediaRun → Option Bool
  | .connect _ => some false
  | .refused _ | .ringLoop | .ringPoll | .streamLoop | .readFrame | .fatal | .pause _ => some true
  | .close _ sleep => some sleep
  | .loop _ | .store _ | .write _ | .handshake | .done => none

/-- A request was sent on this connection. -/
def Sent : MediaRun → Prop
  | .handshake | .ringLoop | .ringPoll | .streamLoop | .readFrame | .fatal | .close _ true | .pause _ => True
  | _ => False

/-- The subscription may have been given up here: `stopping_` is set then. -/
def Ending : MediaRun → Prop
  | .close false true | .pause false | .loop false | .done => True
  | _ => False

/-- What a step knows that leaves nothing in the log. -/
structure Quiet (pc pc' : MediaRun) (a : Access) : Prop where
  ring : ∀ ring, pc'.ring = some ring → pc.ring = some ring
  unread : pc'.Unread → pc.Unread
  untaken : pc'.Untaken → pc.Untaken
  sent : pc'.Sent → pc.Sent
  refused : ∀ ring, pc ≠ .refused ring ∧ pc' ≠ .refused ring
  fatal : pc = .fatal → a = .raised ∧ pc'.Ending
  ending : pc.Ending → a = .checked false ∨ a ≠ .raised ∧ pc'.Ending
  resting : ∀ b, pc'.resting = some b → pc.resting = some b ∨ (∃ ring, pc = .loop ring) ∧ a = .checked false ∧ b = false
  loop : (∃ ring, pc' = .loop ring) → pc.resting = some false

theorem quiet_next {pc pc' : MediaRun} {outcome : Outcome} {a : Access} (h : next pc outcome = some (a, pc'))
    (plain : pc.plain = true ∨ pc = .readFrame ∧ outcome = .failed ∨ pc = .ringPoll) : Quiet pc pc' a := by
  unfold next at h
  split at h <;> cases h
  case h_21.refl ring sleep =>
    cases sleep <;> cases ring <;> constructor <;>
      simp_all [MediaRun.ring, Unread, Untaken, Sent, Ending, MediaRun.resting, MediaRun.plain]
  all_goals constructor <;> simp_all [MediaRun.ring, Unread, Untaken, Sent, Ending, MediaRun.resting, MediaRun.plain]

end MediaRun

namespace MediaSubscription
variable {s t : MediaSubscription}

/-- `fatal_callback_` was called. -/
def Dead (s : MediaSubscription) : Prop := ∃ error, .told (.fatal error) ∈ s.calls

/-- What the place of the worker knows. -/
structure Place (s : MediaSubscription) (pc : MediaRun) : Prop where
  dead : s.Dead → pc = .fatal ∨ pc.Ending ∧ s.sub.stopping = true
  ring : ∀ ring, pc.ring = some ring → ring = decide (.handshake false ∉ s.calls)
  unread : pc.Unread → s.frames = []
  untaken : pc.Untaken → s.taken = []
  sent : pc.Sent → StreamEvent.refusals s.calls = 0
  refused : (∃ ring, pc = .refused ring) → s.backoff = StreamEvent.pause (StreamEvent.refusals s.calls) ∧
    0 < StreamEvent.refusals s.calls
  backoff : (∀ ring, pc ≠ .refused ring) → s.backoff = doubled firstBackoff maxBackoff (StreamEvent.refusals s.calls)
  resting : ∀ b, pc.resting = some b → StreamEvent.resting (decide (.handshake false ∉ s.calls)) s.calls = b
  loop : (∃ ring, pc = .loop ring) → StreamEvent.resting (decide (.handshake false ∉ s.calls)) s.calls = false ∨
    s.sub.stopping = true

/-- What holds in every state. -/
structure Kept (s : MediaSubscription) : Prop where
  read : readFrames s.frames.length s.opened = (.done s.frames, s.stream)
  apart : s.taken = [] ∨ s.frames = []
  handed : (StreamEvent.handed s.calls).filterMap (fun | .frame frame => some frame | .fatal _ => none) =
    s.taken ++ (s.frames.filter (·.Pictures)).map Frame.jpegFrame
  rule : Along (MediaRule s.identity s.fps s.jpegQuality) s.calls
  valid : ∀ frame ∈ s.frames.dropLast, frame.Pictures
  dead : s.Dead ↔ ∃ frame ∈ s.frames, ¬ frame.Pictures
  place : ∀ pc, s.sub.worker = some pc → s.Place pc

theorem move_eq {a : SubscriptionAction} (h : s.move a = some t) :
    ∃ sub, Subscription.step MediaRun.worker s.sub a = some sub ∧ t = { s with sub } := by
  obtain ⟨sub, hsub, rfl⟩ := Option.map_eq_some_iff.mp h
  exact ⟨sub, hsub, rfl⟩

/-- A step of the worker goes to the next place, and a check finds what `stopping_` is. -/
theorem goes_of_move {pc : MediaRun} {outcome : Outcome} (h : s.move (.run outcome) = some t)
    (hw : s.sub.worker = some pc) : ∃ a pc' sub, MediaRun.next pc outcome = some (a, pc') ∧ t = { s with sub } ∧
      sub.worker = some pc' ∧ (a = .raised → sub.stopping = true) ∧
      (a ≠ .raised → sub.stopping = s.sub.stopping) ∧ ∀ stopping, a = .checked stopping → s.sub.stopping = stopping := by
  obtain ⟨sub, hsub, rfl⟩ := move_eq h
  obtain ⟨pc₀, a, pc', u, hw₀, hnext, hu, rfl⟩ := Subscription.step_run hsub
  cases hw.symm.trans hw₀
  refine ⟨a, pc', _, hnext, rfl, rfl, fun ha => ?_, fun ha => ?_, fun stopping ha => ?_⟩
  · subst ha
    cases hu
    rfl
  · exact (Subscription.access_stopping hu ha).1
  · subst ha
    simp only [Subscription.access, Option.ite_none_right_eq_some] at hu
    exact hu.1

/-- A step of `Stop`. -/
theorem Kept.main (h : s.Kept) {sub : Subscription MediaRun} (worker : sub.worker = s.sub.worker ∨ sub.worker = none)
    (stopping : s.sub.stopping = true → sub.stopping = true) : Kept { s with sub } where
  read := h.read
  apart := h.apart
  handed := h.handed
  rule := h.rule
  valid := h.valid
  dead := h.dead
  place pc hpc := by
    rcases worker with hsame | hnone
    · have hplace := h.place pc (hsame.symm.trans hpc)
      exact ⟨fun hd => (hplace.dead hd).imp id (And.imp id stopping), hplace.ring, hplace.unread, hplace.untaken,
        hplace.sent, hplace.refused, hplace.backoff, hplace.resting, fun hl => (hplace.loop hl).imp id stopping⟩
    · cases hnone.symm.trans hpc

/-- The worker goes on without a trace in the log. -/
theorem Place.go {pc pc' : MediaRun} (h : s.Place pc) {outcome : Outcome} {a : Access} {sub : Subscription MediaRun}
    (hnext : MediaRun.next pc outcome = some (a, pc')) (hplain : pc.plain = true ∨ pc = .readFrame ∧ outcome = .failed ∨ pc = .ringPoll)
    (raised : a = .raised → sub.stopping = true) (kept : a ≠ .raised → sub.stopping = s.sub.stopping)
    (checked : ∀ stopping, a = .checked stopping → s.sub.stopping = stopping) : Place { s with sub } pc' := by
  have hquiet := MediaRun.quiet_next hnext hplain
  refine ⟨fun hd => .inr ?_, fun ring hring => h.ring ring (hquiet.ring ring hring), fun hu => h.unread (hquiet.unread hu),
    fun hu => h.untaken (hquiet.untaken hu), fun hs => h.sent (hquiet.sent hs), fun hr => ?_,
    fun _ => h.backoff fun ring => (hquiet.refused ring).1, fun b hb => ?_,
    fun hl => .inl (h.resting false (hquiet.loop hl))⟩
  · rcases h.dead hd with hfatal | ⟨hending, hstopping⟩
    · obtain ⟨ha, hpc'⟩ := hquiet.fatal hfatal
      exact ⟨hpc', raised ha⟩
    · rcases hquiet.ending hending with ha | ⟨ha, hpc'⟩
      · exact absurd (hstopping.symm.trans (checked false ha)) (by decide)
      · exact ⟨hpc', (kept ha).trans hstopping⟩
  · obtain ⟨ring, hring⟩ := hr
    exact absurd hring (hquiet.refused ring).2
  · rcases hquiet.resting b hb with hsame | ⟨hloop, ha, rfl⟩
    · exact h.resting b hsame
    · rcases h.loop hloop with hawake | hstopping
      · exact hawake
      · exact absurd (hstopping.symm.trans (checked false ha)) (by decide)

/-- A quiet step of the worker. -/
theorem Kept.go (h : s.Kept) {pc : MediaRun} (hw : s.sub.worker = some pc) {outcome : Outcome}
    (plain : pc.plain = true ∨ pc = .readFrame ∧ outcome = .failed ∨ pc = .ringPoll)
    (hmove : s.move (.run outcome) = some t) : t.Kept := by
  obtain ⟨a, pc', sub, hnext, rfl, hw', hraised, hkept, hchecked⟩ := goes_of_move hmove hw
  refine ⟨h.read, h.apart, h.handed, h.rule, h.valid, h.dead, fun place hplace => ?_⟩
  cases hw'.symm.trans hplace
  exact (h.place pc hw).go hnext plain hraised hkept hchecked

/-- A place from which the subscription may go on. -/
theorem Kept.alive (h : s.Kept) {pc : MediaRun} (hw : s.sub.worker = some pc) (hfatal : pc ≠ .fatal)
    (hending : pc.Ending → s.sub.stopping = false) : ¬ s.Dead := by
  intro hd
  rcases (h.place pc hw).dead hd with hpc | ⟨hpc, hstopping⟩
  · exact hfatal hpc
  · exact absurd (hstopping.symm.trans (hending hpc)) (by decide)

theorem dead_concat {event : StreamEvent MediaTold} (h : ∀ error, event ≠ .told (.fatal error)) :
    Dead { s with calls := s.calls ++ [event] } ↔ s.Dead := by
  refine exists_congr fun error => ?_
  rw [List.mem_append, List.mem_singleton]
  exact or_iff_left fun heq => h error heq.symm

theorem not_told_of_alive (h : ¬ s.Dead) (error : String) : .told (.fatal error) ∉ s.calls := fun hmem => h ⟨error, hmem⟩

/-- Something other than a frame is logged. -/
theorem Kept.logged (h : s.Kept) {event : StreamEvent MediaTold} {backoff : Nat} {sub : Subscription MediaRun}
    (told : ∀ what, event ≠ .told what) (connected : event ≠ .connected)
    (rule : MediaRule s.identity s.fps s.jpegQuality s.calls event)
    (place : ∀ pc, sub.worker = some pc → Place { s with calls := s.calls ++ [event], backoff, sub } pc) :
    Kept { s with calls := s.calls ++ [event], backoff, sub } where
  read := h.read
  apart := h.apart
  handed := by
    have hsame : StreamEvent.handed (s.calls ++ [event]) = StreamEvent.handed s.calls := by
      rw [StreamEvent.handed, List.foldl_concat]
      cases event with
      | connected => exact absurd rfl connected
      | told what => exact absurd rfl (told what)
      | refused | asked | handshake | slept => rfl
    change (StreamEvent.handed (s.calls ++ [event])).filterMap _ = _
    rw [hsame]
    exact h.handed
  rule := along_concat.mpr ⟨h.rule, rule⟩
  valid := h.valid
  dead := (dead_concat fun error => told _).trans h.dead
  place := place

/-- The connection fails. -/
theorem Kept.refuse (h : s.Kept) {ring : Bool} (hw : s.sub.worker = some (.connect ring))
    (hmove : (s.log .refused).move (.run .failed) = some t) : t.Kept := by
  have hplace := h.place _ hw
  have halive : ¬ s.Dead := h.alive hw nofun nofun
  obtain ⟨a, pc', sub, hnext, rfl, hw', -⟩ := goes_of_move hmove hw
  cases hnext
  refine h.logged nofun nofun ⟨not_told_of_alive halive, hplace.resting false rfl⟩ fun pc hpc => ?_
  cases hw'.symm.trans hpc
  have hring : ∀ r, some ring = some r → r = decide (.handshake false ∉ s.calls ++ [.refused]) := by
    rintro r ⟨⟩
    rw [hplace.ring ring rfl]
    simp
  refine ⟨fun hd => absurd ((dead_concat (by rintro error ⟨⟩)).mp hd) halive, hring, nofun, nofun, nofun, fun _ => ?_,
    fun hne => absurd rfl (hne ring), ?_, nofun⟩
  · change s.backoff = StreamEvent.pause (StreamEvent.refusals (s.calls ++ [.refused])) ∧
      0 < StreamEvent.refusals (s.calls ++ [.refused])
    rw [StreamEvent.refusals_refused]
    exact ⟨hplace.backoff nofun, Nat.succ_pos _⟩
  · rintro b ⟨⟩
    exact StreamEvent.resting_concat _

/-- The connection stands. -/
theorem Kept.connect (h : s.Kept) {ring : Bool} (hw : s.sub.worker = some (.connect ring)) {fd : Nat} {stream : List Received}
    (hmove : ({ s with stream, opened := stream, frames := [], taken := [] }.log .connected).move (.run (.fd fd)) = some t) :
    t.Kept := by
  have hplace := h.place _ hw
  have halive : ¬ s.Dead := h.alive hw nofun nofun
  obtain ⟨a, pc', sub, hnext, rfl, hw', -⟩ := goes_of_move hmove hw
  cases hnext
  have hdead : ¬ Dead { s with calls := s.calls ++ [.connected] } := fun hd => halive ((dead_concat (by rintro error ⟨⟩)).mp hd)
  refine ⟨rfl, .inl rfl, ?_, along_concat.mpr ⟨h.rule, not_told_of_alive halive, hplace.resting false rfl⟩, nofun,
    iff_of_false hdead nofun, fun pc hpc => ?_⟩
  · change (StreamEvent.handed (s.calls ++ [.connected])).filterMap _ = _
    rw [StreamEvent.handed_connected]
    rfl
  · cases hw'.symm.trans hpc
    have hrefusals : StreamEvent.refusals (s.calls ++ [.connected]) = StreamEvent.refusals s.calls :=
      StreamEvent.refusals_concat rfl
    refine ⟨fun hd => absurd hd hdead, ?_, fun _ => rfl, fun _ => rfl, nofun, nofun, fun _ => ?_, nofun, nofun⟩
    · rintro r ⟨⟩
      rw [hplace.ring ring rfl]
      simp [log]
    · change s.backoff = doubled _ _ (StreamEvent.refusals (s.calls ++ [.connected]))
      rw [hrefusals]
      exact hplace.backoff nofun

/-- The sleep behind a connection that failed. -/
theorem Kept.refused (h : s.Kept) {ring : Bool} (hw : s.sub.worker = some (.refused ring)) {stopping : Bool}
    (hmove : ({ s.sleep stopping with backoff := min ((s.sleep stopping).backoff * 2) maxBackoff } : MediaSubscription).move
      (.run (.flag stopping)) = some t) : t.Kept := by
  have hplace := h.place _ hw
  have halive : ¬ s.Dead := h.alive hw nofun nofun
  obtain ⟨hbackoff, hpos⟩ := hplace.refused ⟨ring, rfl⟩
  have hnext : min (s.backoff * 2) maxBackoff = doubled firstBackoff maxBackoff (StreamEvent.refusals s.calls) := by
    rw [hbackoff, StreamEvent.pause, doubled_succ, Nat.sub_add_cancel hpos]
  cases stopping with
  | true =>
    obtain ⟨a, pc', sub, hstep, rfl, hw', -, hkept, hchecked⟩ := goes_of_move hmove hw
    cases hstep
    refine ⟨h.read, h.apart, h.handed, h.rule, h.valid, h.dead, fun pc hpc => ?_⟩
    cases hw'.symm.trans hpc
    exact ⟨fun hd => absurd hd halive, hplace.ring, nofun, nofun, nofun, nofun, fun _ => hnext, nofun,
      fun _ => .inr ((hkept nofun).trans (hchecked true rfl))⟩
  | false =>
    obtain ⟨a, pc', sub, hstep, rfl, hw', -⟩ := goes_of_move hmove hw
    cases hstep
    refine h.logged nofun nofun ⟨not_told_of_alive halive, hplace.resting true rfl, hbackoff⟩ fun pc hpc => ?_
    cases hw'.symm.trans hpc
    refine ⟨fun hd => absurd ((dead_concat (by rintro error ⟨⟩)).mp hd) halive, ?_, nofun, nofun, nofun, nofun, fun _ => ?_,
      nofun, fun _ => .inl (StreamEvent.resting_concat _)⟩
    · rintro r ⟨⟩
      rw [hplace.ring ring rfl]
      simp
    · change min (s.backoff * 2) maxBackoff = doubled _ _ (StreamEvent.refusals (s.calls ++ [.slept s.backoff]))
      rw [StreamEvent.refusals_concat rfl]
      exact hnext

/-- The request, and its place in the log. -/
theorem Kept.ask (h : s.Kept) {ring sent : Bool} (hw : s.sub.worker = some (.write ring))
    (hmove : (if sent then
      ({ s.log (.asked (s.identity.mediaRequest s.fps s.jpegQuality ring) sent) with
          backoff := firstBackoff } : MediaSubscription).move (.run .ok)
      else (s.log (.asked (s.identity.mediaRequest s.fps s.jpegQuality ring) sent)).move (.run .failed)) = some t) :
    t.Kept := by
  have hplace := h.place _ hw
  have halive : ¬ s.Dead := h.alive hw nofun nofun
  have hring := hplace.ring ring rfl
  have hrule : MediaRule s.identity s.fps s.jpegQuality s.calls
      (.asked (s.identity.mediaRequest s.fps s.jpegQuality ring) sent) :=
    ⟨not_told_of_alive halive, by rw [hring]⟩
  have hdead {sent : Bool} {request : List UInt8} : ¬ Dead { s with calls := s.calls ++ [.asked request sent] } :=
    fun hd => halive ((dead_concat (by rintro error ⟨⟩)).mp hd)
  cases sent with
  | true =>
    obtain ⟨a, pc', sub, hnext, rfl, hw', -⟩ := goes_of_move hmove hw
    cases hnext
    refine h.logged nofun nofun hrule fun pc hpc => ?_
    cases hw'.symm.trans hpc
    have hsent := StreamEvent.refusals_sent s.calls
    have hfirst (request : List UInt8) :
        firstBackoff = doubled firstBackoff maxBackoff (StreamEvent.refusals (s.calls ++ [.asked request true])) := by
      rw [hsent, doubled_zero (by decide)]
    have hkept (request : List UInt8) :
        decide (.handshake false ∉ s.calls ++ [.asked request true]) = decide (.handshake false ∉ s.calls) := by simp
    refine ⟨fun hd => absurd hd hdead, fun r hr => ?_, fun _ => hplace.unread trivial, fun _ => hplace.untaken trivial,
      fun _ => hsent _, fun hrefused => ?_, fun _ => hfirst _, fun b hb => ?_, fun hloop => ?_⟩
    · rw [hkept, ← hring]
      cases ring <;> cases hr <;> rfl
    · obtain ⟨r, hr⟩ := hrefused
      cases ring <;> cases hr
    · rw [hkept, ← hring, StreamEvent.resting_concat]
      cases ring <;> cases hb
      rfl
    · obtain ⟨r, hr⟩ := hloop
      cases ring <;> cases hr
  | false =>
    obtain ⟨a, pc', sub, hnext, rfl, hw', -⟩ := goes_of_move hmove hw
    cases hnext
    refine h.logged nofun nofun hrule fun pc hpc => ?_
    cases hw'.symm.trans hpc
    have hsame (request : List UInt8) :
        StreamEvent.refusals (s.calls ++ [.asked request false]) = StreamEvent.refusals s.calls :=
      StreamEvent.refusals_concat rfl
    refine ⟨fun hd => absurd hd hdead, ?_, nofun, nofun, nofun, nofun, fun _ => ?_, ?_, nofun⟩
    · rintro r ⟨⟩
      rw [hring]
      simp
    · exact (hplace.backoff nofun).trans (congrArg _ (hsame _).symm)
    · rintro b ⟨⟩
      exact StreamEvent.resting_concat _

/-- The answer to a request for the ring. -/
theorem Kept.handshake (h : s.Kept) (hw : s.sub.worker = some .handshake) {ok : Bool}
    (hmove : (s.log (.handshake ok)).move (.run (if ok then .ok else .failed)) = some t) : t.Kept := by
  have hplace := h.place _ hw
  have halive : ¬ s.Dead := h.alive hw nofun nofun
  have hnone : .handshake false ∉ s.calls := of_decide_eq_true (hplace.ring true rfl).symm
  have hdead : ¬ Dead { s with calls := s.calls ++ [.handshake ok] } := fun hd => halive ((dead_concat (by rintro error ⟨⟩)).mp hd)
  have hsent : StreamEvent.refusals (s.calls ++ [.handshake ok]) = 0 :=
    (StreamEvent.refusals_concat rfl).trans (hplace.sent trivial)
  have hbackoff : s.backoff = doubled firstBackoff maxBackoff (StreamEvent.refusals (s.calls ++ [.handshake ok])) := by
    rw [hsent, ← hplace.sent trivial]
    exact hplace.backoff nofun
  cases ok with
  | true =>
    obtain ⟨a, pc', sub, hnext, rfl, hw', -⟩ := goes_of_move hmove hw
    cases hnext
    refine h.logged nofun nofun ⟨not_told_of_alive halive, hnone⟩ fun pc hpc => ?_
    cases hw'.symm.trans hpc
    refine ⟨fun hd => absurd hd hdead, ?_, fun _ => hplace.unread trivial, nofun, fun _ => hsent, nofun,
      fun _ => hbackoff, ?_, nofun⟩
    · rintro r ⟨⟩
      exact (decide_eq_true (by simpa using hnone)).symm
    · rintro b ⟨⟩
      exact StreamEvent.resting_concat _
  | false =>
    obtain ⟨a, pc', sub, hnext, rfl, hw', -⟩ := goes_of_move hmove hw
    cases hnext
    refine h.logged nofun nofun ⟨not_told_of_alive halive, hnone⟩ fun pc hpc => ?_
    cases hw'.symm.trans hpc
    refine ⟨fun hd => absurd hd hdead, ?_, nofun, nofun, nofun, nofun, fun _ => hbackoff, ?_, nofun⟩
    · rintro r ⟨⟩
      exact (decide_eq_false (by simp)).symm
    · rintro b ⟨⟩
      exact StreamEvent.resting_concat _

/-- A frame from the ring, and the worker has yet to go on. -/
theorem Kept.taken (h : s.Kept) (hw : s.sub.worker = some .ringPoll) (frame : JPEGFrame) :
    Kept ({ s with taken := s.taken ++ [frame] }.log (.told (.frame frame))) := by
  have hplace := h.place _ hw
  have hframes : s.frames = [] := hplace.unread trivial
  have halive : ¬ s.Dead := h.alive hw nofun nofun
  refine ⟨h.read, .inr hframes, ?_, along_concat.mpr ⟨h.rule, not_told_of_alive halive, trivial⟩, h.valid,
    (dead_concat (by rintro error ⟨⟩)).trans h.dead, fun pc hpc => ?_⟩
  · have hhanded := h.handed
    change (StreamEvent.handed (s.calls ++ [.told (.frame frame)])).filterMap _ =
      s.taken ++ [frame] ++ (s.frames.filter (·.Pictures)).map Frame.jpegFrame
    rw [hframes, List.filter_nil, List.map_nil, List.append_nil] at hhanded ⊢
    rw [StreamEvent.handed_told, List.filterMap_append, hhanded]
    rfl
  · cases hw.symm.trans hpc
    have hsame : StreamEvent.refusals (s.calls ++ [.told (.frame frame)]) = StreamEvent.refusals s.calls :=
      StreamEvent.refusals_concat rfl
    refine ⟨fun hd => absurd ((dead_concat (by rintro error ⟨⟩)).mp hd) halive, ?_, fun _ => hframes, nofun,
      fun _ => hsame.trans (hplace.sent trivial), nofun, fun _ => (hplace.backoff nofun).trans (congrArg _ hsame.symm), ?_,
      nofun⟩
    · rintro r ⟨⟩
      rw [hplace.ring true rfl]
      simp [log]
    · rintro b ⟨⟩
      exact StreamEvent.resting_concat _

/-- A frame is read, and handed on if it is a picture; it ends the subscription if it is none. -/
theorem Kept.receive (h : s.Kept) (hw : s.sub.worker = some .readFrame) (hreceive : s.receive = some t) : t.Kept := by
  have hplace := h.place _ hw
  have htaken : s.taken = [] := hplace.untaken trivial
  have halive : ¬ s.Dead := h.alive hw nofun nofun
  have hvalid : ∀ frame ∈ s.frames, frame.Pictures := by
    intro frame hframe
    by_contra hnot
    exact halive (h.dead.mpr ⟨frame, hframe, hnot⟩)
  have hsame (what : MediaTold) : StreamEvent.refusals (s.calls ++ [.told what]) = StreamEvent.refusals s.calls :=
    StreamEvent.refusals_concat rfl
  have hring (what : MediaTold) : false = decide (.handshake false ∉ s.calls ++ [.told what]) :=
    (hplace.ring false rfl).trans (by simp)
  unfold MediaSubscription.receive at hreceive
  split at hreceive
  · cases hreceive
  · exact h.go hw (.inr (.inl ⟨rfl, rfl⟩)) hreceive
  · rename_i frame stream hread
    have hframes : readFrames (s.frames ++ [frame]).length s.opened = (.done (s.frames ++ [frame]), stream) := by
      rw [List.length_append]
      exact CapabilitySubscription.readFrames_concat h.read hread
    have hdrop : ∀ f ∈ (s.frames ++ [frame]).dropLast, f.Pictures := by rwa [List.dropLast_concat]
    dsimp only at hreceive
    split at hreceive
    · rename_i hpicture
      obtain ⟨a, pc', sub, hnext, rfl, hw', -⟩ := goes_of_move hreceive hw
      cases hnext
      have hdead : ¬ Dead { s with calls := s.calls ++ [.told (.frame frame.jpegFrame)] } :=
        fun hd => halive ((dead_concat (by rintro error ⟨⟩)).mp hd)
      refine ⟨hframes, .inl htaken, ?_, along_concat.mpr ⟨h.rule, not_told_of_alive halive, trivial⟩, hdrop, ?_,
        fun pc hpc => ?_⟩
      · change (StreamEvent.handed (s.calls ++ [.told (.frame frame.jpegFrame)])).filterMap _ = _
        rw [StreamEvent.handed_told, List.filterMap_append, h.handed]
        simp [log, hpicture]
      · refine iff_of_false hdead ?_
        rintro ⟨f, hf, hnot⟩
        rcases List.mem_append.mp hf with hf | hf
        · exact hnot (hvalid f hf)
        · exact hnot (List.mem_singleton.mp hf ▸ hpicture)
      · cases hw'.symm.trans hpc
        refine ⟨fun hd => absurd hd hdead, ?_, nofun, fun _ => htaken, fun _ => (hsame _).trans (hplace.sent trivial), nofun,
          fun _ => (hplace.backoff nofun).trans (congrArg _ (hsame _).symm), ?_, nofun⟩
        · rintro r ⟨⟩
          exact hring _
        · rintro b ⟨⟩
          exact StreamEvent.resting_concat _
    · rename_i hpicture
      obtain ⟨a, pc', sub, hnext, rfl, hw', -⟩ := goes_of_move hreceive hw
      cases hnext
      refine ⟨hframes, .inl htaken, ?_, along_concat.mpr ⟨h.rule, not_told_of_alive halive, trivial⟩, hdrop, ?_,
        fun pc hpc => ?_⟩
      · change (StreamEvent.handed (s.calls ++ [.told (.fatal _)])).filterMap _ = _
        rw [StreamEvent.handed_told, List.filterMap_append, h.handed]
        simp [log, hpicture]
      · exact iff_of_true ⟨_, List.mem_append_right _ (List.mem_singleton_self _)⟩
          ⟨frame, List.mem_append_right _ (List.mem_singleton_self _), hpicture⟩
      · cases hw'.symm.trans hpc
        refine ⟨fun _ => .inl rfl, ?_, nofun, nofun, fun _ => (hsame _).trans (hplace.sent trivial), nofun,
          fun _ => (hplace.backoff nofun).trans (congrArg _ (hsame _).symm), ?_, nofun⟩
        · rintro r ⟨⟩
          exact hring _
        · rintro b ⟨⟩
          exact StreamEvent.resting_concat _

/-- The sleep behind a connection that was closed. -/
theorem Kept.pause (h : s.Kept) {ring : Bool} (hw : s.sub.worker = some (.pause ring)) {stopping : Bool}
    (hmove : (s.sleep stopping).move (.run (.flag stopping)) = some t) : t.Kept := by
  have hplace := h.place _ hw
  have hbackoff := hplace.backoff nofun
  cases stopping with
  | true =>
    obtain ⟨a, pc', sub, hnext, rfl, hw', -, hkept, hchecked⟩ := goes_of_move hmove hw
    cases hnext
    refine ⟨h.read, h.apart, h.handed, h.rule, h.valid, h.dead, fun pc hpc => ?_⟩
    cases hw'.symm.trans hpc
    refine ⟨fun hd => .inr ?_, hplace.ring, nofun, nofun, nofun, nofun, fun _ => hbackoff, nofun,
      fun _ => .inr ((hkept nofun).trans (hchecked true rfl))⟩
    rcases hplace.dead hd with hfatal | ⟨hending, hstopping⟩
    · cases hfatal
    · cases ring with
      | true => cases hending
      | false => exact ⟨trivial, (hkept nofun).trans hstopping⟩
  | false =>
    obtain ⟨a, pc', sub, hnext, rfl, hw', -, -, hchecked⟩ := goes_of_move hmove hw
    cases hnext
    have halive : ¬ s.Dead := h.alive hw nofun fun _ => hchecked false rfl
    have hzero : StreamEvent.refusals s.calls = 0 := hplace.sent trivial
    refine h.logged nofun nofun ⟨not_told_of_alive halive, hplace.resting true rfl, ?_⟩ fun pc hpc => ?_
    · rw [hbackoff, hzero]
      rfl
    · cases hw'.symm.trans hpc
      refine ⟨fun hd => absurd ((dead_concat (by rintro error ⟨⟩)).mp hd) halive, ?_, nofun, nofun, nofun, nofun,
        fun _ => ?_, nofun, fun _ => .inl (StreamEvent.resting_concat _)⟩
      · rintro r ⟨⟩
        rw [hplace.ring ring rfl]
        simp
      · exact hbackoff.trans (congrArg _ (StreamEvent.refusals_concat rfl).symm)

theorem Kept.runStep (h : s.Kept) {pc : MediaRun} (hw : s.sub.worker = some pc) {call : MediaCall}
    (hstep : s.runStep pc call = some t) : t.Kept := by
  unfold MediaSubscription.runStep at hstep
  split at hstep
  · exact h.refuse hw hstep
  · exact h.connect hw hstep
  · exact h.refused hw hstep
  · exact h.ask hw hstep
  · exact h.handshake hw hstep
  · rename_i frame hangup
    cases frame with
    | none => exact h.go hw (.inr (.inr rfl)) hstep
    | some frame => exact (h.taken hw frame).go hw (.inr (.inr rfl)) hstep
  · exact h.receive hw hstep
  · exact h.pause hw hstep
  · split at hstep
    · rename_i hplain
      exact h.go hw (.inl hplain) hstep
    · cases hstep
  · cases hstep

theorem Kept.step (h : s.Kept) {a : MediaAction} (hstep : s.step a = some t) : t.Kept := by
  cases a with
  | start =>
    obtain ⟨sub, hsub, rfl⟩ := move_eq hstep
    obtain ⟨-, -, rfl⟩ := Subscription.step_start hsub
    have halive : ∀ u : MediaSubscription, u.calls = [] → ¬ u.Dead := by
      rintro u hnone ⟨error, hmem⟩
      rw [hnone] at hmem
      cases hmem
    refine ⟨rfl, .inl rfl, rfl, along_nil, nofun, iff_of_false (halive _ rfl) nofun, fun pc hpc => ?_⟩
    obtain rfl := Option.some.inj hpc
    have hfirst : firstBackoff ≤ maxBackoff := by decide
    refine ⟨fun hd => absurd hd (halive _ rfl), ?_, nofun, nofun, nofun, nofun, fun _ => (doubled_zero hfirst).symm, nofun,
      fun _ => .inl rfl⟩
    rintro r ⟨⟩
    rfl
  | stop =>
    obtain ⟨sub, hsub, rfl⟩ := move_eq hstep
    obtain ⟨-, rfl⟩ := Subscription.step_stop hsub
    exact h.main (.inl rfl) fun _ => rfl
  | load =>
    obtain ⟨sub, hsub, rfl⟩ := move_eq hstep
    obtain ⟨-, rfl⟩ := Subscription.step_load hsub
    exact h.main (.inl rfl) id
  | shutdown =>
    obtain ⟨sub, hsub, rfl⟩ := move_eq hstep
    obtain ⟨fd, -, rfl⟩ := Subscription.step_shutdown hsub
    exact h.main (.inl rfl) id
  | join =>
    obtain ⟨sub, hsub, rfl⟩ := move_eq hstep
    obtain ⟨-, rfl⟩ := Subscription.step_join hsub
    exact h.main (.inr rfl) id
  | run call =>
    obtain ⟨pc, hw, hrun⟩ := Option.bind_eq_some_iff.mp hstep
    exact h.runStep hw hrun

/-- What the subscription was constructed with. -/
structure Same (s t : MediaSubscription) : Prop where
  identity : t.identity = s.identity
  fps : t.fps = s.fps
  jpegQuality : t.jpegQuality = s.jpegQuality

theorem Same.trans {u : MediaSubscription} (h : Same s t) (h' : Same t u) : Same s u :=
  ⟨h'.identity.trans h.identity, h'.fps.trans h.fps, h'.jpegQuality.trans h.jpegQuality⟩

theorem same_move {a : SubscriptionAction} (h : s.move a = some t) : Same s t := by
  obtain ⟨sub, -, rfl⟩ := move_eq h
  exact ⟨rfl, rfl, rfl⟩

theorem same_of_move {u : MediaSubscription} {a : SubscriptionAction} (h : u.move a = some t) (hu : Same s u) : Same s t :=
  hu.trans (same_move h)

theorem same_sleep (stopping : Bool) : Same s (s.sleep stopping) := by
  cases stopping <;> exact ⟨rfl, rfl, rfl⟩

theorem same_receive (h : s.receive = some t) : Same s t := by
  unfold MediaSubscription.receive at h
  split at h
  · cases h
  · exact same_move h
  · dsimp only at h
    split at h
    · exact same_of_move h ⟨rfl, rfl, rfl⟩
    · exact same_of_move h ⟨rfl, rfl, rfl⟩

theorem same_step {a : MediaAction} (h : s.step a = some t) : Same s t := by
  cases a with
  | start => exact same_of_move h ⟨rfl, rfl, rfl⟩
  | stop | load | shutdown | join => exact same_move h
  | run call =>
    obtain ⟨pc, -, hrun⟩ := Option.bind_eq_some_iff.mp h
    unfold MediaSubscription.runStep at hrun
    split at hrun
    · exact same_of_move hrun ⟨rfl, rfl, rfl⟩
    · exact same_of_move hrun ⟨rfl, rfl, rfl⟩
    · rename_i stopping
      exact same_of_move hrun ((same_sleep stopping).trans ⟨rfl, rfl, rfl⟩)
    · dsimp only at hrun
      split at hrun
      · exact same_of_move hrun ⟨rfl, rfl, rfl⟩
      · exact same_of_move hrun ⟨rfl, rfl, rfl⟩
    · exact same_of_move hrun ⟨rfl, rfl, rfl⟩
    · rename_i frame hangup
      cases frame with
      | none => exact same_move hrun
      | some frame => exact same_of_move hrun ⟨rfl, rfl, rfl⟩
    · exact same_receive hrun
    · rename_i stopping
      exact same_of_move hrun (same_sleep stopping)
    · split at hrun
      · exact same_move hrun
      · cases hrun
    · cases hrun

theorem run_kept {identity : ByteIdentity} {fps jpegQuality : Int} {actions : List MediaAction}
    (h : run step { identity, fps, jpegQuality } actions = some s) : s.Kept ∧ Same { identity, fps, jpegQuality } s := by
  have hnever : ¬ Dead { identity, fps, jpegQuality } := by
    rintro ⟨error, hmem⟩
    cases hmem
  exact run_invariant (P := fun s => s.Kept ∧ Same { identity, fps, jpegQuality } s)
    ⟨⟨rfl, .inl rfl, rfl, along_nil, nofun, iff_of_false hnever nofun, nofun⟩, rfl, rfl, rfl⟩
    (fun _ _ _ hu ha => ⟨hu.1.step ha, hu.2.trans (same_step ha)⟩) h

/-- What the subscription has handed on from its connection is what it took from the ring there, or the frames that came
    on the socket, each once and in order, up to the first one that is no picture. That one ends the subscription. No
    connection carries both. -/
theorem media_frames_handed {identity : ByteIdentity} {fps jpegQuality : Int} {actions : List MediaAction}
    (h : run step { identity, fps, jpegQuality } actions = some s) :
    readFrames s.frames.length s.opened = (.done s.frames, s.stream) ∧ (s.taken = [] ∨ s.frames = []) ∧
      (StreamEvent.handed s.calls).filterMap (fun | .frame frame => some frame | .fatal _ => none) =
        s.taken ++ (s.frames.filter (·.Pictures)).map Frame.jpegFrame ∧
      (∀ frame ∈ s.frames.dropLast, frame.Pictures) ∧
      ((∃ error, .told (.fatal error) ∈ s.calls) ↔ ∃ frame ∈ s.frames, ¬ frame.Pictures) :=
  have hkept := (run_kept h).1
  ⟨hkept.read, hkept.apart, hkept.handed, hkept.valid, hkept.dead⟩

/-- Whatever the peer does, the log of a `Run` follows the rule: the subscription asks for the ring until a handshake
    fails, which happens once at most, and for the stream from then on. It sleeps before it connects again exactly behind
    a connection that failed and behind a ring or a stream that ended: 100 ms, doubled with each further connection that
    fails, up to 2 s. `fatal_callback_` is the last thing. -/
theorem media_reconnects {identity : ByteIdentity} {fps jpegQuality : Int} {actions : List MediaAction}
    (h : run step { identity, fps, jpegQuality } actions = some s) : Along (MediaRule identity fps jpegQuality) s.calls := by
  obtain ⟨hkept, hsame⟩ := run_kept h
  have hrule := hkept.rule
  rwa [hsame.identity, hsame.fps, hsame.jpegQuality] at hrule

/-- A frame of 1 by 1 pixels, with a payload of one byte. -/
def streamFrame (codec : UInt8) : List UInt8 :=
  magic ++ [1, codec, 0, 0] ++ List.replicate 18 0 ++ [0x41, 0x1a, 0, 1, 0, 1, 0, 0, 0, 1, 0, 0, 0, 0, 0xff]

/-- The first connection fails, the second one refuses the ring, and the third one carries a picture and then audio. -/
def fallback : List MediaAction :=
  [.start, .run (.other (.flag false)), .run (.connect none), .run (.sleep false), .run (.other (.flag false)),
    .run (.connect (some (5, []))), .run (.other .ok), .run (.write true), .run (.handshake false), .run (.other .ok),
    .run (.other (.flag false)), .run (.connect (some (5, [.items (streamFrame 3 ++ streamFrame 4)]))), .run (.other .ok),
    .run (.write true), .run (.other (.flag false)), .run .read, .run (.other (.flag false)), .run .read, .run (.other .ok)]

theorem run_fallback : (run step { identity := ⟨bytesOf "vnc", bytesOf "key"⟩, fps := 60, jpegQuality := 20 } fallback).map
    (fun s => (s.calls.filter (fun event => event = .slept 100 ∨ event.mark = some .failed), s.frames.length)) =
      some ([.refused, .slept 100], 2) := by
  decide +kernel

theorem media_frames_handed_fallback : ∃ s,
    run step { identity := ⟨bytesOf "vnc", bytesOf "key"⟩, fps := 60, jpegQuality := 20 } fallback = some s ∧
      s.frames.length = 2 ∧ readFrames 2 s.opened = (.done s.frames, s.stream) := by
  obtain ⟨s, hrun, hstate⟩ := Option.map_eq_some_iff.mp run_fallback
  simp only [Prod.mk.injEq] at hstate
  have hread := (media_frames_handed hrun).1
  rw [hstate.2] at hread
  exact ⟨s, hrun, hstate.2, hread⟩

theorem media_reconnects_fallback : ∃ s,
    run step { identity := ⟨bytesOf "vnc", bytesOf "key"⟩, fps := 60, jpegQuality := 20 } fallback = some s ∧
      (∀ pre time post, s.calls = pre ++ .slept time :: post → time = StreamEvent.pause (StreamEvent.refusals pre)) ∧
      ∀ pre post, s.calls = pre ++ .connected :: post →
        StreamEvent.resting (decide (.handshake false ∉ pre)) pre = false := by
  obtain ⟨s, hrun, -⟩ := Option.map_eq_some_iff.mp run_fallback
  exact ⟨s, hrun, fun pre time post hcalls => (media_reconnects hrun pre (.slept time) post hcalls).2.2,
    fun pre post hcalls => (media_reconnects hrun pre .connected post hcalls).2⟩

end MediaSubscription

end OnekvmVnc
