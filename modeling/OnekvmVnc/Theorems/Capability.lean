import OnekvmVnc.Capability
import OnekvmVnc.Theorems.Subscription

/-! The capability subscription. What a step does to the log depends on the place of the worker alone: a frame is told
    when it was read and describes a video, `failed_` is called behind a check that found `stopping_` unset, just
    before `Run` returns, and a request asks for events once a probe was told of them. -/

namespace OnekvmVnc

open Transition

namespace CapabilityRun

/-- What the place knows of `events_supported_`. -/
def Agrees : CapabilityRun → Bool → Prop
  | .loop events, supported | .connect events, supported | .store events, supported | .recheck events, supported
  | .write events, supported | .eventLoop events, supported | .poll events, supported
  | .pollInterrupted events, supported | .polled events, supported | .readFrame events, supported
  | .switched events, supported | .wait events, supported | .waitInterrupted events, supported
  | .again events, supported | .ended events, supported => events = supported
  | .probed _, supported => supported = false
  | .refused, _ | .abandon, _ | .close, _ | .report, _ | .done, _ => True

/-- A step keeps what its place knows, and a probe that was answered tells it anew. -/
theorem agrees_next {pc pc' : CapabilityRun} {outcome : Outcome} {a : Access} {supported : Bool}
    (h : next pc outcome = some (a, pc')) (agrees : pc.Agrees supported) :
    (∃ events, pc = .probed events ∧ pc' = .switched events) ∨ pc'.Agrees supported := by
  unfold next at h
  split at h <;> cases h
  all_goals first
    | exact .inr agrees
    | exact .inr trivial
    | exact .inl ⟨_, rfl, rfl⟩
    | exact .inr (Eq.symm agrees)

/-- `Run` returns behind a check that found `stopping_` set, or behind the one before `failed_`. -/
theorem next_done {pc : CapabilityRun} {outcome : Outcome} {a : Access} (h : next pc outcome = some (a, .done)) :
    a = .checked true ∨ pc = .abandon ∨ pc = .refused ∨ pc = .report := by
  unfold next at h
  split at h <;> cases h
  all_goals first
    | exact .inl rfl
    | exact .inr (.inl rfl)
    | exact .inr (.inr (.inl rfl))
    | exact .inr (.inr (.inr rfl))

theorem next_ne_raised {pc pc' : CapabilityRun} {outcome : Outcome} : next pc outcome ≠ some (.raised, pc') := by
  intro h
  unfold next at h
  split at h <;> cases h

theorem next_told {events supported reported : Bool} {a : Access} {pc' : CapabilityRun}
    (h : next (.readFrame events) (if supported then .ok else .flag reported) = some (a, pc')) :
    events = supported ∧ pc' = if supported then .eventLoop true else .probed reported := by
  cases supported <;> cases events <;> cases h <;> exact ⟨rfl, rfl⟩

theorem next_abandon {pc : CapabilityRun} {outcome : Outcome} {a : Access} (h : next pc outcome = some (a, .abandon)) :
    a = .checked true := by
  unfold next at h
  split at h <;> cases h
  rfl

end CapabilityRun

/-- Events are supported, as the answer to a probe says, or they are asked for. -/
def CapabilityEvent.Advertises (identity : ByteIdentity) : CapabilityEvent → Prop
  | .callback info => info.eventsSupported = true
  | .asked request => request = capabilityRequest identity true
  | _ => False

/-! ### Steps -/

/-- A step of the threads. -/
def Subscription.Moved (s t : Subscription CapabilityRun) : Prop :=
  ∃ events a, Subscription.step (CapabilityRun.worker events) s a = some t

/-- The worker goes from one place to the next. -/
structure Subscription.Goes (s t : Subscription CapabilityRun) (pc : CapabilityRun) (outcome : Outcome)
    (pc' : CapabilityRun) : Prop where
  moved : s.Moved t
  worker : s.worker = some pc
  next : ∃ a, CapabilityRun.next pc outcome = some (a, pc') ∧ ∀ stopping, a = .checked stopping → s.stopping = stopping
  arrived : t.worker = some pc'
  stopping : t.stopping = s.stopping

theorem Subscription.Goes.arrived_eq {s t : Subscription CapabilityRun} {pc pc' place : CapabilityRun} {outcome : Outcome}
    (goes : s.Goes t pc outcome pc') (hw : t.worker = some place) : pc' = place :=
  Option.some.inj (goes.arrived.symm.trans hw)

namespace CapabilitySubscription
variable {s t : CapabilitySubscription}

/-- All that happened. -/
def history (s : CapabilitySubscription) : List CapabilityEvent := s.earlier ++ s.calls

/-- What a step can do. -/
inductive Change (s : CapabilitySubscription) : CapabilityAction → CapabilitySubscription → Prop
  | unwoken {eventfd : Bool} (idle : s.sub.worker = none) :
    Change s (.start eventfd) { s with earlier := s.history, calls := [.failed "create capability wakeup"] }
  | start {eventfd : Bool} {sub : Subscription CapabilityRun} {wakeFd : Bool} (moved : s.sub.Moved sub)
    (idle : s.sub.worker = none) (worker : sub.worker = some (.loop s.eventsSupported))
    (stopping : sub.stopping = false) :
    Change s (.start eventfd) { s with sub, wakeFd, error := "", earlier := s.history, calls := [] }
  /-- A step of `Stop`, up to `join`. -/
  | main {a : CapabilityAction} {sub : Subscription CapabilityRun} (moved : s.sub.Moved sub)
    (worker : sub.worker = s.sub.worker) (stopping : s.sub.stopping = true → sub.stopping = true) (unset : a ≠ .stop → sub.stopping = s.sub.stopping) :
    Change s a { s with sub }
  | join {a : CapabilityAction} {sub : Subscription CapabilityRun} (moved : s.sub.Moved sub)
    (done : ∀ pc, s.sub.worker = some pc → pc = .done) (told : s.failing = none) (worker : sub.worker = none) (stopping : sub.stopping = s.sub.stopping) :
    Change s a { s with sub }
  /-- The worker goes on, and an error may have been found. -/
  | go {a : CapabilityAction} {sub : Subscription CapabilityRun} {pc pc' : CapabilityRun} {outcome : Outcome}
    {error : String} (goes : s.sub.Goes sub pc outcome pc') (unprobed : ∀ events, pc ≠ .probed events)
    (unchecked : pc ≠ .refused ∧ pc ≠ .report) (unread : (∃ events, pc = .readFrame events) → s.accepted = none) :
    Change s a { s with sub, error }
  | connect {a : CapabilityAction} {sub : Subscription CapabilityRun} {events : Bool} {fd : Nat} {stream : List Received}
    (goes : s.sub.Goes sub (.connect events) (.fd fd) (.store events)) :
    Change s a { s with sub, stream, opened := stream, frames := [] }
  | ask {a : CapabilityAction} {sub : Subscription CapabilityRun} {events : Bool} {pc' : CapabilityRun}
    {outcome : Outcome} {error : String} (goes : s.sub.Goes sub (.write events) outcome pc')
    (place : pc' = .eventLoop events ∨ pc' = .ended events) :
    Change s a { s with sub, error, calls := s.calls ++ [.asked (capabilityRequest s.identity s.eventsSupported)] }
  | reject {a : CapabilityAction} {sub : Subscription CapabilityRun} {events : Bool} {frame : Frame}
    {stream : List Received} {error : String} (goes : s.sub.Goes sub (.readFrame events) .failed (.ended events))
    (fresh : s.accepted = none) (read : readFrame s.stream = (.done frame, stream)) (invalid : ¬ frame.Describes) :
    Change s a { s with sub, error, stream, frames := s.frames ++ [frame], calls := s.calls ++ [.read frame] }
  | accept {a : CapabilityAction} {events : Bool} {frame : Frame} {stream : List Received}
    (worker : s.sub.worker = some (.readFrame events)) (fresh : s.accepted = none)
    (read : readFrame s.stream = (.done frame, stream)) (valid : frame.Describes) :
    Change s a { s with stream, frames := s.frames ++ [frame], calls := s.calls ++ [.read frame], accepted := some frame }
  | tell {a : CapabilityAction} {sub : Subscription CapabilityRun} {pc' : CapabilityRun} {frame : Frame}
    {outcome : Outcome} (goes : s.sub.Goes sub (.readFrame s.eventsSupported) outcome pc')
    (accepted : s.accepted = some frame)
    (place : pc' = if s.eventsSupported then .eventLoop true else .probed frame.eventsSupported) :
    Change s a { s with sub, accepted := none, calls := s.calls ++ [.callback frame.videoInfo] }
  | switch {a : CapabilityAction} {sub : Subscription CapabilityRun} {events : Bool}
    (goes : s.sub.Goes sub (.probed events) .ok (.switched events)) : Change s a { s with sub, eventsSupported := events }
  | check {a : CapabilityAction} {sub : Subscription CapabilityRun} {pc : CapabilityRun} {error : String}
    (goes : s.sub.Goes sub pc (.flag s.sub.stopping) .done) (place : pc = .refused ∨ pc = .report) :
    Change s a { s with sub, failing := if s.sub.stopping then none else some error }
  | failed {a : CapabilityAction} {error : String} (done : s.sub.worker = some .done) (failing : s.failing = some error) :
    Change s a { s with failing := none, calls := s.calls ++ [.failed error] }

theorem move_eq {a : SubscriptionAction} (h : s.move a = some t) :
    ∃ sub, Subscription.step (CapabilityRun.worker s.eventsSupported) s.sub a = some sub ∧ t = { s with sub } := by
  obtain ⟨sub, hsub, rfl⟩ := Option.map_eq_some_iff.mp h
  exact ⟨sub, hsub, rfl⟩

theorem goes_of_move {outcome : Outcome} {pc : CapabilityRun} (h : s.move (.run outcome) = some t)
    (hw : s.sub.worker = some pc) : ∃ sub pc', s.sub.Goes sub pc outcome pc' ∧ t = { s with sub } := by
  obtain ⟨sub, hsub, rfl⟩ := move_eq h
  obtain ⟨pc₀, a, pc', u, hw', hnext, hu, rfl⟩ := Subscription.step_run hsub
  obtain rfl : pc = pc₀ := Option.some.inj (hw.symm.trans hw')
  have hne : a ≠ .raised := fun ha => CapabilityRun.next_ne_raised (ha ▸ hnext)
  obtain ⟨hstopping, hchecked⟩ := Subscription.access_stopping hu hne
  exact ⟨{ u with worker := some pc' }, pc', ⟨⟨s.eventsSupported, _, hsub⟩, hw, ⟨a, hnext, hchecked⟩, rfl, hstopping⟩, rfl⟩

namespace Change
variable {a : CapabilityAction}

theorem of_check {stopping : Bool} {error : String} {pc : CapabilityRun} (hw : s.sub.worker = some pc)
    (hpc : pc = .refused ∨ pc = .report) (h : s.check stopping error = some t) : s.Change a t := by
  obtain ⟨sub, pc', goes, rfl⟩ := goes_of_move h hw
  obtain ⟨a, hnext, hchecked⟩ := goes.next
  obtain ⟨rfl, hstopping⟩ : pc' = .done ∧ s.sub.stopping = stopping := by
    rcases hpc with rfl | rfl <;> cases hnext <;> exact ⟨rfl, hchecked stopping rfl⟩
  subst hstopping
  exact .check goes hpc

theorem of_receive {events : Bool} (hw : s.sub.worker = some (.readFrame events)) (fresh : s.accepted = none)
    (h : s.receive = some t) : s.Change a t := by
  unfold receive at h
  split at h
  · cases h
  · rename_i error _ _
    obtain ⟨sub, pc', goes, rfl⟩ := goes_of_move h hw
    exact .go goes nofun ⟨nofun, nofun⟩ fun _ => fresh
  · rename_i frame stream hread
    dsimp only at h
    split at h
    · rename_i hvalid
      obtain rfl := Option.some.inj h
      exact .accept hw fresh hread hvalid
    · rename_i hinvalid
      obtain ⟨sub, pc', goes, rfl⟩ := goes_of_move h hw
      obtain ⟨a, hnext, -⟩ := goes.next
      obtain rfl : pc' = .ended events := by
        cases events <;> cases hnext <;> rfl
      exact .reject goes fresh hread hinvalid

theorem of_tell {events : Bool} {frame : Frame} (hw : s.sub.worker = some (.readFrame events))
    (accepted : s.accepted = some frame) (h : s.tell frame = some t) : s.Change a t := by
  obtain ⟨sub, pc', goes, rfl⟩ := goes_of_move h hw
  obtain ⟨a, hnext, -⟩ := goes.next
  obtain ⟨rfl, hplace⟩ := CapabilityRun.next_told hnext
  exact .tell goes accepted hplace

theorem of_run {pc : CapabilityRun} {call : CapabilityCall} (hw : s.sub.worker = some pc) (h : s.runStep pc call = some t) :
    s.Change a t := by
  unfold runStep at h
  split at h
  · rename_i events error
    obtain ⟨sub, pc', goes, rfl⟩ := goes_of_move h hw
    exact .go goes nofun ⟨nofun, nofun⟩ nofun
  · rename_i events fd stream
    obtain ⟨sub, pc', goes, rfl⟩ := goes_of_move h hw
    obtain ⟨a, hnext, -⟩ := goes.next
    cases hnext
    exact .connect goes
  · exact of_check hw (.inl rfl) h
  · rename_i events result
    dsimp only at h
    split at h
    · obtain ⟨sub, pc', goes, rfl⟩ := goes_of_move h hw
      obtain ⟨a, hnext, -⟩ := goes.next
      cases hnext
      exact .ask goes (.inl rfl)
    · obtain ⟨sub, pc', goes, rfl⟩ := goes_of_move h hw
      obtain ⟨a, hnext, -⟩ := goes.next
      cases hnext
      exact .ask goes (.inr rfl)
  · split at h
    · exact of_receive hw ‹_› h
    · cases h
  · obtain ⟨frame, hframe, h⟩ := Option.bind_eq_some_iff.mp h
    exact of_tell hw hframe h
  · obtain ⟨sub, pc', goes, rfl⟩ := goes_of_move h hw
    obtain ⟨a, hnext, -⟩ := goes.next
    cases hnext
    exact .switch goes
  · exact of_check hw (.inr rfl) h
  · obtain ⟨error, herror, rfl⟩ := Option.map_eq_some_iff.mp h
    exact .failed hw herror
  · rename_i outcome _ _
    split at h
    · rename_i hplain
      obtain ⟨sub, pc', goes, rfl⟩ := goes_of_move h hw
      refine .go goes ?_ ⟨?_, ?_⟩ ?_
      · rintro _ rfl
        cases hplain
      · rintro rfl
        cases hplain
      · rintro rfl
        cases hplain
      · rintro ⟨_, rfl⟩
        cases hplain
    · cases h
  · cases h

theorem of_step (h : s.step a = some t) : s.Change a t := by
  cases a with
  | start eventfd =>
    simp only [step, Option.ite_none_right_eq_some] at h
    obtain ⟨⟨hidle, hnone⟩, h⟩ := h
    split at h
    · obtain rfl := Option.some.inj h
      exact .unwoken hnone
    · obtain ⟨sub, hsub, rfl⟩ := move_eq h
      obtain ⟨-, -, rfl⟩ := Subscription.step_start hsub
      exact .start ⟨_, _, hsub⟩ hnone rfl rfl
  | stop =>
    obtain ⟨sub, hsub, rfl⟩ := move_eq h
    obtain ⟨-, rfl⟩ := Subscription.step_stop hsub
    exact .main ⟨_, _, hsub⟩ rfl (fun _ => rfl) fun hne => absurd rfl hne
  | load =>
    obtain ⟨sub, hsub, rfl⟩ := move_eq h
    obtain ⟨-, rfl⟩ := Subscription.step_load hsub
    exact .main ⟨_, _, hsub⟩ rfl id fun _ => rfl
  | shutdown =>
    obtain ⟨sub, hsub, rfl⟩ := move_eq h
    obtain ⟨fd, -, rfl⟩ := Subscription.step_shutdown hsub
    exact .main ⟨_, _, hsub⟩ rfl id fun _ => rfl
  | join =>
    simp only [step, Option.ite_none_right_eq_some] at h
    obtain ⟨htold, h⟩ := h
    obtain ⟨sub, hsub, rfl⟩ := move_eq h
    obtain ⟨hdone, rfl⟩ := Subscription.step_join hsub
    refine .join ⟨_, _, hsub⟩ (fun pc hpc => ?_) htold rfl rfl
    rcases hdone with hnone | hdone
    · rw [hnone] at hpc
      cases hpc
    · exact Option.some.inj (hpc.symm.trans hdone)
  | run call =>
    obtain ⟨pc, hw, h⟩ := Option.bind_eq_some_iff.mp h
    exact of_run hw h

theorem moved (change : s.Change a t) : t.sub = s.sub ∨ s.sub.Moved t.sub := by
  cases change with
  | unwoken | accept | failed => exact .inl rfl
  | start moved | main moved | join moved => exact .inr moved
  | go goes | connect goes | ask goes | reject goes | tell goes | switch goes | check goes => exact .inr goes.moved

end Change

/-! ### `callback_` -/

/-- The frames that were read, and what `callback_` was told. -/
def reads (s : CapabilitySubscription) : List Frame :=
  s.history.filterMap fun | .read frame => some frame | _ => none

def callbacks (s : CapabilitySubscription) : List VideoInfo :=
  s.history.filterMap fun | .callback info => some info | _ => none

/-- Every frame that describes a video was told once and in order, or is about to be. -/
structure Tells (s : CapabilitySubscription) : Prop where
  callbacks : s.callbacks ++ s.accepted.toList.map Frame.videoInfo = (s.reads.filter (·.Describes)).map Frame.videoInfo
  accepted : s.accepted.isSome → ∃ events, s.sub.worker = some (.readFrame events)

/-- What was read is all that came on the socket, so far. -/
structure Follows (s : CapabilitySubscription) : Prop where
  frames : s.frames <:+ s.reads
  stream : readFrames s.frames.length s.opened = (.done s.frames, s.stream)

theorem readFrames_concat {n : Nat} {calls rest rest' : List Received} {frames : List Frame} {frame : Frame}
    (h : readFrames n calls = (.done frames, rest)) (hframe : readFrame rest = (.done frame, rest')) :
    readFrames (n + 1) calls = (.done (frames ++ [frame]), rest') := by
  induction n generalizing calls frames with
  | zero =>
    cases h
    simp only [readFrames, hframe, List.nil_append]
  | succ n ih =>
    rw [readFrames] at h
    split at h
    · cases h
    · cases h
    · rename_i first more hfirst
      split at h
      · cases h
      · cases h
      · rename_i later _ hlater
        cases h
        rw [readFrames, hfirst]
        simp only [ih hlater, List.cons_append]

theorem Follows.received (h : s.Follows) {frame : Frame} {stream : List Received}
    (read : readFrame s.stream = (.done frame, stream)) (frames : t.frames = s.frames ++ [frame])
    (history : t.history = s.history ++ [.read frame]) (opened : t.opened = s.opened) (left : t.stream = stream) :
    t.Follows where
  frames := by
    obtain ⟨before, hbefore⟩ := h.frames
    refine ⟨before, ?_⟩
    rw [frames, ← List.append_assoc, hbefore, reads, reads, history, List.filterMap_append]
    rfl
  stream := by
    rw [frames, opened, left, List.length_append]
    exact readFrames_concat h.stream read

namespace Change
variable {a : CapabilityAction}

theorem tells (change : s.Change a t) (h : s.Tells) : t.Tells := by
  have hnone {pc : CapabilityRun} (hw : s.sub.worker = some pc) (hpc : ∀ events, pc ≠ .readFrame events) :
      ¬s.accepted.isSome := fun hsome => by
    obtain ⟨events, hevents⟩ := h.accepted hsome
    exact hpc events (Option.some.inj (hw.symm.trans hevents))
  have hidle (hw : s.sub.worker = none) : ¬s.accepted.isSome := fun hsome => by
    obtain ⟨events, hevents⟩ := h.accepted hsome
    rw [hw] at hevents
    cases hevents
  have hcallbacks := h.callbacks
  cases change with
  | unwoken idle =>
    refine ⟨?_, fun hsome => absurd hsome (hidle idle)⟩
    simpa [CapabilitySubscription.callbacks, reads, history] using hcallbacks
  | start moved idle worker stopping =>
    refine ⟨?_, fun hsome => absurd hsome (hidle idle)⟩
    simpa [CapabilitySubscription.callbacks, reads, history] using hcallbacks
  | main moved worker stopping unset => exact ⟨hcallbacks, fun hsome => worker ▸ h.accepted hsome⟩
  | join moved done told worker stopping =>
    refine ⟨hcallbacks, fun hsome => ?_⟩
    obtain ⟨events, hevents⟩ := h.accepted hsome
    cases done _ hevents
  | @go _ _ pc _ _ _ goes unprobed unchecked unread =>
    refine ⟨hcallbacks, fun hsome => ?_⟩
    obtain ⟨events, hevents⟩ := h.accepted hsome
    have hfresh := unread ⟨events, Option.some.inj (goes.worker.symm.trans hevents)⟩
    rw [show s.accepted = none from hfresh] at hsome
    cases hsome
  | connect goes => exact ⟨hcallbacks, fun hsome => absurd hsome (hnone goes.worker nofun)⟩
  | ask goes place =>
    refine ⟨?_, fun hsome => absurd hsome (hnone goes.worker nofun)⟩
    simpa [CapabilitySubscription.callbacks, reads, history, ← List.append_assoc] using hcallbacks
  | reject goes fresh read invalid =>
    refine ⟨?_, fun hsome => ?_⟩
    · simpa [CapabilitySubscription.callbacks, reads, history, ← List.append_assoc, invalid] using hcallbacks
    · rw [show s.accepted = none from fresh] at hsome
      cases hsome
  | accept worker fresh read valid =>
    refine ⟨?_, fun _ => ⟨_, worker⟩⟩
    simpa [CapabilitySubscription.callbacks, reads, history, ← List.append_assoc, valid, fresh] using hcallbacks
  | tell goes accepted place =>
    refine ⟨?_, nofun⟩
    simpa [CapabilitySubscription.callbacks, reads, history, ← List.append_assoc, accepted] using hcallbacks
  | switch goes => exact ⟨hcallbacks, fun hsome => absurd hsome (hnone goes.worker nofun)⟩
  | check goes place =>
    refine ⟨hcallbacks, fun hsome => absurd hsome (hnone goes.worker ?_)⟩
    rintro events rfl
    rcases place with hpc | hpc <;> cases hpc
  | failed done failing =>
    refine ⟨?_, fun hsome => absurd hsome (hnone done nofun)⟩
    simpa [CapabilitySubscription.callbacks, reads, history, ← List.append_assoc] using hcallbacks

theorem follows (change : s.Change a t) (h : s.Follows) : t.Follows := by
  have ⟨hframes, hstream⟩ := h
  cases change with
  | unwoken | start | ask | tell | failed =>
    exact ⟨by simpa [reads, history, ← List.append_assoc] using hframes, hstream⟩
  | main | join | go | switch | check => exact ⟨hframes, hstream⟩
  | connect => exact ⟨List.nil_suffix, rfl⟩
  | reject goes fresh read invalid => exact h.received read rfl (List.append_assoc ..).symm rfl rfl
  | accept worker fresh read valid => exact h.received read rfl (List.append_assoc ..).symm rfl rfl

end Change

/-! ### `failed_` -/

/-- What was told since `Start`, with the error that `failed_` is about to be called with. -/
def announced (s : CapabilitySubscription) : List CapabilityEvent := s.calls ++ s.failing.toList.map .failed

/-- `failed_` was not called since `Start`, and is not about to be. -/
def Unreported (s : CapabilitySubscription) : Prop := ∀ error, .failed error ∉ s.announced

/-- `failed_` was called once, and last, or is about to be. -/
def Reported (s : CapabilitySubscription) : Prop :=
  ∃ before error, s.announced = before ++ [.failed error] ∧ ∀ error, .failed error ∉ before

/-- `failed_` is called at the end of `Run` alone, unless `stopping_` is set then. -/
structure Reports (s : CapabilitySubscription) : Prop where
  idle : s.sub.worker = none → s.failing = none
  running : ∀ pc, s.sub.worker = some pc → pc ≠ .done → s.Unreported
  abandoned : s.sub.worker = some .abandon → s.sub.stopping = true
  done : s.sub.worker = some .done → s.sub.stopping = true ∧ s.Unreported ∨ s.Reported

theorem Unreported.failing (h : s.Unreported) : s.failing = none := by
  cases hfailing : s.failing with
  | none => rfl
  | some error => exact absurd (List.mem_append_right _ (by simp [hfailing])) (h error)

/-- Nothing was reported, and what is told now is no failure. -/
theorem Unreported.log (h : s.Unreported) {event : CapabilityEvent} (hevent : ∀ error, event ≠ .failed error)
    (calls : t.calls = s.calls ++ [event]) (failing : t.failing = s.failing) : t.Unreported := by
  intro error hmem
  rw [announced, calls, failing, h.failing] at hmem
  simp only [Option.toList_none, List.map_nil, List.append_nil, List.mem_append, List.mem_singleton] at hmem
  rcases hmem with hmem | hmem
  · exact h error (List.mem_append_left _ hmem)
  · exact hevent error hmem.symm

/-- A worker that comes to another place than the end, without a report. -/
theorem Reports.arrived {pc : CapabilityRun} (hw : t.sub.worker = some pc) (hpc : pc ≠ .done ∧ pc ≠ .abandon)
    (hu : t.Unreported) : t.Reports where
  idle hnone := by
    rw [hw] at hnone
    cases hnone
  running _ _ _ := hu
  abandoned habandon := absurd (Option.some.inj (hw.symm.trans habandon)) hpc.2
  done hdone := absurd (Option.some.inj (hw.symm.trans hdone)) hpc.1

namespace Change
variable {a : CapabilityAction}

theorem reports (change : s.Change a t) (h : s.Reports) : t.Reports := by
  cases change with
  | unwoken idle =>
    have hnone {pc : CapabilityRun} (hw : s.sub.worker = some pc) : False := by
      rw [idle] at hw
      cases hw
    exact ⟨h.idle, fun _ hw => (hnone hw).elim, fun hw => (hnone hw).elim, fun hw => (hnone hw).elim⟩
  | start moved idle worker stopping =>
    refine Reports.arrived worker ⟨nofun, nofun⟩ fun error hmem => ?_
    simp [announced, h.idle idle] at hmem
  | main moved worker stopping unset =>
    refine ⟨fun hw => h.idle (worker ▸ hw), fun pc hw => h.running pc (worker ▸ hw),
      fun hw => stopping (h.abandoned (worker ▸ hw)), fun hw => ?_⟩
    exact (h.done (worker ▸ hw)).imp_left fun hset => ⟨stopping hset.1, hset.2⟩
  | @join _ sub moved done told worker stopping =>
    have hnone {pc : CapabilityRun} (hw : sub.worker = some pc) : False := by
      rw [worker] at hw
      cases hw
    exact ⟨fun _ => told, fun _ hw => (hnone hw).elim, fun hw => (hnone hw).elim, fun hw => (hnone hw).elim⟩
  | @go _ sub pc pc' outcome error goes unprobed unchecked unread =>
    obtain ⟨access, hnext, hchecked⟩ := goes.next
    have hrunning : pc ≠ .done := by
      rintro rfl
      cases hnext
    have hset (ha : access = .checked true) : sub.stopping = true := goes.stopping.trans (hchecked true ha)
    refine ⟨fun _ => (h.running pc goes.worker hrunning).failing, fun _ _ _ => h.running pc goes.worker hrunning,
      fun habandon => ?_, fun hdone => .inl ⟨?_, h.running pc goes.worker hrunning⟩⟩
    · obtain rfl := goes.arrived_eq habandon
      exact hset (CapabilityRun.next_abandon hnext)
    · obtain rfl := goes.arrived_eq hdone
      rcases CapabilityRun.next_done hnext with ha | rfl | rfl | rfl
      · exact hset ha
      · exact goes.stopping.trans (h.abandoned goes.worker)
      · exact absurd rfl unchecked.1
      · exact absurd rfl unchecked.2
  | connect goes => exact Reports.arrived goes.arrived ⟨nofun, nofun⟩ (h.running _ goes.worker nofun)
  | ask goes place =>
    refine Reports.arrived goes.arrived ?_ ((h.running _ goes.worker nofun).log (by simp) rfl rfl)
    rcases place with rfl | rfl <;> exact ⟨nofun, nofun⟩
  | reject goes fresh read invalid =>
    exact Reports.arrived goes.arrived ⟨nofun, nofun⟩ ((h.running _ goes.worker nofun).log (by simp) rfl rfl)
  | accept worker fresh read valid =>
    exact Reports.arrived worker ⟨nofun, nofun⟩ ((h.running _ worker nofun).log (by simp) rfl rfl)
  | tell goes accepted place =>
    refine Reports.arrived goes.arrived ?_ ((h.running _ goes.worker nofun).log (by simp) rfl rfl)
    rw [place]
    split <;> exact ⟨nofun, nofun⟩
  | switch goes => exact Reports.arrived goes.arrived ⟨nofun, nofun⟩ (h.running _ goes.worker nofun)
  | @check _ sub pc error goes place =>
    have hu : s.Unreported := by
      refine h.running pc goes.worker ?_
      rintro rfl
      rcases place with hpc | hpc <;> cases hpc
    refine ⟨fun hw => ?_, fun _ hw hne => absurd (goes.arrived_eq hw).symm hne, fun hw => CapabilityRun.noConfusion (goes.arrived_eq hw),
      fun _ => ?_⟩
    · rw [goes.arrived] at hw
      cases hw
    · cases hstopping : s.sub.stopping with
      | true =>
        refine .inl ⟨goes.stopping.trans hstopping, fun e hmem => hu e ?_⟩
        simpa [announced, hu.failing] using hmem
      | false =>
        refine .inr ⟨s.calls, error, rfl, fun e hmem => hu e (List.mem_append_left _ hmem)⟩
  | @failed _ error done failing =>
    have hsame : announced { s with failing := none, calls := s.calls ++ [.failed error] } = s.announced := by
      simp [announced, failing]
    have hend := h.done done
    refine ⟨fun _ => rfl, fun pc hw hne => absurd (Option.some.inj (hw.symm.trans done)) hne, h.abandoned, fun _ => ?_⟩
    unfold Unreported Reported at hend ⊢
    rwa [hsame]

/-- With `stopping_` set and nothing reported, only another `Start` can lead to a report. -/
theorem unreported (change : s.Change a t) (hstart : ∀ eventfd, a ≠ .start eventfd)
    (h : s.sub.stopping = true ∧ s.Unreported) : t.sub.stopping = true ∧ t.Unreported := by
  obtain ⟨hset, hu⟩ := h
  cases change with
  | unwoken => exact absurd rfl (hstart _)
  | start => exact absurd rfl (hstart _)
  | main moved worker stopping unset => exact ⟨stopping hset, hu⟩
  | join moved done told worker stopping => exact ⟨stopping.trans hset, hu⟩
  | go goes => exact ⟨goes.stopping.trans hset, hu⟩
  | connect goes => exact ⟨goes.stopping.trans hset, hu⟩
  | ask goes place => exact ⟨goes.stopping.trans hset, hu.log (by simp) rfl rfl⟩
  | reject goes => exact ⟨goes.stopping.trans hset, hu.log (by simp) rfl rfl⟩
  | accept worker => exact ⟨hset, hu.log (by simp) rfl rfl⟩
  | tell goes => exact ⟨goes.stopping.trans hset, hu.log (by simp) rfl rfl⟩
  | switch goes => exact ⟨goes.stopping.trans hset, hu⟩
  | check goes place =>
    refine ⟨goes.stopping.trans hset, fun e hmem => hu e ?_⟩
    simpa [announced, hu.failing, hset] using hmem
  | failed done failing =>
    rw [hu.failing] at failing
    cases failing

/-- While a worker is there, only `Stop` sets `stopping_`. -/
theorem unset (change : s.Change a t) (hstop : a ≠ .stop) (h : s.sub.worker.isSome → s.sub.stopping = false)
    (hw : t.sub.worker.isSome) : t.sub.stopping = false := by
  cases change with
  | unwoken idle => exact h hw
  | start moved idle worker stopping => exact stopping
  | main moved worker stopping unset => exact (unset hstop).trans (h (worker ▸ hw))
  | @join _ sub moved done told worker stopping =>
    rw [show sub.worker = none from worker] at hw
    cases hw
  | go goes | connect goes | ask goes | reject goes | tell goes | switch goes | check goes =>
    exact goes.stopping.trans (h (by rw [goes.worker]; rfl))
  | accept worker => exact h hw
  | failed done => exact h hw

end Change

/-! ### The requests -/

theorem subscriptionJSON_inj {identity : ByteIdentity} {video video' codec : List UInt8}
    (h : subscriptionJSON identity video codec = subscriptionJSON identity video' codec) : video = video' := by
  unfold subscriptionJSON at h
  dsimp only at h
  split at h
  · simpa only [List.append_assoc, List.append_cancel_left_eq, List.append_cancel_right_eq] using h
  · simpa only [List.append_assoc, List.append_cancel_left_eq, List.append_cancel_right_eq] using h

theorem capabilityRequest_inj {identity : ByteIdentity} {events : Bool}
    (h : capabilityRequest identity events = capabilityRequest identity true) : events = true := by
  cases events with
  | true => rfl
  | false => exact absurd (subscriptionJSON_inj h) (by decide)

def Advertised (s : CapabilitySubscription) : Prop := ∃ event ∈ s.history, event.Advertises s.identity

/-- Once events were advertised, each request asks for them. -/
def Upward (identity : ByteIdentity) (history : List CapabilityEvent) : Prop :=
  Along (fun before event => (∃ e ∈ before, e.Advertises identity) →
    ∀ request, event = .asked request → request = capabilityRequest identity true) history

structure Negotiates (s : CapabilitySubscription) : Prop where
  upward : Upward s.identity s.history
  advertised : s.Advertised → s.eventsSupported = true ∨ s.sub.worker = some (.probed true)
  agrees : ∀ pc, s.sub.worker = some pc → pc.Agrees s.eventsSupported

theorem Negotiates.supported (h : s.Negotiates) {pc : CapabilityRun} (hw : s.sub.worker = some pc)
    (hpc : ∀ events, pc ≠ .probed events) (advertised : s.Advertised) : s.eventsSupported = true :=
  (h.advertised advertised).resolve_right fun hprobed => hpc true (Option.some.inj (hw.symm.trans hprobed))

/-- What is told now comes behind the history. -/
theorem Negotiates.log (h : s.Negotiates) {event : CapabilityEvent} (identity : t.identity = s.identity)
    (history : t.history = s.history ++ [event])
    (asked : s.Advertised → ∀ request, event = .asked request → request = capabilityRequest s.identity true)
    (kept : s.Advertised ∨ event.Advertises s.identity → t.eventsSupported = true ∨ t.sub.worker = some (.probed true))
    (agrees : ∀ pc, t.sub.worker = some pc → pc.Agrees t.eventsSupported) : t.Negotiates where
  upward := by
    rw [identity, history]
    exact along_concat.mpr ⟨h.upward, asked⟩
  advertised hmem := by
    refine kept ?_
    obtain ⟨e, he, hadvertises⟩ := hmem
    rw [history, List.mem_append, List.mem_singleton] at he
    rw [identity] at hadvertises
    rcases he with he | rfl
    · exact .inl ⟨e, he, hadvertises⟩
    · exact .inr hadvertises
  agrees := agrees

/-- The worker goes on without a word. -/
theorem Negotiates.goes (h : s.Negotiates) {pc pc' : CapabilityRun} {outcome : Outcome}
    (goes : s.sub.Goes t.sub pc outcome pc') (unprobed : ∀ events, pc ≠ .probed events)
    (agrees : pc'.Agrees s.eventsSupported) (identity : t.identity = s.identity) (history : t.history = s.history)
    (supported : t.eventsSupported = s.eventsSupported) : t.Negotiates where
  upward := by
    rw [identity, history]
    exact h.upward
  advertised hmem := by
    unfold Advertised at hmem
    rw [identity, history] at hmem
    exact .inl (supported.trans (h.supported goes.worker unprobed hmem))
  agrees place hw := by
    obtain rfl := goes.arrived_eq hw
    rw [supported]
    exact agrees

namespace Change
variable {a : CapabilityAction}

theorem negotiates (change : s.Change a t) (h : s.Negotiates) : t.Negotiates := by
  cases change with
  | unwoken idle =>
    refine h.log rfl rfl (fun _ _ => nofun) (fun hmem => h.advertised (hmem.resolve_right id)) h.agrees
  | start moved idle worker stopping =>
    have hhistory : s.history ++ [] = s.history := List.append_nil _
    refine ⟨?_, fun hmem => .inl ?_, fun pc hw => ?_⟩
    · unfold history
      exact hhistory.symm ▸ h.upward
    · unfold Advertised at hmem
      rw [history, hhistory] at hmem
      refine (h.advertised hmem).resolve_right fun hw => ?_
      rw [idle] at hw
      cases hw
    · obtain rfl := Option.some.inj (worker.symm.trans hw)
      rfl
  | main moved worker stopping unset =>
    exact ⟨h.upward, fun hmem => (h.advertised hmem).imp_right worker.trans, fun pc hw => h.agrees pc (worker ▸ hw)⟩
  | @join _ sub moved done told worker stopping =>
    refine ⟨h.upward, fun hmem => .inl ((h.advertised hmem).resolve_right fun hw => ?_), fun pc hw => ?_⟩
    · cases done _ hw
    · rw [show sub.worker = some pc from hw] at worker
      cases worker
  | go goes unprobed unchecked unread =>
    obtain ⟨access, hnext, -⟩ := goes.next
    have hagrees := (CapabilityRun.agrees_next hnext (h.agrees _ goes.worker)).resolve_left
      fun ⟨events, hpc, _⟩ => unprobed events hpc
    exact h.goes goes unprobed hagrees rfl rfl rfl
  | connect goes =>
    have hagrees := h.agrees (.connect _) goes.worker
    exact h.goes goes nofun hagrees rfl rfl rfl
  | ask goes place =>
    have hsupported := h.supported goes.worker nofun
    refine h.log rfl (List.append_assoc ..).symm (fun hmem request hr => ?_) (fun hmem => .inl ?_) fun place' hw => ?_
    · rw [← CapabilityEvent.asked.inj hr, hsupported hmem]
    · exact hmem.elim hsupported capabilityRequest_inj
    · obtain rfl := goes.arrived_eq hw
      have hagrees := h.agrees _ goes.worker
      rcases place with rfl | rfl <;> exact hagrees
  | reject goes fresh read invalid =>
    refine h.log rfl (List.append_assoc ..).symm (fun _ _ => nofun)
      (fun hmem => .inl (h.supported goes.worker nofun (hmem.resolve_right id))) fun place hw => ?_
    obtain rfl := goes.arrived_eq hw
    exact h.agrees (.readFrame _) goes.worker
  | accept worker fresh read valid =>
    exact h.log rfl (List.append_assoc ..).symm (fun _ _ => nofun)
      (fun hmem => h.advertised (hmem.resolve_right id)) h.agrees
  | @tell _ sub pc' frame outcome goes accepted place =>
    have hsupported := h.supported goes.worker nofun
    refine h.log rfl (List.append_assoc ..).symm (fun _ _ => nofun) (fun hmem => ?_) fun place' hw => ?_
    · change s.eventsSupported = true ∨ sub.worker = some (.probed true)
      rw [goes.arrived, place]
      cases hevents : s.eventsSupported with
      | true => exact .inl rfl
      | false =>
        -- A probe is told what the frame says of events.
        refine .inr (congrArg (some ∘ CapabilityRun.probed) (hmem.elim (fun hold => ?_) id))
        rw [hsupported hold] at hevents
        cases hevents
    · obtain rfl := goes.arrived_eq hw
      rw [place]
      cases s.eventsSupported <;> rfl
  | @switch _ sub events goes =>
    refine ⟨h.upward, fun hmem => .inl ?_, fun place hw => ?_⟩
    · rcases h.advertised hmem with hsupported | hprobed
      · have hagrees : s.eventsSupported = false := h.agrees _ goes.worker
        rw [hsupported] at hagrees
        cases hagrees
      · exact CapabilityRun.probed.inj (Option.some.inj (goes.worker.symm.trans hprobed))
    · obtain rfl := goes.arrived_eq hw
      rfl
  | check goes place =>
    refine h.goes goes ?_ trivial rfl rfl rfl
    rintro events rfl
    rcases place with hpc | hpc <;> cases hpc
  | failed done failing =>
    exact h.log rfl (List.append_assoc ..).symm (fun _ _ => nofun)
      (fun hmem => h.advertised (hmem.resolve_right id)) h.agrees

end Change

/-! ### Runs -/

/-- `Run` has returned. -/
def Returned (s : CapabilitySubscription) : Prop := s.sub.worker = some .done ∧ s.failing = none

/-- What every run keeps. -/
structure Kept (s : CapabilitySubscription) : Prop where
  tells : s.Tells
  follows : s.Follows
  reports : s.Reports
  negotiates : s.Negotiates
  handshake : s.sub.Handshake CapabilityRun.stage

theorem Kept.start (identity : ByteIdentity) (eventsSupported : Bool) : Kept { identity, eventsSupported } where
  tells := ⟨rfl, nofun⟩
  follows := ⟨List.nil_suffix, rfl⟩
  reports := ⟨fun _ => rfl, nofun, nofun, nofun⟩
  negotiates := ⟨along_nil, fun ⟨_, hmem, _⟩ => absurd hmem List.not_mem_nil, nofun⟩
  handshake := .start

theorem Kept.step (h : s.Kept) {a : CapabilityAction} (hstep : s.step a = some t) : t.Kept := by
  have change := Change.of_step hstep
  refine ⟨change.tells h.tells, change.follows h.follows, change.reports h.reports, change.negotiates h.negotiates, ?_⟩
  rcases change.moved with hsame | ⟨events, b, hmoved⟩
  · exact hsame ▸ h.handshake
  · exact h.handshake.step (CapabilityRun.staged events)
      (fun _ => Subscription.not_exposed fun _ => CapabilityRun.stored_of_safe) hmoved

theorem run_kept {identity : ByteIdentity} {eventsSupported : Bool} {actions : List CapabilityAction}
    (h : Transition.run step { identity, eventsSupported } actions = some s) : s.Kept :=
  run_invariant (Kept.start identity eventsSupported) (fun _ _ _ hu ha => hu.step ha) h

theorem identity_step {a : CapabilityAction} (h : s.step a = some t) : t.identity = s.identity := by
  cases Change.of_step h <;> rfl

theorem stopping_start {eventfd : Bool} (h : s.step (.start eventfd) = some t) (hw : t.sub.worker.isSome) :
    t.sub.stopping = false := by
  simp only [CapabilitySubscription.step, Option.ite_none_right_eq_some] at h
  obtain ⟨⟨hidle, hnone⟩, h⟩ := h
  split at h
  · obtain rfl := Option.some.inj h
    change s.sub.worker.isSome at hw
    rw [hnone] at hw
    cases hw
  · obtain ⟨sub, hsub, rfl⟩ := move_eq h
    obtain ⟨-, -, rfl⟩ := Subscription.step_start hsub
    rfl

/-- Behind the last `Start` without a `Stop`, a worker that is there finds `stopping_` unset. -/
theorem stopping_run {before more : List CapabilityAction} {eventfd : Bool} {u : CapabilitySubscription}
    (h : run step s (before ++ .start eventfd :: more) = some u) (hstop : .stop ∉ more) (hw : u.sub.worker.isSome) :
    u.sub.stopping = false := by
  obtain ⟨v, -, h⟩ := run_append_eq_some.mp h
  obtain ⟨w, hstart, h⟩ := run_cons_eq_some.mp h
  exact run_invariant_of_mem (P := fun x => x.sub.worker.isSome → x.sub.stopping = false) (stopping_start hstart)
    (fun x y b hb hx hy => (Change.of_step hy).unset (fun hbs => hstop (hbs ▸ hb)) hx) h hw

end CapabilitySubscription

open CapabilitySubscription

/-- A probe that was answered does not end `Run`: the socket is closed when it is looked at. Nor does `Stop` wait for a
    worker that waits for its peer, whatever is asked for after another `Start`. -/
theorem probe_goes_on {identity : ByteIdentity} {eventsSupported : Bool} {actions : List CapabilityAction}
    {s : CapabilitySubscription} (h : run step { identity, eventsSupported } actions = some s) :
    (∀ events, s.sub.worker = some (.again events) → s.sub.socketFd = none) ∧ ¬ s.sub.Stuck CapabilityRun.blocked :=
  have handshake := (run_kept h).handshake
  ⟨fun events hw => (handshake.holds (.again events) hw).2, handshake.not_stuck fun _ => CapabilityRun.safe_of_blocked⟩

/-- In every run of the subscription, with whatever the peer sends and whenever `Stop` comes: each frame that was read
    and describes a video is told once and in order, unless it is about to be, and what was read is all that came on
    the socket; if `Run` returns and there was no `Stop` since `Start`, `failed_` was called once, and last; if
    `stopping_` is set before `failed_` is decided on, it is not called until the next `Start`; and once a frame was
    told that says events are supported, every request asks for them. -/
theorem capability_reports {identity : ByteIdentity} {eventsSupported : Bool} {actions : List CapabilityAction}
    {s : CapabilitySubscription} (h : run step { identity, eventsSupported } actions = some s) :
    (s.callbacks ++ s.accepted.toList.map Frame.videoInfo = (s.reads.filter (·.Describes)).map Frame.videoInfo ∧
      (s.accepted.isSome → ∃ events, s.sub.worker = some (.readFrame events)) ∧
      s.frames <:+ s.reads ∧ readFrames s.frames.length s.opened = (.done s.frames, s.stream)) ∧
    (∀ before eventfd more, actions = before ++ .start eventfd :: more → .stop ∉ more → s.Returned →
      ∃ told error, s.calls = told ++ [.failed error] ∧ ∀ error, .failed error ∉ told) ∧
    (s.sub.stopping = true → s.Unreported → ∀ more t, (∀ eventfd, .start eventfd ∉ more) →
      run step s more = some t → t.Unreported) ∧
    Upward identity s.history := by
  have hkept : s.Kept := run_kept h
  have hidentity : s.identity = identity :=
    run_invariant (P := fun u => u.identity = identity) rfl (fun _ _ _ hu ha => (identity_step ha).trans hu) h
  refine ⟨⟨hkept.tells.callbacks, hkept.tells.accepted, hkept.follows.frames, hkept.follows.stream⟩,
    fun before eventfd more hactions hstop hreturned => ?_, fun hset hu more t hstart hmore => ?_,
    hidentity ▸ hkept.negotiates.upward⟩
  · obtain ⟨hdone, hfailing⟩ := hreturned
    have hunset := stopping_run (hactions ▸ h) hstop (by rw [hdone]; rfl)
    have hreported : s.Reported := (hkept.reports.done hdone).resolve_left fun ⟨hset, _⟩ => by
      rw [hunset] at hset
      cases hset
    obtain ⟨told, error, htold, honce⟩ := hreported
    refine ⟨told, error, ?_, honce⟩
    rw [← htold, announced, hfailing]
    exact (List.append_nil _).symm
  · exact (run_invariant_of_mem (P := fun u => u.sub.stopping = true ∧ u.Unreported) ⟨hset, hu⟩
      (fun u v a ha hu hv => (Change.of_step hv).unreported (fun eventfd heq => hstart eventfd (heq ▸ ha)) hu) hmore).2

/-- A frame of 64 by 64 pixels without a payload. -/
def capabilityFrame (flags : UInt8) : List UInt8 :=
  magic ++ [1, 3, 0, flags] ++ List.replicate 18 0 ++ [0x41, 0x1a, 0, 64, 0, 64, 0, 0, 0, 0, 0, 0, 0, 0]

/-- What the worker does up to a frame, on a connection. -/
def connection (stream : List Received) : List CapabilityAction :=
  [.run (.other (.flag false)), .run (.connect (.ok (5, stream))), .run (.other .ok), .run (.other (.flag false)),
    .run (.write (.ok ())), .run (.other (.flag false)), .run (.other .ok), .run (.other (.flag false)), .run .read]

/-- A probe is answered, and the connection behind it is closed after one frame. -/
def probeAndClose : List CapabilityAction :=
  connection [.items (capabilityFrame 0x85)] ++
    [.run .callback, .run .close, .run (.other (.flag false)), .run (.other .ok), .run (.other .failed)] ++
    connection [.items (capabilityFrame 0x84), .items []] ++
    [.run .callback, .run (.other (.flag false)), .run (.other .ok), .run (.other (.flag false)), .run .read,
      .run (.other .ok), .run (.other .ok), .run (.check false), .run .failed]

theorem run_probeAndClose : (run step { identity := ⟨bytesOf "vnc", bytesOf "key"⟩, eventsSupported := false }
    (.start true :: probeAndClose)).map (fun s => (s.sub.worker, s.failing, s.callbacks, s.calls.getLast?)) =
      some (some .done, none, [⟨64, 64, 16666, true, true⟩, ⟨64, 64, 16666, false, true⟩],
        some (.failed "media subscription closed")) := by
  rfl

theorem capability_reports_closed : ∃ s, run step { identity := ⟨bytesOf "vnc", bytesOf "key"⟩, eventsSupported := false }
    (.start true :: probeAndClose) = some s ∧ s.callbacks = [⟨64, 64, 16666, true, true⟩, ⟨64, 64, 16666, false, true⟩] ∧
    s.calls.getLast? = some (.failed "media subscription closed") ∧
    ∃ told error, s.calls = told ++ [.failed error] ∧ ∀ error, .failed error ∉ told := by
  obtain ⟨s, hrun, hstate⟩ := Option.map_eq_some_iff.mp run_probeAndClose
  simp only [Prod.mk.injEq] at hstate
  obtain ⟨hdone, hfailing, hcallbacks, hlast⟩ := hstate
  exact ⟨s, hrun, hcallbacks, hlast,
    (capability_reports hrun).2.1 [] true probeAndClose rfl (by simp [probeAndClose, connection]) ⟨hdone, hfailing⟩⟩

end OnekvmVnc
