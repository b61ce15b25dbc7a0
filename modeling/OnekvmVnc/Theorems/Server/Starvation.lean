import OnekvmVnc.Theorems.Server.Pacing

/-! The rate limiter does not starve a client that waits. Nothing moves a schedule while the gate is closed,
    unless a forced client is served through it, so that the gate opens once the interval is over. A client
    with direct JPEG is sent a frame whenever it waits at an open gate. A fallback client may be left waiting
    there, if nothing it asked for has changed, and then waits for another interval. -/

namespace OnekvmVnc

variable {decoder : JPEGDecoder}

/-- The times of the `ProcessFrame` calls of a run. -/
def callTimes (actions : List ServerAction) : List Int :=
  actions.filterMap fun
    | .processFrame env => some env.now
    | _ => none

theorem mem_callTimes {actions : List ServerAction} {env : Server.FrameEnv} (h : .processFrame env ∈ actions) :
    env.now ∈ callTimes actions :=
  List.mem_filterMap.mpr ⟨_, h, rfl⟩

namespace Server
variable {s t : Server} {c : ClientPtr} {direct : Bool} {time now : Int}

/-! ### How far ahead a schedule is -/

/-- The schedule has not begun, or is at most the slack ahead of the time. -/
def Behind (s : Server) (direct : Bool) (time : Int) : Prop := s.last direct = 0 ∨ s.last direct ≤ time + s.slack direct

theorem Behind.keep (h : s.Behind direct time) (fps : t.fps = s.fps)
    (last : t.last direct = s.last direct ∨ t.last direct = 0) : t.Behind direct time := by
  rcases last with hlast | hlast
  · unfold Behind
    rw [hlast, slack_eq fps]
    exact h
  · exact .inl hlast

/-- Once the interval is over, the gate is open. -/
theorem Behind.opens (h : s.Behind direct time) (elapsed : time + s.interval direct ≤ now) :
    s.gateClosed direct now = false := by
  simp only [gateClosed, Bool.and_eq_false_iff, decide_eq_false_iff_not, not_not, not_lt]
  rcases h with hlast | hlast
  · exact .inl hlast
  · right
    omega

theorem Held.last (h : Held s t) (direct : Bool) : t.last direct = s.last direct ∨ t.last direct = 0 := by
  cases direct with
  | true => exact h.jpeg
  | false => exact h.framebuffer

/-- A call not after the time, which forces no client with direct JPEG, or one while the gate is closed, which
    forces none of the kind. -/
def Calm (s : Server) (direct : Bool) (time : Int) : ServerAction → Prop
  | .processFrame env => (direct = true → s.Unforced env.now direct) ∧
      (env.now ≤ time ∨ (s.gateClosed direct env.now = true ∧ s.Unforced env.now direct))
  | _ => True

theorem Behind.step (h : s.Behind direct time) (nodup : s.clients.Nodup) {action : ServerAction}
    (calm : s.Calm direct time action) (hstep : step decoder s action = some t) : t.Behind direct time := by
  by_cases hcall : ∃ env, action = .processFrame env
  · obtain ⟨env, rfl⟩ := hcall
    obtain ⟨hforced, hcalm⟩ := calm
    rcases processFrame_last nodup hforced hstep with ⟨hfps, -, hlast | ⟨hserves, hlast⟩⟩
    · exact h.keep hfps (.inl hlast)
    · rcases hcalm with hpast | ⟨hclosed, hunforced⟩
      · right
        rw [slack_eq hfps]
        omega
      · -- Nobody has a turn at a closed gate.
        rw [hunforced.gate hserves] at hclosed
        cases hclosed
  · have hheld : Held s t := step_held hstep fun env he => hcall ⟨env, he⟩
    exact h.keep hheld.fps (hheld.last direct)

theorem Behind.run (h : s.Behind direct time) (nodup : s.clients.Nodup) {actions : List ServerAction}
    (calm : Transition.Allowed (Server.step decoder) (fun u => u.Calm direct time) s actions)
    (hrun : Transition.run (Server.step decoder) s actions = some t) : t.Behind direct time :=
  (Transition.run_invariant_of_allowed (P := fun u => u.clients.Nodup ∧ u.Behind direct time) ⟨nodup, h⟩
    (fun _ _ _ hu hcalm ha => ⟨step_nodup hu.1 ha, hu.2.step hu.1 hcalm ha⟩) calm hrun).2

/-! ### A client that waits -/

instance (s : Server) : Decidable (∃ frame, s.Current frame) :=
  decidable_of_iff (s.latestFrame.any (fun frame => frame.width = s.width ∧ frame.height = s.height) = true ∧
      s.latestSequence ≠ 0) (by
    simp only [Option.any_eq_true, decide_eq_true_eq]
    constructor
    · rintro ⟨⟨frame, hlatest, hwidth, hheight⟩, hsequence⟩
      exact ⟨frame, hlatest, hsequence, hwidth, hheight⟩
    · rintro ⟨frame, h⟩
      exact ⟨⟨frame, h.latest, h.width, h.height⟩, h.sequence⟩)

/-- A client of the kind is connected and waits, and there is a frame of the current size to be sent. -/
structure WaitsFor (s : Server) (c : ClientPtr) (direct : Bool) : Prop where
  present : c ∈ s.clients
  waiting : Server.waiting (s.client c) s.latestSequence = true
  kind : (s.client c).wantsDirectJPEG = direct
  current : ∃ frame, s.Current frame

instance (s : Server) (c : ClientPtr) (direct : Bool) : Decidable (s.WaitsFor c direct) :=
  decidable_of_iff (c ∈ s.clients ∧ Server.waiting (s.client c) s.latestSequence = true ∧
      (s.client c).wantsDirectJPEG = direct ∧ ∃ frame, s.Current frame)
    ⟨fun ⟨present, waiting, kind, current⟩ => ⟨present, waiting, kind, current⟩,
      fun h => ⟨h.present, h.waiting, h.kind, h.current⟩⟩

/-- The call does not skip the client for the rate limiter: it is sent the frame, has nothing to be sent, or is
    closed. -/
structure Passes (decoder : JPEGDecoder) (s : Server) (env : FrameEnv) (c : ClientPtr) : Prop where
  passed : s.skips decoder env c = false
  examined : ∀ t, s.processFrame decoder env = some t → Examined s t c

theorem WaitsFor.skips (h : s.WaitsFor c direct) (env : FrameEnv) :
    s.skips decoder env c = (s.gateClosed direct env.now && !(s.client c).data.forceUpdate) := by
  obtain ⟨frame, hcurrent⟩ := h.current
  rw [skips_eq hcurrent, h.waiting, Bool.true_and, paced_eq, h.kind]

theorem WaitsFor.served (h : s.WaitsFor c direct) {env : FrameEnv} (passed : s.skips decoder env c = false) :
    FrameLoop.Served { server := s } s.latestSequence env.now direct c := by
  rw [h.skips] at passed
  refine ⟨h.waiting, ?_, h.kind⟩
  rw [paced_eq, h.kind]
  exact passed

theorem WaitsFor.passes (h : s.WaitsFor c direct) (nodup : s.clients.Nodup) {env : FrameEnv}
    (passed : s.skips decoder env c = false) : Passes decoder s env c := by
  obtain ⟨frame, hcurrent⟩ := h.current
  exact ⟨passed, fun t ht => (processFrame_examined nodup hcurrent h.present (h.served passed) ht).1⟩

/-- A client with direct JPEG that still waits after a call was skipped by it. -/
theorem WaitsFor.skipped (hs : s.WaitsFor c true) (nodup : s.clients.Nodup) {env : FrameEnv}
    (unforced : s.Unforced env.now true) (h : s.processFrame decoder env = some t) (ht : t.WaitsFor c true) :
    s.skips decoder env c = true := by
  by_contra hskips
  rw [Bool.not_eq_true] at hskips
  obtain ⟨frame, hcurrent⟩ := hs.current
  obtain ⟨-, hsequence, -⟩ := processFrame_last nodup (fun _ => unforced) h
  rcases (processFrame_examined nodup hcurrent hs.present (hs.served hskips) h).2 rfl with hgone | hsent
  · exact hgone ht.present
  · have hwaiting := ht.waiting
    simp [Server.waiting, hsequence, hsent.1, hsent.2] at hwaiting

/-! ### Runs -/

/-- A call of `ProcessFrame` forces no client of the kind through a closed gate. -/
def UnforcedStep (s : Server) (direct : Bool) : ServerAction → Prop
  | .processFrame env => s.Unforced env.now direct
  | _ => True

instance (s : Server) (now : Int) (direct : Bool) : Decidable (s.Unforced now direct) := by
  unfold Unforced
  infer_instance

instance (s : Server) (direct : Bool) : (action : ServerAction) → Decidable (s.UnforcedStep direct action)
  | .processFrame env => inferInstanceAs (Decidable (s.Unforced env.now direct))
  | .setFrame _ | .queueAudio _ | .pollClientEvents _ | .syncSubscription | .syncAudioSubscription | .processAudio _ =>
    .isTrue trivial

/-- A call has found the gate open, and neither it nor a later one has forced a client of the kind through a closed
    gate. -/
def UnforcedSinceOpen (decoder : JPEGDecoder) (s : Server) (direct : Bool) (actions : List ServerAction) : Prop :=
  ∃ earlier opening later u, actions = earlier ++ .processFrame opening :: later ∧
    Transition.run (step decoder) s earlier = some u ∧ u.gateClosed direct opening.now = false ∧
    Transition.Allowed (step decoder) (fun v => v.UnforcedStep direct) u (.processFrame opening :: later)

/-- Times do not decrease, so every call is in the past of the last one. -/
theorem le_of_ordered {actions : List ServerAction} {last env : FrameEnv}
    (ordered : (callTimes (actions ++ [.processFrame last])).Pairwise (· ≤ ·))
    (h : .processFrame env ∈ actions ++ [.processFrame last]) : env.now ≤ last.now := by
  rcases List.mem_append.mp h with hmem | hmem
  · rw [callTimes, List.filterMap_append] at ordered
    exact (List.pairwise_append.mp ordered).2.2 _ (mem_callTimes hmem) _ List.mem_cons_self
  · cases List.mem_singleton.mp hmem
    exact le_refl _

/-- At an open gate, the schedule is behind. -/
theorem behind_of_open (h : s.gateClosed direct now = false) (past : now ≤ time) : s.Behind direct time := by
  have hinterval : 0 ≤ s.interval direct := by
    unfold interval
    split <;> exact microseconds_nonneg _
  simp only [gateClosed, Bool.and_eq_false_iff, decide_eq_false_iff_not, not_not, not_lt] at h
  rcases h with hlast | hlast
  · exact .inl hlast
  · right
    omega

/-- Calls in the past leave the schedule behind. -/
theorem Behind.past (h : s.Behind direct time) (nodup : s.clients.Nodup) {actions : List ServerAction}
    (past : ∀ env, .processFrame env ∈ actions → env.now ≤ time)
    (unforced : direct = true → Transition.Allowed (Server.step decoder) (fun u => u.UnforcedStep direct) s actions)
    (hrun : Transition.run (Server.step decoder) s actions = some t) : t.Behind direct time := by
  refine h.run nodup (fun pre action post u hsplit hu => ?_) hrun
  cases action with
  | processFrame env =>
    exact ⟨fun hdirect => unforced hdirect pre (.processFrame env) post u hsplit hu, .inl (past env (by simp [hsplit]))⟩
  | _ => trivial

/-- After a call of `ProcessFrame`, the schedule is at most the slack ahead of it. -/
theorem behind_of_run {fps : Nat} {audioAvailable : Bool} {width height : UInt16} {listening : Finset Nat}
    {actions : List ServerAction} {env : FrameEnv}
    (h : Transition.run (step decoder) (start fps audioAvailable width height listening)
      (actions ++ [.processFrame env]) = some t)
    (ordered : (callTimes (actions ++ [.processFrame env])).Pairwise (· ≤ ·))
    (unforced : direct = true → UnforcedSinceOpen decoder (start fps audioAvailable width height listening) direct
      (actions ++ [.processFrame env])) : t.Behind direct env.now := by
  cases direct with
  | false =>
    have hstart : (start fps audioAvailable width height listening).Behind false env.now := .inl rfl
    exact Behind.past hstart List.nodup_nil (fun _ => le_of_ordered ordered) nofun h
  | true =>
    obtain ⟨earlier, opening, later, u, hsplit, hu, hopen, hunforced⟩ := unforced rfl
    rw [hsplit] at h
    obtain ⟨v, hv, hlater⟩ := Transition.run_append_eq_some.mp h
    cases hu.symm.trans hv
    have hpast (e : FrameEnv) (he : ServerAction.processFrame e ∈ ServerAction.processFrame opening :: later) :
        e.now ≤ env.now := le_of_ordered ordered (hsplit ▸ List.mem_append_right _ he)
    have hbehind : u.Behind true env.now := behind_of_open hopen (hpast opening List.mem_cons_self)
    exact Behind.past hbehind (run_nodup List.nodup_nil hu) hpast (fun _ => hunforced) hlater

/-- As long as the calls skip a client that waits, the schedule stays. -/
theorem Behind.skipped (h : s.Behind direct time) (nodup : s.clients.Nodup) {actions : List ServerAction}
    (hrun : Transition.run (Server.step decoder) s actions = some t)
    (unforced : Transition.Allowed (Server.step decoder) (fun u => u.UnforcedStep direct) s actions)
    (waits : Transition.Allowed (Server.step decoder) (fun u _ => u.WaitsFor c direct) s actions)
    (skipped : ∀ first env rest u, actions = first ++ .processFrame env :: rest →
      Transition.run (Server.step decoder) s first = some u → u.skips decoder env c = true) : t.Behind direct time := by
  refine h.run nodup (fun pre action post u hsplit hu => ?_) hrun
  have hstep := unforced pre action post u hsplit hu
  cases action with
  | processFrame env =>
    have hskips := skipped pre env post u hsplit hu
    rw [(waits pre (.processFrame env) post u hsplit hu).skips, Bool.and_eq_true] at hskips
    exact ⟨fun _ => hstep, .inr ⟨hskips.1, hstep⟩⟩
  | _ => trivial

end Server

/-- A client that has waited since a call of `ProcessFrame` at least an interval ago, while no client of the kind
    was forced through a closed gate: with direct JPEG, this call does not skip it, if before that call none was forced so
    since the gate was last found open; as a fallback client, it has not been skipped by each of the calls since. -/
theorem waiting_not_starved {fps : Nat} {audioAvailable : Bool} {width height : UInt16} {listening : Finset Nat}
    {before between : List ServerAction} {since env : Server.FrameEnv} {s t : Server} {c : ClientPtr} {direct : Bool}
    (hs : Transition.run (Server.step decoder) (Server.start fps audioAvailable width height listening)
      (before ++ [.processFrame since]) = some s)
    (ht : Transition.run (Server.step decoder) s between = some t)
    (ordered : (callTimes (before ++ [.processFrame since] ++ between ++ [.processFrame env])).Pairwise (· ≤ ·))
    (earlier : direct = true → Server.UnforcedSinceOpen decoder (Server.start fps audioAvailable width height listening)
      direct (before ++ [.processFrame since]))
    (unforced : Transition.Allowed (Server.step decoder) (fun u => u.UnforcedStep direct) s between)
    (waits : Transition.Allowed (Server.step decoder) (fun u _ => u.WaitsFor c direct) s between)
    (waiting : t.WaitsFor c direct) (waited : since.now + t.interval direct ≤ env.now) :
    (direct = true → t.Passes decoder env c) ∧
    (direct = false → t.Passes decoder env c ∨ ∃ first later rest u, between = first ++ .processFrame later :: rest ∧
      Transition.run (Server.step decoder) s first = some u ∧ u.Passes decoder later c) := by
  have hordered : (callTimes (before ++ [.processFrame since])).Pairwise (· ≤ ·) := by
    rw [callTimes, List.append_assoc, List.filterMap_append] at ordered
    exact (List.pairwise_append.mp ordered).1
  have hbehind : s.Behind direct since.now := Server.behind_of_run hs hordered earlier
  have hnodup : s.clients.Nodup := Server.run_nodup List.nodup_nil hs
  -- If each of the calls since skipped the client, then the gate is open by now.
  have hpasses (skipped : ∀ first env rest u, between = first ++ .processFrame env :: rest →
      Transition.run (Server.step decoder) s first = some u → u.skips decoder env c = true) :
      t.Passes decoder env c := by
    have hopen := (hbehind.skipped hnodup ht unforced waits skipped).opens waited
    refine waiting.passes (Server.run_nodup hnodup ht) ?_
    rw [waiting.skips, hopen, Bool.false_and]
  constructor
  · rintro rfl
    refine hpasses fun first later rest u hsplit hu => ?_
    subst hsplit
    obtain ⟨v, hv, hrest⟩ := Transition.run_append_eq_some.mp ht
    cases hu.symm.trans hv
    obtain ⟨w, hw, -⟩ := Transition.run_cons_eq_some.mp hrest
    have hnext : Transition.run (Server.step decoder) s (first ++ [.processFrame later]) = some w :=
      Transition.run_concat_eq_some.mpr ⟨u, hu, hw⟩
    have hcons : first ++ ServerAction.processFrame later :: rest = first ++ [.processFrame later] ++ rest := by simp
    have hnow : w.WaitsFor c true := by
      rw [hcons] at ht waits
      exact waits.between ht waiting hnext
    exact (waits first _ rest u rfl hu).skipped (Server.run_nodup hnodup hu) (unforced first _ rest u rfl hu) hw hnow
  · rintro rfl
    by_cases hskipped : ∀ first env rest u, between = first ++ .processFrame env :: rest →
      Transition.run (Server.step decoder) s first = some u → u.skips decoder env c = true
    · exact .inl (hpasses hskipped)
    · right
      push Not at hskipped
      obtain ⟨first, later, rest, u, hsplit, hu, hpassed⟩ := hskipped
      rw [ne_eq, Bool.not_eq_true] at hpassed
      refine ⟨first, later, rest, u, hsplit, hu, ?_⟩
      exact (waits first _ rest u hsplit hu).passes (Server.run_nodup hnodup hu) hpassed

/-- A client is sent the first frame, and asks for what changes in the next one. -/
def askAgain (tightQuality : Int) : List ServerAction :=
  [.pollClientEvents
    { now := 1, sendmsg := fun _ => .again, events :=
      [.accept 0 5 [82], .message 0 (.clientInit []), .message 0 (.setEncodings { tightQuality }),
        .message 0 (.updateRequest 0 0 1 1 false)] },
    .setFrame { data := [0], width := 1, height := 1 },
    .processFrame { now := 1000000000, update := fun _ => some [0], sendmsg := fun _ => .sent 1000 },
    .pollClientEvents
      { now := 1000000000, sendmsg := fun _ => .again, events := [.message 0 (.updateRequest 0 0 1 1 true)] },
    .setFrame { data := [0], width := 1, height := 1 }]

def callAt (now : Int) : Server.FrameEnv := { now, update := fun _ => some [0], sendmsg := fun _ => .sent 1000 }

/-- A client forces a second frame through the closed gate, and is sent a third one in time. -/
def forcedEarlier : List ServerAction :=
  askAgain 5 ++
    [.pollClientEvents
        { now := 1000000001, sendmsg := fun _ => .again, events := [.message 0 (.updateRequest 0 0 1 1 false)] },
      .processFrame (callAt 1000000002),
      .pollClientEvents
        { now := 1000000003, sendmsg := fun _ => .again, events := [.message 0 (.updateRequest 0 0 1 1 true)] },
      .setFrame { data := [0], width := 1, height := 1 }]

def askLater : List ServerAction :=
  [.pollClientEvents
      { now := 1100000000, sendmsg := fun _ => .again, events := [.message 0 (.updateRequest 0 0 1 1 true)] },
    .setFrame { data := [0], width := 1, height := 1 }]

/-- The fourth frame comes too early, and is sent when the interval is over. -/
theorem waiting_not_starved_jpeg : ∃ s t,
    Transition.run (Server.step .grayRow) (Server.start 30 false 1 1 ∅)
        (forcedEarlier ++ .processFrame (callAt 1100000000) :: askLater ++ [.processFrame (callAt 1100000001)]) = some s ∧
      Transition.run (Server.step .grayRow) s [.processFrame (callAt 1110000000)] = some t ∧
      t.Passes .grayRow (callAt 1133333001) 0 := by
  have hrun : ((Transition.run (Server.step .grayRow) (Server.start 30 false 1 1 ∅) forcedEarlier).map fun u =>
      (decide (u.gateClosed true 1100000000 = false ∧ Transition.Allowed (Server.step .grayRow)
          (fun v => v.UnforcedStep true) u
          (.processFrame (callAt 1100000000) :: askLater ++ [.processFrame (callAt 1100000001)])),
        (Transition.run (Server.step .grayRow) u
            (.processFrame (callAt 1100000000) :: askLater ++ [.processFrame (callAt 1100000001)])).map fun s =>
          (decide (Transition.Allowed (Server.step .grayRow) (fun v _ => v.WaitsFor 0 true) s
                [.processFrame (callAt 1110000000)] ∧
              Transition.Allowed (Server.step .grayRow) (fun v => v.UnforcedStep true) s
                [.processFrame (callAt 1110000000)]),
            (Transition.run (Server.step .grayRow) s [.processFrame (callAt 1110000000)]).map fun t =>
              decide (t.WaitsFor 0 true ∧ t.interval true = 33333000)))) =
      some (true, some (true, some true)) := by decide +kernel
  obtain ⟨u, hu, hstate⟩ := Option.map_eq_some_iff.mp hrun
  obtain ⟨hgate, hstate⟩ := Prod.mk.inj hstate
  obtain ⟨hopen, hlater⟩ := of_decide_eq_true hgate
  obtain ⟨s, hs, hstate⟩ := Option.map_eq_some_iff.mp hstate
  obtain ⟨hcalls, hstate⟩ := Prod.mk.inj hstate
  obtain ⟨hwaits, hunforced⟩ := of_decide_eq_true hcalls
  obtain ⟨t, ht, hstate⟩ := Option.map_eq_some_iff.mp hstate
  obtain ⟨hwaiting, hinterval⟩ := of_decide_eq_true hstate
  have hwaited : (callAt 1100000001).now + t.interval true ≤ (callAt 1133333001).now := by
    rw [hinterval]
    decide
  have hreached := Transition.run_append_eq_some.mpr ⟨u, hu, hs⟩
  have hearlier : Server.UnforcedSinceOpen .grayRow (Server.start 30 false 1 1 ∅) true
      (forcedEarlier ++ .processFrame (callAt 1100000000) :: askLater ++ [.processFrame (callAt 1100000001)]) :=
    ⟨forcedEarlier, _, _, u, rfl, hu, hopen, hlater⟩
  have hpasses := waiting_not_starved hreached ht (by decide) (fun _ => hearlier) hunforced hwaits hwaiting hwaited
  exact ⟨s, t, hreached, ht, hpasses.1 rfl⟩

/-- A fallback client for which nothing has changed is looked at, and waits for the next interval. -/
theorem unchanged_skipped : ∃ s t,
    Transition.run (Server.step .grayRow) (Server.start 30 false 1 1 ∅)
        (askAgain (-1) ++ [.processFrame (callAt 1000000001)]) = some s ∧
      Transition.run (Server.step .grayRow) s [.processFrame (callAt 1066666000)] = some t ∧
      (callTimes (askAgain (-1) ++ [.processFrame (callAt 1000000001)] ++ [.processFrame (callAt 1066666000)] ++
        [.processFrame (callAt 1066666001)])).Pairwise (· ≤ ·) ∧
      Transition.Allowed (Server.step .grayRow) (fun u _ => u.WaitsFor 0 false) s [.processFrame (callAt 1066666000)] ∧
      t.WaitsFor 0 false ∧ (callAt 1000000001).now + t.interval false = (callAt 1066666001).now ∧
      t.skips .grayRow (callAt 1066666001) 0 = true := by
  have hrun : ((Transition.run (Server.step .grayRow) (Server.start 30 false 1 1 ∅)
      (askAgain (-1) ++ [.processFrame (callAt 1000000001)])).map fun s =>
        (decide (Transition.Allowed (Server.step .grayRow) (fun u _ => u.WaitsFor 0 false) s
            [.processFrame (callAt 1066666000)]),
          (Transition.run (Server.step .grayRow) s [.processFrame (callAt 1066666000)]).map fun t =>
            (decide (t.WaitsFor 0 false), t.interval false, t.skips .grayRow (callAt 1066666001) 0))) =
      some (true, some (true, 66666000, true)) := by decide +kernel
  obtain ⟨s, hs, hstate⟩ := Option.map_eq_some_iff.mp hrun
  rw [Prod.mk.injEq, decide_eq_true_eq] at hstate
  obtain ⟨hwaits, hstate⟩ := hstate
  obtain ⟨t, ht, hstate⟩ := Option.map_eq_some_iff.mp hstate
  rw [Prod.mk.injEq, Prod.mk.injEq, decide_eq_true_eq] at hstate
  obtain ⟨hwaiting, hinterval, hskips⟩ := hstate
  exact ⟨s, t, hs, ht, by decide, hwaits, hwaiting, by rw [hinterval]; rfl, hskips⟩

end OnekvmVnc
