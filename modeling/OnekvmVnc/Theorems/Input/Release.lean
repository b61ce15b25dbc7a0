import OnekvmVnc.Theorems.Input.Requests

/-! What `Release` leaves on the target. It waits for every pointer report, then posts a report for the
    buttons and one for the keys only where `InputState` has something recorded as held. So, when all
    its requests succeed, the target ends up with nothing held exactly when what `InputState` has
    recorded as let go was let go on the target too. -/

namespace OnekvmVnc

open Transition

/-- The HID request of the step, if it posts one, succeeds. -/
def InputAction.succeeds : InputAction → Bool
  | .resume accepted | .send accepted => accepted
  | _ => true

def EventThread.inRelease : EventThread → Bool
  | .releaseFlush _ | .releaseButtons | .releaseFlushAgain _ | .releaseKeys => true
  | _ => false

namespace InputThreads

def delivered (s : InputThreads) : List HIDRequest := (s.issued.filter (·.accepted)).map (·.request)

/-- The last keyboard report that the target accepted, if there is one, is empty. -/
def KeyboardClean (s : InputThreads) : Prop := ∀ modifiers keys,
  (s.delivered.filter HIDRequest.isKeyboard).getLast? = some (.keyboard modifiers keys) → modifiers = 0 ∧ keys = []

/-- The last absolute report that the target accepted, if there is one, has no buttons. -/
def PointerClean (s : InputThreads) : Prop := ∀ buttons x y,
  (s.delivered.filter HIDRequest.isAbsolute).getLast? = some (.absoluteMouse buttons x y) → buttons = 0

def unsent (s : InputThreads) : List PointerReport :=
  (match s.loop with
    | .sendAbsolute r => [r]
    | _ => []) ++ s.queued

variable {s t : InputThreads}

/-! ### What succeeding steps deliver -/

theorem step_issued {a : InputAction} (ha : s.step a = some t) :
    ∃ more, t.issued = s.issued ++ more ∧ (a.succeeds = true → ∀ i ∈ more, i.accepted = true) := by
  cases a with
  | call c =>
    simp only [InputThreads.step, Option.ite_none_right_eq_some] at ha
    refine ⟨[], ?_, by simp⟩
    cases c <;> cases ha.2 <;> simp
  | resume accepted =>
    unfold InputThreads.step InputThreads.resume at ha
    cases hev : s.event with
    | idle => simp [hev] at ha
    | keyFlush down key generation =>
      simp only [hev, Option.ite_none_right_eq_some, Option.some.injEq] at ha
      obtain ⟨-, rfl⟩ := ha
      exact ⟨[], by simp, by simp⟩
    | keySend request =>
      simp only [hev, Option.some.injEq] at ha
      subst ha
      exact ⟨[{ request, accepted }], rfl, fun hok i hi => by simpa [InputAction.succeeds, List.mem_singleton.mp hi] using hok⟩
    | releaseKeys =>
      simp only [hev, Option.some.injEq] at ha
      subst ha
      cases hreq : s.input.releaseKeys.2 with
      | none => exact ⟨[], by simp [post?], by simp⟩
      | some request =>
        exact ⟨[{ request, accepted }], by simp [post?, post],
          fun hok i hi => by simpa [InputAction.succeeds, List.mem_singleton.mp hi] using hok⟩
    | releaseButtons =>
      simp only [hev, Option.some.injEq] at ha
      subst ha
      exact ⟨[], by simp, by simp⟩
    | releaseFlush generation | releaseFlushAgain generation =>
      simp only [hev, Option.ite_none_right_eq_some, Option.some.injEq] at ha
      obtain ⟨-, rfl⟩ := ha
      exact ⟨[], by simp, by simp⟩
  | take now =>
    refine ⟨[], ?_, by simp⟩
    simp only [InputThreads.step, InputThreads.take] at ha
    split at ha
    · cases ha
    · split at ha
      · cases ha
        simp
      · simp only [Option.ite_none_right_eq_some, Option.some.injEq] at ha
        obtain ⟨-, rfl⟩ := ha
        simp
  | send accepted =>
    simp only [InputThreads.step, InputThreads.send] at ha
    split at ha
    · cases ha
      exact ⟨_, rfl, fun hok i hi => by simpa [InputAction.succeeds, List.mem_singleton.mp hi] using hok⟩
    · cases ha
      exact ⟨_, rfl, fun hok i hi => by simpa [InputAction.succeeds, List.mem_singleton.mp hi] using hok⟩
    · cases ha
  | complete =>
    refine ⟨[], ?_, by simp⟩
    simp only [InputThreads.step, InputThreads.complete] at ha
    split at ha
    · cases ha
      simp
    · cases ha

/-- A succeeding step inside a call delivers the first outstanding request or none. -/
theorem step_delivers (h : Ordered s) {a : InputAction} (hi : a.internal = true) (hok : a.succeeds = true)
    (ha : s.step a = some t) : t.delivered ++ t.outstanding = s.delivered ++ s.outstanding := by
  obtain ⟨more, hissued, haccepted⟩ := step_issued ha
  have hconserves := step_conserves h hi ha
  rw [requests, requests, hissued, List.map_append, List.append_assoc, List.append_cancel_left_eq] at hconserves
  rw [delivered, delivered, hissued, List.filter_append, List.filter_eq_self.mpr (haccepted hok), List.map_append,
    List.append_assoc, hconserves]

/-- Inside a call, succeeding steps deliver what is outstanding and nothing else. -/
theorem run_delivers (h : Ordered s) {acts : List InputAction} (hi : ∀ a ∈ acts, a.internal = true)
    (hok : ∀ a ∈ acts, a.succeeds = true) (hrun : run step s acts = some t) :
    t.delivered ++ t.outstanding = s.delivered ++ s.outstanding :=
  (run_invariant_of_mem (P := fun u => Ordered u ∧ u.delivered ++ u.outstanding = s.delivered ++ s.outstanding) ⟨h, rfl⟩
    (fun _ _ a hmem hu ha => ⟨hu.1.step ha, (step_delivers hu.1 (hi a hmem) (hok a hmem) ha).trans hu.2⟩) hrun).2

/-! ### `Release` returns with no report left -/

/-- The event thread is inside `Release`, or has returned from it with no report left. -/
def Releasing (s : InputThreads) : Prop := s.event.inRelease = true ∨ (s.event = .idle ∧ s.reports = [])

theorem step_releasing (h : Ordered s) (hrel : Releasing s) {a : InputAction} (hi : a.internal = true)
    (ha : s.step a = some t) : Releasing t := by
  rcases hrel with hrel | ⟨hidle, hnil⟩
  · cases a with
    | call c => cases hi
    | resume accepted =>
      simp only [InputThreads.step, InputThreads.resume] at ha
      cases hev : s.event with
      | releaseFlush generation | releaseFlushAgain generation =>
        simp only [hev, Option.ite_none_right_eq_some, Option.some.injEq] at ha
        obtain ⟨-, rfl⟩ := ha
        exact .inl rfl
      | releaseButtons =>
        simp only [hev, Option.some.injEq] at ha
        subst ha
        refine .inl ?_
        dsimp only
        split <;> rfl
      | releaseKeys =>
        have hnil := h.flushed (by rw [hev]; rfl)
        simp only [hev, Option.some.injEq] at ha
        subst ha
        refine .inr ⟨rfl, ?_⟩
        obtain ⟨hloop, hurgent, hpending⟩ := reports_eq_nil hnil
        cases hreq : s.input.releaseKeys.2 <;>
          simp [reports, queued, InputState.releaseKeys, post?, post, hloop, hurgent, hpending, PointerThread.inFlight]
      | _ => simp [hev, EventThread.inRelease] at hrel
    | take now | send accepted | complete =>
      obtain ⟨hevent, -⟩ := pointerThread_eq rfl ha
      exact .inl (hevent ▸ hrel)
  · -- Nothing is left to do for either thread.
    obtain ⟨hloop, hurgent, hpending⟩ := reports_eq_nil hnil
    cases a with
    | call c => cases hi
    | resume accepted => simp [InputThreads.step, InputThreads.resume, hidle] at ha
    | take now => simp [InputThreads.step, InputThreads.take, hurgent, hpending] at ha
    | send accepted => simp [InputThreads.step, InputThreads.send, hloop] at ha
    | complete => simp [InputThreads.step, InputThreads.complete, hloop] at ha

/-- Once `Release` has returned, and all its requests succeeded, the target has accepted every request
    that was outstanding. -/
theorem release_delivered (h : Ordered s) {acts : List InputAction} (hi : ∀ a ∈ acts, a.internal = true)
    (hok : ∀ a ∈ acts, a.succeeds = true) (hrun : run step s (.call .release :: acts) = some t)
    (hreturned : t.event = .idle) :
    t.delivered = s.delivered ++ (s.pointerOutstanding ++ (s.input.buttonRequests ++ s.input.releaseKeys.2.toList)) := by
  obtain ⟨u, hcall, hrun⟩ := run_cons_eq_some.mp hrun
  have hu := h.step hcall
  simp only [InputThreads.step, InputThreads.call, Option.ite_none_right_eq_some, Option.some.injEq] at hcall
  obtain ⟨-, rfl⟩ := hcall
  have ht := run_invariant_of_mem (P := fun u => Ordered u ∧ Releasing u) ⟨hu, .inl rfl⟩
    (fun _ _ a hmem hu ha => ⟨hu.1.step ha, step_releasing hu.1 hu.2 (hi a hmem) ha⟩) hrun
  have hnil : t.reports = [] := by
    rcases ht.2 with hin | ⟨-, hnil⟩
    · simp [hreturned, EventThread.inRelease] at hin
    · exact hnil
  have hdelivers := run_delivers hu hi hok hrun
  have hleft : t.outstanding = [] := by
    rw [outstanding, pointerOutstanding_eq_nil hnil, hreturned]
    rfl
  rw [hleft, List.append_nil] at hdelivers
  exact hdelivers

/-! ### What the target is left with -/

/-- The absolute reports that are outstanding, and no keyboard report, come from the pointer thread. -/
theorem filter_wheelRequests {p : HIDRequest → Bool} (hp : ∀ buttons wheel, p (.mouse buttons wheel) = false)
    (buttons : UInt16) (wheel : Int) : (wheelRequests buttons wheel).filter p = [] := by
  induction wheel using wheelRequests.induct with
  | case1 => rw [wheelRequests_zero, List.filter_nil]
  | case2 wheel hw ih => rw [wheelRequests, if_neg hw, List.filter_cons, hp, if_neg Bool.false_ne_true, ih]

theorem filter_reports {p : HIDRequest → Bool} (hp : ∀ buttons wheel, p (.mouse buttons wheel) = false)
    (rs : List PointerReport) : (rs.flatMap PointerReport.requests).filter p =
      (rs.map fun r => HIDRequest.absoluteMouse r.buttons r.x r.y).filter p := by
  induction rs with
  | nil => rfl
  | cons r rs ih =>
    simp [PointerReport.requests, List.filter_cons, filter_wheelRequests hp, ih]

/-- Of the outstanding pointer requests, all but the wheel are the absolute ones of the unsent reports. -/
theorem filter_pointerOutstanding {p : HIDRequest → Bool} (hp : ∀ buttons wheel, p (.mouse buttons wheel) = false) :
    s.pointerOutstanding.filter p =
      (s.unsent.map fun r => HIDRequest.absoluteMouse r.buttons r.x r.y).filter p := by
  rw [pointerOutstanding, unsent, List.filter_append, List.map_append, List.filter_append, filter_reports hp]
  congr 1
  cases s.loop with
  | sendAbsolute r =>
    simp [PointerThread.outstanding, PointerReport.requests, List.filter_cons, filter_wheelRequests hp]
  | sendWheel r wheel => simp [PointerThread.outstanding, filter_wheelRequests hp]
  | _ => rfl

/-- The last unsent report carries the buttons that `InputState` has recorded. -/
theorem unsent_getLast? (h : Ordered s) {r : PointerReport} (hr : s.unsent.getLast? = some r) :
    r.buttons = s.input.pointerButtons := by
  refine (h.current r ?_).1
  obtain ⟨rs, hrs⟩ := List.getLast?_eq_some_iff.mp hr
  have hsuffix : ∃ done, s.reports = done ++ s.unsent := by
    rw [reports, unsent]
    cases hloop : s.loop with
    | sendAbsolute r => exact ⟨[], by simp [PointerThread.inFlight]⟩
    | _ => exact ⟨_, rfl⟩
  obtain ⟨done, hdone⟩ := hsuffix
  rw [hdone, hrs, ← List.append_assoc, List.getLast?_concat]

/-- The keyboard is clean unless nothing was recorded as held and it was not clean before. -/
theorem release_keyboardClean (hd : t.delivered =
      s.delivered ++ (s.pointerOutstanding ++ (s.input.buttonRequests ++ s.input.releaseKeys.2.toList))) :
    t.KeyboardClean ↔ (s.input.modifiers = 0 ∧ s.input.keys = [] → s.KeyboardClean) := by
  have hpointer : s.pointerOutstanding.filter HIDRequest.isKeyboard = [] := by
    rw [filter_pointerOutstanding fun _ _ => rfl, List.filter_eq_nil_iff]
    intro r hr
    obtain ⟨_, -, rfl⟩ := List.mem_map.mp hr
    simp [HIDRequest.isKeyboard]
  have hbuttons : s.input.buttonRequests.filter HIDRequest.isKeyboard = [] := by
    unfold InputState.buttonRequests
    split <;> rfl
  have hfilter : t.delivered.filter HIDRequest.isKeyboard =
      s.delivered.filter HIDRequest.isKeyboard ++ s.input.releaseKeys.2.toList.filter HIDRequest.isKeyboard := by
    rw [hd, List.filter_append, List.filter_append, List.filter_append, hpointer, hbuttons]
    simp
  by_cases hheld : s.input.modifiers ≠ 0 ∨ s.input.keys ≠ []
  · -- The empty report is posted.
    have hlast : (t.delivered.filter HIDRequest.isKeyboard).getLast? = some (.keyboard 0 []) := by
      rw [hfilter, InputState.releaseKeys, if_pos hheld]
      exact List.getLast?_concat
    refine ⟨?_, ?_⟩
    · intro _ hnone
      rcases hheld with hm | hk
      · exact absurd hnone.1 hm
      · exact absurd hnone.2 hk
    · intro _ modifiers keys hk
      rw [hlast] at hk
      cases hk
      exact ⟨rfl, rfl⟩
  · -- Nothing is posted.
    have hsame : t.delivered.filter HIDRequest.isKeyboard = s.delivered.filter HIDRequest.isKeyboard := by
      rw [hfilter, InputState.releaseKeys, if_neg hheld]
      simp
    have hnone : s.input.modifiers = 0 ∧ s.input.keys = [] := by simpa [not_or] using hheld
    unfold KeyboardClean
    rw [hsame]
    exact ⟨fun hc _ => hc, fun hc => hc hnone⟩

/-- The pointer is clean unless the buttons were recorded as up, nothing was left to say so and it was
    not clean before. -/
theorem release_pointerClean (h : Ordered s) (hd : t.delivered =
      s.delivered ++ (s.pointerOutstanding ++ (s.input.buttonRequests ++ s.input.releaseKeys.2.toList))) :
    t.PointerClean ↔ (s.input.pointerButtons = 0 ∧ s.unsent = [] → s.PointerClean) := by
  have hkeys : s.input.releaseKeys.2.toList.filter HIDRequest.isAbsolute = [] := by
    unfold InputState.releaseKeys
    dsimp only
    split <;> rfl
  have hfilter : t.delivered.filter HIDRequest.isAbsolute = s.delivered.filter HIDRequest.isAbsolute ++
      ((s.unsent.map fun r => HIDRequest.absoluteMouse r.buttons r.x r.y) ++ s.input.buttonRequests) := by
    rw [hd, List.filter_append, List.filter_append, List.filter_append, hkeys,
      filter_pointerOutstanding fun _ _ => rfl, List.append_nil]
    congr 2
    · exact List.filter_eq_self.mpr fun r hr => by
        obtain ⟨_, -, rfl⟩ := List.mem_map.mp hr
        rfl
    · unfold InputState.buttonRequests
      split <;> rfl
  by_cases hb : s.input.pointerButtons = 0
  · rw [InputState.buttonRequests, if_neg (not_not.mpr hb), List.append_nil] at hfilter
    rcases hu : s.unsent.getLast? with _ | r
    · -- Nothing is posted.
      have hnil : s.unsent = [] := List.getLast?_eq_none_iff.mp hu
      rw [hnil, List.map_nil, List.append_nil] at hfilter
      unfold PointerClean
      rw [hfilter]
      exact ⟨fun hc _ => hc, fun hc => hc ⟨hb, hnil⟩⟩
    · -- The last unsent report has no buttons.
      obtain ⟨rs, hrs⟩ := List.getLast?_eq_some_iff.mp hu
      refine ⟨?_, ?_⟩
      · intro _ hnone
        rw [hnone.2] at hu
        cases hu
      · intro _ buttons x y hk
        rw [hfilter, hrs, List.map_append, ← List.append_assoc, List.map_singleton, List.getLast?_concat] at hk
        cases hk
        exact (unsent_getLast? h hu).trans hb
  · have hlast : (t.delivered.filter HIDRequest.isAbsolute).getLast? =
        some (.absoluteMouse 0 s.input.pointerX s.input.pointerY) := by
      rw [hfilter, InputState.buttonRequests, if_pos hb, ← List.append_assoc]
      exact List.getLast?_concat
    refine ⟨fun _ hnone => absurd hnone.1 hb, ?_⟩
    intro _ buttons x y hk
    rw [hlast] at hk
    cases hk
    rfl

end InputThreads

/-! ### Release -/

open InputThreads

/-- After a `Release` whose requests all succeed, the target holds nothing exactly when `Release` found
    something to let go, or had let go of it before: of the keys, unless `modifiers_` and `keys_` are
    empty; of the buttons, unless `pointer_buttons_` is 0 and no report of it is left to be sent. -/
theorem release_clean_iff {width height : UInt16} {nextFlush : Int} {events acts : List InputAction} {s t : InputThreads}
    (hevents : run InputThreads.step (InputThreads.start width height nextFlush) events = some s)
    (hinternal : ∀ a ∈ acts, a.internal = true) (hsucceeds : ∀ a ∈ acts, a.succeeds = true)
    (hrelease : run InputThreads.step s (.call .release :: acts) = some t) (hreturned : t.event = .idle) :
    t.KeyboardClean ∧ t.PointerClean ↔
      (s.input.modifiers = 0 ∧ s.input.keys = [] → s.KeyboardClean) ∧
      (s.input.pointerButtons = 0 ∧ s.unsent = [] → s.PointerClean) := by
  have h : Ordered s := (Ordered.start width height nextFlush).run hevents
  have hd := release_delivered h hinternal hsucceeds hrelease hreturned
  exact and_congr (release_keyboardClean hd) (release_pointerClean h hd)

/-- A key that went down and came up is let go. -/
theorem release_clean_iff_key : ∃ s t,
    run InputThreads.step (InputThreads.start 100 100 0)
      [.call (.key true 0x61), .resume true, .resume true, .call (.key false 0x61), .resume true, .resume true] = some s ∧
    run InputThreads.step s [.call .release, .resume true, .resume true, .resume true] = some t ∧
    (t.KeyboardClean ∧ t.PointerClean ↔
      (s.input.modifiers = 0 ∧ s.input.keys = [] → s.KeyboardClean) ∧
      (s.input.pointerButtons = 0 ∧ s.unsent = [] → s.PointerClean)) := by
  obtain ⟨s, t, hevents, hrelease, hreturned⟩ : ∃ s t, run InputThreads.step (InputThreads.start 100 100 0)
      [.call (.key true 0x61), .resume true, .resume true, .call (.key false 0x61), .resume true, .resume true] = some s ∧
    run InputThreads.step s [.call .release, .resume true, .resume true, .resume true] = some t ∧
    t.event = .idle := ⟨_, _, rfl, rfl, rfl⟩
  exact ⟨s, t, hevents, hrelease, release_clean_iff hevents (by decide) (by decide) hrelease hreturned⟩

/-- A key goes down and its report arrives; it comes up and its report is lost; `Release` finds nothing
    to let go, and the target keeps the key. -/
theorem release_keeps_lost_key_up : ∃ s t,
    run InputThreads.step (InputThreads.start 100 100 0)
      [.call (.key true 0x61), .resume true, .resume true, .call (.key false 0x61), .resume true, .resume false] = some s ∧
    run InputThreads.step s [.call .release, .resume true, .resume true, .resume true] = some t ∧
    t.event = .idle ∧ ¬(t.KeyboardClean ∧ t.PointerClean) := by
  refine ⟨_, _, rfl, rfl, rfl, ?_⟩
  intro h
  exact absurd (h.1 0 [0x04] (by decide +kernel)).2 (by decide)

end OnekvmVnc
