import Mathlib.Algebra.GroupWithZero.Nat
import OnekvmVnc.Theorems.Input.Requests

/-! `FlushPointer(true)` and the counter it waits for. Each report that is made is completed,
    superseded by a newer one, or still outstanding; the outstanding ones end in the newest generation, and
    the pointer thread alone can always go on until none is left. So the wait ends, and when it does
    every report that was not superseded has been posted. -/

namespace OnekvmVnc

open Transition

namespace InputThreads
variable {s t : InputThreads}

/-! ### What a step does to the reports -/

/-- The report that a step makes: of a pointer event, or of `Release` for the buttons still down. -/
def makes (s : InputThreads) : InputAction → Option PointerReport
  | .call (.pointer buttonMask x y) => some (s.input.report buttonMask x y)
  | .resume _ =>
    if s.event = .releaseButtons ∧ s.input.pointerButtons ≠ 0 then
      some { buttons := 0, x := s.input.pointerX, y := s.input.pointerY, wheel := 0,
             generation := s.input.pointerGeneration + 1 }
    else none
  | _ => none

/-- The movement that a step supersedes: one still in the coalescing slot when another report is made. -/
def supersedes (s : InputThreads) (a : InputAction) : Option PointerReport :=
  if (s.makes a).isSome && s.input.pointerPending then some s.input.motion else none

/-- The report that a step completes. -/
def completes (s : InputThreads) : InputAction → Option PointerReport
  | .complete => s.loop.inFlight.head?
  | _ => none

/-- The reports made along a run, the movements superseded and the reports completed. -/
def made (s : InputThreads) (acts : List InputAction) : List PointerReport :=
  collect step (fun u a => (u.makes a).toList) s acts

def superseded (s : InputThreads) (acts : List InputAction) : List PointerReport :=
  collect step (fun u a => (u.supersedes a).toList) s acts

def completed (s : InputThreads) (acts : List InputAction) : List PointerReport :=
  collect step (fun u a => (u.completes a).toList) s acts

/-- A new report goes behind the urgent ones, in the place of a movement still in the coalescing slot. -/
theorem reports_of_makes {a : InputAction} {r : PointerReport} {input : InputState} {event : EventThread}
    (hmakes : s.makes a = some r)
    (hq : ({ s with input } : InputThreads).queued = s.input.pointerUrgent ++ [r]) :
    s.reports = s.loop.inFlight ++ s.input.pointerUrgent ++ (s.supersedes a).toList ∧
      ({ s with input, event } : InputThreads).reports = s.loop.inFlight ++ s.input.pointerUrgent ++ [r] := by
  constructor
  · cases hp : s.input.pointerPending <;> simp [reports, queued, supersedes, hmakes, hp]
  · change s.loop.inFlight ++ ({ s with input } : InputThreads).queued = _
    rw [hq, List.append_assoc]

/-- What a step makes goes to the end of the reports, what it completes leaves from the front, and what
    it supersedes from the end. -/
structure ReportStep (s : InputThreads) (a : InputAction) (t : InputThreads) : Prop where
  reports : ∃ kept, s.reports = (s.completes a).toList ++ kept ++ (s.supersedes a).toList ∧
    t.reports = kept ++ (s.makes a).toList
  completed : t.input.pointerCompletedGeneration =
    (s.completes a).elim s.input.pointerCompletedGeneration fun r =>
      max s.input.pointerCompletedGeneration r.generation

/-- A step that makes and completes nothing leaves the reports alone. -/
theorem reports_of_quiet {a : InputAction} (hcompletes : s.completes a = none) (hmakes : s.makes a = none)
    (h : t.reports = s.reports) (hcompleted : t.input.pointerCompletedGeneration = s.input.pointerCompletedGeneration) :
    ReportStep s a t where
  reports := ⟨s.reports, by simp [hcompletes, supersedes, hmakes], by simp [hmakes, h]⟩
  completed := by rw [hcompleted, hcompletes]; rfl

theorem step_reports {a : InputAction} (ha : s.step a = some t) : ReportStep s a t := by
  cases a with
  | call c =>
    simp only [step, Option.ite_none_right_eq_some] at ha
    have hc := ha.2
    cases c with
    | pointer buttonMask x y =>
      cases hc
      obtain ⟨hs, ht⟩ := @reports_of_makes s (.call (.pointer buttonMask x y)) _ _ s.event rfl
        (queued_pointer buttonMask x y)
      obtain ⟨pending, queue, heq⟩ := s.input.pointer_eq buttonMask x y
      exact ⟨⟨_, hs, ht⟩, by simp only [heq]; rfl⟩
    | _ =>
      cases hc
      exact reports_of_quiet rfl rfl rfl rfl
  | resume accepted =>
    simp only [step] at ha
    unfold resume at ha
    cases hev : s.event with
    | idle => simp [hev] at ha
    | keyFlush down key generation =>
      simp only [hev, Option.ite_none_right_eq_some, Option.some.injEq] at ha
      obtain ⟨-, rfl⟩ := ha
      obtain ⟨modifiers, keys, hkey⟩ := InputState.key_fst (s := s.input) down key
      exact reports_of_quiet rfl (by simp [makes, hev]) (by rw [hkey]; rfl) (by rw [hkey])
    | releaseButtons =>
      simp only [hev, Option.some.injEq] at ha
      subst ha
      by_cases hb : s.input.pointerButtons ≠ 0
      · have hmakes : s.makes (.resume accepted) = some
            { buttons := 0, x := s.input.pointerX, y := s.input.pointerY, wheel := 0,
              generation := s.input.pointerGeneration + 1 } := by
          simp only [makes, hev]
          exact if_pos ⟨trivial, hb⟩
        obtain ⟨hs, ht⟩ := reports_of_makes hmakes (queued_releaseButtons hb)
        exact ⟨⟨_, hs, hmakes ▸ ht⟩, by simp [completes, InputState.releaseButtons, hb]⟩
      · refine reports_of_quiet rfl (by simp [makes, hb]) ?_ (by simp [InputState.releaseButtons, hb])
        simp [hb, InputState.releaseButtons, reports, queued, InputState.motion]
    | releaseKeys =>
      simp only [hev, Option.some.injEq] at ha
      subst ha
      refine reports_of_quiet rfl (by simp [makes, hev]) ?_ ?_
      · unfold post?
        split <;> rfl
      · rfl
    | keySend request =>
      simp only [hev, Option.some.injEq] at ha
      subst ha
      exact reports_of_quiet rfl (by simp [makes, hev]) rfl rfl
    | releaseFlush generation | releaseFlushAgain generation =>
      simp only [hev, Option.ite_none_right_eq_some, Option.some.injEq] at ha
      obtain ⟨-, rfl⟩ := ha
      exact reports_of_quiet rfl (by simp [makes, hev]) rfl rfl
  | take now =>
    simp only [step] at ha
    unfold take at ha
    split at ha
    · cases ha
    · rename_i htop
      simp only [Bool.or_eq_true, decide_eq_true_eq, not_or, not_not] at htop
      split at ha
      · rename_i r rest hurgent
        cases ha
        refine reports_of_quiet rfl rfl ?_ rfl
        simp [reports, queued, htop.2, hurgent, PointerThread.inFlight, InputState.motion]
      · rename_i hurgent
        simp only [Bool.and_eq_true, decide_eq_true_eq, Option.ite_none_right_eq_some, Option.some.injEq] at ha
        obtain ⟨⟨hp, -⟩, rfl⟩ := ha
        refine reports_of_quiet rfl rfl ?_ rfl
        simp [reports, queued, htop.2, hurgent, hp, PointerThread.inFlight]
  | send accepted =>
    simp only [step] at ha
    unfold send at ha
    split at ha
    · rename_i r hloop
      cases ha
      refine reports_of_quiet rfl rfl ?_ rfl
      change (afterSend r r.wheel).inFlight ++ s.queued = s.loop.inFlight ++ s.queued
      rw [Ordered.afterSend_inFlight, hloop]
      rfl
    · rename_i r w hloop
      cases ha
      refine reports_of_quiet rfl rfl ?_ rfl
      change (afterSend r _).inFlight ++ s.queued = s.loop.inFlight ++ s.queued
      rw [Ordered.afterSend_inFlight, hloop]
      rfl
    · cases ha
  | complete =>
    simp only [step] at ha
    unfold complete at ha
    split at ha
    · rename_i r hloop
      cases ha
      refine ⟨⟨s.queued, ?_, ?_⟩, ?_⟩
      · simp [completes, supersedes, makes, reports, hloop, PointerThread.inFlight]
      · simp [makes, reports, queued, PointerThread.inFlight, InputState.motion]
      · simp [completes, hloop, PointerThread.inFlight]
    · cases ha

/-! ### Posting the reports -/

/-- `begun` is what `SendPointer` has posted of the report in flight. -/
def Begun (s : InputThreads) (begun : List HIDRequest) : Prop :=
  begun ++ s.loop.outstanding = s.loop.inFlight.flatMap PointerReport.requests

/-- Outside `SendPointer` a step only adds requests behind those posted, and leaves the report in flight. -/
theorem begun_of_quiet {a : InputAction} {sent begun : List HIDRequest} {more : List HIDRequest}
    (hb : s.Begun begun) (hsub : (sent ++ begun).Sublist s.requests) (hcompletes : s.completes a = none)
    (hloop : t.loop = s.loop) (hmore : t.requests = s.requests ++ more) : ∃ begun',
    t.Begun begun' ∧ (sent ++ (s.completes a).toList.flatMap PointerReport.requests ++ begun').Sublist t.requests := by
  refine ⟨begun, by rw [Begun, hloop]; exact hb, ?_⟩
  simp only [hcompletes, Option.toList, List.flatMap_nil, List.append_nil, hmore]
  exact hsub.trans (List.sublist_append_left _ _)

theorem begun_of_send {sent begun rest : List HIDRequest} {request : HIDRequest} {accepted : Bool}
    {loop : PointerThread} (hb : s.Begun begun) (hsub : (sent ++ begun).Sublist s.requests)
    (hs : s.loop.outstanding = request :: rest) (ht : loop.outstanding = rest) (hin : loop.inFlight = s.loop.inFlight) :
    ∃ begun', ({ s.post request accepted with loop } : InputThreads).Begun begun' ∧
      (sent ++ [] ++ begun').Sublist ({ s.post request accepted with loop } : InputThreads).requests := by
  refine ⟨begun ++ [request], ?_, ?_⟩
  · rw [Begun, hs] at hb
    change (begun ++ [request]) ++ loop.outstanding = loop.inFlight.flatMap PointerReport.requests
    rw [ht, hin, ← hb, List.append_assoc]
    rfl
  · have hposted : ({ s.post request accepted with loop } : InputThreads).requests = s.requests ++ [request] :=
      requests_post request accepted
    rw [hposted, List.append_nil, ← List.append_assoc]
    exact hsub.append_right _

/-- The requests of the completed reports are posted in the order of completion, and then those begun. -/
theorem step_begun (h : Ordered s) {a : InputAction} (ha : s.step a = some t) {sent begun : List HIDRequest}
    (hb : s.Begun begun) (hsub : (sent ++ begun).Sublist s.requests) : ∃ begun',
    t.Begun begun' ∧ (sent ++ (s.completes a).toList.flatMap PointerReport.requests ++ begun').Sublist t.requests := by
  cases a with
  | call c =>
    simp only [step, Option.ite_none_right_eq_some] at ha
    have hc := ha.2
    cases c <;> cases hc <;> exact begun_of_quiet hb hsub rfl rfl (List.append_nil _).symm
  | resume accepted =>
    simp only [step] at ha
    unfold resume at ha
    cases hev : s.event with
    | idle => simp [hev] at ha
    | keySend request =>
      simp only [hev, Option.some.injEq] at ha
      subst ha
      exact begun_of_quiet hb hsub rfl rfl (requests_post request accepted)
    | releaseButtons =>
      simp only [hev, Option.some.injEq] at ha
      subst ha
      exact begun_of_quiet hb hsub rfl rfl (List.append_nil _).symm
    | releaseKeys =>
      simp only [hev, Option.some.injEq] at ha
      subst ha
      cases hr : s.input.releaseKeys.2 with
      | none => exact begun_of_quiet hb hsub rfl rfl (List.append_nil _).symm
      | some request => exact begun_of_quiet hb hsub rfl rfl (requests_post request accepted)
    | keyFlush down key generation | releaseFlush generation | releaseFlushAgain generation =>
      simp only [hev, Option.ite_none_right_eq_some, Option.some.injEq] at ha
      obtain ⟨-, rfl⟩ := ha
      exact begun_of_quiet hb hsub rfl rfl (List.append_nil _).symm
  | take now =>
    simp only [step] at ha
    unfold take at ha
    split at ha
    · cases ha
    · rename_i htop
      simp only [Bool.or_eq_true, decide_eq_true_eq, not_or, not_not] at htop
      -- Nothing was in flight, so nothing is begun of the report taken.
      have hnil : begun = [] := by simpa [Begun, htop.2, PointerThread.outstanding, PointerThread.inFlight] using hb
      rw [hnil] at hsub
      split at ha
      · cases ha
        exact ⟨[], by simp [Begun, PointerThread.outstanding, PointerThread.inFlight], by rw [List.append_nil]; exact hsub⟩
      · simp only [Option.ite_none_right_eq_some, Option.some.injEq] at ha
        obtain ⟨-, rfl⟩ := ha
        exact ⟨[], by simp [Begun, PointerThread.outstanding, PointerThread.inFlight], by rw [List.append_nil]; exact hsub⟩
  | send accepted =>
    simp only [step] at ha
    unfold send at ha
    split at ha
    · rename_i r hloop
      cases ha
      exact begun_of_send hb hsub (by rw [hloop]; rfl) (afterSend_outstanding r r.wheel)
        (by rw [Ordered.afterSend_inFlight, hloop]; rfl)
    · rename_i r w hloop
      cases ha
      refine begun_of_send hb hsub ?_ (afterSend_outstanding r _) (by rw [Ordered.afterSend_inFlight, hloop]; rfl)
      rw [hloop, PointerThread.outstanding, wheelRequests, if_neg (h.wheel r w hloop)]
    · cases ha
  | complete =>
    simp only [step] at ha
    unfold complete at ha
    split at ha
    · rename_i r hloop
      cases ha
      -- Everything of the report has been posted.
      have hall : begun = r.requests := by simpa [Begun, hloop, PointerThread.outstanding, PointerThread.inFlight] using hb
      refine ⟨[], by simp [Begun, PointerThread.outstanding, PointerThread.inFlight], ?_⟩
      have heq : sent ++ (s.completes .complete).toList.flatMap PointerReport.requests ++ [] = sent ++ begun := by
        simp [completes, hloop, PointerThread.inFlight, hall]
      rw [heq]
      exact hsub
    · cases ha

end InputThreads

/-! ### What has become of the reports made so far -/

/-- Every report made is completed, superseded or still outstanding, and what is completed was posted. -/
structure Accounted (made superseded completed : List PointerReport) (s : InputThreads) : Prop where
  order : Ordered s
  all : ∀ r ∈ made, r ∈ completed ∨ r ∈ superseded ∨ r ∈ s.reports
  increasing : (completed.map (·.generation)).Pairwise (· < ·)
  counted : ∀ r ∈ completed, r.generation ≤ s.input.pointerCompletedGeneration
  posted : ∃ begun, s.Begun begun ∧ (completed.flatMap PointerReport.requests ++ begun).Sublist s.requests

namespace Accounted
open InputThreads
variable {made superseded completed : List PointerReport} {s t : InputThreads}

theorem start (width height : UInt16) (nextFlush : Int) :
    Accounted [] [] [] (InputThreads.start width height nextFlush) where
  order := .start width height nextFlush
  all := fun r hr => by cases hr
  increasing := .nil
  counted := fun r hr => by cases hr
  posted := ⟨[], rfl, .slnil⟩

/-- A completed report is the oldest one, so its generation is above the completed one. -/
theorem lt_of_completes (h : Ordered s) {a : InputAction} (ha : s.step a = some t) {r : PointerReport}
    (hr : s.completes a = some r) : s.input.pointerCompletedGeneration < r.generation := by
  obtain ⟨kept, hs, -⟩ := (step_reports ha).reports
  have hinc := h.increasing
  rw [generations, hs, hr, List.pairwise_cons] at hinc
  exact hinc.1 _ (by simp)

theorem step (h : Accounted made superseded completed s) {a : InputAction} (ha : s.step a = some t) :
    Accounted (made ++ (s.makes a).toList) (superseded ++ (s.supersedes a).toList)
      (completed ++ (s.completes a).toList) t := by
  obtain ⟨kept, hs, ht⟩ := (step_reports ha).reports
  have hcompleted := (step_reports ha).completed
  refine ⟨h.order.step ha, ?_, ?_, ?_, ?_⟩
  · intro r hr
    rw [ht]
    simp only [List.mem_append] at hr ⊢
    rcases hr with hr | hr
    · rcases h.all r hr with hc | hsup | hrep
      · exact .inl (.inl hc)
      · exact .inr (.inl (.inl hsup))
      · rw [hs, List.mem_append, List.mem_append] at hrep
        rcases hrep with (hc | hk) | hsup
        · exact .inl (.inr hc)
        · exact .inr (.inr (.inl hk))
        · exact .inr (.inl (.inr hsup))
    · exact .inr (.inr (.inr hr))
  · cases hc : s.completes a with
    | none => simpa [hc] using h.increasing
    | some r =>
      rw [List.map_append, List.pairwise_append]
      refine ⟨h.increasing, List.pairwise_singleton _ _, fun x hx y hy => ?_⟩
      obtain ⟨r', hr', rfl⟩ := List.mem_map.mp hx
      obtain rfl := List.mem_singleton.mp hy
      exact Nat.lt_of_le_of_lt (h.counted r' hr') (lt_of_completes h.order ha hc)
  · intro r hr
    rw [hcompleted]
    cases hc : s.completes a with
    | none =>
      rw [hc, Option.toList_none, List.append_nil] at hr
      exact h.counted r hr
    | some r' =>
      simp only [hc, Option.toList, List.mem_append, List.mem_singleton, Option.elim] at hr ⊢
      rcases hr with hr | rfl
      · exact Nat.le_trans (h.counted r hr) (Nat.le_max_left _ _)
      · exact Nat.le_max_right _ _
  · obtain ⟨begun, hb, hsub⟩ := h.posted
    rw [List.flatMap_append]
    exact step_begun h.order ha hb hsub

theorem run {width height : UInt16} {nextFlush : Int} {acts : List InputAction}
    (hrun : Transition.run InputThreads.step (InputThreads.start width height nextFlush) acts = some t) :
    Accounted ((InputThreads.start width height nextFlush).made acts)
      ((InputThreads.start width height nextFlush).superseded acts)
      ((InputThreads.start width height nextFlush).completed acts) t := by
  refine run_history (P := fun acts s => Accounted ((InputThreads.start width height nextFlush).made acts)
      ((InputThreads.start width height nextFlush).superseded acts)
      ((InputThreads.start width height nextFlush).completed acts) s)
    (start width height nextFlush) (fun pre u a v hu h ha => ?_) hrun
  unfold InputThreads.made InputThreads.superseded InputThreads.completed
  rw [collect_concat hu, collect_concat hu, collect_concat hu]
  exact h.step ha

end Accounted

/-! ### The pointer thread alone -/

/-- The steps that `PointerLoop` takes until the report in flight is completed. -/
def PointerThread.left : PointerThread → Nat
  | .top => 0
  | p => p.outstanding.length + 1

namespace InputThreads
variable {s t : InputThreads}

/-- The steps that `PointerLoop` takes until no report is left. -/
def work (s : InputThreads) : Nat := s.loop.left + (s.queued.map fun r => r.requests.length + 2).sum

theorem afterSend_left (r : PointerReport) (wheel : Int) :
    (afterSend r wheel).left = (wheelRequests r.buttons wheel).length + 1 := by
  rw [← afterSend_outstanding]
  unfold afterSend
  split <;> rfl

theorem work_of_queued (hq : t.queued = s.queued) (hl : t.loop.left + 1 = s.loop.left) : t.work + 1 = s.work := by
  simp only [work, hq]
  omega

/-- Each step of the pointer thread brings it one step nearer to the end. -/
theorem work_step (h : Ordered s) {a : InputAction} (hp : a.ofPointerThread = true) (ha : s.step a = some t) :
    t.work + 1 = s.work := by
  cases a with
  | call c => cases hp
  | resume accepted => cases hp
  | take now =>
    simp only [step] at ha
    unfold take at ha
    split at ha
    · cases ha
    · rename_i htop
      simp only [Bool.or_eq_true, decide_eq_true_eq, not_or, not_not] at htop
      split at ha
      · rename_i r rest hurgent
        cases ha
        simp only [work, queued, htop.2, hurgent, InputState.motion, PointerThread.left, PointerThread.outstanding,
          List.cons_append, List.map_cons, List.sum_cons]
        omega
      · rename_i hurgent
        simp only [Bool.and_eq_true, decide_eq_true_eq, Option.ite_none_right_eq_some, Option.some.injEq] at ha
        obtain ⟨⟨hpending, -⟩, rfl⟩ := ha
        simp [work, queued, htop.2, hurgent, hpending, PointerThread.left, PointerThread.outstanding]
  | send accepted =>
    simp only [step] at ha
    unfold send at ha
    split at ha
    · rename_i r hloop
      cases ha
      refine work_of_queued rfl ?_
      rw [hloop]
      exact congrArg (· + 1) (afterSend_left r r.wheel)
    · rename_i r w hloop
      cases ha
      refine work_of_queued rfl ?_
      have hs : s.loop.left = (wheelRequests r.buttons (w - clamp w (-127) 127)).length + 1 + 1 := by
        have hw : (wheelRequests r.buttons w).length = (wheelRequests r.buttons (w - clamp w (-127) 127)).length + 1 := by
          rw [wheelRequests, if_neg (h.wheel r w hloop), List.length_cons]
        rw [hloop, ← hw]
        rfl
      rw [hs]
      exact congrArg (· + 1) (afterSend_left r _)
    · cases ha
  | complete =>
    simp only [step] at ha
    unfold complete at ha
    split at ha
    · rename_i r hloop
      cases ha
      exact work_of_queued rfl (by rw [hloop]; rfl)
    · cases ha

theorem work_run (h : Ordered s) {acts : List InputAction} (hp : ∀ a ∈ acts, a.ofPointerThread = true)
    (hrun : run step s acts = some t) : t.work + acts.length = s.work := by
  induction acts generalizing s with
  | nil =>
    rw [run_nil, Option.some.injEq] at hrun
    rw [hrun]
    rfl
  | cons a acts ih =>
    obtain ⟨u, hu, hrun⟩ := run_cons_eq_some.mp hrun
    have hw := work_step h (hp a List.mem_cons_self) hu
    have ih := ih (h.step hu) (fun b hb => hp b (List.mem_cons_of_mem a hb)) hrun
    rw [List.length_cons]
    omega

/-- The pointer thread makes no report, so those outstanding leave in order. -/
theorem pointerThread_run {acts : List InputAction} (hp : ∀ a ∈ acts, a.ofPointerThread = true)
    (hrun : run step s acts = some t) :
    t.input.pointerStopping = s.input.pointerStopping ∧ t.input.pointerGeneration = s.input.pointerGeneration := by
  refine run_invariant_of_mem (P := fun u => u.input.pointerStopping = s.input.pointerStopping ∧
    u.input.pointerGeneration = s.input.pointerGeneration) ⟨rfl, rfl⟩ (fun u v a ha hu hv => ?_) hrun
  obtain ⟨-, urgent, pending, completed, hinput, -⟩ := pointerThread_eq (hp a ha) hv
  rw [hinput]
  exact hu

/-- While a report is left, the pointer thread can take a step, whatever the target answers. -/
theorem pointerThread_enabled (hns : s.input.pointerStopping = false) (hne : s.reports ≠ []) (accepted : Bool) :
    ∃ a, a.ofPointerThread = true ∧ (∀ b, a = .send b → b = accepted) ∧ (s.step a).isSome = true := by
  cases hloop : s.loop with
  | sendAbsolute r | sendWheel r wheel =>
    refine ⟨.send accepted, rfl, fun b hb => (InputAction.send.inj hb).symm, ?_⟩
    simp only [step, send, hloop, Option.isSome_some]
  | sent r =>
    refine ⟨.complete, rfl, ?_, ?_⟩
    · intro b hb
      cases hb
    · simp only [step, complete, hloop, Option.isSome_some]
  | top =>
    refine ⟨.take s.nextFlush, rfl, ?_, ?_⟩
    · intro b hb
      cases hb
    · cases hurgent : s.input.pointerUrgent with
      | cons r rest => simp [step, take, hns, hloop, hurgent]
      | nil =>
        have hp : s.input.pointerPending = true := by
          by_contra hp
          simp [reports, queued, hloop, hurgent, hp, PointerThread.inFlight] at hne
        simp [step, take, hns, hloop, hurgent, hp]

theorem reports_of_work (h : s.work = 0) : s.reports = [] := by
  obtain ⟨hleft, hsum⟩ := Nat.add_eq_zero_iff.mp h
  have hq : s.queued = [] := by
    rcases hq : s.queued with _ | ⟨r, rs⟩
    · rfl
    · simp [hq] at hsum
  have hloop : s.loop = .top := by
    cases hloop : s.loop with
    | top => rfl
    | _ => simp [hloop, PointerThread.left] at hleft
  rw [reports, hq, hloop]
  rfl

/-- So it can go on until none is left. -/
theorem drains (h : Ordered s) (hns : s.input.pointerStopping = false) (target : InputThreads → Bool) :
    ∃ acts t, (∀ a ∈ acts, a.ofPointerThread = true) ∧
      Allowed step (fun u a => ∀ accepted, a = .send accepted → accepted = target u) s acts ∧
      run step s acts = some t ∧ t.reports = [] := by
  induction hw : s.work generalizing s with
  | zero => exact ⟨[], s, by simp, allowed_nil, rfl, reports_of_work hw⟩
  | succ n ih =>
    by_cases hnil : s.reports = []
    · exact ⟨[], s, by simp, allowed_nil, rfl, hnil⟩
    · obtain ⟨a, hp, hout, hu⟩ := pointerThread_enabled hns hnil (target s)
      obtain ⟨u, hu⟩ := Option.isSome_iff_exists.mp hu
      have hn : u.work = n := by
        have := work_step h hp hu
        omega
      obtain ⟨-, urgent, pending, completed, hinput, -⟩ := pointerThread_eq hp hu
      obtain ⟨acts, t, hacts, hallowed, hrun, ht⟩ := ih (h.step hu) (by rw [hinput]; exact hns) hn
      refine ⟨a :: acts, t, ?_, allowed_cons.mpr ⟨fun b hb => ?_, fun v hv => ?_⟩, ?_, ht⟩
      · intro b hb
        rcases List.mem_cons.mp hb with rfl | hb
        · exact hp
        · exact hacts b hb
      · exact hout b hb
      · rw [hu, Option.some.injEq] at hv
        exact hv ▸ hallowed
      · exact run_cons_eq_some.mpr ⟨u, hu, hrun⟩

end InputThreads

/-! ### The wait of `FlushPointer(true)` -/

/-- What `FlushPointer(true)` can rely on while it waits. -/
structure Flushing (s : InputThreads) : Prop where
  /-- There is a report to wait for. -/
  outstanding : s.input.pointerCompletedGeneration < s.input.pointerGeneration →
    s.input.pointerPending = true ∨ s.input.pointerUrgent ≠ [] ∨ s.loop ≠ .top
  /-- The pointer thread can complete what is outstanding, whatever the target answers to each request. -/
  drains : ∀ target : InputThreads → Bool, ∃ acts t, (∀ a ∈ acts, a.ofPointerThread = true) ∧
    Allowed InputThreads.step (fun u a => ∀ accepted, a = .send accepted → accepted = target u) s acts ∧
    run InputThreads.step s acts = some t ∧ t.reports = []
  /-- It does so after a bounded number of its own steps. -/
  bounded : ∀ acts t, (∀ a ∈ acts, a.ofPointerThread = true) → run InputThreads.step s acts = some t →
    acts.length ≤ s.work
  /-- Once that is done, the wait is over. -/
  reached : ∀ acts t, (∀ a ∈ acts, a.ofPointerThread = true) → run InputThreads.step s acts = some t →
    t.reports = [] → s.input.pointerGeneration ≤ t.input.pointerCompletedGeneration

namespace Ordered
open InputThreads
variable {s : InputThreads}

/-- Without a report, the newest generation is the completed one. -/
theorem completed_of_nil (h : Ordered s) (hnil : s.reports = []) :
    s.input.pointerCompletedGeneration = s.input.pointerGeneration := by
  have hnew := h.newest
  rw [generations, hnil] at hnew
  exact Option.some.inj hnew

theorem flushing (h : Ordered s) (hns : s.input.pointerStopping = false) : Flushing s where
  outstanding := fun hlt => by
    by_contra hnone
    simp only [not_or, Bool.not_eq_true, not_not] at hnone
    have hnil : s.reports = [] := by simp [reports, queued, hnone.1, hnone.2.1, hnone.2.2, PointerThread.inFlight]
    have := h.completed_of_nil hnil
    omega
  drains := drains h hns
  bounded := fun acts t hp hrun => by
    have := work_run h hp hrun
    omega
  reached := fun acts t hp hrun hnil => by
    rw [← (pointerThread_run hp hrun).2, (h.run hrun).completed_of_nil hnil]

end Ordered

/-- `FlushPointer(true)` never waits for nothing, and what it has waited for is done: reports complete in
    increasing order of generation, and when the completed generation has reached that of a report,
    the report was posted unless a newer one superseded it. -/
theorem flush_completes {width height : UInt16} {nextFlush : Int} {acts : List InputAction} {s : InputThreads}
    (hrun : run InputThreads.step (InputThreads.start width height nextFlush) acts = some s) :
    (s.input.pointerStopping = false → Flushing s) ∧
      (((InputThreads.start width height nextFlush).completed acts).map (·.generation)).Pairwise (· < ·) ∧
      (((InputThreads.start width height nextFlush).completed acts).flatMap PointerReport.requests).Sublist s.requests ∧
      ∀ r ∈ (InputThreads.start width height nextFlush).made acts,
        r.generation ≤ s.input.pointerCompletedGeneration →
        r ∉ (InputThreads.start width height nextFlush).superseded acts →
        r ∈ (InputThreads.start width height nextFlush).completed acts := by
  have h := Accounted.run hrun
  refine ⟨h.order.flushing, h.increasing, ?_, ?_⟩
  · obtain ⟨begun, -, hsub⟩ := h.posted
    exact (List.sublist_append_left _ _).trans hsub
  · intro r hr hle hns
    rcases h.all r hr with hc | hsup | hrep
    · exact hc
    · exact absurd hsup hns
    · -- An outstanding report is above the completed generation.
      have hinc := h.order.increasing
      rw [InputThreads.generations, List.pairwise_cons] at hinc
      have := hinc.1 _ (List.mem_map_of_mem hrep)
      omega

/-- A movement that a click supersedes: while the click is posted, `FlushPointer(true)` waits for it. -/
theorem flush_completes_click : ∃ s, run InputThreads.step (InputThreads.start 100 100 0)
      [.call (.pointer 0 10 10), .call (.pointer 1 20 20), .call (.key true 0x61), .take 0] = some s ∧
    s.input.pointerCompletedGeneration < s.input.pointerGeneration ∧ Flushing s := by
  obtain ⟨s, hrun, hs⟩ := Option.map_eq_some_iff.mp (show (run InputThreads.step (InputThreads.start 100 100 0)
      [.call (.pointer 0 10 10), .call (.pointer 1 20 20), .call (.key true 0x61), .take 0]).map (fun s =>
        (s.input.pointerStopping, s.input.pointerCompletedGeneration, s.input.pointerGeneration)) =
      some (false, 0, 2) by decide +kernel)
  simp only [Prod.mk.injEq] at hs
  exact ⟨s, hrun, by omega, (flush_completes hrun).1 hs.1⟩

end OnekvmVnc
