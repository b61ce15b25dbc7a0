import OnekvmVnc.Input
import OnekvmVnc.Lib.Transition

/-! The order of the pointer reports. The reports that are not complete yet, oldest first, have
    increasing generations above the completed one and end in the newest generation, so a
    `FlushPointer(true)` that returns leaves none. From it: a step inside a call neither loses nor
    reorders a HID request that is still to be posted. -/

namespace OnekvmVnc

open Transition

/-! ### Reports in the queue and in flight -/

/-- The report that `PointerLoop` has taken and not completed. -/
def PointerThread.inFlight : PointerThread → List PointerReport
  | .top => []
  | .sendAbsolute r | .sendWheel r _ | .sent r => [r]

namespace InputThreads

/-- The reports waiting for `PointerLoop`: the urgent ones, then the coalesced motion. -/
def queued (s : InputThreads) : List PointerReport :=
  s.input.pointerUrgent ++ if s.input.pointerPending then [s.input.motion] else []

/-- Every report that is not complete, oldest first. -/
def reports (s : InputThreads) : List PointerReport := s.loop.inFlight ++ s.queued

/-- The completed generation, then the generations of the reports that are not complete. -/
def generations (s : InputThreads) : List Nat :=
  s.input.pointerCompletedGeneration :: s.reports.map (·.generation)

end InputThreads

def EventThread.awaits : EventThread → Option Nat
  | .keyFlush _ _ generation | .releaseFlush generation | .releaseFlushAgain generation => some generation
  | _ => none

/-- The event thread is past a `FlushPointer(true)` of the current call. -/
def EventThread.afterFlush : EventThread → Bool
  | .keySend _ | .releaseButtons | .releaseKeys => true
  | _ => false

structure Ordered (s : InputThreads) : Prop where
  increasing : s.generations.Pairwise (· < ·)
  newest : s.generations.getLast? = some s.input.pointerGeneration
  /-- The newest report carries the buttons and coordinates of the last event. -/
  current : ∀ r, s.reports.getLast? = some r →
    r.buttons = s.input.pointerButtons ∧ r.x = s.input.pointerX ∧ r.y = s.input.pointerY
  awaits : ∀ g, s.event.awaits = some g → g = s.input.pointerGeneration
  flushed : s.event.afterFlush = true → s.reports = []
  stopped : s.input.pointerStopping = true → s.event = .idle
  wheel : ∀ r wheel, s.loop = .sendWheel r wheel → wheel ≠ 0

/-! ### Lists of generations -/

theorem le_of_getLast?_pairwise {l : List Nat} {g : Nat} (hl : l.Pairwise (· < ·)) (hg : l.getLast? = some g) :
    ∀ x ∈ l, x ≤ g := by
  obtain ⟨l, rfl⟩ := List.getLast?_eq_some_iff.mp hg
  intro x hx
  rcases List.mem_append.mp hx with hx | hx
  · exact Nat.le_of_lt ((List.pairwise_append.mp hl).2.2 x hx g (List.mem_singleton_self g))
  · exact Nat.le_of_eq (List.mem_singleton.mp hx)

theorem inFlight_eq_nil {p : PointerThread} : p.inFlight = [] ↔ p = .top := by
  cases p <;> simp [PointerThread.inFlight]

namespace InputState
variable {s : InputState}

theorem key_fst (down : Bool) (key : KeySym) : ∃ modifiers keys, (s.key down key).1 = { s with modifiers, keys } := by
  by_cases hm : keyToMod key ≠ 0
  · exact ⟨_, s.keys, by rw [InputState.key, if_pos hm]⟩
  · by_cases hu : keyToScancode key = 0
    · exact ⟨s.modifiers, s.keys, by rw [InputState.key, if_neg hm, if_pos hu]⟩
    · exact ⟨s.modifiers, _, by rw [InputState.key, if_neg hm, if_neg hu]⟩

/-- `Pointer` stores the report's buttons, coordinates and generation; only what becomes of the queue
    depends on its urgency. -/
theorem pointer_eq (buttonMask : UInt32) (x y : Int) : ∃ pending queue, s.pointer buttonMask x y =
    { s with
      pointerButtons := (s.report buttonMask x y).buttons
      pointerX := (s.report buttonMask x y).x
      pointerY := (s.report buttonMask x y).y
      pointerGeneration := s.pointerGeneration + 1
      pointerPending := pending
      pointerUrgent := queue } := by
  cases hu : s.urgent (s.report buttonMask x y)
  · exact ⟨true, s.pointerUrgent, by simp only [pointer, hu]; rfl⟩
  · exact ⟨false, s.pointerUrgent ++ [s.report buttonMask x y], by simp only [pointer, hu]; rfl⟩

structure SamePointer (s t : InputState) : Prop where
  buttons : s.pointerButtons = t.pointerButtons
  x : s.pointerX = t.pointerX
  y : s.pointerY = t.pointerY
  generation : s.pointerGeneration = t.pointerGeneration
  completed : s.pointerCompletedGeneration = t.pointerCompletedGeneration

theorem wheel_of_not_urgent {r : PointerReport} (h : s.urgent r = false) :
    r.buttons = s.pointerButtons ∧ r.wheel = 0 := by
  simpa [InputState.urgent] using h

end InputState

namespace InputThreads
variable {s t : InputThreads}

/-! ### What a step does to the reports -/

/-- A pointer event puts its report at the end and supersedes a pending motion. -/
theorem queued_pointer (buttonMask : UInt32) (x y : Int) :
    ({ s with input := s.input.pointer buttonMask x y } : InputThreads).queued =
      s.input.pointerUrgent ++ [s.input.report buttonMask x y] := by
  cases hu : s.input.urgent (s.input.report buttonMask x y)
  · -- A pure movement: the coalescing slot reads back as the report, whose wheel is 0.
    have hwheel := (InputState.wheel_of_not_urgent hu).2
    simp [queued, InputState.pointer, hu, InputState.motion, ← hwheel]
  · simp [queued, InputState.pointer, hu]

/-- `Release` lets the buttons go with a report at the end. -/
theorem queued_releaseButtons (h : s.input.pointerButtons ≠ 0) :
    ({ s with input := s.input.releaseButtons.1 } : InputThreads).queued = s.input.pointerUrgent ++
      [{ buttons := 0, x := s.input.pointerX, y := s.input.pointerY, wheel := 0,
         generation := s.input.pointerGeneration + 1 }] := by
  simp [queued, InputState.releaseButtons, h]

theorem reports_eq_nil (h : s.reports = []) :
    s.loop = .top ∧ s.input.pointerUrgent = [] ∧ s.input.pointerPending = false := by
  simp only [reports, queued, List.append_eq_nil_iff, inFlight_eq_nil] at h
  refine ⟨h.1, h.2.1, ?_⟩
  by_contra hp
  simp [hp] at h

end InputThreads

/-! ### Steps inside a call -/

/-- An action that is no new call on the event thread. -/
def InputAction.internal : InputAction → Bool
  | .call _ => false
  | _ => true

def InputAction.ofPointerThread : InputAction → Bool
  | .call _ | .resume _ => false
  | _ => true

/-- The pointer thread takes reports and completes them; it leaves the rest of the input state and the
    event thread alone. -/
theorem InputThreads.pointerThread_eq {s t : InputThreads} {a : InputAction} (hp : a.ofPointerThread = true)
    (ha : s.step a = some t) : t.event = s.event ∧ ∃ urgent pending completed,
      t.input = { s.input with
        pointerUrgent := urgent, pointerPending := pending, pointerCompletedGeneration := completed } ∧
      (pending = true → s.input.pointerPending = true) := by
  cases a with
  | call c => cases hp
  | resume accepted => cases hp
  | take now =>
    simp only [InputThreads.step, InputThreads.take] at ha
    split at ha
    · cases ha
    · split at ha
      · cases ha
        exact ⟨rfl, _, _, _, rfl, id⟩
      · simp only [Option.ite_none_right_eq_some, Option.some.injEq] at ha
        obtain ⟨-, rfl⟩ := ha
        exact ⟨rfl, s.input.pointerUrgent, false, s.input.pointerCompletedGeneration, rfl, fun hp => by cases hp⟩
  | send accepted =>
    simp only [InputThreads.step, InputThreads.send] at ha
    split at ha
    · cases ha
      exact ⟨rfl, _, _, _, rfl, id⟩
    · cases ha
      exact ⟨rfl, _, _, _, rfl, id⟩
    · cases ha
  | complete =>
    simp only [InputThreads.step, InputThreads.complete] at ha
    split at ha
    · cases ha
      exact ⟨rfl, _, _, _, rfl, id⟩
    · cases ha

namespace Ordered
open InputThreads
variable {s t : InputThreads}

theorem reports_of_flushed (h : Ordered s) {g : Nat} (hg : s.event.awaits = some g) (hf : s.flushed g = true) :
    s.reports = [] := by
  have hns : s.input.pointerStopping = false := by
    cases hs : s.input.pointerStopping
    · rfl
    · rw [h.stopped hs] at hg
      cases hg
  have hle : s.input.pointerGeneration ≤ s.input.pointerCompletedGeneration := by
    simpa [InputThreads.flushed, hns, h.awaits g hg] using hf
  -- The completed generation is below every other one, and the newest is the last of them.
  have hinc := h.increasing
  have hnew := h.newest
  unfold generations at hinc hnew
  rcases hr : s.reports with _ | ⟨r, rs⟩
  · rfl
  · rw [hr, List.map_cons, List.getLast?_cons_cons] at hnew
    rw [hr, List.map_cons, List.pairwise_cons] at hinc
    have hlt := hinc.1 _ (List.mem_of_getLast? hnew)
    omega

/-- Putting a report of the next generation behind those taken from the front keeps the order. -/
theorem push (h : Ordered s) {r : PointerReport} (input : InputState)
    (hr : r.generation = s.input.pointerGeneration + 1) (hgen : input.pointerGeneration = r.generation)
    (hcompleted : input.pointerCompletedGeneration = s.input.pointerCompletedGeneration)
    (hq : ({ s with input } : InputThreads).queued = s.input.pointerUrgent ++ [r]) :
    ({ s with input } : InputThreads).generations.Pairwise (· < ·) ∧
      ({ s with input } : InputThreads).generations.getLast? = some input.pointerGeneration ∧
      ({ s with input } : InputThreads).reports.getLast? = some r := by
  have hreports : ({ s with input } : InputThreads).reports = s.loop.inFlight ++ s.input.pointerUrgent ++ [r] := by
    rw [reports, hq, List.append_assoc]
  have hgens : ({ s with input } : InputThreads).generations =
      (s.input.pointerCompletedGeneration :: (s.loop.inFlight ++ s.input.pointerUrgent).map (·.generation)) ++
        [r.generation] := by
    simp [generations, hreports, hcompleted]
  -- Dropping the pending motion leaves a part of the old generations, all at most the newest.
  have hsub : (s.input.pointerCompletedGeneration ::
      (s.loop.inFlight ++ s.input.pointerUrgent).map (·.generation)).Sublist s.generations := by
    refine List.Sublist.cons_cons _ (List.Sublist.map _ ?_)
    rw [reports, queued, ← List.append_assoc]
    exact List.sublist_append_left _ _
  refine ⟨?_, ?_, ?_⟩
  · rw [hgens, List.pairwise_append]
    refine ⟨h.increasing.sublist hsub, List.pairwise_singleton _ _, ?_⟩
    intro x hx y hy
    have hle := le_of_getLast?_pairwise h.increasing h.newest x (hsub.subset hx)
    rw [List.mem_singleton.mp hy, hr]
    omega
  · rw [hgens, hgen, List.getLast?_append_of_ne_nil _ (List.cons_ne_nil _ _)]
    rfl
  · rw [hreports, List.getLast?_append_of_ne_nil _ (List.cons_ne_nil _ _)]
    rfl

/-- A step that leaves the reports and the pointer state alone keeps the order. -/
theorem of_same (h : Ordered s) (hr : t.reports = s.reports) (same : t.input.SamePointer s.input)
    (awaits : ∀ g, t.event.awaits = some g → g = s.input.pointerGeneration)
    (flushed : t.event.afterFlush = true → s.reports = [])
    (stopped : t.input.pointerStopping = true → t.event = .idle)
    (wheel : ∀ r w, t.loop = .sendWheel r w → w ≠ 0) : Ordered t := by
  have hg : t.generations = s.generations := by rw [generations, generations, hr, same.completed]
  exact {
    increasing := hg ▸ h.increasing
    newest := by rw [hg, h.newest, same.generation]
    current := fun r hr' => by
      rw [hr] at hr'
      rw [same.buttons, same.x, same.y]
      exact h.current r hr'
    awaits := fun g hg' => by rw [same.generation]; exact awaits g hg'
    flushed := fun hf => hr ▸ flushed hf
    stopped := stopped
    wheel := wheel }

theorem start (width height : UInt16) (nextFlush : Int) : Ordered (InputThreads.start width height nextFlush) where
  increasing := List.pairwise_singleton _ _
  newest := rfl
  current := fun r hr => by cases hr
  awaits := fun g hg => by cases hg
  flushed := fun _ => rfl
  stopped := fun _ => rfl
  wheel := fun r w hw => by cases hw

/-! ### One step keeps the order -/

theorem call (h : Ordered s) {c : InputCall} (hidle : s.event = .idle) (hns : s.input.pointerStopping = false)
    (hc : s.call c = some t) : Ordered t := by
  cases c with
  | key down key =>
    cases hc
    exact h.of_same rfl ⟨rfl, rfl, rfl, rfl, rfl⟩ (fun g hg => (Option.some.inj hg).symm) (fun hf => by cases hf)
      (fun hs => by cases hns.symm.trans hs) h.wheel
  | pointer buttonMask x y =>
    cases hc
    obtain ⟨pending, queue, heq⟩ := s.input.pointer_eq buttonMask x y
    obtain ⟨hinc, hnew, hlast⟩ := h.push (s.input.pointer buttonMask x y) rfl (by rw [heq]; rfl)
      (by rw [heq]) (queued_pointer buttonMask x y)
    refine ⟨hinc, hnew, ?_, ?_, ?_, fun _ => hidle, h.wheel⟩
    · intro r hr
      rw [hlast, Option.some.injEq] at hr
      rw [← hr, heq]
      exact ⟨rfl, rfl, rfl⟩
    · intro g hg
      simp [hidle, EventThread.awaits] at hg
    · intro hf
      simp [hidle, EventThread.afterFlush] at hf
  | resize width height =>
    cases hc
    exact h.of_same rfl ⟨rfl, rfl, rfl, rfl, rfl⟩ h.awaits h.flushed h.stopped h.wheel
  | release =>
    cases hc
    exact h.of_same rfl ⟨rfl, rfl, rfl, rfl, rfl⟩ (fun g hg => (Option.some.inj hg).symm) (fun hf => by cases hf)
      (fun hs => by cases hns.symm.trans hs) h.wheel
  | stop =>
    cases hc
    exact h.of_same rfl ⟨rfl, rfl, rfl, rfl, rfl⟩ h.awaits h.flushed (fun _ => hidle) h.wheel

/-- While the event thread is inside a call, the object is not being destroyed. -/
theorem not_stopping (h : Ordered s) (hne : s.event ≠ .idle) : s.input.pointerStopping = false := by
  cases hs : s.input.pointerStopping
  · rfl
  · exact absurd (h.stopped hs) hne

theorem resume (h : Ordered s) {accepted : Bool} (hr : s.resume accepted = some t) : Ordered t := by
  unfold InputThreads.resume at hr
  cases hev : s.event with
  | idle => simp [hev] at hr
  | keyFlush down key generation =>
    have hns := h.not_stopping (by simp [hev])
    simp only [hev, Option.ite_none_right_eq_some, Option.some.injEq] at hr
    obtain ⟨hf, rfl⟩ := hr
    -- The key waits for the pointer reports, so none is left when it goes on.
    have hnil := h.reports_of_flushed (by rw [hev]; rfl) hf
    obtain ⟨modifiers, keys, hkey⟩ := InputState.key_fst (s := s.input) down key
    refine h.of_same (by rw [hkey]; rfl) (by rw [hkey]; exact ⟨rfl, rfl, rfl, rfl, rfl⟩) (fun g hg => ?_)
      (fun _ => hnil) (fun hs => ?_) h.wheel
    · dsimp only at hg
      split at hg <;> cases hg
    · rw [hkey] at hs
      cases hns.symm.trans hs
  | keySend request =>
    simp only [hev, Option.some.injEq] at hr
    subst hr
    exact h.of_same rfl ⟨rfl, rfl, rfl, rfl, rfl⟩ (fun g hg => by cases hg) (fun hf => by cases hf) (fun _ => rfl)
      h.wheel
  | releaseFlush generation =>
    have hns := h.not_stopping (by simp [hev])
    simp only [hev, Option.ite_none_right_eq_some, Option.some.injEq] at hr
    obtain ⟨hf, rfl⟩ := hr
    exact h.of_same rfl ⟨rfl, rfl, rfl, rfl, rfl⟩ (fun g hg => by cases hg)
      (fun _ => h.reports_of_flushed (by rw [hev]; rfl) hf) (fun hs => by cases hns.symm.trans hs) h.wheel
  | releaseButtons =>
    have hns := h.not_stopping (by simp [hev])
    have hnil := h.flushed (by rw [hev]; rfl)
    simp only [hev, Option.some.injEq] at hr
    subst hr
    by_cases hb : s.input.pointerButtons ≠ 0
    · obtain ⟨hinc, hnew, hlast⟩ := h.push s.input.releaseButtons.1
        (r := { buttons := 0, x := s.input.pointerX, y := s.input.pointerY, wheel := 0,
                generation := s.input.pointerGeneration + 1 })
        rfl (by simp [InputState.releaseButtons, hb]) (by simp [InputState.releaseButtons, hb])
        (queued_releaseButtons hb)
      refine ⟨hinc, hnew, ?_, ?_, ?_, ?_, h.wheel⟩
      · intro r hr
        obtain rfl := Option.some.inj (hlast.symm.trans hr)
        simp [InputState.releaseButtons, hb]
      · intro g hg
        simpa [InputState.releaseButtons, hb, EventThread.awaits, eq_comm] using hg
      · intro hf
        simp [InputState.releaseButtons, hb, EventThread.afterFlush] at hf
      · intro hs
        simp [InputState.releaseButtons, hb, hns] at hs
    · refine h.of_same ?_ ?_ (fun g hg => ?_) (fun _ => hnil) (fun hs => ?_) h.wheel
      · simp [InputState.releaseButtons, hb, reports, queued, InputState.motion]
      · simp only [InputState.releaseButtons, if_neg hb]
        exact ⟨rfl, rfl, rfl, rfl, rfl⟩
      · simp [InputState.releaseButtons, hb, EventThread.awaits] at hg
      · simp [InputState.releaseButtons, hb, hns] at hs
  | releaseFlushAgain generation =>
    have hns := h.not_stopping (by simp [hev])
    simp only [hev, Option.ite_none_right_eq_some, Option.some.injEq] at hr
    obtain ⟨hf, rfl⟩ := hr
    exact h.of_same rfl ⟨rfl, rfl, rfl, rfl, rfl⟩ (fun g hg => by cases hg)
      (fun _ => h.reports_of_flushed (by rw [hev]; rfl) hf) (fun hs => by cases hns.symm.trans hs) h.wheel
  | releaseKeys =>
    simp only [hev, Option.some.injEq] at hr
    subst hr
    refine h.of_same ?_ ⟨rfl, rfl, rfl, rfl, rfl⟩ (fun g hg => by cases hg) (fun hf => by cases hf) (fun _ => rfl) ?_
    · unfold InputThreads.post?
      split <;> rfl
    · unfold InputThreads.post?
      split <;> exact h.wheel

theorem take (h : Ordered s) {now : Int} (ht : s.take now = some t) : Ordered t := by
  unfold InputThreads.take at ht
  split at ht
  · cases ht
  · rename_i htop
    simp only [Bool.or_eq_true, decide_eq_true_eq, not_or, not_not] at htop
    split at ht
    · rename_i r rest hurgent
      cases ht
      refine h.of_same ?_ ⟨rfl, rfl, rfl, rfl, rfl⟩ h.awaits h.flushed h.stopped (fun r w hw => by cases hw)
      simp [reports, queued, htop.2, hurgent, PointerThread.inFlight, InputState.motion]
    · rename_i hurgent
      simp only [Bool.and_eq_true, decide_eq_true_eq, Option.ite_none_right_eq_some, Option.some.injEq] at ht
      obtain ⟨⟨hp, -⟩, rfl⟩ := ht
      refine h.of_same ?_ ⟨rfl, rfl, rfl, rfl, rfl⟩ h.awaits h.flushed h.stopped (fun r w hw => by cases hw)
      simp [reports, queued, htop.2, hurgent, hp, PointerThread.inFlight]

theorem afterSend_inFlight (r : PointerReport) (wheel : Int) : (afterSend r wheel).inFlight = [r] := by
  unfold afterSend
  split <;> rfl

theorem afterSend_wheel {r r' : PointerReport} {wheel w : Int} (hw : afterSend r wheel = .sendWheel r' w) : w ≠ 0 := by
  unfold afterSend at hw
  split at hw
  · cases hw
    assumption
  · cases hw

theorem send (h : Ordered s) {accepted : Bool} (hs : s.send accepted = some t) : Ordered t := by
  unfold InputThreads.send at hs
  split at hs
  · rename_i r hloop
    cases hs
    refine h.of_same ?_ ⟨rfl, rfl, rfl, rfl, rfl⟩ h.awaits h.flushed h.stopped (fun _ _ hw => afterSend_wheel hw)
    change (afterSend r r.wheel).inFlight ++ s.queued = s.loop.inFlight ++ s.queued
    rw [afterSend_inFlight, hloop]
    rfl
  · rename_i r w hloop
    cases hs
    refine h.of_same ?_ ⟨rfl, rfl, rfl, rfl, rfl⟩ h.awaits h.flushed h.stopped (fun _ _ hw => afterSend_wheel hw)
    change (afterSend r _).inFlight ++ s.queued = s.loop.inFlight ++ s.queued
    rw [afterSend_inFlight, hloop]
    rfl
  · cases hs

theorem complete (h : Ordered s) (hc : s.complete = some t) : Ordered t := by
  unfold InputThreads.complete at hc
  split at hc
  · rename_i r hloop
    cases hc
    -- The completed report is the oldest one, so its generation takes the place of the completed one.
    have hreports : s.reports = r :: s.queued := by rw [reports, hloop]; rfl
    have hinc := h.increasing
    have hnew := h.newest
    rw [generations, hreports, List.map_cons] at hinc hnew
    have hlt := (List.pairwise_cons.mp hinc).1 r.generation List.mem_cons_self
    rw [List.getLast?_cons_cons] at hnew
    have hmax : max s.input.pointerCompletedGeneration r.generation = r.generation := by omega
    refine ⟨?_, ?_, ?_, h.awaits, ?_, h.stopped, fun r w hw => by cases hw⟩
    · simp only [generations, hmax]
      exact (List.pairwise_cons.mp hinc).2
    · simp only [generations, hmax]
      exact hnew
    · intro r' hr'
      refine h.current r' ?_
      rw [hreports]
      change s.queued.getLast? = some r' at hr'
      rw [List.getLast?_cons, hr', Option.getD_some]
    · intro hf
      have hnil := h.flushed hf
      rw [hreports] at hnil
      cases hnil
  · cases hc

theorem step (h : Ordered s) {a : InputAction} (ha : s.step a = some t) : Ordered t := by
  cases a with
  | call c =>
    simp only [InputThreads.step, Option.ite_none_right_eq_some] at ha
    exact h.call ha.1.1 ha.1.2 ha.2
  | resume accepted => exact h.resume ha
  | take now => exact h.take ha
  | send accepted => exact h.send ha
  | complete => exact h.complete ha

theorem run (h : Ordered s) {acts : List InputAction} (hrun : Transition.run InputThreads.step s acts = some t) :
    Ordered t :=
  run_invariant h (fun _ _ _ hu ha => hu.step ha) hrun

end Ordered

end OnekvmVnc
