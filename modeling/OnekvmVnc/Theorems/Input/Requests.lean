import OnekvmVnc.Theorems.Input.Order

/-! The HID requests that are still to be posted. Each step inside a call, of either thread, posts the
    first of them or leaves them alone: what was posted, followed by what is outstanding, does not
    change. -/

namespace OnekvmVnc

open Transition

def HIDRequest.isKeyboard : HIDRequest → Bool
  | .keyboard .. => true
  | _ => false

def HIDRequest.isAbsolute : HIDRequest → Bool
  | .absoluteMouse .. => true
  | _ => false

def wheelRequests (buttons : UInt16) (wheel : Int) : List HIDRequest :=
  if wheel = 0 then []
  else .mouse buttons.toUInt8 (clamp wheel (-127) 127) :: wheelRequests buttons (wheel - clamp wheel (-127) 127)
termination_by wheel.natAbs
decreasing_by
  unfold clamp
  split
  · omega
  · split <;> omega

def PointerReport.requests (r : PointerReport) : List HIDRequest :=
  .absoluteMouse r.buttons r.x r.y :: wheelRequests r.buttons r.wheel

/-- What `SendPointer` still has to post of the report in flight. -/
def PointerThread.outstanding : PointerThread → List HIDRequest
  | .top | .sent _ => []
  | .sendAbsolute r => r.requests
  | .sendWheel r wheel => wheelRequests r.buttons wheel

/-- What the rest of `Release` posts for the buttons. -/
def InputState.buttonRequests (s : InputState) : List HIDRequest :=
  if s.pointerButtons ≠ 0 then [.absoluteMouse 0 s.pointerX s.pointerY] else []

/-- What the event thread still has to post before the current call returns. -/
def EventThread.outstanding (input : InputState) : EventThread → List HIDRequest
  | .idle => []
  | .keyFlush down key _ => (input.key down key).2.toList
  | .keySend request => [request]
  | .releaseFlush _ | .releaseButtons => input.buttonRequests ++ input.releaseKeys.2.toList
  | .releaseFlushAgain _ | .releaseKeys => input.releaseKeys.2.toList

namespace InputThreads

def requests (s : InputThreads) : List HIDRequest := s.issued.map (·.request)

def pointerOutstanding (s : InputThreads) : List HIDRequest :=
  s.loop.outstanding ++ s.queued.flatMap PointerReport.requests

/-- The requests still to be posted, in the order in which they will be. -/
def outstanding (s : InputThreads) : List HIDRequest :=
  s.pointerOutstanding ++ s.event.outstanding s.input

end InputThreads

/-! ### Wheel requests -/

@[simp] theorem wheelRequests_zero (buttons : UInt16) : wheelRequests buttons 0 = [] := by
  rw [wheelRequests]
  rfl

theorem wheelRequests_small {buttons : UInt16} {wheel : Int} (h : wheel ≠ 0) (hlow : -127 ≤ wheel)
    (hhigh : wheel ≤ 127) : wheelRequests buttons wheel = [.mouse buttons.toUInt8 wheel] := by
  have hc : clamp wheel (-127) 127 = wheel := by
    rw [clamp, if_neg (by omega), if_neg (by omega)]
  rw [wheelRequests, if_neg h, hc, Int.sub_self, wheelRequests_zero]

theorem afterSend_outstanding (r : PointerReport) (wheel : Int) :
    (InputThreads.afterSend r wheel).outstanding = wheelRequests r.buttons wheel := by
  by_cases h : wheel = 0
  · rw [InputThreads.afterSend, if_neg (not_not.mpr h), h, wheelRequests_zero]
    rfl
  · rw [InputThreads.afterSend, if_pos h]
    rfl

/-! ### A step inside a call posts what is outstanding -/

namespace InputThreads
variable {s t : InputThreads}

@[simp] theorem requests_post (request : HIDRequest) (accepted : Bool) :
    (s.post request accepted).requests = s.requests ++ [request] := by
  simp [requests, post]

theorem pointerOutstanding_eq_nil (h : s.reports = []) : s.pointerOutstanding = [] := by
  obtain ⟨hloop, hurgent, hpending⟩ := reports_eq_nil h
  simp [pointerOutstanding, queued, hloop, hurgent, hpending, PointerThread.outstanding]

/-- The pointer requests depend on the reports alone, whose coalesced one reads the pointer state. -/
theorem pointerOutstanding_congr (hloop : t.loop = s.loop) (hurgent : t.input.pointerUrgent = s.input.pointerUrgent)
    (hpending : t.input.pointerPending = s.input.pointerPending) (same : t.input.SamePointer s.input) :
    t.pointerOutstanding = s.pointerOutstanding := by
  simp only [pointerOutstanding, queued, hloop, hurgent, hpending, InputState.motion, same.buttons, same.x, same.y,
    same.generation]

/-- The keyboard request of `Key` depends on the keyboard state alone. -/
theorem key_snd_congr {i j : InputState} (hm : i.modifiers = j.modifiers) (hk : i.keys = j.keys) (down : Bool)
    (key : KeySym) : (i.key down key).2 = (j.key down key).2 := by
  by_cases hmod : keyToMod key ≠ 0
  · simp only [InputState.key, if_pos hmod, InputState.sendKeyboard, hm, hk]
  · by_cases hu : keyToScancode key = 0
    · simp only [InputState.key, if_neg hmod, if_pos hu]
    · simp only [InputState.key, if_neg hmod, if_neg hu, InputState.sendKeyboard, hm, hk]

structure SameInput (s t : InputState) : Prop where
  modifiers : s.modifiers = t.modifiers
  keys : s.keys = t.keys
  buttons : s.pointerButtons = t.pointerButtons
  x : s.pointerX = t.pointerX
  y : s.pointerY = t.pointerY

theorem eventOutstanding_congr {i j : InputState} (same : SameInput i j) (e : EventThread) :
    e.outstanding i = e.outstanding j := by
  cases e <;>
    simp only [EventThread.outstanding, key_snd_congr same.modifiers same.keys, InputState.buttonRequests,
      InputState.releaseKeys, same.modifiers, same.keys, same.buttons, same.x, same.y]

/-- A step that posts nothing and leaves the event thread alone. -/
theorem outstanding_congr (hissued : t.issued = s.issued) (hevent : t.event = s.event)
    (hpointer : t.pointerOutstanding = s.pointerOutstanding) (same : SameInput t.input s.input) :
    t.requests ++ t.outstanding = s.requests ++ s.outstanding := by
  simp only [requests, outstanding, hissued, hevent, hpointer, eventOutstanding_congr same]

/-- A step of `SendPointer` posts the head of what is outstanding. -/
theorem requests_post_outstanding {request : HIDRequest} {accepted : Bool} {loop : PointerThread}
    (rest : List HIDRequest) (hhead : s.loop.outstanding = request :: rest) (hrest : loop.outstanding = rest) :
    ({ s.post request accepted with loop } : InputThreads).requests ++
        ({ s.post request accepted with loop } : InputThreads).outstanding =
      s.requests ++ s.outstanding := by
  have hqueued : ({ s.post request accepted with loop } : InputThreads).queued = s.queued := rfl
  simp only [outstanding, pointerOutstanding, hqueued, hhead, ← hrest]
  simp [requests, post]

/-- A critical section of the event thread moves its own obligation on and leaves the pointer requests. -/
theorem resume_conserves (h : Ordered s) {accepted : Bool} (hr : s.resume accepted = some t) :
    t.requests ++ t.outstanding = s.requests ++ s.outstanding := by
  unfold InputThreads.resume at hr
  cases hev : s.event with
  | idle => simp [hev] at hr
  | keyFlush down key generation =>
    simp only [hev, Option.ite_none_right_eq_some, Option.some.injEq] at hr
    obtain ⟨-, rfl⟩ := hr
    obtain ⟨modifiers, keys, hkey⟩ := InputState.key_fst (s := s.input) down key
    have hpointer : ∀ event, ({ s with input := (s.input.key down key).1, event } : InputThreads).pointerOutstanding =
        s.pointerOutstanding := fun event => by
      rw [hkey]
      exact pointerOutstanding_congr rfl rfl rfl ⟨rfl, rfl, rfl, rfl, rfl⟩
    cases hk : (s.input.key down key).2 <;>
      simp only [outstanding, hpointer, hev, EventThread.outstanding, hk] <;> rfl
  | keySend request =>
    have hnil := h.flushed (by rw [hev]; rfl)
    simp only [hev, Option.some.injEq] at hr
    subst hr
    have hs : s.pointerOutstanding = [] := pointerOutstanding_eq_nil hnil
    have ht : ({ s.post request accepted with event := .idle } : InputThreads).pointerOutstanding = [] := hs
    simp only [outstanding, hs, ht, hev, EventThread.outstanding, List.append_nil, List.nil_append]
    exact requests_post request accepted
  | releaseFlush generation =>
    simp only [hev, Option.ite_none_right_eq_some, Option.some.injEq] at hr
    obtain ⟨-, rfl⟩ := hr
    simp only [outstanding, hev]
    rfl
  | releaseButtons =>
    have hnil := h.flushed (by rw [hev]; rfl)
    obtain ⟨hloop, hurgent, hpending⟩ := reports_eq_nil hnil
    simp only [hev, Option.some.injEq] at hr
    subst hr
    have hs : s.pointerOutstanding = [] := pointerOutstanding_eq_nil hnil
    by_cases hb : s.input.pointerButtons = 0
    · simp [outstanding, pointerOutstanding, queued, hev, hloop, hurgent, hpending, hb, InputState.releaseButtons,
        EventThread.outstanding, InputState.buttonRequests, PointerThread.outstanding, requests]
    · simp [outstanding, pointerOutstanding, queued, hev, hloop, hurgent, hpending, hb, InputState.releaseButtons,
        EventThread.outstanding, InputState.buttonRequests, PointerThread.outstanding, requests,
        PointerReport.requests, InputState.releaseKeys]
  | releaseFlushAgain generation =>
    simp only [hev, Option.ite_none_right_eq_some, Option.some.injEq] at hr
    obtain ⟨-, rfl⟩ := hr
    simp only [outstanding, hev]
    rfl
  | releaseKeys =>
    have hnil := h.flushed (by rw [hev]; rfl)
    simp only [hev, Option.some.injEq] at hr
    subst hr
    have hs : s.pointerOutstanding = [] := pointerOutstanding_eq_nil hnil
    obtain ⟨hloop, hurgent, hpending⟩ := reports_eq_nil hnil
    by_cases hheld : s.input.modifiers ≠ 0 ∨ s.input.keys ≠ []
    · simp [outstanding, pointerOutstanding, queued, hev, hloop, hurgent, hpending, hheld, EventThread.outstanding,
        PointerThread.outstanding, requests, post?, post, InputState.releaseKeys]
    · simp [outstanding, pointerOutstanding, queued, hev, hloop, hurgent, hpending, hheld, EventThread.outstanding,
        PointerThread.outstanding, requests, post?, InputState.releaseKeys]

theorem take_conserves {now : Int} (ht : s.take now = some t) :
    t.requests ++ t.outstanding = s.requests ++ s.outstanding := by
  unfold InputThreads.take at ht
  split at ht
  · cases ht
  · rename_i htop
    simp only [Bool.or_eq_true, decide_eq_true_eq, not_or, not_not] at htop
    split at ht
    · rename_i r rest hurgent
      cases ht
      refine outstanding_congr rfl rfl ?_ ⟨rfl, rfl, rfl, rfl, rfl⟩
      simp [pointerOutstanding, queued, htop.2, hurgent, PointerThread.outstanding, InputState.motion]
    · rename_i hurgent
      simp only [Bool.and_eq_true, decide_eq_true_eq, Option.ite_none_right_eq_some, Option.some.injEq] at ht
      obtain ⟨⟨hp, -⟩, rfl⟩ := ht
      refine outstanding_congr rfl rfl ?_ ⟨rfl, rfl, rfl, rfl, rfl⟩
      simp [pointerOutstanding, queued, htop.2, hurgent, hp, PointerThread.outstanding]

/-- `SendPointer` posts the first outstanding request of its report. -/
theorem send_conserves (h : Ordered s) {accepted : Bool} (hs : s.send accepted = some t) :
    t.requests ++ t.outstanding = s.requests ++ s.outstanding := by
  unfold InputThreads.send at hs
  split at hs
  · rename_i r hloop
    cases hs
    rw [requests_post_outstanding (wheelRequests r.buttons r.wheel) (by rw [hloop]; rfl)
      (afterSend_outstanding r r.wheel)]
  · rename_i r w hloop
    cases hs
    have hw : w ≠ 0 := h.wheel r w hloop
    refine requests_post_outstanding (wheelRequests r.buttons (w - clamp w (-127) 127)) ?_
      (afterSend_outstanding r _)
    rw [hloop, PointerThread.outstanding, wheelRequests, if_neg hw]
  · cases hs

theorem complete_conserves (hc : s.complete = some t) :
    t.requests ++ t.outstanding = s.requests ++ s.outstanding := by
  unfold InputThreads.complete at hc
  split at hc
  · rename_i r hloop
    cases hc
    refine outstanding_congr rfl rfl ?_ ⟨rfl, rfl, rfl, rfl, rfl⟩
    simp [pointerOutstanding, queued, hloop, PointerThread.outstanding, InputState.motion]
  · cases hc

theorem step_conserves (h : Ordered s) {a : InputAction} (hi : a.internal = true) (ha : s.step a = some t) :
    t.requests ++ t.outstanding = s.requests ++ s.outstanding := by
  cases a with
  | call c => cases hi
  | resume accepted => exact resume_conserves h ha
  | take now => exact take_conserves ha
  | send accepted => exact send_conserves h ha
  | complete => exact complete_conserves ha

end InputThreads

end OnekvmVnc
