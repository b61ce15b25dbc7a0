import OnekvmVnc.Lib.Coalesce
import OnekvmVnc.Theorems.Input.Requests

/-! The HID requests of a sequence of key and pointer events. Read one after the other, the events ask
    for a list of items; what the threads post, in any interleaving, is an order-preserving coalescing
    of it, in which a movement may give way to the pointer event right behind it. -/

namespace OnekvmVnc

open Transition Coalesce

/-! ### What the events ask for -/

/-- What one event asks to be posted: the report of a pointer event, which is urgent or a pure movement,
    or the keyboard report of a key event, if the key has one. -/
inductive InputItem where
  | pointer (urgent : Bool) (buttons x y : UInt16) (wheel : Int)
  | key (request : Option HIDRequest)
  deriving DecidableEq, Repr

namespace InputItem

/-- The absolute report of a pointer event, followed by its wheel report if it has one. -/
def requests : InputItem → List HIDRequest
  | .pointer _ buttons x y wheel =>
    .absoluteMouse buttons x y :: if wheel ≠ 0 then [.mouse buttons.toUInt8 wheel] else []
  | .key request => request.toList

def absolute? : InputItem → Option HIDRequest
  | .pointer _ buttons x y _ => some (.absoluteMouse buttons x y)
  | .key _ => none

def isPointer : InputItem → Bool
  | .pointer .. => true
  | .key _ => false

/-- A pointer event with a button transition or a wheel tick. -/
def isUrgent : InputItem → Bool
  | .pointer urgent .. => urgent
  | .key _ => false

def isMotion : InputItem → Bool
  | .pointer urgent .. => !urgent
  | .key _ => false

/-- A pointer event supersedes a pure movement. -/
def Supersedes (b a : InputItem) : Prop := b.isPointer = true ∧ a.isMotion = true

end InputItem

namespace InputCall

def isEvent : InputCall → Bool
  | .key .. | .pointer .. => true
  | _ => false

/-- What an event asks for, where `s` holds the keyboard state and the buttons of the events before. -/
def item (s : InputState) : InputCall → InputItem
  | .pointer buttonMask x y =>
    let buttons := rfbButtonsToHID buttonMask
    let wheel := wheelOf buttonMask
    .pointer (buttons ≠ s.pointerButtons || wheel ≠ 0) buttons (absoluteCoordinate x s.width)
      (absoluteCoordinate y s.height) wheel
  | .key down k => .key (s.key down k).2
  | _ => .key none

end InputCall

/-- The keyboard state and the buttons after an event. -/
def InputState.after (s : InputState) : InputCall → InputState
  | .pointer buttonMask _ _ => { s with pointerButtons := rfbButtonsToHID buttonMask }
  | .key down key => (s.key down key).1
  | _ => s

/-- What a sequence of events asks for. -/
def items (s : InputState) : List InputCall → List InputItem
  | [] => []
  | c :: calls => c.item s :: items (s.after c) calls

def callsOf (acts : List InputAction) : List InputCall :=
  acts.filterMap fun
    | .call c => some c
    | _ => none

/-! ### Items of the events and reports of the threads -/

theorem items_append (s : InputState) (calls more : List InputCall) :
    items s (calls ++ more) = items s calls ++ items (calls.foldl InputState.after s) more := by
  induction calls generalizing s with
  | nil => rfl
  | cons c calls ih => simp [items, ih]

@[simp] theorem callsOf_append (acts more : List InputAction) : callsOf (acts ++ more) = callsOf acts ++ callsOf more :=
  List.filterMap_append

@[simp] theorem callsOf_call (c : InputCall) : callsOf [.call c] = [c] := rfl

theorem callsOf_internal {a : InputAction} (h : a.internal = true) : callsOf [a] = [] := by
  cases a with
  | call c => cases h
  | resume accepted => rfl
  | take now => rfl
  | send accepted => rfl
  | complete => rfl

theorem wheelOf_range (buttonMask : UInt32) : -1 ≤ wheelOf buttonMask ∧ wheelOf buttonMask ≤ 1 := by
  unfold wheelOf
  split
  · decide
  · split <;> decide

/-- A pointer event that agrees with the threads on the buttons and the size asks for its report. -/
theorem pointer_item_requests {q s : InputState} (hw : q.width = s.width) (hh : q.height = s.height)
    (buttonMask : UInt32) (x y : Int) :
    (InputCall.item q (.pointer buttonMask x y)).requests = (s.report buttonMask x y).requests := by
  obtain ⟨hlow, hhigh⟩ := wheelOf_range buttonMask
  simp only [InputCall.item, InputItem.requests, PointerReport.requests, InputState.report, hw, hh]
  by_cases hz : wheelOf buttonMask = 0
  · rw [if_neg (not_not.mpr hz), hz, wheelRequests_zero]
  · rw [if_pos hz, wheelRequests_small hz (by omega) (by omega)]

def InputState.motionItem (s : InputState) : InputItem := .pointer false s.pointerButtons s.pointerX s.pointerY 0

theorem motionItem_requests (s : InputState) : s.motionItem.requests = s.motion.requests := by
  simp [InputState.motionItem, InputItem.requests, PointerReport.requests, InputState.motion]

/-- An event that leaves a motion pending asks for that motion. -/
theorem pointer_item_motion {q s : InputState} (buttonMask : UInt32) (x y : Int) (hw : q.width = s.width)
    (hh : q.height = s.height) (hb : q.pointerButtons = s.pointerButtons)
    (hp : (s.pointer buttonMask x y).pointerPending = true) :
    InputCall.item q (.pointer buttonMask x y) = (s.pointer buttonMask x y).motionItem := by
  cases hu : s.urgent (s.report buttonMask x y)
  · obtain ⟨hbuttons, hwheel⟩ := InputState.wheel_of_not_urgent hu
    simp only [InputState.report] at hbuttons hwheel
    obtain ⟨pending, queue, heq⟩ := s.pointer_eq buttonMask x y
    rw [InputState.motionItem, heq]
    simp [InputCall.item, InputState.report, hw, hh, hb, hbuttons, hwheel]
  · simp [InputState.pointer, hu] at hp

/-! ### The event thread inside a key event -/

theorem key_snd_isAbsolute {s : InputState} {down : Bool} {k : KeySym} {r : HIDRequest}
    (h : (s.key down k).2 = some r) : r.isAbsolute = false := by
  by_cases hmod : keyToMod k ≠ 0
  · rw [InputState.key, if_pos hmod] at h
    cases h
    rfl
  · by_cases hu : keyToScancode k = 0
    · rw [InputState.key, if_neg hmod, if_pos hu] at h
      cases h
    · rw [InputState.key, if_neg hmod, if_neg hu] at h
      cases h
      rfl

/-- The event thread is at rest or inside `Key`, about to post nothing but a keyboard report. -/
def EventThread.inKey : EventThread → Bool
  | .idle | .keyFlush .. => true
  | .keySend request => !request.isAbsolute
  | _ => false

/-- The modifiers and keys once the current `Key` has taken effect. -/
def InputThreads.keyboard (s : InputThreads) : UInt8 × List (KeySym × UInt8) :=
  match s.event with
  | .keyFlush down key _ => ((s.input.key down key).1.modifiers, (s.input.key down key).1.keys)
  | _ => (s.input.modifiers, s.input.keys)

theorem key_fst_congr {i j : InputState} (hm : i.modifiers = j.modifiers) (hk : i.keys = j.keys) (down : Bool)
    (key : KeySym) :
    (i.key down key).1.modifiers = (j.key down key).1.modifiers ∧ (i.key down key).1.keys = (j.key down key).1.keys := by
  by_cases hmod : keyToMod key ≠ 0
  · simp only [InputState.key, if_pos hmod, hm, hk, and_self]
  · by_cases hu : keyToScancode key = 0
    · simp only [InputState.key, if_neg hmod, if_pos hu, hm, hk, and_self]
    · simp only [InputState.key, if_neg hmod, if_neg hu, hm, hk, and_self]

/-- What a step inside a key event leaves alone. -/
structure KeyFrame (s t : InputThreads) : Prop where
  inKey : t.event.inKey = true
  width : t.input.width = s.input.width
  height : t.input.height = s.input.height
  buttons : t.input.pointerButtons = s.input.pointerButtons
  x : t.input.pointerX = s.input.pointerX
  y : t.input.pointerY = s.input.pointerY
  keyboard : t.keyboard = s.keyboard
  /-- A motion pending at rest was pending before. -/
  pending : t.input.pointerPending = true → t.event = .idle → s.input.pointerPending = true ∧ s.event = .idle

namespace InputThreads
variable {s t : InputThreads}

/-- A step of the pointer thread leaves the keyboard state and the newest position alone. -/
theorem keyFrame_of_pointerThread (hkey : s.event.inKey = true) (hevent : t.event = s.event)
    {urgent : List PointerReport} {pending : Bool} {completed : Nat}
    (hinput : t.input = { s.input with
      pointerUrgent := urgent, pointerPending := pending, pointerCompletedGeneration := completed })
    (hpending : pending = true → s.input.pointerPending = true) : KeyFrame s t where
  inKey := hevent ▸ hkey
  width := by rw [hinput]
  height := by rw [hinput]
  buttons := by rw [hinput]
  x := by rw [hinput]
  y := by rw [hinput]
  keyboard := by
    unfold keyboard
    rw [hevent, hinput]
    cases s.event with
    | keyFlush down key g =>
      obtain ⟨hm, hk⟩ := key_fst_congr (i := { s.input with
        pointerUrgent := urgent, pointerPending := pending, pointerCompletedGeneration := completed })
        (j := s.input) rfl rfl down key
      exact Prod.ext hm hk
    | _ => rfl
  pending := fun hp hidle => ⟨hpending (by rw [hinput] at hp; exact hp), hevent ▸ hidle⟩

theorem resume_keyFrame (h : Ordered s) (hkey : s.event.inKey = true) {accepted : Bool}
    (hr : s.resume accepted = some t) : KeyFrame s t := by
  unfold InputThreads.resume at hr
  cases hev : s.event with
  | idle => simp [hev] at hr
  | keyFlush down key generation =>
    simp only [hev, Option.ite_none_right_eq_some, Option.some.injEq] at hr
    obtain ⟨hf, rfl⟩ := hr
    obtain ⟨-, -, hpending⟩ := reports_eq_nil (h.reports_of_flushed (by rw [hev]; rfl) hf)
    obtain ⟨modifiers, keys, hfst⟩ := InputState.key_fst (s := s.input) down key
    have hkeyboard : s.keyboard = (modifiers, keys) := by simp only [keyboard, hev, hfst]
    cases hk : (s.input.key down key).2 with
    | none =>
      refine ⟨rfl, ?_, ?_, ?_, ?_, ?_, ?_, fun hp => ?_⟩ <;> simp only [hfst]
      · exact hkeyboard.symm
      · rw [hfst] at hp
        cases hpending.symm.trans hp
    | some request =>
      refine ⟨by simp [EventThread.inKey, key_snd_isAbsolute hk], ?_, ?_, ?_, ?_, ?_, ?_, fun _ hidle => by cases hidle⟩ <;>
        simp only [hfst]
      exact hkeyboard.symm
  | keySend request =>
    simp only [hev, Option.some.injEq] at hr
    subst hr
    obtain ⟨-, -, hpending⟩ := reports_eq_nil (h.flushed (by rw [hev]; rfl))
    refine ⟨rfl, rfl, rfl, rfl, rfl, rfl, ?_, ?_⟩
    · simp only [keyboard, hev]
      rfl
    · intro hp
      cases hpending.symm.trans hp
  | releaseFlush generation => simp [hev, EventThread.inKey] at hkey
  | releaseButtons => simp [hev, EventThread.inKey] at hkey
  | releaseFlushAgain generation => simp [hev, EventThread.inKey] at hkey
  | releaseKeys => simp [hev, EventThread.inKey] at hkey

theorem step_keyFrame (h : Ordered s) (hkey : s.event.inKey = true) {a : InputAction} (hi : a.internal = true)
    (ha : s.step a = some t) : KeyFrame s t := by
  cases a with
  | call c => cases hi
  | resume accepted => exact resume_keyFrame h hkey ha
  | take now | send accepted | complete =>
    obtain ⟨hevent, urgent, pending, completed, hinput, hpending⟩ := pointerThread_eq rfl ha
    exact keyFrame_of_pointerThread hkey hevent hinput hpending

end InputThreads

/-! ### The coalescing -/

/-- What holds after the events `calls`, the first of which found the state `q`: what was posted and is
    outstanding is a coalescing of what the events ask for, and a pending motion is its last item. -/
structure Coalesced (q : InputState) (calls : List InputCall) (s : InputThreads) : Prop where
  order : Ordered s
  inKey : s.event.inKey = true
  width : (calls.foldl InputState.after q).width = s.input.width
  height : (calls.foldl InputState.after q).height = s.input.height
  buttons : (calls.foldl InputState.after q).pointerButtons = s.input.pointerButtons
  keyboard : ((calls.foldl InputState.after q).modifiers, (calls.foldl InputState.after q).keys) = s.keyboard
  kept : ∃ kept, Coalesces InputItem.Supersedes (items q calls) kept ∧
    s.requests ++ s.outstanding = kept.flatMap InputItem.requests ∧
    (s.input.pointerPending = true → s.event = .idle → ∃ before ks,
      items q calls = before ++ [s.input.motionItem] ∧ kept = ks ++ [s.input.motionItem])

namespace Coalesced
open InputThreads
variable {q : InputState} {calls : List InputCall} {s t : InputThreads}

theorem start (width height : UInt16) (nextFlush : Int) :
    Coalesced (InputThreads.start width height nextFlush).input [] (InputThreads.start width height nextFlush) where
  order := .start width height nextFlush
  inKey := rfl
  width := rfl
  height := rfl
  buttons := rfl
  keyboard := rfl
  kept := ⟨[], .nil, rfl, fun hp => by cases hp⟩

theorem internal (h : Coalesced q calls s) {a : InputAction} (hi : a.internal = true) (ha : s.step a = some t) :
    Coalesced q calls t := by
  have frame := step_keyFrame h.order h.inKey hi ha
  have hmotion : t.input.motionItem = s.input.motionItem := by
    rw [InputState.motionItem, InputState.motionItem, frame.buttons, frame.x, frame.y]
  obtain ⟨kept, hco, hreq, hpending⟩ := h.kept
  exact {
    order := h.order.step ha
    inKey := frame.inKey
    width := h.width.trans frame.width.symm
    height := h.height.trans frame.height.symm
    buttons := h.buttons.trans frame.buttons.symm
    keyboard := h.keyboard.trans frame.keyboard.symm
    kept := ⟨kept, hco, (step_conserves h.order hi ha).trans hreq, fun hp hidle => by
      obtain ⟨hps, hids⟩ := frame.pending hp hidle
      rw [hmotion]
      exact hpending hps hids⟩ }

/-- A further item at the end, when the outstanding requests grow by its requests. -/
theorem concat {kept : List InputItem} {item : InputItem} {more : List HIDRequest}
    (hreq : s.requests ++ s.outstanding = kept.flatMap InputItem.requests) (hissued : t.issued = s.issued)
    (hmore : item.requests = more) (hout : t.outstanding = s.outstanding ++ more) :
    t.requests ++ t.outstanding = (kept ++ [item]).flatMap InputItem.requests := by
  rw [requests, hissued, hout, List.flatMap_append, ← hreq, ← hmore]
  simp [requests]

/-- A key event adds its request to what is outstanding. -/
theorem key (h : Coalesced q calls s) {down : Bool} {k : KeySym} (hidle : s.event = .idle)
    (ha : s.step (.call (.key down k)) = some t) : Coalesced q (calls ++ [InputCall.key down k]) t := by
  have order := h.order.step ha
  simp only [InputThreads.step, InputThreads.call, Option.ite_none_right_eq_some, Option.some.injEq] at ha
  obtain ⟨-, rfl⟩ := ha
  have hkeyboard := h.keyboard
  simp only [InputThreads.keyboard, hidle, Prod.mk.injEq] at hkeyboard
  obtain ⟨hm, hk⟩ := hkeyboard
  obtain ⟨modifiers, keys, hfst⟩ := InputState.key_fst (s := calls.foldl InputState.after q) down k
  obtain ⟨kept, hco, hreq, -⟩ := h.kept
  have hafter : (calls ++ [InputCall.key down k]).foldl InputState.after q =
      ((calls.foldl InputState.after q).key down k).1 := by
    rw [List.foldl_concat]
    rfl
  refine ⟨order, rfl, ?_, ?_, ?_, ?_, kept ++ [InputItem.key (s.input.key down k).2], ?_, ?_, fun _ hi => by cases hi⟩
  · rw [hafter, hfst]
    exact h.width
  · rw [hafter, hfst]
    exact h.height
  · rw [hafter, hfst]
    exact h.buttons
  · rw [hafter]
    obtain ⟨hm', hk'⟩ := key_fst_congr hm hk down k
    exact Prod.ext hm' hk'
  · rw [items_append]
    have hitem : items (calls.foldl InputState.after q) [.key down k] = [InputItem.key (s.input.key down k).2] := by
      simp [items, InputCall.item, key_snd_congr hm hk]
    rw [hitem]
    exact hco.concat _
  · refine concat hreq rfl rfl ?_
    have hout : s.outstanding = s.pointerOutstanding := by
      simp [outstanding, hidle, EventThread.outstanding]
    rw [hout]
    rfl

/-- A pointer event adds its report to what is outstanding, in the place of a pending motion. -/
theorem pointer (h : Coalesced q calls s) {buttonMask : UInt32} {x y : Int} (hidle : s.event = .idle)
    (ha : s.step (.call (.pointer buttonMask x y)) = some t) :
    Coalesced q (calls ++ [InputCall.pointer buttonMask x y]) t := by
  have order := h.order.step ha
  simp only [InputThreads.step, InputThreads.call, Option.ite_none_right_eq_some, Option.some.injEq] at ha
  obtain ⟨-, rfl⟩ := ha
  obtain ⟨pending, queue, heq⟩ := s.input.pointer_eq buttonMask x y
  have hkeyboard : ({ s with input := s.input.pointer buttonMask x y } : InputThreads).keyboard = s.keyboard := by
    simp only [InputThreads.keyboard, hidle, heq]
  obtain ⟨kept, hco, hreq, hpending⟩ := h.kept
  -- The item of the event, and what it adds to the outstanding requests.
  have hitems : items q (calls ++ [InputCall.pointer buttonMask x y]) =
      items q calls ++ [InputCall.item (calls.foldl InputState.after q) (.pointer buttonMask x y)] := by
    rw [items_append]
    rfl
  have hitem := pointer_item_requests h.width h.height buttonMask x y
  have hmotion := pointer_item_motion buttonMask x y h.width h.height h.buttons
  have hpointer : (InputCall.item (calls.foldl InputState.after q) (.pointer buttonMask x y)).isPointer = true := rfl
  generalize InputCall.item (calls.foldl InputState.after q) (.pointer buttonMask x y) = item
    at hitems hitem hmotion hpointer
  have hout : s.outstanding = s.loop.outstanding ++ s.queued.flatMap PointerReport.requests := by
    simp [outstanding, pointerOutstanding, hidle, EventThread.outstanding]
  have hout' : ({ s with input := s.input.pointer buttonMask x y } : InputThreads).outstanding =
      s.loop.outstanding ++ s.input.pointerUrgent.flatMap PointerReport.requests ++ item.requests := by
    rw [hitem, outstanding, pointerOutstanding, queued_pointer]
    simp [hidle, EventThread.outstanding]
  refine ⟨order, by simp [hidle, EventThread.inKey], ?_, ?_, ?_, ?_, ?_⟩
  · rw [List.foldl_concat, heq]
    exact h.width
  · rw [List.foldl_concat, heq]
    exact h.height
  · rw [List.foldl_concat, heq]
    rfl
  · rw [List.foldl_concat, hkeyboard]
    exact h.keyboard
  · rw [hitems]
    cases hp : s.input.pointerPending
    · -- Nothing is superseded.
      refine ⟨kept ++ [item], hco.concat item, concat hreq rfl rfl ?_, fun hp' _ => ?_⟩
      · rw [hout', hout, queued, hp]
        simp
      · rw [← hmotion hp']
        exact ⟨_, _, rfl, rfl⟩
    · -- The pending motion is the last item kept, and the event takes its place.
      obtain ⟨before, ks, hbefore, rfl⟩ := hpending hp hidle
      rw [hbefore] at hco ⊢
      refine ⟨ks ++ [item], hco.supersede ⟨hpointer, rfl⟩, ?_, ?_⟩
      · rw [hout, queued, hp, if_pos rfl, List.flatMap_append, List.flatMap_append, List.flatMap_singleton,
          List.flatMap_singleton, motionItem_requests, ← List.append_assoc, ← List.append_assoc] at hreq
        rw [List.flatMap_append, List.flatMap_singleton, ← List.append_cancel_right hreq, hout']
        simp only [requests, List.append_assoc]
      · intro hp' _
        rw [← hmotion hp']
        exact ⟨_, _, rfl, rfl⟩

theorem call (h : Coalesced q calls s) {c : InputCall} (hc : c.isEvent = true) (ha : s.step (.call c) = some t) :
    Coalesced q (calls ++ [c]) t := by
  have hidle : s.event = .idle := by
    simp only [InputThreads.step, Option.ite_none_right_eq_some] at ha
    exact ha.1.1
  cases c with
  | key down k => exact h.key hidle ha
  | pointer buttonMask x y => exact h.pointer hidle ha
  | resize width height => cases hc
  | release => cases hc
  | stop => cases hc

theorem run {width height : UInt16} {nextFlush : Int} {acts : List InputAction}
    (hevents : ∀ c ∈ callsOf acts, c.isEvent = true)
    (hrun : Transition.run InputThreads.step (InputThreads.start width height nextFlush) acts = some t) :
    Coalesced (InputThreads.start width height nextFlush).input (callsOf acts) t := by
  refine run_history (P := fun acts s => (∀ c ∈ callsOf acts, c.isEvent = true) →
    Coalesced (InputThreads.start width height nextFlush).input (callsOf acts) s)
    (fun _ => start width height nextFlush) (fun pre s a t _ ih ha hev => ?_) hrun hevents
  rw [callsOf_append] at hev ⊢
  have h := ih (fun c hc => hev c (List.mem_append_left _ hc))
  cases hi : a.internal
  · cases a with
    | call c => exact h.call (hev c (by simp)) ha
    | _ => cases hi
  · rw [callsOf_internal hi, List.append_nil]
    exact h.internal hi ha

end Coalesced

/-! ### What is posted -/

theorem InputItem.filter_requests (item : InputItem) (hkey : ∀ r, item = .key (some r) → r.isAbsolute = false) :
    item.requests.filter HIDRequest.isAbsolute = item.absolute?.toList := by
  cases item with
  | pointer urgent buttons x y wheel =>
    by_cases hw : wheel = 0 <;> simp [InputItem.requests, InputItem.absolute?, HIDRequest.isAbsolute, List.filter, hw]
  | key request =>
    cases request with
    | none => rfl
    | some r => simp [InputItem.requests, InputItem.absolute?, hkey r rfl]

theorem items_key {s : InputState} {calls : List InputCall} {r : HIDRequest}
    (h : InputItem.key (some r) ∈ items s calls) : r.isAbsolute = false := by
  induction calls generalizing s with
  | nil => cases h
  | cons c calls ih =>
    rcases List.mem_cons.mp h with h | h
    · cases c with
      | key down k => exact key_snd_isAbsolute (InputItem.key.inj h).symm
      | _ => cases h
    · exact ih h

/-- The absolute reports of a list of items are those of its pointer events. -/
theorem getLast?_absolute {kept : List InputItem} (hkey : ∀ r, InputItem.key (some r) ∈ kept → r.isAbsolute = false) :
    ((kept.flatMap InputItem.requests).filter HIDRequest.isAbsolute).getLast? =
      (kept.filter InputItem.isPointer).getLast?.bind InputItem.absolute? := by
  induction kept using List.reverseRecOn with
  | nil => rfl
  | append_singleton kept item ih =>
    have ih := ih (fun r hr => hkey r (List.mem_append_left _ hr))
    rw [List.flatMap_append, List.filter_append, List.flatMap_singleton,
      item.filter_requests (fun r hr => hkey r (by simp [hr]))]
    cases item with
    | pointer urgent buttons x y wheel => simp [InputItem.absolute?, InputItem.isPointer]
    | key request => simpa [InputItem.absolute?, InputItem.isPointer] using ih

/-- What the threads posted, and have still to post, for the events `calls` from `q`. -/
structure Posted (q : InputState) (calls : List InputCall) (t : InputThreads) (kept : List InputItem) : Prop where
  /-- Only pure movements are dropped, each for the pointer event right behind it. -/
  coalesces : Coalesces InputItem.Supersedes (items q calls) kept
  posted : t.requests ++ t.outstanding = kept.flatMap InputItem.requests
  settled : t.reports = [] → t.event = .idle → t.requests = kept.flatMap InputItem.requests
  /-- Every button transition and every wheel tick yields its reports, exactly once and in order. -/
  urgent : kept.filter InputItem.isUrgent = (items q calls).filter InputItem.isUrgent
  /-- A key event separates what comes before it from what comes after it, and the last pointer event
      before it is kept. -/
  key : ∀ before down k after, calls = before ++ InputCall.key down k :: after → ∃ us vs,
    kept = us ++ InputCall.item (before.foldl InputState.after q) (.key down k) :: vs ∧
      Coalesces InputItem.Supersedes (items q before) us ∧
      Coalesces InputItem.Supersedes (items ((before.foldl InputState.after q).key down k).1 after) vs ∧
      (us.filter InputItem.isPointer).getLast? = ((items q before).filter InputItem.isPointer).getLast?
  /-- Once no report is left, the last absolute report is the one of the last pointer event. -/
  last : t.reports = [] → (t.requests.filter HIDRequest.isAbsolute).getLast? =
    ((items q calls).filter InputItem.isPointer).getLast?.bind InputItem.absolute?

/-- The HID requests of key and pointer events are an order-preserving coalescing of the events, in
    every interleaving of the two threads and for every outcome of the requests. -/
theorem requests_coalesce {width height : UInt16} {nextFlush : Int} {acts : List InputAction} {t : InputThreads}
    (hevents : ∀ c ∈ callsOf acts, c.isEvent = true)
    (hrun : run InputThreads.step (InputThreads.start width height nextFlush) acts = some t) :
    ∃ kept, Posted (InputThreads.start width height nextFlush).input (callsOf acts) t kept := by
  have h := Coalesced.run hevents hrun
  obtain ⟨kept, hco, hreq, -⟩ := h.kept
  refine ⟨kept, ⟨hco, hreq, fun hnil hidle => ?_, ?_, fun before down k after hsplit => ?_, fun hnil => ?_⟩⟩
  · rw [← hreq, InputThreads.outstanding, InputThreads.pointerOutstanding_eq_nil hnil, hidle]
    simp [EventThread.outstanding]
  · -- A pure movement is not urgent.
    refine hco.filter_eq fun a b hba => ?_
    have hmotion := hba.2
    cases a with
    | pointer urgent buttons x y wheel => simpa [InputItem.isMotion, InputItem.isUrgent] using hmotion
    | key request => rfl
  · rw [hsplit, items_append] at hco
    obtain ⟨us, vs, rfl, hus, hvs⟩ := hco.split fun b => by
      simp [InputItem.Supersedes, InputItem.isPointer, InputItem.isMotion, InputCall.item]
    exact ⟨us, vs, rfl, hus, hvs, hus.getLast?_filter fun a b hba => hba.1⟩
  · rw [← hco.getLast?_filter fun a b hba => hba.1,
      ← getLast?_absolute fun r hr => items_key (hco.sublist.subset hr), ← hreq, List.filter_append]
    -- What is still outstanding is a keyboard report.
    have hout : t.outstanding.filter HIDRequest.isAbsolute = [] := by
      rw [InputThreads.outstanding, InputThreads.pointerOutstanding_eq_nil hnil, List.nil_append]
      have hinKey := h.inKey
      cases hev : t.event with
      | idle => rfl
      | keyFlush down k generation =>
        cases hk : (t.input.key down k).2 with
        | none => simp [EventThread.outstanding, hk]
        | some r => simp [EventThread.outstanding, hk, key_snd_isAbsolute hk]
      | keySend request =>
        rw [hev] at hinKey
        simpa [EventThread.outstanding, EventThread.inKey] using hinKey
      | _ => simp [hev, EventThread.inKey] at hinKey
    rw [hout, List.append_nil]

/-- A press right behind a movement, then a key: the movement is coalesced away. -/
theorem requests_coalesce_click : ∃ t kept, run InputThreads.step (InputThreads.start 100 100 0)
      [.call (.pointer 0 10 10), .call (.pointer 1 20 20), .call (.key true 0x61), .take 0, .send true, .complete,
        .resume true, .resume false] = some t ∧
    Posted (InputThreads.start 100 100 0).input
      [.pointer 0 10 10, .pointer 1 20 20, .key true 0x61] t kept := by
  obtain ⟨t, hrun⟩ : ∃ t, run InputThreads.step (InputThreads.start 100 100 0)
      [.call (.pointer 0 10 10), .call (.pointer 1 20 20), .call (.key true 0x61), .take 0, .send true, .complete,
        .resume true, .resume false] = some t := Option.isSome_iff_exists.mp (by decide +kernel)
  obtain ⟨kept, hkept⟩ := requests_coalesce (by decide) hrun
  exact ⟨t, kept, hrun, hkept⟩

end OnekvmVnc
