import OnekvmVnc.Sessions
import OnekvmVnc.Theorems.Input.Coalescing

/-! What a departing client leaves held. `ClientGone` counts the clients and releases the input with
    the last of them; nothing records which client holds what. -/

namespace OnekvmVnc

open Transition

/-! ### What is held, and by whom -/

/-- Something that can be held down on the target. -/
inductive HeldInput where
  | modifier (mask : UInt8)
  | usage (usage : UInt8)
  | button (mask : UInt16)
  deriving DecidableEq, Repr

def InputState.present (s : InputState) : HeldInput → Bool
  | .modifier mask => s.modifiers &&& mask ≠ 0
  | .usage usage => usage ∈ s.keys.map (·.2)
  | .button mask => s.pointerButtons &&& mask ≠ 0

/-- Whether an event of the client presses the input (`true`), lets it go (`false`) or does neither. -/
def SessionAction.presses (client : ClientId) : HeldInput → SessionAction → Option Bool
  | .modifier mask, .keyEvent c down key => if c = client ∧ keyToMod key &&& mask ≠ 0 then some down else none
  | .usage usage, .keyEvent c down key =>
    if c = client ∧ keyToMod key = 0 ∧ keyToScancode key = usage then some down else none
  | .button mask, .pointerEvent c buttonMask _ _ =>
    if c = client then some (rfbButtonsToHID buttonMask &&& mask ≠ 0) else none
  | _, _ => none

/-- The client's own last event for the input was a press. -/
def holds (acts : List SessionAction) (client : ClientId) (input : HeldInput) : Bool :=
  (acts.filterMap (SessionAction.presses client input)).getLast? = some true

/-! ### The callbacks keep the count -/

namespace Sessions
variable {s t : Sessions}

/-- `clients_` is the number of connected clients, and the input threads keep their order. -/
structure Counted (s : Sessions) : Prop where
  order : Ordered s.threads
  clients : s.clients = s.connected.length

theorem inputCall_eq {c : InputCall} (h : s.inputCall c = some t) :
    ∃ threads, s.threads.step (.call c) = some threads ∧ t = { s with threads } := by
  obtain ⟨threads, hcall, rfl⟩ := Option.map_eq_some_iff.mp h
  exact ⟨threads, hcall, rfl⟩

theorem input_eq {a : InputAction} (h : s.step (.input a) = some t) :
    a.internal = true ∧ ∃ threads, s.threads.step a = some threads ∧ t = { s with threads } := by
  cases a with
  | call c => cases h
  | _ =>
    obtain ⟨threads, ha, rfl⟩ := Option.map_eq_some_iff.mp h
    exact ⟨rfl, threads, ha, rfl⟩

/-- `ClientGone` releases the input if the client was the only one, and changes no input otherwise. -/
theorem clientGone_eq (h : Counted s) {client : ClientId} (hmem : client ∈ s.connected)
    (ha : s.clientGone client = some t) : t.connected = s.connected.erase client ∧ t.clients = t.connected.length ∧
      if t.connected = [] then s.threads.step (.call .release) = some t.threads else t.threads = s.threads := by
  have hlen := List.length_erase_of_mem hmem
  have hpos := List.length_pos_of_mem hmem
  have hclients := h.clients
  simp only [clientGone, if_pos (show s.clients > 0 by omega)] at ha
  by_cases hzero : s.clients - 1 = 0
  · have hnil : s.connected.erase client = [] := List.length_eq_zero_iff.mp (by omega)
    simp only [hzero, if_pos] at ha
    obtain ⟨threads, hcall, rfl⟩ := inputCall_eq ha
    refine ⟨rfl, ?_, ?_⟩
    · simp [hnil]
    · simp only [hnil, if_pos]
      exact hcall
  · have hne : s.connected.erase client ≠ [] := fun hnil => hzero (by rw [hnil] at hlen; simp at hlen; omega)
    simp only [hzero, if_neg, not_false_iff, Option.some.injEq] at ha
    subst ha
    refine ⟨rfl, ?_, ?_⟩
    · simp only
      omega
    · simp only [hne, if_neg, not_false_iff]

theorem Counted.step (h : Counted s) {a : SessionAction} (ha : s.step a = some t) : Counted t := by
  cases a with
  | newClient client =>
    simp only [Sessions.step, Option.ite_none_right_eq_some, Option.some.injEq] at ha
    obtain ⟨-, rfl⟩ := ha
    exact ⟨h.order, by simp [h.clients]⟩
  | clientGone client =>
    simp only [Sessions.step, Option.ite_none_right_eq_some] at ha
    obtain ⟨⟨-, hmem⟩, ha⟩ := ha
    obtain ⟨-, hclients, hthreads⟩ := clientGone_eq h hmem ha
    refine ⟨?_, hclients⟩
    split at hthreads
    · exact h.order.step hthreads
    · exact hthreads ▸ h.order
  | keyEvent client down key =>
    simp only [Sessions.step, Option.ite_none_right_eq_some] at ha
    obtain ⟨threads, hcall, rfl⟩ := inputCall_eq ha.2
    exact ⟨h.order.step hcall, h.clients⟩
  | pointerEvent client buttonMask x y =>
    simp only [Sessions.step, Option.ite_none_right_eq_some] at ha
    obtain ⟨threads, hcall, rfl⟩ := inputCall_eq ha.2
    exact ⟨h.order.step hcall, h.clients⟩
  | input a =>
    obtain ⟨-, threads, hthreads, rfl⟩ := input_eq ha
    exact ⟨h.order.step hthreads, h.clients⟩

theorem Counted.run {width height : UInt16} {nextFlush : Int} {acts : List SessionAction}
    (h : Transition.run Sessions.step (start width height nextFlush) acts = some s) : Counted s :=
  run_invariant ⟨.start width height nextFlush, rfl⟩ (fun _ _ _ hu ha => hu.step ha) h

end Sessions

/-! ### What the steps inside a callback do to the input -/

structure SameHeld (s t : InputState) : Prop where
  modifiers : t.modifiers = s.modifiers
  keys : t.keys = s.keys
  buttons : t.pointerButtons = s.pointerButtons

structure NothingHeld (s : InputState) : Prop where
  modifiers : s.modifiers = 0
  keys : s.keys = []
  buttons : s.pointerButtons = 0

namespace InputThreads
variable {s t : InputThreads}

/-- How far `Release` has got: the buttons go first, the keys and modifiers last. -/
def LetGo (s : InputThreads) : Prop :=
  match s.event with
  | .releaseFlush _ | .releaseButtons => True
  | .releaseFlushAgain _ | .releaseKeys => s.input.pointerButtons = 0
  | .idle => NothingHeld s.input
  | _ => False

theorem pointerThread_held {a : InputAction} (hp : a.ofPointerThread = true) (ha : s.step a = some t) :
    t.event = s.event ∧ SameHeld s.input t.input := by
  obtain ⟨hevent, urgent, pending, completed, hinput, -⟩ := pointerThread_eq hp ha
  rw [hinput]
  exact ⟨hevent, rfl, rfl, rfl⟩

theorem step_letGo (h : LetGo s) {a : InputAction} (hi : a.internal = true) (ha : s.step a = some t) : LetGo t := by
  cases a with
  | call c => cases hi
  | resume accepted =>
    simp only [InputThreads.step, InputThreads.resume] at ha
    cases hev : s.event with
    | idle => simp [hev] at ha
    | keyFlush down key generation => simp [LetGo, hev] at h
    | keySend request => simp [LetGo, hev] at h
    | releaseFlush generation =>
      simp only [hev, Option.ite_none_right_eq_some, Option.some.injEq] at ha
      obtain ⟨-, rfl⟩ := ha
      trivial
    | releaseButtons =>
      simp only [hev, Option.some.injEq] at ha
      subst ha
      by_cases hb : s.input.pointerButtons = 0
      · simp [LetGo, InputState.releaseButtons, hb]
      · simp [LetGo, InputState.releaseButtons, hb]
    | releaseFlushAgain generation =>
      simp only [hev, Option.ite_none_right_eq_some, Option.some.injEq] at ha
      obtain ⟨-, rfl⟩ := ha
      simpa [LetGo, hev] using h
    | releaseKeys =>
      simp only [hev, Option.some.injEq] at ha
      subst ha
      simp only [LetGo, hev] at h
      exact ⟨rfl, rfl, h⟩
  | take now | send accepted | complete =>
    obtain ⟨hevent, same⟩ := pointerThread_held rfl ha
    unfold LetGo at h ⊢
    rw [hevent]
    split at h
    · trivial
    · trivial
    · exact same.buttons.trans h
    · exact same.buttons.trans h
    · exact ⟨same.modifiers.trans h.modifiers, same.keys.trans h.keys, same.buttons.trans h.buttons⟩
    · exact h

theorem step_idle_held (hidle : s.event = .idle) {a : InputAction} (hi : a.internal = true) (ha : s.step a = some t) :
    t.event = .idle ∧ SameHeld s.input t.input := by
  cases a with
  | call c => cases hi
  | resume accepted => simp [InputThreads.step, InputThreads.resume, hidle] at ha
  | take now | send accepted | complete =>
    obtain ⟨hevent, same⟩ := pointerThread_held rfl ha
    exact ⟨hevent.trans hidle, same⟩

end InputThreads

/-! ### Departure -/

open Sessions InputThreads

/-- A step inside a callback, or of the pointer thread. -/
def SessionAction.inside : SessionAction → Bool
  | .input action => action.internal
  | _ => false

theorem inside_eq {s t : Sessions} {a : SessionAction} (hin : a.inside = true) (ha : s.step a = some t) :
    ∃ action, action.internal = true ∧ s.threads.step action = some t.threads ∧ t.connected = s.connected := by
  cases a with
  | input action =>
    obtain ⟨-, threads, hthreads, rfl⟩ := input_eq ha
    exact ⟨action, hin, hthreads, rfl⟩
  | _ => cases hin

/-- After `ClientGone` of the last client, nothing is recorded as held; after `ClientGone` of another
    client, everything that was held still is. -/
theorem clientGone_held {width height : UInt16} {nextFlush : Int} {events acts : List SessionAction} {s t : Sessions}
    {client : ClientId} (hevents : run Sessions.step (Sessions.start width height nextFlush) events = some s)
    (hinside : ∀ a ∈ acts, a.inside = true) (hgone : run Sessions.step s (.clientGone client :: acts) = some t)
    (hreturned : t.threads.event = .idle) :
    (t.connected = [] → NothingHeld t.threads.input) ∧
      (t.connected ≠ [] → SameHeld s.threads.input t.threads.input) := by
  have h := Counted.run hevents
  obtain ⟨u, hu, hrun⟩ := run_cons_eq_some.mp hgone
  simp only [Sessions.step, Option.ite_none_right_eq_some] at hu
  obtain ⟨⟨hidle, hmem⟩, hu⟩ := hu
  -- Whether `Release` runs is decided when the callback begins.
  obtain ⟨-, -, hthreads⟩ := clientGone_eq h hmem hu
  by_cases hlast : u.connected = []
  · -- The last client: `Release` runs to its end.
    rw [if_pos hlast] at hthreads
    simp only [InputThreads.step, InputThreads.call, Option.ite_none_right_eq_some, Option.some.injEq] at hthreads
    have hstart : LetGo u.threads := by
      rw [← hthreads.2]
      trivial
    obtain ⟨hconnected, hletGo⟩ := run_invariant_of_mem (P := fun v => v.connected = [] ∧ LetGo v.threads)
      ⟨hlast, hstart⟩ (fun v w a hmem hv ha => by
        obtain ⟨action, hi, hstep, hsame⟩ := inside_eq (hinside a hmem) ha
        exact ⟨hsame.trans hv.1, step_letGo hv.2 hi hstep⟩) hrun
    refine ⟨?_, fun hne => absurd hconnected hne⟩
    intro _
    simpa only [LetGo, hreturned] using hletGo
  · -- Another client is left: the input is not touched.
    rw [if_neg hlast] at hthreads
    obtain ⟨hconnected, -, hheld⟩ := run_invariant_of_mem
      (P := fun v => v.connected = u.connected ∧ v.threads.event = .idle ∧ SameHeld s.threads.input v.threads.input)
      ⟨rfl, by rw [hthreads, hidle], by rw [hthreads]; exact ⟨rfl, rfl, rfl⟩⟩ (fun v w a hmem hv ha => by
        obtain ⟨action, hi, hstep, hsame⟩ := inside_eq (hinside a hmem) ha
        obtain ⟨hidle', same⟩ := step_idle_held hv.2.1 hi hstep
        exact ⟨hsame.trans hv.1, hidle', same.modifiers.trans hv.2.2.modifiers, same.keys.trans hv.2.2.keys,
          same.buttons.trans hv.2.2.buttons⟩) hrun
    exact ⟨fun hnil => absurd (hconnected ▸ hnil) hlast, fun _ => hheld⟩

/-- The last client leaves while it holds a button and a key. -/
theorem clientGone_held_last : ∃ s t,
    run Sessions.step (Sessions.start 100 100 0)
      [.newClient 1, .pointerEvent 1 1 5 5, .keyEvent 1 true 0x61, .input (.take 0), .input (.send true),
        .input .complete, .input (.resume true), .input (.resume true)] = some s ∧
    run Sessions.step s [.clientGone 1, .input (.resume true), .input (.resume true), .input (.take 0),
      .input (.send true), .input .complete, .input (.resume true), .input (.resume true)] = some t ∧
    (t.connected = [] → NothingHeld t.threads.input) ∧
      (t.connected ≠ [] → SameHeld s.threads.input t.threads.input) := by
  obtain ⟨s, t, hevents, hgone, hreturned⟩ : ∃ s t, run Sessions.step (Sessions.start 100 100 0)
      [.newClient 1, .pointerEvent 1 1 5 5, .keyEvent 1 true 0x61, .input (.take 0), .input (.send true),
        .input .complete, .input (.resume true), .input (.resume true)] = some s ∧
    run Sessions.step s [.clientGone 1, .input (.resume true), .input (.resume true), .input (.take 0),
      .input (.send true), .input .complete, .input (.resume true), .input (.resume true)] = some t ∧
    t.threads.event = .idle := ⟨_, _, rfl, rfl, rfl⟩
  exact ⟨s, t, hevents, hgone, clientGone_held hevents (by decide) hgone hreturned⟩

/-- Of two clients, one presses a key that nobody else holds and leaves: the key stays held. -/
theorem clientGone_keeps_key : ∃ s t,
    run Sessions.step (Sessions.start 100 100 0)
      [.newClient 1, .newClient 2, .keyEvent 1 true 0x61, .input (.resume true), .input (.resume true)] = some s ∧
    (∀ client, holds [.newClient 1, .newClient 2, .keyEvent 1 true 0x61, .input (.resume true), .input (.resume true)]
      client (.usage 0x04) = true ↔ client = 1) ∧
    s.step (.clientGone 1) = some t ∧ t.threads.event = .idle ∧ t.threads.input.present (.usage 0x04) = true := by
  refine ⟨_, _, rfl, ?_, rfl, rfl, by decide +kernel⟩
  intro client
  by_cases hc : client = 1
  · subst hc
    exact iff_of_true (by decide +kernel) rfl
  · refine iff_of_false ?_ hc
    simp [holds, List.findSome?, SessionAction.presses, Ne.symm hc]

end OnekvmVnc
