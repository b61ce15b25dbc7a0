import OnekvmVnc.Lib.Latest
import OnekvmVnc.Lib.Parties
import OnekvmVnc.Lib.Transition
import OnekvmVnc.Sink.Input

/-! What the host holds down when several clients of `Sink` report to one HID controller. A client that leaves lets go
    of what its own state holds, and every report of a client says all that its state holds, so that the host holds
    only what a connected client does. -/

namespace OnekvmVnc

open Latest Parties Transition

/-! ### A part of what the host is told -/

/-- The keyboard, or the buttons: what a request says of it, what a state of a client holds of it, and what it is with
    nothing held. -/
structure HIDPart (β : Type) where
  said : HIDRequest → Option β
  holds : SinkInput → β
  rest : β

namespace HIDPart

def keyboard : HIDPart (UInt8 × List UInt8) where
  said
    | .keyboard modifiers keys => some (modifiers, keys)
    | _ => none
  holds s := (s.modifiers, s.reportKeys)
  rest := (0, [])

def buttons : HIDPart UInt16 where
  said
    | .absoluteMouse buttons _ _ => some buttons
    | _ => none
  holds s := s.buttons
  rest := 0

variable {β : Type} (part : HIDPart β)

/-- What the host knows after the requests, if it knew `before`. -/
def after (before : β) (requests : List HIDRequest) : β := (latest part.said requests).getD before

/-- The calls of a client with a controller report the part: what the host knew of the state it knows of the state behind,
    and of nothing held behind `release`. -/
structure Reported : Prop where
  key : ∀ (s : SinkInput) (down : Bool) (key : KeySym), s.controller = true →
    part.after (part.holds s) (s.key down key).2 = part.holds (s.key down key).1
  pointer : ∀ (s : SinkInput) (mask : UInt8) (x y : UInt16), s.controller = true →
    part.after (part.holds s) (s.pointer mask x y).2 = part.holds (s.pointer mask x y).1
  release : ∀ s : SinkInput, s.controller = true → part.after (part.holds s) s.release.2 = part.rest
  same : ∀ s t : SinkInput, t.modifiers = s.modifiers → t.keys = s.keys → t.buttons = s.buttons → part.holds t = part.holds s
  start : ∀ s : SinkInput, s.modifiers = 0 → s.keys = [] → s.buttons = 0 → part.holds s = part.rest

variable {part} {before : β} {requests more : List HIDRequest}

@[simp] theorem after_nil : part.after before [] = before := rfl

theorem after_append : part.after before (requests ++ more) = part.after (part.after before requests) more := by
  rw [after, latest_append, after, after]
  cases latest part.said more <;> rfl

theorem reported_keyboard : Reported keyboard where
  key s down key hcontroller := by
    rw [SinkInput.key, if_pos hcontroller]
    rfl
  pointer s mask x y hcontroller := by
    rw [SinkInput.pointer, if_pos hcontroller]
    dsimp only
    split <;> rfl
  release s hcontroller := by
    rw [SinkInput.release, if_pos hcontroller]
    by_cases hheld : s.modifiers ≠ 0 ∨ s.keys ≠ []
    · rw [if_pos hheld]
      dsimp only
      split <;> rfl
    · rw [if_neg hheld]
      rw [not_or, not_not, not_not] at hheld
      have hrest : keyboard.holds s = keyboard.rest :=
        congrArg₂ Prod.mk hheld.1 (by rw [SinkInput.reportKeys, hheld.2]; rfl)
      rw [hrest]
      dsimp only
      split <;> rfl
  same s t hmodifiers hkeys _ := congrArg₂ Prod.mk hmodifiers (by rw [SinkInput.reportKeys, hkeys]; rfl)
  start s hmodifiers hkeys _ := congrArg₂ Prod.mk hmodifiers (by rw [SinkInput.reportKeys, hkeys]; rfl)

theorem reported_buttons : Reported buttons where
  key s down key hcontroller := by
    rw [SinkInput.key, if_pos hcontroller]
    unfold SinkInput.pressKey
    dsimp only
    split
    · rfl
    · split <;> rfl
  pointer s mask x y hcontroller := by
    rw [SinkInput.pointer, if_pos hcontroller]
    dsimp only
    split <;> rfl
  release s hcontroller := by
    rw [SinkInput.release, if_pos hcontroller]
    dsimp only
    rw [after_append]
    have hkeys : after buttons (buttons.holds s) (if s.modifiers ≠ 0 ∨ s.keys ≠ [] then [.keyboard 0 []] else []) = s.buttons := by
      split <;> rfl
    rw [hkeys]
    split
    · rfl
    · rename_i hbuttons
      exact not_not.mp hbuttons
  same s t _ _ hbuttons := hbuttons
  start s _ _ hbuttons := hbuttons

end HIDPart

/-! ### The clients -/

/-- A client whose calls of the controller so far, with those it is about to make, say of a part what its state holds, or
    that nothing is held, once it has been released. -/
structure SinkInputClient.Tells {β : Type} (part : HIDPart β) (own : List HIDRequest) (c : SinkInputClient) : Prop where
  told : part.after part.rest (own ++ c.pending) = if c.released then part.rest else part.holds c.input
  idle : c.input.controller = false → part.holds c.input = part.rest

section
variable {β : Type} {part : HIDPart β} {own : List HIDRequest} {c c' : SinkInputClient}

theorem SinkInputClient.Tells.start (reported : part.Reported) (controller : Bool) (width height : UInt16) :
    SinkInputClient.Tells part [] { input := { controller, width, height } } := by
  have hrest : part.holds { controller, width, height } = part.rest := reported.start _ rfl rfl rfl
  exact ⟨hrest.symm, fun _ => hrest⟩

/-- Without a controller, a call changes nothing but the size. -/
theorem SinkInput.call_off {s : SinkInput} (hcontroller : s.controller = false) (call : SinkInputCall) :
    (s.call call).2 = [] ∧ (s.call call).1.controller = false ∧ (s.call call).1.modifiers = s.modifiers ∧
      (s.call call).1.keys = s.keys ∧ (s.call call).1.buttons = s.buttons := by
  have hoff : ¬ s.controller = true := by rw [hcontroller]; exact Bool.false_ne_true
  cases call with
  | key down key =>
    rw [SinkInput.call, SinkInput.key, if_neg hoff]
    exact ⟨rfl, hcontroller, rfl, rfl, rfl⟩
  | pointer mask x y =>
    rw [SinkInput.call, SinkInput.pointer, if_neg hoff]
    exact ⟨rfl, hcontroller, rfl, rfl, rfl⟩
  | release =>
    rw [SinkInput.call, SinkInput.release, if_neg hoff]
    exact ⟨rfl, hcontroller, rfl, rfl, rfl⟩
  | resize width height => exact ⟨rfl, hcontroller, rfl, rfl, rfl⟩

/-- With a controller, a call other than `release` reports what the state holds behind it. -/
theorem HIDPart.Reported.call (reported : part.Reported) {s : SinkInput} (hcontroller : s.controller = true)
    {call : SinkInputCall} (hcall : call ≠ .release) :
    part.after (part.holds s) (s.call call).2 = part.holds (s.call call).1 := by
  cases call with
  | key down key => exact reported.key s down key hcontroller
  | pointer mask x y => exact reported.pointer s mask x y hcontroller
  | release => exact absurd rfl hcall
  | resize width height => exact (reported.same s { s with width, height } rfl rfl rfl).symm

theorem SinkInput.call_controller (s : SinkInput) (call : SinkInputCall) : (s.call call).1.controller = s.controller := by
  cases call with
  | key down key =>
    rw [SinkInput.call, SinkInput.key]
    split
    · unfold SinkInput.pressKey
      dsimp only
      split
      · rfl
      · split <;> rfl
    · rfl
  | pointer mask x y =>
    rw [SinkInput.call, SinkInput.pointer]
    split <;> rfl
  | release =>
    rw [SinkInput.call, SinkInput.release]
    split <;> rfl
  | resize width height => rfl

theorem SinkInputClient.Tells.call (reported : part.Reported) (h : c.Tells part own) {call : SinkInputCall}
    (hcall : c.call call = some c') : c'.Tells part own := by
  simp only [SinkInputClient.call, Option.ite_none_right_eq_some, Option.some.injEq] at hcall
  obtain ⟨⟨hpending, hreleased⟩, rfl⟩ := hcall
  have htold := h.told
  rw [hpending, List.append_nil] at htold
  cases hcontroller : c.input.controller with
  | false =>
    obtain ⟨hnone, hoff, hmodifiers, hkeys, hbuttons⟩ := SinkInput.call_off hcontroller call
    have hsame : part.holds (c.input.call call).1 = part.rest :=
      (reported.same _ _ hmodifiers hkeys hbuttons).trans (h.idle hcontroller)
    refine ⟨?_, fun _ => hsame⟩
    dsimp only
    rw [hnone, List.append_nil, htold, hsame, h.idle hcontroller, ite_self, ite_self]
  | true =>
    have hon : (c.input.call call).1.controller = true := (c.input.call_controller call).trans hcontroller
    refine ⟨?_, fun hoff => absurd (hon.symm.trans hoff) (by decide)⟩
    dsimp only
    rw [HIDPart.after_append, htold]
    by_cases hrelease : call = .release
    · subst hrelease
      have hopen : c.released = false := Bool.eq_false_iff.mpr fun hleft => nomatch hreleased hleft
      rw [hopen]
      exact reported.release c.input hcontroller
    · have hnot : decide (call = .release) = false := decide_eq_false hrelease
      rw [hnot, Bool.or_false]
      cases hleft : c.released with
      | false => exact reported.call hcontroller hrelease
      | true =>
        have hresizes := hreleased hleft
        cases call with
        | resize width height => rfl
        | key | pointer | release => cases hresizes

end

namespace SinkHID

/-- Every client says what it holds. -/
structure Tells {β : Type} (part : HIDPart β) (s : SinkHID) : Prop where
  client : ∀ (i : Nat) (c : SinkInputClient), s.clients[i]? = some c → c.Tells part (own i s.issued)
  known : ∀ entry ∈ s.issued, entry.1 < s.clients.length

section
variable {β : Type} {part : HIDPart β} {s t : SinkHID}

theorem Tells.step (reported : part.Reported) (h : s.Tells part) {action : SinkHIDAction} (hstep : s.step action = some t) :
    t.Tells part := by
  cases action with
  | connect width height =>
    cases hstep
    refine ⟨fun i c hc => ?_, fun entry hentry => ?_⟩
    · rcases getElem?_join hc with ⟨rfl, rfl⟩ | hc
      · have hnone : own s.clients.length s.issued = [] := by
          rw [own, List.map_eq_nil_iff, List.filter_eq_nil_iff]
          intro entry hentry
          rw [decide_eq_true_eq]
          exact (h.known entry hentry).ne
        dsimp only
        rw [hnone]
        exact .start reported s.controller width height
      · exact h.client i c hc
    · rw [List.length_append]
      exact Nat.lt_add_right _ (h.known entry hentry)
  | call i call =>
    simp only [SinkHID.step] at hstep
    split at hstep
    · rename_i c hc
      obtain ⟨c', hcall, rfl⟩ := Option.map_eq_some_iff.mp hstep
      refine ⟨fun j d hd => ?_, fun entry hentry => ?_⟩
      · rcases getElem?_move hd with ⟨rfl, rfl⟩ | ⟨-, hd⟩
        · exact (h.client j c hc).call reported hcall
        · exact h.client j d hd
      · rw [List.length_set]
        exact h.known entry hentry
    · cases hstep
  | send i =>
    simp only [SinkHID.step] at hstep
    split at hstep
    · rename_i c hc
      split at hstep
      · rename_i request pending hpending
        cases hstep
        refine ⟨fun j d hd => ?_, fun entry hentry => ?_⟩
        · dsimp only
          rw [own_concat]
          rcases getElem?_move hd with ⟨rfl, rfl⟩ | ⟨hne, hd⟩
          · have htold := h.client j c hc
            refine ⟨?_, htold.idle⟩
            rw [if_pos rfl, List.append_assoc, List.singleton_append, ← hpending]
            exact htold.told
          · rw [if_neg hne.symm, List.append_nil]
            exact h.client j d hd
        · rw [List.length_set]
          rcases List.mem_append.mp hentry with hold | hnew
          · exact h.known entry hold
          · rw [List.mem_singleton.mp hnew]
            exact (List.getElem?_eq_some_iff.mp hc).1
      · cases hstep
    · cases hstep

theorem run_tells (reported : part.Reported) {controller : Bool} {actions : List SinkHIDAction}
    (h : run SinkHID.step { controller } actions = some s) : s.Tells part :=
  run_invariant (P := Tells part) ⟨fun i c hc => by simp at hc, fun _ hentry => absurd hentry List.not_mem_nil⟩
    (fun _ _ _ hu ha => hu.step reported ha) h

/-- What the host knows of a part. -/
def host {β : Type} (part : HIDPart β) (s : SinkHID) : β := part.after part.rest (s.issued.map (·.2))

/-- While no call is under way, the host holds nothing, or what a connected client holds. -/
theorem Tells.host (h : s.Tells part) (quiet : ∀ c ∈ s.clients, c.pending = []) :
    s.host part = part.rest ∨ ∃ c ∈ s.clients, c.released = false ∧ s.host part = part.holds c.input := by
  cases hlatest : latest part.said (s.issued.map (·.2)) with
  | none => exact .inl (by rw [SinkHID.host, HIDPart.after, hlatest]; rfl)
  | some held =>
    have hhost : s.host part = held := by rw [SinkHID.host, HIDPart.after, hlatest]; rfl
    obtain ⟨i, hown⟩ := exists_latest_own hlatest
    have hne : own i s.issued ≠ [] := by
      intro hnil
      rw [hnil] at hown
      cases hown
    obtain ⟨request, hrequest⟩ := List.exists_mem_of_ne_nil _ hne
    obtain ⟨entry, hentry, -⟩ := List.mem_map.mp hrequest
    obtain ⟨hentry, hparty⟩ := List.mem_filter.mp hentry
    have hlt : i < s.clients.length := of_decide_eq_true hparty ▸ h.known entry hentry
    have hc : s.clients[i]? = some s.clients[i] := List.getElem?_eq_getElem hlt
    have htold := (h.client i _ hc).told
    rw [quiet _ (List.getElem_mem hlt), List.append_nil, HIDPart.after, hown, Option.getD_some] at htold
    cases hleft : s.clients[i].released with
    | true =>
      rw [hleft] at htold
      exact .inl (hhost.trans htold)
    | false =>
      rw [hleft] at htold
      exact .inr ⟨_, List.getElem_mem hlt, hleft, hhost.trans htold⟩

end

/-- However the events, the calls of the controller and the departures of the clients interleave: while no call is under
    way, the keys that the host holds are none or the report of a connected client, and so for the buttons of the absolute
    mouse. Once all clients have left, the host holds no key and no such button. The relative mouse keeps the buttons of
    the last step of the wheel. -/
theorem host_holds_client {controller : Bool} {actions : List SinkHIDAction} {s : SinkHID}
    (h : run step { controller } actions = some s) (quiet : ∀ c ∈ s.clients, c.pending = []) :
    (s.host .keyboard = (0, []) ∨
      ∃ c ∈ s.clients, c.released = false ∧ s.host .keyboard = (c.input.modifiers, c.input.reportKeys)) ∧
    (s.host .buttons = 0 ∨ ∃ c ∈ s.clients, c.released = false ∧ s.host .buttons = c.input.buttons) ∧
    ((∀ c ∈ s.clients, c.released = true) → s.host .keyboard = (0, []) ∧ s.host .buttons = 0) := by
  have hkeyboard := (run_tells HIDPart.reported_keyboard h).host quiet
  have hbuttons := (run_tells HIDPart.reported_buttons h).host quiet
  refine ⟨hkeyboard, hbuttons, fun hleft => ⟨hkeyboard.resolve_right ?_, hbuttons.resolve_right ?_⟩⟩
  · rintro ⟨c, hc, hopen, -⟩
    exact Bool.false_ne_true (hopen.symm.trans (hleft c hc))
  · rintro ⟨c, hc, hopen, -⟩
    exact Bool.false_ne_true (hopen.symm.trans (hleft c hc))

/-- One client holds a key and the other one scrolls with a button down; then both leave. -/
def twoInputs : List SinkHIDAction :=
  [.connect 640 480, .connect 640 480, .call 0 (.key true 0x61), .call 1 (.pointer 0x09 5 5), .send 1, .send 0, .send 1,
    .call 1 .release, .send 1, .call 0 .release, .send 0]

/-- The last report to the relative mouse still has the button. -/
theorem host_holds_client_two : ∃ s, run step { controller := true } twoInputs = some s ∧ s.host .keyboard = (0, []) ∧
    s.host .buttons = 0 ∧ (1, .mouse 1 1) ∈ s.issued := by
  have hrun : ((run step { controller := true } twoInputs).map fun s =>
      (s.clients.map fun c => (c.pending, c.released), s.issued.contains (1, .mouse 1 1))) =
        some ([([], true), ([], true)], true) := by decide +kernel
  obtain ⟨s, hs, hstate⟩ := Option.map_eq_some_iff.mp hrun
  simp only [Prod.mk.injEq, List.contains_iff_mem] at hstate
  obtain ⟨hclients, hmouse⟩ := hstate
  have hall (c : SinkInputClient) (hc : c ∈ s.clients) : (c.pending, c.released) = ([], true) := by
    have hmem : (c.pending, c.released) ∈ s.clients.map fun c => (c.pending, c.released) := List.mem_map_of_mem hc
    rw [hclients] at hmem
    simpa using hmem
  obtain ⟨-, -, hrest⟩ := host_holds_client hs fun c hc => congrArg Prod.fst (hall c hc)
  obtain ⟨hkeyboard, hbuttons⟩ := hrest fun c hc => congrArg Prod.snd (hall c hc)
  exact ⟨s, hs, hkeyboard, hbuttons, hmouse⟩

end SinkHID

end OnekvmVnc
