import OnekvmVnc.Lib.Parties
import OnekvmVnc.Lib.Transition
import OnekvmVnc.Sink.Consumers

/-! What one step of a client does to itself and to what it shares, and what the counters make of it. -/

namespace OnekvmVnc

open Parties

/-- The place of a client that is served: `Close` has not returned. -/
def ClientPlace.active : ClientPlace → Bool
  | .owes active => active
  | .loop | .switching .. => true
  | .handshake | .closed | .returned => false

/-- The client is counted in `consumers`. -/
def ClientPlace.counted : ClientPlace → Bool
  | .closed => true
  | place => place.active

/-- The switches that `runClient` asks for. `Close` switches to `clientEncodingNone`, and nobody else does. -/
structure SwitchFits (target : ClientEncoding) (caller : SwitchCaller) : Prop where
  close : caller = .close ↔ target = .none
  fallback : caller ≠ .desired .none

/-- A step of client `i`: from `s` and `c` to a new shared state and a new state of the client. -/
inductive ClientMove (cfg : SinkConfig) (s : Sink) (i : Nat) (c : SinkClient) : Sink → SinkClient → Prop where
  | refused (h : c.place = .handshake) : ClientMove cfg s i c s { c with place := .returned }
  | joined (h : c.place = .handshake) : ClientMove cfg s i c
      { s with consumers := s.consumers + 1, rawConsumers := s.rawConsumers + 1 }
      { place := if decide (s.consumers = 0) && cfg.onDemandChange then .owes true else .loop,
        encoding := .raw, mode := .raw }
  | demanded (active : Bool) (h : c.place = .owes active) : ClientMove cfg s i c
      { s with demand := active } { c with place := if active then .loop else .returned }
  | asked {target : ClientEncoding} {caller : SwitchCaller} (h : c.place = .loop) (fits : SwitchFits target caller) :
      ClientMove cfg s i c s { c with place := .switching target .begin caller }
  | settled {caller : SwitchCaller} (h : c.place = .switching c.encoding .begin caller) :
      ClientMove cfg s i c s (.switched c.encoding caller)
  | locked {target : ClientEncoding} {caller : SwitchCaller} (h : c.place = .switching target .begin caller)
      (needs : c.encoding = .jpeg ∨ target = .jpeg) (free : s.jpegMu = none) : ClientMove cfg s i c
      { s with jpegMu := some i }
      { c with place := .switching target (if target = .jpeg then .read else .count) caller }
  | unlocked {target : ClientEncoding} {caller : SwitchCaller} (h : c.place = .switching target .begin caller)
      (needs : ¬ (c.encoding = .jpeg ∨ target = .jpeg)) : ClientMove cfg s i c
      s { c with place := .switching target .count caller }
  | found {target : ClientEncoding} {caller : SwitchCaller} (h : c.place = .switching target .read caller) :
      ClientMove cfg s i c s { c with place := .switching target .count caller }
  | missed {target : ClientEncoding} {caller : SwitchCaller} (h : c.place = .switching target .read caller)
      (none : s.jpegEncoder = none) : ClientMove cfg s i c s { c with place := .switching target .create caller }
  | failed {target : ClientEncoding} {caller : SwitchCaller} (h : c.place = .switching target .create caller) :
      ClientMove cfg s i c { s with jpegMu := none } (c.failed caller)
  | discarded {target : ClientEncoding} {caller : SwitchCaller} (h : c.place = .switching target .create caller) :
      ClientMove cfg s i c
        { s with jpegMu := none, created := s.created + 1, closed := s.closed ++ [s.created] } (c.failed caller)
  | installed {target : ClientEncoding} {caller : SwitchCaller} (h : c.place = .switching target .create caller) :
      ClientMove cfg s i c
        { s with jpegEncoder := some s.created, created := s.created + 1, installs := s.installs + 1 }
        { c with place := .switching target .count caller }
  | counted {target : ClientEncoding} {caller : SwitchCaller} (h : c.place = .switching target .count caller) :
      ClientMove cfg s i c (s.countSwitch c target caller).1 (.switched target caller)
  | left (h : c.place = .closed) : ClientMove cfg s i c { s with consumers := s.consumers - 1 }
      { c with place := if decide (s.consumers - 1 = 0) && cfg.onDemandChange then .owes false else .returned }

section
variable {cfg : SinkConfig} {s t : Sink} {i : Nat} {c c' : SinkClient}

theorem SinkConfig.fallbackEncoding_ne (cfg : SinkConfig) (encodings : List Int) :
    cfg.fallbackEncoding encodings ≠ .none ∧ cfg.fallbackEncoding encodings ≠ .jpeg := by
  unfold fallbackEncoding
  split <;> exact ⟨nofun, nofun⟩

theorem SinkConfig.desiredEncoding_ne (cfg : SinkConfig) (encodings : List Int) :
    cfg.desiredEncoding encodings ≠ .none := by
  unfold desiredEncoding
  split
  · nofun
  · exact (cfg.fallbackEncoding_ne encodings).1

/-- Every step of a client is one of these moves. -/
theorem ClientMove.of_clientStep {action : SinkClientAction} (h : s.clientStep cfg i c action = some (t, c')) :
    ClientMove cfg s i c t c' := by
  cases action with
  | fail =>
    simp only [Sink.clientStep, Option.ite_none_right_eq_some, Option.some.injEq, Prod.mk.injEq] at h
    obtain ⟨hplace, rfl, rfl⟩ := h
    exact .refused hplace
  | join =>
    simp only [Sink.clientStep, Option.ite_none_right_eq_some, Option.some.injEq, Prod.mk.injEq] at h
    obtain ⟨hplace, rfl, rfl⟩ := h
    exact .joined hplace
  | demandChange =>
    simp only [Sink.clientStep] at h
    split at h
    · cases h
      exact .demanded _ ‹_›
    · cases h
  | setEncodings encodings =>
    simp only [Sink.clientStep, Option.ite_none_right_eq_some, Option.some.injEq, Prod.mk.injEq] at h
    obtain ⟨hplace, rfl, rfl⟩ := h
    have hfallback := (cfg.fallbackEncoding_ne encodings).1
    exact .asked hplace ⟨⟨nofun, fun htarget => absurd htarget (cfg.desiredEncoding_ne encodings)⟩,
      fun heq => hfallback (SwitchCaller.desired.inj heq)⟩
  | disconnect =>
    simp only [Sink.clientStep, Option.ite_none_right_eq_some, Option.some.injEq, Prod.mk.injEq] at h
    obtain ⟨hplace, rfl, rfl⟩ := h
    exact .asked hplace ⟨⟨fun _ => rfl, fun _ => rfl⟩, nofun⟩
  | begin =>
    simp only [Sink.clientStep] at h
    split at h
    · rename_i target caller hplace
      unfold Sink.beginSwitch at h
      split at h
      · rename_i heq
        cases h
        subst heq
        exact .settled hplace
      · split at h
        · rename_i hneeds
          simp only [Option.ite_none_right_eq_some, Option.some.injEq, Prod.mk.injEq] at h
          obtain ⟨hfree, rfl, rfl⟩ := h
          exact .locked hplace hneeds hfree
        · cases h
          exact .unlocked hplace ‹_›
    · cases h
  | read =>
    simp only [Sink.clientStep] at h
    split at h
    · rename_i target caller hplace
      cases h
      split
      · rename_i hnone
        exact .missed hplace hnone.1
      · exact .found hplace
    · cases h
  | create result =>
    simp only [Sink.clientStep] at h
    split at h
    · rename_i target caller hplace
      rw [Option.some.injEq] at h
      unfold Sink.createEncoder at h
      split at h
      · cases h
        exact .failed hplace
      · split at h
        · cases h
          exact .discarded hplace
        · cases h
          exact .installed hplace
    · cases h
  | count =>
    simp only [Sink.clientStep] at h
    split at h
    · rename_i target caller hplace
      cases h
      exact .counted hplace
    · cases h
  | leave =>
    simp only [Sink.clientStep, Option.ite_none_right_eq_some, Option.some.injEq, Prod.mk.injEq] at h
    obtain ⟨hplace, rfl, rfl⟩ := h
    exact .left hplace

/-- A step of the sink: one of its own, a client's, or one of `WriteVideo`. -/
inductive SinkStep (cfg : SinkConfig) (s : Sink) : Sink → Prop where
  | started (h : s.started = false) (h' : s.stopping = false) : SinkStep cfg s { s with started := true, installs := 0 }
  | stopped (h : s.started = true) : SinkStep cfg s { s with started := false, stopping := true }
  | tornDown (h : s.stopping = true) (returned : ∀ c ∈ s.clients, c.place = .returned) : SinkStep cfg s
      { s with jpegEncoder := none, closed := s.closed ++ s.jpegEncoder.toList, stopping := false }
  | accepted (h : s.started = true) : SinkStep cfg s { s with clients := s.clients ++ [{}] }
  | moved {i : Nat} {c c' : SinkClient} {t : Sink} (h : s.clients[i]? = some c) (move : ClientMove cfg s i c t c') :
      SinkStep cfg s { t with clients := s.clients.set i c' }
  | wrote {unit : AccessUnit} (h : unit.check = .ok true) (enabled : s.h264Consumers > 0) :
      SinkStep cfg s { s with writes := s.writes ++ [unit] }
  | ignored : SinkStep cfg s s
  | appended {k : Nat} {unit : AccessUnit} (h : s.writes[k]? = some unit) :
      SinkStep cfg s { s with h264 := s.h264.append unit, writes := s.writes.eraseIdx k }

theorem SinkStep.of_step {a : SinkAction} (h : s.step cfg a = some t) : SinkStep cfg s t := by
  cases a with
  | start =>
    simp only [Sink.step, Option.ite_none_right_eq_some, Option.some.injEq] at h
    obtain ⟨⟨hstarted, hstopping⟩, rfl⟩ := h
    exact .started hstarted hstopping
  | stop =>
    simp only [Sink.step, Option.ite_none_right_eq_some, Option.some.injEq] at h
    obtain ⟨hstarted, rfl⟩ := h
    exact .stopped hstarted
  | teardown =>
    simp only [Sink.step, Option.ite_none_right_eq_some, Option.some.injEq] at h
    obtain ⟨⟨hstopping, hreturned, -⟩, rfl⟩ := h
    exact .tornDown hstopping hreturned
  | accept =>
    simp only [Sink.step, Option.ite_none_right_eq_some, Option.some.injEq] at h
    obtain ⟨hstarted, rfl⟩ := h
    exact .accepted hstarted
  | client i action =>
    simp only [Sink.step] at h
    split at h
    · rename_i c hc
      obtain ⟨⟨u, c'⟩, hmove, rfl⟩ := Option.map_eq_some_iff.mp h
      exact .moved hc (.of_clientStep hmove)
    · cases h
  | write unit =>
    obtain rfl := Option.some.inj h
    unfold Sink.beginWrite
    split
    · rename_i hcheck
      split
      · rename_i henabled
        exact .wrote hcheck henabled.2
      · exact .ignored
    · exact .ignored
  | append k =>
    simp only [Sink.step] at h
    split at h
    · rename_i unit hunit
      obtain rfl := Option.some.inj h
      exact .appended hunit
    · cases h

/-! ### The state of one client -/

/-- A client's own encoding is the one it last switched to, and it has one while it is served. -/
structure SinkClient.Coherent (c : SinkClient) : Prop where
  mode : c.mode = c.encoding
  encoding : c.encoding = .none ↔ c.place.active = false
  fits : ∀ target stage caller, c.place = .switching target stage caller → SwitchFits target caller
  stage : ∀ target stage caller, c.place = .switching target stage caller → stage = .read ∨ stage = .create →
    target = .jpeg

namespace SinkClient.Coherent

theorem start : Coherent {} := ⟨rfl, ⟨fun _ => rfl, fun _ => rfl⟩, nofun, nofun⟩

/-- The client goes on with the same encoding to a place where it does not switch. -/
theorem rest (h : c.Coherent) {place : ClientPlace} (active : place.active = c.place.active)
    (rests : ∀ target stage caller, place ≠ .switching target stage caller) : Coherent { c with place } where
  mode := h.mode
  encoding := by
    rw [active]
    exact h.encoding
  fits target stage caller hplace := absurd hplace (rests target stage caller)
  stage target stage caller hplace := absurd hplace (rests target stage caller)

/-- The client goes on with a switch. -/
theorem switching (h : c.Coherent) (active : c.place.active = true) {target : ClientEncoding} {stage : SwitchStage}
    {caller : SwitchCaller} (fits : SwitchFits target caller) (jpeg : stage = .read ∨ stage = .create → target = .jpeg) :
    Coherent { c with place := .switching target stage caller } where
  mode := h.mode
  encoding := by
    rw [h.encoding, active]
    exact Iff.rfl
  fits _ _ _ hplace := by
    cases hplace
    exact fits
  stage _ _ _ hplace := by
    cases hplace
    exact jpeg

theorem switched {target : ClientEncoding} {caller : SwitchCaller} (fits : SwitchFits target caller) :
    Coherent (.switched target caller) := by
  unfold SinkClient.switched
  split
  · rename_i hclose
    exact ⟨rfl, ⟨fun _ => rfl, fun _ => fits.close.mp hclose⟩, nofun, nofun⟩
  · rename_i hclose
    exact ⟨rfl, ⟨fun hnone => absurd (fits.close.mpr hnone) hclose, nofun⟩, nofun, nofun⟩

/-- Only a switch to JPEG fails, so `Close` does not. -/
theorem failed (h : c.Coherent) {target : ClientEncoding} {caller : SwitchCaller}
    (hplace : c.place = .switching target .create caller) : (c.failed caller).Coherent := by
  have hfits := h.fits _ _ _ hplace
  have hactive : c.place.active = true := by rw [hplace, ClientPlace.active]
  cases caller with
  | desired fallback =>
    have hfallback : fallback ≠ .none := fun hnone => hfits.fallback (congrArg SwitchCaller.desired hnone)
    exact h.switching hactive ⟨⟨nofun, fun hnone => absurd hnone hfallback⟩, nofun⟩ (by simp)
  | fallback => exact h.switching hactive ⟨⟨fun _ => rfl, fun _ => rfl⟩, nofun⟩ (by simp)
  | close =>
    have hjpeg := h.stage _ _ _ hplace (.inr rfl)
    rw [hfits.close.mp rfl] at hjpeg
    cases hjpeg

end SinkClient.Coherent

theorem ClientMove.coherent (move : ClientMove cfg s i c t c') (h : c.Coherent) : c'.Coherent := by
  cases move with
  | refused hplace => exact h.rest (by rw [hplace]; rfl) nofun
  | joined hplace =>
    cases decide (s.consumers = 0) && cfg.onDemandChange with
    | true => exact ⟨rfl, ⟨nofun, nofun⟩, nofun, nofun⟩
    | false => exact ⟨rfl, ⟨nofun, nofun⟩, nofun, nofun⟩
  | demanded active hplace =>
    cases active with
    | true => exact h.rest (by rw [hplace]; rfl) nofun
    | false => exact h.rest (by rw [hplace]; rfl) nofun
  | asked hplace fits => exact h.switching (by rw [hplace]; rfl) fits (by simp)
  | settled hplace => exact .switched (h.fits _ _ _ hplace)
  | locked hplace needs free =>
    refine h.switching (by rw [hplace]; rfl) (h.fits _ _ _ hplace) fun hstage => ?_
    by_contra hne
    simp [hne] at hstage
  | unlocked hplace needs => exact h.switching (by rw [hplace]; rfl) (h.fits _ _ _ hplace) (by simp)
  | found hplace => exact h.switching (by rw [hplace]; rfl) (h.fits _ _ _ hplace) (by simp)
  | missed hplace none =>
    exact h.switching (by rw [hplace]; rfl) (h.fits _ _ _ hplace) fun _ => h.stage _ _ _ hplace (.inl rfl)
  | failed hplace => exact h.failed hplace
  | discarded hplace => exact h.failed hplace
  | installed hplace => exact h.switching (by rw [hplace]; rfl) (h.fits _ _ _ hplace) (by simp)
  | counted hplace => exact .switched (h.fits _ _ _ hplace)
  | left hplace =>
    cases decide (s.consumers - 1 = 0) && cfg.onDemandChange with
    | true => exact h.rest (by rw [hplace]; rfl) nofun
    | false => exact h.rest (by rw [hplace]; rfl) nofun

/-! ### The counters -/

/-- The counter of a mode. -/
def Sink.counter (s : Sink) : ClientEncoding → Int
  | .none => 0
  | .raw => s.rawConsumers
  | .jpeg => s.jpegConsumers
  | .h264 => s.h264Consumers

@[simp] theorem Sink.counter_clients {clients : List SinkClient} {m : ClientEncoding} :
    { s with clients }.counter m = s.counter m := by cases m <;> rfl

section
variable {e m : ClientEncoding}

theorem Sink.counter_incrementEncoding (hm : m ≠ .none) :
    (s.incrementEncoding e).counter m = s.counter m + if e = m then 1 else 0 := by
  cases e <;> cases m <;> first | exact absurd rfl hm | simp [Sink.incrementEncoding, Sink.counter]

theorem Sink.counter_decrementEncoding (hm : m ≠ .none) :
    (s.decrementEncoding e).counter m = s.counter m - if e = m then 1 else 0 := by
  cases e <;> cases m <;> first | exact absurd rfl hm | simp [Sink.decrementEncoding, Sink.counter]

theorem Sink.counter_countSwitch {target : ClientEncoding} {caller : SwitchCaller} (hm : m ≠ .none) :
    (s.countSwitch c target caller).1.counter m =
      s.counter m - (if c.encoding = m then 1 else 0) + if target = m then 1 else 0 := by
  calc (s.countSwitch c target caller).1.counter m
    _ = ((s.decrementEncoding c.encoding).incrementEncoding target).counter m := by cases m <;> rfl
    _ = _ := by rw [Sink.counter_incrementEncoding hm, Sink.counter_decrementEncoding hm]

end

/-- A switch leaves everything but the counters, the H.264 buffer and `jpegMu`. -/
theorem Sink.countSwitch_fst (s : Sink) (c : SinkClient) (target : ClientEncoding) (caller : SwitchCaller) :
    ∃ raw jpeg h264 buffer mu, (s.countSwitch c target caller).1 = { s with
      rawConsumers := raw, jpegConsumers := jpeg, h264Consumers := h264, h264 := buffer, jpegMu := mu } := by
  cases hencoding : c.encoding <;> cases target <;>
    simp only [Sink.countSwitch, hencoding, Sink.decrementEncoding, Sink.incrementEncoding] <;> exact ⟨_, _, _, _, _, rfl⟩

@[simp] theorem SinkClient.failed_mode {caller : SwitchCaller} : (c.failed caller).mode = c.mode := by cases caller <;> rfl

@[simp] theorem SinkClient.failed_counted {caller : SwitchCaller} : (c.failed caller).place.counted = true := by
  cases caller <;> rfl

@[simp] theorem SinkClient.switched_counted {target : ClientEncoding} {caller : SwitchCaller} :
    (switched target caller).place.counted = true := by
  unfold switched
  split <;> rfl

/-- A counter follows the mode of the client that moves. -/
theorem ClientMove.counter (move : ClientMove cfg s i c t c') (h : c.Coherent) {m : ClientEncoding} (hm : m ≠ .none) :
    t.counter m = s.counter m - (if c.mode = m then 1 else 0) + if c'.mode = m then 1 else 0 := by
  cases move with
  | joined hplace =>
    have hmode : c.mode = .none := by
      rw [h.mode, h.encoding, hplace]
      rfl
    cases m <;> simp_all [Sink.counter]
  | settled hplace =>
    rw [SinkClient.switched, h.mode]
    exact (Int.sub_add_cancel _ _).symm
  | failed hplace | discarded hplace =>
    rw [SinkClient.failed_mode]
    exact (Int.sub_add_cancel _ _).symm
  | counted hplace =>
    rw [Sink.counter_countSwitch hm, h.mode]
    rfl
  | _ => exact (Int.sub_add_cancel _ _).symm

/-- `consumers` follows the client from its join to its leave. -/
theorem ClientMove.consumers (move : ClientMove cfg s i c t c') :
    t.consumers = s.consumers - (if c.place.counted then 1 else 0) + if c'.place.counted then 1 else 0 := by
  cases move with
  | joined hplace =>
    rw [hplace]
    cases decide (s.consumers = 0) && cfg.onDemandChange <;> simp [ClientPlace.counted, ClientPlace.active]
  | demanded active hplace =>
    rw [hplace]
    cases active <;> simp [ClientPlace.counted, ClientPlace.active]
  | counted hplace =>
    obtain ⟨raw, jpeg, h264, buffer, mu, ht⟩ := s.countSwitch_fst c _ _
    rw [ht, hplace, SinkClient.switched_counted]
    simp [ClientPlace.counted, ClientPlace.active]
  | left hplace =>
    rw [hplace]
    cases decide (s.consumers - 1 = 0) && cfg.onDemandChange <;> simp [ClientPlace.counted, ClientPlace.active]
  | settled hplace =>
    rw [hplace, SinkClient.switched_counted]
    exact (Int.sub_add_cancel _ _).symm
  | failed hplace | discarded hplace =>
    rw [hplace, SinkClient.failed_counted]
    exact (Int.sub_add_cancel _ _).symm
  | refused hplace | asked hplace | locked hplace | unlocked hplace | found hplace | missed hplace | installed hplace =>
    rw [hplace]
    exact (Int.sub_add_cancel _ _).symm

/-- The counters count the clients. -/
structure Sink.Accounts (s : Sink) : Prop where
  coherent : ∀ c ∈ s.clients, c.Coherent
  counter : ∀ m, m ≠ .none → s.counter m = tally s.clients (·.mode = m)
  consumers : s.consumers = tally s.clients (·.place.counted)

namespace Sink.Accounts

theorem start : Accounts {} where
  coherent c hc := by cases hc
  counter m _ := by cases m <;> rfl
  consumers := rfl

theorem step (h : s.Accounts) (hstep : SinkStep cfg s t) : t.Accounts := by
  cases hstep with
  | ignored => exact h
  | started | stopped | tornDown | wrote | appended => exact ⟨h.coherent, h.counter, h.consumers⟩
  | accepted =>
    refine ⟨fun c hc => ?_, fun m hm => ?_, ?_⟩
    · rcases List.mem_append.mp hc with hc | hc
      · exact h.coherent c hc
      · obtain rfl := List.mem_singleton.mp hc
        exact .start
    · rw [tally_concat, ← h.counter m hm]
      cases m <;> first | exact absurd rfl hm | exact (Int.add_zero _).symm
    · rw [tally_concat, ← h.consumers]
      exact (Int.add_zero _).symm
  | @moved i c c' u hc move =>
    have hcoherent := h.coherent c (List.mem_of_getElem? hc)
    refine ⟨forall_move h.coherent (move.coherent hcoherent), fun m hm => ?_, ?_⟩
    · rw [tally_move hc, ← h.counter m hm]
      simpa using move.counter hcoherent hm
    · rw [tally_move hc, ← h.consumers]
      exact move.consumers

end Sink.Accounts

theorem Sink.run_accounts {actions : List SinkAction} (h : Transition.run (Sink.step cfg) {} actions = some t) :
    t.Accounts :=
  Transition.run_invariant .start (fun _ _ _ hu ha => hu.step (.of_step ha)) h

end

end OnekvmVnc
