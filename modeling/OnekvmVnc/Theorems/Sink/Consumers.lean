import OnekvmVnc.Theorems.Sink.Moves

/-! The counters of the sink count its viewers, at most one JPEG encoder is installed, and the others are closed.
    A client that looks for an encoder, or installs one, holds `jpegMu`, so no other does. -/

namespace OnekvmVnc

open Parties Transition

/-- The client holds `jpegMu`. -/
def SinkClient.HoldsJPEG (c : SinkClient) : Prop :=
  ∃ target stage caller, c.place = .switching target stage caller ∧ stage ≠ .begin ∧ (c.encoding = .jpeg ∨ target = .jpeg)

/-- The client is about to call the factory. -/
def SinkClient.Creates (c : SinkClient) : Prop := ∃ target caller, c.place = .switching target .create caller

section
variable {cfg : SinkConfig} {s t : Sink} {i : Nat} {c c' : SinkClient}

theorem SinkClient.Creates.holdsJPEG (h : c.Creates) (coherent : c.Coherent) : c.HoldsJPEG := by
  obtain ⟨target, caller, hplace⟩ := h
  exact ⟨target, .create, caller, hplace, nofun, .inr (coherent.stage _ _ _ hplace (.inr rfl))⟩

theorem SinkClient.not_holdsJPEG_switched {target : ClientEncoding} {caller : SwitchCaller} :
    ¬ (switched target caller).HoldsJPEG := by
  rintro ⟨_, _, _, hplace, -⟩
  simp only [switched] at hplace
  split at hplace <;> cases hplace

theorem SinkClient.not_holdsJPEG_failed {caller : SwitchCaller} : ¬ (c.failed caller).HoldsJPEG := by
  rintro ⟨_, _, _, hplace, hstage, -⟩
  cases caller <;> cases hplace <;> exact hstage rfl

namespace ClientMove

/-- A client that moves has not returned. -/
theorem not_returned (move : ClientMove cfg s i c t c') : c.place ≠ .returned := by
  cases move <;> simp [*]

theorem started (move : ClientMove cfg s i c t c') : t.started = s.started ∧ t.stopping = s.stopping := by
  cases move with
  | counted hplace =>
    obtain ⟨_, _, _, _, _, ht⟩ := s.countSwitch_fst c _ _
    rw [ht]
    exact ⟨rfl, rfl⟩
  | _ => exact ⟨rfl, rfl⟩

/-- `jpegMu` is taken when it is free, and released by the client that holds it. -/
theorem mutex (move : ClientMove cfg s i c t c') (coherent : c.Coherent) :
    t.jpegMu = s.jpegMu ∨ s.jpegMu = none ∧ t.jpegMu = some i ∨ c.HoldsJPEG ∧ t.jpegMu = none := by
  cases move with
  | locked hplace needs free => exact .inr (.inl ⟨free, rfl⟩)
  | failed hplace | discarded hplace =>
    exact .inr (.inr ⟨SinkClient.Creates.holdsJPEG ⟨_, _, hplace⟩ coherent, rfl⟩)
  | @counted target caller hplace =>
    by_cases hneeds : c.encoding = .jpeg ∨ target = .jpeg
    · exact .inr (.inr ⟨⟨_, _, _, hplace, nofun, hneeds⟩, if_pos hneeds⟩)
    · refine .inl ((if_neg hneeds).trans ?_)
      cases c.encoding <;> cases target <;> rfl
  | _ => exact .inl rfl

/-- A client that holds `jpegMu` after its step has taken it, or held it before. -/
theorem holdsJPEG (move : ClientMove cfg s i c t c') (h : c'.HoldsJPEG) :
    t.jpegMu = some i ∨ c.HoldsJPEG ∧ t.jpegMu = s.jpegMu := by
  cases move with
  | locked hplace needs free => exact .inl rfl
  | settled hplace | counted hplace => exact absurd h SinkClient.not_holdsJPEG_switched
  | failed hplace | discarded hplace => exact absurd h SinkClient.not_holdsJPEG_failed
  | unlocked hplace needs =>
    obtain ⟨_, _, _, hplace', -, hneeds⟩ := h
    cases hplace'
    exact absurd hneeds needs
  | found hplace | missed hplace | installed hplace =>
    obtain ⟨_, _, _, hplace', -, hneeds⟩ := h
    cases hplace'
    exact .inr ⟨⟨_, _, _, hplace, nofun, hneeds⟩, rfl⟩
  | asked hplace fits =>
    obtain ⟨_, _, _, hplace', hstage, -⟩ := h
    cases hplace'
    exact absurd rfl hstage
  | refused hplace =>
    obtain ⟨_, _, _, hplace', -⟩ := h
    cases hplace'
  | joined hplace | demanded active hplace | left hplace =>
    obtain ⟨_, _, _, hplace', -⟩ := h
    dsimp only at hplace'
    split at hplace' <;> cases hplace'

/-- An encoder is installed by a client that looked for one, and any other that the factory returns is closed. -/
theorem encoder (move : ClientMove cfg s i c t c') :
    (t.jpegEncoder = s.jpegEncoder ∧ t.installs = s.installs ∧
      (t.created = s.created ∧ t.closed = s.closed ∨ t.created = s.created + 1 ∧ t.closed = s.closed ++ [s.created])) ∨
    c.Creates ∧ t.jpegEncoder = some s.created ∧ t.installs = s.installs + 1 ∧ t.created = s.created + 1 ∧
      t.closed = s.closed := by
  cases move with
  | discarded hplace => exact .inl ⟨rfl, rfl, .inr ⟨rfl, rfl⟩⟩
  | installed hplace => exact .inr ⟨⟨_, _, hplace⟩, rfl, rfl, rfl, rfl⟩
  | counted hplace =>
    obtain ⟨_, _, _, _, _, ht⟩ := s.countSwitch_fst c _ _
    rw [ht]
    exact .inl ⟨rfl, rfl, .inl ⟨rfl, rfl⟩⟩
  | _ => exact .inl ⟨rfl, rfl, .inl ⟨rfl, rfl⟩⟩

/-- A client that is about to call the factory after its step has just found no encoder. -/
theorem creates (move : ClientMove cfg s i c t c') (h : c'.Creates) : t.jpegEncoder = none := by
  obtain ⟨target', caller', hplace'⟩ := h
  cases move with
  | missed hplace none => exact none
  | @failed target caller hplace | @discarded target caller hplace => cases caller <;> cases hplace'
  | settled hplace | counted hplace =>
    simp only [SinkClient.switched] at hplace'
    split at hplace' <;> cases hplace'
  | locked | joined | demanded | left =>
    dsimp only at hplace'
    split at hplace' <;> cases hplace'
  | refused | asked | unlocked | found | installed => cases hplace'

end ClientMove

/-- Of the encoders that the factory returned, the installed one is open and the others are closed. -/
structure Disposed (encoder : Option Nat) (created : Nat) (closed : List Nat) : Prop where
  disposed : ∀ k < created, encoder = some k ∨ k ∈ closed
  installed : ∀ k, encoder = some k → k < created ∧ k ∉ closed
  closed : ∀ k ∈ closed, k < created

namespace Disposed
variable {encoder : Option Nat} {created : Nat} {closed : List Nat}

/-- The factory returns an encoder that is closed. -/
theorem discard (h : Disposed encoder created closed) : Disposed encoder (created + 1) (closed ++ [created]) where
  disposed k hk := by
    rcases Nat.lt_or_eq_of_le (Nat.le_of_lt_succ hk) with hlt | rfl
    · exact (h.disposed k hlt).imp_right (List.mem_append_left _)
    · exact .inr (by simp)
  installed k hk := by
    obtain ⟨hlt, hopen⟩ := h.installed k hk
    refine ⟨Nat.lt_succ_of_lt hlt, fun hmem => ?_⟩
    rcases List.mem_append.mp hmem with hmem | hmem
    · exact hopen hmem
    · exact absurd (List.mem_singleton.mp hmem) (Nat.ne_of_lt hlt)
  closed k hk := by
    rcases List.mem_append.mp hk with hk | hk
    · exact Nat.lt_succ_of_lt (h.closed k hk)
    · exact (List.mem_singleton.mp hk) ▸ Nat.lt_succ_self created

/-- The factory returns an encoder that is installed. -/
theorem install (h : Disposed none created closed) : Disposed (some created) (created + 1) closed where
  disposed k hk := by
    rcases Nat.lt_or_eq_of_le (Nat.le_of_lt_succ hk) with hlt | rfl
    · exact .inr ((h.disposed k hlt).resolve_left nofun)
    · exact .inl rfl
  installed k hk := by
    obtain rfl := Option.some.inj hk
    exact ⟨Nat.lt_succ_self _, fun hmem => Nat.lt_irrefl _ (h.closed _ hmem)⟩
  closed k hk := Nat.lt_succ_of_lt (h.closed k hk)

/-- The installed encoder is taken and closed. -/
theorem take (h : Disposed encoder created closed) : Disposed none created (closed ++ encoder.toList) where
  disposed k hk := by
    rcases h.disposed k hk with rfl | hmem
    · exact .inr (by simp)
    · exact .inr (List.mem_append_left _ hmem)
  installed := nofun
  closed k hk := by
    rcases List.mem_append.mp hk with hk | hk
    · exact h.closed k hk
    · exact (h.installed k (Option.mem_toList.mp hk)).1

end Disposed

namespace Sink

/-- The encoders, and who looks for one. -/
structure Encoders (s : Sink) : Prop where
  mutex : ∀ i c, s.clients[i]? = some c → c.HoldsJPEG → s.jpegMu = some i
  creates : ∀ c ∈ s.clients, c.Creates → s.jpegEncoder = none
  disposed : Disposed s.jpegEncoder s.created s.closed
  stopping : s.stopping = true → s.started = false
  idle : s.started = false → s.stopping = false → (∀ c ∈ s.clients, c.place = .returned) ∧ s.jpegEncoder = none
  installs : s.installs ≤ 1
  first : s.jpegEncoder = none → s.installs = 0 ∨ s.started = false ∧ s.stopping = false

namespace Encoders

theorem start : Encoders {} where
  mutex i c hc := by cases hc
  creates c hc := by cases hc
  disposed := ⟨nofun, nofun, nofun⟩
  stopping := nofun
  idle _ _ := ⟨fun c hc => absurd hc List.not_mem_nil, rfl⟩
  installs := Nat.zero_le 1
  first _ := .inl rfl

/-- Who holds `jpegMu` after a step of a client. -/
theorem mutex_moved (h : s.Encoders) (coherent : c.Coherent) (hc : s.clients[i]? = some c)
    (move : ClientMove cfg s i c t c') {j : Nat} {d : SinkClient} (hd : (s.clients.set i c')[j]? = some d)
    (hholds : d.HoldsJPEG) : t.jpegMu = some j := by
  rcases getElem?_move hd with ⟨rfl, rfl⟩ | ⟨hne, hd⟩
  · rcases move.holdsJPEG hholds with ht | ⟨hc', ht⟩
    · exact ht
    · exact ht.trans (h.mutex j c hc hc')
  · -- Another client holds `jpegMu`, so the one that moves neither takes nor releases it.
    have hs := h.mutex j d hd hholds
    rcases move.mutex coherent with ht | ⟨hfree, -⟩ | ⟨hc', -⟩
    · exact ht.trans hs
    · rw [hs] at hfree
      cases hfree
    · rw [h.mutex i c hc hc'] at hs
      exact absurd (Option.some.inj hs).symm hne

/-- Whoever is about to call the factory is alone. -/
theorem creates_alone (h : s.Encoders) (coherent : ∀ d ∈ s.clients, d.Coherent) (hc : s.clients[i]? = some c)
    (hcreates : c.Creates) {j : Nat} {d : SinkClient} (hd : s.clients[j]? = some d) (hd' : d.Creates) : j = i := by
  have hi := h.mutex i c hc (hcreates.holdsJPEG (coherent c (List.mem_of_getElem? hc)))
  have hj := h.mutex j d hd (hd'.holdsJPEG (coherent d (List.mem_of_getElem? hd)))
  rw [hi] at hj
  exact (Option.some.inj hj).symm

theorem moved (h : s.Encoders) (coherent : ∀ d ∈ s.clients, d.Coherent) (hc : s.clients[i]? = some c)
    (move : ClientMove cfg s i c t c') : Encoders { t with clients := s.clients.set i c' } := by
  have hmem : c ∈ s.clients := List.mem_of_getElem? hc
  have hcoherent := coherent c hmem
  have hbusy : ¬ (s.started = false ∧ s.stopping = false) := fun ⟨hstarted, hstopping⟩ =>
    move.not_returned ((h.idle hstarted hstopping).1 c hmem)
  have hbusy' : ¬ (t.started = false ∧ t.stopping = false) := by rwa [move.started.1, move.started.2]
  have hstopping : t.stopping = true → t.started = false := by
    rw [move.started.1, move.started.2]
    exact h.stopping
  rcases move.encoder with ⟨hencoder, hinstalls, hreturned⟩ | ⟨hcreates, hencoder, hinstalls, hcreated, hclosed⟩
  · refine ⟨fun _ _ => h.mutex_moved hcoherent hc move, fun d hd hd' => ?_, ?_, hstopping,
      fun hstarted hstopping => absurd ⟨hstarted, hstopping⟩ hbusy', hinstalls ▸ h.installs, fun hnone => ?_⟩
    · rcases List.mem_or_eq_of_mem_set hd with hd | rfl
      · exact hencoder.trans (h.creates d hd hd')
      · exact move.creates hd'
    · dsimp only
      rcases hreturned with ⟨hcreated, hclosed⟩ | ⟨hcreated, hclosed⟩ <;> rw [hencoder, hcreated, hclosed]
      · exact h.disposed
      · exact h.disposed.discard
    · exact .inl (hinstalls.trans ((h.first (hencoder.symm.trans hnone)).resolve_right hbusy))
  · -- An encoder is installed: there was none, and nobody else is about to call the factory.
    have hnone := h.creates c hmem hcreates
    refine ⟨fun _ _ => h.mutex_moved hcoherent hc move, fun d hd hd' => ?_, ?_, hstopping,
      fun hstarted hstopping => absurd ⟨hstarted, hstopping⟩ hbusy', ?_, fun hnone' => ?_⟩
    · obtain ⟨j, hj⟩ := List.mem_iff_getElem?.mp hd
      rcases getElem?_move hj with ⟨rfl, rfl⟩ | ⟨hne, hj⟩
      · exact move.creates hd'
      · exact absurd (h.creates_alone coherent hc hcreates hj hd') hne
    · dsimp only
      rw [hencoder, hcreated, hclosed]
      have hdisposed := h.disposed
      rw [hnone] at hdisposed
      exact hdisposed.install
    · have hfirst := (h.first hnone).resolve_right hbusy
      dsimp only
      omega
    · rw [show t.jpegEncoder = none from hnone'] at hencoder
      cases hencoder

theorem step (h : s.Encoders) (coherent : ∀ d ∈ s.clients, d.Coherent) (hstep : SinkStep cfg s t) : t.Encoders := by
  cases hstep with
  | moved hc move => exact h.moved coherent hc move
  | ignored => exact h
  | wrote | appended => exact ⟨h.mutex, h.creates, h.disposed, h.stopping, h.idle, h.installs, h.first⟩
  | started hstarted hstopping =>
    refine ⟨h.mutex, h.creates, h.disposed, fun hstop => ?_, nofun, Nat.zero_le 1, fun _ => .inl rfl⟩
    rw [show s.stopping = true from hstop] at hstopping
    cases hstopping
  | stopped hstarted =>
    refine ⟨h.mutex, h.creates, h.disposed, fun _ => rfl, nofun, h.installs, fun hnone => .inl ?_⟩
    exact (h.first hnone).resolve_right fun hidle => by simp [hstarted] at hidle
  | accepted hstarted =>
    refine ⟨fun j d hd hholds => ?_, fun d hd hcreates => ?_, h.disposed, h.stopping, fun hidle => ?_, h.installs, h.first⟩
    · rw [List.getElem?_append] at hd
      split at hd
      · exact h.mutex j d hd hholds
      · obtain ⟨_, _, _, hplace, -⟩ := hholds
        obtain rfl := List.mem_singleton.mp (List.mem_of_getElem? hd)
        cases hplace
    · rcases List.mem_append.mp hd with hd | hd
      · exact h.creates d hd hcreates
      · obtain ⟨_, _, hplace⟩ := hcreates
        obtain rfl := List.mem_singleton.mp hd
        cases hplace
    · rw [show s.started = false from hidle] at hstarted
      cases hstarted
  | tornDown hstopping hreturned =>
    have hidle (d : SinkClient) (hd : d ∈ s.clients) (target : ClientEncoding) (stage : SwitchStage)
        (caller : SwitchCaller) : d.place ≠ .switching target stage caller := by
      rw [hreturned d hd]
      nofun
    refine ⟨fun j d hd hholds => ?_, fun _ _ _ => rfl, h.disposed.take, nofun, fun _ _ => ⟨hreturned, rfl⟩,
      h.installs, fun _ => .inr ⟨h.stopping hstopping, rfl⟩⟩
    obtain ⟨_, _, _, hplace, -⟩ := hholds
    exact absurd hplace (hidle d (List.mem_of_getElem? hd) _ _ _)

end Encoders

theorem run_encoders {actions : List SinkAction} (h : run (step cfg) {} actions = some t) : t.Encoders := by
  have hboth : t.Accounts ∧ t.Encoders :=
    run_invariant (P := fun u => u.Accounts ∧ u.Encoders) ⟨.start, .start⟩
      (fun _ _ _ hu ha => ⟨hu.1.step (.of_step ha), hu.2.step hu.1.coherent (.of_step ha)⟩) h
  exact hboth.2

end Sink

/-! ### A switch that does not complete -/

/-- A step of a switch to JPEG after which the client is not back in its loop, and so has not switched, changes
    no counter, and no encoding of the client. -/
theorem ClientMove.unswitched (move : ClientMove cfg s i c t c') (coherent : c.Coherent) {stage : SwitchStage}
    {caller : SwitchCaller} (hplace : c.place = .switching .jpeg stage caller) (hloop : c'.place ≠ .loop) :
    (∀ m, t.counter m = s.counter m) ∧ t.consumers = s.consumers ∧ c'.encoding = c.encoding ∧ c'.mode = c.mode := by
  have hopen : caller ≠ .close := fun hclose => by cases (coherent.fits _ _ _ hplace).close.mp hclose
  have hswitched (target : ClientEncoding) : (SinkClient.switched target caller).place = .loop := if_neg hopen
  have hkept {mu : Option Nat} {m : ClientEncoding} : { s with jpegMu := mu }.counter m = s.counter m := by cases m <;> rfl
  cases move with
  | refused h | joined h | demanded _ h | asked h | left h => simp [hplace] at h
  | settled h | counted h =>
    obtain ⟨-, -, rfl⟩ := ClientPlace.switching.inj (hplace.symm.trans h)
    exact absurd (hswitched _) hloop
  | locked => exact ⟨fun m => hkept, rfl, rfl, rfl⟩
  | unlocked | found | missed => exact ⟨fun m => rfl, rfl, rfl, rfl⟩
  | failed h | discarded h =>
    rw [hplace] at h
    cases h
    refine ⟨fun m => by cases m <;> rfl, rfl, ?_, SinkClient.failed_mode⟩
    cases caller with
    | close => exact absurd rfl hopen
    | _ => rfl
  | installed => exact ⟨fun m => by cases m <;> rfl, rfl, rfl, rfl⟩

/-! ### The viewers -/

/-- The client is in `Close`, or has yet to leave. -/
def SinkClient.closing (c : SinkClient) : Bool :=
  match c.place with
  | .switching _ _ .close | .closed => true
  | _ => false

/-- The three modes count every client that has one. -/
theorem Sink.Accounts.sum (h : s.Accounts) :
    s.rawConsumers + s.jpegConsumers + s.h264Consumers = tally s.clients (·.mode ≠ .none) := by
  have hraw : s.rawConsumers = tally s.clients (·.mode = .raw) := h.counter .raw nofun
  have hjpeg : s.jpegConsumers = tally s.clients (·.mode = .jpeg) := h.counter .jpeg nofun
  have hh264 : s.h264Consumers = tally s.clients (·.mode = .h264) := h.counter .h264 nofun
  calc s.rawConsumers + s.jpegConsumers + s.h264Consumers
    _ = tally s.clients (fun c => decide (c.mode = .raw) || decide (c.mode = .jpeg) || decide (c.mode = .h264)) := by
      rw [tally_or, tally_or, hraw, hjpeg, hh264]
      · intro c _ hc
        simp only [decide_eq_true_eq] at hc
        simp [hc]
      · intro c _ hc
        simp only [Bool.or_eq_true, decide_eq_true_eq] at hc
        rcases hc with hc | hc <;> simp [hc]
    _ = _ := tally_congr fun c _ => by cases c.mode <;> rfl

theorem SinkClient.Coherent.counted (h : c.Coherent) (hmode : c.mode ≠ .none) : c.place.counted = true := by
  rw [h.mode, ne_eq, h.encoding, Bool.not_eq_false] at hmode
  cases hplace : c.place <;> simp_all [ClientPlace.counted, ClientPlace.active]

theorem SinkClient.Coherent.mode_ne (h : c.Coherent) (hcounted : c.place.counted = true) (hclosing : c.closing = false) :
    c.mode ≠ .none := by
  rw [h.mode, ne_eq, h.encoding, Bool.not_eq_false]
  cases hplace : c.place <;> simp_all [ClientPlace.counted, SinkClient.closing]

/-- What the counters and the encoders say of the clients. -/
structure Sink.Accounted (cfg : SinkConfig) (s : Sink) : Prop where
  raw : s.rawConsumers = s.clients.countP (·.mode = .raw)
  jpeg : s.jpegConsumers = s.clients.countP (·.mode = .jpeg)
  h264 : s.h264Consumers = s.clients.countP (·.mode = .h264)
  nonneg : 0 ≤ s.rawConsumers ∧ 0 ≤ s.jpegConsumers ∧ 0 ≤ s.h264Consumers
  sum_le : s.rawConsumers + s.jpegConsumers + s.h264Consumers ≤ s.consumers
  sum_eq : (∀ c ∈ s.clients, c.closing = false) → s.rawConsumers + s.jpegConsumers + s.h264Consumers = s.consumers
  /-- A step of a switch to JPEG that does not complete it, as none does of a switch that fails. -/
  failed : ∀ i action t c c' stage caller, s.step cfg (.client i action) = some t → s.clients[i]? = some c →
    c.place = .switching .jpeg stage caller → t.clients[i]? = some c' → c'.place ≠ .loop →
      t.rawConsumers = s.rawConsumers ∧ t.jpegConsumers = s.jpegConsumers ∧ t.h264Consumers = s.h264Consumers ∧
      t.consumers = s.consumers ∧ t.clients.map (·.encoding) = s.clients.map (·.encoding)
  installs : s.installs ≤ 1
  /-- The encoder in use is open, and every other one that the factory returned is closed. -/
  encoders : ∀ k < s.created, s.jpegEncoder = some k ∧ k ∉ s.closed ∨ s.jpegEncoder ≠ some k ∧ k ∈ s.closed
  returned : (∀ c ∈ s.clients, c.place = .returned) →
    s.consumers = 0 ∧ s.rawConsumers = 0 ∧ s.jpegConsumers = 0 ∧ s.h264Consumers = 0

/-- In every state that the sink reaches, its counters count the viewers by the encoding they last switched to,
    a failed switch leaves no trace in them, and of the JPEG encoders at most one is installed. -/
theorem consumers_accounted (cfg : SinkConfig) (actions : List SinkAction) (s : Sink)
    (h : run (Sink.step cfg) {} actions = some s) : s.Accounted cfg := by
  have haccounts := Sink.run_accounts h
  have hencoders := Sink.run_encoders h
  have hraw : s.rawConsumers = tally s.clients (·.mode = .raw) := haccounts.counter .raw nofun
  have hjpeg : s.jpegConsumers = tally s.clients (·.mode = .jpeg) := haccounts.counter .jpeg nofun
  have hh264 : s.h264Consumers = tally s.clients (·.mode = .h264) := haccounts.counter .h264 nofun
  refine ⟨hraw, hjpeg, hh264, ⟨?_, ?_, ?_⟩, ?_, fun hclosing => ?_, ?_, hencoders.installs, fun k hk => ?_,
    fun hreturned => ?_⟩
  · exact hraw ▸ tally_nonneg
  · exact hjpeg ▸ tally_nonneg
  · exact hh264 ▸ tally_nonneg
  · rw [haccounts.sum, haccounts.consumers]
    exact tally_le fun c hc hmode => (haccounts.coherent c hc).counted (of_decide_eq_true hmode)
  · rw [haccounts.sum, haccounts.consumers]
    refine tally_congr fun c hc => ?_
    have hcoherent := haccounts.coherent c hc
    rw [Bool.eq_iff_iff, decide_eq_true_eq]
    exact ⟨hcoherent.counted, fun hcounted => hcoherent.mode_ne hcounted (hclosing c hc)⟩
  · intro i action t c c' stage caller hstep hc hplace hc' hloop
    simp only [Sink.step, hc, Option.map_eq_some_iff] at hstep
    obtain ⟨⟨u, d⟩, hmove, rfl⟩ := hstep
    rw [List.getElem?_set_self (List.getElem?_eq_some_iff.mp hc).1] at hc'
    obtain rfl := Option.some.inj hc'
    have hcoherent := haccounts.coherent c (List.mem_of_getElem? hc)
    obtain ⟨hcounter, hconsumers, hencoding, -⟩ := (ClientMove.of_clientStep hmove).unswitched hcoherent hplace hloop
    exact ⟨hcounter .raw, hcounter .jpeg, hcounter .h264, hconsumers, map_move hc hencoding⟩
  · rcases hencoders.disposed.disposed k hk with hinstalled | hclosed
    · exact .inl ⟨hinstalled, (hencoders.disposed.installed k hinstalled).2⟩
    · exact .inr ⟨fun hinstalled => (hencoders.disposed.installed k hinstalled).2 hclosed, hclosed⟩
  · have hplace (c : SinkClient) (hc : c ∈ s.clients) : c.mode = .none := by
      have hcoherent := haccounts.coherent c hc
      rw [hcoherent.mode, hcoherent.encoding, hreturned c hc]
      rfl
    rw [haccounts.consumers, hraw, hjpeg, hh264]
    refine ⟨tally_eq_zero.mpr fun c hc => ?_, tally_eq_zero.mpr fun c hc => ?_, tally_eq_zero.mpr fun c hc => ?_,
      tally_eq_zero.mpr fun c hc => ?_⟩
    · rw [hreturned c hc]
      rfl
    · simp [hplace c hc]
    · simp [hplace c hc]
    · simp [hplace c hc]

end

/-- A sink with an H.264 stream and a JPEG encoder of its own. -/
def viewerConfig : SinkConfig := { codecH264 := true, jpegEncoder := true, jpegInput := false, onDemandChange := true }

/-- The factory fails for the first viewer, which falls back to H.264; the second one gets JPEG, and the first leaves. -/
def viewerActions : List SinkAction :=
  [.start, .accept, .accept, .client 0 .join, .client 0 .demandChange, .client 0 (.setEncodings [encTight, h264EncodingType]),
    .client 0 .begin, .client 0 .read, .client 0 (.create .failed), .client 0 .begin, .client 0 .count, .client 1 .join,
    .client 1 (.setEncodings [encTight]), .client 1 .begin, .client 1 .read, .client 1 (.create .created), .client 1 .count,
    .client 0 .disconnect, .client 0 .begin, .client 0 .count, .client 0 .leave]

theorem consumers_accounted_fallback : ∃ s, run (Sink.step viewerConfig) {} viewerActions = some s ∧
    (s.consumers, s.rawConsumers, s.jpegConsumers, s.h264Consumers, s.jpegEncoder) = (1, 0, 1, 0, some 0) ∧
    s.Accounted viewerConfig := by
  obtain ⟨s, hs, hcounters⟩ := Option.map_eq_some_iff.mp
    (show (run (Sink.step viewerConfig) {} viewerActions).map
      (fun s => (s.consumers, s.rawConsumers, s.jpegConsumers, s.h264Consumers, s.jpegEncoder)) = some (1, 0, 1, 0, some 0)
      by decide +kernel)
  exact ⟨s, hs, hcounters, consumers_accounted viewerConfig viewerActions s hs⟩

end OnekvmVnc
