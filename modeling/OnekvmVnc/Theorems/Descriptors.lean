import OnekvmVnc.Descriptors
import OnekvmVnc.Theorems.Subscription

/-! What `Stop` shuts down. It reads `socket_fd_` and then calls `shutdown`; in between, the worker may take the
    descriptor back and close it, and its number may be given to another thread. If the worker does not close it then,
    `Stop` shuts down the worker's own socket. -/

namespace OnekvmVnc

open Numbering Transition

namespace Subscription
variable {ρ : Type} {s t : Subscription ρ} {w : Worker ρ}

/-- What is in `socket_fd_` is the open socket. -/
theorem Handshake.socket_of_socketFd {stage : ρ → Stage} (h : s.Handshake stage) {fd : Nat}
    (hfd : s.socketFd = some fd) : s.socket = some fd := by
  have hholds {holding : Holding} (holds : s.Holds holding) : s.socket = some fd := by
    cases holding with
    | nothing =>
      rw [holds.2] at hfd
      cases hfd
    | socket =>
      rw [holds.1] at hfd
      cases hfd
    | stored => exact holds.1.symm.trans hfd
  cases hw : s.worker with
  | none => exact hholds (h.idle hw)
  | some pc => exact hholds (h.holds pc hw)

/-- A step of `Start` or `Stop` leaves the socket, and only the load reads its descriptor. -/
theorem step_socket [DecidableEq ρ] {a : SubscriptionAction} (h : step w s a = some t) (ha : ∀ outcome, a ≠ .run outcome) :
    t.socket = s.socket ∧ ∀ fd, t.stopper = .loaded (some fd) → s.stopper = .loaded (some fd) ∨ s.socketFd = some fd := by
  cases a with
  | start =>
    obtain ⟨-, -, rfl⟩ := step_start h
    exact ⟨rfl, fun fd hfd => .inl hfd⟩
  | stop =>
    obtain ⟨-, rfl⟩ := step_stop h
    exact ⟨rfl, fun _ hfd => Stopper.noConfusion hfd⟩
  | load =>
    obtain ⟨-, rfl⟩ := step_load h
    exact ⟨rfl, fun fd hfd => .inr (Stopper.loaded.inj hfd)⟩
  | shutdown =>
    obtain ⟨fd, -, rfl⟩ := step_shutdown h
    exact ⟨rfl, fun _ hfd => Stopper.noConfusion hfd⟩
  | join =>
    obtain ⟨-, rfl⟩ := step_join h
    exact ⟨rfl, fun _ hfd => Stopper.noConfusion hfd⟩
  | run outcome => exact absurd rfl (ha outcome)

/-- What an access does to the socket. -/
theorem access_socket {a : Access} (h : s.access a = some t) : t.stopper = s.stopper ∧
    (t.socket = s.socket ∧ (a = .closed → s.socketFd ≠ s.socket) ∧ (∀ fd, a ≠ .connected fd) ∨
      (∃ fd, a = .connected fd ∧ t.socket = some fd) ∨ a = .closed ∧ s.socketFd = s.socket ∧ t.socket = none) := by
  cases a with
  | checked stopping =>
    simp only [access, Option.ite_none_right_eq_some, Option.some.injEq] at h
    obtain ⟨-, rfl⟩ := h
    exact ⟨rfl, .inl ⟨rfl, Access.noConfusion, fun _ => Access.noConfusion⟩⟩
  | loaded present =>
    simp only [access, Option.ite_none_right_eq_some, Option.some.injEq] at h
    obtain ⟨-, rfl⟩ := h
    exact ⟨rfl, .inl ⟨rfl, Access.noConfusion, fun _ => Access.noConfusion⟩⟩
  | connected fd =>
    cases h
    exact ⟨rfl, .inr (.inl ⟨fd, rfl, rfl⟩)⟩
  | stored | raised | quiet =>
    cases h
    exact ⟨rfl, .inl ⟨rfl, Access.noConfusion, fun _ => Access.noConfusion⟩⟩
  | closed =>
    simp only [access] at h
    split at h
    · rename_i hsame
      cases h
      exact ⟨rfl, .inr (.inr ⟨rfl, hsame, rfl⟩)⟩
    · rename_i hne
      cases h
      exact ⟨rfl, .inl ⟨rfl, fun _ => hne, fun _ => Access.noConfusion⟩⟩

end Subscription

theorem Dial.allows_connected {dial : Dial} {fd : Nat} (h : dial.allows (.connected fd) = true) : dial = .opened fd := by
  cases dial with
  | opened fd' => exact congrArg Dial.opened (Access.connected.inj (of_decide_eq_true h)).symm
  | idle | abandoned => cases h

namespace Descriptors
variable {ρ : Type} {s t : Descriptors ρ} {w : Bool → Worker ρ} {stage : ρ → Stage}

/-- The worker's descriptors are its own, and it has at most one. -/
structure Owned (stage : ρ → Stage) (s : Descriptors ρ) : Prop where
  handshake : s.sub.Handshake fun pc => (stage pc).holdingOnly
  socket : ∀ fd, s.sub.socket = some fd →
    s.table.lookup fd = some .worker ∧ s.closing = none ∧ ∀ fd', s.dial ≠ .opened fd'
  closing : ∀ fd, s.closing = some fd → s.table.lookup fd = some .worker ∧ ∀ fd', s.dial ≠ .opened fd'
  dial : ∀ fd, s.dial = .opened fd → s.table.lookup fd = some .worker

/-- What `Stop` is about to shut down is the worker's. -/
def Loaded (s : Descriptors ρ) : Prop :=
  ∀ fd, s.sub.stopper = .loaded (some fd) → s.sub.socket = some fd ∨ s.closing = some fd

namespace Owned

theorem start (table : Table Owner) : Owned stage ({ table } : Descriptors ρ) := ⟨.start, nofun, nofun, nofun⟩

theorem loaded_own (h : s.Owned stage) (loaded : s.Loaded) {fd : Nat} (hfd : s.sub.stopper = .loaded (some fd)) :
    s.Own fd := by
  have hown := loaded fd hfd
  exact ⟨hown, hown.elim (fun hsocket => (h.socket fd hsocket).1) fun hclosing => (h.closing fd hclosing).1⟩

/-- The table changes, and the worker's descriptors stay. -/
theorem of_table (h : s.Owned stage) {table : Table Owner}
    (keep : ∀ fd, s.table.lookup fd = some .worker → table.lookup fd = some .worker) :
    Owned stage { s with table } :=
  ⟨h.handshake, fun fd hfd => ⟨keep fd (h.socket fd hfd).1, (h.socket fd hfd).2⟩,
    fun fd hfd => ⟨keep fd (h.closing fd hfd).1, (h.closing fd hfd).2⟩, fun fd hfd => keep fd (h.dial fd hfd)⟩

/-- A step of `Start` or `Stop`. -/
theorem of_move [DecidableEq ρ] (staged : ∀ events, Staged (w events) stage) (h : s.Owned stage) {events : Bool}
    {a : SubscriptionAction} (hmove : s.move w events a = some t) (ha : ∀ outcome, a ≠ .run outcome) :
    t.Owned stage ∧ (s.Loaded → t.Loaded) := by
  obtain ⟨sub, hsub, rfl⟩ := Option.map_eq_some_iff.mp hmove
  obtain ⟨hsocket, hloaded⟩ := Subscription.step_socket hsub ha
  refine ⟨⟨h.handshake.step (staged events).holdingOnly (fun _ ⟨_, _, hsafe, _⟩ => by cases hsafe) hsub,
    fun fd hfd => h.socket fd (hsocket.symm.trans hfd), h.closing, h.dial⟩, fun loaded fd hfd => ?_⟩
  rcases hloaded fd hfd with hold | hread
  · exact (loaded fd hold).imp_left hsocket.trans
  · exact .inl (hsocket.trans (h.handshake.socket_of_socketFd hread))

theorem of_runStep [DecidableEq ρ] (staged : ∀ events, Staged (w events) stage) (h : s.Owned stage) {outcome : Outcome}
    (hstep : s.runStep w outcome = some t) : t.Owned stage ∧ (s.Loaded → t.Loaded) := by
  obtain ⟨a, haccess, hstep⟩ := Option.bind_eq_some_iff.mp hstep
  simp only [Option.ite_none_right_eq_some] at hstep
  obtain ⟨⟨hclosing, hallows⟩, hstep⟩ := hstep
  obtain ⟨sub, hsub, rfl⟩ := Option.map_eq_some_iff.mp hstep
  have hhandshake := h.handshake.step (staged false).holdingOnly (fun _ ⟨_, _, hsafe, _⟩ => by cases hsafe) hsub
  obtain ⟨pc, a₀, pc', u, hw, hnext, hu, rfl⟩ := Subscription.step_run hsub
  obtain rfl : a = a₀ := by
    rw [access, hw, Option.bind_some, hnext] at haccess
    exact (Option.some.inj haccess).symm
  obtain ⟨hstopper, ⟨hsame, hkept, -⟩ | ⟨fd, rfl, hnew⟩ | ⟨rfl, hheld, hnone⟩⟩ := Subscription.access_socket hu
  · have hnothing : (if a = .closed ∧ s.sub.socketFd = s.sub.socket then s.sub.socket else none) = none :=
      if_neg fun ⟨ha, heq⟩ => hkept ha heq
    refine ⟨⟨hhandshake, fun fd hfd => ⟨(h.socket fd (hsame.symm.trans hfd)).1, hnothing, nofun⟩, fun fd hfd => ?_, nofun⟩,
      fun loaded fd hfd => ?_⟩
    · rw [hnothing] at hfd
      cases hfd
    · refine .inl ((loaded fd (hstopper.symm.trans hfd)).elim hsame.trans fun hold => ?_)
      rw [hclosing] at hold
      cases hold
  · have hdial : s.dial = .opened fd := Dial.allows_connected hallows
    have hnothing : (if Access.connected fd = .closed ∧ s.sub.socketFd = s.sub.socket then s.sub.socket else none) = none :=
      if_neg nofun
    refine ⟨⟨hhandshake, fun fd' hfd => ?_, fun fd' hfd => ?_, nofun⟩, fun loaded fd' hfd => ?_⟩
    · obtain rfl : fd = fd' := Option.some.inj (hnew.symm.trans hfd)
      exact ⟨h.dial fd hdial, hnothing, nofun⟩
    · rw [hnothing] at hfd
      cases hfd
    · rcases loaded fd' (hstopper.symm.trans hfd) with hold | hold
      · exact absurd hdial ((h.socket fd' hold).2.2 fd)
      · rw [hclosing] at hold
        cases hold
  · have htaken : (if Access.closed = .closed ∧ s.sub.socketFd = s.sub.socket then s.sub.socket else none) = s.sub.socket :=
      if_pos ⟨rfl, hheld⟩
    refine ⟨⟨hhandshake, fun fd hfd => ?_, fun fd hfd => ?_, nofun⟩, fun loaded fd hfd => ?_⟩
    · rw [hnone] at hfd
      cases hfd
    · exact ⟨(h.socket fd (htaken.symm.trans hfd)).1, nofun⟩
    · refine .inr (htaken.trans ((loaded fd (hstopper.symm.trans hfd)).resolve_right fun hold => ?_))
      rw [hclosing] at hold
      cases hold

/-- Where the worker is about to connect, it has no socket. -/
theorem socket_eq_none (staged : ∀ events, Staged (w events) stage) (h : s.Owned stage) {outcome : Outcome} {fd : Nat}
    (haccess : s.access w outcome = some (.connected fd)) : s.sub.socket = none := by
  obtain ⟨pc, hw, haccess⟩ := Option.bind_eq_some_iff.mp haccess
  obtain ⟨⟨a, pc'⟩, hnext, rfl⟩ := Option.map_eq_some_iff.mp haccess
  have hfollows := (staged false).next pc outcome _ pc' hnext
  simp only [Stage.follows, Bool.and_eq_true, decide_eq_true_eq] at hfollows
  have hholds := h.handshake.holds pc hw
  rw [show (stage pc).holdingOnly.holding = .nothing from hfollows.1.1] at hholds
  exact hholds.1

theorem step [DecidableEq ρ] (staged : ∀ events, Staged (w events) stage) (h : s.Owned stage) {a : DescriptorAction}
    (hstep : s.step w a = some t) :
    t.Owned stage ∧ ((a = .close → ∀ fd, s.sub.stopper ≠ .loaded (some fd)) → s.Loaded → t.Loaded) := by
  cases a with
  | start events =>
    have hmove : s.move w events .start = some t := hstep
    exact (h.of_move staged hmove nofun).imp_right fun keep _ => keep
  | stop =>
    have hmove : s.move w false .stop = some t := hstep
    exact (h.of_move staged hmove nofun).imp_right fun keep _ => keep
  | load =>
    have hmove : s.move w false .load = some t := hstep
    exact (h.of_move staged hmove nofun).imp_right fun keep _ => keep
  | shutdown =>
    have hmove : s.move w false .shutdown = some t := hstep
    exact (h.of_move staged hmove nofun).imp_right fun keep _ => keep
  | join =>
    simp only [Descriptors.step, Option.ite_none_right_eq_some] at hstep
    exact (h.of_move staged hstep.2 nofun).imp_right fun keep _ => keep
  | socket =>
    simp only [Descriptors.step, Option.ite_none_right_eq_some, Option.some.injEq] at hstep
    obtain ⟨⟨-, hclosing, haccess⟩, rfl⟩ := hstep
    have hnone := h.socket_eq_none staged haccess
    refine ⟨⟨h.handshake, fun fd hfd => ?_, fun fd hfd => ?_, fun fd hfd => ?_⟩, fun _ loaded => loaded⟩
    · rw [show s.sub.socket = some fd from hfd] at hnone
      cases hnone
    · rw [show s.closing = some fd from hfd] at hclosing
      cases hclosing
    · rw [← Dial.opened.inj hfd]
      exact (Table.lookup_add ..).trans (if_pos rfl)
  | abandon =>
    simp only [Descriptors.step] at hstep
    split at hstep
    · rename_i fd hdial
      cases hstep
      refine ⟨⟨h.handshake, fun fd' hfd => ?_, fun fd' hfd => ?_, nofun⟩, fun _ loaded => loaded⟩
      · exact absurd hdial ((h.socket fd' hfd).2.2 fd)
      · exact absurd hdial ((h.closing fd' hfd).2 fd)
    · cases hstep
  | run outcome => exact (h.of_runStep staged hstep).imp_right fun keep _ => keep
  | close =>
    obtain ⟨fd, hclosing, rfl⟩ := Option.map_eq_some_iff.mp hstep
    refine ⟨⟨h.handshake, fun fd' hfd => ?_, nofun, fun fd' hfd => ?_⟩, fun apart _ fd' hfd => ?_⟩
    · have hnone := (h.socket fd' hfd).2.1
      rw [hclosing] at hnone
      cases hnone
    · exact absurd hfd ((h.closing fd hclosing).2 fd')
    · exact absurd hfd (apart rfl fd')
  | openOther =>
    cases hstep
    exact ⟨h.of_table fun fd hfd => Table.lookup_add_of_some hfd, fun _ loaded => loaded⟩
  | closeOther fd =>
    simp only [Descriptors.step, Option.ite_none_right_eq_some, Option.some.injEq] at hstep
    obtain ⟨hother, rfl⟩ := hstep
    refine ⟨h.of_table fun fd' hfd => ?_, fun _ loaded => loaded⟩
    rw [Table.lookup_remove, if_neg ?_, hfd]
    rintro rfl
    rw [hfd] at hother
    cases hother

end Owned

/-- `CloseOwnedSocket` does not close the descriptor that `Stop` has read and is about to shut down. -/
def Apart (s : Descriptors ρ) (a : DescriptorAction) : Prop := a = .close → ∀ fd, s.sub.stopper ≠ .loaded (some fd)

instance (stopper : Stopper) : Decidable (∀ fd, stopper ≠ .loaded (some fd)) :=
  match stopper with
  | .loaded (some fd) => .isFalse fun h => h fd rfl
  | .loaded none | .idle | .stored | .joining => .isTrue nofun

instance (s : Descriptors ρ) (a : DescriptorAction) : Decidable (s.Apart a) := inferInstanceAs (Decidable (_ → _))

/-- What `Stop` is about to shut down is not the worker's any more, and others can come to have it. -/
def Lost [DecidableEq ρ] (w : Bool → Worker ρ) (s : Descriptors ρ) (fd : Nat) : Prop :=
  ¬ s.Own fd ∧ ∃ k t, run (step w) s (List.replicate k .openOther) = some t ∧
    t.sub.stopper = .loaded (some fd) ∧ t.table.lookup fd = some .other

theorem run_openOther [DecidableEq ρ] (k : Nat) (s : Descriptors ρ) :
    run (step w) s (List.replicate k .openOther) = some { s with table := s.table.addAll .other k } := by
  induction k generalizing s with
  | zero => rfl
  | succ k ih => exact ih _

theorem run_owned [DecidableEq ρ] (staged : ∀ events, Staged (w events) stage) {table : Table Owner}
    {actions : List DescriptorAction} (allowed : Allowed (step w) Apart { table } actions)
    (h : run (step w) { table } actions = some s) : s.Owned stage ∧ s.Loaded :=
  run_invariant_of_allowed (P := fun u => u.Owned stage ∧ u.Loaded) ⟨.start table, nofun⟩
    (fun _ _ _ hu hapart hstep => (hu.1.step staged hstep).imp_right fun keep => keep hapart hu.2) allowed h

/-- If the descriptor is closed at that time, it is free, and goes to the next that needs it. -/
theorem lost_of_close [DecidableEq ρ] (h : s.Owned stage) (loaded : s.Loaded) {fd : Nat}
    (hfd : s.sub.stopper = .loaded (some fd)) (hclose : s.step w .close = some t) : t.Lost w fd := by
  obtain ⟨fd', hclosing, rfl⟩ := Option.map_eq_some_iff.mp hclose
  have hsocket : s.sub.socket ≠ some fd := fun hsocket => by
    have hnone := (h.socket fd hsocket).2.1
    rw [hclosing] at hnone
    cases hnone
  obtain rfl : fd' = fd := Option.some.inj (hclosing.symm.trans ((loaded fd hfd).resolve_left hsocket))
  have hfree : (s.table.remove fd').lookup fd' = none := by rw [Table.lookup_remove, if_pos rfl]
  obtain ⟨k, hk⟩ := Table.lookup_addAll Owner.other hfree
  exact ⟨fun hown => hown.1.elim hsocket nofun, k, _, run_openOther k _, hfd, hk⟩

end Descriptors

open Descriptors

/-- If the worker never closes its descriptor while `Stop` is between reading it and shutting it down, then whenever
    `Stop` shuts a descriptor down, it is the worker's own socket, which the worker has not closed. And the first time
    that it does, the descriptor is no more its own, and `Stop` can come to shut down one of another thread. -/
theorem stop_shuts_own (table : Table Owner) (actions : List DescriptorAction) :
    (∀ s, Allowed (step fun _ => MediaRun.worker) Apart { table } actions →
      run (step fun _ => MediaRun.worker) { table } actions = some s → ∀ fd, s.sub.stopper = .loaded (some fd) →
        s.Own fd ∧ ∀ t, s.step (fun _ => MediaRun.worker) .close = some t → t.Lost (fun _ => MediaRun.worker) fd) ∧
    (∀ s, Allowed (step fun _ => AudioRun.worker) Apart { table } actions →
      run (step fun _ => AudioRun.worker) { table } actions = some s → ∀ fd, s.sub.stopper = .loaded (some fd) →
        s.Own fd ∧ ∀ t, s.step (fun _ => AudioRun.worker) .close = some t → t.Lost (fun _ => AudioRun.worker) fd) ∧
    (∀ s, Allowed (step CapabilityRun.worker) Apart { table } actions →
      run (step CapabilityRun.worker) { table } actions = some s → ∀ fd, s.sub.stopper = .loaded (some fd) →
        s.Own fd ∧ ∀ t, s.step CapabilityRun.worker .close = some t → t.Lost CapabilityRun.worker fd) := by
  refine ⟨fun s allowed h fd hfd => ?_, fun s allowed h fd hfd => ?_, fun s allowed h fd hfd => ?_⟩
  · obtain ⟨howned, hloaded⟩ := run_owned (fun _ => MediaRun.staged) allowed h
    exact ⟨howned.loaded_own hloaded hfd, fun t => lost_of_close howned hloaded hfd⟩
  · obtain ⟨howned, hloaded⟩ := run_owned (fun _ => AudioRun.staged) allowed h
    exact ⟨howned.loaded_own hloaded hfd, fun t => lost_of_close howned hloaded hfd⟩
  · obtain ⟨howned, hloaded⟩ := run_owned CapabilityRun.staged allowed h
    exact ⟨howned.loaded_own hloaded hfd, fun t => lost_of_close howned hloaded hfd⟩

/-- Only the standard descriptors are open. -/
def standardTable : Table Owner := ⟨[some .other, some .other, some .other]⟩

/-- The worker connects and waits for a frame. -/
def listening : List DescriptorAction :=
  [.start false, .run .ok, .run (.flag false), .socket, .run (.fd 3), .run .ok, .run .ok, .run (.flag false)]

/-- `Stop` shuts the socket down, the worker closes it and returns; then all begins anew. -/
def stoppedTwice : List DescriptorAction :=
  listening ++ [.stop, .load, .shutdown, .run .failed, .run .ok, .close, .run (.flag true), .run (.flag true), .join] ++
    listening ++ [.stop, .load]

theorem stop_shuts_own_twice : ∃ s, run (step fun _ => AudioRun.worker) { table := standardTable } stoppedTwice = some s ∧
    s.sub.stopper = .loaded (some 3) ∧ s.Own 3 :=
  ⟨_, rfl, rfl, ((stop_shuts_own standardTable stoppedTwice).2.1 _ (by decide) rfl 3 rfl).1⟩

/-- The worker closes its descriptor behind the load of `Stop`, and another thread gets the number. `Stop` shuts down the
    socket of that thread. -/
theorem stop_shuts_other : ∃ s t, run (step fun _ => AudioRun.worker) { table := standardTable }
    (listening ++ [.stop, .load, .run .failed, .run .ok, .close, .openOther]) = some s ∧
    s.sub.stopper = .loaded (some 3) ∧ s.step (fun _ => AudioRun.worker) .shutdown = some t ∧
    ¬ s.Own 3 ∧ s.table.lookup 3 = some .other :=
  ⟨_, _, rfl, rfl, rfl, by decide, rfl⟩

end OnekvmVnc
