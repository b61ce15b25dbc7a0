import OnekvmVnc.Lib.Transition
import OnekvmVnc.Subscription

/-! Stopping a subscription. `Stop` sets the flag and then reads the descriptor; a worker that stores its
    descriptor and then finds the flag unset will be shut down. `MediaSubscription` waits for the ring without
    looking at the flag again, so a `Stop` that comes while it connects never wakes it. -/

namespace OnekvmVnc

open Transition

/-! ### The handshake -/

/-- What the worker has of a socket. -/
inductive Holding where
  | nothing
  | socket
  /-- The socket is in `socket_fd_` too. -/
  | stored
  deriving DecidableEq

/-- What is known of a place in `Run`. -/
structure Stage where
  holding : Holding
  /-- `Stop` will see the descriptor, or has seen it: the flag was unset since. -/
  safe : Bool
  deriving DecidableEq

/-- The stages fit an access. Only a check that finds the flag unset makes a place safe. -/
def Stage.follows (p q : Stage) : Access → Bool
  | .checked stopping => q.holding = p.holding && (!q.safe || p.safe || !stopping)
  | .quiet | .raised => q.holding = p.holding && (!q.safe || p.safe)
  | .loaded present => (present != (p.holding = .stored : Bool)) || (q.holding = p.holding && (!q.safe || p.safe))
  | .connected _ => p.holding = .nothing && q.holding = .socket && (!q.safe || p.safe)
  | .stored => p.holding = .socket && q.holding = .stored && (!q.safe || p.safe)
  | .closed => p.holding = .stored && q.holding = .nothing && !q.safe

/-- The stages fit every step of `Run`. -/
structure Staged {ρ : Type} (w : Worker ρ) (stage : ρ → Stage) : Prop where
  start : stage w.start = ⟨.nothing, false⟩
  done : (stage w.done).holding = .nothing
  next : ∀ pc outcome a pc', w.next pc outcome = some (a, pc') → (stage pc).follows (stage pc') a = true

/-- The stage without the knowledge of what `Stop` has seen. -/
def Stage.holdingOnly (p : Stage) : Stage := { p with safe := false }

theorem Stage.follows_holdingOnly {p q : Stage} {a : Access} (h : p.follows q a = true) :
    p.holdingOnly.follows q.holdingOnly a = true := by
  cases a <;> simp_all [Stage.follows, Stage.holdingOnly]
  exact h.imp id fun hq => decide_eq_true hq.1

theorem Staged.holdingOnly {ρ : Type} {w : Worker ρ} {stage : ρ → Stage} (h : Staged w stage) :
    Staged w fun pc => (stage pc).holdingOnly where
  start := congrArg Stage.holdingOnly h.start
  done := h.done
  next pc outcome a pc' hnext := Stage.follows_holdingOnly (h.next pc outcome a pc' hnext)

namespace Subscription
variable {ρ : Type} {s t : Subscription ρ} {w : Worker ρ} {stage : ρ → Stage}

section
variable [DecidableEq ρ]

theorem step_start (h : step w s .start = some t) :
    s.stopper = .idle ∧ s.worker = none ∧ t = { s with stopping := false, worker := some w.start } := by
  simp only [step, Option.ite_none_right_eq_some, Option.some.injEq] at h
  exact ⟨h.1.1, h.1.2, h.2.symm⟩

theorem step_stop (h : step w s .stop = some t) :
    s.stopper = .idle ∧ t = { s with stopping := true, stopper := .stored } := by
  simp only [step, Option.ite_none_right_eq_some, Option.some.injEq] at h
  exact ⟨h.1, h.2.symm⟩

theorem step_load (h : step w s .load = some t) : s.stopper = .stored ∧ t = { s with stopper := .loaded s.socketFd } := by
  simp only [step, Option.ite_none_right_eq_some, Option.some.injEq] at h
  exact ⟨h.1, h.2.symm⟩

theorem step_shutdown (h : step w s .shutdown = some t) : ∃ fd, s.stopper = .loaded fd ∧ t = s.shutdown fd := by
  simp only [step] at h
  split at h
  · rename_i fd hloaded
    exact ⟨fd, hloaded, (Option.some.inj h).symm⟩
  · cases h

theorem step_join (h : step w s .join = some t) :
    (s.worker = none ∨ s.worker = some w.done) ∧ t = { s with stopper := .idle, worker := none } := by
  simp only [step, Option.ite_none_right_eq_some, Option.some.injEq] at h
  exact ⟨h.1.2, h.2.symm⟩

/-- A step of the worker takes it from its place to the next one, with an access. -/
theorem step_run {outcome : Outcome} (h : step w s (.run outcome) = some t) :
    ∃ pc a pc' u, s.worker = some pc ∧ w.next pc outcome = some (a, pc') ∧ s.access a = some u ∧
      t = { u with worker := some pc' } := by
  simp only [Subscription.step] at h
  cases hw : s.worker with
  | none => simp [hw] at h
  | some pc =>
    simp only [hw, Option.bind_eq_some_iff, Option.map_eq_some_iff] at h
    obtain ⟨⟨a, pc'⟩, hnext, u, hu, rfl⟩ := h
    exact ⟨pc, a, pc', u, rfl, hnext, hu, rfl⟩

end

/-- An access that does not set `stopping_` keeps it, and a check finds what it is. -/
theorem access_stopping {a : Access} (h : s.access a = some t) (hne : a ≠ .raised) :
    t.stopping = s.stopping ∧ ∀ stopping, a = .checked stopping → s.stopping = stopping := by
  cases a with
  | checked stopping =>
    simp only [access, Option.ite_none_right_eq_some, Option.some.injEq] at h
    obtain ⟨hstopping, rfl⟩ := h
    exact ⟨rfl, fun _ heq => hstopping.trans (Access.checked.inj heq)⟩
  | loaded present =>
    simp only [access, Option.ite_none_right_eq_some, Option.some.injEq] at h
    obtain ⟨-, rfl⟩ := h
    exact ⟨rfl, nofun⟩
  | closed =>
    simp only [access] at h
    split at h <;> cases h <;> exact ⟨rfl, nofun⟩
  | raised => exact absurd rfl hne
  | connected fd | stored | quiet =>
    cases h
    exact ⟨rfl, nofun⟩

def Holds (s : Subscription ρ) : Holding → Prop
  | .nothing => s.socket = none ∧ s.socketFd = none
  | .socket => s.socketFd = none ∧ s.socket.isSome = true
  | .stored => s.socketFd = s.socket ∧ s.socket.isSome = true

/-- `Stop` has not read `socket_fd_`. -/
def Unread (s : Subscription ρ) : Prop := s.stopper = .idle ∨ s.stopper = .stored

/-- `Stop` has read the descriptor of the open socket. -/
def Seen (s : Subscription ρ) : Prop := s.stopper = .loaded s.socket ∨ s.stopper = .joining ∧ s.shut = true

/-- The handshake between `Stop` and the worker. -/
structure Handshake (stage : ρ → Stage) (s : Subscription ρ) : Prop where
  flag : s.stopper ≠ .idle → s.stopping = true
  idle : s.worker = none → s.Holds .nothing
  holds : ∀ pc, s.worker = some pc → s.Holds (stage pc).holding
  safe : ∀ pc, s.worker = some pc → (stage pc).safe = true → s.Unread ∨ (stage pc).holding = .stored ∧ s.Seen

/-- The worker is at a safe place without having stored its descriptor. -/
def Exposed (stage : ρ → Stage) (s : Subscription ρ) : Prop :=
  ∃ pc, s.worker = some pc ∧ (stage pc).safe = true ∧ (stage pc).holding ≠ .stored

namespace Handshake

theorem start : Handshake stage {} := ⟨fun h => absurd rfl h, fun _ => ⟨rfl, rfl⟩, nofun, nofun⟩

/-- The worker arrives at a place. -/
theorem arrived {pc : ρ} (flag : s.stopper ≠ .idle → s.stopping = true) (holds : s.Holds (stage pc).holding)
    (safe : (stage pc).safe = true → s.Unread ∨ (stage pc).holding = .stored ∧ s.Seen) :
    Handshake stage { s with worker := some pc } := by
  refine ⟨flag, nofun, fun place hplace => ?_, fun place hplace hsafe => ?_⟩
  · obtain rfl := Option.some.inj hplace
    exact holds
  · obtain rfl := Option.some.inj hplace
    exact safe hsafe

/-- The worker moves on with what it has of the socket, and is no safer. -/
theorem moved (h : s.Handshake stage) {pc pc' : ρ} (hw : s.worker = some pc)
    (holding : (stage pc').holding = (stage pc).holding) (safe : (stage pc').safe = true → (stage pc).safe = true) :
    Handshake stage { s with worker := some pc' } := by
  refine .arrived h.flag ?_ fun hsafe => ?_
  · rw [holding]
    exact h.holds pc hw
  · rw [holding]
    exact h.safe pc hw (safe hsafe)

/-- At a safe place without a stored descriptor, `Stop` has not read one. -/
theorem unread (h : s.Handshake stage) {pc : ρ} (hw : s.worker = some pc) (hsafe : (stage pc).safe = true)
    (hne : (stage pc).holding ≠ .stored) : s.Unread :=
  (h.safe pc hw hsafe).resolve_right fun hs => hne hs.1

/-- A worker that reads `socket_fd_` finds whether it has stored its descriptor. -/
theorem socketFd_isSome (h : s.Handshake stage) {pc : ρ} (hw : s.worker = some pc) :
    s.socketFd.isSome = decide ((stage pc).holding = .stored) := by
  have hholds := h.holds pc hw
  cases hholding : (stage pc).holding <;> rw [hholding] at hholds
  · simp [hholds.2]
  · simp [hholds.1]
  · simp [hholds.1, hholds.2]

/-- An access of the worker moves it to a stage that fits. -/
theorem access (h : s.Handshake stage) {pc pc' : ρ} {a : Access} (hw : s.worker = some pc)
    (hfollows : (stage pc).follows (stage pc') a = true) {u : Subscription ρ} (hu : s.access a = some u) :
    Handshake stage { u with worker := some pc' } := by
  have hholds := h.holds pc hw
  cases a with
  | checked stopping =>
    simp only [Subscription.access, Option.ite_none_right_eq_some, Option.some.injEq] at hu
    obtain ⟨hstopping, rfl⟩ := hu
    simp only [Stage.follows, Bool.and_eq_true, decide_eq_true_eq, Bool.or_eq_true, Bool.not_eq_true'] at hfollows
    obtain ⟨hholding, hsafe⟩ := hfollows
    cases stopping with
    | true => exact h.moved hw hholding fun hs => (hsafe.resolve_right (by simp)).resolve_left (by simp [hs])
    | false =>
      -- The flag is unset, so `Stop` has not begun.
      have hidle : s.stopper = .idle := by
        by_contra hne
        rw [h.flag hne] at hstopping
        cases hstopping
      exact .arrived h.flag (hholding ▸ hholds) fun _ => .inl (.inl hidle)
  | quiet =>
    obtain rfl := Option.some.inj hu
    simp only [Stage.follows, Bool.and_eq_true, decide_eq_true_eq, Bool.or_eq_true, Bool.not_eq_true'] at hfollows
    exact h.moved hw hfollows.1 fun hs => hfollows.2.resolve_left (by simp [hs])
  | raised =>
    obtain rfl := Option.some.inj hu
    simp only [Stage.follows, Bool.and_eq_true, decide_eq_true_eq, Bool.or_eq_true, Bool.not_eq_true'] at hfollows
    have hmoved := h.moved hw hfollows.1 fun hs => hfollows.2.resolve_left (by simp [hs])
    exact ⟨fun _ => rfl, hmoved.idle, hmoved.holds, hmoved.safe⟩
  | loaded present =>
    simp only [Subscription.access, Option.ite_none_right_eq_some, Option.some.injEq] at hu
    obtain ⟨hpresent, rfl⟩ := hu
    have hfound : present = decide ((stage pc).holding = .stored) := hpresent.symm.trans (h.socketFd_isSome hw)
    simp only [Stage.follows, hfound, bne_self_eq_false, Bool.false_or, Bool.and_eq_true, decide_eq_true_eq,
      Bool.or_eq_true, Bool.not_eq_true'] at hfollows
    exact h.moved hw hfollows.1 fun hs => hfollows.2.resolve_left (by simp [hs])
  | connected fd =>
    obtain rfl := Option.some.inj hu
    simp only [Stage.follows, Bool.and_eq_true, decide_eq_true_eq, Bool.or_eq_true, Bool.not_eq_true'] at hfollows
    obtain ⟨⟨hnothing, hsocket⟩, hsafe⟩ := hfollows
    rw [hnothing] at hholds
    refine .arrived h.flag ?_ fun hs => .inl (h.unread hw (hsafe.resolve_left (by simp [hs])) (by simp [hnothing]))
    rw [hsocket]
    exact ⟨hholds.2, rfl⟩
  | stored =>
    obtain rfl := Option.some.inj hu
    simp only [Stage.follows, Bool.and_eq_true, decide_eq_true_eq, Bool.or_eq_true, Bool.not_eq_true'] at hfollows
    obtain ⟨⟨hsocket, hstored⟩, hsafe⟩ := hfollows
    rw [hsocket] at hholds
    refine .arrived h.flag ?_ fun hs => .inl (h.unread hw (hsafe.resolve_left (by simp [hs])) (by simp [hsocket]))
    rw [hstored]
    exact ⟨rfl, hholds.2⟩
  | closed =>
    simp only [Stage.follows, Bool.and_eq_true, decide_eq_true_eq, Bool.not_eq_true'] at hfollows
    obtain ⟨⟨hstored, hnothing⟩, hquiet⟩ := hfollows
    rw [hstored] at hholds
    simp only [Subscription.access, hholds.1, if_true, Option.some.injEq] at hu
    obtain rfl := hu
    refine .arrived h.flag ?_ fun hs => ?_
    · rw [hnothing]
      exact ⟨rfl, rfl⟩
    · rw [hquiet] at hs
      cases hs

theorem step [DecidableEq ρ] (staged : Staged w stage) (h : s.Handshake stage) {a : SubscriptionAction}
    (allowed : a = .load → ¬ s.Exposed stage) (hstep : Subscription.step w s a = some t) : t.Handshake stage := by
  cases a with
  | start =>
    obtain ⟨hidle, hnone, rfl⟩ := step_start hstep
    refine .arrived (s := { s with stopping := false }) (fun hne => absurd hidle hne) ?_ fun hsafe => ?_
    · rw [staged.start]
      exact h.idle hnone
    · rw [staged.start] at hsafe
      cases hsafe
  | stop =>
    obtain ⟨hidle, rfl⟩ := step_stop hstep
    exact ⟨fun _ => rfl, h.idle, h.holds, fun _ _ _ => .inl (.inr rfl)⟩
  | load =>
    obtain ⟨hstored, rfl⟩ := step_load hstep
    refine ⟨fun _ => h.flag (by simp [hstored]), h.idle, h.holds, fun pc hpc hsafe => .inr ?_⟩
    -- Where the worker is safe, it has stored its descriptor, and `Stop` has just read it.
    have hheld : (stage pc).holding = .stored := by
      by_contra hne
      exact allowed rfl ⟨pc, hpc, hsafe, hne⟩
    have hholds := h.holds pc hpc
    rw [hheld] at hholds
    exact ⟨hheld, .inl (congrArg Stopper.loaded hholds.1)⟩
  | shutdown =>
    obtain ⟨fd, hloaded, rfl⟩ := step_shutdown hstep
    refine ⟨fun _ => h.flag (by simp [hloaded]), h.idle, h.holds, fun pc hpc hsafe => .inr ?_⟩
    rcases h.safe pc hpc hsafe with hunread | ⟨hheld, hseen⟩
    · rcases hunread with hu | hu <;> simp [hloaded] at hu
    · have hholds := h.holds pc hpc
      rw [hheld] at hholds
      refine ⟨hheld, .inr ⟨rfl, ?_⟩⟩
      rcases hseen with hseen | ⟨hseen, -⟩
      · rw [hloaded, Stopper.loaded.injEq] at hseen
        simp [Subscription.shutdown, hseen, hholds.2]
      · simp [hloaded] at hseen
  | join =>
    obtain ⟨hdone, rfl⟩ := step_join hstep
    refine ⟨fun hne => absurd rfl hne, fun _ => ?_, nofun, nofun⟩
    rcases hdone with hnone | hdone
    · exact h.idle hnone
    · have hholds := h.holds w.done hdone
      rw [staged.done] at hholds
      exact hholds
  | run outcome =>
    obtain ⟨pc, a, pc', u, hw, hnext, hu, rfl⟩ := step_run hstep
    exact h.access hw (staged.next pc outcome a pc' hnext) hu

end Handshake

theorem not_exposed (stored : ∀ pc, (stage pc).safe = true → (stage pc).holding = .stored) : ¬ s.Exposed stage :=
  fun ⟨pc, _, hsafe, hne⟩ => hne (stored pc hsafe)

/-- `Stop` waits for the worker, which waits for the peer on a socket that was not shut down. -/
structure Stuck (blocked : ρ → Bool) (s : Subscription ρ) : Prop where
  stopping : s.stopping = true
  joining : s.stopper = .joining
  open_ : s.shut = false
  waits : ∃ pc, s.worker = some pc ∧ blocked pc = true

instance [DecidableEq ρ] (blocked : ρ → Bool) (s : Subscription ρ) : Decidable (s.Stuck blocked) :=
  decidable_of_iff (s.stopping = true ∧ s.stopper = .joining ∧ s.shut = false ∧ s.worker.any blocked = true)
    ⟨fun ⟨h, h', h'', hw⟩ => ⟨h, h', h'', by simpa [Option.any_eq_true] using hw⟩,
      fun ⟨h, h', h'', hw⟩ => ⟨h, h', h'', by simpa [Option.any_eq_true] using hw⟩⟩

theorem Handshake.not_stuck (h : s.Handshake stage) {blocked : ρ → Bool}
    (safe : ∀ pc, blocked pc = true → (stage pc).safe = true) : ¬ s.Stuck blocked := by
  rintro ⟨-, hjoining, hopen, pc, hpc, hblocked⟩
  rcases h.safe pc hpc (safe pc hblocked) with hunread | ⟨-, hloaded | ⟨-, hshut⟩⟩
  · rcases hunread with hu | hu <;> simp [hjoining] at hu
  · simp [hjoining] at hloaded
  · simp [hopen] at hshut

/-- If every place where the worker waits is safe, and `Stop` never reads the descriptor of an exposed worker,
    then `Stop` is never stuck. -/
theorem run_not_stuck [DecidableEq ρ] (staged : Staged w stage) {blocked : ρ → Bool}
    (safe : ∀ pc, blocked pc = true → (stage pc).safe = true) {actions : List SubscriptionAction}
    (allowed : Allowed (step w) (fun u a => a = .load → ¬ u.Exposed stage) {} actions)
    (h : run (step w) {} actions = some t) : ¬ t.Stuck blocked := by
  have hhandshake : t.Handshake stage :=
    run_invariant_of_allowed Handshake.start (fun _ _ _ hu ha hstep => hu.step staged ha hstep) allowed h
  exact hhandshake.not_stuck safe

end Subscription

/-! ### The three workers -/

open Subscription

namespace MediaRun

/-- With the ring, the worker takes it from the first check on that the flag is unset. -/
def stage : MediaRun → Stage
  | .connect ring => ⟨.nothing, ring⟩
  | .store ring => ⟨.socket, ring⟩
  | .write ring => ⟨.stored, ring⟩
  | .handshake | .ringPoll | .readFrame => ⟨.stored, true⟩
  | .ringLoop | .streamLoop | .fatal | .close .. => ⟨.stored, false⟩
  | .loop _ | .refused _ | .pause _ | .done => ⟨.nothing, false⟩

theorem staged : Staged worker stage where
  start := rfl
  done := rfl
  next pc outcome a pc' h := by
    change MediaRun.next pc outcome = some (a, pc') at h
    unfold MediaRun.next at h
    split at h <;> cases h
    -- Where the step branches, or the stage depends on the ring, it does so on one flag.
    all_goals first | rfl | (cases ‹Bool› <;> rfl)

theorem next_connect {pc : MediaRun} {outcome : Outcome} {a : Access} {ring : Bool}
    (h : next pc outcome = some (a, .connect ring)) : a = .checked false := by
  unfold next at h
  split at h
  case h_1 =>
    cases h
    rfl
  all_goals first | cases h | (split at h <;> cases h)

theorem next_store {pc : MediaRun} {outcome : Outcome} {a : Access} {ring : Bool}
    (h : next pc outcome = some (a, .store ring)) : pc = .connect ring ∧ ∃ fd, a = .connected fd := by
  unfold next at h
  split at h
  case h_4 ring fd =>
    cases h
    exact ⟨rfl, fd, rfl⟩
  all_goals first | cases h | (split at h <;> cases h)

theorem safe_of_blocked {pc : MediaRun} (h : pc.blocked = true) : pc.stage.safe = true := by
  cases pc <;> first | rfl | cases h

end MediaRun

namespace AudioRun

def stage : AudioRun → Stage
  | .store => ⟨.socket, false⟩
  | .readFrame => ⟨.stored, true⟩
  | .write | .streamLoop | .close _ => ⟨.stored, false⟩
  | .createDecoder | .loop | .connect | .refused | .pause | .done => ⟨.nothing, false⟩

theorem staged : Staged worker stage where
  start := rfl
  done := rfl
  next pc outcome a pc' h := by
    change AudioRun.next pc outcome = some (a, pc') at h
    unfold AudioRun.next at h
    split at h <;> cases h
    all_goals first | rfl | (cases ‹Bool› <;> rfl)

theorem stored_of_safe {pc : AudioRun} (h : pc.stage.safe = true) : pc.stage.holding = .stored := by
  cases pc <;> first | rfl | cases h

theorem safe_of_blocked {pc : AudioRun} (h : pc.blocked = true) : pc.stage.safe = true := by
  cases pc <;> first | rfl | cases h

end AudioRun

namespace CapabilityRun

def stage : CapabilityRun → Stage
  | .store _ => ⟨.socket, false⟩
  | .poll _ => ⟨.stored, true⟩
  | .recheck _ | .abandon | .write _ | .eventLoop _ | .pollInterrupted _ | .polled _ | .readFrame _ | .probed _
  | .ended _ | .close => ⟨.stored, false⟩
  | .loop _ | .connect _ | .refused | .switched _ | .wait _ | .waitInterrupted _ | .again _ | .report | .done =>
    ⟨.nothing, false⟩

theorem staged (events : Bool) : Staged (worker events) stage where
  start := rfl
  done := rfl
  next pc outcome a pc' h := by
    change CapabilityRun.next pc outcome = some (a, pc') at h
    unfold CapabilityRun.next at h
    split at h <;> cases h <;> rfl

theorem stored_of_safe {pc : CapabilityRun} (h : pc.stage.safe = true) : pc.stage.holding = .stored := by
  cases pc <;> first | rfl | cases h

theorem safe_of_blocked {pc : CapabilityRun} (h : pc.blocked = true) : pc.stage.safe = true := by
  cases pc <;> first | rfl | cases h

end CapabilityRun

/-! ### `Stop` while the worker connects -/

namespace Subscription

/-- The worker is to ask for the ring, and has not stored its descriptor since it found the flag unset. -/
def Connecting (s : Subscription MediaRun) : Prop := s.worker = some (.connect true) ∨ s.worker = some (.store true)

instance (s : Subscription MediaRun) : Decidable s.Connecting := inferInstanceAs (Decidable (_ ∨ _))

theorem connecting_of_exposed {s : Subscription MediaRun} (h : s.Exposed MediaRun.stage) : s.Connecting := by
  obtain ⟨pc, hpc, hsafe, hne⟩ := h
  unfold Connecting
  rw [hpc]
  cases pc with
  | connect ring =>
    obtain rfl : ring = true := hsafe
    exact .inl rfl
  | store ring =>
    obtain rfl : ring = true := hsafe
    exact .inr rfl
  | write ring => exact absurd rfl hne
  | handshake | ringPoll | readFrame => exact absurd rfl hne
  | _ => cases hsafe

/-- While the worker connects, `Stop` finds no descriptor, and a new socket has not been shut down. -/
structure Arriving (s : Subscription MediaRun) : Prop where
  unseen : ∀ ring, s.worker = some (.connect ring) ∨ s.worker = some (.store ring) → ∀ fd, s.stopper = .loaded fd → fd = none
  unshut : ∀ ring, s.worker = some (.store ring) → s.shut = false

/-- Whenever `Stop` comes, the descriptor is where the worker has it. -/
abbrev Shared (s : Subscription MediaRun) : Prop := s.Handshake fun pc => pc.stage.holdingOnly

theorem Shared.step {s t : Subscription MediaRun} (h : s.Shared) {a : SubscriptionAction}
    (hstep : Subscription.step MediaRun.worker s a = some t) : t.Shared :=
  Handshake.step MediaRun.staged.holdingOnly h (fun _ ⟨_, _, hsafe, _⟩ => by cases hsafe) hstep

namespace Arriving
variable {s t : Subscription MediaRun}

theorem step (h : s.Arriving) (shared : s.Shared) {a : SubscriptionAction}
    (hstep : Subscription.step MediaRun.worker s a = some t) : t.Arriving := by
  have hnone (ring : Bool) (hw : s.worker = some (.connect ring) ∨ s.worker = some (.store ring)) : s.socketFd = none := by
    rcases hw with hw | hw
    · exact (shared.holds _ hw).2
    · exact (shared.holds _ hw).1
  cases a with
  | start =>
    obtain ⟨-, -, rfl⟩ := step_start hstep
    exact ⟨fun ring hw => by simp [MediaRun.worker] at hw, fun ring hw => by simp [MediaRun.worker] at hw⟩
  | stop =>
    obtain ⟨-, rfl⟩ := step_stop hstep
    exact ⟨fun ring hw fd hfd => by simp at hfd, h.unshut⟩
  | load =>
    obtain ⟨-, rfl⟩ := step_load hstep
    refine ⟨fun ring hw fd hfd => ?_, h.unshut⟩
    rw [Stopper.loaded.injEq] at hfd
    exact hfd ▸ hnone ring hw
  | shutdown =>
    obtain ⟨fd, hloaded, rfl⟩ := step_shutdown hstep
    refine ⟨fun ring hw fd hfd => by simp [Subscription.shutdown] at hfd, fun ring hw => ?_⟩
    simp [Subscription.shutdown, h.unshut ring hw, h.unseen ring (.inr hw) fd hloaded]
  | join =>
    obtain ⟨-, rfl⟩ := step_join hstep
    exact ⟨fun ring hw => by simp at hw, fun ring hw => by simp at hw⟩
  | run outcome =>
    obtain ⟨pc, a, pc', u, hw, hnext, hu, rfl⟩ := step_run hstep
    have hstore (ring : Bool) (hpc' : some pc' = some (MediaRun.store ring)) :
        pc = .connect ring ∧ ∃ fd, u = { s with socket := some fd, shut := false } := by
      obtain rfl := Option.some.inj hpc'
      obtain ⟨rfl, fd, rfl⟩ := MediaRun.next_store hnext
      exact ⟨rfl, fd, (Option.some.inj hu).symm⟩
    refine ⟨fun ring hw' fd hfd => ?_, fun ring hw' => ?_⟩
    · rcases hw' with hw' | hw'
      · -- The flag was found unset, so `Stop` had not begun.
        obtain rfl := Option.some.inj hw'
        obtain rfl := MediaRun.next_connect hnext
        simp only [Subscription.access, Option.ite_none_right_eq_some, Option.some.injEq] at hu
        obtain ⟨hunset, rfl⟩ := hu
        have hset := shared.flag (by rw [show s.stopper = _ from hfd]; simp)
        simp [hset] at hunset
      · obtain ⟨rfl, _, rfl⟩ := hstore ring hw'
        exact h.unseen ring (.inl hw) fd hfd
    · obtain ⟨-, _, rfl⟩ := hstore ring hw'
      rfl

end Arriving

theorem run_arriving {actions : List SubscriptionAction} {s : Subscription MediaRun}
    (h : run (step MediaRun.worker) {} actions = some s) : s.Shared ∧ s.Arriving :=
  run_invariant (P := fun u => u.Shared ∧ u.Arriving) ⟨Handshake.start, nofun, nofun⟩
    (fun _ _ _ hu ha => ⟨hu.1.step ha, hu.2.step hu.1 ha⟩) h

/-- If `Stop` reads the descriptor while the worker connects, and the peer then stays silent, it is stuck. -/
theorem stuck_of_load {s : Subscription MediaRun} (h : s.Shared ∧ s.Arriving) (connecting : s.Connecting)
    (stored : s.stopper = .stored) :
    ∃ more t, run (step MediaRun.worker) s (.load :: more) = some t ∧ t.Stuck MediaRun.blocked := by
  obtain ⟨hshared, harriving⟩ := h
  have hstopping : s.stopping = true := hshared.flag (by simp [stored])
  rcases connecting with hw | hw
  · have hnone : s.socketFd = none := (hshared.holds _ hw).2
    obtain ⟨stopping, socketFd, socket, shut, stopper, worker⟩ := s
    obtain rfl : stopping = true := hstopping
    obtain rfl : socketFd = none := hnone
    obtain rfl : stopper = .stored := stored
    obtain rfl : worker = some (.connect true) := hw
    exact ⟨[.shutdown, .run (.fd 0), .run .ok, .run .ok], _, rfl, rfl, rfl, rfl, .handshake, rfl, rfl⟩
  · have hnone : s.socketFd = none := (hshared.holds _ hw).1
    have hunshut := harriving.unshut true hw
    obtain ⟨stopping, socketFd, socket, shut, stopper, worker⟩ := s
    obtain rfl : stopping = true := hstopping
    obtain rfl : socketFd = none := hnone
    obtain rfl : shut = false := hunshut
    obtain rfl : stopper = .stored := stored
    obtain rfl : worker = some (.store true) := hw
    exact ⟨[.shutdown, .run .ok, .run .ok], _, rfl, rfl, rfl, rfl, .handshake, rfl, rfl⟩

end Subscription

/-- `Stop` never waits for a worker of `AudioSubscription` or `CapabilitySubscription` that waits for its peer on
    a socket which was not shut down, whatever `events_supported_` is at each `Start` of the latter. Nor does it for one
    of `MediaSubscription`, if it does not read the descriptor while the worker connects for the ring; and if it does, it
    can be stuck. -/
theorem stop_not_stuck (actions : List SubscriptionAction) (moves : List (Bool × SubscriptionAction)) :
    (∀ t, run (step AudioRun.worker) {} actions = some t → ¬ t.Stuck AudioRun.blocked) ∧
    (∀ t, run (fun s (events, a) => step (CapabilityRun.worker events) s a) {} moves = some t →
      ¬ t.Stuck CapabilityRun.blocked) ∧
    (∀ t, Allowed (step MediaRun.worker) (fun s a => a = .load → ¬ s.Connecting) {} actions →
      run (step MediaRun.worker) {} actions = some t → ¬ t.Stuck MediaRun.blocked) ∧
    (∀ s, run (step MediaRun.worker) {} actions = some s → s.Connecting → s.stopper = .stored →
      ∃ more t, run (step MediaRun.worker) s (.load :: more) = some t ∧ t.Stuck MediaRun.blocked) := by
  refine ⟨fun t h => ?_, fun t h => ?_, fun t allowed h => ?_,
    fun s h connecting stored => stuck_of_load (run_arriving h) connecting stored⟩
  · exact run_not_stuck AudioRun.staged (fun _ => AudioRun.safe_of_blocked)
      (fun _ _ _ _ _ _ _ => not_exposed fun _ => AudioRun.stored_of_safe) h
  · have hhandshake : t.Handshake CapabilityRun.stage :=
      run_invariant Handshake.start
        (fun _ (events, _) _ hu ha =>
          hu.step (CapabilityRun.staged events) (fun _ => not_exposed fun _ => CapabilityRun.stored_of_safe) ha) h
    exact hhandshake.not_stuck fun _ => CapabilityRun.safe_of_blocked
  · exact run_not_stuck MediaRun.staged (fun _ => MediaRun.safe_of_blocked)
      (fun pre a post u hsplit hu hload hexposed => allowed pre a post u hsplit hu hload (connecting_of_exposed hexposed)) h

/-- `Stop` comes while the worker waits for the ring, which it then stops doing. -/
def stopDuringHandshake : List SubscriptionAction :=
  [.start, .run (.flag false), .run (.fd 5), .run .ok, .run .ok, .stop, .load, .shutdown]

theorem stop_not_stuck_handshake : ∃ t, run (step MediaRun.worker) {} stopDuringHandshake = some t ∧
    t.worker = some .handshake ∧ t.shut = true ∧ ¬ t.Stuck MediaRun.blocked :=
  ⟨_, rfl, rfl, rfl, (stop_not_stuck stopDuringHandshake []).2.2.1 _ (by decide) rfl⟩

/-- `Stop` comes while the worker connects, and waits for it. The worker waits for the ring. -/
theorem stop_stuck_connecting : ∃ t, run (step MediaRun.worker) {}
    [.start, .run (.flag false), .stop, .load, .shutdown, .run (.fd 5), .run .ok, .run .ok] = some t ∧
      t.Stuck MediaRun.blocked :=
  ⟨_, rfl, by decide⟩

end OnekvmVnc
