import OnekvmVnc.Lib.Doorbell
import OnekvmVnc.Run
import OnekvmVnc.Theorems.Server.Arrivals

/-! What wakes `Run`, how long it sleeps, and when it gives its listener back. -/

namespace OnekvmVnc

open Transition

variable {decoder : JPEGDecoder}

/-! ### How long it sleeps -/

namespace Server
variable {s : Server} {now : Int}

theorem paced_iff {k : Client} (direct : k.wantsDirectJPEG = true) : s.paced k now = true ↔
    s.lastJPEGSent ≠ 0 ∧ now < s.lastJPEGSent + s.jpegInterval - s.jpegSlack ∧ k.data.forceUpdate = false := by
  rw [paced, if_pos direct]
  simp only [Bool.and_eq_true, decide_eq_true_eq, Bool.not_eq_true', and_assoc]
  constructor
  · rintro ⟨hsent, hgate, hforced⟩
    exact ⟨hsent, by omega, hforced⟩
  · rintro ⟨hsent, hgate, hforced⟩
    exact ⟨hsent, by omega, hforced⟩

/-- The timeout for a limiter that opens later, but within the milliseconds that an `int` holds. -/
theorem pollTimeout_of_lt (sent : s.lastJPEGSent ≠ 0) (hdue : now < s.lastJPEGSent + s.jpegInterval - s.jpegSlack)
    (near : s.lastJPEGSent + s.jpegInterval - s.jpegSlack - now ≤ (2 ^ 31 - 1) * 1000000) :
    s.pollTimeout now = min 20 (((s.lastJPEGSent + s.jpegInterval - s.jpegSlack - now) / 1000 + 999) / 1000) := by
  unfold pollTimeout
  dsimp only
  rw [if_pos ⟨sent, hdue⟩, Int.bmod_eq_of_le (by omega) (by omega)]

end Server

open Server in
/-- While the rate limiter holds back a client that is sent JPEG, and opens within the milliseconds that an `int` holds,
    `poll` waits for 20 ms or for what is left, in whole milliseconds: the client is still held back a millisecond before
    the end of the wait, and no more a microsecond after it, unless the wait was cut at 20 ms. -/
theorem poll_meets_limiter (s : Server) (now : Int) {k : Client} (direct : k.wantsDirectJPEG = true)
    (paced : s.paced k now = true)
    (near : s.lastJPEGSent + s.jpegInterval - s.jpegSlack - now ≤ (2 ^ 31 - 1) * 1000000) :
    0 ≤ s.pollTimeout now ∧ s.pollTimeout now ≤ 20 ∧
      (∀ t, now ≤ t → t ≤ now + (s.pollTimeout now - 1) * 1000000 → s.paced k t = true) ∧
      (s.pollTimeout now < 20 → ∀ t, now + s.pollTimeout now * 1000000 + 1000 ≤ t → s.paced k t = false) := by
  obtain ⟨hsent, hdue, hforced⟩ := (paced_iff direct).mp paced
  rw [pollTimeout_of_lt hsent hdue near]
  generalize hrest : s.lastJPEGSent + s.jpegInterval - s.jpegSlack - now = rest
  refine ⟨by omega, by omega, fun t _ ht => ?_, fun hcut t ht => ?_⟩
  · exact (paced_iff direct).mpr ⟨hsent, by omega, hforced⟩
  · rw [Bool.eq_false_iff]
    intro hpaced
    obtain ⟨-, hgate, -⟩ := (paced_iff direct).mp hpaced
    omega

/-- The last JPEG was sent 20 ms ago, at 30 frames per second. -/
def heldServer : Server := { Server.start 30 false 1 1 ∅ with lastJPEGSent := 1000000000 }

theorem poll_meets_limiter_held : heldServer.pollTimeout 1020000000 = 10 ∧
    heldServer.paced { sock := some 5, tightQualityLevel := 5 } 1030001000 = false := by
  have hmeets := poll_meets_limiter heldServer 1020000000 (k := { sock := some 5, tightQualityLevel := 5 }) (by decide)
    (by decide) (by decide)
  exact ⟨by decide, hmeets.2.2.2 (by decide) _ (by decide)⟩

/-! ### What wakes it -/

/-- What other threads leave for `Run`. -/
inductive RunBox where
  | frame
  | audio
  | fatal
  deriving DecidableEq, Repr

/-- `Run` looks into the box before it polls again, or not at all. -/
def RunPlace.ahead : RunPlace → RunBox → Bool
  | .poll, _ => false
  | .check, box | .idle, box => box = .fatal
  | .processFrame, box => box ≠ .audio
  | _, _ => true

namespace ServerRun
variable {s t : ServerRun}

/-- `wake_fd_` as a bell. -/
def doorbell (s : ServerRun) : Doorbell.View RunBox where
  rung := 0 < s.wakeFd
  news
    | .frame => s.seen ≠ (s.server.latestFrame, s.server.latestSequence)
    | .audio => s.server.audioQueue ≠ []
    | .fatal => s.fatal = true
  ringing
    | .frame => s.media = .frame
    | .audio => s.audio = true
    | .fatal => s.media = .fatal
  ahead box := s.place.ahead box = true

theorem eventWrite_pos (counter : Nat) : 0 < eventWrite counter := by
  unfold eventWrite
  split
  · exact Nat.succ_pos counter
  · omega

/-- What the invariants say of a run. -/
structure Awake (s : ServerRun) : Prop where
  counted : s.server.ClientsCounted
  heard : Doorbell.Heard s.doorbell

theorem mediaStep_heard (h : Doorbell.Heard s.doorbell) (hstep : s.mediaStep = some t) : Doorbell.Heard t.doorbell := by
  unfold mediaStep at hstep
  cases hmedia : s.media with
  | idle =>
    rw [hmedia] at hstep
    cases hstep
  | frame =>
    rw [hmedia] at hstep
    cases hstep
    exact .ring (eventWrite_pos s.wakeFd)
  | error =>
    rw [hmedia] at hstep
    cases hstep
    refine h.keep id (fun box hnews => ?_) (fun box hringing => ?_) fun _ hahead => .inl hahead
    · cases box with
      | frame => exact .inl hnews
      | audio => exact .inl hnews
      | fatal => exact .inr (.inl rfl)
    · cases box with
      | frame =>
        change s.media = .frame at hringing
        rw [hmedia] at hringing
        cases hringing
      | audio => exact hringing
      | fatal => rfl
  | fatal =>
    rw [hmedia] at hstep
    cases hstep
    exact .ring (eventWrite_pos s.wakeFd)

/-- No callback of the media thread is under way that will ring. -/
theorem not_ringing (idle : s.media = .idle) {box : RunBox} (h : s.doorbell.ringing box) : box = .audio := by
  cases box with
  | frame =>
    change s.media = .frame at h
    rw [idle] at h
    cases h
  | audio => rfl
  | fatal =>
    change s.media = .fatal at h
    rw [idle] at h
    cases h

theorem check_heard (h : Doorbell.Heard s.doorbell) (hplace : s.place = .check) : Doorbell.Heard s.check.doorbell := by
  unfold check
  split
  · exact .silence fun _ => rfl
  · rename_i hfatal
    split
    · exact .silence fun _ => rfl
    · refine h.keep id (fun _ hnews => .inl hnews) (fun _ hringing => hringing) fun box hahead => .inr ?_
      change s.place.ahead box = true at hahead
      rw [hplace] at hahead
      obtain rfl : box = .fatal := of_decide_eq_true hahead
      exact hfatal

theorem idle_heard (h : Doorbell.Heard s.doorbell) (hplace : s.place = .idle) (now : Int) :
    Doorbell.Heard (s.idle now).doorbell := by
  have hahead (t : ServerRun) (ht : t.place = .check ∨ ∃ how, t.place = .returned how) (box : RunBox)
      (hbox : s.doorbell.ahead box) : t.doorbell.ahead box := by
    change s.place.ahead box = true at hbox
    change t.place.ahead box = true
    rw [hplace] at hbox
    rcases ht with ht | ⟨how, ht⟩
    · rw [ht]
      exact hbox
    · rw [ht]
      rfl
  unfold idle
  split
  · refine h.keep id (fun _ hnews => .inl hnews) (fun _ hringing => hringing) fun box hbox => .inl (hahead _ ?_ box hbox)
    dsimp only
    split
    · exact .inr ⟨_, rfl⟩
    · exact .inl rfl
  · exact h.keep id (fun _ hnews => .inl hnews) (fun _ hringing => hringing) fun box hbox =>
      .inl (hahead _ (.inl rfl) box hbox)

theorem Awake.step (h : s.Awake) {action : RunAction} (hstep : s.step decoder action = some t) : t.Awake := by
  cases action with
  | signal =>
    cases hstep
    exact ⟨h.counted, h.heard.keep id (fun _ hnews => .inl hnews) (fun _ hr => hr) fun _ ha => .inl ha⟩
  | setFrame frame =>
    simp only [ServerRun.step, Option.ite_none_right_eq_some, Option.some.injEq] at hstep
    obtain ⟨⟨hidle, -⟩, rfl⟩ := hstep
    refine ⟨⟨h.counted.nodup, h.counted.count⟩, h.heard.keep id (fun box hnews => ?_) (fun box hr => ?_) fun _ ha => .inl ha⟩
    · cases box with
      | frame => exact .inr (.inl rfl)
      | audio => exact .inl hnews
      | fatal => exact .inl hnews
    · obtain rfl := not_ringing hidle hr
      exact hr
  | setFatal error =>
    simp only [ServerRun.step, Option.ite_none_right_eq_some, Option.some.injEq] at hstep
    obtain ⟨⟨hidle, -⟩, rfl⟩ := hstep
    refine ⟨h.counted, h.heard.keep id (fun box hnews => ?_) (fun box hr => ?_) fun _ ha => .inl ha⟩
    · cases box with
      | frame => exact .inl hnews
      | audio => exact .inl hnews
      | fatal => exact .inl hnews
    · obtain rfl := not_ringing hidle hr
      exact hr
  | media =>
    refine ⟨?_, mediaStep_heard h.heard hstep⟩
    simp only [ServerRun.step, mediaStep] at hstep
    cases hmedia : s.media <;> rw [hmedia] at hstep <;> cases hstep <;> exact h.counted
  | queueAudio pcm =>
    simp only [ServerRun.step, Option.ite_none_right_eq_some, Option.some.injEq] at hstep
    obtain ⟨⟨hidle, -⟩, rfl⟩ := hstep
    obtain ⟨audioQueue, hqueue, hnew⟩ := Server.queueAudio_eq s.server pcm
    rw [hqueue]
    refine ⟨⟨h.counted.nodup, h.counted.count⟩, h.heard.keep id (fun box hnews => ?_) (fun box hr => ?_) fun _ ha => .inl ha⟩
    · cases box with
      | frame => exact .inl hnews
      | fatal => exact .inl hnews
      | audio =>
        rcases hnew with rfl | hne
        · exact .inl hnews
        · exact .inr (.inl (decide_eq_true hne))
    · cases box with
      | frame => exact hr
      | fatal => exact hr
      | audio =>
        change s.audio = true at hr
        rw [hidle] at hr
        cases hr
  | audio =>
    simp only [ServerRun.step, Option.ite_none_right_eq_some, Option.some.injEq] at hstep
    obtain ⟨-, rfl⟩ := hstep
    exact ⟨h.counted, .ring (eventWrite_pos s.wakeFd)⟩
  | check =>
    simp only [ServerRun.step, Option.ite_none_right_eq_some, Option.some.injEq] at hstep
    obtain ⟨hplace, rfl⟩ := hstep
    refine ⟨?_, check_heard h.heard hplace⟩
    unfold ServerRun.check
    split
    · exact h.counted
    · split <;> exact h.counted
  | poll woken =>
    simp only [ServerRun.step, Option.ite_none_right_eq_some, Option.some.injEq] at hstep
    obtain ⟨-, rfl⟩ := hstep
    exact ⟨h.counted, .silence fun _ => rfl⟩
  | read =>
    simp only [ServerRun.step, Option.ite_none_right_eq_some, Option.some.injEq] at hstep
    obtain ⟨hplace, rfl⟩ := hstep
    split
    · exact ⟨h.counted, .silence fun _ => rfl⟩
    · refine ⟨h.counted, .silence fun box => ?_⟩
      change s.place.ahead box = true
      rw [hplace]
      rfl
  | events env =>
    simp only [ServerRun.step, Option.ite_none_right_eq_some, Option.map_eq_some_iff] at hstep
    obtain ⟨-, server, hserver, rfl⟩ := hstep
    exact ⟨(Server.handled_pollClientEvents h.counted hserver).counted h.counted, .silence fun _ => rfl⟩
  | syncSubscription =>
    simp only [ServerRun.step, Option.ite_none_right_eq_some, Option.some.injEq] at hstep
    obtain ⟨-, rfl⟩ := hstep
    exact ⟨Server.clientsCounted_syncSubscription h.counted, .silence fun _ => rfl⟩
  | syncAudioSubscription =>
    simp only [ServerRun.step, Option.ite_none_right_eq_some, Option.some.injEq] at hstep
    obtain ⟨-, rfl⟩ := hstep
    exact ⟨Server.clientsCounted_step decoder .syncAudioSubscription h.counted rfl, .silence fun _ => rfl⟩
  | processAudio ok =>
    simp only [ServerRun.step, Option.ite_none_right_eq_some, Option.some.injEq] at hstep
    obtain ⟨-, rfl⟩ := hstep
    have hhandled := Server.handled_processAudio h.counted ok
    refine ⟨hhandled.counted ⟨h.counted.nodup, h.counted.count⟩, fun box hnews => ?_⟩
    cases box with
    | frame => exact .inr (.inr rfl)
    | fatal => exact .inr (.inr rfl)
    | audio => exact absurd hhandled.audioQueue hnews
  | processFrame env =>
    simp only [ServerRun.step, Option.ite_none_right_eq_some] at hstep
    obtain ⟨⟨hplace, hmutex⟩, hstep⟩ := hstep
    cases hframe : s.server.processFrame decoder env with
    | none =>
      rw [hframe] at hstep
      cases hstep
      exact ⟨h.counted, .silence fun _ => rfl⟩
    | some server =>
      rw [hframe] at hstep
      cases hstep
      have hhandled := Server.handled_processFrame h.counted hframe
      refine ⟨hhandled.counted h.counted, h.heard.keep id (fun box hnews => ?_) (fun box hr => ?_) fun box hahead => ?_⟩
      · cases box with
        | frame => exact absurd (by rw [hhandled.latestFrame, hhandled.latestSequence]) hnews
        | audio =>
          change server.audioQueue ≠ [] at hnews
          rw [hhandled.audioQueue] at hnews
          exact .inl hnews
        | fatal => exact .inl hnews
      · cases box with
        | frame => exact hr
        | audio => exact hr
        | fatal => exact hr
      · cases box with
        | frame => exact .inr (not_not_intro (by rw [hhandled.latestFrame, hhandled.latestSequence]))
        | audio =>
          change s.place.ahead .audio = true at hahead
          rw [hplace] at hahead
          cases hahead
        | fatal => exact .inl rfl
  | idle now =>
    simp only [ServerRun.step, Option.ite_none_right_eq_some, Option.some.injEq] at hstep
    obtain ⟨hplace, rfl⟩ := hstep
    refine ⟨?_, idle_heard h.heard hplace now⟩
    unfold ServerRun.idle
    split <;> exact h.counted

theorem awake_start (fps : Nat) (audioAvailable : Bool) (width height : UInt16) (listening : Finset Nat)
    (socketActivated : Bool) (now : Int) :
    (start (.start fps audioAvailable width height listening) socketActivated now).Awake := by
  refine ⟨⟨List.nodup_nil, rfl⟩, fun box hnews => ?_⟩
  cases box with
  | frame => exact absurd rfl hnews
  | audio => exact absurd rfl hnews
  | fatal => cases hnews

/-! ### When it gives the listener back -/

/-- When a client was seen last: at construction, or at the last check that found one. -/
def lastActive (start : Int) (checks : List (Int × Bool)) : Int :=
  checks.foldl (fun last check => if check.2 then check.1 else last) start

/-- The last check has found no client, and none was seen in the 30 seconds before it. -/
def Expired (start : Int) (checks : List (Int × Bool)) : Prop :=
  ∃ earlier now, checks = earlier ++ [(now, false)] ∧ IdleTimeout.limit ≤ now - lastActive start earlier

theorem lastActive_concat (start : Int) (checks : List (Int × Bool)) (now : Int) (active : Bool) :
    lastActive start (checks ++ [(now, active)]) = if active then now else lastActive start checks := by
  rw [lastActive, List.foldl_concat]
  rfl

theorem expired_concat {start now : Int} {checks : List (Int × Bool)} {active : Bool} :
    Expired start (checks ++ [(now, active)]) ↔
      active = false ∧ IdleTimeout.limit ≤ now - lastActive start checks := by
  constructor
  · rintro ⟨earlier, at_, heq, hlimit⟩
    obtain ⟨rfl, hcheck⟩ := List.append_inj' heq rfl
    cases hcheck
    exact ⟨rfl, hlimit⟩
  · rintro ⟨rfl, hlimit⟩
    exact ⟨checks, now, rfl, hlimit⟩

/-- What the timeout knows, and how `Run` has ended if it has. -/
structure Timed (start : Int) (s : ServerRun) : Prop where
  last : s.idleTimeout.lastActive = lastActive start s.checks
  activated : s.checks ≠ [] → s.socketActivated = true
  ended : s.place = .returned .idle ↔ Expired start s.checks
  alone : s.place = .returned .idle → s.server.clientCount = 0

/-- A step that does not check the timeout, and does not go on behind the end of `Run`. -/
theorem Timed.of_same {start : Int} (h : s.Timed start) (timeout : t.idleTimeout = s.idleTimeout)
    (checks : t.checks = s.checks) (activated : t.socketActivated = s.socketActivated)
    (ended : t.place = .returned .idle ↔ s.place = .returned .idle)
    (alone : s.place = .returned .idle → t.server.clientCount = s.server.clientCount) : t.Timed start where
  last := by rw [timeout, checks, h.last]
  activated := by
    rw [checks, activated]
    exact h.activated
  ended := by rw [ended, checks, h.ended]
  alone hended := by rw [alone (ended.mp hended), h.alone (ended.mp hended)]

/-- A step of `Run` itself, from a place where it has not ended. -/
theorem Timed.of_place {start : Int} (h : s.Timed start) {place : RunPlace} (hplace : s.place = place)
    (going : place ≠ .returned .idle) (timeout : t.idleTimeout = s.idleTimeout) (checks : t.checks = s.checks)
    (activated : t.socketActivated = s.socketActivated) (ended : t.place ≠ .returned .idle) : t.Timed start :=
  h.of_same timeout checks activated ⟨fun ht => absurd ht ended, fun hs => absurd (hplace.symm.trans hs) going⟩
    fun hs => absurd (hplace.symm.trans hs) going

theorem Timed.idle {start : Int} (h : s.Timed start) (hplace : s.place = .idle) (now : Int) : (s.idle now).Timed start := by
  unfold ServerRun.idle
  split
  · rename_i hactivated
    have hchecked : Expired start (s.checks ++ [(now, decide (s.server.clientCount ≠ 0))]) ↔
        (s.idleTimeout.expired (decide (s.server.clientCount ≠ 0)) now).1 = true := by
      rw [expired_concat, ← h.last]
      cases hactive : decide (s.server.clientCount ≠ 0) <;> simp [IdleTimeout.expired]
    refine ⟨?_, fun _ => hactivated, ?_, fun hended => ?_⟩
    · dsimp only
      rw [lastActive_concat, ← h.last]
      cases decide (s.server.clientCount ≠ 0) <;> rfl
    · dsimp only
      rw [hchecked]
      split
      · rename_i hexpired
        exact ⟨fun _ => hexpired, fun _ => rfl⟩
      · rename_i hgoing
        exact ⟨nofun, fun hexpired => absurd hexpired hgoing⟩
    · dsimp only at hended
      split at hended
      · rename_i hexpired
        have hinactive := (expired_concat.mp (hchecked.mpr hexpired)).1
        exact not_not.mp (of_decide_eq_false hinactive)
      · cases hended
  · exact h.of_place hplace nofun rfl rfl rfl nofun

theorem Timed.step {start : Int} (h : s.Timed start) {action : RunAction} (hstep : s.step decoder action = some t) :
    t.Timed start := by
  cases action with
  | signal =>
    cases hstep
    exact h.of_same rfl rfl rfl Iff.rfl fun _ => rfl
  | setFrame frame =>
    simp only [ServerRun.step, Option.ite_none_right_eq_some, Option.some.injEq] at hstep
    obtain ⟨-, rfl⟩ := hstep
    exact h.of_same rfl rfl rfl Iff.rfl fun _ => rfl
  | setFatal error =>
    simp only [ServerRun.step, Option.ite_none_right_eq_some, Option.some.injEq] at hstep
    obtain ⟨-, rfl⟩ := hstep
    exact h.of_same rfl rfl rfl Iff.rfl fun _ => rfl
  | media =>
    simp only [ServerRun.step, mediaStep] at hstep
    cases hmedia : s.media <;> rw [hmedia] at hstep <;> cases hstep <;>
      exact h.of_same rfl rfl rfl Iff.rfl fun _ => rfl
  | queueAudio pcm =>
    simp only [ServerRun.step, Option.ite_none_right_eq_some, Option.some.injEq] at hstep
    obtain ⟨-, rfl⟩ := hstep
    obtain ⟨audioQueue, hqueue, -⟩ := Server.queueAudio_eq s.server pcm
    exact h.of_same rfl rfl rfl Iff.rfl fun _ => by rw [hqueue]
  | audio =>
    simp only [ServerRun.step, Option.ite_none_right_eq_some, Option.some.injEq] at hstep
    obtain ⟨-, rfl⟩ := hstep
    exact h.of_same rfl rfl rfl Iff.rfl fun _ => rfl
  | check =>
    simp only [ServerRun.step, Option.ite_none_right_eq_some, Option.some.injEq] at hstep
    obtain ⟨hplace, rfl⟩ := hstep
    unfold ServerRun.check
    split
    · exact h.of_place hplace nofun rfl rfl rfl nofun
    · split <;> exact h.of_place hplace nofun rfl rfl rfl nofun
  | poll woken =>
    simp only [ServerRun.step, Option.ite_none_right_eq_some, Option.some.injEq] at hstep
    obtain ⟨⟨hplace, -⟩, rfl⟩ := hstep
    exact h.of_place hplace nofun rfl rfl rfl nofun
  | read =>
    simp only [ServerRun.step, Option.ite_none_right_eq_some, Option.some.injEq] at hstep
    obtain ⟨hplace, rfl⟩ := hstep
    split
    · exact h.of_place hplace nofun rfl rfl rfl nofun
    · exact h.of_same rfl rfl rfl Iff.rfl fun _ => rfl
  | events env =>
    simp only [ServerRun.step, Option.ite_none_right_eq_some, Option.map_eq_some_iff] at hstep
    obtain ⟨hplace, server, -, rfl⟩ := hstep
    exact h.of_place hplace nofun rfl rfl rfl nofun
  | syncSubscription =>
    simp only [ServerRun.step, Option.ite_none_right_eq_some, Option.some.injEq] at hstep
    obtain ⟨⟨hplace, -⟩, rfl⟩ := hstep
    exact h.of_place hplace nofun rfl rfl rfl nofun
  | syncAudioSubscription =>
    simp only [ServerRun.step, Option.ite_none_right_eq_some, Option.some.injEq] at hstep
    obtain ⟨⟨hplace, -⟩, rfl⟩ := hstep
    exact h.of_place hplace nofun rfl rfl rfl nofun
  | processAudio ok =>
    simp only [ServerRun.step, Option.ite_none_right_eq_some, Option.some.injEq] at hstep
    obtain ⟨⟨hplace, -⟩, rfl⟩ := hstep
    exact h.of_place hplace nofun rfl rfl rfl nofun
  | processFrame env =>
    simp only [ServerRun.step, Option.ite_none_right_eq_some] at hstep
    obtain ⟨⟨hplace, -⟩, hstep⟩ := hstep
    cases hframe : s.server.processFrame decoder env with
    | none =>
      rw [hframe] at hstep
      cases hstep
      exact h.of_place hplace nofun rfl rfl rfl nofun
    | some server =>
      rw [hframe] at hstep
      cases hstep
      exact h.of_place hplace nofun rfl rfl rfl nofun
  | idle now =>
    simp only [ServerRun.step, Option.ite_none_right_eq_some, Option.some.injEq] at hstep
    obtain ⟨hplace, rfl⟩ := hstep
    exact h.idle hplace now

theorem timed_start (server : Server) (socketActivated : Bool) (now : Int) :
    (start server socketActivated now).Timed now := by
  refine ⟨rfl, fun hne => absurd rfl hne, ⟨nofun, ?_⟩, nofun⟩
  rintro ⟨earlier, at_, heq, -⟩
  exact absurd heq.symm (by simp [start])

end ServerRun

open ServerRun

/-- No wake-up is lost. Whenever `Run` is at `poll` and `wake_fd_` is not readable, it has seen the latest frame, taken
    all audio and looked at `fatal_`, except for what a callback has just stored, and that callback then writes. -/
theorem wakeups_kept {fps : Nat} {audioAvailable : Bool} {width height : UInt16} {listening : Finset Nat}
    {socketActivated : Bool} {now : Int} {actions : List RunAction} {s : ServerRun}
    (h : run (step decoder) (start (.start fps audioAvailable width height listening) socketActivated now) actions = some s) :
    (s.place = .poll → s.wakeFd = 0 →
      (s.media ≠ .frame → s.seen = (s.server.latestFrame, s.server.latestSequence)) ∧
      (s.audio = false → s.server.audioQueue = []) ∧ (s.media ≠ .fatal → s.fatal = false)) ∧
    (s.media = .frame ∨ s.media = .fatal → ∃ t, s.step decoder .media = some t ∧ 0 < t.wakeFd) ∧
    (s.audio = true → ∃ t, s.step decoder .audio = some t ∧ 0 < t.wakeFd) := by
  have hawake : s.Awake := run_invariant (P := Awake) (awake_start ..) (fun _ _ _ hu ha => hu.step ha) h
  refine ⟨fun hplace hsilent => ?_, fun hmedia => ?_, fun haudio => ?_⟩
  · have hquiet (box : RunBox) (hringing : ¬ s.doorbell.ringing box) : ¬ s.doorbell.news box := by
      refine hawake.heard.quiet (fun hrung => ?_) hringing fun hahead => ?_
      · change 0 < s.wakeFd at hrung
        omega
      · change s.place.ahead box = true at hahead
        rw [hplace] at hahead
        cases hahead
    refine ⟨fun hmedia => ?_, fun haudio => ?_, fun hmedia => ?_⟩
    · exact not_not.mp (hquiet .frame hmedia)
    · exact not_not.mp (hquiet .audio (Bool.eq_false_iff.mp haudio))
    · exact Bool.eq_false_iff.mpr (hquiet .fatal hmedia)
  · rcases hmedia with hmedia | hmedia
    · exact ⟨{ s.wake with media := .idle }, by simp [step, mediaStep, hmedia], eventWrite_pos s.wakeFd⟩
    · exact ⟨{ s.wake with media := .idle }, by simp [step, mediaStep, hmedia], eventWrite_pos s.wakeFd⟩
  · exact ⟨{ s.wake with audio := false }, by simp [step, haudio], eventWrite_pos s.wakeFd⟩

/-- A turn of `Run` that begins at `poll`, without a frame to send. -/
def turn (events : List LibraryEvent) (now : Int) : List RunAction :=
  [.poll false, .read, .events { now, sendmsg := fun _ => .again, events }, .syncSubscription, .syncAudioSubscription,
    .processAudio fun _ _ => true, .processFrame { now, update := fun _ => none, sendmsg := fun _ => .again }, .idle now]

/-- A client connects, and a frame comes while `Run` polls. -/
theorem wakeups_kept_frame : ∃ s, run (step .grayRow) (start (.start 30 false 1 1 ∅) false 0)
      (.check :: turn [.accept 0 5 [82]] 1 ++ [.check, .setFrame { data := [0], width := 1, height := 1 }, .media,
        .poll true, .read] ++ (turn [] 2).tail ++ [.check]) = some s ∧
    s.seen = (some { data := [0], width := 1, height := 1 }, 1) := by
  have hrun : ((run (step .grayRow) (start (.start 30 false 1 1 ∅) false 0)
      (.check :: turn [.accept 0 5 [82]] 1 ++ [.check, .setFrame { data := [0], width := 1, height := 1 }, .media,
        .poll true, .read] ++ (turn [] 2).tail ++ [.check])).map fun s =>
      (s.place, s.wakeFd, s.media, s.server.latestFrame, s.server.latestSequence)) =
        some (.poll, 0, .idle, some { data := [0], width := 1, height := 1 }, 1) := by decide +kernel
  obtain ⟨s, hs, hstate⟩ := Option.map_eq_some_iff.mp hrun
  simp only [Prod.mk.injEq] at hstate
  obtain ⟨hplace, hsilent, hmedia, hframe, hsequence⟩ := hstate
  have hseen := ((wakeups_kept hs).1 hplace hsilent).1 (by rw [hmedia]; decide)
  exact ⟨s, hs, by rw [hseen, hframe, hsequence]⟩

/-- `Run` gives an activated listener back exactly at the check that finds no client for 30 seconds, and then there is
    none. -/
theorem idle_exit {fps : Nat} {audioAvailable : Bool} {width height : UInt16} {listening : Finset Nat}
    {socketActivated : Bool} {now : Int} {actions : List RunAction} {s : ServerRun}
    (h : run (step decoder) (start (.start fps audioAvailable width height listening) socketActivated now) actions = some s) :
    (s.place = .returned .idle ↔ Expired now s.checks) ∧
      (s.place = .returned .idle → s.socketActivated = true ∧ s.server.clients = []) := by
  have hawake : s.Awake := run_invariant (P := Awake) (awake_start ..) (fun _ _ _ hu ha => hu.step ha) h
  have htimed : s.Timed now := run_invariant (P := Timed now) (timed_start ..) (fun _ _ _ hu ha => hu.step ha) h
  refine ⟨htimed.ended, fun hended => ⟨htimed.activated ?_, List.eq_nil_of_length_eq_zero ?_⟩⟩
  · obtain ⟨earlier, at_, heq, -⟩ := htimed.ended.mp hended
    rw [heq]
    exact List.append_ne_nil_of_right_ne_nil _ (List.cons_ne_nil _ _)
  · rw [← hawake.counted.count, htimed.alone hended]

/-- A client connects and leaves at once, and no other one comes for 30 seconds. -/
theorem idle_exit_alone : ∃ s, run (step .grayRow) (start (.start 30 false 1 1 ∅) true 0)
      (.check :: turn [.accept 0 5 [82]] 1 ++ .check :: turn [.message 0 .close] 2 ++ .check :: turn [] 30000000001) = some s ∧
    s.place = .returned .idle ∧ s.server.clients = [] := by
  have hrun : ((run (step .grayRow) (start (.start 30 false 1 1 ∅) true 0)
      (.check :: turn [.accept 0 5 [82]] 1 ++ .check :: turn [.message 0 .close] 2 ++ .check :: turn [] 30000000001)).map
        fun s => s.checks) = some [(1, true), (2, false), (30000000001, false)] := by decide +kernel
  obtain ⟨s, hs, hchecks⟩ := Option.map_eq_some_iff.mp hrun
  have hexit := idle_exit hs
  have hended : s.place = .returned .idle :=
    hexit.1.mpr ⟨[(1, true), (2, false)], 30000000001, hchecks, by decide⟩
  exact ⟨s, hs, hended, (hexit.2 hended).2⟩

end OnekvmVnc
