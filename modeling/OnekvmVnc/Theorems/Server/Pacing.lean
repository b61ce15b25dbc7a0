import Mathlib.Data.List.TakeWhile
import OnekvmVnc.Lib.Cadence
import OnekvmVnc.Theorems.Server.Turns

/-! The schedules of the rate limiter. A JPEG moves its schedule to at most a tenth of an interval ahead, as
    long as no forced client is served while the gate is closed, and the fallback schedule is never ahead. -/

namespace OnekvmVnc

variable {decoder : JPEGDecoder}

namespace Server
variable {s t u : Server}

/-! ### The schedules in other steps -/

structure Held (s t : Server) : Prop where
  fps : t.fps = s.fps
  jpeg : t.lastJPEGSent = s.lastJPEGSent ∨ t.lastJPEGSent = 0
  framebuffer : t.lastFramebufferProcessed = s.lastFramebufferProcessed ∨ t.lastFramebufferProcessed = 0

theorem SameSchedule.held (h : SameSchedule s t) : Held s t :=
  ⟨h.fps, .inl h.lastJPEGSent, .inl h.lastFramebufferProcessed⟩

theorem rfbCloseClient_schedule (c : ClientPtr) : SameSchedule s (s.rfbCloseClient c) := by
  unfold rfbCloseClient
  cases (s.client c).sock <;> exact ⟨rfl, rfl, rfl, rfl⟩

theorem closeClients_schedule (closing : List ClientPtr) : SameSchedule s (s.closeClients closing) := by
  unfold closeClients
  induction closing generalizing s with
  | nil => exact .refl
  | cons c closing ih =>
    have hgone : SameSchedule (s.rfbCloseClient c) ((s.rfbCloseClient c).rfbClientConnectionGone c) := ⟨rfl, rfl, rfl, rfl⟩
    exact ((rfbCloseClient_schedule c).trans hgone).trans ih

theorem reapClosed_schedule (list : List ClientPtr) : SameSchedule s (reapClosed s list) := by
  induction list generalizing s with
  | nil => exact .refl
  | cons c rest ih =>
    rw [reapClosed]
    split
    · refine SameSchedule.trans ?_ ih
      exact ⟨rfl, rfl, rfl, rfl⟩
    · exact ih

theorem flushJPEGWrites_schedule (now : Int) (sendmsg : ClientPtr → SendResult) (list : List ClientPtr) :
    SameSchedule s (flushJPEGWrites now sendmsg s list) := by
  induction list generalizing s with
  | nil => exact .refl
  | cons c rest ih =>
    rw [flushJPEGWrites]
    dsimp only
    have hmodify (k : Client) : SameSchedule s (s.modify c fun _ => k) := ⟨rfl, rfl, rfl, rfl⟩
    split
    · exact ((hmodify _).trans (rfbCloseClient_schedule c)).trans ih
    · exact (hmodify _).trans ih

theorem processAudioLoop_schedule (queued : List (List Int16)) (ok : ClientPtr → Nat → Bool) (list : List ClientPtr) :
    SameSchedule s (processAudioLoop queued ok s list).1 := by
  induction list generalizing s with
  | nil => exact .refl
  | cons c rest ih =>
    have hmodify : SameSchedule s (s.modify c fun _ => ((s.client c).processAudio s.width s.height queued (ok c)).1) :=
      ⟨rfl, rfl, rfl, rfl⟩
    exact hmodify.trans ih

theorem checkFd_schedule {event : LibraryEvent} (h : s.checkFd event = some t) : SameSchedule s t := by
  cases event with
  | accept c fd version =>
    simp only [checkFd, Option.ite_none_right_eq_some, Option.some.injEq] at h
    obtain ⟨-, rfl⟩ := h
    exact ⟨rfl, rfl, rfl, rfl⟩
  | message c message =>
    simp only [checkFd, Option.ite_none_right_eq_some, Option.some.injEq] at h
    obtain ⟨-, rfl⟩ := h
    unfold handle
    dsimp only
    have hmodify (k : Client) : SameSchedule s (s.modify c fun _ => k) := ⟨rfl, rfl, rfl, rfl⟩
    split
    · exact (hmodify _).trans (rfbCloseClient_schedule c)
    · exact hmodify _

theorem restoreFds_schedule (fds : List (ClientPtr × Nat)) : SameSchedule s (restoreFds s fds) := by
  induction fds generalizing s with
  | nil => exact .refl
  | cons p rest ih =>
    obtain ⟨c, fd⟩ := p
    rw [restoreFds]
    split
    · refine SameSchedule.trans ?_ ih
      exact ⟨rfl, rfl, rfl, rfl⟩
    · exact ih

theorem pollClientEvents_schedule {env : PollEnv} (h : s.pollClientEvents env = some t) : SameSchedule s t := by
  simp only [pollClientEvents, Option.map_eq_some_iff] at h
  obtain ⟨v, hv, rfl⟩ := h
  have hchecked : SameSchedule s v := by
    refine Transition.run_invariant (P := fun v => SameSchedule s v) ?_
      (fun _ _ _ hu he => hu.trans (checkFd_schedule he)) hv
    exact ((flushJPEGWrites_schedule env.now env.sendmsg s.clients).trans (reapClosed_schedule _)).trans ⟨rfl, rfl, rfl, rfl⟩
  exact (hchecked.trans (restoreFds_schedule _)).trans (reapClosed_schedule _)

theorem resizeLoop_schedule (update : ClientPtr → Option (List UInt8)) (list : List ClientPtr) :
    SameSchedule s (resizeLoop update s list).1 := by
  induction list generalizing s with
  | nil => exact .refl
  | cons c rest ih =>
    rw [resizeLoop]
    dsimp only
    split
    · exact ih
    · split
      · refine SameSchedule.trans ?_ ih
        exact ⟨rfl, rfl, rfl, rfl⟩
      · refine SameSchedule.trans ?_ ih
        exact ⟨rfl, rfl, rfl, rfl⟩

theorem resize_schedule {width height : UInt16} {memory : Bool} {update : ClientPtr → Option (List UInt8)}
    (h : s.resize width height memory update = some t) : SameSchedule s t := by
  obtain rfl := resize_eq h
  have hresizing : SameSchedule s (s.resizing width height) := ⟨rfl, rfl, rfl, rfl⟩
  exact (hresizing.trans (resizeLoop_schedule update s.clients)).trans (closeClients_schedule _)

theorem syncSubscription_held : Held s s.syncSubscription := by
  unfold syncSubscription
  split
  · exact ⟨rfl, .inl rfl, .inl rfl⟩
  · split
    · exact ⟨rfl, .inr rfl, .inr rfl⟩
    · exact SameSchedule.refl.held

theorem syncAudioSubscription_schedule : SameSchedule s s.syncAudioSubscription := by
  unfold syncAudioSubscription
  dsimp only
  split
  · exact .refl
  · split
    · exact ⟨rfl, rfl, rfl, rfl⟩
    · split <;> exact ⟨rfl, rfl, rfl, rfl⟩

/-- Only `ProcessFrame` and `SyncSubscription` change the schedules. -/
theorem step_schedules {action : ServerAction} (h : step decoder s action = some t)
    (frame : ∀ env, action ≠ .processFrame env) (subscription : action ≠ .syncSubscription) :
    t.fps = s.fps ∧ t.lastJPEGSent = s.lastJPEGSent ∧ t.lastFramebufferProcessed = s.lastFramebufferProcessed := by
  have hschedule {s t : Server} (h : SameSchedule s t) :
      t.fps = s.fps ∧ t.lastJPEGSent = s.lastJPEGSent ∧ t.lastFramebufferProcessed = s.lastFramebufferProcessed :=
    ⟨h.fps, h.lastJPEGSent, h.lastFramebufferProcessed⟩
  cases action with
  | setFrame frame =>
    obtain rfl := Option.some.inj h
    exact ⟨rfl, rfl, rfl⟩
  | queueAudio pcm =>
    obtain rfl := Option.some.inj h
    unfold queueAudio
    split <;> exact ⟨rfl, rfl, rfl⟩
  | pollClientEvents env => exact hschedule (pollClientEvents_schedule h)
  | syncSubscription => exact absurd rfl subscription
  | syncAudioSubscription =>
    obtain rfl := Option.some.inj h
    exact hschedule syncAudioSubscription_schedule
  | processAudio ok =>
    obtain rfl := Option.some.inj h
    have htaken : SameSchedule s { s with audioQueue := [] } := ⟨rfl, rfl, rfl, rfl⟩
    exact hschedule ((htaken.trans (processAudioLoop_schedule s.audioQueue ok s.clients)).trans (closeClients_schedule _))
  | processFrame env => exact absurd rfl (frame env)

/-- A step other than `ProcessFrame` holds the schedules. -/
theorem step_held {action : ServerAction} (h : step decoder s action = some t)
    (other : ∀ env, action ≠ .processFrame env) : Held s t := by
  by_cases hsync : action = .syncSubscription
  · subst hsync
    obtain rfl := Option.some.inj h
    exact syncSubscription_held
  · obtain ⟨hfps, hjpeg, hframebuffer⟩ := step_schedules h other hsync
    exact ⟨hfps, .inl hjpeg, .inl hframebuffer⟩

/-! ### The schedules in `ProcessFrame` -/

def frameLoop (s : Server) (decoder : JPEGDecoder) (env : FrameEnv) (frame : JPEGFrame) : FrameLoop :=
  FrameLoop.clients { server := s } decoder env frame s.latestSequence s.clients

theorem processFrame_eq {frame : JPEGFrame} (h : s.Current frame) (env : FrameEnv) :
    s.processFrame decoder env = some (finishFrame env (s.frameLoop decoder env frame)) := by
  rw [processFrame, h.latest]
  dsimp only
  rw [if_neg h.sequence, if_neg (by simp [h.width, h.height])]
  rfl

theorem processFrame_schedule {env : FrameEnv} (h : s.processFrame decoder env = some t)
    (none : ∀ frame, ¬s.Current frame) : SameSchedule s t := by
  rcases processFrame_cases h with ⟨frame, hcurrent, -⟩ | ⟨-, rfl | ⟨width, height, memory, update, -, -, hresize⟩⟩
  · exact absurd hcurrent (none frame)
  · exact .refl
  · exact resize_schedule hresize

theorem SameSchedule.last (h : SameSchedule s t) (direct : Bool) : t.last direct = s.last direct := by
  unfold Server.last
  rw [h.lastJPEGSent, h.lastFramebufferProcessed]

theorem SameSchedule.advanceJPEGSent (h : SameSchedule s t) (now : Int) : t.advanceJPEGSent now = s.advanceJPEGSent now := by
  unfold Server.advanceJPEGSent jpegInterval
  rw [h.lastJPEGSent, h.fps]

theorem slack_eq (h : t.fps = s.fps) (direct : Bool) : t.slack direct = s.slack direct := by
  unfold slack jpegSlack
  rw [h]

theorem finishFrame_schedule (env : FrameEnv) (l : FrameLoop) : (finishFrame env l).fps = l.server.fps ∧
    (finishFrame env l).latestSequence = l.server.latestSequence ∧
    (finishFrame env l).lastJPEGSent =
      (if l.taken true then l.server.advanceJPEGSent env.now else l.server.lastJPEGSent) ∧
    (finishFrame env l).lastFramebufferProcessed =
      (if l.taken false then env.now else l.server.lastFramebufferProcessed) := by
  have hclosed : SameSchedule l.server (l.server.closeClients l.closing) := closeClients_schedule l.closing
  unfold finishFrame FrameLoop.taken
  dsimp only
  generalize l.server.closeClients l.closing = t at hclosed
  have hflushed := flushJPEGWrites_schedule (s := { t with lastJPEGSent := t.advanceJPEGSent env.now })
    env.flushed env.sendmsg t.clients
  rw [← hclosed.fps, ← hclosed.latestSequence, ← hclosed.advanceJPEGSent, ← hclosed.lastJPEGSent,
    ← hclosed.lastFramebufferProcessed]
  cases l.sentJPEG with
  | true =>
    simp only [if_true]
    split
    · rename_i hprocessed
      exact ⟨hflushed.fps, hflushed.latestSequence, hflushed.lastJPEGSent, by simp [hprocessed]⟩
    · rename_i hprocessed
      exact ⟨hflushed.fps, hflushed.latestSequence, hflushed.lastJPEGSent,
        by simpa [hprocessed] using hflushed.lastFramebufferProcessed⟩
  | false =>
    simp only [if_true, Bool.false_eq_true, if_false]
    split <;> exact ⟨rfl, rfl, rfl, by simp⟩

theorem microseconds_nonneg (n : Nat) : 0 ≤ microseconds n := by
  unfold microseconds
  omega

theorem advanceJPEGSent_eq (h : s.lastJPEGSent ≠ 0) (now : Int) :
    s.advanceJPEGSent now = Cadence.advance s.jpegInterval s.lastJPEGSent now := by
  have hinterval : 0 ≤ s.jpegInterval := microseconds_nonneg _
  unfold advanceJPEGSent Cadence.advance
  rw [if_neg h]
  dsimp only
  split
  · rw [Int.tdiv_eq_ediv_of_nonneg (by omega)]
  · rfl

/-- A JPEG schedule that moves while its gate is open goes at most the slack ahead. -/
theorem advanceJPEGSent_le {now : Int} (h : s.gateClosed true now = false) :
    s.advanceJPEGSent now ≤ now + s.slack true := by
  have hslack : 0 ≤ s.jpegSlack := microseconds_nonneg _
  unfold gateClosed last interval slack at h
  unfold slack
  simp only [if_true, Bool.and_eq_false_iff, decide_eq_false_iff_not, not_not, not_lt] at h ⊢
  by_cases hlast : s.lastJPEGSent = 0
  · unfold advanceJPEGSent
    rw [if_pos hlast]
    omega
  · have hopen := h.resolve_left hlast
    rw [advanceJPEGSent_eq hlast]
    exact Cadence.advance_le hslack (by omega)

def Serves (s : Server) (now : Int) (direct : Bool) : Prop :=
  ∃ frame, s.Current frame ∧ ∃ c ∈ s.clients, FrameLoop.Served { server := s } s.latestSequence now direct c

/-- No client of the kind that waits is forced through a closed gate. -/
def Unforced (s : Server) (now : Int) (direct : Bool) : Prop :=
  ∀ c ∈ s.clients, waiting (s.client c) s.latestSequence = true → (s.client c).wantsDirectJPEG = direct →
    (s.client c).data.forceUpdate = true → s.gateClosed direct now = false

theorem Unforced.gate {now : Int} {direct : Bool} (h : s.Unforced now direct) (hs : s.Serves now direct) :
    s.gateClosed direct now = false := by
  obtain ⟨frame, -, c, hc, hserved⟩ := hs
  have hpaced := hserved.paced
  rw [paced_eq, hserved.kind, Bool.and_eq_false_iff, Bool.not_eq_false'] at hpaced
  rcases hpaced with hopen | hforced
  · exact hopen
  · exact h c hc hserved.waiting hserved.kind hforced

/-- `ProcessFrame` moves a schedule only if some client has its turn, and at most the slack ahead. -/
theorem processFrame_last {env : FrameEnv} (nodup : s.clients.Nodup) {direct : Bool}
    (unforced : direct = true → s.Unforced env.now direct) (h : s.processFrame decoder env = some t) :
    t.fps = s.fps ∧ t.latestSequence = s.latestSequence ∧
      (t.last direct = s.last direct ∨ (s.Serves env.now direct ∧ t.last direct ≤ env.now + s.slack direct)) := by
  by_cases hcurrent : ∃ frame, s.Current frame
  · obtain ⟨frame, hcurrent⟩ := hcurrent
    rw [processFrame_eq hcurrent] at h
    obtain rfl := Option.some.inj h
    have hschedule : SameSchedule s (s.frameLoop decoder env frame).server :=
      (FrameLoop.clients_schedule (l := { server := s }) s.clients).1
    obtain ⟨hfps, hsequence, hjpeg, hframebuffer⟩ := finishFrame_schedule env (s.frameLoop decoder env frame)
    -- A schedule moves only for a turn that was due before the loop began.
    have hserves : (s.frameLoop decoder env frame).taken direct = true → s.Serves env.now direct := fun htaken => by
      rcases FrameLoop.clients_taken nodup htaken with hstart | hserved
      · cases direct <;> cases hstart
      · exact ⟨frame, hcurrent, hserved⟩
    refine ⟨hfps.trans hschedule.fps, hsequence.trans hschedule.latestSequence, ?_⟩
    cases htaken : (s.frameLoop decoder env frame).taken direct with
    | false =>
      left
      rw [← hschedule.last]
      cases direct with
      | true => exact hjpeg.trans (by rw [htaken]; rfl)
      | false => exact hframebuffer.trans (by rw [htaken]; rfl)
    | true =>
      refine .inr ⟨hserves htaken, ?_⟩
      cases direct with
      | true =>
        have hlast : (finishFrame env (s.frameLoop decoder env frame)).last true = s.advanceJPEGSent env.now := by
          rw [← hschedule.advanceJPEGSent]
          exact hjpeg.trans (by rw [htaken]; rfl)
        rw [hlast]
        exact advanceJPEGSent_le ((unforced rfl).gate (hserves htaken))
      | false =>
        have hlast : (finishFrame env (s.frameLoop decoder env frame)).last false = env.now :=
          hframebuffer.trans (by rw [htaken]; rfl)
        rw [hlast]
        show env.now ≤ env.now + 0
        omega
  · have hschedule := processFrame_schedule h fun frame hframe => hcurrent ⟨frame, hframe⟩
    exact ⟨hschedule.fps, hschedule.latestSequence, .inl (hschedule.last direct)⟩

/-! ### A client that is not skipped -/

/-- What comes of a client that is not skipped: it is closed, is sent the frame, or has nothing to be sent. -/
def Examined (s t : Server) (c : ClientPtr) : Prop :=
  c ∉ t.clients ∨ FrameLoop.Sent (t.client c) s.latestSequence ∨
    (t.client c).modifiedRegion ∩ (t.client c).requestedRegion = ∅

/-- `ProcessFrame` skips the client for the rate limiter, when its turn comes. -/
def skips (s : Server) (decoder : JPEGDecoder) (env : FrameEnv) (c : ClientPtr) : Bool :=
  match s.latestFrame with
  | none => false
  | some frame =>
    if s.latestSequence = 0 ∨ frame.width ≠ s.width ∨ frame.height ≠ s.height then false
    else
      let l := FrameLoop.clients { server := s } decoder env frame s.latestSequence (s.clients.takeWhile (· ≠ c))
      waiting (l.server.client c) s.latestSequence && l.server.paced (l.server.client c) env.now

/-- The turns before leave to the client whether it is skipped. -/
theorem skips_eq {frame : JPEGFrame} (h : s.Current frame) (env : FrameEnv) (c : ClientPtr) :
    s.skips decoder env c = (waiting (s.client c) s.latestSequence && s.paced (s.client c) env.now) := by
  have hc : c ∉ s.clients.takeWhile (· ≠ c) := fun hmem => by simpa using List.mem_takeWhile_imp hmem
  have haside : FrameLoop.Aside { server := s }
      (FrameLoop.clients { server := s } decoder env frame s.latestSequence (s.clients.takeWhile (· ≠ c))) c :=
    FrameLoop.clients_aside hc
  unfold skips
  rw [h.latest]
  dsimp only
  rw [if_neg (by simp [h.sequence, h.width, h.height])]
  generalize FrameLoop.clients { server := s } decoder env frame s.latestSequence (s.clients.takeWhile (· ≠ c)) = l at haside
  obtain ⟨region, hclient⟩ := haside.client
  rw [haside.schedule.paced, hclient]
  rfl

/-- The two clients agree on what `Examined` says of them, and on what was sent to them. -/
structure SameFlags (k k' : Client) : Prop where
  history : k'.history = k.history
  modifiedRegion : k'.modifiedRegion = k.modifiedRegion
  requestedRegion : k'.requestedRegion = k.requestedRegion
  forceUpdate : k'.data.forceUpdate = k.data.forceUpdate
  lastSequence : k'.data.lastSequence = k.data.lastSequence

theorem SameFlags.trans {k k' k'' : Client} (h : SameFlags k k') (h' : SameFlags k' k'') : SameFlags k k'' :=
  ⟨h'.history.trans h.history, h'.modifiedRegion.trans h.modifiedRegion, h'.requestedRegion.trans h.requestedRegion,
    h'.forceUpdate.trans h.forceUpdate, h'.lastSequence.trans h.lastSequence⟩

theorem rfbCloseClient_flags (c d : ClientPtr) : SameFlags (s.client c) ((s.rfbCloseClient d).client c) := by
  by_cases hcd : c = d
  · rw [hcd, rfbCloseClient_client_self]
    exact ⟨rfl, rfl, rfl, rfl, rfl⟩
  · rw [rfbCloseClient_client_of_ne hcd]
    exact ⟨rfl, rfl, rfl, rfl, rfl⟩

theorem closeClients_flags (closing : List ClientPtr) (c : ClientPtr) :
    SameFlags (s.client c) ((s.closeClients closing).client c) := by
  rw [closeClients_client]
  split <;> exact ⟨rfl, rfl, rfl, rfl, rfl⟩

theorem flushJPEGWrites_flags (now : Int) (sendmsg : ClientPtr → SendResult) (list : List ClientPtr) (c : ClientPtr) :
    SameFlags (s.client c) ((flushJPEGWrites now sendmsg s list).client c) := by
  induction list generalizing s with
  | nil => exact ⟨rfl, rfl, rfl, rfl, rfl⟩
  | cons d rest ih =>
    rw [flushJPEGWrites]
    cases hflush : (s.client d).flushJPEG now (sendmsg d) with
    | mk k close =>
      have hmodify : SameFlags (s.client c) ((s.modify d fun _ => k).client c) := by
        by_cases hcd : c = d
        · obtain ⟨wire, pendingJPEG, jpegWritten, rfl⟩ := Client.flushJPEG_eq hflush
          rw [hcd, modify_client_self]
          exact ⟨rfl, rfl, rfl, rfl, rfl⟩
        · rw [modify_client_of_ne hcd]
          exact ⟨rfl, rfl, rfl, rfl, rfl⟩
      dsimp only
      split
      · exact (hmodify.trans (rfbCloseClient_flags c d)).trans ih
      · exact hmodify.trans ih

theorem flushJPEGWrites_clients (now : Int) (sendmsg : ClientPtr → SendResult) (list : List ClientPtr) :
    (flushJPEGWrites now sendmsg s list).clients = s.clients := by
  induction list generalizing s with
  | nil => rfl
  | cons d rest ih =>
    rw [flushJPEGWrites]
    dsimp only
    rw [ih]
    split
    · exact rfbCloseClient_clients d
    · rfl

/-- The end of `ProcessFrame` closes clients, and leaves the regions and flags of all. -/
theorem finishFrame_client (env : FrameEnv) (l : FrameLoop) (c : ClientPtr) :
    SameFlags (l.server.client c) ((finishFrame env l).client c) ∧
      (finishFrame env l).clients = l.server.clients.diff l.closing := by
  have hflags := closeClients_flags (s := l.server) l.closing c
  have hclients := closeClients_clients (s := l.server) l.closing
  unfold finishFrame
  dsimp only
  generalize l.server.closeClients l.closing = t at hflags hclients
  have hsent : SameFlags (l.server.client c) ((if l.sentJPEG then
      flushJPEGWrites env.flushed env.sendmsg { t with lastJPEGSent := t.advanceJPEGSent env.now } t.clients else t).client c) ∧
      (if l.sentJPEG then flushJPEGWrites env.flushed env.sendmsg { t with lastJPEGSent := t.advanceJPEGSent env.now } t.clients
        else t).clients = l.server.clients.diff l.closing := by
    split
    · refine ⟨hflags.trans (flushJPEGWrites_flags (s := { t with lastJPEGSent := t.advanceJPEGSent env.now })
        env.flushed env.sendmsg t.clients c), ?_⟩
      rw [flushJPEGWrites_clients]
      exact hclients
    · exact ⟨hflags, hclients⟩
  split
  · exact hsent
  · exact hsent

/-- A client that waits and is not skipped is examined, and a client with direct JPEG is closed or sent it. -/
theorem processFrame_examined {env : FrameEnv} (nodup : s.clients.Nodup) {frame : JPEGFrame} (current : s.Current frame)
    {c : ClientPtr} (present : c ∈ s.clients) {direct : Bool}
    (served : FrameLoop.Served { server := s } s.latestSequence env.now direct c)
    (h : s.processFrame decoder env = some t) : Examined s t c ∧
      (direct = true → c ∉ t.clients ∨ FrameLoop.Sent (t.client c) s.latestSequence) := by
  rw [processFrame_eq current] at h
  obtain rfl := Option.some.inj h
  obtain ⟨hflags, hclients⟩ := finishFrame_client env (s.frameLoop decoder env frame) c
  obtain ⟨houtcome, hdirect⟩ : FrameLoop.Outcome (s.frameLoop decoder env frame) s.latestSequence c ∧
      (direct = true → c ∈ (s.frameLoop decoder env frame).closing ∨
        FrameLoop.Sent ((s.frameLoop decoder env frame).server.client c) s.latestSequence) :=
    FrameLoop.clients_outcome nodup present served
  have hloop : (s.frameLoop decoder env frame).server.clients = s.clients :=
    (FrameLoop.clients_schedule (l := { server := s }) s.clients).2
  have hclosed (hclosing : c ∈ (s.frameLoop decoder env frame).closing) :
      c ∉ (finishFrame env (s.frameLoop decoder env frame)).clients := by
    rw [hclients, hloop, nodup.mem_sdiff_iff]
    exact fun hmem => hmem.2 hclosing
  have hsent (hs : FrameLoop.Sent ((s.frameLoop decoder env frame).server.client c) s.latestSequence) :
      FrameLoop.Sent ((finishFrame env (s.frameLoop decoder env frame)).client c) s.latestSequence :=
    ⟨hflags.forceUpdate.trans hs.1, hflags.lastSequence.trans hs.2⟩
  refine ⟨?_, fun h => (hdirect h).imp hclosed hsent⟩
  rcases houtcome with hclosing | hs | ⟨-, hempty⟩
  · exact .inl (hclosed hclosing)
  · exact .inr (.inl (hsent hs))
  · refine .inr (.inr ?_)
    rw [hflags.modifiedRegion, hflags.requestedRegion]
    exact hempty

end Server

end OnekvmVnc
