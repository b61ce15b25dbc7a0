import Mathlib.Algebra.Order.Group.Abs
import OnekvmVnc.Theorems.Server.Starvation

/-! The cadence of direct JPEG. The schedule counts an interval for each call that sends a JPEG and never falls an
    interval behind, so that the calls are not too close on the average; a viewer that is ready whenever a new frame
    comes on time is sent every one, as long as no call in between sends a JPEG to another viewer. -/

namespace OnekvmVnc
open Transition (run collect Allowed)

variable {decoder : JPEGDecoder}

namespace FrameLoop
variable {l : FrameLoop} {c : ClientPtr} {env : Server.FrameEnv} {frame : JPEGFrame} {sequence : Nat}

/-! ### A turn that sends a JPEG -/

theorem client_sentJPEG (h : l.sentJPEG = true) : (l.client decoder env frame sequence c).sentJPEG = true := by
  by_cases hserved : Server.waiting (l.server.client c) sequence = true ∧ l.server.paced (l.server.client c) env.now = false
  · rw [client_served hserved.1 hserved.2]
    split
    · rcases serveJPEG_cases (l.logged c) c with heq | ⟨k, heq⟩
      · rw [heq]
        exact h
      · rw [heq]
    · have htaken : ((l.logged c).serveFallback decoder env frame sequence c).taken true = (l.logged c).taken true :=
        serveFallback_taken
      exact htaken.trans h
  · rw [not_and_or, Bool.not_eq_true, Bool.not_eq_false] at hserved
    have hskipped : l.client decoder env frame sequence c = l ∨ l.client decoder env frame sequence c = l.logged c :=
      client_skipped hserved
    rcases hskipped with heq | heq
    · rw [heq]
      exact h
    · rw [heq]
      exact h

theorem clients_sentJPEG (list : List ClientPtr) (h : l.sentJPEG = true) :
    (l.clients decoder env frame sequence list).sentJPEG = true := by
  unfold clients
  induction list generalizing l with
  | nil => exact h
  | cons d rest ih => exact ih (client_sentJPEG h)

/-- A client with direct JPEG that has its turn is closed, or the loop has sent a JPEG. -/
theorem clients_sends {list : List ClientPtr} (nodup : list.Nodup) (hc : c ∈ list)
    (h : Served l sequence env.now true c) : c ∈ (l.clients decoder env frame sequence list).closing ∨
      (l.clients decoder env frame sequence list).sentJPEG = true := by
  induction list generalizing l with
  | nil => exact absurd hc List.not_mem_nil
  | cons d rest ih =>
    obtain ⟨hnew, hrest⟩ := List.nodup_cons.mp nodup
    show c ∈ ((l.client decoder env frame sequence d).clients decoder env frame sequence rest).closing ∨
      ((l.client decoder env frame sequence d).clients decoder env frame sequence rest).sentJPEG = true
    by_cases hcd : c = d
    · subst hcd
      rw [client_served h.waiting h.paced, h.kind, if_pos rfl]
      rcases serveJPEG_cases (l.logged c) c with heq | ⟨k, heq⟩
      · left
        rw [heq]
        have haside : Aside ((l.logged c).close c) (((l.logged c).close c).clients decoder env frame sequence rest) c :=
          clients_aside hnew
        exact haside.closing mem_close
      · right
        rw [heq]
        exact clients_sentJPEG rest rfl
    · exact ih hrest ((List.mem_cons.mp hc).resolve_left hcd) ((turn_client.aside hcd).served_iff.mpr h)

end FrameLoop

namespace Server
variable {s t : Server} {c : ClientPtr} {env : FrameEnv}

/-! ### The calls that send a JPEG -/

/-- `sent_jpeg` at the end of the loop of `ProcessFrame`. -/
def sendsJPEG (s : Server) (decoder : JPEGDecoder) (env : FrameEnv) : Bool :=
  match s.latestFrame with
  | none => false
  | some frame =>
    if s.latestSequence = 0 ∨ frame.width ≠ s.width ∨ frame.height ≠ s.height then false
    else (s.frameLoop decoder env frame).sentJPEG

/-- The time of a call that sends a JPEG. -/
def jpegTime (decoder : JPEGDecoder) (s : Server) : ServerAction → List Int
  | .processFrame env => if s.sendsJPEG decoder env then [env.now] else []
  | _ => []

theorem Current.sendsJPEG_eq {frame : JPEGFrame} (h : s.Current frame) (env : FrameEnv) :
    s.sendsJPEG decoder env = (s.frameLoop decoder env frame).sentJPEG := by
  unfold sendsJPEG
  rw [h.latest]
  exact if_neg (by simp [h.sequence, h.width, h.height])

theorem exists_current (h : s.sendsJPEG decoder env = true) : ∃ frame, s.Current frame := by
  unfold sendsJPEG at h
  cases hframe : s.latestFrame with
  | none =>
    rw [hframe] at h
    cases h
  | some frame =>
    rw [hframe] at h
    dsimp only at h
    split at h
    · cases h
    · rename_i hcurrent
      simp only [not_or, not_not] at hcurrent
      exact ⟨frame, hframe, hcurrent.1, hcurrent.2.1, hcurrent.2.2⟩

theorem processFrame_lastJPEGSent (h : s.processFrame decoder env = some t) : t.fps = s.fps ∧
    t.lastJPEGSent = if s.sendsJPEG decoder env then s.advanceJPEGSent env.now else s.lastJPEGSent := by
  by_cases hcurrent : ∃ frame, s.Current frame
  · obtain ⟨frame, hcurrent⟩ := hcurrent
    rw [processFrame_eq hcurrent] at h
    obtain rfl := Option.some.inj h
    have hschedule : SameSchedule s (s.frameLoop decoder env frame).server :=
      (FrameLoop.clients_schedule (l := { server := s }) s.clients).1
    obtain ⟨hfps, -, hjpeg, -⟩ := finishFrame_schedule env (s.frameLoop decoder env frame)
    refine ⟨hfps.trans hschedule.fps, ?_⟩
    rw [hjpeg, hcurrent.sendsJPEG_eq, hschedule.advanceJPEGSent, hschedule.lastJPEGSent]
    rfl
  · have hschedule := processFrame_schedule h fun frame hframe => hcurrent ⟨frame, hframe⟩
    have hnone : ¬s.sendsJPEG decoder env = true := fun hsends => hcurrent (exists_current hsends)
    exact ⟨hschedule.fps, by rw [if_neg hnone, hschedule.lastJPEGSent]⟩

/-- A call that forces nobody sends no JPEG through a closed gate. -/
theorem Unforced.sends (h : s.Unforced env.now true) (nodup : s.clients.Nodup) (hs : s.sendsJPEG decoder env = true) :
    s.gateClosed true env.now = false := by
  obtain ⟨frame, hcurrent⟩ := exists_current hs
  rw [hcurrent.sendsJPEG_eq] at hs
  have htaken : (s.frameLoop decoder env frame).taken true = true := hs
  rcases FrameLoop.clients_taken nodup htaken with hstart | hserved
  · cases hstart
  · exact h.gate ⟨frame, hcurrent, hserved⟩

/-- A viewer with direct JPEG that waits at an open gate is closed, or is sent the frame. -/
theorem WaitsFor.sends (h : s.WaitsFor c true) (nodup : s.clients.Nodup) (hopen : s.gateClosed true env.now = false)
    (ht : s.processFrame decoder env = some t) (kept : c ∈ t.clients) :
    s.sendsJPEG decoder env = true ∧ FrameLoop.Sent (t.client c) s.latestSequence := by
  obtain ⟨frame, hcurrent⟩ := h.current
  have hskips : s.skips decoder env c = false := by rw [h.skips, hopen, Bool.false_and]
  have hserved : FrameLoop.Served { server := s } s.latestSequence env.now true c := h.served hskips
  refine ⟨?_, ((processFrame_examined nodup hcurrent h.present hserved ht).2 rfl).resolve_left (not_not.mpr kept)⟩
  rw [hcurrent.sendsJPEG_eq]
  refine (FrameLoop.clients_sends nodup h.present hserved).resolve_left fun hclosing => ?_
  rw [processFrame_eq hcurrent] at ht
  obtain rfl := Option.some.inj ht
  have hclients : (s.frameLoop decoder env frame).server.clients = s.clients :=
    (FrameLoop.clients_schedule (l := { server := s }) s.clients).2
  rw [(finishFrame_client env (s.frameLoop decoder env frame) c).2, hclients, nodup.mem_sdiff_iff] at kept
  exact kept.2 hclosing

/-! ### The schedule in a step -/

/-- `SyncSubscription` does not find that the clients have all left. -/
def ClientsStay (s : Server) : ServerAction → Prop
  | .syncSubscription => s.clientCount = 0 → s.subscription = false
  | _ => True

instance (s : Server) : (action : ServerAction) → Decidable (s.ClientsStay action)
  | .syncSubscription => inferInstanceAs (Decidable (s.clientCount = 0 → s.subscription = false))
  | .setFrame _ | .queueAudio _ | .pollClientEvents _ | .syncAudioSubscription | .processAudio _ | .processFrame _ =>
    .isTrue trivial

theorem ClientsStay.syncSubscription (h : s.ClientsStay .syncSubscription) :
    s.syncSubscription.lastJPEGSent = s.lastJPEGSent := by
  unfold Server.syncSubscription
  split
  · rfl
  · split
    · rename_i hgone
      rw [h hgone.1] at hgone
      cases hgone.2
    · rfl

/-- While the clients stay, the schedule moves in the calls that send a JPEG. -/
theorem ClientsStay.step {action : ServerAction} (stay : s.ClientsStay action) (h : step decoder s action = some t) :
    t.fps = s.fps ∧ (jpegTime decoder s action = [] ∧ t.lastJPEGSent = s.lastJPEGSent ∨
      ∃ env, action = .processFrame env ∧ s.sendsJPEG decoder env = true ∧ jpegTime decoder s action = [env.now] ∧
        t.lastJPEGSent = s.advanceJPEGSent env.now) := by
  cases action with
  | processFrame env =>
    obtain ⟨hfps, hlast⟩ := processFrame_lastJPEGSent h
    refine ⟨hfps, ?_⟩
    cases hsends : s.sendsJPEG decoder env with
    | false =>
      rw [hsends] at hlast
      exact .inl ⟨by simp [jpegTime, hsends], hlast⟩
    | true =>
      rw [hsends] at hlast
      exact .inr ⟨env, rfl, hsends, by simp [jpegTime, hsends], hlast⟩
  | syncSubscription =>
    have hheld : Held s t := step_held h (by simp)
    obtain rfl := Option.some.inj h
    exact ⟨hheld.fps, .inl ⟨rfl, stay.syncSubscription⟩⟩
  | _ =>
    obtain ⟨hfps, hlast, -⟩ := step_schedules h (by simp) (by simp)
    exact ⟨hfps, .inl ⟨rfl, hlast⟩⟩

/-! ### The schedule in a run -/

/-- The schedule has counted the calls that sent a JPEG. -/
structure Counted (fps : Nat) (times : List Int) (s : Server) : Prop where
  rate : s.fps = fps
  nodup : s.clients.Nodup
  nonneg : 0 ≤ s.lastJPEGSent
  unset : s.lastJPEGSent = 0 → times = []
  counts : Cadence.Counts (microseconds (1000000 / fps)) (microseconds (1000000 / fps / 10)) times s.lastJPEGSent

/-- The call of a step is after the start of the clock. -/
def Clocked : ServerAction → Prop
  | .processFrame env => 0 < env.now
  | _ => True

theorem jpegInterval_eq {fps : Nat} (h : s.fps = fps) : s.jpegInterval = microseconds (1000000 / fps) := by
  rw [jpegInterval, h]

theorem jpegSlack_eq {fps : Nat} (h : s.fps = fps) : s.slack true = microseconds (1000000 / fps / 10) := by
  rw [slack, if_pos rfl, jpegSlack, h]

/-- A schedule that has begun moves on, and one that begins is at the time of the call. -/
theorem le_advanceJPEGSent (pos : 0 < s.jpegInterval) (now : Int) :
    (s.lastJPEGSent ≠ 0 → s.lastJPEGSent + s.jpegInterval ≤ s.advanceJPEGSent now) ∧
      now < s.advanceJPEGSent now + s.jpegInterval := by
  by_cases hlast : s.lastJPEGSent = 0
  · refine ⟨fun h => absurd hlast h, ?_⟩
    unfold advanceJPEGSent
    rw [if_pos hlast]
    omega
  · rw [advanceJPEGSent_eq hlast]
    exact ⟨fun _ => Cadence.le_advance pos, Cadence.lt_advance pos⟩

theorem advanceJPEGSent_pos (nonneg : 0 ≤ s.lastJPEGSent) (pos : 0 < s.jpegInterval) {now : Int} (clock : 0 < now) :
    0 < s.advanceJPEGSent now := by
  by_cases hlast : s.lastJPEGSent = 0
  · unfold advanceJPEGSent
    rw [if_pos hlast]
    exact clock
  · have hmoved := (le_advanceJPEGSent pos now).1 hlast
    omega

theorem Counted.step {fps : Nat} {times : List Int} (h : Counted fps times s) (pos : 0 < microseconds (1000000 / fps))
    {action : ServerAction} (clock : Clocked action) (unforced : s.UnforcedStep true action)
    (stay : s.ClientsStay action) (hstep : step decoder s action = some t) :
    Counted fps (times ++ jpegTime decoder s action) t := by
  have hinterval : s.jpegInterval = microseconds (1000000 / fps) := jpegInterval_eq h.rate
  obtain ⟨hfps, ⟨htime, hlast⟩ | ⟨env, rfl, hsends, htime, hlast⟩⟩ := stay.step hstep
  · rw [htime, List.append_nil]
    exact ⟨hfps.trans h.rate, step_nodup h.nodup hstep, hlast ▸ h.nonneg, hlast ▸ h.unset, hlast ▸ h.counts⟩
  · have hpos : 0 < s.jpegInterval := hinterval ▸ pos
    have hbegun : 0 < t.lastJPEGSent := hlast ▸ advanceJPEGSent_pos h.nonneg hpos clock
    obtain ⟨hmoved, hbehind⟩ := le_advanceJPEGSent hpos env.now
    have hahead : s.advanceJPEGSent env.now ≤ env.now + microseconds (1000000 / fps / 10) := by
      rw [← jpegSlack_eq h.rate]
      exact advanceJPEGSent_le (Unforced.sends unforced h.nodup hsends)
    rw [hinterval] at hmoved hbehind
    refine ⟨hfps.trans h.rate, step_nodup h.nodup hstep, hbegun.le, fun hunset => absurd hunset hbegun.ne', ?_⟩
    rw [htime, hlast]
    exact h.counts.append (fun htimes => hmoved fun hunset => htimes (h.unset hunset)) hbehind hahead

/-- The schedule is not before the start of the clock. -/
theorem run_nonneg {fps : Nat} {audioAvailable : Bool} {width height : UInt16} {listening : Finset Nat}
    {actions : List ServerAction}
    (h : run (Server.step decoder) (start fps audioAvailable width height listening) actions = some s)
    (pos : 0 < microseconds (1000000 / fps)) (clock : ∀ action ∈ actions, Clocked action) :
    s.fps = fps ∧ s.clients.Nodup ∧ 0 ≤ s.lastJPEGSent := by
  refine Transition.run_invariant_of_mem (P := fun u => u.fps = fps ∧ u.clients.Nodup ∧ 0 ≤ u.lastJPEGSent)
    ⟨rfl, List.nodup_nil, le_refl 0⟩ (fun u v action hmem hu hstep => ?_) h
  obtain ⟨hfps, hnodup, hnonneg⟩ := hu
  by_cases hcall : ∃ env, action = .processFrame env
  · obtain ⟨env, rfl⟩ := hcall
    obtain ⟨hfps', hlast⟩ := processFrame_lastJPEGSent hstep
    refine ⟨hfps'.trans hfps, step_nodup hnodup hstep, ?_⟩
    rw [hlast]
    split
    · exact (advanceJPEGSent_pos hnonneg (jpegInterval_eq hfps ▸ pos) (clock _ hmem)).le
    · exact hnonneg
  · have hheld : Held u v := step_held hstep fun env he => hcall ⟨env, he⟩
    refine ⟨hheld.fps.trans hfps, step_nodup hnodup hstep, ?_⟩
    rcases hheld.jpeg with hlast | hlast
    · exact hlast ▸ hnonneg
    · exact hlast.ge

end Server

/-! ### Frames that come on time -/

/-- Other steps, and then a call of `ProcessFrame` for a new frame. -/
structure Round where
  between : List ServerAction
  env : Server.FrameEnv

def Round.actions (r : Round) : List ServerAction := r.between ++ [.processFrame r.env]

namespace Server
variable {s t : Server} {c : ClientPtr} {r : Round}

def round (decoder : JPEGDecoder) (s : Server) (r : Round) : Option Server := run (step decoder) s r.actions

/-- A viewer with direct JPEG is ready for the frame of the round, and stays connected. -/
structure ReadyFor (decoder : JPEGDecoder) (c : ClientPtr) (s : Server) (r : Round) : Prop where
  stay : Allowed (step decoder) ClientsStay s r.between
  waits : ∀ u, run (step decoder) s r.between = some u → u.WaitsFor c true
  kept : ∀ t, s.round decoder r = some t → c ∈ t.clients

/-- No JPEG is sent before the call for the frame. -/
def Unsent (decoder : JPEGDecoder) (s : Server) (r : Round) : Prop :=
  collect (step decoder) (jpegTime decoder) s r.between = []

def SendsTo (decoder : JPEGDecoder) (c : ClientPtr) (s : Server) (r : Round) : Prop :=
  ∀ u t, run (step decoder) s r.between = some u → u.processFrame decoder r.env = some t →
    FrameLoop.Sent (t.client c) u.latestSequence

instance : Decidable (s.ReadyFor decoder c r) :=
  decidable_of_iff (Allowed (step decoder) ClientsStay s r.between ∧
      (∀ u ∈ run (step decoder) s r.between, u.WaitsFor c true) ∧ ∀ t ∈ s.round decoder r, c ∈ t.clients)
    ⟨fun ⟨stay, waits, kept⟩ => ⟨stay, waits, kept⟩, fun h => ⟨h.stay, h.waits, h.kept⟩⟩

instance : Decidable (s.Unsent decoder r) := inferInstanceAs (Decidable (_ = []))

instance (k : Client) (sequence : Nat) : Decidable (FrameLoop.Sent k sequence) := inferInstanceAs (Decidable (_ ∧ _))

instance : Decidable (s.SendsTo decoder c r) :=
  decidable_of_iff (∀ u ∈ run (step decoder) s r.between, ∀ t ∈ u.processFrame decoder r.env,
      FrameLoop.Sent (t.client c) u.latestSequence)
    ⟨fun h u t hu ht => h u hu t ht, fun h u hu t ht => h u t hu ht⟩

/-- The frames are processed in the cadence from a first call on, each at most a tenth of an interval off. -/
structure OnTime (fps : Nat) (first : Int) (late : Nat → Int) (rounds : List Round) : Prop where
  start : late 0 = 0
  near : ∀ k, |late k| ≤ microseconds (1000000 / fps / 10)
  times : ∀ k (h : k < rounds.length), rounds[k].env.now = first + k * microseconds (1000000 / fps) + late k

/-- As long as nothing is sent, the schedule stays. -/
theorem unsent_run {actions : List ServerAction} (nodup : s.clients.Nodup)
    (stay : Allowed (step decoder) ClientsStay s actions) (unsent : collect (step decoder) (jpegTime decoder) s actions = [])
    (h : run (step decoder) s actions = some t) :
    t.fps = s.fps ∧ t.clients.Nodup ∧ t.lastJPEGSent = s.lastJPEGSent := by
  refine Transition.run_history_of_allowed (P := fun pre u => collect (step decoder) (jpegTime decoder) s pre = [] →
    u.fps = s.fps ∧ u.clients.Nodup ∧ u.lastJPEGSent = s.lastJPEGSent) (fun _ => ⟨rfl, nodup, rfl⟩)
    (fun pre u action v hu ih hstay hstep hunsent => ?_) stay h unsent
  rw [Transition.collect_concat hu, List.append_eq_nil_iff] at hunsent
  obtain ⟨hfps, hnodup, hlast⟩ := ih hunsent.1
  obtain ⟨hfps', ⟨-, hlast'⟩ | ⟨env, -, -, htime, -⟩⟩ := hstay.step hstep
  · exact ⟨hfps'.trans hfps, step_nodup hnodup hstep, hlast'.trans hlast⟩
  · rw [hunsent.2] at htime
    cases htime

/-- The time the schedule is due at: any for the first JPEG, and an interval after the one before. -/
def Due (s : Server) (due : Int) : Prop :=
  s.lastJPEGSent = 0 ∨ (s.lastJPEGSent ≠ 0 ∧ s.lastJPEGSent + s.jpegInterval = due)

/-- A viewer that waits for a frame at the time that is due, or nearly, is sent it, and the schedule is then
    at the time that was due. -/
theorem WaitsFor.due (h : s.WaitsFor c true) (nodup : s.clients.Nodup) {env : FrameEnv} {due late : Int}
    (scheduled : s.Due due) (now : env.now = due + late) (first : s.lastJPEGSent = 0 → late = 0)
    (near : |late| ≤ s.slack true) (small : s.slack true < s.jpegInterval)
    (ht : s.processFrame decoder env = some t) (kept : c ∈ t.clients) :
    FrameLoop.Sent (t.client c) s.latestSequence ∧ t.lastJPEGSent = due := by
  obtain ⟨hearly, hlate⟩ := abs_le.mp near
  have hopen : s.gateClosed true env.now = false := by
    simp only [gateClosed, Bool.and_eq_false_iff, decide_eq_false_iff_not, not_not, not_lt]
    rcases scheduled with hlast | ⟨-, hdue⟩
    · exact .inl hlast
    · right
      show s.jpegInterval - s.slack true ≤ env.now - s.lastJPEGSent
      omega
  obtain ⟨hsends, hsent⟩ := h.sends nodup hopen ht kept
  refine ⟨hsent, ?_⟩
  rw [(processFrame_lastJPEGSent ht).2, if_pos hsends]
  rcases scheduled with hlast | ⟨hlast, hdue⟩
  · unfold advanceJPEGSent
    rw [if_pos hlast, now, first hlast, Int.add_zero]
  · rw [advanceJPEGSent_eq hlast, Cadence.advance_of_lt (by omega), hdue]

/-- What the schedule is after a number of rounds. -/
structure Followed (fps : Nat) (first : Int) (k : Nat) (s : Server) : Prop where
  rate : s.fps = fps
  nodup : s.clients.Nodup
  due : s.Due (first + k * microseconds (1000000 / fps))
  begun : s.lastJPEGSent = 0 → k = 0

theorem Followed.round {fps : Nat} {first late : Int} {k : Nat} (h : Followed fps first k s) (first_pos : 0 < first)
    (small : microseconds (1000000 / fps / 10) < microseconds (1000000 / fps))
    (now : r.env.now = first + k * microseconds (1000000 / fps) + late) (start : k = 0 → late = 0)
    (near : |late| ≤ microseconds (1000000 / fps / 10)) (ready : s.ReadyFor decoder c r) (unsent : s.Unsent decoder r) :
    s.SendsTo decoder c r ∧ ∀ t, s.round decoder r = some t → Followed fps first (k + 1) t := by
  have hcall {u t : Server} (hu : run (step decoder) s r.between = some u)
      (ht : u.processFrame decoder r.env = some t) : FrameLoop.Sent (t.client c) u.latestSequence ∧
        t.lastJPEGSent = first + k * microseconds (1000000 / fps) ∧ t.fps = fps ∧ t.clients.Nodup := by
    obtain ⟨hfps, hnodup, hlast⟩ := unsent_run h.nodup ready.stay unsent hu
    have hrate : u.fps = fps := hfps.trans h.rate
    have hinterval : u.jpegInterval = microseconds (1000000 / fps) := jpegInterval_eq hrate
    have hslack : u.slack true = microseconds (1000000 / fps / 10) := jpegSlack_eq hrate
    have hscheduled : u.Due (first + k * microseconds (1000000 / fps)) := by
      have hdue := h.due
      unfold Due at hdue ⊢
      rw [jpegInterval_eq h.rate] at hdue
      rw [hlast, hinterval]
      exact hdue
    have hround : s.round decoder r = some t := Transition.run_concat_eq_some.mpr ⟨u, hu, ht⟩
    obtain ⟨hsent, hdue⟩ := (ready.waits u hu).due hnodup hscheduled now (fun hzero => start (h.begun (hlast ▸ hzero)))
      (hslack ▸ near) (by rw [hslack, hinterval]; exact small) ht (ready.kept t hround)
    have hstep : step decoder u (.processFrame r.env) = some t := ht
    exact ⟨hsent, hdue, (processFrame_lastJPEGSent ht).1.trans hrate, step_nodup hnodup hstep⟩
  refine ⟨fun u t hu ht => (hcall hu ht).1, fun t ht => ?_⟩
  obtain ⟨u, hu, hframe⟩ := Transition.run_concat_eq_some.mp ht
  obtain ⟨-, hlast, hfps, hnodup⟩ := hcall hu hframe
  have hinterval : 0 ≤ microseconds (1000000 / fps) := microseconds_nonneg _
  have hcount : 0 ≤ (k : Int) * microseconds (1000000 / fps) := Int.mul_nonneg (Int.natCast_nonneg k) hinterval
  have hbegun : t.lastJPEGSent ≠ 0 := by omega
  refine ⟨hfps, hnodup, .inr ⟨hbegun, ?_⟩, fun hzero => absurd hzero hbegun⟩
  rw [hlast, jpegInterval_eq hfps, Nat.cast_succ]
  ring

/-- The times at which a run sends JPEGs are spaced. -/
theorem run_spaced {fps : Nat} {actions : List ServerAction} (pos : 0 < microseconds (1000000 / fps))
    (rate : s.fps = fps) (nodup : s.clients.Nodup) (nonneg : 0 ≤ s.lastJPEGSent)
    (h : run (step decoder) s actions = some t) (clock : ∀ action ∈ actions, Clocked action)
    (unforced : Allowed (step decoder) (fun u => u.UnforcedStep true) s actions)
    (stay : Allowed (step decoder) ClientsStay s actions) :
    Cadence.Spaced (microseconds (1000000 / fps)) (microseconds (1000000 / fps / 10))
      (collect (step decoder) (jpegTime decoder) s actions) := by
  have hallowed : Allowed (step decoder)
      (fun u action => Clocked action ∧ u.UnforcedStep true action ∧ u.ClientsStay action) s actions :=
    fun pre action post u hsplit hu => ⟨clock action (by simp [hsplit]), unforced pre action post u hsplit hu,
      stay pre action post u hsplit hu⟩
  have hcounted : Counted fps (collect (step decoder) (jpegTime decoder) s actions) t := by
    refine Transition.run_history_of_allowed
      (P := fun pre u => Counted fps (collect (step decoder) (jpegTime decoder) s pre) u)
      ⟨rate, nodup, nonneg, fun _ => rfl, Cadence.counts_nil⟩ (fun pre u action v hu ih hq hstep => ?_) hallowed h
    rw [Transition.collect_concat hu]
    exact ih.step pos hq.1 hq.2.1 hq.2.2 hstep
  exact hcounted.counts.spaced

/-- A viewer that is ready for frames that come on time is sent each of them. -/
theorem rounds_send {fps : Nat} {rounds : List Round} {first : Int} {late : Nat → Int} (first_pos : 0 < first)
    (small : microseconds (1000000 / fps / 10) < microseconds (1000000 / fps)) (rate : s.fps = fps)
    (nodup : s.clients.Nodup) (unset : s.lastJPEGSent = 0) (onTime : OnTime fps first late rounds)
    (ready : Allowed (round decoder) (fun u r => u.ReadyFor decoder c r ∧ u.Unsent decoder r) s rounds) :
    Allowed (round decoder) (SendsTo decoder c) s rounds := by
  -- Each round of a part of the rounds is in its place among all.
  have hround {pre : List Round} {r : Round} (hpre : pre ++ [r] <+: rounds) {u : Server}
      (hu : Followed fps first pre.length u) (hready : u.ReadyFor decoder c r ∧ u.Unsent decoder r) :
      u.SendsTo decoder c r ∧ ∀ t, u.round decoder r = some t → Followed fps first (pre.length + 1) t := by
    have hlength : pre.length < rounds.length := by
      have hle := hpre.length_le
      rw [List.length_append, List.length_singleton] at hle
      omega
    have hget : rounds[pre.length] = r := by
      rw [← hpre.getElem (by simp)]
      exact List.getElem_concat_length rfl _
    have htime := onTime.times pre.length hlength
    rw [hget] at htime
    exact hu.round first_pos small htime (fun hzero => hzero ▸ onTime.start) (onTime.near _) hready.1 hready.2
  intro pre r post u hsplit hu
  have hallowed : Allowed (round decoder) (fun u r => u.ReadyFor decoder c r ∧ u.Unsent decoder r) s pre :=
    Allowed.of_append (hsplit ▸ ready)
  have hall : pre ++ [r] ++ post = rounds := by rw [hsplit, List.append_assoc, List.singleton_append]
  have hfollowed : pre <+: rounds → Followed fps first pre.length u := by
    refine Transition.run_history_of_allowed (P := fun pre u => pre <+: rounds → Followed fps first pre.length u)
      (fun _ => ⟨rate, nodup, .inl unset, fun _ => rfl⟩) (fun pre u r v _ ih hready hv hpre => ?_)
      hallowed hu
    rw [List.length_append, List.length_singleton]
    exact (hround hpre (ih ((List.prefix_append _ _).trans hpre)) hready).2 v hv
  exact (hround ⟨post, hall⟩ (hfollowed ⟨r :: post, hsplit.symm⟩) (ready pre r post u hsplit hu)).1

end Server

/-- Where no viewer is forced through a closed gate and the clients never all leave, the calls that send a JPEG are
    spaced, from any point of a run on. A viewer that is ready for frames that come on time is sent each of them,
    when no JPEG is sent in between. -/
theorem jpeg_cadence {fps : Nat} {audioAvailable : Bool} {width height : UInt16} {listening : Finset Nat}
    {before : List ServerAction} {s : Server} (fps_pos : 0 < fps) (fps_le : fps ≤ 60)
    (hs : run (Server.step decoder) (Server.start fps audioAvailable width height listening) before = some s)
    (clock : ∀ action ∈ before, Server.Clocked action) :
    (∀ actions t, run (Server.step decoder) s actions = some t → (∀ action ∈ actions, Server.Clocked action) →
      Allowed (Server.step decoder) (fun u => u.UnforcedStep true) s actions →
      Allowed (Server.step decoder) Server.ClientsStay s actions →
      Cadence.Spaced (microseconds (1000000 / fps)) (microseconds (1000000 / fps / 10))
        (collect (Server.step decoder) (Server.jpegTime decoder) s actions)) ∧
    (∀ rounds c first late, s.lastJPEGSent = 0 → 0 < first → Server.OnTime fps first late rounds →
      Allowed (Server.round decoder) (fun u r => u.ReadyFor decoder c r ∧ u.Unsent decoder r) s rounds →
      Allowed (Server.round decoder) (Server.SendsTo decoder c) s rounds) := by
  have hinterval : 0 < 1000000 / fps := Nat.div_pos (by omega) fps_pos
  have hslack : 1000000 / fps / 10 < 1000000 / fps := Nat.div_lt_self hinterval (by decide)
  have hpos : 0 < microseconds (1000000 / fps) := by
    unfold microseconds
    omega
  have hsmall : microseconds (1000000 / fps / 10) < microseconds (1000000 / fps) := by
    unfold microseconds
    omega
  obtain ⟨hrate, hnodup, hnonneg⟩ := Server.run_nonneg hs hpos clock
  exact ⟨fun _ _ => Server.run_spaced hpos hrate hnodup hnonneg,
    fun _ _ _ _ unset first_pos => Server.rounds_send first_pos hsmall hrate hnodup unset⟩

/-- Two viewers connect, and the first one asks for a frame. -/
def joinTwo : List ServerAction :=
  [.pollClientEvents
    { now := 1, sendmsg := fun _ => .again, events :=
      [.accept 0 5 [82], .message 0 (.clientInit []), .message 0 (.setEncodings { tightQuality := 5 }),
        .accept 1 6 [82], .message 1 (.clientInit []), .message 1 (.setEncodings { tightQuality := 5 }),
        .message 0 (.updateRequest 0 0 1 1 true)] },
    .syncSubscription,
    .setFrame { data := [0], width := 1, height := 1 }]

/-- A first frame, and a second one that is an interval later. In between, clients ask for a frame, and there is a
    call for which the gate is open already. -/
def twoFrames (asking : List ClientPtr) : List Round :=
  [{ between := [], env := callAt 1000000000 },
    { between :=
        [.pollClientEvents
          { now := 1000000000, sendmsg := fun _ => .again, events :=
            asking.map fun c => .message c (.updateRequest 0 0 1 1 true) },
          .processFrame (callAt 1095000000), .setFrame { data := [0], width := 1, height := 1 }]
      env := callAt 1100000000 }]

theorem onTime_twoFrames (asking : List ClientPtr) : Server.OnTime 10 1000000000 (fun _ => 0) (twoFrames asking) := by
  refine ⟨rfl, fun _ => by decide, fun k hk => ?_⟩
  match k, hk with
  | 0, _ => rfl
  | 1, _ => rfl

/-- The second viewer is sent the first frame in between, and the first viewer is not sent the second frame. -/
theorem jpeg_cadence_shared : ∃ s t, run (Server.step .grayRow) (Server.start 10 false 1 1 ∅) joinTwo = some s ∧
    s.lastJPEGSent = 0 ∧ run (Server.round .grayRow) s (twoFrames [0, 1]) = some t ∧
    (callTimes ((twoFrames [0, 1]).flatMap Round.actions)).Pairwise (· ≤ ·) ∧
    Allowed (Server.step .grayRow) (fun u => u.UnforcedStep true) s ((twoFrames [0, 1]).flatMap Round.actions) ∧
    Allowed (Server.step .grayRow) Server.ClientsStay s ((twoFrames [0, 1]).flatMap Round.actions) ∧
    Server.OnTime 10 1000000000 (fun _ => 0) (twoFrames [0, 1]) ∧
    Allowed (Server.round .grayRow) (Server.ReadyFor .grayRow 0) s (twoFrames [0, 1]) ∧
    ¬Allowed (Server.round .grayRow) (Server.SendsTo .grayRow 0) s (twoFrames [0, 1]) := by
  have hrun : ((run (Server.step .grayRow) (Server.start 10 false 1 1 ∅) joinTwo).map fun s =>
      decide (s.lastJPEGSent = 0 ∧ (run (Server.round .grayRow) s (twoFrames [0, 1])).isSome = true ∧
        Allowed (Server.step .grayRow) (fun u => u.UnforcedStep true) s ((twoFrames [0, 1]).flatMap Round.actions) ∧
        Allowed (Server.step .grayRow) Server.ClientsStay s ((twoFrames [0, 1]).flatMap Round.actions) ∧
        Allowed (Server.round .grayRow) (Server.ReadyFor .grayRow 0) s (twoFrames [0, 1]) ∧
        ¬Allowed (Server.round .grayRow) (Server.SendsTo .grayRow 0) s (twoFrames [0, 1]))) = some true := by
    decide +kernel
  obtain ⟨s, hs, hstate⟩ := Option.map_eq_some_iff.mp hrun
  obtain ⟨hunset, hrounds, hunforced, hstay, hready, hsends⟩ := of_decide_eq_true hstate
  obtain ⟨t, ht⟩ := Option.isSome_iff_exists.mp hrounds
  exact ⟨s, t, hs, hunset, ht, by decide, hunforced, hstay, onTime_twoFrames _, hready, hsends⟩

/-- The second viewer does not ask for a frame. -/
theorem jpeg_cadence_single : ∃ s t, run (Server.step .grayRow) (Server.start 10 false 1 1 ∅) joinTwo = some s ∧
    run (Server.step .grayRow) s ((twoFrames [0]).flatMap Round.actions) = some t ∧
    collect (Server.step .grayRow) (Server.jpegTime .grayRow) s ((twoFrames [0]).flatMap Round.actions) =
      [1000000000, 1100000000] ∧
    Cadence.Spaced (microseconds (1000000 / 10)) (microseconds (1000000 / 10 / 10)) [1000000000, 1100000000] ∧
    Allowed (Server.round .grayRow) (Server.SendsTo .grayRow 0) s (twoFrames [0]) := by
  have hrun : ((run (Server.step .grayRow) (Server.start 10 false 1 1 ∅) joinTwo).map fun s =>
      decide (s.lastJPEGSent = 0 ∧
        (run (Server.step .grayRow) s ((twoFrames [0]).flatMap Round.actions)).isSome = true ∧
        collect (Server.step .grayRow) (Server.jpegTime .grayRow) s ((twoFrames [0]).flatMap Round.actions) =
          [1000000000, 1100000000] ∧
        Allowed (Server.step .grayRow) (fun u => u.UnforcedStep true) s ((twoFrames [0]).flatMap Round.actions) ∧
        Allowed (Server.step .grayRow) Server.ClientsStay s ((twoFrames [0]).flatMap Round.actions) ∧
        Allowed (Server.round .grayRow) (fun u r => u.ReadyFor .grayRow 0 r ∧ u.Unsent .grayRow r) s (twoFrames [0]))) =
      some true := by
    decide +kernel
  obtain ⟨s, hs, hstate⟩ := Option.map_eq_some_iff.mp hrun
  obtain ⟨hunset, hsteps, htimes, hunforced, hstay, hready⟩ := of_decide_eq_true hstate
  obtain ⟨t, ht⟩ := Option.isSome_iff_exists.mp hsteps
  have hbefore : ∀ action ∈ joinTwo, Server.Clocked action := by
    simp [joinTwo, Server.Clocked]
  have hclock : ∀ action ∈ (twoFrames [0]).flatMap Round.actions, Server.Clocked action := by
    simp [twoFrames, Round.actions, Server.Clocked, callAt]
  obtain ⟨hspaced, hsends⟩ := jpeg_cadence (by decide) (by decide) hs hbefore
  have hspaced' := hspaced _ t ht hclock hunforced hstay
  rw [htimes] at hspaced'
  exact ⟨s, t, hs, ht, htimes, hspaced', hsends _ 0 1000000000 _ hunset (by decide) (onTime_twoFrames _) hready⟩

end OnekvmVnc
