import OnekvmVnc.Theorems.Sink.H264
import OnekvmVnc.Theorems.Sink.Moves

/-! The H.264 buffer is empty while nobody watches H.264, unless a call of `WriteVideo` that began before the last
    viewer left updates the buffer afterwards. -/

namespace OnekvmVnc

open Parties Transition

theorem AccessUnit.tooLong_of_check {unit : AccessUnit} (h : unit.check = .ok true) : unit.tooLong = false := by
  unfold AccessUnit.check at h
  split at h
  · cases h
  · split at h
    · cases h
    · exact Bool.eq_false_iff.mpr ‹_›

namespace H264Buffer
variable {b : H264Buffer} {unit : AccessUnit}

def Empty (b : H264Buffer) : Prop := b.frames = [] ∧ b.bytes = 0 ∧ b.bootstrap = [] ∧ b.ready = false

instance (b : H264Buffer) : Decidable b.Empty := inferInstanceAs (Decidable (_ ∧ _ ∧ _ ∧ _))

theorem empty_reset : b.reset.Empty := ⟨rfl, rfl, rfl, rfl⟩

/-- A unit without parameter sets and IDR slices does not start anything. -/
theorem Empty.append (h : b.Empty) (hset : unit.parameterSet = false) (hkey : unit.keyframe = false) :
    (b.append unit).Empty := by
  rcases append_cases b unit with ⟨hparked, -⟩ | ⟨hkey', -⟩ | ⟨-, -, hready, -⟩ | ⟨-, -, -, hb⟩
  · simp [AccessUnit.parked, hset] at hparked
  · rw [hkey] at hkey'
    cases hkey'
  · rw [h.2.2.2] at hready
    cases hready
  · rw [hb]
    exact h

/-- Any other unit that is not too long leaves the buffer non-empty. -/
theorem Empty.not_append (h : b.Empty) (hfits : unit.tooLong = false)
    (hstart : unit.parameterSet = true ∨ unit.keyframe = true) : ¬ (b.append unit).Empty := by
  obtain ⟨-, -, hbootstrap, -⟩ := h
  rcases append_cases b unit with ⟨-, hb⟩ | ⟨-, hb⟩ | ⟨hparked, hkey, -⟩ | ⟨hparked, hkey, -⟩
  · rintro ⟨-, -, hnone, -⟩
    simp [hb, park, hbootstrap] at hnone
  · rintro ⟨hnone, -⟩
    have hlength : unit.payload.length ≤ maxH264BufferBytes := Nat.not_lt.mp (of_decide_eq_false hfits)
    have hreplay : b.replay = { b with frames := [], bytes := 0 } := by rw [replay, hbootstrap, List.foldl_nil]
    rw [hb, hreplay, appendFrame] at hnone
    dsimp only at hnone
    rw [if_neg] at hnone
    · simp at hnone
    · simp only [List.nil_append, List.length_singleton, Nat.zero_add, not_or, Nat.not_lt]
      exact ⟨by decide, hlength⟩
  all_goals
    rcases hstart with hset | hkey'
    · simp [AccessUnit.parked, hset, hkey] at hparked
    · rw [hkey] at hkey'
      cases hkey'

end H264Buffer

namespace Sink
variable {cfg : SinkConfig} {s t : Sink} {i : Nat} {c c' : SinkClient}

/-- No unit with parameter sets or an IDR slice updates the buffer while nobody watches H.264. -/
def Attended (s : Sink) : SinkAction → Prop
  | .append k => s.h264Consumers = 0 → ∀ unit ∈ s.writes[k]?, unit.parameterSet = false ∧ unit.keyframe = false
  | _ => True

instance (s : Sink) : DecidablePred s.Attended := fun a => by
  unfold Attended
  split <;> infer_instance

/-- While nobody watches H.264, the buffer is empty. -/
def Idle (s : Sink) : Prop := s.h264Consumers = 0 → s.h264.Empty

/-- The calls of `WriteVideo` that update the buffer have units that fit. -/
def Fitting (s : Sink) : Prop := ∀ unit ∈ s.writes, unit.tooLong = false

theorem Idle.decrementEncoding (h : s.Idle) {e : ClientEncoding} : (s.decrementEncoding e).Idle := by
  cases e with
  | h264 =>
    intro hzero
    change s.h264Consumers - 1 = 0 at hzero
    simp only [Sink.decrementEncoding, if_pos hzero]
    exact H264Buffer.empty_reset
  | _ => exact h

theorem Idle.incrementEncoding (h : s.Idle) (hnonneg : 0 ≤ s.h264Consumers) {e : ClientEncoding} :
    (s.incrementEncoding e).Idle := by
  cases e with
  | h264 =>
    intro hzero
    change s.h264Consumers + 1 = 0 at hzero
    omega
  | _ => exact h

/-- The last viewer of H.264 resets the buffer. -/
theorem Idle.countSwitch (h : s.Idle) (accounts : s.Accounts) (hc : c ∈ s.clients) (target : ClientEncoding)
    (caller : SwitchCaller) : (s.countSwitch c target caller).1.Idle := by
  have hcounter : s.h264Consumers = tally s.clients (·.mode = .h264) := accounts.counter .h264 nofun
  have hnonneg : 0 ≤ (s.decrementEncoding c.encoding).h264Consumers := by
    have hs : 0 ≤ s.h264Consumers := hcounter ▸ tally_nonneg
    cases hencoding : c.encoding with
    | h264 =>
      have hpos : 0 < s.h264Consumers := by
        rw [hcounter]
        exact tally_pos hc (decide_eq_true ((accounts.coherent c hc).mode.trans hencoding))
      change 0 ≤ s.h264Consumers - 1
      omega
    | _ => exact hs
  exact h.decrementEncoding.incrementEncoding hnonneg

theorem Idle.moved (h : s.Idle) (accounts : s.Accounts) (hc : s.clients[i]? = some c)
    (move : ClientMove cfg s i c t c') : Idle { t with clients := s.clients.set i c' } := by
  cases move with
  | @counted target caller => exact h.countSwitch accounts (List.mem_of_getElem? hc) target caller
  | _ => exact h

theorem Fitting.step (h : s.Fitting) (hstep : SinkStep cfg s t) : t.Fitting := by
  cases hstep with
  | moved hc move =>
    cases move with
    | counted =>
      obtain ⟨_, _, _, _, _, ht⟩ := s.countSwitch_fst _ _ _
      rw [ht]
      exact h
    | _ => exact h
  | wrote hcheck =>
    intro unit hunit
    rcases List.mem_append.mp hunit with hunit | hunit
    · exact h unit hunit
    · exact List.mem_singleton.mp hunit ▸ AccessUnit.tooLong_of_check hcheck
  | appended => exact fun unit hunit => h unit (List.mem_of_mem_eraseIdx hunit)
  | _ => exact h

theorem Idle.step (h : s.Idle) (accounts : s.Accounts) {a : SinkAction} (attended : s.Attended a)
    (hstep : s.step cfg a = some t) : t.Idle := by
  cases a with
  | start | stop | teardown | accept =>
    simp only [Sink.step, Option.ite_none_right_eq_some, Option.some.injEq] at hstep
    obtain ⟨-, rfl⟩ := hstep
    exact h
  | client i action =>
    simp only [Sink.step] at hstep
    split at hstep
    · rename_i c hc
      obtain ⟨⟨u, c'⟩, hmove, rfl⟩ := Option.map_eq_some_iff.mp hstep
      exact h.moved accounts hc (.of_clientStep hmove)
    · cases hstep
  | write unit =>
    obtain rfl := Option.some.inj hstep
    unfold beginWrite
    split
    · split
      · exact h
      · exact h
    · exact h
  | append k =>
    simp only [Sink.step] at hstep
    split at hstep
    · rename_i unit hunit
      obtain rfl := Option.some.inj hstep
      intro hzero
      obtain ⟨hset, hkey⟩ := attended hzero unit hunit
      exact (h hzero).append hset hkey
    · cases hstep

/-- What the runs of the sink keep, whatever the calls of `WriteVideo`. -/
theorem run_fitting {actions : List SinkAction} (h : run (Sink.step cfg) {} actions = some t) : t.Fitting :=
  run_invariant (P := Fitting) (fun _ hunit => absurd hunit List.not_mem_nil)
    (fun _ _ _ hu ha => hu.step (.of_step ha)) h

/-- A unit that starts something is appended while nobody watches: the buffer does not stay empty. -/
theorem attended_of_idle (h : s.Idle) (fitting : s.Fitting) {a : SinkAction} (hstep : s.step cfg a = some t)
    (hidle : t.Idle) : s.Attended a := by
  cases a with
  | append k =>
    intro hzero unit hunit
    have hunit : s.writes[k]? = some unit := hunit
    simp only [Sink.step, hunit, Option.some.injEq] at hstep
    obtain rfl := hstep
    have hempty : (s.h264.append unit).Empty := hidle hzero
    by_contra hstart
    refine (h hzero).not_append (fitting unit (List.mem_of_getElem? hunit)) ?_ hempty
    simpa [Classical.or_iff_not_imp_left] using hstart
  | _ => trivial

end Sink

/-- Along a run of the sink, the H.264 buffer is empty whenever nobody watches H.264, if and only if no unit with
    parameter sets or an IDR slice updates the buffer while nobody does. -/
theorem h264_idle_iff (cfg : SinkConfig) (actions : List SinkAction) (t : Sink)
    (h : run (Sink.step cfg) {} actions = some t) :
    (∀ pre post s, actions = pre ++ post → run (Sink.step cfg) {} pre = some s → s.h264Consumers = 0 → s.h264.Empty) ↔
      Allowed (Sink.step cfg) Sink.Attended {} actions := by
  constructor
  · intro hidle pre a post s hsplit hs
    obtain ⟨u, hu⟩ : ∃ u, s.step cfg a = some u := by
      rw [hsplit, run_append_eq_some] at h
      obtain ⟨s', hs', hrest⟩ := h
      rw [hs, Option.some.injEq] at hs'
      obtain ⟨u, hu, -⟩ := run_cons_eq_some.mp (hs' ▸ hrest)
      exact ⟨u, hu⟩
    refine Sink.attended_of_idle (hidle pre (a :: post) s hsplit hs) (Sink.run_fitting hs) hu ?_
    exact hidle (pre ++ [a]) post u (by simp [hsplit]) (run_concat_eq_some.mpr ⟨s, hs, hu⟩)
  · intro allowed pre post s hsplit hs
    have hboth : s.Accounts ∧ s.Idle :=
      run_invariant_of_allowed (P := fun u => u.Accounts ∧ u.Idle) ⟨.start, fun _ => ⟨rfl, rfl, rfl, rfl⟩⟩
        (fun _ _ _ hu hattended ha => ⟨hu.1.step (.of_step ha), hu.2.step hu.1 hattended ha⟩)
        (hsplit ▸ allowed).of_append hs
    exact hboth.2

/-- A sink with an H.264 stream. -/
def idleConfig : SinkConfig := { codecH264 := true, jpegEncoder := false, jpegInput := false, onDemandChange := false }

/-- A viewer comes and gets H.264. -/
def idleActions : List SinkAction :=
  [.start, .accept, .client 0 .join, .client 0 (.setEncodings [h264EncodingType]), .client 0 .begin, .client 0 .count]

/-- An IDR picture is buffered. The viewer leaves while another picture is written, which comes to nothing. -/
theorem h264_idle_left : ∃ t, run (Sink.step idleConfig) {} (idleActions ++
      [.write { payload := [0, 0, 1, 0x65] }, .append 0, .write { payload := [0, 0, 1, 0x41] }, .client 0 .disconnect,
        .client 0 .begin, .client 0 .count, .append 0]) = some t ∧ t.h264Consumers = 0 ∧ t.h264.Empty := by
  obtain ⟨t, ht, hconsumers⟩ := Option.map_eq_some_iff.mp
    (show (run (Sink.step idleConfig) {} (idleActions ++
      [.write { payload := [0, 0, 1, 0x65] }, .append 0, .write { payload := [0, 0, 1, 0x41] }, .client 0 .disconnect,
        .client 0 .begin, .client 0 .count, .append 0])).map (·.h264Consumers) = some 0 by decide +kernel)
  exact ⟨t, ht, hconsumers,
    (h264_idle_iff idleConfig _ t ht).mpr (by decide +kernel) _ [] t (List.append_nil _).symm ht hconsumers⟩

/-- The viewer leaves while an IDR picture is written, which is then buffered. -/
theorem h264_idle_late : ∃ t, run (Sink.step idleConfig) {} (idleActions ++
      [.write { payload := [0, 0, 1, 0x65] }, .client 0 .disconnect, .client 0 .begin, .client 0 .count,
        .append 0]) = some t ∧ t.h264Consumers = 0 ∧ ¬ t.h264.Empty := by
  obtain ⟨t, ht, hend⟩ := Option.map_eq_some_iff.mp
    (show (run (Sink.step idleConfig) {} (idleActions ++
      [.write { payload := [0, 0, 1, 0x65] }, .client 0 .disconnect, .client 0 .begin, .client 0 .count,
        .append 0])).map (fun t => (t.h264Consumers, decide t.h264.Empty)) = some (0, false) by decide +kernel)
  obtain ⟨hconsumers, hempty⟩ := Prod.mk.inj hend
  exact ⟨t, ht, hconsumers, of_decide_eq_false hempty⟩

end OnekvmVnc
