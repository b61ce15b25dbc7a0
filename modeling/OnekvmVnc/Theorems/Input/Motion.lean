import OnekvmVnc.Input
import OnekvmVnc.Lib.Cadence
import OnekvmVnc.Lib.Transition

/-! The limiter of `PointerLoop`. The deadline of the coalesced motion lies on a fixed grid; a motion that is taken
    late moves it past the time it was taken at, so that the times keep the cadence without any slack. -/

namespace OnekvmVnc

open Transition

/-! ### The deadline -/

theorem skipTicks_eq (nextFlush now : Int) : skipTicks nextFlush now =
    if nextFlush + pointerFlushInterval ≤ now then skipTicks (nextFlush + pointerFlushInterval) now
    else nextFlush + pointerFlushInterval := by
  rw [skipTicks]

/-- The loop ends past the current time. -/
theorem lt_skipTicks (nextFlush now : Int) : now < skipTicks nextFlush now := by
  induction nextFlush using skipTicks.induct now with
  | case1 nextFlush hle ih =>
    rw [skipTicks_eq, if_pos hle]
    exact ih
  | case2 nextFlush hlt =>
    rw [skipTicks_eq, if_neg hlt]
    exact not_le.mp hlt

/-- It moves the deadline on by an interval, at least. -/
theorem add_le_skipTicks (nextFlush now : Int) : nextFlush + pointerFlushInterval ≤ skipTicks nextFlush now := by
  induction nextFlush using skipTicks.induct now with
  | case1 nextFlush hle ih =>
    have hpos : 0 < pointerFlushInterval := by decide
    rw [skipTicks_eq, if_pos hle]
    omega
  | case2 nextFlush hlt => rw [skipTicks_eq, if_neg hlt]

/-- A deadline that has passed is moved on by no more than is needed. -/
theorem skipTicks_sub_le {nextFlush now : Int} (due : nextFlush ≤ now) :
    skipTicks nextFlush now - pointerFlushInterval ≤ now := by
  induction nextFlush using skipTicks.induct now with
  | case1 nextFlush hle ih =>
    rw [skipTicks_eq, if_pos hle]
    exact ih hle
  | case2 nextFlush hlt =>
    rw [skipTicks_eq, if_neg hlt]
    omega

namespace InputThreads
variable {s t : InputThreads}

/-- The time at which a step takes a coalesced motion. -/
def motionTime (s : InputThreads) : InputAction → List Int
  | .take now => if s.input.pointerUrgent = [] ∧ (s.take now).isSome then [now] else []
  | _ => []

/-- What `take` takes: an urgent report at any time, or a motion that is due. -/
theorem take_cases {now : Int} (h : s.take now = some t) :
    (∃ report rest, s.input.pointerUrgent = report :: rest ∧ t.loop = .sendAbsolute report ∧
      t.nextFlush = s.nextFlush) ∨
    (s.input.pointerUrgent = [] ∧ s.nextFlush ≤ now ∧ t.loop = .sendAbsolute s.input.motion ∧
      t.nextFlush = skipTicks s.nextFlush now) := by
  unfold take at h
  split at h
  · cases h
  · split at h
    · rename_i report rest hurgent
      cases h
      exact .inl ⟨report, rest, hurgent, rfl, rfl⟩
    · rename_i hurgent
      split at h
      · rename_i hdue
        cases h
        simp only [Bool.and_eq_true, decide_eq_true_eq] at hdue
        exact .inr ⟨hurgent, hdue.2, rfl, rfl⟩
      · cases h

theorem call_nextFlush {c : InputCall} (h : s.call c = some t) : t.nextFlush = s.nextFlush := by
  cases c <;>
  · cases h
    rfl

theorem resume_nextFlush {accepted : Bool} (h : s.resume accepted = some t) : t.nextFlush = s.nextFlush := by
  unfold resume at h
  split at h
  · cases h
  · split at h <;> cases h
    rfl
  · cases h
    rfl
  · split at h <;> cases h
    rfl
  · cases h
    rfl
  · split at h <;> cases h
    rfl
  · cases h
    change (s.post? _ accepted).nextFlush = s.nextFlush
    unfold post?
    split <;> rfl

theorem send_nextFlush {accepted : Bool} (h : s.send accepted = some t) : t.nextFlush = s.nextFlush := by
  unfold send at h
  split at h <;> cases h <;> rfl

theorem complete_nextFlush (h : s.complete = some t) : t.nextFlush = s.nextFlush := by
  unfold complete at h
  split at h <;> cases h
  rfl

/-- Only a motion that is taken moves the deadline. -/
theorem step_nextFlush {a : InputAction} (h : s.step a = some t) :
    (s.motionTime a = [] ∧ t.nextFlush = s.nextFlush) ∨
    ∃ now, s.motionTime a = [now] ∧ s.nextFlush ≤ now ∧ t.nextFlush = skipTicks s.nextFlush now := by
  cases a with
  | call c =>
    simp only [step, Option.ite_none_right_eq_some] at h
    exact .inl ⟨rfl, call_nextFlush h.2⟩
  | resume accepted => exact .inl ⟨rfl, resume_nextFlush h⟩
  | send accepted => exact .inl ⟨rfl, send_nextFlush h⟩
  | complete => exact .inl ⟨rfl, complete_nextFlush h⟩
  | take now =>
    have htaken : (s.take now).isSome = true := Option.isSome_iff_exists.mpr ⟨t, h⟩
    rcases take_cases h with ⟨report, rest, hurgent, -, hnext⟩ | ⟨hurgent, hdue, -, hnext⟩
    · exact .inl ⟨by simp [motionTime, hurgent], hnext⟩
    · exact .inr ⟨now, by simp [motionTime, hurgent, htaken], hdue, hnext⟩

/-- After a motion, the deadline is one interval past the grid point that it was taken for. -/
theorem run_counts {acts : List InputAction} (h : run step s acts = some t) :
    Cadence.Counts pointerFlushInterval 0 (collect step motionTime s acts) (t.nextFlush - pointerFlushInterval) := by
  refine run_history (P := fun acts t => Cadence.Counts pointerFlushInterval 0 (collect step motionTime s acts)
    (t.nextFlush - pointerFlushInterval)) Cadence.counts_nil (fun pre u a v hu ih hstep => ?_) h
  rw [collect_concat hu]
  rcases step_nextFlush hstep with ⟨hnone, hnext⟩ | ⟨now, htime, hdue, hnext⟩
  · rw [hnone, List.append_nil, hnext]
    exact ih
  · rw [htime, hnext]
    have hlater := lt_skipTicks u.nextFlush now
    have hmoved := add_le_skipTicks u.nextFlush now
    have hclose := skipTicks_sub_le hdue
    exact ih.append (fun _ => by omega) (by omega) (by omega)

/-- An urgent report is taken whatever the deadline is, and no wait goes on. -/
theorem take_urgent {report : PointerReport} {rest : List PointerReport} (top : s.loop = .top)
    (going : s.input.pointerStopping = false) (urgent : s.input.pointerUrgent = report :: rest) (now : Int) :
    s.wait now = none ∧ (∀ w, s.wakes now w = true) ∧
      s.take now = some { s with
        input := { s.input with pointerUrgent := rest }
        loop := .sendAbsolute report } := by
  refine ⟨?_, fun w => ?_, ?_⟩
  · simp [wait, urgent]
  · cases w <;> simp [wakes, urgent]
  · simp [take, top, going, urgent]

end InputThreads

open InputThreads in
/-- Any of the coalesced motions of a run is later than another one by more than the intervals between the motions
    in between. An urgent report is taken at any time, and leaves the deadline. A motion is taken once its deadline
    has come, and sets the next one at most an interval later. -/
theorem motion_spaced {width height : UInt16} {nextFlush : Int} {acts : List InputAction} {t : InputThreads}
    (h : run step (InputThreads.start width height nextFlush) acts = some t) :
    (let times := collect step motionTime (InputThreads.start width height nextFlush) acts
      ∀ i n, (two_le : 2 ≤ n) → (last : i + n ≤ times.length) →
        ((n - 2 : Nat) : Int) * milliseconds 33 < times[i + n - 1] - times[i]) ∧
    (∀ report rest, t.loop = .top → t.input.pointerStopping = false → t.input.pointerUrgent = report :: rest →
      ∀ now, t.wait now = none ∧ (∀ w, t.wakes now w = true) ∧
        ∃ u, t.take now = some u ∧ u.loop = .sendAbsolute report ∧ u.nextFlush = t.nextFlush) ∧
    (∀ now u, t.take now = some u → t.input.pointerUrgent = [] →
      now < u.nextFlush ∧ u.nextFlush - milliseconds 33 ≤ now) := by
  refine ⟨fun i n two_le last => ?_, fun report rest top going urgent now => ?_, fun now u hu hurgent => ?_⟩
  · have hspaced := (run_counts h).spaced i (i + n - 1) (by omega) (by omega)
    have hcount : i + n - 1 - i = n - 2 + 1 := by omega
    rw [hcount, Nat.cast_succ, Int.add_mul, Int.one_mul] at hspaced
    change ((n - 2 : Nat) : Int) * pointerFlushInterval < _
    omega
  · obtain ⟨hwait, hwakes, htake⟩ := take_urgent top going urgent now
    exact ⟨hwait, hwakes, _, htake, rfl, rfl⟩
  · rcases take_cases hu with ⟨report, rest, hreport, -⟩ | ⟨-, hdue, -, hnext⟩
    · rw [hurgent] at hreport
      cases hreport
    · rw [hnext]
      exact ⟨lt_skipTicks t.nextFlush now, skipTicks_sub_le hdue⟩

/-- Two movements, the second one after the pointer was idle for some time. -/
def twoMotions : List InputAction :=
  [.call (.pointer 0 1 1), .take (milliseconds 33), .send true, .complete, .call (.pointer 0 2 2), .take (milliseconds 99)]

open InputThreads in
theorem motion_spaced_two : ∃ t, run step (InputThreads.start 100 100 (milliseconds 33)) twoMotions = some t ∧
    collect step motionTime (InputThreads.start 100 100 (milliseconds 33)) twoMotions = [milliseconds 33, milliseconds 99] ∧
    ((2 - 2 : Nat) : Int) * milliseconds 33 < milliseconds 99 - milliseconds 33 := by
  have hrun : ∃ t, run step (InputThreads.start 100 100 (milliseconds 33)) twoMotions = some t :=
    Option.isSome_iff_exists.mp (by decide +kernel)
  have htimes : collect step motionTime (InputThreads.start 100 100 (milliseconds 33)) twoMotions =
      [milliseconds 33, milliseconds 99] := by decide +kernel
  obtain ⟨t, ht⟩ := hrun
  have hspaced := (motion_spaced ht).1 0 2 (le_refl 2) (by rw [htimes]; decide)
  simp only [htimes] at hspaced
  exact ⟨t, ht, htimes, hspaced⟩

end OnekvmVnc
