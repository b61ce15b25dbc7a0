import OnekvmVnc.Lib.Throttle
import OnekvmVnc.Sink.Jpeg

/-! How often `WriteRawVideo` encodes a frame and keeps one for raw viewers, however its calls interleave. -/

namespace OnekvmVnc

open Throttle Transition

namespace JPEGSink
variable {s t : JPEGSink} {w w' : RawWrite} {action : JPEGAction}

/-- The time that has to go by between two frames that are encoded. -/
def encodeGap (fps : Int) : Int := jpegFrameInterval fps - jpegFrameInterval fps / 10

/-- What `shouldEncodeJPEG` makes of a frame in this step. `Stop` forgets the last one. -/
def encodeEntry (s : JPEGSink) : JPEGAction → Option Entry
  | .raw k .throttle =>
    match s.writes[k]? with
    | some { frame := _, stage := .throttle now _ } =>
      some (if (s.shouldEncodeJPEG now).1 then .passed now else .dropped now)
    | _ => none
  | .teardown => some .reset
  | _ => none

/-- Whether a frame is kept for raw viewers in this step. -/
def keepEntry (s : JPEGSink) : JPEGAction → Option Entry
  | .raw k .throttleRaw =>
    match s.writes[k]? with
    | some { frame := _, stage := .throttleRaw now } =>
      some (if s.lastFrameAt.any fun last => decide (now - last < vncFrameInterval) then .dropped now else .passed now)
    | _ => none
  | _ => none

/-! ### Steps -/

theorem shouldEncodeJPEG_cases (s : JPEGSink) (now : Int) :
    s.shouldEncodeJPEG now = (true, { s with lastJPEGAt := some now }) ∧
        (60 ≤ s.fps ∨ ∀ last ∈ s.lastJPEGAt, encodeGap s.fps ≤ now - last) ∨
      s.shouldEncodeJPEG now = (false, s) ∧ s.fps < 60 ∧ ∃ last ∈ s.lastJPEGAt, now - last < encodeGap s.fps := by
  unfold shouldEncodeJPEG encodeGap
  cases hlast : s.lastJPEGAt with
  | none => exact .inl ⟨rfl, .inr nofun⟩
  | some last =>
    dsimp only
    split
    · rename_i hpass
      refine .inl ⟨rfl, hpass.imp id fun hgap before hbefore => ?_⟩
      obtain rfl := Option.some.inj hbefore
      omega
    · rename_i hdrop
      rw [not_or, not_not] at hdrop
      exact .inr ⟨rfl, by omega, last, rfl, hdrop.2⟩

/-- A step of a call leaves both times alone, but for the two throttles. -/
theorem rawStep_times {raw : RawAction} (h : s.rawStep w raw = some (t, w')) : t.fps = s.fps ∧
    (raw ≠ .throttle → t.lastJPEGAt = s.lastJPEGAt) ∧ (raw ≠ .throttleRaw → t.lastFrameAt = s.lastFrameAt) := by
  cases raw with
  | setSize =>
    simp only [rawStep, Option.ite_none_right_eq_some, Option.some.injEq, Prod.mk.injEq] at h
    obtain ⟨-, rfl, -⟩ := h
    exact ⟨rfl, fun _ => rfl, fun _ => rfl⟩
  | readConsumers hasRaw hasJPEG now =>
    simp only [rawStep, Option.ite_none_right_eq_some, Option.some.injEq, Prod.mk.injEq] at h
    obtain ⟨-, rfl, -⟩ := h
    exact ⟨rfl, fun _ => rfl, fun _ => rfl⟩
  | throttle =>
    simp only [rawStep] at h
    split at h
    · rename_i now hasRaw _
      cases h
      rcases shouldEncodeJPEG_cases s now with ⟨hencode, -⟩ | ⟨hencode, -⟩
      · rw [hencode]
        exact ⟨rfl, fun hne => absurd rfl hne, fun _ => rfl⟩
      · rw [hencode]
        exact ⟨rfl, fun _ => rfl, fun _ => rfl⟩
    · cases h
  | lock =>
    simp only [rawStep] at h
    split at h
    · split at h <;> cases h
      exact ⟨rfl, fun _ => rfl, fun _ => rfl⟩
    · cases h
  | readEncoder present =>
    simp only [rawStep] at h
    split at h
    · split at h <;> cases h <;> exact ⟨rfl, fun _ => rfl, fun _ => rfl⟩
    · cases h
  | encode payload =>
    simp only [rawStep] at h
    split at h
    · split at h <;> cases h <;> exact ⟨rfl, fun _ => rfl, fun _ => rfl⟩
    · cases h
  | throttleRaw =>
    simp only [rawStep] at h
    split at h
    · split at h <;> cases h <;> exact ⟨rfl, fun _ => rfl, fun hne => absurd rfl hne⟩
    · cases h
  | publishRaw =>
    simp only [rawStep, Option.ite_none_right_eq_some, Option.some.injEq, Prod.mk.injEq] at h
    obtain ⟨-, rfl, -⟩ := h
    exact ⟨rfl, fun _ => rfl, fun _ => rfl⟩

/-- Only the two throttles, and `Stop`, move the times. -/
theorem step_times (h : s.step action = some t) : t.fps = s.fps ∧
    (encodeEntry s action = none → t.lastJPEGAt = s.lastJPEGAt) ∧ (keepEntry s action = none → t.lastFrameAt = s.lastFrameAt) := by
  cases action with
  | writeRawVideo frame =>
    simp only [step, Option.some.injEq] at h
    subst h
    split <;> exact ⟨rfl, fun _ => rfl, fun _ => rfl⟩
  | raw k raw =>
    simp only [step] at h
    split at h
    · rename_i w hw
      obtain ⟨⟨u, w'⟩, hraw, rfl⟩ := Option.map_eq_some_iff.mp h
      obtain ⟨hfps, hencode, hkeep⟩ := rawStep_times hraw
      refine ⟨hfps, fun hnone => ?_, fun hnone => ?_⟩
      · by_cases hthrottle : raw = .throttle
        · subst hthrottle
          simp only [rawStep] at hraw
          split at hraw
          · rename_i now hasRaw hstage
            obtain ⟨frame, stage⟩ := w
            dsimp only at hstage
            subst hstage
            simp only [encodeEntry, hw] at hnone
            cases hnone
          · cases hraw
        · exact hencode hthrottle
      · by_cases hthrottle : raw = .throttleRaw
        · subst hthrottle
          simp only [rawStep] at hraw
          split at hraw
          · rename_i now hstage
            obtain ⟨frame, stage⟩ := w
            dsimp only at hstage
            subst hstage
            simp only [keepEntry, hw] at hnone
            cases hnone
          · cases hraw
        · exact hkeep hthrottle
    · cases h
  | writeJPEGFrame payload width height hasRaw =>
    simp only [step, Option.some.injEq] at h
    subst h
    unfold writeJPEGFrame
    split
    · exact ⟨rfl, fun _ => rfl, fun _ => rfl⟩
    · dsimp only
      split <;> exact ⟨rfl, fun _ => rfl, fun _ => rfl⟩
  | teardown =>
    simp only [step] at h
    split at h <;> cases h
    refine ⟨rfl, fun hnone => ?_, fun _ => rfl⟩
    cases hnone
  | select width height supportsDesktopSize =>
    simp only [step, Option.some.injEq] at h
    subst h
    exact ⟨rfl, fun _ => rfl, fun _ => rfl⟩
  | viewer i viewerAction =>
    simp only [step] at h
    split at h
    · obtain ⟨⟨rectangles, v⟩, -, rfl⟩ := Option.map_eq_some_iff.mp h
      exact ⟨rfl, fun _ => rfl, fun _ => rfl⟩
    · cases h

/-- What an entry says of the step: what passes, and what the sink remembers. -/
def Encodes (s t : JPEGSink) : Entry → Prop
  | .passed now => t.lastJPEGAt = some now ∧ (60 ≤ s.fps ∨ ∀ last ∈ s.lastJPEGAt, encodeGap s.fps ≤ now - last)
  | .dropped now => t.lastJPEGAt = s.lastJPEGAt ∧ s.fps < 60 ∧ ∃ last ∈ s.lastJPEGAt, now - last < encodeGap s.fps
  | .reset => t.lastJPEGAt = none

def Keeps (s t : JPEGSink) : Entry → Prop
  | .passed now => t.lastFrameAt = some now ∧ ∀ last ∈ s.lastFrameAt, vncFrameInterval ≤ now - last
  | .dropped now => t.lastFrameAt = s.lastFrameAt ∧ ∃ last ∈ s.lastFrameAt, now - last < vncFrameInterval
  | .reset => False

theorem step_encodeEntry (h : s.step action = some t) {e : Entry} (he : encodeEntry s action = some e) : Encodes s t e := by
  unfold encodeEntry at he
  split at he
  · rename_i k
    split at he
    · rename_i frame now hasRaw hw
      simp only [step, hw, rawStep, Option.map_some, Option.some.injEq] at h
      subst h
      obtain rfl := Option.some.inj he
      rcases shouldEncodeJPEG_cases s now with ⟨hencode, hgap⟩ | ⟨hencode, hgap⟩
      · rw [hencode]
        exact ⟨rfl, hgap⟩
      · rw [hencode]
        exact ⟨rfl, hgap⟩
    · cases he
  · obtain rfl := Option.some.inj he
    simp only [step] at h
    split at h <;> cases h
    rfl
  · cases he

theorem step_keepEntry (h : s.step action = some t) {e : Entry} (he : keepEntry s action = some e) : Keeps s t e := by
  unfold keepEntry at he
  split at he
  · rename_i k
    split at he
    · rename_i frame now hw
      simp only [step, hw, rawStep] at h
      obtain rfl := Option.some.inj he
      split at h
      · rename_i hdrop
        cases h
        rw [if_pos hdrop]
        obtain ⟨last, hlast, hgap⟩ := (Option.any_eq_true _ _).mp hdrop
        exact ⟨rfl, last, hlast, of_decide_eq_true hgap⟩
      · rename_i hpass
        cases h
        rw [if_neg hpass]
        refine ⟨rfl, fun last hlast => ?_⟩
        rw [Option.mem_def.mp hlast, Option.any_some, decide_eq_true_eq] at hpass
        exact Int.not_lt.mp hpass
    · cases he
  · cases he

/-! ### Runs -/

/-- What was put out, in the order of the throttle. -/
def encodeLog (s : JPEGSink) (actions : List JPEGAction) : List Entry :=
  collect step (fun s action => (encodeEntry s action).toList) s actions

def keepLog (s : JPEGSink) (actions : List JPEGAction) : List Entry :=
  collect step (fun s action => (keepEntry s action).toList) s actions

structure Throttled (fps : Int) (encoded kept : List Entry) (s : JPEGSink) : Prop where
  rate : s.fps = fps
  lastJPEGAt : last encoded = s.lastJPEGAt
  lastFrameAt : last kept = s.lastFrameAt
  slow : fps < 60 → Along (Obeys (encodeGap fps)) encoded
  fast : 60 ≤ fps → ∀ time, .dropped time ∉ encoded
  raw : Along (Obeys vncFrameInterval) kept
  never : .reset ∉ kept

variable {fps : Int} {encoded kept : List Entry}

theorem Throttled.start (fps width height : Int) : Throttled fps [] [] (start fps width height) := by
  unfold JPEGSink.start
  split <;> exact ⟨rfl, rfl, rfl, fun _ => along_nil, fun _ _ => by simp, along_nil, by simp⟩

theorem Throttled.encode (h : Throttled fps encoded kept s) (hfps : t.fps = s.fps) (hframe : t.lastFrameAt = s.lastFrameAt)
    {e : Entry} (he : Encodes s t e) : Throttled fps (encoded ++ [e]) kept t := by
  refine ⟨hfps.trans h.rate, ?_, h.lastFrameAt.trans hframe.symm, fun hslow => ?_, fun hfast time hmem => ?_, h.raw, h.never⟩
  · rw [last_concat]
    cases e with
    | passed now => exact he.1.symm
    | dropped now => exact h.lastJPEGAt.trans he.1.symm
    | reset => exact he.symm
  · refine along_concat.mpr ⟨h.slow hslow, ?_⟩
    rw [← h.rate] at hslow ⊢
    cases e with
    | passed now =>
      intro before hbefore
      rw [h.lastJPEGAt] at hbefore
      exact he.2.resolve_left (Int.not_le.mpr hslow) before hbefore
    | dropped now =>
      rw [Obeys, h.lastJPEGAt]
      exact he.2.2
    | reset => trivial
  · rcases List.mem_append.mp hmem with hmem | hmem
    · exact h.fast hfast time hmem
    · obtain rfl := List.mem_singleton.mp hmem
      have hslow := he.2.1
      rw [h.rate] at hslow
      exact absurd hfast (Int.not_le.mpr hslow)

theorem Throttled.keep (h : Throttled fps encoded kept s) (hfps : t.fps = s.fps) (hjpeg : t.lastJPEGAt = s.lastJPEGAt)
    {e : Entry} (he : Keeps s t e) : Throttled fps encoded (kept ++ [e]) t := by
  refine ⟨hfps.trans h.rate, h.lastJPEGAt.trans hjpeg.symm, ?_, h.slow, h.fast, ?_, fun hmem => ?_⟩
  · rw [last_concat]
    cases e with
    | passed now => exact he.1.symm
    | dropped now => exact h.lastFrameAt.trans he.1.symm
    | reset => exact absurd he id
  · refine along_concat.mpr ⟨h.raw, ?_⟩
    cases e with
    | passed now =>
      rw [Obeys, h.lastFrameAt]
      exact he.2
    | dropped now =>
      rw [Obeys, h.lastFrameAt]
      exact he.2
    | reset => trivial
  · rcases List.mem_append.mp hmem with hmem | hmem
    · exact h.never hmem
    · rw [← List.mem_singleton.mp hmem] at he
      exact he

theorem Throttled.step (h : Throttled fps encoded kept s) (hs : s.step action = some t) :
    Throttled fps (encoded ++ (encodeEntry s action).toList) (kept ++ (keepEntry s action).toList) t := by
  obtain ⟨hfps, hjpeg, hframe⟩ := step_times hs
  cases hencode : encodeEntry s action with
  | some e =>
    have hkeep : keepEntry s action = none := by
      unfold encodeEntry at hencode
      split at hencode
      · rfl
      · rfl
      · cases hencode
    rw [hkeep, Option.toList_none, List.append_nil]
    exact h.encode hfps (hframe hkeep) (step_encodeEntry hs hencode)
  | none =>
    rw [Option.toList_none, List.append_nil]
    cases hkeep : keepEntry s action with
    | some e => exact h.keep hfps (hjpeg hencode) (step_keepEntry hs hkeep)
    | none =>
      rw [Option.toList_none, List.append_nil]
      exact ⟨hfps.trans h.rate, h.lastJPEGAt.trans (hjpeg hencode).symm, h.lastFrameAt.trans (hframe hkeep).symm, h.slow,
        h.fast, h.raw, h.never⟩

/-- However the calls of `WriteRawVideo` interleave with each other, and whatever their times are: below 60 frames a
    second, a frame is encoded exactly if it comes at least nine tenths of a frame's time behind the one that was encoded
    last, so that until the sink stops the encoded frames are that far apart; from 60 on, every frame is encoded. And a
    frame is kept for raw viewers exactly if it comes at least half a second behind the last one that was. -/
theorem frames_throttled {width height : Int} {actions : List JPEGAction}
    (h : run step (.start fps width height) actions = some s) :
    (fps < 60 → Along (Obeys (encodeGap fps)) (encodeLog (.start fps width height) actions) ∧
      ∀ pre stretch post, encodeLog (.start fps width height) actions = pre ++ stretch ++ post → .reset ∉ stretch →
        Spaced (encodeGap fps) (stretch.filterMap Entry.time?)) ∧
    (60 ≤ fps → ∀ time, .dropped time ∉ encodeLog (.start fps width height) actions) ∧
    Along (Obeys vncFrameInterval) (keepLog (.start fps width height) actions) ∧
      Spaced vncFrameInterval ((keepLog (.start fps width height) actions).filterMap Entry.time?) := by
  have hthrottled : Throttled fps (encodeLog (.start fps width height) actions) (keepLog (.start fps width height) actions) s := by
    refine run_history (P := fun actions s => Throttled fps (encodeLog (.start fps width height) actions)
      (keepLog (.start fps width height) actions) s) (Throttled.start fps width height) (fun pre u action v hu hpre hs => ?_) h
    rw [encodeLog, keepLog, collect_concat hu, collect_concat hu]
    exact hpre.step hs
  refine ⟨fun hslow => ⟨hthrottled.slow hslow, fun pre stretch post hsplit hreset => ?_⟩, hthrottled.fast, hthrottled.raw, ?_⟩
  · have hlog := hthrottled.slow hslow
    rw [hsplit] at hlog
    exact spaced_of_obeys (fun e he heq => hreset (heq ▸ he)) hlog.of_append
  · have hkept : Along (Obeys vncFrameInterval) ([] ++ keepLog (.start fps width height) actions) := hthrottled.raw
    exact spaced_of_obeys (fun e he heq => hthrottled.never (heq ▸ he)) hkept

/-- A call that encodes its frame if the throttle lets it. -/
def encodeCall (k : Nat) (now : Int) (passes : Bool) : List JPEGAction :=
  [.raw k .setSize, .raw k (.readConsumers true true now), .raw k .throttle] ++
    (if passes then [.raw k .lock, .raw k (.readEncoder true), .raw k (.encode (some [0xff]))] else []) ++ [.raw k .throttleRaw]

/-- Three frames at 30 frames a second; the second call takes its turn behind the third one. -/
def threeFrames : List JPEGAction :=
  let frame : VideoFrame := { width := 2, height := 2, pixelFormat := .nv12, data := [0, 0, 0, 0, 128, 128] }
  [.writeRawVideo frame, .writeRawVideo frame, .writeRawVideo frame] ++ encodeCall 0 0 true ++ encodeCall 2 35000000 true ++
    encodeCall 1 20000000 false

theorem frames_throttled_three : ∃ s, run step (.start 30 2 2) threeFrames = some s ∧
    encodeLog (.start 30 2 2) threeFrames = [.passed 0, .passed 35000000, .dropped 20000000] ∧
    Spaced (encodeGap 30) [0, 35000000] := by
  have hlog : encodeLog (.start 30 2 2) threeFrames = [.passed 0, .passed 35000000, .dropped 20000000] := by decide +kernel
  have hrun : (run step (.start 30 2 2) threeFrames).isSome = true := by decide +kernel
  obtain ⟨s, hs⟩ := Option.isSome_iff_exists.mp hrun
  refine ⟨s, hs, hlog, ?_⟩
  exact ((frames_throttled hs).1 (by decide)).2 [] _ [] (by rw [hlog, List.nil_append, List.append_nil]) (by simp)

end JPEGSink

end OnekvmVnc
