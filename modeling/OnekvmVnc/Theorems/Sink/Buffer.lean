import Mathlib.Algebra.GroupWithZero.Nat
import OnekvmVnc.Lib.Transition
import OnekvmVnc.Theorems.Sink.Idle

/-! The representation of the H.264 buffer. An append may reset the buffer, also while `WriteVideo` goes through the
    units that it replays; what is appended then begins a new buffer, and the keyframe behind them makes it ready. -/

namespace OnekvmVnc

open Transition

/-- What the buffer holds is consistent, ready or not. -/
structure H264Buffer.Consistent (b : H264Buffer) : Prop where
  bytes : b.bytes = (b.frames.map (·.unit.payload.length)).sum
  frames : b.frames.length ≤ maxH264Frames
  size : b.bytes ≤ maxH264BufferBytes
  counted : b.frames.length ≤ b.seq
  /-- The numbers of the frames are consecutive, and end with the last number that was given. -/
  seqs : b.frames.map (·.seq) = List.range' (b.seq + 1 - b.frames.length) b.frames.length
  first : ∀ f ∈ b.frames.head?, f.keyframe = true
  bootstrap : b.bootstrap.length ≤ 4

/-- And it is ready when it holds a frame. -/
structure H264Buffer.Represented (b : H264Buffer) : Prop extends b.Consistent where
  ready : b.ready = true ↔ b.frames ≠ []

namespace H264Buffer
variable {b : H264Buffer} {unit : AccessUnit}

theorem Consistent.empty {b : H264Buffer} (frames : b.frames = []) (bytes : b.bytes = 0)
    (bootstrap : b.bootstrap.length ≤ 4) : b.Consistent := by
  refine ⟨?_, ?_, ?_, ?_, ?_, ?_, bootstrap⟩
  · rewrite [frames]
    exact bytes
  · rewrite [frames]
    exact Nat.zero_le _
  · rewrite [bytes]
    exact Nat.zero_le _
  · rewrite [frames]
    exact Nat.zero_le _
  · rewrite [frames]
    rfl
  · rewrite [frames]
    exact nofun

/-- A reset leaves the number of the last frame. -/
theorem Represented.reset (b : H264Buffer) : b.reset.Represented :=
  { Consistent.empty rfl rfl (Nat.zero_le _) with ready := ⟨nofun, fun h => absurd rfl h⟩ }

/-- The frame that is appended is a keyframe, or not the first one. -/
theorem Consistent.appendFrame (h : b.Consistent) {keyframe : Bool} (hfirst : keyframe = true ∨ b.frames ≠ []) :
    (b.appendFrame unit keyframe).Consistent := by
  unfold H264Buffer.appendFrame
  dsimp only
  split
  · exact .empty rfl rfl (Nat.zero_le _)
  · rename_i hfits
    rw [not_or, Nat.not_lt, Nat.not_lt] at hfits
    refine ⟨?_, hfits.1, hfits.2, ?_, ?_, ?_, h.bootstrap⟩
    · rw [List.map_append, List.sum_append, ← h.bytes]
      simp
    · rw [List.length_append]
      exact Nat.succ_le_succ h.counted
    · have hcounted := h.counted
      have hlength : (b.frames ++ [({ seq := b.seq + 1, unit, keyframe } : H264Frame)]).length = b.frames.length + 1 := by
        rw [List.length_append, List.length_singleton]
      have hstart : b.seq + 1 + 1 - (b.frames.length + 1) = b.seq + 1 - b.frames.length := by omega
      have hend : b.seq + 1 - b.frames.length + b.frames.length = b.seq + 1 := by omega
      rw [hlength, hstart, List.map_append, h.seqs, List.range'_concat]
      simp [hend]
    · intro f hf
      rewrite [List.head?_append, Option.mem_def, Option.or_eq_some_iff] at hf
      rcases hf with hf | ⟨hnone, hf⟩
      · exact h.first f hf
      · cases hf
        exact hfirst.resolve_right (absurd (List.head?_eq_none_iff.mp hnone))

/-- A ready buffer stays ready unless it is reset. -/
theorem Consistent.represented_appendFrame (h : b.Consistent) (ready : b.ready = true) {keyframe : Bool}
    (hfirst : keyframe = true ∨ b.frames ≠ []) : (b.appendFrame unit keyframe).Represented := by
  refine { h.appendFrame hfirst with ready := ?_ }
  rcases appendFrame_cases b unit keyframe with happend | happend <;> rw [happend]
  · simp [ready]
  · simp

theorem Consistent.replay (h : b.Consistent) : b.replay.Consistent :=
  List.foldlRecOn b.bootstrap _ (.empty rfl rfl h.bootstrap) fun _ hc _ _ => hc.appendFrame (.inl rfl)

theorem Consistent.park (h : b.Consistent) (unit : AccessUnit) : (b.park unit).Consistent where
  bytes := h.bytes
  frames := h.frames
  size := h.size
  counted := h.counted
  seqs := h.seqs
  first := h.first
  bootstrap := by
    change ((b.bootstrap ++ [unit]).drop _).length ≤ 4
    rw [List.length_drop]
    omega

theorem Represented.append (h : b.Represented) (unit : AccessUnit) : (b.append unit).Represented := by
  rcases append_cases b unit with ⟨-, hb⟩ | ⟨-, hb⟩ | ⟨-, -, hready, hb⟩ | ⟨-, -, -, hb⟩ <;> rw [hb]
  · exact { h.toConsistent.park unit with ready := h.ready }
  · have hreplay := h.toConsistent.replay
    have hcleared : Consistent { b.replay with bootstrap := [], ready := true } :=
      { hreplay with bootstrap := Nat.zero_le _ }
    exact hcleared.represented_appendFrame rfl (.inl rfl)
  · exact h.toConsistent.represented_appendFrame hready (.inr (h.ready.mp hready))
  · exact h

end H264Buffer

namespace Sink
variable {cfg : SinkConfig} {s t : Sink} {i : Nat} {c c' : SinkClient}

theorem represented_decrementEncoding (h : s.h264.Represented) (e : ClientEncoding) :
    (s.decrementEncoding e).h264.Represented := by
  cases e with
  | h264 =>
    change (if s.h264Consumers - 1 = 0 then s.h264.reset else s.h264).Represented
    split
    · exact .reset _
    · exact h
  | _ => exact h

theorem represented_incrementEncoding (h : s.h264.Represented) (e : ClientEncoding) :
    (s.incrementEncoding e).h264.Represented := by
  cases e with
  | h264 =>
    change (if s.h264Consumers = 0 then s.h264.reset else s.h264).Represented
    split
    · exact .reset _
    · exact h
  | _ => exact h

theorem represented_moved (h : s.h264.Represented) (move : ClientMove cfg s i c t c') : t.h264.Represented := by
  cases move with
  | counted => exact represented_incrementEncoding (represented_decrementEncoding h _) _
  | _ => exact h

theorem represented_step (h : s.h264.Represented) (hstep : SinkStep cfg s t) : t.h264.Represented := by
  cases hstep with
  | moved _ move =>
    have hmoved := represented_moved h move
    exact hmoved
  | appended => exact h.append _
  | _ => exact h

end Sink

/-- Whatever the calls of `WriteVideo` and the viewers do, the buffer is represented consistently. -/
theorem h264_represented (cfg : SinkConfig) (actions : List SinkAction) (t : Sink)
    (h : run (Sink.step cfg) {} actions = some t) : t.h264.Represented :=
  run_invariant (P := fun s => s.h264.Represented) (H264Buffer.Represented.reset {})
    (fun _ _ _ hu ha => Sink.represented_step hu (.of_step ha)) h

/-- Parameter sets are parked, a keyframe is appended behind them, and then another picture. -/
theorem h264_represented_three : ∃ t, run (Sink.step idleConfig) {} (idleActions ++
      [.write { payload := [0, 0, 1, 0x67] }, .append 0, .write { payload := [0, 0, 1, 0x65] }, .append 0,
        .write { payload := [0, 0, 1, 0x41] }, .append 0]) = some t ∧ t.h264.bytes = 12 ∧ t.h264.Represented := by
  obtain ⟨t, ht, hbytes⟩ := Option.map_eq_some_iff.mp
    (show (run (Sink.step idleConfig) {} (idleActions ++
      [.write { payload := [0, 0, 1, 0x67] }, .append 0, .write { payload := [0, 0, 1, 0x65] }, .append 0,
        .write { payload := [0, 0, 1, 0x41] }, .append 0])).map (·.h264.bytes) = some 12 by decide +kernel)
  exact ⟨t, ht, hbytes, h264_represented _ _ t ht⟩

end OnekvmVnc
