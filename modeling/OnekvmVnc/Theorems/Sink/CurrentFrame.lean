import OnekvmVnc.Lib.Transition
import OnekvmVnc.Sink.Raw

/-! `currentFrame` returns the newest picture. Raw frames come at any time and calls wait for each other, but what a call
    returns is made of the frame that was the newest one at some moment while the call was under way, and no call
    returns an older picture than a call that returned before it. -/

namespace OnekvmVnc

open Transition

variable {decode : List UInt8 → Except String RGBA}

/-- What there is to show with that many raw frames: an image without a picture, or what the last of them becomes. -/
def Shows (decode : List UInt8 → Except String RGBA) (published : List VideoFrame) :
    Nat → Except ConvertFailure RGBA → Prop
  | 0, result => ∃ width height, result = .ok (.new width height)
  | n + 1, result => ∃ raw, published[n]? = some raw ∧ result = raw.frameToRGBA decode

theorem Shows.grow {published : List VideoFrame} {n : Nat} {result : Except ConvertFailure RGBA}
    (h : Shows decode published n result) (frame : VideoFrame) : Shows decode (published ++ [frame]) n result := by
  cases n with
  | zero => exact h
  | succ n =>
    obtain ⟨raw, hraw, hresult⟩ := h
    refine ⟨raw, ?_, hresult⟩
    rw [List.getElem?_append_left (List.getElem?_eq_some_iff.mp hraw).1]
    exact hraw

/-- The call returned what was the newest at a moment while it was under way. -/
structure FrameReturn.Newest (decode : List UInt8 → Except String RGBA) (published : List VideoFrame) (r : FrameReturn) :
    Prop where
  began : r.since ≤ r.seen
  ended : r.seen ≤ r.upTo
  past : r.upTo ≤ published.length
  shows_ : Shows decode published r.seen r.result

namespace RawSink
variable {s t : RawSink}

/-- What the holder of `convertMu` knows. -/
def Place (s : RawSink) (since : Nat) : FrameStage → Prop
  | .locked => True
  | .blank _ _ => since = 0 ∧ s.convertedSeq = 0 ∧ ∀ r ∈ s.returned, r.seen = 0
  | .converting raw seq => since ≤ seq ∧ (∃ n, seq = n + 1 ∧ s.published[n]? = some raw) ∧ s.convertedSeq ≤ seq ∧
      ∀ r ∈ s.returned, r.seen ≤ seq

/-- What holds in every state. -/
structure Kept (decode : List UInt8 → Except String RGBA) (s : RawSink) : Prop where
  count : s.published.length = s.frameSeq
  newest : s.rawFrame = s.published.getLast?
  behind : s.convertedSeq ≤ s.frameSeq
  image : ∀ image, s.frame = some image → Shows decode s.published s.convertedSeq (.ok image)
  present : 0 < s.convertedSeq → ∃ image, s.frame = some image
  waits : ∀ since ∈ s.waiting, since ≤ s.frameSeq
  holder : ∀ since stage, s.convertMu = some (since, stage) → since ≤ s.frameSeq ∧ s.Place since stage
  returned : ∀ r ∈ s.returned, r.Newest decode s.published
  ordered : s.returned.Pairwise fun earlier later => earlier.seen ≤ later.seen

theorem Kept.seen (h : s.Kept decode) : ∀ r ∈ s.returned, r.seen ≤ s.frameSeq := fun r hr => by
  have hr := h.returned r hr
  have := h.count
  exact hr.ended.trans (hr.past.trans this.le)

/-- A call returns what there is to show. -/
theorem Kept.finish (h : s.Kept decode) {since seen : Nat} {result : Except ConvertFailure RGBA} (began : since ≤ seen)
    (ended : seen ≤ s.frameSeq) (shows_ : Shows decode s.published seen result) (latest : ∀ r ∈ s.returned, r.seen ≤ seen) :
    (s.finish since result seen).Kept decode where
  count := h.count
  newest := h.newest
  behind := h.behind
  image := h.image
  present := h.present
  waits := h.waits
  holder := nofun
  returned := by
    refine List.forall_mem_append.mpr ⟨h.returned, List.forall_mem_singleton.mpr ⟨began, ended, ?_, shows_⟩⟩
    exact h.count.ge
  ordered := List.pairwise_append.mpr ⟨h.ordered, List.pairwise_singleton .., fun r hr r' hr' => by
    rw [List.mem_singleton.mp hr']
    exact latest r hr⟩

/-- A raw frame comes. -/
theorem Kept.publish (h : s.Kept decode) (frame : VideoFrame) :
    Kept decode { s with rawFrame := some frame, frameSeq := s.frameSeq + 1, published := s.published ++ [frame] } where
  count := by
    rw [List.length_append, h.count]
    rfl
  newest := List.getLast?_concat.symm
  behind := Nat.le_succ_of_le h.behind
  image image himage := (h.image image himage).grow frame
  present := h.present
  waits since hsince := Nat.le_succ_of_le (h.waits since hsince)
  holder since stage hstage := by
    obtain ⟨hsince, hplace⟩ := h.holder since stage hstage
    refine ⟨Nat.le_succ_of_le hsince, ?_⟩
    cases stage with
    | locked => trivial
    | blank width height => exact hplace
    | converting raw seq =>
      obtain ⟨hbegan, ⟨n, hseq, hraw⟩, hrest⟩ := hplace
      refine ⟨hbegan, ⟨n, hseq, ?_⟩, hrest⟩
      rw [List.getElem?_append_left (List.getElem?_eq_some_iff.mp hraw).1]
      exact hraw
  returned r hr := by
    obtain ⟨hbegan, hended, hpast, hshows⟩ := h.returned r hr
    refine ⟨hbegan, hended, ?_, hshows.grow frame⟩
    rw [List.length_append]
    exact Nat.le_add_right_of_le hpast
  ordered := h.ordered

/-- The holder looks at the newest raw frame. -/
theorem Kept.readStep (h : s.Kept decode) {since : Nat} (hmu : s.convertMu = some (since, .locked)) :
    (s.readStep since).Kept decode := by
  have hsince := (h.holder since _ hmu).1
  have hcount := h.count
  unfold RawSink.readStep
  split
  · rename_i hnone
    have hempty : s.published = [] := by
      rw [h.newest, List.getLast?_eq_none_iff] at hnone
      exact hnone
    have hzero : s.frameSeq = 0 := by rw [← hcount, hempty, List.length_nil]
    split
    · refine { h with holder := fun since' stage hstage => ?_ }
      cases hstage
      exact ⟨hsince, Nat.le_zero.mp (hzero ▸ hsince), Nat.le_zero.mp (hzero ▸ h.behind),
        fun r hr => Nat.le_zero.mp (hzero ▸ h.seen r hr)⟩
    · rename_i frame hframe
      have hconverted : s.convertedSeq = s.frameSeq := by
        have := h.behind
        omega
      exact h.finish hsince le_rfl (hconverted ▸ h.image frame hframe) h.seen
  · rename_i raw hraw
    split
    · rename_i hconverted
      split
      · rename_i frame hframe
        exact h.finish hsince le_rfl (hconverted ▸ h.image frame hframe) h.seen
      · exact h
    · refine { h with holder := fun since' stage hstage => ?_ }
      cases hstage
      refine ⟨hsince, hsince, ⟨s.frameSeq - 1, ?_, ?_⟩, h.behind, h.seen⟩
      · have hne : s.published ≠ [] := by
          intro hempty
          rw [h.newest, hempty] at hraw
          cases hraw
        have := List.length_pos_iff.mpr hne
        omega
      · rw [← hcount, ← List.getLast?_eq_getElem?, ← h.newest]
        exact hraw

/-- The holder makes an image without a picture. -/
theorem Kept.blankStep (h : s.Kept decode) {since : Nat} {width height : Int}
    (hmu : s.convertMu = some (since, .blank width height)) : (s.blankStep since width height).Kept decode := by
  obtain ⟨-, hsince, hconverted, hseen⟩ := h.holder since _ hmu
  have hshows : Shows decode s.published 0 (.ok (s.frame.getD (.new width height))) := by
    cases hframe : s.frame with
    | none => exact ⟨width, height, rfl⟩
    | some image => exact hconverted ▸ h.image image hframe
  have hkept : Kept decode { s with frame := some (s.frame.getD (.new width height)) } :=
    { h with
      image := fun image himage => by
        obtain rfl := Option.some.inj himage
        exact hconverted.symm ▸ hshows
      present := fun _ => ⟨_, rfl⟩ }
  exact hkept.finish hsince.le (Nat.zero_le _) hshows fun r hr => (hseen r hr).le

/-- The holder converts its frame, and keeps what it has made. -/
theorem Kept.convertStep (h : s.Kept decode) {since : Nat} {raw : VideoFrame} {seq : Nat}
    (hmu : s.convertMu = some (since, .converting raw seq)) : (s.convertStep decode since raw seq).Kept decode := by
  obtain ⟨-, hbegan, ⟨n, rfl, hraw⟩, hconverted, hseen⟩ := h.holder since _ hmu
  have hended : n + 1 ≤ s.frameSeq := h.count ▸ (List.getElem?_eq_some_iff.mp hraw).1
  have hshows : Shows decode s.published (n + 1) (raw.frameToRGBA decode) := ⟨raw, hraw, rfl⟩
  unfold RawSink.convertStep
  split
  · exact { h with }
  · rename_i failure _ hresult
    exact h.finish hbegan hended (hresult ▸ hshows) hseen
  · rename_i image hresult
    rw [hresult] at hshows
    rw [if_pos hconverted]
    have hkept : Kept decode { s with frame := some image, convertedSeq := n + 1 } :=
      { h with
        behind := hended
        image := fun image' himage => by
          obtain rfl := Option.some.inj himage
          exact hshows
        present := fun _ => ⟨image, rfl⟩
        holder := fun since' stage hstage => by
          cases hmu.symm.trans hstage
          exact ⟨hbegan.trans hended, hbegan, ⟨n, rfl, hraw⟩, le_rfl, hseen⟩ }
    exact hkept.finish hbegan hended hshows hseen

theorem Kept.step (h : s.Kept decode) {action : FrameAction} (hstep : s.step decode action = some t) : t.Kept decode := by
  unfold RawSink.step at hstep
  split at hstep
  · cases hstep
  · split at hstep
    · cases hstep
      exact { h with }
    · cases hstep
      exact h.publish _
    · cases hstep
      exact { h with
        waits := List.forall_mem_append.mpr ⟨h.waits, List.forall_mem_singleton.mpr le_rfl⟩ }
    · rename_i k hnone
      obtain ⟨since, hsince, rfl⟩ := Option.map_eq_some_iff.mp hstep
      have hbegan := h.waits since (List.mem_of_getElem? hsince)
      exact { h with
        waits := fun since' hsince' => h.waits since' (List.mem_of_mem_eraseIdx hsince')
        holder := fun since' stage hstage => by
          cases hstage
          exact ⟨hbegan, trivial⟩ }
    · rename_i since hmu
      cases hstep
      exact h.readStep hmu
    · rename_i since width height hmu
      cases hstep
      exact h.blankStep hmu
    · rename_i since raw seq hmu
      cases hstep
      exact h.convertStep hmu
    · cases hstep

theorem Kept.start (width height : Int) : Kept decode { videoWidth := width, videoHeight := height } where
  count := rfl
  newest := rfl
  behind := le_rfl
  image _ himage := nomatch himage
  present hpos := absurd hpos (Nat.lt_irrefl 0)
  waits _ hsince := absurd hsince List.not_mem_nil
  holder _ _ hstage := nomatch hstage
  returned _ hr := absurd hr List.not_mem_nil
  ordered := .nil

/-- However raw frames and calls interleave, and whatever fails to convert: each call returns what the raw frame becomes
    that was the newest one at some moment of the call, or an image without a picture if there was none, and later
    calls return newer frames or the same. -/
theorem current_frame_newest {width height : Int} {actions : List FrameAction}
    (h : run (step decode) { videoWidth := width, videoHeight := height } actions = some s) :
    (∀ r ∈ s.returned, r.since ≤ r.seen ∧ r.seen ≤ r.upTo ∧ r.upTo ≤ s.published.length ∧
      Shows decode s.published r.seen r.result) ∧
    s.returned.Pairwise fun earlier later => earlier.seen ≤ later.seen := by
  have hkept : s.Kept decode := run_invariant (Kept.start width height) (fun _ _ _ hu ha => hu.step ha) h
  refine ⟨fun r hr => ?_, hkept.ordered⟩
  obtain ⟨hbegan, hended, hpast, hshows⟩ := hkept.returned r hr
  exact ⟨hbegan, hended, hpast, hshows⟩

/-- A frame of 2 by 2 pixels that are all alike. -/
def greyFrame (level : UInt8) : VideoFrame :=
  { width := 2, height := 2, pixelFormat := .nv12, data := List.replicate 4 level ++ [128, 128] }

/-- Two calls begin, and a frame comes while the first one makes its image; another one comes while the second one
    converts. -/
def twoCalls : List FrameAction :=
  [.call, .call, .lock 0, .read, .publish (greyFrame 0), .blank, .lock 0, .read, .publish (greyFrame 255), .convert]

theorem current_frame_newest_two : ∃ s,
    run (step fun _ => .error "") { videoWidth := 2, videoHeight := 2 } twoCalls = some s ∧
      s.returned.map (fun r => (r.since, r.seen, r.upTo)) = [(0, 0, 1), (0, 1, 2)] ∧
      ∀ r ∈ s.returned, r.seen = 1 → r.result = (greyFrame 0).frameToRGBA fun _ => .error "" := by
  have hrun : ((run (step fun _ => .error "") { videoWidth := 2, videoHeight := 2 } twoCalls).map fun s =>
      (s.returned.map (fun r => (r.since, r.seen, r.upTo)), s.published)) =
        some ([(0, 0, 1), (0, 1, 2)], [greyFrame 0, greyFrame 255]) := by decide +kernel
  obtain ⟨s, hs, hstate⟩ := Option.map_eq_some_iff.mp hrun
  obtain ⟨hnumbers, hpublished⟩ := Prod.mk.inj hstate
  refine ⟨s, hs, hnumbers, fun r hr hseen => ?_⟩
  obtain ⟨-, -, -, hshows⟩ := (current_frame_newest hs).1 r hr
  rw [hseen, hpublished] at hshows
  obtain ⟨raw, hraw, hresult⟩ := hshows
  obtain rfl := Option.some.inj hraw
  exact hresult

end RawSink

end OnekvmVnc
