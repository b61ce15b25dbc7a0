import OnekvmVnc.Lib.Parties
import OnekvmVnc.Lib.Transition
import OnekvmVnc.Sink.Jpeg

/-! A Tight rectangle has the size of the frame that its JPEG payload was made from, as long as the size of the
    video and the payload describe one frame. `WriteJPEGFrame` publishes them together. `WriteRawVideo` sets the
    size first, and may publish a payload later or not at all. -/

namespace OnekvmVnc

open Parties Transition

/-- The picture was made from a frame of this size, or no rectangle can have the size. -/
def JPEGPicture.Fits (picture : JPEGPicture) (width height : Int) : Prop :=
  picture.width = width ∧ picture.height = height ∨ (maxDimension : Int) < width ∨ (maxDimension : Int) < height

instance (picture : JPEGPicture) (width height : Int) : Decidable (picture.Fits width height) :=
  inferInstanceAs (Decidable (_ ∨ _))

/-- The rectangle describes its payload. -/
def TightRectangle.Describes (r : TightRectangle) : Prop :=
  (r.width : Int) = r.picture.width ∧ (r.height : Int) = r.picture.height

instance (r : TightRectangle) : Decidable r.Describes := inferInstanceAs (Decidable (_ ∧ _))

theorem uint16_eq {value : Int} (hpos : 0 < value) (hle : value ≤ maxDimension) : (uint16 value : Int) = value := by
  have hmax : (maxDimension : Int) = 65535 := rfl
  unfold uint16
  omega

/-! ### The calls of `WriteRawVideo` -/

/-- What a step of a call can do: set the size, publish a picture of its frame, or neither. -/
inductive RawMove (s : JPEGSink) (w : RawWrite) : RawAction → JPEGSink → RawStage → Prop where
  | sized : RawMove s w .setSize { s with videoWidth := w.frame.width, videoHeight := w.frame.height } .readConsumers
  | published {payload : List UInt8} (h : payload ≠ []) {stage : RawStage} : RawMove s w (.encode (some payload))
      { s.publish { payload, width := w.frame.width, height := w.frame.height } with jpegMu := false } stage
  | quiet {action : RawAction} {stage : RawStage} {lastJPEGAt lastFrameAt : Option Int} {rawFrame : Option VideoFrame}
      {frameSeq : Nat} {jpegMu : Bool} (size : action ≠ .setSize)
      (empty : ∀ payload, action = .encode (some payload) → payload = []) :
      RawMove s w action { s with lastJPEGAt, lastFrameAt, rawFrame, frameSeq, jpegMu } stage

section
variable {s t : JPEGSink} {w w' : RawWrite} {v v' : JPEGViewer}

theorem RawMove.of_rawStep {action : RawAction} (h : s.rawStep w action = some (t, w')) :
    RawMove s w action t w'.stage ∧ w'.frame = w.frame := by
  cases action with
  | setSize =>
    simp only [JPEGSink.rawStep, Option.ite_none_right_eq_some, Option.some.injEq, Prod.mk.injEq] at h
    obtain ⟨-, rfl, rfl⟩ := h
    exact ⟨.sized, rfl⟩
  | readConsumers hasRaw hasJPEG now =>
    simp only [JPEGSink.rawStep, Option.ite_none_right_eq_some, Option.some.injEq, Prod.mk.injEq] at h
    obtain ⟨-, rfl, rfl⟩ := h
    exact ⟨.quiet nofun nofun, rfl⟩
  | throttle =>
    simp only [JPEGSink.rawStep] at h
    split at h
    · cases h
      refine ⟨?_, rfl⟩
      unfold JPEGSink.shouldEncodeJPEG
      split
      · exact .quiet nofun nofun
      · dsimp only
        split
        · exact .quiet nofun nofun
        · exact .quiet nofun nofun
    · cases h
  | lock =>
    simp only [JPEGSink.rawStep] at h
    split at h
    · split at h
      · cases h
      · cases h
        exact ⟨.quiet nofun nofun, rfl⟩
    · cases h
  | readEncoder present =>
    simp only [JPEGSink.rawStep] at h
    split at h
    · split at h <;> cases h <;> exact ⟨.quiet nofun nofun, rfl⟩
    · cases h
  | encode payload =>
    simp only [JPEGSink.rawStep] at h
    split at h
    · split at h
      · cases h
        exact ⟨.quiet nofun nofun, rfl⟩
      · cases h
        exact ⟨.quiet nofun fun _ hencode => Option.some.inj (RawAction.encode.inj hencode) ▸ rfl, rfl⟩
      · rename_i hne
        cases h
        exact ⟨.published hne, rfl⟩
    · cases h
  | throttleRaw =>
    simp only [JPEGSink.rawStep] at h
    split at h
    · split at h <;> cases h <;> exact ⟨.quiet nofun nofun, rfl⟩
    · cases h
  | publishRaw =>
    simp only [JPEGSink.rawStep, Option.ite_none_right_eq_some, Option.some.injEq, Prod.mk.injEq] at h
    obtain ⟨-, rfl, rfl⟩ := h
    exact ⟨.quiet nofun nofun, rfl⟩

/-- `WriteJPEGFrame` refuses its frame, or publishes size and payload together. -/
theorem JPEGSink.writeJPEGFrame_cases (s : JPEGSink) (payload : List UInt8) (width height : Int) (hasRaw : Bool) :
    s.writeJPEGFrame payload width height hasRaw = s ∨
    (0 < width ∧ 0 < height) ∧ ∃ rawFrame frameSeq, s.writeJPEGFrame payload width height hasRaw =
      { s with
        videoWidth := width, videoHeight := height, jpegFrame := some { payload, width, height },
        jpegSeq := s.jpegSeq + 1, rawFrame, frameSeq } := by
  unfold JPEGSink.writeJPEGFrame
  split
  · exact .inl rfl
  · rename_i hcheck
    refine .inr ⟨?_, ?_⟩
    · unfold JPEGSink.checkJPEGFrame at hcheck
      split at hcheck
      · cases hcheck
      · split at hcheck
        · cases hcheck
        · rename_i hsize
          omega
    · dsimp only
      split <;> exact ⟨_, _, rfl⟩

namespace JPEGSink

/-! ### What holds in any case -/

/-- The sizes are positive, and there is a payload whenever there is a sequence number. -/
structure Sound (s : JPEGSink) : Prop where
  size : 0 < s.videoWidth ∧ 0 < s.videoHeight
  seq : s.jpegFrame = none ↔ s.jpegSeq = 0
  writes : ∀ w ∈ s.writes, 0 < w.frame.width ∧ 0 < w.frame.height

namespace Sound

theorem start (fps width height : Int) : (start fps width height).Sound := by
  unfold JPEGSink.start
  split
  · exact ⟨⟨by simp, by simp⟩, ⟨fun _ => rfl, fun _ => rfl⟩, fun w hw => absurd hw List.not_mem_nil⟩
  · exact ⟨by dsimp only; omega, ⟨fun _ => rfl, fun _ => rfl⟩, fun w hw => absurd hw List.not_mem_nil⟩

theorem raw (h : s.Sound) {k : Nat} (hw : s.writes[k]? = some w) {action : RawAction}
    (hstep : s.rawStep w action = some (t, w')) : Sound { t with writes := s.writes.set k w' } := by
  have hsize := h.writes w (List.mem_of_getElem? hw)
  obtain ⟨hmove, hframe⟩ := RawMove.of_rawStep hstep
  have hwrites : ∀ d ∈ s.writes.set k w', 0 < d.frame.width ∧ 0 < d.frame.height := forall_move h.writes (hframe ▸ hsize)
  generalize w'.stage = stage at hmove
  cases hmove with
  | sized => exact ⟨hsize, h.seq, hwrites⟩
  | published => exact ⟨h.size, ⟨nofun, nofun⟩, hwrites⟩
  | quiet => exact ⟨h.size, h.seq, hwrites⟩

theorem step (h : s.Sound) {a : JPEGAction} (hstep : s.step a = some t) : t.Sound := by
  cases a with
  | writeRawVideo frame =>
    obtain rfl := Option.some.inj hstep
    split
    · exact h
    · rename_i hsize
      refine ⟨h.size, h.seq, fun w hw => ?_⟩
      rcases List.mem_append.mp hw with hw | hw
      · exact h.writes w hw
      · obtain rfl := List.mem_singleton.mp hw
        dsimp only
        omega
  | raw k action =>
    simp only [JPEGSink.step] at hstep
    split at hstep
    · rename_i w hw
      obtain ⟨⟨u, w'⟩, hraw, rfl⟩ := Option.map_eq_some_iff.mp hstep
      exact h.raw hw hraw
    · cases hstep
  | writeJPEGFrame payload width height hasRaw =>
    obtain rfl := Option.some.inj hstep
    rcases s.writeJPEGFrame_cases payload width height hasRaw with hsame | ⟨hsize, rawFrame, frameSeq, hpublish⟩
    · rw [hsame]
      exact h
    · rw [hpublish]
      exact ⟨hsize, ⟨nofun, nofun⟩, h.writes⟩
  | teardown =>
    simp only [JPEGSink.step] at hstep
    split at hstep
    · cases hstep
    · obtain rfl := Option.some.inj hstep
      exact ⟨h.size, ⟨fun _ => rfl, fun _ => rfl⟩, h.writes⟩
  | select width height supportsDesktopSize =>
    obtain rfl := Option.some.inj hstep
    exact ⟨h.size, h.seq, h.writes⟩
  | viewer i action =>
    simp only [JPEGSink.step] at hstep
    split at hstep
    · obtain ⟨_, -, rfl⟩ := Option.map_eq_some_iff.mp hstep
      exact ⟨h.size, h.seq, h.writes⟩
    · cases hstep

end Sound

/-! ### While size and payload go together -/

/-- A raw frame sets a size only if no payload of another size is published, and its own payload is published only
    while the size is still its own. -/
def Together (s : JPEGSink) : JPEGAction → Prop
  | .raw k .setSize => ∀ w ∈ s.writes[k]?, ∀ picture ∈ s.jpegFrame, picture.Fits w.frame.width w.frame.height
  | .raw k (.encode (some payload)) => ∀ w ∈ s.writes[k]?, payload ≠ [] →
      JPEGPicture.Fits { payload, width := w.frame.width, height := w.frame.height } s.videoWidth s.videoHeight
  | _ => True

instance (s : JPEGSink) : DecidablePred s.Together := fun a => by
  unfold Together
  split <;> infer_instance

end JPEGSink

/-- A rectangle with the snapshot's size describes its picture. -/
structure JPEGSnapshot.Good (snapshot : JPEGSnapshot) : Prop where
  size : 0 < snapshot.width ∧ 0 < snapshot.height
  picture : ∀ picture ∈ snapshot.picture, picture.Fits snapshot.width snapshot.height

theorem JPEGViewer.reply_describes {snapshot : JPEGSnapshot} (h : snapshot.Good) {r : TightRectangle}
    (hreply : v.reply snapshot = .tight r) : r.Describes := by
  unfold JPEGViewer.reply at hreply
  split at hreply
  · split at hreply <;> cases hreply
  · split at hreply
    · split at hreply
      · cases hreply
      · rename_i hlarge
        split at hreply
        · rename_i picture hpicture
          cases hreply
          simp only [JPEGSnapshot.large, Bool.or_eq_true, decide_eq_true_eq, not_or, Int.not_lt] at hlarge
          rcases h.picture picture hpicture with ⟨hwidth, hheight⟩ | hwide | hhigh
          · exact ⟨(uint16_eq h.size.1 hlarge.1).trans hwidth.symm, (uint16_eq h.size.2 hlarge.2).trans hheight.symm⟩
          · omega
          · omega
        · cases hreply
    · cases hreply

namespace JPEGSink

/-- The payload fits the size, in the sink and in each snapshot, and what was written describes its payload. -/
structure Described (s : JPEGSink) : Prop where
  picture : ∀ picture ∈ s.jpegFrame, picture.Fits s.videoWidth s.videoHeight
  snapshots : ∀ v ∈ s.viewers, ∀ snapshot, v.call = .holding snapshot → snapshot.Good
  written : ∀ r ∈ s.written, r.Describes

namespace Described

theorem start (fps width height : Int) : (start fps width height).Described := by
  unfold JPEGSink.start
  split <;> exact ⟨nofun, fun v hv => absurd hv List.not_mem_nil, fun r hr => absurd hr List.not_mem_nil⟩

/-- A client's step writes what describes its payload, and takes a snapshot that is good. -/
theorem viewerStep (h : s.Described) (sound : s.Sound) (hv : v ∈ s.viewers) {action : ViewerAction}
    {rectangles : List TightRectangle} (hstep : s.viewerStep v action = some (rectangles, v')) :
    (∀ r ∈ rectangles, r.Describes) ∧ ∀ snapshot, v'.call = .holding snapshot → snapshot.Good := by
  have hgood : s.jpegSnapshot.Good := ⟨sound.size, h.picture⟩
  cases action with
  | snapshot =>
    simp only [JPEGSink.viewerStep, Option.ite_none_right_eq_some, Option.some.injEq, Prod.mk.injEq] at hstep
    obtain ⟨-, rfl, rfl⟩ := hstep
    refine ⟨fun r hr => absurd hr List.not_mem_nil, fun snapshot hcall => ?_⟩
    dsimp only at hcall
    split at hcall
    · exact JPEGCall.holding.inj hcall ▸ hgood
    · cases hcall
  | snapshotAgain =>
    simp only [JPEGSink.viewerStep, Option.ite_none_right_eq_some, Option.some.injEq, Prod.mk.injEq] at hstep
    obtain ⟨-, rfl, rfl⟩ := hstep
    exact ⟨fun r hr => absurd hr List.not_mem_nil, fun snapshot hcall => JPEGCall.holding.inj hcall ▸ hgood⟩
  | write ok =>
    simp only [JPEGSink.viewerStep] at hstep
    split at hstep
    · rename_i snapshot hcall
      have hsnapshot := h.snapshots v hv snapshot hcall
      rw [Option.some.injEq] at hstep
      unfold writeReply at hstep
      split at hstep
      · obtain ⟨rfl, rfl⟩ := Prod.mk.inj hstep
        refine ⟨fun r hr => absurd hr List.not_mem_nil, fun _ hcall => ?_⟩
        split at hcall <;> cases hcall
      · obtain ⟨rfl, rfl⟩ := Prod.mk.inj hstep
        exact ⟨fun r hr => absurd hr List.not_mem_nil, nofun⟩
      · obtain ⟨rfl, rfl⟩ := Prod.mk.inj hstep
        exact ⟨fun r hr => absurd hr List.not_mem_nil, nofun⟩
      · rename_i r hreply
        obtain ⟨rfl, rfl⟩ := Prod.mk.inj hstep
        refine ⟨fun r' hr' => List.mem_singleton.mp hr' ▸ JPEGViewer.reply_describes hsnapshot hreply, fun _ hcall => ?_⟩
        split at hcall <;> cases hcall
    · cases hstep

theorem raw (h : s.Described) {k : Nat} (hw : s.writes[k]? = some w) {action : RawAction}
    (together : s.Together (.raw k action)) (hstep : s.rawStep w action = some (t, w')) :
    Described { t with writes := s.writes.set k w' } := by
  obtain ⟨hmove, -⟩ := RawMove.of_rawStep hstep
  generalize w'.stage = stage at hmove
  cases hmove with
  | sized => exact ⟨together w hw, h.snapshots, h.written⟩
  | published hne =>
    refine ⟨fun picture hpicture => ?_, h.snapshots, h.written⟩
    obtain rfl := Option.some.inj hpicture
    exact together w hw hne
  | quiet => exact ⟨h.picture, h.snapshots, h.written⟩

theorem step (h : s.Described) (sound : s.Sound) {a : JPEGAction} (together : s.Together a)
    (hstep : s.step a = some t) : t.Described := by
  cases a with
  | writeRawVideo frame =>
    obtain rfl := Option.some.inj hstep
    split
    · exact h
    · exact ⟨h.picture, h.snapshots, h.written⟩
  | raw k action =>
    simp only [JPEGSink.step] at hstep
    split at hstep
    · rename_i w hw
      obtain ⟨⟨u, w'⟩, hraw, rfl⟩ := Option.map_eq_some_iff.mp hstep
      exact h.raw hw together hraw
    · cases hstep
  | writeJPEGFrame payload width height hasRaw =>
    obtain rfl := Option.some.inj hstep
    rcases s.writeJPEGFrame_cases payload width height hasRaw with hsame | ⟨-, rawFrame, frameSeq, hpublish⟩
    · rw [hsame]
      exact h
    · rw [hpublish]
      refine ⟨fun picture hpicture => ?_, h.snapshots, h.written⟩
      obtain rfl := Option.some.inj hpicture
      exact .inl ⟨rfl, rfl⟩
  | teardown =>
    simp only [JPEGSink.step] at hstep
    split at hstep
    · cases hstep
    · obtain rfl := Option.some.inj hstep
      exact ⟨nofun, fun v hv => absurd hv List.not_mem_nil, h.written⟩
  | select width height supportsDesktopSize =>
    obtain rfl := Option.some.inj hstep
    refine ⟨h.picture, fun v hv snapshot hcall => ?_, h.written⟩
    rcases List.mem_append.mp hv with hv | hv
    · exact h.snapshots v hv snapshot hcall
    · obtain rfl := List.mem_singleton.mp hv
      cases hcall
  | viewer i action =>
    simp only [JPEGSink.step] at hstep
    split at hstep
    · rename_i v hv
      obtain ⟨⟨rectangles, v'⟩, hviewer, rfl⟩ := Option.map_eq_some_iff.mp hstep
      obtain ⟨hrectangles, hsnapshot⟩ := h.viewerStep sound (List.mem_of_getElem? hv) hviewer
      refine ⟨h.picture, forall_move h.snapshots hsnapshot, fun r hr => ?_⟩
      rcases List.mem_append.mp hr with hr | hr
      · exact h.written r hr
      · exact hrectangles r hr
    · cases hstep

end Described

/-! ### When they do not -/

/-- A picture is published under a size that is not its own. -/
def Torn (s : JPEGSink) : Prop := ∃ picture ∈ s.jpegFrame, ¬ picture.Fits s.videoWidth s.videoHeight

theorem torn_of_not_together {a : JPEGAction} (hstep : s.step a = some t) (h : ¬ s.Together a) : t.Torn := by
  cases a with
  | raw k action =>
    cases action with
    | setSize =>
      simp only [Together, not_forall] at h
      obtain ⟨w, hw, picture, hpicture, hapart⟩ := h
      have hw : s.writes[k]? = some w := hw
      simp only [JPEGSink.step, hw, Option.map_eq_some_iff] at hstep
      obtain ⟨⟨u, w'⟩, hraw, rfl⟩ := hstep
      obtain ⟨hmove, -⟩ := RawMove.of_rawStep hraw
      generalize w'.stage = stage at hmove
      cases hmove with
      | sized => exact ⟨picture, hpicture, hapart⟩
      | quiet size => exact absurd rfl size
    | encode payload =>
      cases payload with
      | none => exact absurd trivial h
      | some payload =>
        simp only [Together, not_forall] at h
        obtain ⟨w, hw, hne, hapart⟩ := h
        have hw : s.writes[k]? = some w := hw
        simp only [JPEGSink.step, hw, Option.map_eq_some_iff] at hstep
        obtain ⟨⟨u, w'⟩, hraw, rfl⟩ := hstep
        obtain ⟨hmove, -⟩ := RawMove.of_rawStep hraw
        generalize w'.stage = stage at hmove
        cases hmove with
        | published => exact ⟨_, rfl, hapart⟩
        | quiet _ empty => exact absurd (empty payload rfl) hne
    | _ => exact absurd trivial h
  | _ => exact absurd trivial h

theorem step_viewer {i : Nat} (hv : s.viewers[i]? = some v) {action : ViewerAction} {rectangles : List TightRectangle}
    (h : s.viewerStep v action = some (rectangles, v')) : s.step (.viewer i action) =
      some { s with viewers := s.viewers.set i v', written := s.written ++ rectangles } := by
  simp [step, hv, h]

/-- A client that gets JPEG then is sent a rectangle that does not describe its payload. -/
theorem Torn.write (h : s.Torn) (sound : s.Sound) :
    ∃ more t, run step s more = some t ∧ ∃ r ∈ t.written, ¬ r.Describes := by
  obtain ⟨picture, hpicture, hapart⟩ := h
  have hpicture : s.jpegFrame = some picture := hpicture
  simp only [JPEGPicture.Fits, not_or, Int.not_lt] at hapart
  obtain ⟨hsize, hwidth, hheight⟩ := hapart
  have hseq : s.jpegSeq ≠ 0 := mt sound.seq.mpr (by simp [hpicture])
  let v : JPEGViewer := { width := s.videoWidth, height := s.videoHeight, supportsDesktopSize := false }
  let held : JPEGViewer := { v with call := .holding s.jpegSnapshot }
  let r : TightRectangle := { width := uint16 s.videoWidth, height := uint16 s.videoHeight, picture }
  have hfresh : s.jpegSnapshot.fresh 0 = true := by simp [JPEGSnapshot.fresh, jpegSnapshot, hseq, Nat.pos_of_ne_zero]
  have hlarge : s.jpegSnapshot.large = false :=
    Bool.or_eq_false_iff.mpr ⟨decide_eq_false (Int.not_lt.mpr hwidth), decide_eq_false (Int.not_lt.mpr hheight)⟩
  have hreply : held.reply s.jpegSnapshot = .tight r := by
    simp only [JPEGViewer.reply, held, v, hfresh, hlarge]
    simp [jpegSnapshot, hpicture, r]
  -- The client takes its snapshot at once, and writes it.
  let s₁ : JPEGSink := { s with viewers := s.viewers ++ [v] }
  have hv : s₁.viewers[s.viewers.length]? = some v := List.getElem?_concat_length
  have hlook : s₁.viewerStep v .snapshot = some ([], held) := by
    simp [viewerStep, v, held, show s₁.jpegSnapshot = s.jpegSnapshot from rfl, hfresh]
  let s₂ : JPEGSink := { s₁ with viewers := s₁.viewers.set s.viewers.length held, written := s₁.written ++ [] }
  have hheld : s₂.viewers[s.viewers.length]? = some held := List.getElem?_set_self (by simp [s₁])
  have hwrite : s₂.viewerStep held (.write true) = some ([r], { held with cursor := s.jpegSeq, call := .idle }) := by
    change some (writeReply held s.jpegSnapshot true) = _
    rw [writeReply, hreply]
    rfl
  refine ⟨[.select s.videoWidth s.videoHeight false, .viewer s.viewers.length .snapshot,
    .viewer s.viewers.length (.write true)], { s₂ with
      viewers := s₂.viewers.set s.viewers.length { held with cursor := s.jpegSeq, call := .idle },
      written := s₂.written ++ [r] }, ?_, r, List.mem_append_right _ (List.mem_singleton_self r), ?_⟩
  · exact run_cons_eq_some.mpr ⟨s₁, rfl, run_cons_eq_some.mpr ⟨s₂, step_viewer hv hlook,
      run_cons_eq_some.mpr ⟨_, step_viewer hheld hwrite, rfl⟩⟩⟩
  · rintro ⟨hw, hh⟩
    exact hsize ⟨hw.symm.trans (uint16_eq sound.size.1 hwidth), hh.symm.trans (uint16_eq sound.size.2 hheight)⟩

end JPEGSink

/-- If a raw frame never changes the size under a published payload, nor publishes its own payload under another
    size, then every Tight rectangle has the size of the frame that its payload was made from. If one does, the
    sink can go on to write a rectangle that has not. -/
theorem jpeg_rectangles (fps width height : Int) :
    (∀ actions t, Allowed JPEGSink.step JPEGSink.Together (.start fps width height) actions →
      run JPEGSink.step (.start fps width height) actions = some t → ∀ r ∈ t.written, r.Describes) ∧
    (∀ actions s a t, run JPEGSink.step (.start fps width height) actions = some s → ¬ s.Together a →
      s.step a = some t → ∃ more u, run JPEGSink.step t more = some u ∧ ∃ r ∈ u.written, ¬ r.Describes) := by
  refine ⟨fun actions t allowed h => ?_, fun actions s a t h hapart hstep => ?_⟩
  · have hboth : t.Sound ∧ t.Described :=
      run_invariant_of_allowed (P := fun u => u.Sound ∧ u.Described) ⟨.start .., .start ..⟩
        (fun _ _ _ hu htogether ha => ⟨hu.1.step ha, hu.2.step hu.1 htogether ha⟩) allowed h
    exact hboth.2.written
  · have hsound : s.Sound := run_invariant (.start ..) (fun _ _ _ hu ha => hu.step ha) h
    exact (JPEGSink.torn_of_not_together hstep hapart).write (hsound.step hstep)

end

/-- A frame of 2 x 2 pixels is encoded, and its payload published. -/
def jpegActions : List JPEGAction :=
  [.writeRawVideo { width := 2, height := 2, pixelFormat := .nv12, data := List.replicate 6 0 }, .raw 0 .setSize,
    .raw 0 (.readConsumers false true 0), .raw 0 .throttle, .raw 0 .lock, .raw 0 (.readEncoder true),
    .raw 0 (.encode (some [0xff, 0xd8]))]

/-- The viewer gets it, and then a frame of 4 x 2 pixels that comes as JPEG. -/
theorem jpeg_rectangles_two : ∃ t, run JPEGSink.step (.start 60 2 2) (jpegActions ++
      [.select 2 2 false, .viewer 0 .snapshot, .viewer 0 (.write true), .writeJPEGFrame [0xff, 0xd9] 4 2 false,
        .viewer 0 .snapshot, .viewer 0 (.write true)]) = some t ∧
    t.written.map (·.width) = [2, 4] ∧ ∀ r ∈ t.written, r.Describes := by
  obtain ⟨t, ht, hwritten⟩ := Option.map_eq_some_iff.mp
    (show (run JPEGSink.step (.start 60 2 2) (jpegActions ++
      [.select 2 2 false, .viewer 0 .snapshot, .viewer 0 (.write true), .writeJPEGFrame [0xff, 0xd9] 4 2 false,
        .viewer 0 .snapshot, .viewer 0 (.write true)])).map (fun t => t.written.map (·.width)) = some [2, 4]
      by decide +kernel)
  exact ⟨t, ht, hwritten, (jpeg_rectangles 60 2 2).1 _ t (by decide +kernel) ht⟩

/-- A frame of 4 x 2 pixels has set the size when the viewer, which does not support DesktopSize, gets the payload
    of the first one. -/
theorem jpeg_rectangle_torn : ∃ t, run JPEGSink.step (.start 60 2 2) (jpegActions ++
      [.writeRawVideo { width := 4, height := 2, pixelFormat := .nv12, data := List.replicate 12 0 }, .raw 1 .setSize,
        .select 2 2 false, .viewer 0 .snapshot, .viewer 0 (.write true)]) = some t ∧
    ∃ r ∈ t.written, ¬ r.Describes := by
  obtain ⟨t, ht, htorn⟩ := Option.map_eq_some_iff.mp
    (show (run JPEGSink.step (.start 60 2 2) (jpegActions ++
      [.writeRawVideo { width := 4, height := 2, pixelFormat := .nv12, data := List.replicate 12 0 }, .raw 1 .setSize,
        .select 2 2 false, .viewer 0 .snapshot, .viewer 0 (.write true)])).map
          (fun t => decide (∃ r ∈ t.written, ¬ r.Describes)) = some true by decide +kernel)
  exact ⟨t, ht, of_decide_eq_true htorn⟩

end OnekvmVnc
