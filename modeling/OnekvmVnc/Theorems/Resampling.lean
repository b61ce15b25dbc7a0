import Mathlib.Data.List.GetD
import OnekvmVnc.Lib.Sampling
import OnekvmVnc.Theorems.Server.AudioBacklog

/-! What `ConvertAudio` makes of a stream that comes in packets. In units of one `frequency`-th of a source frame,
    the output frames lie at the multiples of the source rate, and the position carried between two packets is
    their phase. -/

namespace OnekvmVnc

open Sampling

/-- The left and the right sample of a source frame. -/
abbrev StereoFrame := Int16 × Int16

/-- A packet as it is queued. -/
def samples (packet : List StereoFrame) : List Int16 := packet.flatMap fun frame => [frame.1, frame.2]

/-- `ConvertAudio` of one packet after the other. -/
def convertPackets (format : AudioFormat) : Nat → List (List StereoFrame) → List (List UInt8) × Nat
  | position, [] => ([], position)
  | position, packet :: rest =>
    let (pcm, next) := convertAudio (samples packet) format position
    let (packets, last) := convertPackets format next rest
    (pcm :: packets, last)

/-- The source frame is the last one of its packet. -/
def endsPacket (packets : List (List StereoFrame)) (i : Nat) : Bool :=
  packets.inits.any fun before => before.flatten.length = i + 1

def sourceSample (packets : List (List StereoFrame)) (channel : StereoFrame → Int16) (i : Nat) : Int :=
  (channel (packets.flatten.getD i (0, 0))).toInt

namespace AudioFormat
variable (format : AudioFormat)

/-- How many frames come out for the first `sourceFrames` frames of the source. -/
def outputFrames (sourceFrames : Nat) : Nat := taken opusSampleRate (sourceFrames * format.frequency)

/-- The source frame at or before an output frame. -/
def sourceFrame (k : Nat) : Nat := k * opusSampleRate / format.frequency

/-- The source frame that an output frame is interpolated with. -/
def nextFrame (packets : List (List StereoFrame)) (k : Nat) : Nat :=
  if endsPacket packets (format.sourceFrame k) then format.sourceFrame k else format.sourceFrame k + 1

/-- The truncated interpolation, before any cast. -/
def interpolated (packets : List (List StereoFrame)) (channel : StereoFrame → Int16) (k : Nat) : Int :=
  mean format.frequency (k * opusSampleRate % format.frequency) (sourceSample packets channel (format.sourceFrame k))
    (sourceSample packets channel (format.nextFrame packets k))

/-- The truncated mean of the two channels. -/
def mono (packets : List (List StereoFrame)) (k : Nat) : Int :=
  (format.interpolated packets Prod.fst k + format.interpolated packets Prod.snd k).tdiv 2

/-- The bytes of an output frame. -/
def outputFrame (packets : List (List StereoFrame)) (k : Nat) : List UInt8 :=
  let sample (value : Int) := appendAudioSample [] (Int16.ofInt value) format.sampleFormat
  if format.channels = 1 then sample (format.mono packets k)
  else sample (format.interpolated packets Prod.fst k) ++ sample (format.interpolated packets Prod.snd k)

/-- The size of an output frame. -/
def frameBytes : Nat := format.channels.toNat * 2 ^ (format.sampleFormat.toNat / 2)

end AudioFormat

variable {format : AudioFormat}

/-! ### Samples -/

theorem length_samples (packet : List StereoFrame) : (samples packet).length = 2 * packet.length := by
  induction packet with
  | nil => rfl
  | cons frame packet ih =>
    simp only [samples, List.flatMap_cons, List.length_append, List.length_cons, List.length_nil] at ih ⊢
    omega

theorem samples_getD (packet : List StereoFrame) (i : Nat) :
    (samples packet).getD (i * 2 + 0) 0 = (packet.getD i (0, 0)).1 ∧
      (samples packet).getD (i * 2 + 1) 0 = (packet.getD i (0, 0)).2 := by
  induction packet generalizing i with
  | nil => exact ⟨rfl, rfl⟩
  | cons frame packet ih =>
    cases i with
    | zero => exact ⟨rfl, rfl⟩
    | succ i =>
      rw [show (i + 1) * 2 + 0 = i * 2 + 0 + 2 by omega, show (i + 1) * 2 + 1 = i * 2 + 1 + 2 by omega]
      exact ih i

theorem appendAudioSample_eq (output : List UInt8) (sample : Int16) (sampleFormat : UInt8) :
    appendAudioSample output sample sampleFormat = output ++ appendAudioSample [] sample sampleFormat := by
  unfold appendAudioSample
  split <;> simp [appendLE16, appendLE32]

theorem length_appendAudioSample (sample : Int16) {sampleFormat : UInt8} (h : sampleFormat ≤ 5) :
    (appendAudioSample [] sample sampleFormat).length = 2 ^ (sampleFormat.toNat / 2) := by
  unfold appendAudioSample
  split
  · rfl
  · rfl
  · rfl
  · rfl
  · rfl
  · rfl
  · rw [UInt8.le_iff_toNat_le] at h
    rename_i h0 h1 h2 h3 h4 h5
    simp only [← UInt8.toNat_inj] at h0 h1 h2 h3 h4 h5
    simp at h h0 h1 h2 h3 h4 h5
    omega

/-! ### One frame -/

/-- A value between two samples is not changed by the cast to one. -/
theorem toInt_ofInt_of_mem {first second : Int16} {value : Int} (h : value ∈ Set.uIcc first.toInt second.toInt) :
    (Int16.ofInt value).toInt = value := by
  obtain ⟨hlow, hhigh⟩ | ⟨hlow, hhigh⟩ := Set.mem_uIcc.mp h
  · exact Int16.toInt_ofInt_of_le (first.le_toInt.trans hlow) (hhigh.trans_lt second.toInt_lt)
  · exact Int16.toInt_ofInt_of_le (second.le_toInt.trans hlow) (hhigh.trans_lt first.toInt_lt)

namespace AudioFormat

theorem interpolated_mem (hpos : 0 < format.frequency) (packets : List (List StereoFrame))
    (channel : StereoFrame → Int16) (k : Nat) :
    format.interpolated packets channel k ∈ Set.uIcc (sourceSample packets channel (format.sourceFrame k))
      (sourceSample packets channel (format.nextFrame packets k)) :=
  mean_mem_uIcc hpos (Nat.mod_lt _ hpos).le _ _

theorem interpolated_cast (hpos : 0 < format.frequency) (packets : List (List StereoFrame))
    (channel : StereoFrame → Int16) (k : Nat) :
    (Int16.ofInt (format.interpolated packets channel k)).toInt = format.interpolated packets channel k :=
  toInt_ofInt_of_mem (interpolated_mem hpos packets channel k)

/-- The truncated mean of two values lies between them. -/
theorem mono_mem (packets : List (List StereoFrame)) (k : Nat) :
    format.mono packets k ∈
      Set.uIcc (format.interpolated packets Prod.fst k) (format.interpolated packets Prod.snd k) := by
  have hmean := mean_mem_uIcc (show 0 < 2 by decide) (show 1 ≤ 2 by decide)
    (format.interpolated packets Prod.fst k) (format.interpolated packets Prod.snd k)
  rwa [mean, Int.natCast_one, Int.mul_one, Int.mul_one] at hmean

theorem mono_cast (hpos : 0 < format.frequency) (packets : List (List StereoFrame)) (k : Nat) :
    (Int16.ofInt (format.mono packets k)).toInt = format.mono packets k := by
  have hmem := format.mono_mem packets k
  rw [← interpolated_cast hpos packets Prod.fst k, ← interpolated_cast hpos packets Prod.snd k] at hmem
  exact toInt_ofInt_of_mem hmem

end AudioFormat

/-- The last frame of a packet is known within the packet. -/
theorem endsPacket_iff (before after : List (List StereoFrame)) {packet : List StereoFrame} {j : Nat}
    (hj : j < packet.length) :
    endsPacket (before ++ packet :: after) (before.flatten.length + j) = true ↔ j + 1 = packet.length := by
  simp only [endsPacket, List.any_eq_true, List.mem_inits, decide_eq_true_eq]
  constructor
  · rintro ⟨first, hfirst, hlength⟩
    have hwhole : before ++ [packet] <+: before ++ packet :: after :=
      (List.prefix_append_right_inj before).mpr ⟨after, rfl⟩
    obtain hle | hge := List.prefix_or_prefix_of_prefix hfirst hwhole
    · obtain rfl | hshort := List.prefix_concat_iff.mp hle
      · rw [List.flatten_concat, List.length_append] at hlength
        omega
      · have hle := hshort.flatten.length_le
        omega
    · have hle := hge.flatten.length_le
      rw [List.flatten_concat, List.length_append] at hle
      omega
  · intro hlast
    refine ⟨before ++ [packet], (List.prefix_append_right_inj before).mpr ⟨after, rfl⟩, ?_⟩
    rw [List.flatten_concat, List.length_append]
    omega

section Packet
variable {before after : List (List StereoFrame)} {packet : List StereoFrame}

theorem sourceSample_eq (channel : StereoFrame → Int16) {j : Nat} (hj : j < packet.length) :
    sourceSample (before ++ packet :: after) channel (before.flatten.length + j) =
      (channel (packet.getD j (0, 0))).toInt := by
  rw [sourceSample, List.flatten_append, List.flatten_cons, List.getD_append_right _ _ _ _ (Nat.le_add_right _ _),
    Nat.add_sub_cancel_left, List.getD_append _ _ _ _ hj]

/-- A sample that is interpolated within its packet, at the position past the packets before it. -/
theorem interpolate_eq (after : List (List StereoFrame)) (hpos : 0 < format.frequency) {channel : StereoFrame → Int16} {c : Nat}
    (hchannel : ∀ i, (samples packet).getD (i * 2 + c) 0 = channel (packet.getD i (0, 0))) {k position : Nat}
    (hposition : before.flatten.length * format.frequency + position = k * opusSampleRate)
    (hlt : position < packet.length * format.frequency) :
    interpolate (samples packet) format.frequency (position / format.frequency)
      (min (position / format.frequency + 1) (packet.length - 1)) (position % format.frequency) c =
      Int16.ofInt (format.interpolated (before ++ packet :: after) channel k) := by
  have hsource : format.sourceFrame k = before.flatten.length + position / format.frequency := by
    rw [AudioFormat.sourceFrame, ← hposition, Nat.add_comm, Nat.add_mul_div_right _ _ hpos, Nat.add_comm]
  have hfraction : k * opusSampleRate % format.frequency = position % format.frequency := by
    rw [← hposition, Nat.add_comm, Nat.add_mul_mod_self_right]
  have hj : position / format.frequency < packet.length := (Nat.div_lt_iff_lt_mul hpos).mpr hlt
  generalize position / format.frequency = j at hsource hj ⊢
  have hnext : format.nextFrame (before ++ packet :: after) k =
      before.flatten.length + min (j + 1) (packet.length - 1) := by
    have hends := endsPacket_iff before after hj
    rw [AudioFormat.nextFrame, hsource]
    split
    · rename_i hend
      have := hends.mp hend
      omega
    · rename_i hend
      have := mt hends.mpr hend
      omega
  rw [AudioFormat.interpolated, hsource, hnext, hfraction, sourceSample_eq channel hj,
    sourceSample_eq channel (by omega), interpolate, hchannel, hchannel, mean]

/-- What the loop appends for one frame. -/
theorem append_outputFrame (hpos : 0 < format.frequency) (packets : List (List StereoFrame)) (output : List UInt8)
    (k : Nat) {left right : Int16} (hleft : left = Int16.ofInt (format.interpolated packets Prod.fst k))
    (hright : right = Int16.ofInt (format.interpolated packets Prod.snd k)) :
    (if format.channels = 1 then
        appendAudioSample output (Int16.ofInt ((left.toInt + right.toInt).tdiv 2)) format.sampleFormat
      else appendAudioSample (appendAudioSample output left format.sampleFormat) right format.sampleFormat) =
      output ++ format.outputFrame packets k := by
  rw [AudioFormat.outputFrame, hleft, hright, AudioFormat.interpolated_cast hpos, AudioFormat.interpolated_cast hpos]
  split
  · exact appendAudioSample_eq ..
  · rw [appendAudioSample_eq, appendAudioSample_eq output, List.append_assoc]

/-- The loop ends with the packet. -/
theorem lt_limit_iff (packet : List StereoFrame) {k position : Nat}
    (hposition : before.flatten.length * format.frequency + position = k * opusSampleRate) :
    position < packet.length * format.frequency ↔
      k < format.outputFrames (before.flatten.length + packet.length) := by
  rw [AudioFormat.outputFrames, lt_taken_iff (by decide), Nat.add_mul, ← hposition, Nat.add_lt_add_iff_left]

/-- The frames of a packet, from any of them on. -/
theorem resample_eq (after : List (List StereoFrame)) (hpos : 0 < format.frequency) {k position : Nat} (output : List UInt8)
    (hposition : before.flatten.length * format.frequency + position = k * opusSampleRate)
    (hle : k ≤ format.outputFrames (before.flatten.length + packet.length)) :
    resample (samples packet) format packet.length (packet.length * format.frequency) position output =
      (output ++ (List.range' k (format.outputFrames (before.flatten.length + packet.length) - k)).flatMap
          (format.outputFrame (before ++ packet :: after)),
        format.outputFrames (before.flatten.length + packet.length) * opusSampleRate -
          before.flatten.length * format.frequency) := by
  have hin := lt_limit_iff packet hposition
  generalize hn : format.outputFrames (before.flatten.length + packet.length) - k = n
  induction n generalizing k position output with
  | zero =>
    have hk : k = format.outputFrames (before.flatten.length + packet.length) := by omega
    rw [resample, if_neg (by omega), List.range'_zero, List.flatMap_nil, List.append_nil, ← hk, ← hposition,
      Nat.add_sub_cancel_left]
  | succ n ih =>
    have hlt : position < packet.length * format.frequency := hin.mpr (by omega)
    have hleft := interpolate_eq after hpos (fun i => (samples_getD packet i).1) hposition hlt
    have hright := interpolate_eq after hpos (fun i => (samples_getD packet i).2) hposition hlt
    have hnext : before.flatten.length * format.frequency + (position + opusSampleRate) = (k + 1) * opusSampleRate := by
      rw [← Nat.add_assoc, hposition, Nat.succ_mul]
    rw [resample, if_pos hlt]
    dsimp only
    rw [append_outputFrame hpos _ _ _ hleft hright, ih _ hnext (by omega) (lt_limit_iff packet hnext) (by omega),
      List.range'_succ, List.flatMap_cons, List.append_assoc]

/-- `ConvertAudio` skips the packet. -/
def Skipped (source : List Int16) (format : AudioFormat) : Prop :=
  source.length / 2 = 0 ∨ format.frequency = 0 ∨ format.frequency > opusSampleRate ∨
    (format.channels ≠ 1 ∧ format.channels ≠ 2) ∨ format.sampleFormat > 5

theorem convertAudio_skipped {source : List Int16} (h : Skipped source format) (position : Nat) :
    convertAudio source format position = ([], position) := if_pos h

/-- A packet that is not skipped is resampled to its end. -/
theorem convertAudio_resample {source : List Int16} (hskip : ¬Skipped source format) {position next : Nat}
    {output : List UInt8}
    (h : resample source format (source.length / 2) (source.length / 2 * format.frequency) position [] = (output, next)) :
    convertAudio source format position = (output, next - source.length / 2 * format.frequency) := by
  unfold Skipped at hskip
  rw [convertAudio]
  dsimp only
  rw [if_neg hskip, h]

/-- Only an empty packet is skipped. -/
theorem skipped_iff (hvalid : format.Valid) : Skipped (samples packet) format ↔ packet.length = 0 := by
  have hframes : (samples packet).length / 2 = packet.length := by
    rw [length_samples, Nat.mul_div_cancel_left _ (by decide)]
  unfold Skipped
  rw [hframes]
  constructor
  · rintro (h | h | h | h | h)
    · exact h
    · exact absurd h (Nat.ne_of_gt hvalid.frequency.1)
    · exact absurd hvalid.frequency.2 (not_le.mpr h)
    · exact absurd hvalid.channels (not_or.mpr h)
    · exact absurd hvalid.sampleFormat (UInt8.not_le.mpr h)
  · exact .inl

/-- A packet after others: its bytes, and the position carried to the next one. -/
theorem convertAudio_eq (after : List (List StereoFrame)) (hvalid : format.Valid) :
    convertAudio (samples packet) format (phase opusSampleRate (before.flatten.length * format.frequency)) =
      ((List.range' (format.outputFrames before.flatten.length)
          (format.outputFrames (before.flatten.length + packet.length) -
            format.outputFrames before.flatten.length)).flatMap (format.outputFrame (before ++ packet :: after)),
        phase opusSampleRate ((before.flatten.length + packet.length) * format.frequency)) := by
  by_cases hempty : packet.length = 0
  · rw [convertAudio_skipped ((skipped_iff hvalid).mpr hempty), hempty, Nat.add_zero, Nat.sub_self, List.range'_zero,
      List.flatMap_nil]
  · have hframes : (samples packet).length / 2 = packet.length := by
      rw [length_samples, Nat.mul_div_cancel_left _ (by decide)]
    have hmono : format.outputFrames before.flatten.length ≤
        format.outputFrames (before.flatten.length + packet.length) :=
      taken_mono (by decide) (Nat.mul_le_mul_right _ (Nat.le_add_right _ _))
    have hresample := resample_eq after hvalid.frequency.1 [] (length_add_phase (by decide)) hmono
    rw [List.nil_append, ← hframes] at hresample
    rw [convertAudio_resample (mt (skipped_iff hvalid).mp hempty) hresample, hframes, phase, Nat.sub_sub, ← Nat.add_mul,
      AudioFormat.outputFrames, AudioFormat.outputFrames]

end Packet

/-! ### A stream -/

theorem convertPackets_append (format : AudioFormat) (position : Nat) (first rest : List (List StereoFrame)) :
    convertPackets format position (first ++ rest) =
      ((convertPackets format position first).1 ++
          (convertPackets format (convertPackets format position first).2 rest).1,
        (convertPackets format (convertPackets format position first).2 rest).2) := by
  induction first generalizing position with
  | nil => rfl
  | cons packet first ih => simp only [List.cons_append, convertPackets, ih]

theorem length_convertPackets (format : AudioFormat) (position : Nat) (packets : List (List StereoFrame)) :
    (convertPackets format position packets).1.length = packets.length := by
  induction packets generalizing position with
  | nil => rfl
  | cons packet packets ih => simp only [convertPackets, List.length_cons, ih]

/-- The position after a stream is its phase. -/
theorem convertPackets_position (hvalid : format.Valid) (before rest : List (List StereoFrame)) :
    (convertPackets format (phase opusSampleRate (before.flatten.length * format.frequency)) rest).2 =
      phase opusSampleRate ((before ++ rest).flatten.length * format.frequency) := by
  induction rest generalizing before with
  | nil => rw [List.append_nil, convertPackets]
  | cons packet rest ih =>
    have hnext := ih (before ++ [packet])
    rw [List.flatten_concat, List.length_append, List.append_assoc, List.singleton_append] at hnext
    rw [convertPackets, convertAudio_eq rest hvalid]
    exact hnext

theorem convertPackets_zero (hvalid : format.Valid) (packets : List (List StereoFrame)) :
    (convertPackets format 0 packets).2 = phase opusSampleRate (packets.flatten.length * format.frequency) := by
  have hstart : phase opusSampleRate (0 * format.frequency) = 0 := by
    rw [Nat.zero_mul, phase, taken, zero_ceilDiv, Nat.zero_mul]
  have := convertPackets_position hvalid [] packets
  rwa [List.flatten_nil, List.length_nil, hstart, List.nil_append] at this

theorem length_outputFrame (hvalid : format.Valid) (packets : List (List StereoFrame)) (k : Nat) :
    (format.outputFrame packets k).length = format.frameBytes := by
  have hsample (sample : Int16) := length_appendAudioSample sample hvalid.sampleFormat
  unfold AudioFormat.outputFrame AudioFormat.frameBytes
  obtain hone | htwo := hvalid.channels
  · rw [if_pos hone, hone, hsample]
    exact (Nat.one_mul _).symm
  · rw [if_neg (by rw [htwo]; decide), htwo, List.length_append, hsample, hsample]
    exact (Nat.two_mul _).symm

/-- One packet of a stream, after those before it. -/
theorem convertPackets_packet (hvalid : format.Valid) (before after : List (List StereoFrame))
    (packet : List StereoFrame) :
    (convertPackets format (convertPackets format 0 before).2 (packet :: after)).1 =
      (List.range' (format.outputFrames before.flatten.length)
        (format.outputFrames (before.flatten.length + packet.length) -
          format.outputFrames before.flatten.length)).flatMap (format.outputFrame (before ++ packet :: after)) ::
      (convertPackets format (convertPackets format 0 (before ++ [packet])).2 after).1 := by
  rw [convertPackets_zero hvalid, convertPackets_zero hvalid, convertPackets,
    convertAudio_eq after hvalid, List.flatten_concat, List.length_append]

theorem convertPackets_stream (hvalid : format.Valid) (before after : List (List StereoFrame)) :
    (convertPackets format 0 before).1.flatten =
      (List.range (format.outputFrames before.flatten.length)).flatMap (format.outputFrame (before ++ after)) := by
  induction before using List.reverseRecOn generalizing after with
  | nil =>
    rw [AudioFormat.outputFrames, List.flatten_nil, List.length_nil, Nat.zero_mul, taken, zero_ceilDiv]
    rfl
  | append_singleton before packet ih =>
    have hmono : before.flatten.length * format.frequency ≤ (before ++ [packet]).flatten.length * format.frequency := by
      rw [List.flatten_concat, List.length_append]
      exact Nat.mul_le_mul_right _ (Nat.le_add_right _ _)
    have hsplit := range_taken (show 0 < opusSampleRate by decide) hmono
    rw [convertPackets_append, List.flatten_append, ih (packet :: after), List.append_assoc, List.singleton_append,
      AudioFormat.outputFrames, AudioFormat.outputFrames, hsplit, List.flatMap_append]
    congr 1
    rw [convertPackets, convertPackets_zero hvalid, convertAudio_eq after hvalid,
      List.flatten_concat, List.length_append]
    exact List.flatten_singleton

/-- The frames that the conversion of a stream outputs, in whatever packets the stream comes. -/
structure Resampled (format : AudioFormat) (packets : List (List StereoFrame)) : Prop where
  stream : (convertPackets format 0 packets).1.flatten =
    (List.range (format.outputFrames packets.flatten.length)).flatMap (format.outputFrame packets)
  frame : ∀ k, (format.outputFrame packets k).length = format.frameBytes
  packet : ∀ before packet after, packets = before ++ packet :: after →
    let first := format.outputFrames before.flatten.length
    let frames := format.outputFrames (before.flatten.length + packet.length) - first
    (convertPackets format 0 packets).1[before.length]? =
        some ((List.range' first frames).flatMap (format.outputFrame packets)) ∧
      ((List.range' first frames).flatMap (format.outputFrame packets)).length = frames * format.frameBytes
  position : ∀ before after, packets = before ++ after → (convertPackets format 0 before).2 < opusSampleRate
  between : ∀ k, ∀ channel,
    format.interpolated packets channel k ∈ Set.uIcc (sourceSample packets channel (format.sourceFrame k))
      (sourceSample packets channel (format.nextFrame packets k)) ∧
    (Int16.ofInt (format.interpolated packets channel k)).toInt = format.interpolated packets channel k
  mono : ∀ k, format.mono packets k ∈
      Set.uIcc (format.interpolated packets Prod.fst k) (format.interpolated packets Prod.snd k) ∧
    (Int16.ofInt (format.mono packets k)).toInt = format.mono packets k

theorem convertAudio_exact (format : AudioFormat) (valid : format.Valid) (packets : List (List StereoFrame)) :
    Resampled format packets where
  stream := by
    have := convertPackets_stream valid packets []
    rwa [List.append_nil] at this
  frame := length_outputFrame valid packets
  packet := by
    rintro before packet after rfl
    refine ⟨?_, ?_⟩
    · have hlength := length_convertPackets format 0 before
      rw [convertPackets_append, List.getElem?_append_right (by omega), hlength, Nat.sub_self,
        convertPackets_packet valid, List.getElem?_cons_zero]
    · simp only [List.length_flatMap, length_outputFrame valid, List.map_const', List.length_range', List.sum_replicate,
        smul_eq_mul]
  position := by
    intro before _ _
    rw [convertPackets_zero valid]
    exact phase_lt (by decide)
  between k channel := ⟨AudioFormat.interpolated_mem valid.frequency.1 packets channel k,
    AudioFormat.interpolated_cast valid.frequency.1 packets channel k⟩
  mono k := ⟨format.mono_mem packets k, AudioFormat.mono_cast valid.frequency.1 packets k⟩

theorem convertAudio_exact_default : Resampled {} [[(1, 2), (3, -4)], [], [(5, 6)]] :=
  convertAudio_exact {} ⟨by decide, by decide, by decide⟩ _

end OnekvmVnc
