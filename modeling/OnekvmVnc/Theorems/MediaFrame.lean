import Mathlib.Data.Nat.Bitwise
import OnekvmVnc.MediaFrame
import OnekvmVnc.Theorems.AdminHID.Response
import OnekvmVnc.Theorems.AudioInput

/-! `ReadFrame` on what OneKVM sends: well-formed frames are read one after the other, however they are cut, and
    nothing is taken from the socket beyond them. -/

namespace OnekvmVnc

open Pieces

/-! ### Frames on the wire -/

def Codec.byte : Codec → UInt8
  | .h264 => 1
  | .h265 => 2
  | .mjpeg => 3
  | .opus => 4

/-- A well-formed frame as it is sent. `ReadFrame` does not look at `unused`, `stamps` and `reserved`. -/
structure WireFrame where
  codec : Codec
  unused : UInt8
  flags : UInt8
  stamps : List UInt8
  durationUs : UInt32
  width : UInt16
  height : UInt16
  reserved : List UInt8
  payload : List UInt8
  stamps_length : stamps.length = 16
  reserved_length : reserved.length = 4
  payload_length : payload.length ≤ maxPayloadBytes

namespace WireFrame
variable (w : WireFrame)

def header : List UInt8 :=
  magic ++ [1, w.codec.byte, w.unused, w.flags] ++ w.stamps ++ be32 w.durationUs ++ be16 w.width ++ be16 w.height ++
    be32 (UInt32.ofNat w.payload.length) ++ w.reserved

def bytes : List UInt8 := w.header ++ w.payload

def flagsValid : Bool := w.flags.toNat.testBit 7

/-- What `ReadFrame` is to return. Without valid flags there is audio, and there are no events. -/
def frame : Frame :=
  { codec := w.codec
    durationUs := w.durationUs
    width := w.width
    height := w.height
    audioAvailable := !(w.flagsValid && !w.flags.toNat.testBit 0)
    eventsSupported := w.flagsValid && w.flags.toNat.testBit 2
    payload := w.payload }

end WireFrame

/-- The header of a frame that can be read. -/
structure WellFormed (header : List UInt8) : Prop where
  magic : header.take 4 = magic
  version : header.getD 4 0 = 1
  codec : 1 ≤ header.getD 5 0 ∧ header.getD 5 0 ≤ 4
  length : (readBE32 header 32).toNat ≤ maxPayloadBytes

/-! ### Headers -/

theorem codecOf_byte (codec : Codec) : codecOf codec.byte = some codec := by cases codec <;> rfl

theorem codecOf_eq_none {value : UInt8} (h : ¬ (1 ≤ value ∧ value ≤ 4)) : codecOf value = none := by
  have hne (codec : Codec) : value ≠ codec.byte := by
    rintro rfl
    refine h ?_
    cases codec <;> decide
  exact (if_neg (hne .h264)).trans ((if_neg (hne .h265)).trans ((if_neg (hne .mjpeg)).trans (if_neg (hne .opus))))

theorem and_eq_zero (flags : UInt8) {flag : UInt8} {i : Nat} (hflag : flag.toNat = 2 ^ i) :
    flags &&& flag = 0 ↔ flags.toNat.testBit i = false := by
  rw [← UInt8.toNat_inj, UInt8.toNat_and, hflag, Nat.and_two_pow]
  cases flags.toNat.testBit i with
  | false => simp
  | true => simp

theorem ofNat_be32 (value : UInt32) : UInt32.ofNat (bigEndian (be32 value)) = value :=
  (congrArg UInt32.ofNat (foldl_be32 value)).trans UInt32.ofNat_toNat

theorem ofNat_be16 (value : UInt16) : UInt16.ofNat (bigEndian (be16 value)) = value := by
  have hbytes : bigEndian (be16 value) = value.toNat := by
    have hlt := value.toNat_lt
    simp only [bigEndian, be16, List.foldl_cons, List.foldl_nil, UInt16.toNat_toUInt8, UInt16.toNat_shiftRight,
      UInt16.reduceToNat, Nat.reduceMod, Nat.shiftRight_eq_div_pow]
    omega
  rw [hbytes]
  exact UInt16.ofNat_toNat

namespace WireFrame
variable (w : WireFrame)

theorem length_header : w.header.length = headerSize := by
  have hmagic : magic.length = 4 := by decide
  simp [header, be16, be32, hmagic, w.stamps_length, w.reserved_length, headerSize]

theorem length_bytes : w.bytes.length = 40 + w.payload.length := by
  rw [bytes, List.length_append, length_header]
  rfl

/-- The fields that hold numbers. -/
theorem header_fields : substr w.header 24 4 = be32 w.durationUs ∧ substr w.header 28 2 = be16 w.width ∧
    substr w.header 30 2 = be16 w.height ∧ substr w.header 32 4 = be32 (UInt32.ofNat w.payload.length) := by
  have hstart : (magic ++ [1, w.codec.byte, w.unused, w.flags] ++ w.stamps).length = 24 := by
    rw [List.length_append, w.stamps_length]
    rfl
  unfold header
  generalize magic ++ [1, w.codec.byte, w.unused, w.flags] ++ w.stamps = start at hstart
  have hduration : (start ++ be32 w.durationUs).length = 28 := by
    rw [List.length_append, hstart]
    rfl
  have hwidth : (start ++ be32 w.durationUs ++ be16 w.width).length = 30 := by
    rw [List.length_append, hduration]
    rfl
  have hheight : (start ++ be32 w.durationUs ++ be16 w.width ++ be16 w.height).length = 32 := by
    rw [List.length_append, hwidth]
    rfl
  refine ⟨?_, ?_, ?_, ?_⟩
  · simp only [List.append_assoc]
    exact substr_append _ _ _ hstart.symm rfl
  · rw [List.append_assoc, List.append_assoc, List.append_assoc]
    exact substr_append _ _ _ hduration.symm rfl
  · rw [List.append_assoc, List.append_assoc]
    exact substr_append _ _ _ hwidth.symm rfl
  · rw [List.append_assoc]
    exact substr_append _ _ _ hheight.symm rfl

theorem length_field : (readBE32 w.header 32).toNat = w.payload.length := by
  have hsmall : w.payload.length < 2 ^ 32 := lt_of_le_of_lt w.payload_length (by decide)
  rw [readBE32, w.header_fields.2.2.2]
  rw [ofNat_be32]
  exact Nat.mod_eq_of_lt hsmall

theorem getD_header {i : Nat} (hi : i < 8) :
    w.header.getD i 0 = (magic ++ [1, w.codec.byte, w.unused, w.flags]).getD i 0 := by
  have hheader : w.header = (magic ++ [1, w.codec.byte, w.unused, w.flags]) ++ (w.stamps ++ (be32 w.durationUs ++
      (be16 w.width ++ (be16 w.height ++ (be32 (UInt32.ofNat w.payload.length) ++ w.reserved))))) := by
    simp only [header, List.append_assoc]
  rw [hheader]
  exact List.getD_append _ _ 0 i hi

theorem take_header : w.header.take 4 = magic := by
  simp only [header, List.append_assoc]
  exact List.take_append_of_le_length (le_of_eq rfl)

theorem parseHeader_header : parseHeader w.header = .ok ({ w.frame with payload := [] }, w.payload.length) := by
  have hcodec : w.header.getD 5 0 = w.codec.byte := w.getD_header (by decide)
  have hversion : w.header.getD 4 0 = 1 := w.getD_header (by decide)
  have hflags : w.header.getD 7 0 = w.flags := w.getD_header (by decide)
  obtain ⟨hduration, hwidth, hheight, -⟩ := w.header_fields
  have hduration : readBE32 w.header 24 = w.durationUs := by rw [readBE32, hduration, ofNat_be32]
  have hwidth : readBE16 w.header 28 = w.width := by rw [readBE16, hwidth, ofNat_be16]
  have hheight : readBE16 w.header 30 = w.height := by rw [readBE16, hheight, ofNat_be16]
  have hvalid : w.flags &&& infoFlagValid = 0 ↔ w.flagsValid = false := and_eq_zero w.flags (i := 7) rfl
  have haudio : w.flags &&& infoFlagAudioAvailable = 0 ↔ w.flags.toNat.testBit 0 = false :=
    and_eq_zero w.flags (i := 0) rfl
  have hevents : w.flags &&& infoFlagEventsSupported = 0 ↔ w.flags.toNat.testBit 2 = false :=
    and_eq_zero w.flags (i := 2) rfl
  rw [parseHeader, hcodec, codecOf_byte]
  dsimp only
  rw [if_neg (by rw [take_header, hversion]; simp), length_field, if_neg (Nat.not_lt.mpr w.payload_length), hflags,
    hduration, hwidth, hheight]
  simp only [ne_eq, hvalid, haudio, hevents, frame]
  cases w.flagsValid <;> cases w.flags.toNat.testBit 0 <;> cases w.flags.toNat.testBit 2 <;> rfl

end WireFrame

/-- A header that is not well-formed is refused. -/
theorem parseHeader_error {header : List UInt8} (h : ¬ WellFormed header) : ∃ error, parseHeader header = .error error := by
  unfold parseHeader
  split
  · exact ⟨_, rfl⟩
  · rename_i codec hcodec
    split
    · exact ⟨_, rfl⟩
    · rename_i hmagic
      rw [not_or, not_not, not_not] at hmagic
      dsimp only
      split
      · exact ⟨_, rfl⟩
      · rename_i hlength
        refine absurd ⟨hmagic.1, hmagic.2, ?_, ?_⟩ h
        · by_contra hrange
          rw [codecOf_eq_none hrange] at hcodec
          cases hcodec
        · exact Nat.not_lt.mp hlength

/-! ### Reading -/

variable {calls : List Received} {text : List UInt8}

theorem readAll_delivers (h : Delivers calls text) {size : Nat} (hsize : size ≤ text.length) :
    ∃ rest, readAll size calls = (.done (text.take size), rest) ∧ Delivers rest (text.drop size) := by
  obtain ⟨rest, htake, hrest⟩ := h.take hsize []
  exact ⟨rest, by rw [readAll, htake]; rfl, hrest⟩

theorem readAll_append {size : Nat} {bytes : List UInt8} {rest : List Received}
    (h : readAll size calls = (.done bytes, rest)) (later : List Received) :
    readAll size (calls ++ later) = (.done bytes, rest ++ later) := by
  unfold readAll at h ⊢
  split at h
  · cases h
  · cases h
  · cases h
  · rename_i htake
    cases h
    rw [take_append htake later]

theorem readAll_ended (h : Delivers calls text) {size : Nat} (hsize : text.length < size) (later : List Received) :
    readAll size (calls ++ .items [] :: later) = (.failed "media subscription closed", later) := by
  rw [readAll, h.take_ended hsize [] later]

/-- A frame is read with exactly its bytes. -/
theorem readFrame_bytes (w : WireFrame) (more : List UInt8) (h : Delivers calls (w.bytes ++ more)) :
    ∃ rest, readFrame calls = (.done w.frame, rest) ∧ Delivers rest more := by
  rw [WireFrame.bytes, List.append_assoc] at h
  have hsize : headerSize ≤ (w.header ++ (w.payload ++ more)).length := by
    rw [List.length_append, w.length_header]
    exact Nat.le_add_right _ _
  obtain ⟨rest, hheader, hrest⟩ := readAll_delivers h hsize
  rw [List.take_left' w.length_header] at hheader
  rw [List.drop_left' w.length_header] at hrest
  have hlength : w.payload.length ≤ (w.payload ++ more).length := by
    rw [List.length_append]
    exact Nat.le_add_right _ _
  obtain ⟨rest', hpayload, hrest'⟩ := readAll_delivers hrest hlength
  rw [List.take_left] at hpayload
  rw [List.drop_left] at hrest'
  refine ⟨rest', ?_, hrest'⟩
  rw [readFrame, hheader]
  dsimp only
  rw [w.parseHeader_header]
  dsimp only
  rw [hpayload]
  rfl

theorem readFrames_bytes (frames : List WireFrame) (more : List UInt8)
    (h : Delivers calls (frames.flatMap WireFrame.bytes ++ more)) :
    ∃ rest, readFrames frames.length calls = (.done (frames.map WireFrame.frame), rest) ∧ Delivers rest more := by
  induction frames generalizing calls with
  | nil => exact ⟨calls, rfl, h⟩
  | cons w frames ih =>
    rw [List.flatMap_cons, List.append_assoc] at h
    obtain ⟨rest, hframe, hrest⟩ := readFrame_bytes w _ h
    obtain ⟨rest', hframes, hrest'⟩ := ih hrest
    refine ⟨rest', ?_, hrest'⟩
    rw [List.length_cons, readFrames, hframe]
    dsimp only
    rw [hframes]
    rfl

/-- A bad header is taken from the socket, and nothing else. -/
theorem readFrame_header {header : List UInt8} (hlength : header.length = headerSize) (hbad : ¬ WellFormed header)
    (more : List UInt8) (h : Delivers calls (header ++ more)) :
    ∃ error rest, readFrame calls = (.failed error, rest) ∧ Delivers rest more := by
  have hsize : headerSize ≤ (header ++ more).length := by
    rw [List.length_append, hlength]
    exact Nat.le_add_right _ _
  obtain ⟨rest, hread, hrest⟩ := readAll_delivers h hsize
  rw [List.take_left' hlength] at hread
  rw [List.drop_left' hlength] at hrest
  obtain ⟨error, herror⟩ := parseHeader_error hbad
  refine ⟨error, rest, ?_, hrest⟩
  rw [readFrame, hread]
  dsimp only
  rw [herror]

/-- A stream that ends before the frame does makes the call fail. -/
theorem readFrame_ended (w : WireFrame) (hstart : text <+: w.bytes) (hshort : text ≠ w.bytes) (h : Delivers calls text)
    (later : List Received) : readFrame (calls ++ .items [] :: later) = (.failed "media subscription closed", later) := by
  rw [readFrame]
  by_cases hheader : text.length < headerSize
  · rw [readAll_ended h hheader]
  · rw [Nat.not_lt] at hheader
    obtain ⟨rest, hread, hrest⟩ := readAll_delivers h hheader
    obtain ⟨part, rfl⟩ : ∃ part, text = w.header ++ part := by
      have hboth := List.prefix_of_prefix_length_le (List.prefix_append w.header w.payload) hstart
        (by rw [w.length_header]; exact hheader)
      obtain ⟨part, hpart⟩ := hboth
      exact ⟨part, hpart.symm⟩
    have hpart : part <+: w.payload := (List.prefix_append_right_inj w.header).mp hstart
    have hlt : part.length < w.payload.length := by
      refine lt_of_le_of_ne hpart.length_le fun heq => hshort ?_
      rw [hpart.eq_of_length heq, WireFrame.bytes]
    rw [List.take_left' w.length_header] at hread
    rw [List.drop_left' w.length_header] at hrest
    rw [readAll_append hread]
    dsimp only
    rw [w.parseHeader_header]
    dsimp only
    rw [readAll_ended hrest hlt]

/-- Well-formed frames are read back, each with exactly its 40 bytes and its payload. A bad header makes the call fail
    behind these 40 bytes, and so does a stream that ends inside a frame. -/
theorem readFrame_exact :
    (∀ w : WireFrame, w.bytes.length = 40 + w.payload.length) ∧
    (∀ (frames : List WireFrame) (more : List UInt8) (calls : List Received),
      Delivers calls (frames.flatMap WireFrame.bytes ++ more) → ∀ k ≤ frames.length, ∃ rest,
        readFrames k calls = (.done ((frames.take k).map WireFrame.frame), rest) ∧
          Delivers rest ((frames.drop k).flatMap WireFrame.bytes ++ more)) ∧
    (∀ (header more : List UInt8) (calls : List Received), header.length = 40 → ¬ WellFormed header →
      Delivers calls (header ++ more) → ∃ error rest, readFrame calls = (.failed error, rest) ∧ Delivers rest more) ∧
    ∀ (w : WireFrame) (text : List UInt8) (calls later : List Received), text <+: w.bytes → text ≠ w.bytes →
      Delivers calls text → ∃ error rest, readFrame (calls ++ .items [] :: later) = (.failed error, rest) := by
  refine ⟨WireFrame.length_bytes, fun frames more calls h k hk => ?_,
    fun header more calls hlength hbad h => readFrame_header hlength hbad more h,
    fun w text calls later hstart hshort h => ⟨_, _, readFrame_ended w hstart hshort h later⟩⟩
  have hsplit : frames.flatMap WireFrame.bytes ++ more =
      (frames.take k).flatMap WireFrame.bytes ++ ((frames.drop k).flatMap WireFrame.bytes ++ more) := by
    rw [← List.append_assoc, ← List.flatMap_append, List.take_append_drop]
  rw [hsplit] at h
  have hread := readFrames_bytes (frames.take k) _ h
  rwa [List.length_take, Nat.min_eq_left hk] at hread

/-- A picture of one byte, with valid flags that deny audio. -/
def byteFrame : WireFrame :=
  { codec := .mjpeg, unused := 0, flags := 0x80, stamps := List.replicate 16 0, durationUs := 16666, width := 64
    height := 64, reserved := List.replicate 4 0, payload := [0xff], stamps_length := rfl, reserved_length := rfl
    payload_length := by decide }

/-- It comes twice, in three pieces with an interruption, and a byte more. -/
theorem readFrame_exact_twice : ∃ rest, readFrames 1
    [.items (byteFrame.bytes.take 7), .interrupted, .items (byteFrame.bytes.drop 7 ++ byteFrame.bytes), .items [5]] =
      (.done [byteFrame.frame], rest) ∧ byteFrame.frame.audioAvailable = false ∧ Delivers rest (byteFrame.bytes ++ [5]) := by
  obtain ⟨rest, hread, hrest⟩ := readFrame_exact.2.1 [byteFrame, byteFrame] [5]
    [.items (byteFrame.bytes.take 7), .interrupted, .items (byteFrame.bytes.drop 7 ++ byteFrame.bytes), .items [5]]
    (.items (by decide) (.interrupted (.items (by decide) (.items (by decide) .nil)))) 1 (by decide)
  exact ⟨rest, hread, rfl, hrest⟩

end OnekvmVnc
