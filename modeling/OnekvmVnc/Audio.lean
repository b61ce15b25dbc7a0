/-! The audio conversion of `src/vnc_server.cpp`: `AppendAudioSample` and `ConvertAudio`. -/

namespace OnekvmVnc

def opusSampleRate : Nat := 48000

def appendLE16 (output : List UInt8) (value : UInt16) : List UInt8 :=
  output ++ [value.toUInt8, (value >>> 8).toUInt8]

def appendLE32 (output : List UInt8) (value : UInt32) : List UInt8 :=
  output ++ [value.toUInt8, (value >>> 8).toUInt8, (value >>> 16).toUInt8, (value >>> 24).toUInt8]

/-- `AppendAudioSample`: the QEMU sample formats U8, S8, U16, S16, U32 and S32. -/
def appendAudioSample (output : List UInt8) (sample : Int16) (format : UInt8) : List UInt8 :=
  match format with
  | 0 => output ++ [UInt8.ofInt ((sample.toInt + 32768) / 256)]
  | 1 => output ++ [UInt8.ofInt (sample.toInt / 256)]
  | 2 => appendLE16 output (UInt16.ofInt (sample.toInt + 32768))
  | 3 => appendLE16 output (UInt16.ofInt sample.toInt)
  | 4 =>
    let value := UInt32.ofInt (sample.toInt + 32768)
    appendLE32 output ((value <<< 16) ||| value)
  | 5 => appendLE32 output (UInt32.ofInt (sample.toInt * 65536))
  | _ => output

structure AudioFormat where
  sampleFormat : UInt8 := 3
  channels : UInt8 := 2
  frequency : Nat := 44100
  deriving DecidableEq, Repr

/-- The formats that a client may set. -/
structure AudioFormat.Valid (format : AudioFormat) : Prop where
  frequency : 1 ≤ format.frequency ∧ format.frequency ≤ opusSampleRate
  channels : format.channels = 1 ∨ format.channels = 2
  sampleFormat : format.sampleFormat ≤ 5

/-- The sample of one channel between two source frames, truncated towards zero. -/
def interpolate (source : List Int16) (frequency index next fraction channel : Nat) : Int16 :=
  let first := (source.getD (index * 2 + channel) 0).toInt
  let second := (source.getD (next * 2 + channel) 0).toInt
  Int16.ofInt ((first * (frequency - fraction : Nat) + second * fraction).tdiv frequency)

/-- The output frames at the source positions from `position` up to `limit`. -/
def resample (source : List Int16) (format : AudioFormat) (sourceFrames limit position : Nat) (output : List UInt8) :
    List UInt8 × Nat :=
  if position < limit then
    let index := position / format.frequency
    let fraction := position % format.frequency
    let next := min (index + 1) (sourceFrames - 1)
    let left := interpolate source format.frequency index next fraction 0
    let right := interpolate source format.frequency index next fraction 1
    let output :=
      if format.channels = 1 then
        appendAudioSample output (Int16.ofInt ((left.toInt + right.toInt).tdiv 2)) format.sampleFormat
      else appendAudioSample (appendAudioSample output left format.sampleFormat) right format.sampleFormat
    resample source format sourceFrames limit (position + opusSampleRate) output
  else (output, position)
termination_by limit - position
decreasing_by
  have hpos : 0 < opusSampleRate := by decide
  omega

/-- `ConvertAudio`: the converted packet, and the resample position carried to the next one. -/
def convertAudio (source : List Int16) (format : AudioFormat) (position : Nat) : List UInt8 × Nat :=
  let sourceFrames := source.length / 2
  if sourceFrames = 0 ∨ format.frequency = 0 ∨ format.frequency > opusSampleRate ∨
      (format.channels ≠ 1 ∧ format.channels ≠ 2) ∨ format.sampleFormat > 5 then ([], position)
  else
    let limit := sourceFrames * format.frequency
    let (output, position) := resample source format sourceFrames limit position []
    (output, position - limit)

end OnekvmVnc
