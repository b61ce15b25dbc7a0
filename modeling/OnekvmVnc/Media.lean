import OnekvmVnc.Client
import OnekvmVnc.Identity

/-! `MediaSubscription` and `AudioSubscription` of `src/protocol_ipc.cpp` with what their workers ask, read and hand on.
    The places of `Run` and its accesses to `stopping_` and `socket_fd_` are those of `MediaRun` and `AudioRun`. A log
    keeps what happened since the last `Start`. -/

namespace OnekvmVnc

/-- What `Run` does that others see; `δ` is what it hands on. -/
inductive StreamEvent (δ : Type) where
  /-- `ConnectUnix` fails. -/
  | refused
  /-- `ConnectUnix` returns a socket. -/
  | connected
  /-- `WriteAll` is called with a request, and sends it or not. -/
  | asked (request : List UInt8) (sent : Bool)
  /-- `ReceiveSharedRing` -/
  | handshake (ok : Bool)
  | slept (milliseconds : Nat)
  | told (what : δ)
  deriving DecidableEq, Repr

/-- The first sleep behind a connection that fails, in milliseconds. -/
def firstBackoff : Nat := 100

def maxBackoff : Nat := 2000

/-! ### `MediaSubscription` -/

namespace Frame
variable (frame : Frame)

/-- A frame that the stream may carry. -/
def Pictures : Prop := frame.codec = .mjpeg ∧ frame.width ≠ 0 ∧ frame.height ≠ 0 ∧ frame.payload ≠ []

instance : DecidablePred Pictures := fun _ => inferInstanceAs (Decidable (_ ∧ _))

/-- The frame, as it is handed on. -/
def jpegFrame : JPEGFrame :=
  { data := frame.payload, width := frame.width, height := frame.height, durationUs := frame.durationUs }

end Frame

inductive MediaTold where
  /-- `frame_callback_` and `notify_callback_` -/
  | frame (frame : JPEGFrame)
  /-- `fatal_callback_` -/
  | fatal (error : String)
  deriving DecidableEq, Repr

/-- What a step of the worker calls, with how it ends. -/
inductive MediaCall where
  /-- `ConnectUnix`, with what `recv` will find on the socket. -/
  | connect (result : Option (Nat × List Received))
  /-- The check of `stopping_` before a sleep. -/
  | sleep (stopping : Bool)
  | write (sent : Bool)
  | handshake (ok : Bool)
  /-- `poll` of the ring and the socket, with the frame of `TakeLatestFrame` if there is one. -/
  | ring (frame : Option JPEGFrame) (hangup : Bool)
  /-- `ReadFrame` -/
  | read
  /-- A step without any of these. -/
  | other (outcome : Outcome)

inductive MediaAction where
  | start
  | stop
  | load
  | shutdown
  | join
  | run (call : MediaCall)

/-- `stream` and `opened` are what `recv` will find, and what it was going to find when the socket was opened; `frames`
    and `taken` are the frames of this connection, from the socket and from the ring. -/
structure MediaSubscription where
  identity : ByteIdentity
  fps : Int
  jpegQuality : Int
  sub : Subscription MediaRun := {}
  backoff : Nat := firstBackoff
  stream : List Received := []
  opened : List Received := []
  frames : List Frame := []
  taken : List JPEGFrame := []
  calls : List (StreamEvent MediaTold) := []

namespace MediaRun

/-- The step at this place is without a call that `MediaCall` names. -/
def plain : MediaRun → Bool
  | .connect _ | .refused _ | .write _ | .handshake | .ringPoll | .readFrame | .pause _ => false
  | _ => true

end MediaRun

namespace MediaSubscription
variable (s : MediaSubscription)

def log (event : StreamEvent MediaTold) : MediaSubscription := { s with calls := s.calls ++ [event] }

def move (a : SubscriptionAction) : Option MediaSubscription :=
  (Subscription.step MediaRun.worker s.sub a).map fun sub => { s with sub }

/-- A sleep of `backoff`, unless `stopping_` is found set. -/
def sleep (stopping : Bool) : MediaSubscription := if stopping then s else s.log (.slept s.backoff)

/-- `ReadFrame`, and what becomes of the frame. -/
def receive : Option MediaSubscription :=
  match readFrame s.stream with
  | (.waiting, _) => none
  | (.failed _, _) => s.move (.run .failed)
  | (.done frame, stream) =>
    let s := { s with stream, frames := s.frames ++ [frame] }
    if frame.Pictures then (s.log (.told (.frame frame.jpegFrame))).move (.run .ok)
    else (s.log (.told (.fatal "MJPEG media subscription changed format"))).move (.run .other)

/-- A step of the worker. -/
def runStep : MediaRun → MediaCall → Option MediaSubscription
  | .connect _, .connect none => (s.log .refused).move (.run .failed)
  | .connect _, .connect (some (fd, stream)) =>
    ({ s with stream, opened := stream, frames := [], taken := [] }.log .connected).move (.run (.fd fd))
  | .refused _, .sleep stopping =>
    let s := s.sleep stopping
    { s with backoff := min (s.backoff * 2) maxBackoff }.move (.run (.flag stopping))
  | .write ring, .write sent =>
    let s := s.log (.asked (s.identity.mediaRequest s.fps s.jpegQuality ring) sent)
    if sent then { s with backoff := firstBackoff }.move (.run .ok) else s.move (.run .failed)
  | .handshake, .handshake ok => (s.log (.handshake ok)).move (.run (if ok then .ok else .failed))
  | .ringPoll, .ring frame hangup =>
    let s := match frame with
      | some frame => { s with taken := s.taken ++ [frame] }.log (.told (.frame frame))
      | none => s
    s.move (.run (if hangup then .failed else .ok))
  | .readFrame, .read => s.receive
  | .pause _, .sleep stopping => (s.sleep stopping).move (.run (.flag stopping))
  | pc, .other outcome => if pc.plain then s.move (.run outcome) else none
  | _, _ => none

def step : MediaAction → Option MediaSubscription
  | .start => { s with backoff := firstBackoff, stream := [], opened := [], frames := [], taken := [], calls := [] }.move .start
  | .stop => s.move .stop
  | .load => s.move .load
  | .shutdown => s.move .shutdown
  | .join => s.move .join
  | .run call => s.sub.worker.bind fun pc => s.runStep pc call

end MediaSubscription

/-! ### `AudioSubscription` -/

/-- Opus, with the state of a decoder. An error is negative. -/
structure OpusDecoder (σ : Type) where
  /-- The state of a decoder that was just reset. -/
  reset : σ
  /-- The samples of both channels, or an error as `opus_strerror` puts it. -/
  decode : σ → List UInt8 → Except String (List Int16) × σ

inductive AudioTold where
  /-- `pcm_callback_` -/
  | pcm (samples : List Int16)
  /-- `error_callback_` -/
  | error (error : String)
  deriving DecidableEq, Repr

inductive AudioWorkerCall where
  /-- `opus_decoder_create` -/
  | create (result : Except String Unit)
  | connect (result : Option (Nat × List Received))
  | sleep (stopping : Bool)
  | write (sent : Bool)
  | read
  | other (outcome : Outcome)

inductive AudioWorkerAction where
  | start
  | stop
  | load
  | shutdown
  | join
  | run (call : AudioWorkerCall)

namespace Frame
variable (frame : Frame)

/-- A frame that carries audio. -/
def Sounds : Prop := frame.codec = .opus ∧ frame.width = 0 ∧ frame.height = 0 ∧ frame.payload ≠ []

instance : DecidablePred Sounds := fun _ => inferInstanceAs (Decidable (_ ∧ _))

end Frame

namespace OpusDecoder
variable {σ : Type} (opus : OpusDecoder σ)

/-- What a frame of audio becomes. A packet without samples is not handed on. -/
def hear (state : σ) (frame : Frame) : List AudioTold × σ :=
  match opus.decode state frame.payload with
  | (.ok samples, state) => (if samples = [] then [] else [.pcm samples], state)
  | (.error error, state) => ([.error ("decode Opus audio: " ++ error)], state)

end OpusDecoder

structure AudioSubscription (σ : Type) where
  identity : ByteIdentity
  decoder : σ
  sub : Subscription AudioRun := {}
  backoff : Nat := firstBackoff
  stream : List Received := []
  opened : List Received := []
  frames : List Frame := []
  calls : List (StreamEvent AudioTold) := []

namespace AudioRun

def plain : AudioRun → Bool
  | .createDecoder | .connect | .refused | .write | .readFrame | .pause => false
  | _ => true

end AudioRun

namespace AudioSubscription
variable {σ : Type} (opus : OpusDecoder σ) (s : AudioSubscription σ)

def log (event : StreamEvent AudioTold) : AudioSubscription σ := { s with calls := s.calls ++ [event] }

def move (a : SubscriptionAction) : Option (AudioSubscription σ) :=
  (Subscription.step AudioRun.worker s.sub a).map fun sub => { s with sub }

def sleep (stopping : Bool) : AudioSubscription σ := if stopping then s else s.log (.slept s.backoff)

/-- `ReadFrame`, and what becomes of the frame. -/
def receive : Option (AudioSubscription σ) :=
  match readFrame s.stream with
  | (.waiting, _) => none
  | (.failed _, _) => s.move (.run .failed)
  | (.done frame, stream) =>
    let s := { s with stream, frames := s.frames ++ [frame] }
    if frame.Sounds then
      let (told, decoder) := opus.hear s.decoder frame
      { s with decoder, calls := s.calls ++ told.map StreamEvent.told }.move (.run .ok)
    else s.move (.run .ok)

def runStep : AudioRun → AudioWorkerCall → Option (AudioSubscription σ)
  | .createDecoder, .create (.ok ()) => { s with decoder := opus.reset }.move (.run .ok)
  | .createDecoder, .create (.error error) =>
    (s.log (.told (.error ("create Opus decoder: " ++ error)))).move (.run .failed)
  | .connect, .connect none => (s.log .refused).move (.run .failed)
  | .connect, .connect (some (fd, stream)) =>
    ({ s with stream, opened := stream, frames := [] }.log .connected).move (.run (.fd fd))
  | .refused, .sleep stopping =>
    let s := s.sleep stopping
    { s with backoff := min (s.backoff * 2) maxBackoff }.move (.run (.flag stopping))
  | .write, .write sent =>
    let s := s.log (.asked s.identity.audioRequest sent)
    if sent then { s with decoder := opus.reset, backoff := firstBackoff }.move (.run .ok) else s.move (.run .failed)
  | .readFrame, .read => s.receive opus
  | .pause, .sleep stopping => (s.sleep stopping).move (.run (.flag stopping))
  | pc, .other outcome => if pc.plain then s.move (.run outcome) else none
  | _, _ => none

def step : AudioWorkerAction → Option (AudioSubscription σ)
  | .start => { s with backoff := firstBackoff, stream := [], opened := [], frames := [], calls := [] }.move .start
  | .stop => s.move .stop
  | .load => s.move .load
  | .shutdown => s.move .shutdown
  | .join => s.move .join
  | .run call => s.sub.worker.bind fun pc => s.runStep opus pc call

end AudioSubscription

end OnekvmVnc
