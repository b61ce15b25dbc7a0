import OnekvmVnc.MediaFrame
import OnekvmVnc.SessionRequest
import OnekvmVnc.Subscription

/-! `CapabilitySubscription` of `src/protocol_ipc.cpp` with what its worker reads, asks and tells. The places of `Run`
    and its accesses to `stopping_` and `socket_fd_` are those of `CapabilityRun`; the end of an error or of a probe is
    handled as the code does, and `events_supported_` outlives a stop. -/

namespace OnekvmVnc

structure VideoInfo where
  width : UInt16
  height : UInt16
  durationUs : UInt32
  audioAvailable : Bool
  eventsSupported : Bool
  deriving DecidableEq, Repr

namespace Frame
variable (frame : Frame)

/-- What `callback_` is told of a frame. -/
def videoInfo : VideoInfo :=
  { width := frame.width, height := frame.height, durationUs := frame.durationUs, audioAvailable := frame.audioAvailable
    eventsSupported := frame.eventsSupported }

/-- A frame that tells the format of the video. -/
def Describes : Prop :=
  frame.payload = [] ∧ frame.width ≠ 0 ∧ frame.height ≠ 0 ∧ frame.durationUs ≠ 0 ∧ frame.codec = .mjpeg

instance : DecidablePred Describes := fun _ => inferInstanceAs (Decidable (_ ∧ _))

end Frame

/-- `SubscriptionJSON` with a codec and the defaults of its other arguments, with braces `\x7b` and `\x7d`. -/
def subscriptionJSON (identity : ByteIdentity) (video codec : List UInt8) : List UInt8 :=
  let request :=
    bytesOf "\x7b\"version\":1,\"extension_id\":\"" ++ identity.extensionId ++
      bytesOf "\",\"token\":\"" ++ identity.token ++ bytesOf "\",\"video\":\"" ++ video ++ bytesOf "\""
  let request := if codec ≠ [] then request ++ (bytesOf ",\"codec\":\"" ++ codec ++ bytesOf "\"") else request
  request ++ bytesOf "\x7d\n"

/-- The request of `CapabilitySubscription::Run`. -/
def capabilityRequest (identity : ByteIdentity) (eventsSupported : Bool) : List UInt8 :=
  subscriptionJSON identity (if eventsSupported then bytesOf "info-events" else bytesOf "info") (bytesOf "mjpeg")

/-- What the subscription asks, reads and tells. -/
inductive CapabilityEvent where
  /-- `WriteAll` is called with a request. -/
  | asked (request : List UInt8)
  /-- `ReadFrame` returns a frame. -/
  | read (frame : Frame)
  /-- `callback_` -/
  | callback (info : VideoInfo)
  /-- `failed_` -/
  | failed (error : String)
  deriving DecidableEq, Repr

/-- What a step of the worker calls, with how it ends. -/
inductive CapabilityCall where
  /-- `ConnectUnix`, with what `recv` will find on the socket. -/
  | connect (result : Except String (Nat × List Received))
  /-- `WriteAll` -/
  | write (result : Except String Unit)
  /-- `ReadFrame` -/
  | read
  | callback
  /-- `CloseOwnedSocket` behind an answered probe. -/
  | close
  /-- `stopping_` is checked before `failed_` is called. -/
  | check (stopping : Bool)
  | failed
  /-- A step without any of these. -/
  | other (outcome : Outcome)

inductive CapabilityAction where
  /-- `Start`, and whether `eventfd` succeeds. -/
  | start (eventfd : Bool)
  | stop
  | load
  | shutdown
  | join
  | run (call : CapabilityCall)

structure CapabilitySubscription where
  identity : ByteIdentity
  sub : Subscription CapabilityRun := {}
  eventsSupported : Bool
  /-- `wake_fd_` is open. -/
  wakeFd : Bool := false
  /-- `error` in `Run`. -/
  error : String := ""
  /-- What `recv` will find, and what it was going to find when the socket was opened. -/
  stream : List Received := []
  opened : List Received := []
  /-- The frames that were read from the socket. -/
  frames : List Frame := []
  /-- The frame that was read, until `callback_` is called. -/
  accepted : Option Frame := none
  /-- The error that `failed_` is about to be called with. -/
  failing : Option String := none
  /-- What happened before the last `Start`, and since then. -/
  earlier : List CapabilityEvent := []
  calls : List CapabilityEvent := []

namespace CapabilityRun

/-- The step at this place is without a call that `CapabilityCall` names. -/
def plain : CapabilityRun → Bool
  | .connect _ | .refused | .write _ | .readFrame _ | .probed _ | .report | .done => false
  | _ => true

end CapabilityRun

namespace CapabilitySubscription
variable (s : CapabilitySubscription)

def log (event : CapabilityEvent) : CapabilitySubscription := { s with calls := s.calls ++ [event] }

/-- A step of the threads, as far as `stopping_` and `socket_fd_` go. -/
def move (a : SubscriptionAction) : Option CapabilitySubscription :=
  (Subscription.step (CapabilityRun.worker s.eventsSupported) s.sub a).map fun sub => { s with sub }

/-- `stopping_` is checked, and `failed_` is called if it is unset. -/
def check (stopping : Bool) (error : String) : Option CapabilitySubscription :=
  { s with failing := if stopping then none else some error }.move (.run (.flag stopping))

/-- `ReadFrame`, and the check of the frame. -/
def receive : Option CapabilitySubscription :=
  match readFrame s.stream with
  | (.waiting, _) => none
  | (.failed error, _) => { s with error }.move (.run .failed)
  | (.done frame, stream) =>
    let s := { s with stream, frames := s.frames ++ [frame] }.log (.read frame)
    if frame.Describes then some { s with accepted := some frame }
    else { s with error := "invalid video capability event" }.move (.run .failed)

/-- `callback_` is called with the frame. In a probe, the frame says how to go on. -/
def tell (frame : Frame) : Option CapabilitySubscription :=
  { s with accepted := none }.log (.callback frame.videoInfo) |>.move
    (.run (if s.eventsSupported then .ok else .flag frame.eventsSupported))

/-- A step of the worker. -/
def runStep : CapabilityRun → CapabilityCall → Option CapabilitySubscription
  | .connect _, .connect (.error error) => { s with error }.move (.run .failed)
  | .connect _, .connect (.ok (fd, stream)) => { s with stream, opened := stream, frames := [] }.move (.run (.fd fd))
  | .refused, .check stopping => s.check stopping s.error
  | .write _, .write result =>
    let s := s.log (.asked (capabilityRequest s.identity s.eventsSupported))
    match result with
    | .ok () => s.move (.run .ok)
    | .error error => { s with error }.move (.run .failed)
  | .readFrame _, .read => if s.accepted = none then s.receive else none
  | .readFrame _, .callback => s.accepted.bind s.tell
  | .probed events, .close => { s with eventsSupported := events }.move (.run .ok)
  | .report, .check stopping =>
    s.check stopping (if s.error = "" then "video capability subscription closed" else s.error)
  | .done, .failed => s.failing.map fun error => { s with failing := none }.log (.failed error)
  | pc, .other outcome => if pc.plain then s.move (.run outcome) else none
  | _, _ => none

def step : CapabilityAction → Option CapabilitySubscription
  | .start eventfd =>
    if s.sub.stopper = .idle ∧ s.sub.worker = none then
      let s := { s with earlier := s.earlier ++ s.calls, calls := [] }
      if !s.eventsSupported && !s.wakeFd && !eventfd then some (s.log (.failed "create capability wakeup"))
      else { s with wakeFd := s.wakeFd || !s.eventsSupported, error := "" }.move .start
    else none
  | .stop => s.move .stop
  | .load => s.move .load
  | .shutdown => s.move .shutdown
  -- `Run` has not returned while it calls `failed_`.
  | .join => if s.failing = none then s.move .join else none
  | .run call => s.sub.worker.bind fun pc => s.runStep pc call

end CapabilitySubscription

end OnekvmVnc
