/-! The subscriptions of `src/protocol_ipc.cpp`: `Start` and `Stop` on one thread, `Run` on the worker that they
    start and join. Each access to `stopping_` and `socket_fd_` is one step; what the socket and the peer do is
    up to the run. -/

namespace OnekvmVnc

/-- What a step of `Run` does with what it shares with `Stop`. -/
inductive Access where
  /-- It reads `stopping_`, and finds this value. -/
  | checked (stopping : Bool)
  /-- It reads `socket_fd_`, and finds a descriptor or not. -/
  | loaded (present : Bool)
  /-- `ConnectUnix` returns a descriptor. -/
  | connected (fd : Nat)
  /-- It stores its descriptor in `socket_fd_`. -/
  | stored
  /-- `CloseOwnedSocket`. -/
  | closed
  /-- It sets `stopping_` itself. -/
  | raised
  | quiet
  deriving DecidableEq, Repr

/-- What decides a step of `Run`: the value of `stopping_` or of a frame's flag, or how a call ended. -/
inductive Outcome where
  | flag (stopping : Bool)
  | fd (fd : Nat)
  | ok
  | failed
  /-- A signal, or a frame that ends the subscription. -/
  | other
  deriving DecidableEq, Repr

/-- Where `Stop` stands. -/
inductive Stopper where
  | idle
  /-- It has set `stopping_`. -/
  | stored
  /-- It has read `socket_fd_`. -/
  | loaded (fd : Option Nat)
  /-- It has called `shutdown`, if there was a descriptor, and waits in `join`. -/
  | joining
  deriving DecidableEq, Repr

structure Subscription (ρ : Type) where
  stopping : Bool := false
  /-- `none` is -1. -/
  socketFd : Option Nat := none
  /-- The socket that the worker has open. -/
  socket : Option Nat := none
  /-- `shutdown` has been called on that socket. -/
  shut : Bool := false
  stopper : Stopper := .idle
  /-- Where the worker stands in `Run`, `none` while `thread_` is not joinable. -/
  worker : Option ρ := none
  deriving DecidableEq

/-- `Run`, by where it starts, where it has returned, and its steps. -/
structure Worker (ρ : Type) where
  start : ρ
  done : ρ
  next : ρ → Outcome → Option (Access × ρ)

inductive SubscriptionAction where
  | start
  | stop
  | load
  | shutdown
  | join
  | run (outcome : Outcome)
  deriving DecidableEq, Repr

namespace Subscription
variable {ρ : Type} (s : Subscription ρ)

def access : Access → Option (Subscription ρ)
  | .checked stopping => if s.stopping = stopping then some s else none
  | .loaded present => if s.socketFd.isSome = present then some s else none
  | .connected fd => some { s with socket := some fd, shut := false }
  | .stored => some { s with socketFd := s.socket }
  | .closed => if s.socketFd = s.socket then some { s with socketFd := none, socket := none } else some s
  | .raised => some { s with stopping := true }
  | .quiet => some s

/-- `Stop` shuts the socket down that it has read, if it is still the one that is open. -/
def shutdown (fd : Option Nat) : Subscription ρ :=
  { s with shut := s.shut || (fd.isSome && fd = s.socket), stopper := .joining }

def step [DecidableEq ρ] (w : Worker ρ) (s : Subscription ρ) : SubscriptionAction → Option (Subscription ρ)
  | .start =>
    if s.stopper = .idle ∧ s.worker = none then some { s with stopping := false, worker := some w.start } else none
  | .stop => if s.stopper = .idle then some { s with stopping := true, stopper := .stored } else none
  | .load => if s.stopper = .stored then some { s with stopper := .loaded s.socketFd } else none
  | .shutdown =>
    match s.stopper with
    | .loaded fd => some (s.shutdown fd)
    | _ => none
  | .join =>
    if s.stopper = .joining ∧ (s.worker = none ∨ s.worker = some w.done) then
      some { s with stopper := .idle, worker := none }
    else none
  | .run outcome =>
    match s.worker with
    | none => none
    | some pc => (w.next pc outcome).bind fun (a, pc) => (s.access a).map fun t => { t with worker := some pc }

end Subscription

/-! ### `MediaSubscription::Run` -/

/-- Where the worker stands; `ring` is `shared_ring_supported`. -/
inductive MediaRun where
  | loop (ring : Bool)
  | connect (ring : Bool)
  /-- The connection failed, and it is checked whether to sleep. -/
  | refused (ring : Bool)
  | store (ring : Bool)
  | write (ring : Bool)
  /-- `recvmsg` of `ReceiveSharedRing`. -/
  | handshake
  | ringLoop
  /-- `poll` of the ring's event and the socket. -/
  | ringPoll
  | streamLoop
  /-- `recv` of `ReadFrame`. -/
  | readFrame
  /-- The stream changed its format. -/
  | fatal
  /-- `CloseOwnedSocket`, then the check before the sleep or the next round. -/
  | close (ring sleep : Bool)
  | pause (ring : Bool)
  | done
  deriving DecidableEq, Repr

namespace MediaRun

def next : MediaRun → Outcome → Option (Access × MediaRun)
  | .loop ring, .flag false => some (.checked false, .connect ring)
  | .loop _, .flag true => some (.checked true, .done)
  | .connect ring, .failed => some (.quiet, .refused ring)
  | .connect ring, .fd fd => some (.connected fd, .store ring)
  | .refused ring, .flag stopping => some (.checked stopping, .loop ring)
  | .store ring, .ok => some (.stored, .write ring)
  | .write ring, .failed => some (.quiet, .close ring false)
  | .write ring, .ok => some (.quiet, if ring then .handshake else .streamLoop)
  | .handshake, .failed => some (.quiet, .close false false)
  | .handshake, .ok => some (.quiet, .ringLoop)
  | .ringLoop, .flag false => some (.checked false, .ringPoll)
  | .ringLoop, .flag true => some (.checked true, .close true true)
  | .ringPoll, .ok => some (.quiet, .ringLoop)
  | .ringPoll, .failed => some (.quiet, .close true true)
  | .streamLoop, .flag false => some (.checked false, .readFrame)
  | .streamLoop, .flag true => some (.checked true, .close false true)
  | .readFrame, .ok => some (.quiet, .streamLoop)
  | .readFrame, .failed => some (.quiet, .close false true)
  | .readFrame, .other => some (.quiet, .fatal)
  | .fatal, .ok => some (.raised, .close false true)
  | .close ring sleep, .ok => some (.closed, if sleep then .pause ring else .loop ring)
  | .pause ring, .flag stopping => some (.checked stopping, .loop ring)
  | _, _ => none

def worker : Worker MediaRun := { start := .loop true, done := .done, next }

/-- The worker waits for the peer, without a timeout. -/
def blocked : MediaRun → Bool
  | .handshake | .ringPoll | .readFrame => true
  | _ => false

end MediaRun

/-! ### `AudioSubscription::Run` -/

inductive AudioRun where
  | createDecoder
  | loop
  | connect
  | refused
  | store
  | write
  | streamLoop
  | readFrame
  | close (sleep : Bool)
  | pause
  | done
  deriving DecidableEq, Repr

namespace AudioRun

def next : AudioRun → Outcome → Option (Access × AudioRun)
  | .createDecoder, .ok => some (.quiet, .loop)
  | .createDecoder, .failed => some (.quiet, .done)
  | .loop, .flag false => some (.checked false, .connect)
  | .loop, .flag true => some (.checked true, .done)
  | .connect, .failed => some (.quiet, .refused)
  | .connect, .fd fd => some (.connected fd, .store)
  | .refused, .flag stopping => some (.checked stopping, .loop)
  | .store, .ok => some (.stored, .write)
  | .write, .failed => some (.quiet, .close false)
  | .write, .ok => some (.quiet, .streamLoop)
  | .streamLoop, .flag false => some (.checked false, .readFrame)
  | .streamLoop, .flag true => some (.checked true, .close true)
  | .readFrame, .ok => some (.quiet, .streamLoop)
  | .readFrame, .failed => some (.quiet, .close true)
  | .close sleep, .ok => some (.closed, if sleep then .pause else .loop)
  | .pause, .flag stopping => some (.checked stopping, .loop)
  | _, _ => none

def worker : Worker AudioRun := { start := .createDecoder, done := .done, next }

def blocked : AudioRun → Bool
  | .readFrame => true
  | _ => false

end AudioRun

/-! ### `CapabilitySubscription::Run` -/

/-- Where the worker stands; `events` is `events_supported_`. -/
inductive CapabilityRun where
  | loop (events : Bool)
  | connect (events : Bool)
  | refused
  | store (events : Bool)
  /-- `stopping_` is checked again, with the descriptor stored. -/
  | recheck (events : Bool)
  | abandon
  | write (events : Bool)
  | eventLoop (events : Bool)
  /-- `poll` of the socket, with a timeout unless `events`. -/
  | poll (events : Bool)
  | pollInterrupted (events : Bool)
  | polled (events : Bool)
  /-- `recv`, with the timeout of the socket. -/
  | readFrame (events : Bool)
  /-- The probe is answered, and `events_supported_` becomes what the frame says. -/
  | probed (events : Bool)
  | switched (events : Bool)
  /-- `poll` of `wake_fd_`, with a timeout. -/
  | wait (events : Bool)
  | waitInterrupted (events : Bool)
  /-- The socket is closed, and `socket_fd_` is read to see it. -/
  | again (events : Bool)
  /-- The subscription ends, with its socket still open. -/
  | ended (events : Bool)
  | close
  | report
  | done
  deriving DecidableEq, Repr

namespace CapabilityRun

def next : CapabilityRun → Outcome → Option (Access × CapabilityRun)
  | .loop events, .flag false => some (.checked false, .connect events)
  | .loop _, .flag true => some (.checked true, .done)
  | .connect _, .failed => some (.quiet, .refused)
  | .connect events, .fd fd => some (.connected fd, .store events)
  | .refused, .flag stopping => some (.checked stopping, .done)
  | .store events, .ok => some (.stored, .recheck events)
  | .recheck events, .flag false => some (.checked false, .write events)
  | .recheck _, .flag true => some (.checked true, .abandon)
  | .abandon, .ok => some (.closed, .done)
  | .write events, .ok => some (.quiet, .eventLoop events)
  | .write events, .failed => some (.quiet, .ended events)
  | .eventLoop events, .flag false => some (.checked false, .poll events)
  | .eventLoop events, .flag true => some (.checked true, .ended events)
  | .poll events, .ok => some (.quiet, .polled events)
  | .poll events, .failed => some (.quiet, .ended events)
  | .poll events, .other => some (.quiet, .pollInterrupted events)
  | .pollInterrupted events, .flag false => some (.checked false, .poll events)
  | .pollInterrupted events, .flag true => some (.checked true, .ended events)
  | .polled events, .flag false => some (.checked false, .readFrame events)
  | .polled events, .flag true => some (.checked true, .ended events)
  | .readFrame events, .failed => some (.quiet, .ended events)
  | .readFrame true, .ok => some (.quiet, .eventLoop true)
  | .readFrame false, .flag events => some (.quiet, .probed events)
  | .probed events, .ok => some (.closed, .switched events)
  | .switched events, .flag false => some (.checked false, .wait events)
  | .switched events, .flag true => some (.checked true, .again events)
  | .wait events, .ok => some (.quiet, .again events)
  | .wait events, .other => some (.quiet, .waitInterrupted events)
  | .waitInterrupted events, .flag false => some (.checked false, .wait events)
  | .waitInterrupted events, .flag true => some (.checked true, .again events)
  | .again events, .failed => some (.loaded false, .loop events)
  | .again _, .ok => some (.loaded true, .close)
  | .ended events, .failed => some (.loaded false, .loop events)
  | .ended _, .ok => some (.loaded true, .close)
  | .close, .ok => some (.closed, .report)
  | .report, .flag stopping => some (.checked stopping, .done)
  | _, _ => none

/-- `events_supported_` is what the last probe said. -/
def worker (events : Bool) : Worker CapabilityRun := { start := .loop events, done := .done, next }

def blocked : CapabilityRun → Bool
  | .poll events => events
  | _ => false

end CapabilityRun

end OnekvmVnc
