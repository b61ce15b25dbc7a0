import OnekvmVnc.EventLoop

/-! `VNCServer::Run` of `src/vnc_server.cpp` with the threads that wake it, and its end by `IdleTimeout` of
    `src/socket_activation.hpp`. A callback stores what it brings and then writes to `wake_fd_`; `Run` polls that
    descriptor among the sockets, reads it empty and then looks at what has come. `SetFrame` and `QueueAudio` hold their
    mutex until they have written. -/

namespace OnekvmVnc

/-- The counter of an eventfd after `write` of 1, which fails if the counter is full. -/
def eventWrite (counter : Nat) : Nat := if counter < 2 ^ 64 - 2 then counter + 1 else counter

/-! ### `IdleTimeout` -/

structure IdleTimeout where
  lastActive : Int
  deriving DecidableEq, Repr

namespace IdleTimeout
variable (t : IdleTimeout)

/-- 30 seconds. -/
def limit : Int := microseconds 30000000

/-- `Expired`. -/
def expired (active : Bool) (now : Int) : Bool × IdleTimeout :=
  let t := if active then { lastActive := now } else t
  (!active && decide (limit ≤ now - t.lastActive), t)

end IdleTimeout

/-- `timeout_ms` of `PollClientEvents`: at most 20, and no longer than until the rate limiter lets a JPEG through. The
    milliseconds until then are cast to an `int`. -/
def Server.pollTimeout (s : Server) (now : Int) : Int :=
  let due := s.lastJPEGSent + s.jpegInterval - s.jpegSlack
  if s.lastJPEGSent ≠ 0 ∧ now < due then min 20 ((((due - now) / 1000 + 999) / 1000).bmod (2 ^ 32)) else 20

/-! ### The threads -/

/-- How `Run` ends. -/
inductive RunEnd where
  /-- `exit_flag` is set. -/
  | exit
  /-- No client for 30 seconds, on an activated socket. -/
  | idle
  | fatal (error : String)
  /-- `ProcessFrame` has failed. -/
  | frame
  deriving DecidableEq, Repr

/-- Where `Run` stands. -/
inductive RunPlace where
  /-- The condition of the loop. -/
  | check
  /-- `poll` in `PollClientEvents`. -/
  | poll
  /-- The reads of `wake_fd_`, until one finds nothing. -/
  | drain
  /-- The rest of `PollClientEvents`. -/
  | events
  | syncSubscription
  | syncAudioSubscription
  | processAudio
  | processFrame
  | idle
  | returned (how : RunEnd)
  deriving DecidableEq, Repr

/-- Where a callback of the media thread stands. -/
inductive MediaCallback where
  | idle
  /-- `SetFrame` has stored its frame. -/
  | frame
  /-- `SetFatal` has stored its error, and has yet to set `fatal_`. -/
  | error
  /-- `SetFatal` has set `fatal_`. -/
  | fatal
  deriving DecidableEq, Repr

/-- `seen` and `checks` are ghosts: what the last `ProcessFrame` copied, and the time of each call of `Expired` with
    whether there were clients. -/
structure ServerRun where
  server : Server
  place : RunPlace := .check
  /-- The counter of `wake_fd_`. -/
  wakeFd : Nat := 0
  exitFlag : Bool := false
  fatal : Bool := false
  fatalError : String := ""
  socketActivated : Bool
  idleTimeout : IdleTimeout
  media : MediaCallback := .idle
  /-- `QueueAudio` has stored its packet. -/
  audio : Bool := false
  seen : Option JPEGFrame × Nat := (none, 0)
  checks : List (Int × Bool) := []

inductive RunAction where
  /-- A signal sets `exit_flag`. -/
  | signal
  | setFrame (frame : JPEGFrame)
  | setFatal (error : String)
  /-- The next step of the callback of the media thread. -/
  | media
  | queueAudio (pcm : List Int16)
  | audio
  | check
  /-- `poll` returns, for `wake_fd_` or for something else. -/
  | poll (woken : Bool)
  | read
  | events (env : PollEnv)
  | syncSubscription
  | syncAudioSubscription
  | processAudio (ok : ClientPtr → Nat → Bool)
  | processFrame (env : Server.FrameEnv)
  | idle (now : Int)

namespace ServerRun
variable (s : ServerRun)

/-- `Wake`. -/
def wake : ServerRun := { s with wakeFd := eventWrite s.wakeFd }

/-- The next step of `SetFrame` or `SetFatal`. -/
def mediaStep : Option ServerRun :=
  match s.media with
  | .idle => none
  | .frame => some { s.wake with media := .idle }
  | .error => some { s with fatal := true, media := .fatal }
  | .fatal => some { s.wake with media := .idle }

/-- The condition of the loop, and what `Run` returns behind it. -/
def check : ServerRun :=
  if s.fatal then { s with place := .returned (.fatal s.fatalError) }
  else if s.exitFlag then { s with place := .returned .exit }
  else { s with place := .poll }

/-- The check of the idle timeout at the end of a turn. -/
def idle (now : Int) : ServerRun :=
  if s.socketActivated then
    let active := decide (s.server.clientCount ≠ 0)
    let (expired, idleTimeout) := s.idleTimeout.expired active now
    { s with idleTimeout, checks := s.checks ++ [(now, active)], place := if expired then .returned .idle else .check }
  else { s with place := .check }

/-- A step of a thread, `none` where it cannot take it. A subscription calls back from its start to its stop, which
    waits for the callback that is under way. -/
def step (decoder : JPEGDecoder) (s : ServerRun) : RunAction → Option ServerRun
  | .signal => some { s with exitFlag := true }
  | .setFrame frame =>
    if s.media = .idle ∧ s.server.subscription = true then
      some { s with server := s.server.setFrame frame, media := .frame }
    else none
  | .setFatal error =>
    if s.media = .idle ∧ s.server.subscription = true then some { s with fatalError := error, media := .error } else none
  | .media => s.mediaStep
  | .queueAudio pcm =>
    if s.audio = false ∧ s.server.audioSubscription = true then
      some { s with server := s.server.queueAudio pcm, audio := pcm ≠ [] }
    else none
  | .audio => if s.audio then some { s.wake with audio := false } else none
  | .check => if s.place = .check then some s.check else none
  | .poll woken => if s.place = .poll ∧ (woken = true → 0 < s.wakeFd) then some { s with place := .drain } else none
  | .read =>
    if s.place = .drain then some (if s.wakeFd = 0 then { s with place := .events } else { s with wakeFd := 0 }) else none
  | .events env =>
    if s.place = .events then
      (s.server.pollClientEvents env).map fun server => { s with server, place := .syncSubscription }
    else none
  | .syncSubscription =>
    if s.place = .syncSubscription ∧ (s.server.clientCount = 0 ∧ s.server.subscription = true → s.media = .idle) then
      some { s with server := s.server.syncSubscription, place := .syncAudioSubscription }
    else none
  | .syncAudioSubscription =>
    if s.place = .syncAudioSubscription ∧
        (s.server.audioSubscription = true ∧ s.server.syncAudioSubscription.audioSubscription = false → s.audio = false) then
      some { s with server := s.server.syncAudioSubscription, place := .processAudio }
    else none
  | .processAudio ok =>
    if s.place = .processAudio ∧ s.audio = false then
      some { s with server := s.server.processAudio ok, place := .processFrame }
    else none
  | .processFrame env =>
    if s.place = .processFrame ∧ s.media ≠ .frame then
      let t := { s with seen := (s.server.latestFrame, s.server.latestSequence) }
      match s.server.processFrame decoder env with
      | some server => some { t with server, place := .idle }
      | none => some { t with place := .returned .frame }
    else none
  | .idle now => if s.place = .idle then some (s.idle now) else none

/-- `Run` is called on the server as constructed at a time. -/
def start (server : Server) (socketActivated : Bool) (now : Int) : ServerRun :=
  { server, socketActivated, idleTimeout := { lastActive := now } }

end ServerRun

end OnekvmVnc
