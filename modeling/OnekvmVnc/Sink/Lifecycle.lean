import Mathlib.Data.List.Basic

/-! `Start` and `Stop` of `Sink` in `internal/vnc/sink.go`, with the goroutines that they start and wait for: `acceptLoop`,
    `serveClient` for each connection and the updater that a client may have `runClient` start. A section under `mu`, a
    call that blocks and a call on `wg` are each one step. `Start` and `Stop` are called in turn. -/

namespace OnekvmVnc

/-- Where the goroutines stand with a connection. -/
inductive ConnPlace where
  /-- `Accept` has returned it. -/
  | accepted
  /-- The sink was stopped meanwhile, and `acceptLoop` closes it. -/
  | refused
  /-- It is in `clients`. -/
  | registered
  /-- `wg.Add` has counted its `serveClient`. -/
  | added
  /-- The loop of `runClient`, or the handshake before it. -/
  | running
  /-- `continuousUpdater.Stop` waits, in `continuousUpdater.Start`. -/
  | restarting
  /-- `continuousUpdater.Stop` waits. -/
  | pausing
  /-- `continuousUpdater.Stop` waits, at the end of `runClient`. -/
  | leaving
  /-- `runClient` has returned. -/
  | left
  /-- It is in `clients` no more. -/
  | deleted
  | closed
  /-- The goroutine that had it has returned. -/
  | gone
  deriving DecidableEq, Repr

/-- The goroutine of `continuousUpdater`. -/
inductive Updater where
  | none
  | ticking
  /-- Its context is cancelled. -/
  | cancelled
  deriving DecidableEq, Repr

/-- A connection that was accepted. `buffered` is the number of messages that came and were not yet handled. -/
structure Connection where
  place : ConnPlace := .accepted
  updater : Updater := .none
  buffered : Nat := 0
  closed : Bool := false
  inClients : Bool := false
  deriving DecidableEq, Repr

/-- Where `acceptLoop` stands. -/
inductive AcceptPlace where
  | accept
  | holding (conn : Nat)
  /-- It is about to call `wg.Done`. -/
  | returning
  | returned
  deriving DecidableEq, Repr

/-- Where `Stop` stands, with the clients that it has copied. -/
inductive StopPlace where
  | idle
  | cancel (clients : List Nat)
  | closeListener (clients : List Nat)
  | closeClients (clients : List Nat)
  /-- `wg.Wait` -/
  | wait
  deriving DecidableEq, Repr

/-- Connections are numbered in the order in which `Accept` returned them. -/
structure Lifecycle where
  started : Bool := false
  /-- The listener is open. -/
  listening : Bool := false
  /-- The context of `acceptLoop` is cancelled. -/
  cancelled : Bool := false
  acceptor : AcceptPlace := .returned
  conns : List Connection := []
  wg : Int := 0
  stopper : StopPlace := .idle
  deriving DecidableEq, Repr

inductive AcceptAction where
  /-- `Accept` returns a connection. -/
  | connect
  /-- `Accept` fails. -/
  | error
  | check
  | add
  | spawn
  | refuse
  | exit
  deriving DecidableEq, Repr

inductive ConnAction where
  /-- A message comes. -/
  | arrive
  | message
  /-- `EnableContinuousUpdates` -/
  | enable
  | disable
  /-- `continuousUpdater.Stop` returns. -/
  | joined
  /-- The peer, or its message, ends `runClient`. -/
  | fail
  /-- The connection is closed here, and nothing is left to be read. -/
  | eof
  /-- The updater's `Write` fails, and it closes the connection. -/
  | updaterFail
  | updaterStop
  | delete
  | close
  | done
  deriving DecidableEq, Repr

inductive LifecycleAction where
  /-- `Start`, and whether the configuration is valid and can be listened on. -/
  | start (ok : Bool)
  | stop
  /-- `Stop` goes on. -/
  | stopping
  | acceptor (action : AcceptAction)
  | conn (conn : Nat) (action : ConnAction)
  deriving DecidableEq, Repr

namespace Updater

/-- `cancel`, if there is one. -/
def cancel : Updater → Updater
  | .none => .none
  | _ => .cancelled

end Updater

namespace Connection
variable (c : Connection)

/-- `continuousUpdater.Stop` begins, and waits if there is an updater. -/
def stopUpdater (place : ConnPlace) : Connection :=
  { c with place, updater := c.updater.cancel, buffered := c.buffered - 1 }

/-- A step with the connection, apart from `wg`. -/
def step : ConnAction → Option Connection
  | .arrive => if c.place = .running ∧ c.closed = false then some { c with buffered := c.buffered + 1 } else none
  | .message => if c.place = .running ∧ 0 < c.buffered then some { c with buffered := c.buffered - 1 } else none
  | .enable =>
    if c.place = .running ∧ 0 < c.buffered then
      some (if c.updater = .none then { c with updater := .ticking, buffered := c.buffered - 1 }
        else c.stopUpdater .restarting)
    else none
  | .disable =>
    if c.place = .running ∧ 0 < c.buffered then
      some (if c.updater = .none then { c with buffered := c.buffered - 1 } else c.stopUpdater .pausing)
    else none
  | .joined =>
    if c.updater = .none then
      match c.place with
      | .restarting => some { c with place := .running, updater := .ticking }
      | .pausing => some { c with place := .running }
      | .leaving => some { c with place := .left }
      | _ => none
    else none
  | .fail => if c.place = .running then some { c with place := .leaving, updater := c.updater.cancel } else none
  | .eof =>
    if c.place = .running ∧ c.closed = true ∧ c.buffered = 0 then
      some { c with place := .leaving, updater := c.updater.cancel }
    else none
  | .updaterFail => if c.updater ≠ .none then some { c with updater := .none, closed := true } else none
  | .updaterStop => if c.updater = .cancelled then some { c with updater := .none } else none
  | .delete => if c.place = .left then some { c with place := .deleted, inClients := false } else none
  | .close => if c.place = .deleted then some { c with place := .closed, closed := true } else none
  | .done => if c.place = .closed then some { c with place := .gone } else none

end Connection

namespace Lifecycle
variable (s : Lifecycle)

/-- `acceptLoop` goes on with its connection. -/
def handle (conn : Nat) (place : ConnPlace) (f : Connection → Connection) : Option Lifecycle :=
  (s.conns[conn]?).bind fun c => if c.place = place then some { s with conns := s.conns.set conn (f c) } else none

/-- A step of `acceptLoop`. -/
def acceptStep : AcceptAction → AcceptPlace → Option Lifecycle
  | .connect, .accept =>
    if s.listening then some { s with conns := s.conns ++ [{}], acceptor := .holding s.conns.length } else none
  | .error, .accept => some { s with acceptor := if s.cancelled then .returning else .accept }
  | .check, .holding conn =>
    if s.started then s.handle conn .accepted fun c => { c with place := .registered, inClients := true }
    else s.handle conn .accepted fun c => { c with place := .refused }
  | .add, .holding conn => { s with wg := s.wg + 1 }.handle conn .registered fun c => { c with place := .added }
  | .spawn, .holding conn => { s with acceptor := .accept }.handle conn .added fun c => { c with place := .running }
  | .refuse, .holding conn =>
    { s with acceptor := .returning }.handle conn .refused fun c => { c with place := .gone, closed := true }
  | .exit, .returning => some { s with acceptor := .returned, wg := s.wg - 1 }
  | _, _ => none

/-- A step with a connection. `serveClient` calls `wg.Done` at its end. -/
def connStep (conn : Nat) (action : ConnAction) : Option Lifecycle :=
  (s.conns[conn]?).bind fun c => (c.step action).map fun c =>
    { s with conns := s.conns.set conn c, wg := if action = .done then s.wg - 1 else s.wg }

/-- The clients that `Stop` copies. -/
def clients : List Nat := (List.range s.conns.length).filter fun conn => (s.conns[conn]?).any Connection.inClients

/-- `Stop` goes on. -/
def stopStep : StopPlace → Option Lifecycle
  | .idle => none
  | .cancel clients => some { s with cancelled := true, stopper := .closeListener clients }
  | .closeListener clients => some { s with listening := false, stopper := .closeClients clients }
  | .closeClients [] => some { s with stopper := .wait }
  | .closeClients (conn :: rest) =>
    some { s with
      conns := s.conns.modify conn fun c => { c with closed := true }
      stopper := .closeClients rest }
  | .wait => if s.wg = 0 then some { s with stopper := .idle } else none

def step : LifecycleAction → Option Lifecycle
  | .start ok =>
    if s.stopper = .idle then
      if s.started = true ∨ ok = false then some s
      -- No loop is left from before: see `stop_leaves_nothing`.
      else if s.acceptor = .returned then
        some { s with started := true, listening := true, cancelled := false, acceptor := .accept, wg := s.wg + 1 }
      else none
    else none
  | .stop =>
    if s.stopper = .idle then
      some (if s.started then { s with started := false, stopper := .cancel s.clients } else s)
    else none
  | .stopping => s.stopStep s.stopper
  | .acceptor action => s.acceptStep action s.acceptor
  | .conn conn action => s.connStep conn action

end Lifecycle

end OnekvmVnc
