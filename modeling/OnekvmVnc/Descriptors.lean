import OnekvmVnc.Lib.Numbering
import OnekvmVnc.Subscription

/-! The descriptors of the process, which a subscription of `src/protocol_ipc.cpp` shares with all other threads: a new
    one gets the lowest number that is free. The compare-exchange of `CloseOwnedSocket` and its `close` are two steps,
    as are the `socket` of `ConnectUnix` and what follows it. -/

namespace OnekvmVnc

open Numbering

/-- Who has opened a descriptor. -/
inductive Owner where
  /-- The worker of the subscription, in `ConnectUnix`. -/
  | worker
  | other
  deriving DecidableEq, Repr

/-- Where the worker stands in `ConnectUnix`. -/
inductive Dial where
  | idle
  | opened (fd : Nat)
  /-- The connection failed, and the socket is closed. -/
  | abandoned
  deriving DecidableEq, Repr

/-- `ConnectUnix` returns the socket that it has opened, and it returns before anything else is done. -/
def Dial.allows : Dial → Access → Bool
  | .opened fd, a => a = .connected fd
  | _, .connected _ => false
  | _, _ => true

structure Descriptors (ρ : Type) where
  sub : Subscription ρ := {}
  table : Table Owner
  dial : Dial := .idle
  /-- What `CloseOwnedSocket` has taken from `socket_fd_`, and is about to close. -/
  closing : Option Nat := none

inductive DescriptorAction where
  /-- `Start`, and `events_supported_` then. -/
  | start (events : Bool)
  | stop
  | load
  | shutdown
  | join
  /-- `socket` in `ConnectUnix`. -/
  | socket
  /-- `close` in `ConnectUnix`. -/
  | abandon
  | run (outcome : Outcome)
  /-- `close` in `CloseOwnedSocket`. -/
  | close
  /-- Another thread opens or closes a descriptor of its own. -/
  | openOther
  | closeOther (fd : Nat)
  deriving DecidableEq, Repr

namespace Descriptors
variable {ρ : Type} [DecidableEq ρ] (w : Bool → Worker ρ) (s : Descriptors ρ)

/-- A step of the threads, as far as `stopping_` and `socket_fd_` go. -/
def move (events : Bool) (a : SubscriptionAction) : Option (Descriptors ρ) :=
  (Subscription.step (w events) s.sub a).map fun sub => { s with sub }

/-- The access of the worker's next step. -/
def access (outcome : Outcome) : Option Access :=
  s.sub.worker.bind fun pc => ((w false).next pc outcome).map Prod.fst

/-- A step of `Run` is taken when no call is under way. -/
def runStep (outcome : Outcome) : Option (Descriptors ρ) :=
  (s.access w outcome).bind fun a =>
    if s.closing = none ∧ s.dial.allows a = true then
      { s with
        dial := .idle
        closing := if a = Access.closed ∧ s.sub.socketFd = s.sub.socket then s.sub.socket else none }.move w false (.run outcome)
    else none

/-- `w` is what `Run` does, by `events_supported_` at `Start`. -/
def step : DescriptorAction → Option (Descriptors ρ)
  | .start events => s.move w events .start
  | .stop => s.move w false .stop
  | .load => s.move w false .load
  | .shutdown => s.move w false .shutdown
  | .join => if s.closing = none then s.move w false .join else none
  | .socket =>
    let fd := s.table.lowest
    if s.dial = .idle ∧ s.closing = none ∧ s.access w (.fd fd) = some (.connected fd) then
      some { s with table := s.table.add .worker, dial := .opened fd }
    else none
  | .abandon =>
    match s.dial with
    | .opened fd => some { s with table := s.table.remove fd, dial := .abandoned }
    | _ => none
  | .run outcome => s.runStep w outcome
  | .close => s.closing.map fun fd => { s with table := s.table.remove fd, closing := none }
  | .openOther => some { s with table := s.table.add .other }
  | .closeOther fd => if s.table.lookup fd = some .other then some { s with table := s.table.remove fd } else none

/-- The descriptor is the worker's socket, which it has not closed. -/
def Own (fd : Nat) : Prop := (s.sub.socket = some fd ∨ s.closing = some fd) ∧ s.table.lookup fd = some .worker

instance (fd : Nat) : Decidable (s.Own fd) := inferInstanceAs (Decidable (_ ∧ _))

end Descriptors

end OnekvmVnc
