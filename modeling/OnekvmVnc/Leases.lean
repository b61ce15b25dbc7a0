import OnekvmVnc.Lib.Sharing
import OnekvmVnc.Ring

/-! The frames that share a slot of the media ring: `RingLease` of `src/protocol_ipc.cpp`, kept alive by the
    `JPEGFrame`s of `MediaSubscription::Run` and of `src/vnc_server.cpp`. The reader thread takes frames, the
    event thread copies and drops them, and the writer fills the slots that nobody reads. -/

namespace OnekvmVnc

open Sharing

/-- `RingLease`: when the last frame that shares it goes, it stores FREE in its slot. -/
structure RingLease where
  /-- Which claim of the reader it is for. -/
  claim : Nat
  slot : Nat
  deriving DecidableEq, Repr

/-- Where a `JPEGFrame` is kept. -/
inductive FrameHolder where
  /-- The local of `MediaSubscription::Run`, until it is moved to `SetFrame`. -/
  | taken
  /-- `latest_frame_`. -/
  | latest
  /-- The local of `ProcessFrame`. -/
  | processed
  /-- `pending_jpeg` of a client. -/
  | pending (client : Nat)
  deriving DecidableEq, Repr

/-- A slot that the reader moved from READY to READING, with the sequence it found there. -/
structure Claim where
  slot : Nat
  sequence : UInt64
  deriving DecidableEq, Repr

structure Leases where
  ring : Ring
  reader : Reader := .returned none
  /-- The `owner` pointers of the frames. -/
  frames : Shared FrameHolder RingLease := .empty
  clients : List Nat := []
  claims : List Claim := []
  /-- The claims whose slot has been stored FREE. -/
  freed : List Nat := []

inductive LeaseAction where
  /-- The reader calls `TakeLatestFrame`. -/
  | take
  | read
  | publish (index : Nat) (header : RingSlot)
  /-- The writer takes a ready slot back. -/
  | withdraw (index : Nat)
  | setFrame
  | clearLatestFrame
  /-- `ProcessFrame` copies `latest_frame_`. -/
  | copyFrame
  /-- `ProcessFrame` returns. -/
  | dropFrame
  | queueJPEG (client : Nat)
  /-- `FlushJPEGWrites` is done with a client's JPEG: it was written, timed out or failed. -/
  | flushJPEG (client : Nat)
  | newClient (client : Nat)
  | clientGone (client : Nat)
  deriving DecidableEq, Repr

namespace Leases
variable (s : Leases)

/-- A frame is assigned to a holder; the lease that the holder drops ends if nobody else shares it. -/
def assign (holder : FrameHolder) (lease : Option RingLease) : Leases :=
  let frames := s.frames.assign holder lease
  match s.frames.holds holder with
  | none => { s with frames }
  | some old =>
    if frames.useCount old = 0 then
      { s with frames, ring := s.ring.setState old.slot .free, freed := s.freed ++ [old.claim] }
    else { s with frames }

/-- A step of `TakeLatestFrame`. A claim is recorded, and ends at once if the header is not valid; else the
    frame that is returned starts its lease. -/
def read : Option Leases :=
  (RingCall.read { ring := s.ring, reader := s.reader }).map fun call =>
    let t := { s with ring := call.ring, reader := call.reader }
    match s.reader, call.reader with
    | .claim _, .sweep _ selected => { t with claims := s.claims ++ [⟨selected, (s.ring.slots selected).sequence⟩] }
    | .validate _, .returned (some frame) => t.assign .taken (some ⟨s.claims.length - 1, frame.slot⟩)
    | .validate _, .returned none => { t with freed := s.freed ++ [s.claims.length - 1] }
    | _, _ => t

/-- The writer publishes a frame in a slot that is not being read, with a sequence above every earlier one. -/
def publish (index : Nat) (header : RingSlot) : Option Leases :=
  if index < s.ring.slotCount ∧ (s.ring.slots index).state ≠ .reading ∧ s.ring.lastSequence < header.sequence then
    some { s with ring := s.ring.put index header }
  else none

def withdraw (index : Nat) : Option Leases :=
  if (s.ring.slots index).state = .ready then some { s with ring := s.ring.setState index .free } else none

def step : LeaseAction → Option Leases
  | .take =>
    match s.reader, s.frames.holds .taken with
    | .returned _, none => some { s with reader := .start }
    | _, _ => none
  | .read => s.read
  | .publish index header => s.publish index header
  | .withdraw index => s.withdraw index
  | .setFrame =>
    -- The frame is moved: `latest_frame_` has it before the reader's local is emptied.
    (s.frames.holds .taken).map fun lease => (s.assign .latest (some lease)).assign .taken none
  | .clearLatestFrame => some (s.assign .latest none)
  | .copyFrame =>
    if s.frames.holds .processed = none then some (s.assign .processed (s.frames.holds .latest)) else none
  | .dropFrame => some (s.assign .processed none)
  | .queueJPEG client =>
    match s.frames.holds .processed, s.frames.holds (.pending client) with
    | some lease, none => if client ∈ s.clients then some (s.assign (.pending client) (some lease)) else none
    | _, _ => none
  | .flushJPEG client => if client ∈ s.clients then some (s.assign (.pending client) none) else none
  | .newClient client => if client ∈ s.clients then none else some { s with clients := client :: s.clients }
  | .clientGone client =>
    if client ∈ s.clients then
      some { s.assign (.pending client) none with clients := s.clients.erase client }
    else none

end Leases

end OnekvmVnc
