/-! The shared media ring of `src/protocol_ipc.cpp` and `TakeLatestFrame`. Another process writes the
    slots and the reader takes them, each atomic load, store and compare-exchange in one step; the slots
    of frames taken earlier become free whenever their lease is dropped. -/

namespace OnekvmVnc

/-- `kRingStateFree`, `kRingStateReady` and `kRingStateReading`. -/
inductive RingState where
  | free
  | ready
  | reading
  deriving DecidableEq, Repr

/-- A slot: its state, then the header that the writer filled in. -/
structure RingSlot where
  state : RingState := .free
  payloadSize : UInt32
  sequence : UInt64
  durationUs : UInt32
  width : UInt16
  height : UInt16
  codec : UInt8
  deriving DecidableEq, Repr

structure Ring where
  slotCount : Nat
  slotCapacity : UInt32
  /-- Set by the writer after a publication, cleared by the reader before a scan. -/
  notified : UInt32 := 1
  slots : Nat → RingSlot
  /-- The sequence of the newest frame published so far. -/
  lastSequence : UInt64

def kMJPEG : UInt8 := 3

/-- A frame that `TakeLatestFrame` returns, with the slot that its lease holds. -/
structure LeasedFrame where
  slot : Nat
  size : UInt32
  width : UInt16
  height : UInt16
  durationUs : UInt32
  deriving DecidableEq, Repr

/-- Where the reader stands in `TakeLatestFrame`. -/
inductive Reader where
  | start
  | scan (index : Nat) (selected : Option Nat) (newestSequence : UInt64)
  | claim (selected : Nat)
  | sweep (index selected : Nat)
  | validate (selected : Nat)
  | returned (frame : Option LeasedFrame)
  deriving DecidableEq, Repr

/-- A step of the call, a publication of the writer, or the end of a lease of an earlier frame. -/
inductive RingAction where
  | read
  | publish (index : Nat) (header : RingSlot)
  | release (index : Nat)
  deriving DecidableEq, Repr

namespace Reader

def owned : Reader → Option Nat
  | .sweep _ selected | .validate selected => some selected
  | _ => none

/-- The scan has still to read the slot. -/
def unscanned (r : Reader) (i : Nat) : Bool :=
  match r with
  | .start => true
  | .scan index _ _ => index ≤ i
  | _ => false

/-- The scan has read the slot and the sweep has still to reach it. -/
def unswept (r : Reader) (i : Nat) : Bool :=
  match r with
  | .scan index _ _ => i < index
  | .claim _ => true
  | .sweep index _ => index ≤ i
  | _ => false

end Reader

/-- One call of `TakeLatestFrame` among the steps of the writer. -/
structure RingCall where
  ring : Ring
  reader : Reader := .start
  /-- The sequences of the frames that the sweep moved from READY to FREE. -/
  released : List UInt64 := []
  /-- Of the frames published before their slot is swept, the last one went to a slot that the scan had
      already passed. -/
  overtaken : Bool := false

namespace Ring

def setState (ring : Ring) (i : Nat) (state : RingState) : Ring :=
  { ring with slots := fun j => if j = i then { ring.slots i with state } else ring.slots j }

/-- The slot holds a new frame, which is the newest one. -/
def put (ring : Ring) (i : Nat) (header : RingSlot) : Ring :=
  { ring with
    slots := fun j => if j = i then { header with state := .ready } else ring.slots j
    lastSequence := header.sequence }

/-- The check of the header that the call makes of the slot it claimed. -/
def valid (ring : Ring) (slot : RingSlot) : Bool :=
  !(slot.payloadSize = 0 || slot.payloadSize > ring.slotCapacity || slot.width = 0 || slot.height = 0 ||
    slot.codec ≠ kMJPEG)

end Ring

namespace RingCall
variable (c : RingCall)

/-- The scan reads one slot, and keeps it if it is ready and newer than the one selected. -/
def scan (index : Nat) (selected : Option Nat) (newestSequence : UInt64) : RingCall :=
  let slot := c.ring.slots index
  if slot.state = .ready ∧ (selected = none ∨ slot.sequence > newestSequence) then
    { c with reader := .scan (index + 1) (some index) slot.sequence }
  else { c with reader := .scan (index + 1) selected newestSequence }

/-- The sweep frees one slot other than the selected one, if it is ready. -/
def sweep (index selected : Nat) : RingCall :=
  if index ≠ selected ∧ (c.ring.slots index).state = .ready then
    { c with
      ring := c.ring.setState index .free
      reader := .sweep (index + 1) selected
      released := c.released ++ [(c.ring.slots index).sequence] }
  else { c with reader := .sweep (index + 1) selected }

def read : Option RingCall :=
  match c.reader with
  | .start => some { c with ring := { c.ring with notified := 0 }, reader := .scan 0 none 0 }
  | .scan index selected newestSequence =>
    if index < c.ring.slotCount then some (c.scan index selected newestSequence)
    else
      match selected with
      | none => some { c with reader := .returned none }
      | some selected => some { c with reader := .claim selected }
  | .claim selected =>
    if (c.ring.slots selected).state = .ready then
      some { c with ring := c.ring.setState selected .reading, reader := .sweep 0 selected }
    else some { c with reader := .returned none }
  | .sweep index selected =>
    if index < c.ring.slotCount then some (c.sweep index selected) else some { c with reader := .validate selected }
  | .validate selected =>
    let slot := c.ring.slots selected
    if c.ring.valid slot then
      some { c with
        reader := .returned (some
          { slot := selected, size := slot.payloadSize, width := slot.width, height := slot.height,
            durationUs := slot.durationUs }) }
    else some { c with ring := c.ring.setState selected .free, reader := .returned none }
  | .returned _ => none

/-- The writer turns a free slot into a ready one, with a sequence above every earlier one. -/
def publish (index : Nat) (header : RingSlot) : Option RingCall :=
  if index < c.ring.slotCount ∧ (c.ring.slots index).state = .free ∧ c.ring.lastSequence < header.sequence then
    some { c with
      ring := c.ring.put index header
      overtaken := if c.reader.unswept index then true else if c.reader.unscanned index then false else c.overtaken }
  else none

/-- The lease of an earlier frame ends: `RingLease` stores FREE. -/
def release (index : Nat) : Option RingCall :=
  if (c.ring.slots index).state = .reading ∧ c.reader.owned ≠ some index then
    some { c with ring := c.ring.setState index .free }
  else none

/-- One step while the call has not returned. -/
def step : RingAction → Option RingCall
  | .read => c.read
  | .publish index header => if c.reader matches .returned _ then none else c.publish index header
  | .release index => if c.reader matches .returned _ then none else c.release index

end RingCall

end OnekvmVnc
