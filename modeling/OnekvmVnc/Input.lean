import Mathlib.Data.List.Sort
import OnekvmVnc.Keymap

/-! `InputState` of `src/vnc_server.cpp` and its two threads. The event thread runs `Key`, `Pointer`,
    `Resize` and `Release`; the pointer thread runs `PointerLoop`. `InputState` holds the members of
    the class; `InputThreads` adds where each thread stands and the HID requests issued so far, and
    its `step` is one critical section or one HID request of either thread. -/

namespace OnekvmVnc

/-- A duration in nanoseconds, the unit of every `steady_clock` time of the model. -/
def milliseconds (n : Int) : Int := n * 1000000

/-- What `AdminHID` posts: `SendKeyboard`, `SendAbsoluteMouse` and `SendMouse`. -/
inductive HIDRequest where
  | keyboard (modifiers : UInt8) (keys : List UInt8)
  | absoluteMouse (buttons x y : UInt16)
  | mouse (buttons : UInt8) (wheel : Int)
  deriving DecidableEq, Repr

/-- A request that was posted, and whether the target accepted it. -/
structure Issued where
  request : HIDRequest
  accepted : Bool
  deriving DecidableEq, Repr

structure PointerReport where
  buttons : UInt16
  x : UInt16
  y : UInt16
  wheel : Int
  generation : Nat
  deriving DecidableEq, Repr

/-- RFB orders the first three buttons as left, middle, right, USB HID as left, right, middle. -/
def rfbButtonsToHID (buttonMask : UInt32) : UInt16 :=
  let buttons := (buttonMask &&& 0x01).toUInt16
  let buttons := if buttonMask &&& 0x02 ≠ 0 then buttons ||| ((1 : UInt16) <<< 2) else buttons
  let buttons := if buttonMask &&& 0x04 ≠ 0 then buttons ||| ((1 : UInt16) <<< 1) else buttons
  let buttons := if buttonMask &&& 0x20 ≠ 0 then buttons ||| ((1 : UInt16) <<< 3) else buttons
  if buttonMask &&& 0x40 ≠ 0 then buttons ||| ((1 : UInt16) <<< 4) else buttons

def wheelOf (buttonMask : UInt32) : Int :=
  if buttonMask &&& 0x08 ≠ 0 then 1 else if buttonMask &&& 0x10 ≠ 0 then -1 else 0

def clamp (value low high : Int) : Int := if value < low then low else if high < value then high else value

/-- A framebuffer coordinate scaled to the 0..32767 of an absolute report. -/
def absoluteCoordinate (value : Int) (extent : UInt16) : UInt16 :=
  let clamped := clamp value 0 (extent.toNat - 1)
  if extent > 1 then ((UInt32.ofInt clamped) * 32767 / (extent.toUInt32 - 1)).toUInt16 else 0

structure InputState where
  width : UInt16 := 1
  height : UInt16 := 1
  modifiers : UInt8 := 0
  /-- `keys_`, an unordered map. -/
  keys : List (KeySym × UInt8) := []
  pointerStopping : Bool := false
  pointerPending : Bool := false
  pointerButtons : UInt16 := 0
  pointerX : UInt16 := 0
  pointerY : UInt16 := 0
  pointerUrgent : List PointerReport := []
  pointerGeneration : Nat := 0
  pointerCompletedGeneration : Nat := 0
  deriving DecidableEq, Repr

namespace InputState
variable (s : InputState)

/-- The request of `SendKeyboard`: the modifiers and the six smallest usages held. -/
def sendKeyboard : HIDRequest :=
  .keyboard s.modifiers (((s.keys.map (·.2)).insertionSort (· ≤ ·)).take 6)

/-- `Key` after its `FlushPointer(true)` returned: the new state and the request to post, if any. -/
def key (down : Bool) (key : KeySym) : InputState × Option HIDRequest :=
  let modifier := keyToMod key
  if modifier ≠ 0 then
    let s := { s with modifiers := if down then s.modifiers ||| modifier else s.modifiers &&& ~~~modifier }
    (s, some s.sendKeyboard)
  else
    let usage := keyToScancode key
    if usage = 0 then (s, none)
    else
      let others := s.keys.filter (·.1 ≠ key)
      let s := { s with keys := if down then (key, usage) :: others else others }
      (s, some s.sendKeyboard)

/-- The report of a pointer event, numbered with the next generation. -/
def report (buttonMask : UInt32) (x y : Int) : PointerReport :=
  { buttons := rfbButtonsToHID buttonMask
    x := absoluteCoordinate x s.width
    y := absoluteCoordinate y s.height
    wheel := wheelOf buttonMask
    generation := s.pointerGeneration + 1 }

/-- A report that cannot share the coalescing slot: a button transition or a wheel tick. -/
def urgent (r : PointerReport) : Bool := r.buttons ≠ s.pointerButtons || r.wheel ≠ 0

def pointer (buttonMask : UInt32) (x y : Int) : InputState :=
  let r := s.report buttonMask x y
  let t := { s with
    pointerButtons := r.buttons
    pointerX := r.x
    pointerY := r.y
    pointerGeneration := r.generation }
  if s.urgent r then
    -- The urgent report carries the newest coordinates, so it supersedes a pending movement.
    { t with pointerPending := false, pointerUrgent := s.pointerUrgent ++ [r] }
  else { t with pointerPending := true }

/-- The report `PointerLoop` makes of the coalescing slot. -/
def motion : PointerReport :=
  { buttons := s.pointerButtons, x := s.pointerX, y := s.pointerY, wheel := 0, generation := s.pointerGeneration }

def resize (width height : UInt16) : InputState := { s with width := max width 1, height := max height 1 }

/-- The first critical section of `Release`: buttons still down are let go by an urgent report. -/
def releaseButtons : InputState × Bool :=
  if s.pointerButtons ≠ 0 then
    let generation := s.pointerGeneration + 1
    ({ s with
        pointerButtons := 0
        pointerGeneration := generation
        pointerPending := false
        pointerUrgent := s.pointerUrgent ++
          [{ buttons := 0, x := s.pointerX, y := s.pointerY, wheel := 0, generation }] }, true)
  else (s, false)

/-- The end of `Release`: the request to post, if any key or modifier is held, and the state after. -/
def releaseKeys : InputState × Option HIDRequest :=
  ({ s with modifiers := 0, keys := [] },
    if s.modifiers ≠ 0 ∨ s.keys ≠ [] then some (.keyboard 0 []) else none)

end InputState

/-- Where the event thread stands. The generations are the ones `FlushPointer(true)` waits for. -/
inductive EventThread where
  | idle
  | keyFlush (down : Bool) (key : KeySym) (generation : Nat)
  | keySend (request : HIDRequest)
  | releaseFlush (generation : Nat)
  | releaseButtons
  | releaseFlushAgain (generation : Nat)
  | releaseKeys
  deriving DecidableEq, Repr

/-- A wait of `PointerLoop` on `pointer_changed_`, without a deadline or until `next_flush`. -/
inductive PointerWait where
  | forReport
  | forDeadline (nextFlush : Int)
  deriving DecidableEq, Repr

/-- Where the pointer thread stands: at the top of the loop, or in `SendPointer` outside the lock with
    the absolute report, the rest of the wheel or nothing left to post. -/
inductive PointerThread where
  | top
  | sendAbsolute (report : PointerReport)
  | sendWheel (report : PointerReport) (wheel : Int)
  | sent (report : PointerReport)
  deriving DecidableEq, Repr

inductive InputCall where
  | key (down : Bool) (key : KeySym)
  | pointer (buttonMask : UInt32) (x y : Int)
  | resize (width height : UInt16)
  | release
  | stop
  deriving DecidableEq, Repr

/-- One step of a thread. `accepted` is the outcome of the HID request the step posts, if it posts one. -/
inductive InputAction where
  | call (call : InputCall)
  | resume (accepted : Bool)
  | take (now : Int)
  | send (accepted : Bool)
  | complete
  deriving DecidableEq, Repr

structure InputThreads where
  input : InputState
  event : EventThread := .idle
  loop : PointerThread := .top
  nextFlush : Int
  issued : List Issued := []
  deriving DecidableEq, Repr

def pointerFlushInterval : Int := milliseconds 33

/-- The fixed cadence of `PointerLoop`: missed ticks are skipped, not sent in a burst. -/
def skipTicks (nextFlush now : Int) : Int :=
  if nextFlush + pointerFlushInterval ≤ now then skipTicks (nextFlush + pointerFlushInterval) now
  else nextFlush + pointerFlushInterval
termination_by (now - nextFlush).toNat
decreasing_by
  have hpos : 0 < pointerFlushInterval := by decide
  omega

namespace InputThreads
variable (s : InputThreads)

def post (request : HIDRequest) (accepted : Bool) : InputThreads :=
  { s with issued := s.issued ++ [{ request, accepted }] }

def post? (request : Option HIDRequest) (accepted : Bool) : InputThreads :=
  match request with
  | some request => s.post request accepted
  | none => s

def flushed (generation : Nat) : Bool :=
  s.input.pointerStopping || generation ≤ s.input.pointerCompletedGeneration

/-- A call starts: `Pointer` and `Resize` are done at once, `Key` and `Release` begin with
    `FlushPointer(true)`, which remembers the generation to wait for. -/
def call : InputCall → Option InputThreads
  | .key down key => some { s with event := .keyFlush down key s.input.pointerGeneration }
  | .pointer buttonMask x y => some { s with input := s.input.pointer buttonMask x y }
  | .resize width height => some { s with input := s.input.resize width height }
  | .release => some { s with event := .releaseFlush s.input.pointerGeneration }
  | .stop => some { s with input := { s.input with pointerStopping := true } }

/-- The event thread goes on inside `Key` or `Release`, once what it waits for has happened. -/
def resume (accepted : Bool) : Option InputThreads :=
  match s.event with
  | .idle => none
  | .keyFlush down key generation =>
    if s.flushed generation then
      let (input, request) := s.input.key down key
      some { s with input, event := match request with | some request => .keySend request | none => .idle }
    else none
  | .keySend request => some { s.post request accepted with event := .idle }
  | .releaseFlush generation => if s.flushed generation then some { s with event := .releaseButtons } else none
  | .releaseButtons =>
    let (input, released) := s.input.releaseButtons
    some { s with
      input
      event := if released then .releaseFlushAgain input.pointerGeneration else .releaseKeys }
  | .releaseFlushAgain generation => if s.flushed generation then some { s with event := .releaseKeys } else none
  | .releaseKeys =>
    let (input, request) := s.input.releaseKeys
    some { s.post? request accepted with input, event := .idle }

/-- `PointerLoop` takes a report: the urgent head, or the coalesced motion once `next_flush` is due. -/
def take (now : Int) : Option InputThreads :=
  if s.input.pointerStopping || s.loop ≠ .top then none
  else
    match s.input.pointerUrgent with
    | report :: rest =>
      some { s with input := { s.input with pointerUrgent := rest }, loop := .sendAbsolute report }
    | [] =>
      if s.input.pointerPending && s.nextFlush ≤ now then
        some { s with
          input := { s.input with pointerPending := false }
          loop := .sendAbsolute s.input.motion
          nextFlush := skipTicks s.nextFlush now }
      else none

/-- The wait that `PointerLoop` begins at the top of the loop, unless it takes a report. -/
def wait (now : Int) : Option PointerWait :=
  if s.input.pointerUrgent = [] ∧ s.input.pointerPending = false then some .forReport
  else if s.input.pointerUrgent = [] ∧ now < s.nextFlush then some (.forDeadline s.nextFlush)
  else none

/-- A wait is over, by its predicate or its deadline. -/
def wakes (now : Int) : PointerWait → Bool
  | .forReport => s.input.pointerStopping || s.input.pointerUrgent ≠ [] || s.input.pointerPending
  | .forDeadline nextFlush => s.input.pointerStopping || s.input.pointerUrgent ≠ [] || decide (nextFlush ≤ now)

/-- `SendPointer` goes on after a request: the wheel is posted in steps of at most 127. -/
def afterSend (report : PointerReport) (wheel : Int) : PointerThread :=
  if wheel ≠ 0 then .sendWheel report wheel else .sent report

/-- `SendPointer` posts its next request, outside the lock. -/
def send (accepted : Bool) : Option InputThreads :=
  match s.loop with
  | .sendAbsolute r =>
    some { s.post (.absoluteMouse r.buttons r.x r.y) accepted with loop := afterSend r r.wheel }
  | .sendWheel r wheel =>
    let step := clamp wheel (-127) 127
    some { s.post (.mouse r.buttons.toUInt8 step) accepted with loop := afterSend r (wheel - step) }
  | _ => none

/-- `PointerLoop` records the completion of the report it sent. -/
def complete : Option InputThreads :=
  match s.loop with
  | .sent r =>
    some { s with
      input := { s.input with
        pointerCompletedGeneration := max s.input.pointerCompletedGeneration r.generation }
      loop := .top }
  | _ => none

/-- One step of either thread, `none` where the thread cannot take it. -/
def step : InputAction → Option InputThreads
  | .call c => if s.event = .idle ∧ s.input.pointerStopping = false then s.call c else none
  | .resume accepted => s.resume accepted
  | .take now => s.take now
  | .send accepted => s.send accepted
  | .complete => s.complete

/-- `InputState` with its members initialised, for a framebuffer of the given size. The constructor starts the thread
    before the members behind `pointer_thread_` are. -/
def start (width height : UInt16) (nextFlush : Int) : InputThreads :=
  { input := InputState.resize {} width height, nextFlush }

end InputThreads

-- The assertions next to `RFBButtonsToHID`.
example : rfbButtonsToHID 0x01 = 0x01 ∧ rfbButtonsToHID 0x02 = 0x04 ∧ rfbButtonsToHID 0x04 = 0x02 ∧
    rfbButtonsToHID 0x07 = 0x07 := by decide

end OnekvmVnc
