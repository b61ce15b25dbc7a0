import OnekvmVnc.Input

/-! `inputState` in `internal/vnc/input.go`. Every client of `Sink` has its own, and all of them report to one HID
    controller. A section under `mu` changes the state and then makes its calls of the controller, one after another;
    calls of other clients may come between. -/

namespace OnekvmVnc

/-- `inputState`. `controller` says that there is one. -/
structure SinkInput where
  controller : Bool
  width : UInt16
  height : UInt16
  modifiers : UInt8 := 0
  /-- `keys`, a map. -/
  keys : List (KeySym × UInt8) := []
  buttons : UInt16 := 0
  deriving DecidableEq, Repr

/-- A call of one of the methods, with what it reads of the event. -/
inductive SinkInputCall where
  /-- `key`, with `event.Down != 0`. -/
  | key (down : Bool) (key : KeySym)
  | pointer (mask : UInt8) (x y : UInt16)
  | release
  | resize (width height : UInt16)
  deriving DecidableEq, Repr

namespace SinkInput

def modifierBit (key : KeySym) : Option UInt8 :=
  [(0xffe3, 0x01),  -- ControlLeft
   (0xffe1, 0x02),  -- ShiftLeft
   (0xffe9, 0x04),  -- AltLeft
   (0xffe7, 0x08), (0xffeb, 0x08),  -- MetaLeft, SuperLeft
   (0xffe4, 0x10),  -- ControlRight
   (0xffe2, 0x20),  -- ShiftRight
   (0xffea, 0x40),  -- AltRight
   (0xffe8, 0x80), (0xffec, 0x80)].lookup key  -- MetaRight, SuperRight

/-- The cases of the `switch` in `usbUsage`. -/
def usages : List (KeySym × UInt8) :=
  [(0x30, 0x27),  -- Digit0
   (0xff0d, 0x28),  -- Return
   (0xff1b, 0x29),  -- Escape
   (0xff08, 0x2a),  -- BackSpace
   (0xff09, 0x2b),  -- Tab
   (0x20, 0x2c),  -- Space
   (0x2d, 0x2d), (0x5f, 0x2d),  -- Minus, Underscore
   (0x3d, 0x2e), (0x2b, 0x2e),  -- Equal, Plus
   (0x5b, 0x2f), (0x7b, 0x2f),  -- BracketLeft, BraceLeft
   (0x5d, 0x30), (0x7d, 0x30),  -- BracketRight, BraceRight
   (0x5c, 0x31), (0x7c, 0x31),  -- Backslash, Bar
   (0x3b, 0x33), (0x3a, 0x33),  -- Semicolon, Colon
   (0x27, 0x34), (0x22, 0x34),  -- Apostrophe, QuoteDbl
   (0x60, 0x35), (0x7e, 0x35),  -- Grave, AsciiTilde
   (0x2c, 0x36), (0x3c, 0x36),  -- Comma, Less
   (0x2e, 0x37), (0x3e, 0x37),  -- Period, Greater
   (0x2f, 0x38), (0x3f, 0x38),  -- Slash, Question
   (0xffe5, 0x39),  -- CapsLock
   (0xffbe, 0x3a), (0xffbf, 0x3b), (0xffc0, 0x3c), (0xffc1, 0x3d), (0xffc2, 0x3e), (0xffc3, 0x3f),  -- F1 to F6
   (0xffc4, 0x40), (0xffc5, 0x41), (0xffc6, 0x42), (0xffc7, 0x43), (0xffc8, 0x44), (0xffc9, 0x45),  -- F7 to F12
   (0xff61, 0x46),  -- XK_Print
   (0xff14, 0x47),  -- ScrollLock
   (0xff13, 0x48),  -- Pause
   (0xff63, 0x49),  -- XK_Insert
   (0xff50, 0x4a),  -- Home
   (0xff55, 0x4b),  -- PageUp
   (0xffff, 0x4c),  -- Delete
   (0xff57, 0x4d),  -- End
   (0xff56, 0x4e),  -- PageDown
   (0xff53, 0x4f),  -- Right
   (0xff51, 0x50),  -- Left
   (0xff54, 0x51),  -- Down
   (0xff52, 0x52)]  -- Up

def usbUsage (key : KeySym) : Option UInt8 :=
  if 0x61 ≤ key ∧ key ≤ 0x7a then some (0x04 + (key - 0x61).toUInt8)
  else if 0x41 ≤ key ∧ key ≤ 0x5a then some (0x04 + (key - 0x41).toUInt8)
  else if 0x31 ≤ key ∧ key ≤ 0x39 then some (0x1e + (key - 0x31).toUInt8)
  else usages.lookup key

variable (s : SinkInput)

/-- The keys of a report: the six smallest usages. -/
def reportKeys : List UInt8 := ((s.keys.map (·.2)).insertionSort (· ≤ ·)).take 6

/-- What `key` changes. -/
def pressKey (down : Bool) (key : KeySym) : SinkInput :=
  match modifierBit key with
  | some bit => { s with modifiers := if down then s.modifiers ||| bit else s.modifiers &&& ~~~bit }
  | none =>
    match usbUsage key with
    | some usage =>
      let others := s.keys.filter (·.1 ≠ key)
      { s with keys := if down then (key, usage) :: others else others }
    | none => s

/-- The report is sent whether the symbol is mapped or not. -/
def key (down : Bool) (key : KeySym) : SinkInput × List HIDRequest :=
  if s.controller then
    let t := s.pressKey down key
    (t, [.keyboard t.modifiers t.reportKeys])
  else (s, [])

def maskButtons (mask : UInt8) : UInt16 :=
  let buttons := (mask &&& 0x07).toUInt16
  let buttons := if mask &&& 0x20 ≠ 0 then buttons ||| ((1 : UInt16) <<< 3) else buttons
  if mask &&& 0x40 ≠ 0 then buttons ||| ((1 : UInt16) <<< 4) else buttons

/-- A coordinate is divided without a look at the extent; the conversion to 16 bits truncates. -/
def coordinate (value extent : UInt16) : UInt16 :=
  if extent > 1 then (value.toUInt32 * 32767 / (extent - 1).toUInt32).toUInt16 else 0

def maskWheel (mask : UInt8) : Int := if mask &&& 0x08 ≠ 0 then 1 else if mask &&& 0x10 ≠ 0 then -1 else 0

def pointer (mask : UInt8) (x y : UInt16) : SinkInput × List HIDRequest :=
  if s.controller then
    let buttons := maskButtons mask
    let wheel := maskWheel mask
    ({ s with buttons }, .absoluteMouse buttons (coordinate x s.width) (coordinate y s.height) ::
      if wheel ≠ 0 then [.mouse buttons.toUInt8 wheel] else [])
  else (s, [])

/-- The state stays as it is. -/
def release : SinkInput × List HIDRequest :=
  if s.controller then
    (s, (if s.modifiers ≠ 0 ∨ s.keys ≠ [] then [.keyboard 0 []] else []) ++
      if s.buttons ≠ 0 then [.absoluteMouse 0 0 0] else [])
  else (s, [])

def call : SinkInputCall → SinkInput × List HIDRequest
  | .key down key => s.key down key
  | .pointer mask x y => s.pointer mask x y
  | .release => s.release
  | .resize width height => ({ s with width, height }, [])

end SinkInput

/-! ### Clients that share a controller -/

/-- A client's input. A call holds `mu` while `pending` has calls of the controller that are still to be made. -/
structure SinkInputClient where
  input : SinkInput
  pending : List HIDRequest := []
  /-- `runClient` has called `release`, and reads no more events. -/
  released : Bool := false
  deriving DecidableEq, Repr

/-- `issued` is a ghost: the calls of the controller, each with its client. -/
structure SinkHID where
  controller : Bool
  clients : List SinkInputClient := []
  issued : List (Nat × HIDRequest) := []
  deriving DecidableEq, Repr

inductive SinkHIDAction where
  /-- `newInputState`. -/
  | connect (width height : UInt16)
  | call (i : Nat) (call : SinkInputCall)
  /-- The next call of the controller. -/
  | send (i : Nat)
  deriving DecidableEq, Repr

def SinkInputCall.resizes : SinkInputCall → Bool
  | .resize _ _ => true
  | _ => false

namespace SinkInputClient
variable (c : SinkInputClient)

/-- A call gets `mu`. Behind `release`, only a continuous update may still resize. -/
def call (call : SinkInputCall) : Option SinkInputClient :=
  if c.pending = [] ∧ (c.released = true → call.resizes = true) then
    let (input, pending) := c.input.call call
    some { input, pending, released := c.released || call = .release }
  else none

end SinkInputClient

namespace SinkHID
variable (s : SinkHID)

def step : SinkHIDAction → Option SinkHID
  | .connect width height =>
    some { s with clients := s.clients ++ [{ input := { controller := s.controller, width, height } }] }
  | .call i call =>
    match s.clients[i]? with
    | some c => (c.call call).map fun c => { s with clients := s.clients.set i c }
    | none => none
  | .send i =>
    match s.clients[i]? with
    | some c =>
      match c.pending with
      | request :: pending =>
        some { s with clients := s.clients.set i { c with pending }, issued := s.issued ++ [(i, request)] }
      | [] => none
    | none => none

end SinkHID

end OnekvmVnc
