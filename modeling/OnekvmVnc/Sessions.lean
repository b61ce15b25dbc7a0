import OnekvmVnc.Input

/-! The input callbacks of `src/vnc_server.cpp`: `NewClient`, `ClientGone`, `KeyEvent` and
    `PointerEvent`. All clients share one `InputState`, and all callbacks run on its event thread. -/

namespace OnekvmVnc

/-- A client, as the library tells them apart. -/
abbrev ClientId := Nat

/-- A callback, or a step inside one or of the pointer thread. -/
inductive SessionAction where
  | newClient (client : ClientId)
  | clientGone (client : ClientId)
  | keyEvent (client : ClientId) (down : Bool) (key : KeySym)
  | pointerEvent (client : ClientId) (buttonMask : UInt32) (x y : Int)
  | input (action : InputAction)
  deriving DecidableEq, Repr

structure Sessions where
  threads : InputThreads
  clients : Nat := 0
  connected : List ClientId := []
  deriving DecidableEq, Repr

namespace Sessions
variable (s : Sessions)

def inputCall (c : InputCall) : Option Sessions := (s.threads.step (.call c)).map fun threads => { s with threads }

/-- The count of `ClientGone`, which releases the input when no client is left. -/
def clientGone (client : ClientId) : Option Sessions :=
  let s := { s with connected := s.connected.erase client, clients := if s.clients > 0 then s.clients - 1 else s.clients }
  if s.clients = 0 then s.inputCall .release else some s

/-- One callback, which begins only when no other runs, or one step of the threads inside `InputState`. -/
def step : SessionAction → Option Sessions
  | .newClient client =>
    if s.threads.event = .idle ∧ client ∉ s.connected then
      some { s with connected := client :: s.connected, clients := s.clients + 1 }
    else none
  | .clientGone client => if s.threads.event = .idle ∧ client ∈ s.connected then s.clientGone client else none
  | .keyEvent client down key => if client ∈ s.connected then s.inputCall (.key down key) else none
  | .pointerEvent client buttonMask x y =>
    if client ∈ s.connected then s.inputCall (.pointer buttonMask x y) else none
  | .input (.call _) => none
  | .input action => (s.threads.step action).map fun threads => { s with threads }

def start (width height : UInt16) (nextFlush : Int) : Sessions := { threads := .start width height nextFlush }

end Sessions

end OnekvmVnc
