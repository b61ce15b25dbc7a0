import OnekvmVnc.Sink.H264

/-! The viewers of `Sink` in `internal/vnc/sink.go`: `runClient` of each connection from its handshake to its
    return, with the switches between encodings, and what they share under `mu` and `jpegMu`. A section under
    `mu` is one step, and so is a call of `OnDemandChange`; the calls of `WriteVideo` run in between. -/

namespace OnekvmVnc

inductive ClientEncoding where
  | none
  | raw
  | jpeg
  | h264
  deriving DecidableEq, Repr

/-- `Config`, as far as it decides what viewers get. -/
structure SinkConfig where
  /-- `Codec` is `av.CodecH264`. -/
  codecH264 : Bool
  /-- `JPEGEncoder` is not nil. -/
  jpegEncoder : Bool
  jpegInput : Bool
  /-- `OnDemandChange` is not nil. -/
  onDemandChange : Bool
  deriving DecidableEq, Repr

/-! ### The encodings of a client -/

def encTight : Int := 7
def h264EncodingType : Int := 0x48323634

namespace SinkConfig
variable (cfg : SinkConfig) (encodings : List Int)

/-- What a client gets if it cannot have JPEG. -/
def fallbackEncoding : ClientEncoding :=
  if encodings.contains h264EncodingType && cfg.codecH264 then .h264 else .raw

/-- What a client is to get that sends these encodings. -/
def desiredEncoding : ClientEncoding :=
  if encodings.contains encTight && (cfg.jpegInput || cfg.jpegEncoder) then .jpeg else cfg.fallbackEncoding encodings

end SinkConfig

/-- Where `switchClientEncoding` stands. -/
inductive SwitchStage where
  | begin
  /-- It reads `jpegEncoder`. -/
  | read
  /-- It calls the factory. -/
  | create
  /-- It changes the counters. -/
  | count
  deriving DecidableEq, Repr

/-- Who called `switchClientEncoding`. -/
inductive SwitchCaller where
  /-- `SetEncoding` with the desired encoding, and what it is called with again after an error. -/
  | desired (fallback : ClientEncoding)
  | fallback
  | close
  deriving DecidableEq, Repr

/-- Where `runClient` stands. -/
inductive ClientPlace where
  | handshake
  /-- It is to call `OnDemandChange`. -/
  | owes (active : Bool)
  | loop
  | switching (target : ClientEncoding) (stage : SwitchStage) (caller : SwitchCaller)
  /-- `Close` has returned. -/
  | closed
  | returned
  deriving DecidableEq, Repr

/-- A client. `encoding` is the one of its `clientFramebufferState`; `mode` is a ghost, what it last switched to. -/
structure SinkClient where
  place : ClientPlace := .handshake
  encoding : ClientEncoding := .none
  mode : ClientEncoding := .none
  deriving DecidableEq, Repr

namespace SinkClient
variable (c : SinkClient)

/-- `switchClientEncoding` has returned nil. -/
def switched (target : ClientEncoding) (caller : SwitchCaller) : SinkClient :=
  { place := if caller = .close then .closed else .loop, encoding := target, mode := target }

/-- `switchClientEncoding` has returned an error. -/
def failed : SwitchCaller → SinkClient
  | .desired fallback => { c with place := .switching fallback .begin .fallback }
  | .fallback => { c with place := .switching .none .begin .close }
  | .close => { c with place := .closed, encoding := .none }

end SinkClient

/-! ### What the clients share -/

/-- Encoders are numbered in the order in which the factory returned them. `demand` (the last value that
    `OnDemandChange` was called with), `created`, `closed` and `installs` are ghosts. -/
structure Sink where
  started : Bool := false
  /-- `Stop` waits for the clients. -/
  stopping : Bool := false
  consumers : Int := 0
  rawConsumers : Int := 0
  jpegConsumers : Int := 0
  h264Consumers : Int := 0
  h264 : H264Buffer := {}
  /-- The client that holds `jpegMu`. -/
  jpegMu : Option Nat := none
  jpegEncoder : Option Nat := none
  clients : List SinkClient := []
  /-- The calls of `WriteVideo` that have found H.264 enabled. -/
  writes : List AccessUnit := []
  demand : Bool := false
  /-- The number of encoders that the factory returned. -/
  created : Nat := 0
  closed : List Nat := []
  /-- The number of encoders that were installed since `Start`. -/
  installs : Nat := 0
  deriving DecidableEq, Repr

/-- What a call of the factory comes to. -/
inductive FactoryResult where
  | failed
  | wrongCodec
  | created
  deriving DecidableEq, Repr

inductive SinkClientAction where
  /-- The handshake fails. -/
  | fail
  | join
  | demandChange
  | setEncodings (encodings : List Int)
  /-- The connection, or the message it sent, ends the loop. -/
  | disconnect
  | begin
  | read
  /-- The call of the factory, and the section that installs the encoder. -/
  | create (result : FactoryResult)
  | count
  | leave
  deriving DecidableEq, Repr

inductive SinkAction where
  | start
  /-- The section of `Stop` that ends the sink, before it waits for the clients. -/
  | stop
  /-- The section of `Stop` that takes the encoder, which it closes. -/
  | teardown
  | accept
  | client (i : Nat) (action : SinkClientAction)
  /-- `WriteVideo` begins. -/
  | write (unit : AccessUnit)
  /-- One of the calls of `WriteVideo` updates the buffer. -/
  | append (k : Nat)
  deriving DecidableEq, Repr

namespace Sink
variable (s : Sink)

/-- `incrementEncodingLocked`. -/
def incrementEncoding : ClientEncoding → Sink
  | .none => s
  | .raw => { s with rawConsumers := s.rawConsumers + 1 }
  | .jpeg => { s with jpegConsumers := s.jpegConsumers + 1 }
  | .h264 => { s with
      h264 := if s.h264Consumers = 0 then s.h264.reset else s.h264
      h264Consumers := s.h264Consumers + 1 }

/-- `decrementEncodingLocked`. -/
def decrementEncoding : ClientEncoding → Sink
  | .none => s
  | .raw => { s with rawConsumers := s.rawConsumers - 1 }
  | .jpeg => { s with jpegConsumers := s.jpegConsumers - 1 }
  | .h264 => { s with
      h264 := if s.h264Consumers - 1 = 0 then s.h264.reset else s.h264
      h264Consumers := s.h264Consumers - 1 }

variable (cfg : SinkConfig) (i : Nat) (c : SinkClient)

/-- `switchClientEncoding` begins: it takes `jpegMu` to or from JPEG. -/
def beginSwitch (target : ClientEncoding) (caller : SwitchCaller) : Option (Sink × SinkClient) :=
  if c.encoding = target then some (s, SinkClient.switched target caller)
  else if c.encoding = .jpeg ∨ target = .jpeg then
    if s.jpegMu = none then
      let stage := if target = .jpeg then .read else .count
      some ({ s with jpegMu := some i }, { c with place := .switching target stage caller })
    else none
  else some (s, { c with place := .switching target .count caller })

/-- The factory is called, if there is one. An encoder for another codec is closed. -/
def createEncoder (target : ClientEncoding) (caller : SwitchCaller) (result : FactoryResult) : Sink × SinkClient :=
  if cfg.jpegEncoder = false ∨ result = .failed then ({ s with jpegMu := none }, c.failed caller)
  else if result = .wrongCodec then
    ({ s with jpegMu := none, created := s.created + 1, closed := s.closed ++ [s.created] }, c.failed caller)
  else
    ({ s with jpegEncoder := some s.created, created := s.created + 1, installs := s.installs + 1 },
      { c with place := .switching target .count caller })

/-- The section that changes the counters. It ends the hold of `jpegMu`. -/
def countSwitch (target : ClientEncoding) (caller : SwitchCaller) : Sink × SinkClient :=
  let t := (s.decrementEncoding c.encoding).incrementEncoding target
  ({ t with jpegMu := if c.encoding = .jpeg ∨ target = .jpeg then none else t.jpegMu }, SinkClient.switched target caller)

/-- A step of client `i`. -/
def clientStep : SinkClientAction → Option (Sink × SinkClient)
  | .fail => if c.place = .handshake then some (s, { c with place := .returned }) else none
  | .join =>
    if c.place = .handshake then
      let first := decide (s.consumers = 0)
      some ({ s with consumers := s.consumers + 1, rawConsumers := s.rawConsumers + 1 },
        { place := if first && cfg.onDemandChange then .owes true else .loop, encoding := .raw, mode := .raw })
    else none
  | .demandChange =>
    match c.place with
    | .owes active => some ({ s with demand := active }, { c with place := if active then .loop else .returned })
    | _ => none
  | .setEncodings encodings =>
    if c.place = .loop then
      some (s, { c with
        place := .switching (cfg.desiredEncoding encodings) .begin (.desired (cfg.fallbackEncoding encodings)) })
    else none
  | .disconnect => if c.place = .loop then some (s, { c with place := .switching .none .begin .close }) else none
  | .begin =>
    match c.place with
    | .switching target .begin caller => s.beginSwitch i c target caller
    | _ => none
  | .read =>
    match c.place with
    | .switching target .read caller =>
      let stage := if s.jpegEncoder = none ∧ cfg.jpegInput = false then .create else .count
      some (s, { c with place := .switching target stage caller })
    | _ => none
  | .create result =>
    match c.place with
    | .switching target .create caller => some (s.createEncoder cfg c target caller result)
    | _ => none
  | .count =>
    match c.place with
    | .switching target .count caller => some (s.countSwitch c target caller)
    | _ => none
  | .leave =>
    if c.place = .closed then
      let last := decide (s.consumers - 1 = 0)
      some ({ s with consumers := s.consumers - 1 },
        { c with place := if last && cfg.onDemandChange then .owes false else .returned })
    else none

/-- The first section of `WriteVideo`. -/
def beginWrite (unit : AccessUnit) : Sink :=
  match unit.check with
  | .ok true => if cfg.codecH264 ∧ s.h264Consumers > 0 then { s with writes := s.writes ++ [unit] } else s
  | _ => s

/-- `Start` and `Stop` are called in turn. `Stop` waits for every `runClient`. -/
def step (s : Sink) : SinkAction → Option Sink
  | .start => if s.started = false ∧ s.stopping = false then some { s with started := true, installs := 0 } else none
  | .stop => if s.started then some { s with started := false, stopping := true } else none
  | .teardown =>
    if s.stopping ∧ (∀ c ∈ s.clients, c.place = .returned) ∧ s.jpegMu = none then
      some { s with jpegEncoder := none, closed := s.closed ++ s.jpegEncoder.toList, stopping := false }
    else none
  | .accept => if s.started then some { s with clients := s.clients ++ [{}] } else none
  | .client i action =>
    match s.clients[i]? with
    | some c => (s.clientStep cfg i c action).map fun (t, c) => { t with clients := s.clients.set i c }
    | none => none
  | .write unit => some (s.beginWrite cfg unit)
  | .append k =>
    match s.writes[k]? with
    | some unit => some { s with h264 := s.h264.append unit, writes := s.writes.eraseIdx k }
    | none => none

end Sink

end OnekvmVnc
