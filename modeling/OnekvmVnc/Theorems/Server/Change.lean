import Mathlib.Logic.Relation
import OnekvmVnc.EventLoop

/-! What a step of the server can do, other than resize. Every loop of the source goes over the clients and
    changes one at a time; `ClientChange` is what can happen to a client in one go, `Change` what can happen
    to the server. An invariant is proved for the changes, and holds of every such step because it is made of
    changes. -/

namespace OnekvmVnc

/-! ### Changes of one client -/

/-- The two clients agree on what the invariants read: the socket and what was written to it, the update
    flags, the regions, and the sizes. Support for `NewFBSize` and a pending audio capability come from
    `SetEncodings`, which ends the handshake. -/
structure SameCore (k k' : Client) : Prop where
  sock : k'.sock = k.sock
  wire : k'.wire = k.wire
  history : k'.history = k.history
  pendingJPEG : k'.data.pendingJPEG = k.data.pendingJPEG
  jpegHeader : k'.data.jpegHeader = k.data.jpegHeader
  jpegWritten : k'.data.jpegWritten = k.data.jpegWritten
  needUpdate : k'.data.needUpdate = k.data.needUpdate
  forceUpdate : k'.data.forceUpdate = k.data.forceUpdate
  requestedRegion : k'.requestedRegion = k.requestedRegion
  modifiedRegion : k'.modifiedRegion = k.modifiedRegion
  display : k'.display = k.display
  base : k'.base = k.base
  normal : k'.normal = k.normal
  announced : k'.announced = k.announced
  newFBSizePending : k'.newFBSizePending = k.newFBSizePending
  useNewFBSize : k'.useNewFBSize = true → k.useNewFBSize = true ∨ k.normal = true
  audioCapabilityPending : k'.data.audioCapabilityPending = true →
    k.data.audioCapabilityPending = true ∨ k.normal = true

/-- A message of the server other than a framebuffer update, a new size or the end of the handshake. -/
def ClientEvent.isPlain : ClientEvent → Bool
  | .audioCapability .. | .audioControl _ | .audioData _ | .reply _ => true
  | _ => false

/-- What can happen to a client in one go, on a server with the screen of `s`. -/
inductive ClientChange (decoder : JPEGDecoder) (s : Server) (k : Client) : Client → Prop
  | other {k'} (same : SameCore k k') : ClientChange decoder s k k'
  | audioMessage (message : AudioMessage) : ClientChange decoder s k (k.record (.audioMessage message))
  | audioPacket (source : List Int16) : ClientChange decoder s k (k.record (.audioPacket source))
  | output (event : ClientEvent) (isOpen : k.sock.isSome = true) (idle : k.data.pendingJPEG = none)
      (plain : event.isPlain = true)
      (capability : ∀ w h, event = .audioCapability w h →
        w = s.width ∧ h = s.height ∧ k.data.audioCapabilityPending = true) :
      ClientChange decoder s k (k.output event)
  | serverInit (bytes : List UInt8) (isOpen : k.sock.isSome = true) (idle : k.data.pendingJPEG = none)
      (handshake : k.normal = false) :
      ClientChange decoder s k { k.output (.serverInit s.screenWidth s.screenHeight bytes) with
        normal := true, announced := some (s.screenWidth, s.screenHeight) }
  | request (region : Region) (incremental : Bool) (normal : k.normal = true)
      (clipped : region ⊆ rectRegion 0 0 s.screenWidth.toNat s.screenHeight.toNat) :
      ClientChange decoder s k (k.framebufferUpdateRequested region incremental)
  | continuousUpdates (enabled : Bool) (normal : k.normal = true) :
      ClientChange decoder s k { k.record (.continuousUpdates enabled) with
        data := { k.data with continuousEnabled := enabled, needUpdate := enabled, forceUpdate := enabled } }
  | flushed {k'} (now : Int) (result : SendResult) (h : k.flushJPEG now result = (k', false)) :
      ClientChange decoder s k k'
  | expired {k'} (now : Int) (result : SendResult) (h : k.flushJPEG now result = (k', true)) :
      ClientChange decoder s k { k' with sock := none }
  | closed : ClientChange decoder s k { k with sock := none }
  | grown (forceUpdate : Bool) : ClientChange decoder s k (k.growRegions s.width s.height forceUpdate)
  | jpeg {k'} (frame : JPEGFrame) (encoding now : Int) (sequence : Nat) (needed : k.data.needUpdate = true)
      (width : frame.width = s.width) (height : frame.height = s.height)
      (h : k.queueJPEG frame encoding now (Server.image decoder frame s.width s.height) s.previous = (k', true)) :
      ClientChange decoder s k (k'.served sequence)
  | update {k'} (frame : JPEGFrame) (result : Option (List UInt8)) (sequence : Nat) (needed : k.data.needUpdate = true)
      (idle : k.data.pendingJPEG = none) (latest : s.latestFrame = some frame)
      (decoded : s.decodedSequence = s.latestSequence ∧ s.previousRGB ≠ [])
      (h : k.sendFramebufferUpdate s.width s.height s.pixels (Server.image decoder frame s.width s.height) result =
        (k', true)) :
      ClientChange decoder s k (k'.served sequence)

abbrev ClientChanges (decoder : JPEGDecoder) (s : Server) : Client → Client → Prop :=
  Relation.ReflTransGen (ClientChange decoder s)

/-! ### What the functions of a client do -/

namespace Client
variable {k k' : Client}

/-- A queued JPEG has the header of an update of its size. -/
theorem queueJPEG_eq {frame : JPEGFrame} {encoding now : Int} {image previous : Nat × Nat → Option UInt16}
    (h : k.queueJPEG frame encoding now image previous = (k', true)) :
    k.data.pendingJPEG = none ∧ ∃ rest, k' = Client.clearRegions
      { k.record (.jpeg frame (updateHeader frame.width frame.height encoding ++ rest)) with
        data := { k.data with
          pendingJPEG := some frame
          jpegHeader := updateHeader frame.width frame.height encoding ++ rest
          jpegWritten := 0
          jpegEncoding := encoding
          jpegStarted := now }
        display := image
        base := (rectRegion 0 0 frame.width.toNat frame.height.toNat).filter fun p =>
          (previous p).isSome ∧ image p ≠ previous p } := by
  unfold queueJPEG at h
  split at h
  · cases h
  · rename_i hidle
    simp only [Bool.or_eq_true, not_or, Bool.not_eq_true, Option.isSome_eq_false_iff, Option.isNone_iff_eq_none] at hidle
    cases h
    exact ⟨hidle.1, _, rfl⟩

/-- `FlushJPEGWrites` touches the pending JPEG of a client and what was written to it. -/
theorem flushJPEG_eq {now : Int} {result : SendResult} {close : Bool} (h : k.flushJPEG now result = (k', close)) :
    ∃ wire pendingJPEG jpegWritten, k' = { k with wire, data := { k.data with pendingJPEG, jpegWritten } } := by
  unfold flushJPEG at h
  split at h
  · split at h
    · cases h
      exact ⟨_, _, _, rfl⟩
    · dsimp only at h
      split at h <;> cases h <;> exact ⟨_, _, _, rfl⟩
  · cases h
    exact ⟨_, _, _, rfl⟩

/-- The client that has been told a pending new size. -/
def toldSize (k : Client) (width height : UInt16) (bytes : List UInt8) : Client :=
  { k.output (.newFBSize width height bytes) with newFBSizePending := false, announced := some (width, height) }

/-- The client that has been sent the modified part of the requested region. -/
def updated (k : Client) (pixels latest : Nat × Nat → Option UInt16) (bytes : List UInt8) : Client :=
  { k.output (.update k.requestedRegion (k.requestedRegion.filter fun p => k.shown pixels p ≠ latest p)
      ((k.base ∩ k.requestedRegion) \ k.modifiedRegion) bytes) with
    display := k.shown pixels
    modifiedRegion := k.modifiedRegion \ (k.modifiedRegion ∩ k.requestedRegion)
    base := k.base \ (k.modifiedRegion ∩ k.requestedRegion)
    requestedRegion := ∅ }

theorem sendFramebufferUpdate_cases {width height : UInt16} {pixels latest : Nat × Nat → Option UInt16}
    {result : Option (List UInt8)} {ok : Bool} (h : k.sendFramebufferUpdate width height pixels latest result = (k', ok)) :
    (ok = false ∧ k' = k) ∨
      (ok = true ∧ k.sock.isSome = true ∧ ∃ bytes,
        (k.useNewFBSize = true ∧ k.newFBSizePending = true ∧ k' = k.toldSize width height bytes) ∨
          ((k.useNewFBSize = false ∨ k.newFBSizePending = false) ∧ k' = k.updated pixels latest bytes)) := by
  unfold sendFramebufferUpdate at h
  split at h
  · rename_i fd bytes hsock
    have hopen : k.sock.isSome = true := by rw [hsock, Option.isSome_some]
    split at h
    · rename_i hpending
      rw [Bool.and_eq_true] at hpending
      cases h
      exact .inr ⟨rfl, hopen, bytes, .inl ⟨hpending.1, hpending.2, rfl⟩⟩
    · rename_i hpending
      rw [Bool.and_eq_true, not_and_or, Bool.not_eq_true, Bool.not_eq_true] at hpending
      cases h
      exact .inr ⟨rfl, hopen, bytes, .inr ⟨hpending, rfl⟩⟩
  · cases h
    exact .inl ⟨rfl, rfl⟩

end Client

/-! ### Changes of the server -/

/-- The two servers agree on the screen, the decoder state and the latest frame. -/
structure SameScreen (s t : Server) : Prop where
  width : t.width = s.width
  height : t.height = s.height
  screenWidth : t.screenWidth = s.screenWidth
  screenHeight : t.screenHeight = s.screenHeight
  framebuffer : t.framebuffer = s.framebuffer
  previousRGB : t.previousRGB = s.previousRGB
  decodedSequence : t.decodedSequence = s.decodedSequence
  latestFrame : t.latestFrame = s.latestFrame
  latestSequence : t.latestSequence = s.latestSequence

/-- What can happen to the server in one go, other than `Resize`. -/
inductive Change (decoder : JPEGDecoder) (s : Server) : Server → Prop
  | other {t} (same : SameScreen s t) (clients : t.clients = s.clients) (client : t.client = s.client) :
      Change decoder s t
  | setFrame (frame : JPEGFrame) : Change decoder s (s.setFrame frame)
  | clearLatestFrame : Change decoder s s.clearLatestFrame
  | client {t} (c : ClientPtr) (present : c ∈ s.clients) (same : SameScreen s t) (clients : t.clients = s.clients)
      (others : ∀ d, d ≠ c → t.client d = s.client d) (change : ClientChange decoder s (s.client c) (t.client c)) :
      Change decoder s t
  | close {t} (c : ClientPtr) (same : SameScreen s t) (clients : t.clients = s.clients)
      (others : ∀ d, d ≠ c → t.client d = s.client d) (closed : t.client c = { s.client c with sock := none }) :
      Change decoder s t
  | gone {t} (c : ClientPtr) (same : SameScreen s t) (clients : t.clients = s.clients.erase c)
      (client : t.client = s.client) : Change decoder s t
  | accept (c : ClientPtr) (fd : Nat) (version : List UInt8) (new : c ∉ s.clients) :
      Change decoder s (s.accept c fd version)
  | decode (frame : JPEGFrame) (latest : s.latestFrame = some frame) :
      Change decoder s (s.decodeLatestFrame decoder frame s.latestSequence).1

abbrev Changes (decoder : JPEGDecoder) : Server → Server → Prop := Relation.ReflTransGen (Change decoder)

theorem Changes.keep {decoder : JPEGDecoder} {P : Server → Prop} (keep : ∀ s t, P s → Change decoder s t → P t)
    {s t : Server} (hs : P s) (h : Changes decoder s t) : P t := by
  induction h with
  | refl => exact hs
  | tail _ hlast ih => exact keep _ _ ih hlast

namespace SameScreen
variable {s t u : Server}

theorem refl : SameScreen s s := ⟨rfl, rfl, rfl, rfl, rfl, rfl, rfl, rfl, rfl⟩

theorem trans (h : SameScreen s t) (h' : SameScreen t u) : SameScreen s u :=
  ⟨h'.width.trans h.width, h'.height.trans h.height, h'.screenWidth.trans h.screenWidth,
    h'.screenHeight.trans h.screenHeight, h'.framebuffer.trans h.framebuffer, h'.previousRGB.trans h.previousRGB,
    h'.decodedSequence.trans h.decodedSequence, h'.latestFrame.trans h.latestFrame,
    h'.latestSequence.trans h.latestSequence⟩

theorem pixels (h : SameScreen s t) : t.pixels = s.pixels := by
  rw [Server.pixels, Server.pixels, h.framebuffer, h.width]

theorem previous (h : SameScreen s t) : t.previous = s.previous := by
  rw [Server.previous, Server.previous, h.previousRGB, h.width]

end SameScreen

/-- The changes of a client depend on the screen alone. -/
theorem ClientChange.congr {decoder : JPEGDecoder} {s t : Server} (same : SameScreen s t) {k k' : Client}
    (h : ClientChange decoder s k k') : ClientChange decoder t k k' := by
  cases h with
  | other h => exact .other h
  | audioMessage message => exact .audioMessage message
  | audioPacket source => exact .audioPacket source
  | output event isOpen idle plain capability =>
    refine .output event isOpen idle plain fun w h he => ?_
    rw [same.width, same.height]
    exact capability w h he
  | serverInit bytes isOpen idle handshake =>
    rw [← same.screenWidth, ← same.screenHeight]
    exact .serverInit bytes isOpen idle handshake
  | request region incremental normal clipped =>
    exact .request region incremental normal (by rwa [same.screenWidth, same.screenHeight])
  | continuousUpdates enabled normal => exact .continuousUpdates enabled normal
  | flushed now result h => exact .flushed now result h
  | expired now result h => exact .expired now result h
  | closed => exact .closed
  | grown forceUpdate =>
    rw [← same.width, ← same.height]
    exact .grown forceUpdate
  | jpeg frame encoding now sequence needed width height h =>
    refine .jpeg frame encoding now sequence needed (width.trans same.width.symm) (height.trans same.height.symm) ?_
    rw [same.width, same.height, same.previous]
    exact h
  | update frame result sequence needed idle latest decoded h =>
    refine .update frame result sequence needed idle (same.latestFrame.trans latest) ?_ ?_
    · rw [same.decodedSequence, same.latestSequence, same.previousRGB]
      exact decoded
    · rw [same.width, same.height, same.pixels]
      exact h

namespace Server
variable {decoder : JPEGDecoder} {s t : Server}

@[simp] theorem modify_client_self (c : ClientPtr) (f : Client → Client) : (s.modify c f).client c = f (s.client c) := by
  simp [modify]

theorem modify_client_of_ne {c d : ClientPtr} (h : d ≠ c) (f : Client → Client) :
    (s.modify c f).client d = s.client d := by
  simp [modify, h]

@[simp] theorem modify_clients (c : ClientPtr) (f : Client → Client) : (s.modify c f).clients = s.clients := rfl

theorem sameScreen_modify (c : ClientPtr) (f : Client → Client) : SameScreen s (s.modify c f) :=
  ⟨rfl, rfl, rfl, rfl, rfl, rfl, rfl, rfl, rfl⟩

/-- Changes of one client are changes of the server. -/
theorem changes_modify {c : ClientPtr} {k : Client} (present : c ∈ s.clients) (h : ClientChanges decoder s (s.client c) k) :
    Changes decoder s (s.modify c fun _ => k) := by
  induction h with
  | refl =>
    refine .single (.other (sameScreen_modify c _) rfl ?_)
    simp [modify]
  | @tail k k' _ hlast ih =>
    refine ih.tail (.client c present ⟨rfl, rfl, rfl, rfl, rfl, rfl, rfl, rfl, rfl⟩ rfl (fun d hd => ?_) ?_)
    · rw [modify_client_of_ne hd, modify_client_of_ne hd]
    · rw [modify_client_self, modify_client_self]
      exact hlast.congr (sameScreen_modify c _)

end Server

end OnekvmVnc
