import OnekvmVnc.Lib.Cursor
import OnekvmVnc.Lib.Latest
import OnekvmVnc.Lib.Transition
import OnekvmVnc.Sink.Framebuffer
import OnekvmVnc.Theorems.Sink.Raw

/-! However the goroutines of a client interleave, the client, its connection and its input agree on the size of the
    framebuffer, and no picture is sent twice. -/

namespace OnekvmVnc

open Cursor Latest Transition

/-! ### Rectangles -/

namespace SinkRectangle

/-- The size that the rectangle tells. -/
def size? : SinkRectangle → Option (UInt16 × UInt16)
  | .desktopSize width height => some (width, height)
  | _ => none

/-- The number of the payload. -/
def seq? : SinkRectangle → Option Nat
  | .tight _ seq => some seq
  | .h264 _ _ frame => some frame.seq
  | _ => none

/-- A size is told only to a client that supports DesktopSize. Such a client gets pixels of its framebuffer, and payloads
    of its size. -/
def Fits (supportsDesktopSize : Bool) (size : UInt16 × UInt16) : SinkRectangle → Prop
  | .desktopSize _ _ => supportsDesktopSize = true
  | .raw rect => supportsDesktopSize = true →
      rect.x.toNat + rect.width.toNat ≤ size.1.toNat ∧ rect.y.toNat + rect.height.toNat ≤ size.2.toNat
  | .tight rectangle _ => supportsDesktopSize = true →
      rectangle.width = size.1.toNat ∧ rectangle.height = size.2.toNat
  | .h264 width height _ => supportsDesktopSize = true → (width, height) = size

end SinkRectangle

/-! ### What the three encodings reply -/

theorem RGBA.rawReply_desktopSize {image : RGBA} {request : UpdateRequest} {clientWidth clientHeight : UInt16}
    {supportsDesktopSize : Bool} {width height : Int}
    (h : image.rawReply request clientWidth clientHeight supportsDesktopSize = .desktopSize width height) :
    supportsDesktopSize = true := by
  unfold RGBA.rawReply at h
  split at h
  · rename_i hsize
    exact hsize.1
  · dsimp only at h
    split at h <;> cases h

theorem RGBA.rawReply_rectangle {image : RGBA} {request : UpdateRequest} {clientWidth clientHeight : UInt16}
    {supportsDesktopSize : Bool} {rect : RawRectangle}
    (h : image.rawReply request clientWidth clientHeight supportsDesktopSize = .rectangle rect)
    (supports : supportsDesktopSize = true) :
    rect.x.toNat + rect.width.toNat ≤ clientWidth.toNat ∧ rect.y.toNat + rect.height.toNat ≤ clientHeight.toNat := by
  have hmax : (maxDimension : Int) = 65535 := rfl
  have hwide : clientWidth.toNat < 65536 := clientWidth.toNat_lt
  have hhigh : clientHeight.toNat < 65536 := clientHeight.toNat_lt
  unfold RGBA.rawReply at h
  split at h
  · split at h <;> cases h
  · rename_i hsame
    rw [not_and_or, not_or, not_not, not_not] at hsame
    obtain ⟨hwidth, hheight⟩ := hsame.resolve_left (not_not_intro supports)
    rw [hwidth, hheight] at h
    dsimp only at h
    split at h
    · cases h
    · rename_i hcut
      obtain rfl := RawReply.rectangle.inj h
      dsimp only
      rw [RGBA.toNat_ofInt (by omega) (by omega), RGBA.toNat_ofInt (by omega) (by omega),
        RGBA.toNat_ofInt (by omega) (by omega), RGBA.toNat_ofInt (by omega) (by omega)]
      omega

theorem JPEGViewer.reply_desktopSize {v : JPEGViewer} {snapshot : JPEGSnapshot} {width height : Int}
    (h : v.reply snapshot = .desktopSize width height) : v.supportsDesktopSize = true := by
  unfold JPEGViewer.reply at h
  split at h
  · rename_i hsize
    exact hsize.1
  · split at h
    · split at h
      · cases h
      · split at h <;> cases h
    · cases h

theorem JPEGViewer.reply_tight {v : JPEGViewer} {snapshot : JPEGSnapshot} {r : TightRectangle}
    (h : v.reply snapshot = .tight r) :
    (v.supportsDesktopSize = true → snapshot.width = v.width ∧ snapshot.height = v.height) ∧ v.cursor < snapshot.seq ∧
      r.width = uint16 snapshot.width ∧ r.height = uint16 snapshot.height := by
  unfold JPEGViewer.reply at h
  split at h
  · split at h <;> cases h
  · rename_i hsame
    split at h
    · rename_i hfresh
      split at h
      · cases h
      · split at h
        · obtain rfl := JPEGReply.tight.inj h
          refine ⟨fun supports => ?_, ?_, rfl, rfl⟩
          · rw [not_and_or, not_or, not_not, not_not] at hsame
            exact hsame.resolve_left (not_not_intro supports)
          · rw [JPEGSnapshot.fresh, Bool.and_eq_true, decide_eq_true_eq, decide_eq_true_eq] at hfresh
            exact hfresh.2
        · cases h
    · cases h

theorem H264Stream.reply_desktopSize {s : H264Stream} {width height : Nat} (h : s.reply = .desktopSize width height) :
    s.client.supportsDesktopSize = true := by
  unfold H264Stream.reply at h
  dsimp only at h
  split at h
  · rename_i hsize
    exact hsize.1
  · split at h
    · cases h
    · split at h <;> cases h

theorem H264Stream.reply_rectangle {s : H264Stream} {width height : Nat} {frame : H264Frame}
    (h : s.reply = .rectangle width height frame) :
    (s.client.supportsDesktopSize = true → width = s.client.width ∧ height = s.client.height) ∧
      s.client.cursor < frame.seq := by
  unfold H264Stream.reply at h
  dsimp only at h
  split at h
  · split at h <;> cases h
  · rename_i hsame
    split at h
    · cases h
    · rename_i found hfound
      split at h
      · cases h
      · obtain ⟨rfl, rfl, rfl⟩ := H264Reply.rectangle.inj h
        refine ⟨fun supports => ?_, by simpa using List.find?_some hfound⟩
        rw [not_and_or, not_or, not_not, not_not] at hsame
        exact hsame.resolve_left (not_not_intro supports)

theorem uint16_toNat (value : UInt16) : uint16 value.toNat = value.toNat := by
  have hlt : value.toNat < 65536 := value.toNat_lt
  unfold uint16
  omega

namespace ClientFramebufferState
variable {c : ClientFramebufferState} {request : UpdateRequest} {view : SinkView} {r : SinkRectangle}

/-- The cursor of the encoding that the client gets. -/
def cursor (c : ClientFramebufferState) : Nat :=
  match c.encoding with
  | .jpeg => c.jpegCursor
  | .h264 => c.h264Cursor
  | .none | .raw => 0

/-- A rectangle fits the client, and has a number past its cursor, which then becomes the cursor, or none. -/
structure Replies (c : ClientFramebufferState) (r : SinkRectangle) : Prop where
  fits : r.Fits c.supportsDesktopSize (c.width, c.height)
  number : ∀ n ∈ r.seq?, c.cursor < n ∧ (c.taken r).cursor = n
  silent : r.seq? = none → (c.taken r).cursor = c.cursor

theorem ofRaw_replies {image : RGBA}
    (h : UpdateReply.ofRaw (image.rawReply request c.width c.height c.supportsDesktopSize) = .rectangle r) : c.Replies r := by
  generalize hreply : image.rawReply request c.width c.height c.supportsDesktopSize = reply at h
  cases reply with
  | desktopSize width height =>
    cases h
    exact ⟨RGBA.rawReply_desktopSize hreply, nofun, fun _ => rfl⟩
  | rectangle rect =>
    cases h
    exact ⟨RGBA.rawReply_rectangle hreply, nofun, fun _ => rfl⟩
  | failed error => cases h
  | empty => cases h

theorem ofJPEG_replies (encoding : c.encoding = .jpeg) {snapshot : JPEGSnapshot}
    (h : UpdateReply.ofJPEG snapshot.seq (c.jpegViewer.reply snapshot) = .rectangle r) : c.Replies r := by
  generalize hreply : c.jpegViewer.reply snapshot = reply at h
  cases reply with
  | desktopSize width height =>
    cases h
    exact ⟨JPEGViewer.reply_desktopSize hreply, nofun, fun _ => rfl⟩
  | tight rect =>
    cases h
    obtain ⟨hsame, hpast, hwidth, hheight⟩ := JPEGViewer.reply_tight hreply
    refine ⟨fun supports => ?_, ?_, nofun⟩
    · obtain ⟨hsameWidth, hsameHeight⟩ := hsame supports
      rw [hwidth, hheight, hsameWidth, hsameHeight]
      exact ⟨uint16_toNat c.width, uint16_toNat c.height⟩
    · rintro n hn
      obtain rfl := Option.some.inj hn
      simp only [cursor, taken, encoding]
      exact ⟨hpast, trivial⟩
  | failed error => cases h
  | empty => cases h

theorem ofH264_replies (encoding : c.encoding = .h264) {s : H264Stream} (client : s.client = c.h264Client)
    (h : UpdateReply.ofH264 s.reply = .rectangle r) : c.Replies r := by
  generalize hreply : s.reply = reply at h
  cases reply with
  | desktopSize width height =>
    cases h
    have supports := H264Stream.reply_desktopSize hreply
    rw [client] at supports
    exact ⟨supports, nofun, fun _ => rfl⟩
  | rectangle width height frame =>
    cases h
    obtain ⟨hsame, hpast⟩ := H264Stream.reply_rectangle hreply
    rw [client] at hsame hpast
    refine ⟨fun supports => ?_, ?_, nofun⟩
    · obtain ⟨rfl, rfl⟩ := hsame supports
      rw [h264Client, UInt16.ofNat_toNat, UInt16.ofNat_toNat]
    · rintro n hn
      obtain rfl := Option.some.inj hn
      simp only [cursor, taken, encoding]
      exact ⟨hpast, trivial⟩
  | failed error => cases h
  | empty => cases h

/-- So is every reply, whatever the call finds in the sink. -/
theorem reply_replies (h : c.reply request view = .rectangle r) : c.Replies r := by
  unfold reply at h
  split at h
  · rename_i encoding
    exact ofJPEG_replies encoding h
  · rename_i encoding
    exact ofH264_replies encoding rfl h
  all_goals
    split at h
    · cases h
    · exact ofRaw_replies h

end ClientFramebufferState

/-! ### The goroutines of a client -/

namespace SentRectangle
variable (e : SentRectangle)

def size? : Option (UInt16 × UInt16) := e.rectangle.size?

def seq? : Option Nat := e.rectangle.seq?

def Fits (size : UInt16 × UInt16) : Prop := e.rectangle.Fits e.supportsDesktopSize size

end SentRectangle

/-- The size that a client was told last. -/
def told (initial : UInt16 × UInt16) (sent : List SentRectangle) : UInt16 × UInt16 :=
  (latest SentRectangle.size? sent).getD initial

section
variable {initial : UInt16 × UInt16} {sent : List SentRectangle} {e : SentRectangle} {size : UInt16 × UInt16}

theorem told_size (h : e.size? = some size) : told initial (sent ++ [e]) = size := by
  rw [told, latest_write h]
  rfl

theorem told_silent (h : e.size? = none) : told initial (sent ++ [e]) = told initial sent := by
  rw [told, latest_silent h, told]

end

/-- Events leave the size as it is. -/
theorem SinkInput.call_event {input : SinkInput} {call : SinkInputCall} (h : FramebufferSession.isEvent call = true) :
    (input.call call).1.width = input.width ∧ (input.call call).1.height = input.height := by
  cases call with
  | key down key =>
    unfold SinkInput.call SinkInput.key
    dsimp only
    split
    · unfold SinkInput.pressKey
      dsimp only
      split
      · exact ⟨rfl, rfl⟩
      · split <;> exact ⟨rfl, rfl⟩
    · exact ⟨rfl, rfl⟩
  | pointer mask x y =>
    unfold SinkInput.call SinkInput.pointer
    dsimp only
    split <;> exact ⟨rfl, rfl⟩
  | release => cases h
  | resize width height => cases h

namespace FramebufferSession
variable {initial : UInt16 × UInt16} {s t : FramebufferSession}

/-- No call of `Write` is between telling the client a size and telling `input`. -/
def Settled (s : FramebufferSession) : Prop := ∀ party, s.mu ≠ some (party, .resizing)

theorem settled_of_free (h : s.mu = none) : s.Settled := fun party hparty => by
  rw [h] at hparty
  cases hparty

/-- The state, the connection and, as soon as it can, the input have the size that the client was told last; what was sent
    fits the size told before it; and numbers rise until the encoding changes. -/
structure Kept (initial : UInt16 × UInt16) (s : FramebufferSession) : Prop where
  state : (s.state.width, s.state.height) = told initial s.sent
  conn : (s.connWidth, s.connHeight) = told initial s.sent
  input : s.Settled → (s.input.width, s.input.height) = told initial s.sent
  fits : Along (fun pre e => e.Fits (told initial pre)) s.sent
  rising : Rising SentRectangle.changes SentRectangle.seq? s.sent s.changes s.state.cursor

theorem Kept.start (controller : Bool) (width height : UInt16) : (start controller width height).Kept (width, height) :=
  ⟨rfl, rfl, fun _ => rfl, along_nil, .nil⟩

/-- What only moves the goroutines keeps everything. -/
theorem Kept.of_eq (h : s.Kept initial) (state : t.state = s.state)
    (conn : (t.connWidth, t.connHeight) = (s.connWidth, s.connHeight))
    (input : t.Settled → (t.input.width, t.input.height) = told initial s.sent) (changes : t.changes = s.changes)
    (sent : t.sent = s.sent) : t.Kept initial := by
  refine ⟨?_, ?_, ?_, ?_, ?_⟩
  · rw [state, sent]
    exact h.state
  · rw [conn, sent]
    exact h.conn
  · rw [sent]
    exact input
  · rw [sent]
    exact h.fits
  · rw [sent, changes, state]
    exact h.rising

theorem Kept.setEncoding (h : s.Kept initial) (encoding : ClientEncoding) (supportsDesktopSize : Bool) :
    (s.setEncoding encoding supportsDesktopSize).Kept initial := by
  unfold FramebufferSession.setEncoding ClientFramebufferState.setEncoding
  by_cases hsame : encoding = s.state.encoding
  · rw [if_pos hsame, if_pos hsame]
    exact ⟨h.state, h.conn, h.input, h.fits, h.rising⟩
  · rw [if_neg hsame, if_neg hsame]
    exact ⟨h.state, h.conn, h.input, h.fits, h.rising.change⟩

/-- A call that fails was not between the two. -/
theorem Kept.fail (h : s.Kept initial) (settled : s.Settled) (party : FramebufferParty) (broken : Bool) :
    (s.fail party broken).Kept initial := by
  cases party with
  | runClient => exact h.of_eq rfl rfl (fun _ => h.input settled) rfl rfl
  | updater => exact h.of_eq rfl rfl (fun _ => h.input settled) rfl rfl

theorem Kept.take (h : s.Kept initial) (settled : s.Settled) {party : FramebufferParty} {r : SinkRectangle}
    (replies : s.state.Replies r) : (s.take party r).Kept initial := by
  have hfits : Along (fun pre e => e.Fits (told initial pre)) (s.take party r).sent := by
    have hfit := replies.fits
    rw [h.state] at hfit
    have hsent := along_concat (a := (⟨r, s.state.supportsDesktopSize, s.changes⟩ : SentRectangle)).mpr ⟨h.fits, hfit⟩
    cases r <;> exact hsent
  have hrising : Rising SentRectangle.changes SentRectangle.seq? (s.take party r).sent (s.take party r).changes
      (s.take party r).state.cursor := by
    have hle : s.state.cursor ≤ (s.state.taken r).cursor := by
      cases hseq : r.seq? with
      | none => rw [replies.silent hseq]
      | some n =>
        obtain ⟨hlt, hn⟩ := replies.number n hseq
        omega
    have hsent := h.rising.concat (g := (⟨r, s.state.supportsDesktopSize, s.changes⟩ : SentRectangle)) rfl hle fun n hn =>
      ⟨(replies.number n hn).1, (replies.number n hn).2.ge⟩
    cases r <;> exact hsent
  cases r with
  | desktopSize width height =>
    exact ⟨(told_size rfl).symm, (told_size rfl).symm, fun hsettled => absurd rfl (hsettled party), hfits, hrising⟩
  | raw rect =>
    exact ⟨h.state.trans (told_silent rfl).symm, h.conn.trans (told_silent rfl).symm,
      fun _ => (h.input settled).trans (told_silent rfl).symm, hfits, hrising⟩
  | tight rect seq =>
    exact ⟨h.state.trans (told_silent rfl).symm, h.conn.trans (told_silent rfl).symm,
      fun _ => (h.input settled).trans (told_silent rfl).symm, hfits, hrising⟩
  | h264 width height frame =>
    exact ⟨h.state.trans (told_silent rfl).symm, h.conn.trans (told_silent rfl).symm,
      fun _ => (h.input settled).trans (told_silent rfl).symm, hfits, hrising⟩

theorem Kept.write (h : s.Kept initial) (settled : s.Settled) (party : FramebufferParty) (request : UpdateRequest)
    (view : SinkView) (ok : Bool) : (s.write party (s.state.reply request view) ok).Kept initial := by
  cases hreply : s.state.reply request view with
  | failed error => exact h.fail settled party false
  | unconverted failure => exact h.fail settled party false
  | empty =>
    cases ok with
    | false => exact h.fail settled party true
    | true => exact h.of_eq rfl rfl (fun _ => h.input settled) rfl rfl
  | rectangle r =>
    cases ok with
    | false => exact h.fail settled party true
    | true => exact h.take settled (ClientFramebufferState.reply_replies hreply)

theorem Kept.step {action : FramebufferAction} (h : s.Kept initial) (hs : step s action = some t) : t.Kept initial := by
  cases action with
  | setEncoding encoding supportsDesktopSize ok =>
    simp only [FramebufferSession.step, Option.ite_none_right_eq_some, Option.some.injEq] at hs
    obtain ⟨-, rfl⟩ := hs
    cases ok with
    | false => exact h
    | true => exact h.setEncoding encoding supportsDesktopSize
  | event call =>
    simp only [FramebufferSession.step, Option.ite_none_right_eq_some, Option.some.injEq] at hs
    obtain ⟨⟨-, -, hevent⟩, rfl⟩ := hs
    have hsame : (s.input.call call).1.width = s.input.width ∧ (s.input.call call).1.height = s.input.height :=
      SinkInput.call_event hevent
    refine h.of_eq rfl rfl (fun hsettled => ?_) rfl rfl
    rw [hsame.1, hsame.2]
    exact h.input hsettled
  | request request =>
    simp only [FramebufferSession.step, Option.ite_none_right_eq_some, Option.some.injEq] at hs
    obtain ⟨⟨-, hfree⟩, rfl⟩ := hs
    exact h.of_eq rfl rfl (fun _ => h.input (settled_of_free hfree)) rfl rfl
  | enable request =>
    simp only [FramebufferSession.step, Option.ite_none_right_eq_some, Option.some.injEq] at hs
    obtain ⟨-, rfl⟩ := hs
    exact h.of_eq rfl rfl h.input rfl rfl
  | disable =>
    simp only [FramebufferSession.step, Option.ite_none_right_eq_some, Option.some.injEq] at hs
    obtain ⟨-, rfl⟩ := hs
    exact h.of_eq rfl rfl h.input rfl rfl
  | tick =>
    simp only [FramebufferSession.step] at hs
    split at hs
    · rename_i request hupdater hfree
      cases hs
      exact h.of_eq rfl rfl (fun _ => h.input (settled_of_free hfree)) rfl rfl
    · cases hs
  | write view ok =>
    simp only [FramebufferSession.step] at hs
    split at hs
    · rename_i party request hlocked
      split at hs
      · cases hs
      · cases hs
        refine h.write (fun other hother => ?_) party request view ok
        rw [hlocked] at hother
        cases hother
    · cases hs
  | resizeInput =>
    simp only [FramebufferSession.step] at hs
    split at hs
    · cases hs
      exact h.of_eq rfl rfl (fun _ => h.state) rfl rfl
    · cases hs

/-- However the calls of `Write` by `runClient` and by `continuousUpdater` interleave with `SetEncoding` and with events,
    and whatever they find in the sink: the client, its connection and, unless a call has just told the client a size, its
    input have the size that the client was told last. A client that supports DesktopSize is sent only pixels of the
    framebuffer it was told, and JPEG and H.264 rectangles of exactly that size; no other client is told a size. -/
theorem sizes_told {controller : Bool} {width height : UInt16} {actions : List FramebufferAction}
    (h : run step (start controller width height) actions = some s) :
    (s.state.width, s.state.height) = told (width, height) s.sent ∧
      (s.connWidth, s.connHeight) = told (width, height) s.sent ∧
      (s.Settled → (s.input.width, s.input.height) = told (width, height) s.sent) ∧
      Along (fun pre e => e.Fits (told (width, height) pre)) s.sent := by
  have hkept : s.Kept (width, height) := run_invariant (Kept.start controller width height) (fun _ _ _ hu ha => hu.step ha) h
  exact ⟨hkept.state, hkept.conn, hkept.input, hkept.fits⟩

/-- The sink has a JPEG payload of 800 by 600 pixels. -/
def view800 : SinkView :=
  let snapshot : JPEGSnapshot := { picture := some ⟨[0xff], 800, 600⟩, seq := 1, width := 800, height := 600 }
  { frame := .error (.decode ""), first := snapshot, second := snapshot, buffer := {}, videoWidth := 800, videoHeight := 600 }

/-- A client is told the new size and gets the payload once; behind two changes of its encoding it gets it again. -/
def resized : List FramebufferAction :=
  [.setEncoding .jpeg true true, .enable ⟨0, 0, 640, 480⟩, .tick, .write view800 true, .event (.pointer 0 639 479),
    .resizeInput, .tick, .write view800 true, .request ⟨0, 0, 800, 600⟩, .write view800 true, .setEncoding .raw true true,
    .setEncoding .jpeg true true, .tick, .write view800 true]

theorem sizes_told_resized : ∃ s, run step (start true 640 480) resized = some s ∧ told (640, 480) s.sent = (800, 600) ∧
    (s.state.width, s.state.height) = (800, 600) ∧ (s.input.width, s.input.height) = (800, 600) := by
  have hrun : ((run step (start true 640 480) resized).map fun s => (s.mu, told (640, 480) s.sent)) =
      some (none, (800, 600)) := by decide +kernel
  obtain ⟨s, hs, hstate⟩ := Option.map_eq_some_iff.mp hrun
  obtain ⟨hfree, htold⟩ := Prod.mk.inj hstate
  obtain ⟨hsize, -, hinput, -⟩ := sizes_told hs
  exact ⟨s, hs, htold, hsize.trans htold, (hinput (settled_of_free hfree)).trans htold⟩

/-- However the calls interleave, the pictures that a client is sent between two changes of its encoding have rising
    numbers, so none is sent twice and none behind a newer one. -/
theorem pictures_rise {controller : Bool} {width height : UInt16} {actions : List FramebufferAction}
    (h : run step (start controller width height) actions = some s) :
    s.sent.Pairwise fun earlier later => earlier.changes = later.changes →
      ∀ m ∈ earlier.seq?, ∀ n ∈ later.seq?, m < n := by
  have hkept : s.Kept (width, height) := run_invariant (Kept.start controller width height) (fun _ _ _ hu ha => hu.step ha) h
  exact hkept.rising.pairwise

theorem pictures_rise_resized : ∃ s, run step (start true 640 480) resized = some s ∧
    s.sent.map (fun e => (e.changes, e.seq?)) = [(1, none), (1, some 1), (3, some 1)] ∧
    s.sent.Pairwise fun earlier later => earlier.changes = later.changes →
      ∀ m ∈ earlier.seq?, ∀ n ∈ later.seq?, m < n := by
  have hrun : ((run step (start true 640 480) resized).map fun s => s.sent.map fun e => (e.changes, e.seq?)) =
      some [(1, none), (1, some 1), (3, some 1)] := by decide +kernel
  obtain ⟨s, hs, hsent⟩ := Option.map_eq_some_iff.mp hrun
  exact ⟨s, hs, hsent, pictures_rise hs⟩

end FramebufferSession

end OnekvmVnc
