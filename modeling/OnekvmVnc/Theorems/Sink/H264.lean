import OnekvmVnc.Lib.Cursor
import OnekvmVnc.Lib.Transition
import OnekvmVnc.Sink.H264

/-! What an H.264 client is sent can be decoded: it starts with a keyframe after every gap, and between two
    frames that are not separated by a keyframe no slice is missing. `WriteVideo` breaks this with a unit that
    holds a slice and parameter sets but no IDR slice, which it parks, and with one that it refuses. -/

namespace OnekvmVnc

open Transition

/-- No unit of the input that was written between the two calls holds a slice. -/
def NoSlice (input : List AccessUnit) (a b : Nat) : Prop :=
  ∀ unit ∈ input, a < unit.number → unit.number < b → unit.slice = false

/-- Each unit bears the number of its call. -/
def Numbered (input : List AccessUnit) : Prop := ∀ n (unit : AccessUnit), input[n]? = some unit → unit.number = n

namespace Numbered
variable {input : List AccessUnit} {unit unit' : AccessUnit}

theorem number_lt (h : Numbered input) (hmem : unit ∈ input) : unit.number < input.length := by
  obtain ⟨n, hn⟩ := List.mem_iff_getElem?.mp hmem
  rw [h n unit hn]
  exact (List.getElem?_eq_some_iff.mp hn).1

theorem eq_of_number_eq (h : Numbered input) (hmem : unit ∈ input) (hmem' : unit' ∈ input)
    (heq : unit.number = unit'.number) : unit = unit' := by
  obtain ⟨n, hn⟩ := List.mem_iff_getElem?.mp hmem
  obtain ⟨n', hn'⟩ := List.mem_iff_getElem?.mp hmem'
  rw [h n unit hn, h n' unit' hn'] at heq
  rw [heq, hn'] at hn
  exact (Option.some.inj hn).symm

theorem concat (h : Numbered input) (hunit : unit.number = input.length) : Numbered (input ++ [unit]) := by
  intro n u hu
  rcases Nat.lt_or_ge n input.length with hlt | hge
  · rw [List.getElem?_append_left hlt] at hu
    exact h n u hu
  · rw [List.getElem?_append_right hge, List.getElem?_singleton] at hu
    split at hu
    · obtain rfl := Option.some.inj hu
      omega
    · cases hu

end Numbered

/-! ### The buffer -/

/-- `g` was appended after `f`. If slices are kept, none was written in between. -/
structure H264Frame.Follows (kept : Prop) (input : List AccessUnit) (f g : H264Frame) : Prop where
  seq : g.seq = f.seq + 1
  number : f.unit.number < g.unit.number
  keyframe : f.keyframe = true → f.unit.slice = true
  plain : f.keyframe = false → f.unit.parked = false
  noSlice : kept → NoSlice input f.unit.number g.unit.number

theorem H264Frame.Follows.grow {kept : Prop} {input : List AccessUnit} {f g : H264Frame} {unit : AccessUnit}
    (h : f.Follows kept input g) (hg : g.unit.number ≤ unit.number) : f.Follows kept (input ++ [unit]) g where
  seq := h.seq
  number := h.number
  keyframe := h.keyframe
  plain := h.plain
  noSlice hkept u hu hlt hgt := by
    rcases List.mem_append.mp hu with hu | hu
    · exact h.noSlice hkept u hu hlt hgt
    · obtain rfl := List.mem_singleton.mp hu
      omega

theorem AccessUnit.slice_of_empty {unit : AccessUnit} (h : unit.payload = []) : unit.slice = false := by
  simp [AccessUnit.slice, AccessUnit.keyframe, h, h264NALTypes, nalTypesFrom, containsNALType]

namespace H264Buffer
variable {b : H264Buffer} {kept : Prop} {input : List AccessUnit} {unit : AccessUnit}

/-- A frame is appended, or the buffer is reset. -/
theorem appendFrame_cases (b : H264Buffer) (unit : AccessUnit) (keyframe : Bool) :
    b.appendFrame unit keyframe = { b with
        seq := b.seq + 1
        frames := b.frames ++ [{ seq := b.seq + 1, unit, keyframe }]
        bytes := b.bytes + unit.payload.length } ∨
      b.appendFrame unit keyframe = { seq := b.seq + 1 } := by
  unfold appendFrame
  dsimp only
  split
  · exact .inr rfl
  · exact .inl rfl

/-- What `append` does with a unit. -/
theorem append_cases (b : H264Buffer) (unit : AccessUnit) :
    (unit.parked = true ∧ b.append unit = b.park unit) ∨
    (unit.keyframe = true ∧ b.append unit = { b.replay with bootstrap := [], ready := true }.appendFrame unit true) ∨
    (unit.parked = false ∧ unit.keyframe = false ∧ b.ready = true ∧ b.append unit = b.appendFrame unit false) ∨
    (unit.parked = false ∧ unit.keyframe = false ∧ b.ready = false ∧ b.append unit = b) := by
  unfold append
  cases hparked : unit.parked with
  | true => exact .inl ⟨rfl, rfl⟩
  | false =>
    cases hkey : unit.keyframe with
    | true => exact .inr (.inl ⟨rfl, rfl⟩)
    | false =>
      cases hready : b.ready with
      | true => exact .inr (.inr (.inl ⟨rfl, rfl, rfl, rfl⟩))
      | false => exact .inr (.inr (.inr ⟨rfl, rfl, rfl, rfl⟩))

/-- `WriteVideo` leaves the buffer as it is, or appends the unit. -/
theorem writeVideo_cases (b : H264Buffer) (unit : AccessUnit) :
    (unit.payload = [] ∨ unit.tooLong = true) ∧ (b.writeVideo unit true).toOption.getD b = b ∨
    unit.payload ≠ [] ∧ unit.tooLong = false ∧ b.writeVideo unit true = .ok (b.append unit) := by
  unfold writeVideo AccessUnit.check
  by_cases hempty : unit.payload = []
  · rw [if_pos hempty]
    exact .inl ⟨.inl hempty, rfl⟩
  · rw [if_neg hempty]
    cases hlong : unit.tooLong with
    | true => exact .inl ⟨.inr rfl, rfl⟩
    | false => exact .inr ⟨hempty, rfl, rfl⟩

/-- What the buffer holds is of the units written so far. -/
structure Held (kept : Prop) (input : List AccessUnit) (b : H264Buffer) : Prop where
  linked : Cursor.Linked (·.keyframe = true) (H264Frame.Follows kept input) b.frames
  rising : b.frames.Pairwise (·.seq < ·.seq)
  seq : ∀ f ∈ b.frames, f.seq ≤ b.seq
  frames : ∀ f ∈ b.frames, f.unit ∈ input
  bootstrap : ∀ u ∈ b.bootstrap, u ∈ input

/-- The buffer is ready when it holds frames, and then no slice was written after the last one. -/
structure Grouped (kept : Prop) (input : List AccessUnit) (b : H264Buffer) : Prop extends Held kept input b where
  idle : b.ready = false → b.frames = []
  last : b.ready = true → ∃ f ∈ b.frames.getLast?, f.seq = b.seq ∧ (f.keyframe = true → f.unit.slice = true) ∧
    (f.keyframe = false → f.unit.parked = false) ∧
    (kept → ∀ u ∈ input, f.unit.number < u.number → u.slice = false)

theorem Held.empty (seq : Nat) : Held kept input { seq } := ⟨.nil, .nil, nofun, nofun, nofun⟩

theorem Grouped.empty (seq : Nat) : Grouped kept input { seq } :=
  { Held.empty seq with idle := fun _ => rfl, last := nofun }

namespace Held

theorem grow (h : Held kept input b) (hbelow : ∀ u ∈ input, u.number ≤ unit.number) :
    Held kept (input ++ [unit]) b where
  linked := h.linked.imp fun _ _ g hg hfollows => hfollows.grow (hbelow _ (h.frames g hg))
  rising := h.rising
  seq := h.seq
  frames f hf := List.mem_append_left _ (h.frames f hf)
  bootstrap u hu := List.mem_append_left _ (h.bootstrap u hu)

/-- A frame that starts a group, or follows the last one, is appended. -/
theorem appendFrame (h : Held kept input b) (hmem : unit ∈ input) {keyframe : Bool}
    (hlink : keyframe = true ∨ ∃ f ∈ b.frames.getLast?, f.Follows kept input { seq := b.seq + 1, unit, keyframe }) :
    Held kept input (b.appendFrame unit keyframe) := by
  rcases appendFrame_cases b unit keyframe with happend | happend
  · rw [happend]
    refine ⟨h.linked.concat hlink, ?_, fun f hf => ?_, fun f hf => ?_, h.bootstrap⟩
    · refine List.pairwise_append.mpr ⟨h.rising, List.pairwise_singleton _ _, fun f hf g hg => ?_⟩
      obtain rfl := List.mem_singleton.mp hg
      exact Nat.lt_succ_of_le (h.seq f hf)
    · rcases List.mem_append.mp hf with hf | hf
      · exact Nat.le_succ_of_le (h.seq f hf)
      · obtain rfl := List.mem_singleton.mp hf
        exact Nat.le_refl _
    · rcases List.mem_append.mp hf with hf | hf
      · exact h.frames f hf
      · obtain rfl := List.mem_singleton.mp hf
        exact hmem
  · rw [happend]
    exact .empty _

theorem replay (h : Held kept input b) : Held kept input b.replay := by
  have hclear : Held kept input { b with frames := [], bytes := 0 } := ⟨.nil, .nil, nofun, nofun, h.bootstrap⟩
  refine List.foldlRecOn b.bootstrap _ hclear ?_
  intro c hc u hu
  exact hc.appendFrame (h.bootstrap u hu) (.inl rfl)

end Held

namespace Grouped

/-- A unit is written that does not reach the frames: it holds no slice, or the buffer is not ready. -/
theorem grow (h : Grouped kept input b) (hbelow : ∀ u ∈ input, u.number < unit.number)
    (hslice : kept → b.ready = true → unit.slice = false) : Grouped kept (input ++ [unit]) b where
  toHeld := h.toHeld.grow fun u hu => (hbelow u hu).le
  idle := h.idle
  last hready := by
    obtain ⟨f, hf, hseq, hkey, hplain, hlast⟩ := h.last hready
    refine ⟨f, hf, hseq, hkey, hplain, fun hkept u hu hlt => ?_⟩
    rcases List.mem_append.mp hu with hu | hu
    · exact hlast hkept u hu hlt
    · obtain rfl := List.mem_singleton.mp hu
      exact hslice hkept hready

/-- The unit that was written last has been appended. -/
theorem of_appendFrame {keyframe : Bool} (h : Held kept input (b.appendFrame unit keyframe)) (hready : b.ready = true)
    (hkey : keyframe = true → unit.slice = true) (hplain : keyframe = false → unit.parked = false)
    (hlast : ∀ u ∈ input, u.number ≤ unit.number) : Grouped kept input (b.appendFrame unit keyframe) := by
  refine { h with idle := fun hidle => ?_, last := fun happended => ?_ }
  · rcases appendFrame_cases b unit keyframe with happend | happend <;> rw [happend] at hidle ⊢
    simp [hready] at hidle
  · rcases appendFrame_cases b unit keyframe with happend | happend <;> rw [happend] at happended ⊢
    · exact ⟨{ seq := b.seq + 1, unit, keyframe }, by simp, rfl, hkey, hplain,
        fun _ u hu hlt => absurd hlt (Nat.not_lt.mpr (hlast u hu))⟩
    · cases happended

/-- `append` keeps the groups, if no slice is parked while the buffer is ready. -/
theorem append (h : Grouped kept input b) (hbelow : ∀ u ∈ input, u.number < unit.number)
    (hslice : kept → b.ready = true → unit.parked = true → unit.slice = false) :
    Grouped kept (input ++ [unit]) (b.append unit) := by
  have hmem : unit ∈ input ++ [unit] := List.mem_append_right _ (List.mem_singleton_self _)
  have hlast (u : AccessUnit) (hu : u ∈ input ++ [unit]) : u.number ≤ unit.number := by
    rcases List.mem_append.mp hu with hu | hu
    · exact (hbelow u hu).le
    · exact (List.mem_singleton.mp hu) ▸ Nat.le_refl _
  have hgrown : Held kept (input ++ [unit]) b := h.toHeld.grow fun u hu => (hbelow u hu).le
  rcases append_cases b unit with ⟨hparked, hb⟩ | ⟨hkey, hb⟩ | ⟨hparked, hkey, hready, hb⟩ | ⟨hparked, hkey, hready, hb⟩
  · rw [hb]
    have hgrow := h.grow hbelow fun hkept hready => hslice hkept hready hparked
    refine { hgrow with bootstrap := fun u hu => ?_ }
    rcases List.mem_append.mp (List.mem_of_mem_drop hu) with hu | hu
    · exact hgrown.bootstrap u hu
    · exact List.mem_singleton.mp hu ▸ hmem
  · rw [hb]
    have hreplay := hgrown.replay
    have hcleared : Held kept (input ++ [unit]) { b.replay with bootstrap := [], ready := true } :=
      { hreplay with bootstrap := nofun }
    exact .of_appendFrame (hcleared.appendFrame hmem (.inl rfl)) rfl
      (fun _ => by simp [AccessUnit.slice, hkey]) nofun hlast
  · rw [hb]
    obtain ⟨l, hl, hseq, hlkey, hlplain, hlnone⟩ := h.last hready
    refine .of_appendFrame (hgrown.appendFrame hmem (.inr ⟨l, hl, ?_⟩)) hready nofun (fun _ => hparked) hlast
    refine ⟨congrArg (· + 1) hseq.symm, hbelow _ (h.frames l (List.mem_of_mem_getLast? hl)), hlkey, hlplain,
      fun hkept u hu hlt hgt => ?_⟩
    rcases List.mem_append.mp hu with hu | hu
    · exact hlnone hkept u hu hlt
    · obtain rfl := List.mem_singleton.mp hu
      exact absurd hgt (Nat.lt_irrefl _)
  · rw [hb]
    exact h.grow hbelow fun _ hr => by simp [hready] at hr

end Grouped

/-! ### The client -/

/-- What a client has read stays linked, whatever is appended; its cursor is not past the buffer. -/
structure ReadBy (next : H264Frame → H264Frame → Prop) (cursor : Nat) (read : List H264Frame) (b : H264Buffer) :
    Prop where
  reader : Cursor.Reader (·.seq) (·.keyframe = true) next b.frames cursor read
  cursor : cursor ≤ b.seq

namespace ReadBy
variable {next : H264Frame → H264Frame → Prop} {cursor : Nat} {read : List H264Frame}

theorem appendFrame (h : b.ReadBy next cursor read) (keyframe : Bool) :
    (b.appendFrame unit keyframe).ReadBy next cursor read := by
  rcases appendFrame_cases b unit keyframe with happend | happend
  · rw [happend]
    exact ⟨h.reader.append (Nat.lt_succ_of_le h.cursor), Nat.le_succ_of_le h.cursor⟩
  · rw [happend]
    exact ⟨h.reader.clear, Nat.le_succ_of_le h.cursor⟩

theorem replay (h : b.ReadBy next cursor read) : b.replay.ReadBy next cursor read := by
  have hclear : ReadBy next cursor read { b with frames := [], bytes := 0 } := ⟨h.reader.clear, h.cursor⟩
  refine List.foldlRecOn b.bootstrap _ hclear ?_
  intro c hc u _
  exact hc.appendFrame true

theorem append (h : b.ReadBy next cursor read) : (b.append unit).ReadBy next cursor read := by
  rcases append_cases b unit with ⟨-, hb⟩ | ⟨-, hb⟩ | ⟨-, -, -, hb⟩ | ⟨-, -, -, hb⟩ <;> rw [hb]
  · exact ⟨h.reader, h.cursor⟩
  · have hreplay : ReadBy next cursor read { b.replay with bootstrap := [], ready := true } :=
      ⟨h.replay.reader, h.replay.cursor⟩
    exact hreplay.appendFrame true
  · exact h.appendFrame false
  · exact h

end ReadBy

end H264Buffer

namespace H264Stream
variable {s t : H264Stream} {kept : Prop}

/-- The client is sent the first frame past its cursor, or its cursor stays. -/
theorem sent_cases (s : H264Stream) :
    (∃ client, s.sent = { s with client } ∧ client.cursor = s.client.cursor) ∨
    ∃ g client, s.buffer.frames.find? (s.client.cursor < ·.seq) = some g ∧
      s.sent = { s with client, delivered := s.delivered ++ [g] } ∧ client.cursor = g.seq := by
  unfold sent
  cases hreply : s.reply with
  | desktopSize width height => exact .inl ⟨_, rfl, rfl⟩
  | empty => exact .inl ⟨_, rfl, rfl⟩
  | failed error => exact .inl ⟨_, rfl, rfl⟩
  | rectangle width height g =>
    refine .inr ⟨g, _, ?_, rfl, rfl⟩
    simp only [reply] at hreply
    split at hreply
    · split at hreply <;> cases hreply
    · split at hreply
      · cases hreply
      · rename_i frame hfind
        split at hreply <;> cases hreply
        exact hfind

/-- No slice is lost while the buffer is ready: a unit that holds one is neither refused nor parked. -/
def Keeps (s : H264Stream) : H264Action → Prop
  | .writeVideo payload => s.buffer.ready = true → AccessUnit.slice { payload } = true →
      AccessUnit.tooLong { payload } = false ∧ AccessUnit.parked { payload } = false
  | _ => True

instance (s : H264Stream) : DecidablePred s.Keeps := fun a => by
  cases a <;> unfold Keeps <;> infer_instance

/-- The client has been sent what follows from one keyframe to the next. -/
structure Delivering (kept : Prop) (s : H264Stream) : Prop where
  numbered : Numbered s.input
  grouped : s.buffer.Grouped kept s.input
  read : s.buffer.ReadBy (H264Frame.Follows kept s.input) s.client.cursor s.delivered
  delivered : ∀ f ∈ s.delivered, f.unit ∈ s.input

/-- The sink when the first H.264 client has subscribed. The client is one that has not read anything. -/
def start (seq videoWidth videoHeight : Nat) (client : H264Client) : H264Stream :=
  { buffer := { seq }, videoWidth, videoHeight, client := { client with cursor := 0 } }

namespace Delivering

theorem start (seq videoWidth videoHeight : Nat) (client : H264Client) :
    (start seq videoWidth videoHeight client).Delivering kept where
  numbered n unit h := by cases h
  grouped := .empty seq
  read := ⟨⟨.nil, .inr nofun⟩, Nat.zero_le _⟩
  delivered := nofun

/-- The call of `WriteVideo`. -/
theorem writeVideo (h : s.Delivering kept) {payload : List UInt8} (keeps : kept → s.Keeps (.writeVideo payload))
    (hstep : s.step (.writeVideo payload) = some t) : t.Delivering kept := by
  obtain rfl := Option.some.inj hstep
  let unit : AccessUnit := { payload, number := s.input.length }
  have hbelow (u : AccessUnit) (hu : u ∈ s.input) : u.number < unit.number := h.numbered.number_lt hu
  have hread : s.buffer.ReadBy (H264Frame.Follows kept (s.input ++ [unit])) s.client.cursor s.delivered :=
    ⟨h.read.reader.imp fun _ _ g hg hfollows => hfollows.grow (hbelow _ (h.delivered g hg)).le, h.read.cursor⟩
  have hdelivered (f : H264Frame) (hf : f ∈ s.delivered) : f.unit ∈ s.input ++ [unit] :=
    List.mem_append_left _ (h.delivered f hf)
  have hlost (hready : s.buffer.ready = true) (hkept : kept) (hslice : unit.slice = true) :
      unit.tooLong = false ∧ unit.parked = false := keeps hkept hready hslice
  rcases s.buffer.writeVideo_cases unit with ⟨hrefused, hbuffer⟩ | ⟨-, hlong, hbuffer⟩
  · refine ⟨h.numbered.concat rfl, ?_, ?_, hdelivered⟩
    · rw [hbuffer]
      refine h.grouped.grow hbelow fun hkept hready => ?_
      rcases hrefused with hempty | hlong
      · exact AccessUnit.slice_of_empty hempty
      · refine Bool.eq_false_iff.mpr fun hslice => ?_
        rw [(hlost hready hkept hslice).1] at hlong
        cases hlong
    · rw [hbuffer]
      exact hread
  · refine ⟨h.numbered.concat rfl, ?_, ?_, hdelivered⟩
    · rw [hbuffer]
      refine h.grouped.append hbelow fun hkept hready hparked => Bool.eq_false_iff.mpr fun hslice => ?_
      rw [(hlost hready hkept hslice).2] at hparked
      cases hparked
    · rw [hbuffer]
      exact hread.append

theorem step (h : s.Delivering kept) {a : H264Action} (keeps : kept → s.Keeps a) (hstep : s.step a = some t) :
    t.Delivering kept := by
  cases a with
  | writeVideo payload => exact h.writeVideo keeps hstep
  | resize width height =>
    obtain rfl := Option.some.inj hstep
    exact ⟨h.numbered, h.grouped, h.read, h.delivered⟩
  | update ok =>
    obtain rfl := Option.some.inj hstep
    cases ok with
    | false => exact h
    | true =>
      rcases s.sent_cases with ⟨client, hsent, hcursor⟩ | ⟨g, client, hfind, hsent, hcursor⟩
      · rw [if_pos rfl, hsent]
        exact ⟨h.numbered, h.grouped, hcursor ▸ h.read, h.delivered⟩
      · rw [if_pos rfl, hsent]
        have hmem := List.mem_of_find?_eq_some hfind
        refine ⟨h.numbered, h.grouped, ⟨?_, ?_⟩, fun f hf => ?_⟩
        · rw [hcursor]
          exact h.read.reader.take h.grouped.linked h.grouped.rising hfind
        · rw [hcursor]
          exact h.grouped.seq g hmem
        · rcases List.mem_append.mp hf with hf | hf
          · exact h.delivered f hf
          · exact List.mem_singleton.mp hf ▸ h.grouped.frames g hmem

end Delivering

end H264Stream

/-! ### What is delivered -/

/-- What is delivered first, or not right after the frame before it in the buffer, is a keyframe. -/
def Keyed (delivered : List H264Frame) : Prop :=
  ∀ pre g post, delivered = pre ++ g :: post → (∀ f ∈ pre.getLast?, g.seq ≠ f.seq + 1) → g.keyframe = true

/-- No slice is missing in what is delivered from one keyframe to the next. -/
structure Unbroken (input : List AccessUnit) (delivered : List H264Frame) : Prop where
  /-- A frame that is no keyframe follows the last slice written before it. What stands between them holds no
      slice, and nothing does if every unit holds a slice or is parked. -/
  follows : ∀ pre g post, delivered = pre ++ g :: post → g.keyframe = false → ∃ before f between,
    pre = before ++ f :: between ∧ f.unit.slice = true ∧ f.unit.number < g.unit.number ∧
    NoSlice input f.unit.number g.unit.number ∧ (∀ h ∈ between, h.unit.slice = false) ∧
    ((∀ unit ∈ input, unit.slice = true ∨ unit.parked = true) → between = [])
  /-- A slice that was written between two frames of a group is delivered with the group. -/
  group : ∀ pre f mid post, delivered = pre ++ f :: mid ++ post → (∀ g ∈ mid, g.keyframe = false) →
    ∀ unit ∈ input, unit.slice = true → f.unit.number ≤ unit.number →
      (∀ l ∈ (f :: mid).getLast?, unit.number ≤ l.unit.number) → ∃ g ∈ f :: mid, g.unit = unit

section
variable {input : List AccessUnit} {delivered : List H264Frame} {kept : Prop}

theorem keyed_of_linked (h : Cursor.Linked (·.keyframe = true) (H264Frame.Follows kept input) delivered) :
    Keyed delivered := by
  intro pre g post hsplit hgap
  rcases (hsplit ▸ h).link with hkey | ⟨f, hf, hfollows⟩
  · exact hkey
  · exact absurd hfollows.seq (hgap f hf)

/-- A delivered frame that is no keyframe follows the one before it. -/
theorem follows_of_linked (h : Cursor.Linked (·.keyframe = true) (H264Frame.Follows kept input) delivered)
    {pre post : List H264Frame} {g : H264Frame} (hsplit : delivered = pre ++ g :: post) (hplain : g.keyframe = false) :
    ∃ f ∈ pre.getLast?, f.Follows kept input g := by
  rcases (hsplit ▸ h).link with hkey | hfollows
  · rw [hplain] at hkey
    cases hkey
  · exact hfollows

theorem unbroken_of_linked (numbered : Numbered input) (hmem : ∀ f ∈ delivered, f.unit ∈ input)
    (h : Cursor.Linked (·.keyframe = true) (H264Frame.Follows True input) delivered) : Unbroken input delivered where
  follows pre := by
    induction pre using List.reverseRecOn with
    | nil =>
      intro g post hsplit hplain
      obtain ⟨f, hf, -⟩ := follows_of_linked h hsplit hplain
      cases hf
    | append_singleton pre f ih =>
      intro g post hsplit hplain
      obtain ⟨f', hf', hfollows⟩ := follows_of_linked h hsplit hplain
      obtain rfl : f' = f := by simpa [eq_comm] using hf'
      cases hslice : f'.unit.slice with
      | true => exact ⟨pre, f', [], rfl, hslice, hfollows.number, hfollows.noSlice trivial, nofun, fun _ => rfl⟩
      | false =>
        -- The frame before holds no slice, so it is no keyframe, and follows a frame itself.
        have hplain' : f'.keyframe = false := Bool.eq_false_iff.mpr fun hkey => by simp [hfollows.keyframe hkey] at hslice
        obtain ⟨before, f, between, rfl, hf, hnumber, hno, hbetween, -⟩ :=
          ih f' (g :: post) (by simpa using hsplit) hplain'
        have hf'mem : f'.unit ∈ input := hmem f' (by simp [hsplit])
        refine ⟨before, f, between ++ [f'], by simp, hf, hnumber.trans hfollows.number, ?_, ?_, fun hall => ?_⟩
        · intro unit hunit hlt hgt
          rcases Nat.lt_trichotomy unit.number f'.unit.number with hlt' | heq | hgt'
          · exact hno unit hunit hlt hlt'
          · exact numbered.eq_of_number_eq hunit hf'mem heq ▸ hslice
          · exact hfollows.noSlice trivial unit hunit hgt' hgt
        · intro k hk
          rcases List.mem_append.mp hk with hk | hk
          · exact hbetween k hk
          · exact List.mem_singleton.mp hk ▸ hslice
        · have hparked := hfollows.plain hplain'
          have := hall f'.unit hf'mem
          simp [hslice, hparked] at this
  group pre f mid := by
    induction mid using List.reverseRecOn with
    | nil =>
      intro post hsplit _ unit hunit _ hle hlast
      have hf : f.unit ∈ input := hmem f (by simp [hsplit])
      exact ⟨f, List.mem_singleton_self f, numbered.eq_of_number_eq hf hunit (Nat.le_antisymm hle (hlast f rfl))⟩
    | append_singleton mid k ih =>
      intro post hsplit hplain unit hunit hslice hle hlast
      have hsplit' : delivered = (pre ++ f :: mid) ++ k :: post := by simpa using hsplit
      obtain ⟨l, hl, hfollows⟩ := follows_of_linked h hsplit' (hplain k (by simp))
      rw [List.getLast?_append_of_ne_nil _ (List.cons_ne_nil f mid)] at hl
      have hk : unit.number ≤ k.unit.number :=
        hlast k (show ((f :: mid) ++ [k]).getLast? = some k from List.getLast?_concat)
      rcases Nat.lt_or_ge l.unit.number unit.number with hlt | hge
      · -- The unit was written after the rest of the group, so it is the one of the new frame.
        rcases Nat.lt_or_eq_of_le hk with hgt | heq
        · have := hfollows.noSlice trivial unit hunit hlt hgt
          simp [hslice] at this
        · have hkmem : k.unit ∈ input := hmem k (by simp [hsplit])
          exact ⟨k, by simp, numbered.eq_of_number_eq hkmem hunit heq.symm⟩
      · obtain ⟨g, hg, hgunit⟩ := ih (k :: post) (by simpa using hsplit) (fun g hg => hplain g (by simp [hg])) unit hunit
          hslice hle fun l' hl' => by
            rw [Option.mem_def.mp hl, Option.mem_some_iff] at hl'
            exact hl' ▸ hge
        exact ⟨g, List.mem_append_left [k] hg, hgunit⟩

end

namespace H264Stream
variable {s t : H264Stream} {actions : List H264Action}

theorem run_delivering {kept : Prop} {seq videoWidth videoHeight : Nat} {client : H264Client}
    (allowed : kept → Allowed step Keeps (start seq videoWidth videoHeight client) actions)
    (h : run step (start seq videoWidth videoHeight client) actions = some t) : t.Delivering kept :=
  run_invariant_of_allowed (Q := fun u a => kept → u.Keeps a) (Delivering.start ..)
    (fun _ _ _ hu hkeeps ha => hu.step hkeeps ha)
    (fun pre a post u hsplit hu hkept => allowed hkept pre a post u hsplit hu) h

end H264Stream

/-- Whatever `WriteVideo` is given, what a client is sent starts with a keyframe after every gap. If no unit that
    holds a slice is refused, or parked with its parameter sets, while the buffer is ready, then no slice is
    missing from one keyframe to the next. -/
theorem h264_decodable (seq videoWidth videoHeight : Nat) (client : H264Client) (actions : List H264Action)
    (t : H264Stream) (h : run H264Stream.step (.start seq videoWidth videoHeight client) actions = some t) :
    Keyed t.delivered ∧
    (Allowed H264Stream.step H264Stream.Keeps (.start seq videoWidth videoHeight client) actions →
      Unbroken t.input t.delivered) := by
  constructor
  · have hdelivering : t.Delivering False := H264Stream.run_delivering nofun h
    exact keyed_of_linked hdelivering.read.reader.linked
  · intro allowed
    have hdelivering : t.Delivering True := H264Stream.run_delivering (fun _ => allowed) h
    exact unbroken_of_linked hdelivering.numbered hdelivering.delivered hdelivering.read.reader.linked

/-- A viewer without DesktopSize, on a sink of 2 x 2 pixels. -/
def h264Start : H264Stream :=
  .start 0 2 2 { width := 2, height := 2, supportsDesktopSize := false }

/-- Parameter sets by themselves, an IDR picture and another picture are written; the client reads them. -/
def h264Actions : List H264Action :=
  [.writeVideo [0, 0, 1, 0x67, 0, 0, 1, 0x68], .writeVideo [0, 0, 1, 0x65], .update true, .update true,
    .writeVideo [0, 0, 0, 1, 0x41], .update true, .update true]

theorem h264_decodable_three : ∃ t, run H264Stream.step h264Start h264Actions = some t ∧
    t.delivered.map (·.keyframe) = [true, true, false] ∧ Keyed t.delivered ∧ Unbroken t.input t.delivered := by
  obtain ⟨t, ht, hkeys⟩ := Option.map_eq_some_iff.mp
    (show (run H264Stream.step h264Start h264Actions).map (fun t => t.delivered.map (·.keyframe)) =
      some [true, true, false] by decide +kernel)
  have hdecodable := h264_decodable 0 2 2 { width := 2, height := 2, supportsDesktopSize := false } h264Actions t ht
  exact ⟨t, ht, hkeys, hdecodable.1, hdecodable.2 (by decide +kernel)⟩

/-- A picture comes with parameter sets, and is parked: the client is sent the next one after the first. -/
theorem h264_loses_slice : ∃ t, run H264Stream.step h264Start
    [.writeVideo [0, 0, 1, 0x65], .update true, .writeVideo [0, 0, 1, 0x67, 0, 0, 1, 0x41],
      .writeVideo [0, 0, 1, 0x41], .update true] = some t ∧ ¬ Unbroken t.input t.delivered := by
  let idr : AccessUnit := { payload := [0, 0, 1, 0x65], number := 0 }
  let lost : AccessUnit := { payload := [0, 0, 1, 0x67, 0, 0, 1, 0x41], number := 1 }
  let last : AccessUnit := { payload := [0, 0, 1, 0x41], number := 2 }
  obtain ⟨t, ht, hghosts⟩ := Option.map_eq_some_iff.mp
    (show (run H264Stream.step h264Start
      [.writeVideo [0, 0, 1, 0x65], .update true, .writeVideo [0, 0, 1, 0x67, 0, 0, 1, 0x41],
        .writeVideo [0, 0, 1, 0x41], .update true]).map (fun t => (t.input, t.delivered)) =
      some ([idr, lost, last], [⟨1, idr, true⟩, ⟨2, last, false⟩]) by decide +kernel)
  obtain ⟨hinput, hdelivered⟩ := Prod.mk.inj hghosts
  refine ⟨t, ht, fun h => ?_⟩
  rw [hinput, hdelivered] at h
  have hgroup := h.group [] ⟨1, idr, true⟩ [⟨2, last, false⟩] [] rfl (by decide) lost (by decide) (by decide +kernel)
    (by decide) (by decide)
  exact absurd hgroup (by decide)

end OnekvmVnc
