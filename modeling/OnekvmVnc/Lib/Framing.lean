import Mathlib.Data.List.Infix

/-! A stream of whole messages. Most messages are written in one go; a message that is divisible may be
    written in parts, and nothing else is written before it is over. -/

namespace Framing

variable {μ β : Type*}

/-- The writing end: the messages taken on so far, the units written, and the message being written in
    parts with how much of it has been. -/
structure Sender (μ β : Type*) where
  isOpen : Bool
  messages : List μ
  wire : List β
  pending : Option (μ × Nat)

namespace Sender
variable {content : μ → List β} {Divisible : μ → Prop} {w w' : Sender μ β}

inductive Step (content : μ → List β) (Divisible : μ → Prop) (w : Sender μ β) : Sender μ β → Prop
  | write (m : μ) (isOpen : w.isOpen = true) (idle : w.pending = none) :
      Step content Divisible w { w with messages := w.messages ++ [m], wire := w.wire ++ content m }
  | queue (m : μ) (divisible : Divisible m) (idle : w.pending = none) :
      Step content Divisible w { w with messages := w.messages ++ [m], pending := some (m, 0) }
  | advance (m : μ) (n : Nat) (part : List β) (isOpen : w.isOpen = true) (pending : w.pending = some (m, n))
      (next : part <+: (content m).drop n) :
      Step content Divisible w { w with
        wire := w.wire ++ part
        pending := if n + part.length = (content m).length then none else some (m, n + part.length) }
  | close : Step content Divisible w { w with isOpen := false }
  | abandon : Step content Divisible w { w with isOpen := false, pending := none }

/-- What was written: whole messages, then at most a proper prefix of a divisible one. A message after
    that one was taken on when the sender was closed already. -/
def Framed (content : μ → List β) (Divisible : μ → Prop) (w : Sender μ β) : Prop :=
  ∃ sent part, w.wire = sent.flatMap content ++ part ∧
    ((w.messages = sent ∧ part = []) ∨
      ∃ m unsent, w.messages = sent ++ m :: unsent ∧ Divisible m ∧ part <+: content m ∧ part ≠ content m ∧
        (w.isOpen = true → unsent = []))

structure Valid (content : μ → List β) (Divisible : μ → Prop) (w : Sender μ β) : Prop where
  framed : Framed content Divisible w
  whole : w.isOpen = true → w.pending = none → w.wire = w.messages.flatMap content
  partway : ∀ m n, w.isOpen = true → w.pending = some (m, n) → Divisible m ∧ n < (content m).length ∧
    ∃ sent, w.messages = sent ++ [m] ∧ w.wire = sent.flatMap content ++ (content m).take n

theorem Framed.of_eq (h : Framed content Divisible w) (messages : w'.messages = w.messages) (wire : w'.wire = w.wire)
    (isOpen : w'.isOpen = true → w.isOpen = true) : Framed content Divisible w' := by
  obtain ⟨sent, part, hwire, hmessages⟩ := h
  refine ⟨sent, part, wire.trans hwire, hmessages.imp (fun h => ⟨messages.trans h.1, h.2⟩) ?_⟩
  rintro ⟨m, unsent, hsplit, hdivisible, hprefix, hproper, hlast⟩
  exact ⟨m, unsent, messages.trans hsplit, hdivisible, hprefix, hproper, fun ho => hlast (isOpen ho)⟩

theorem framed_of_whole (h : w.wire = w.messages.flatMap content) : Framed content Divisible w :=
  ⟨w.messages, [], by rw [h, List.append_nil], .inl ⟨rfl, rfl⟩⟩

/-- Whole messages and a part of the next are framed. -/
theorem framed_of_partway {m : μ} {n : Nat} {sent : List μ} (divisible : Divisible m) (hn : n < (content m).length)
    (messages : w.messages = sent ++ [m]) (wire : w.wire = sent.flatMap content ++ (content m).take n) :
    Framed content Divisible w := by
  refine ⟨sent, (content m).take n, wire, .inr ⟨m, [], messages, divisible, List.take_prefix _ _, fun h => ?_, fun _ => rfl⟩⟩
  have hlength := congrArg List.length h
  rw [List.length_take] at hlength
  omega

/-- A message that a closed sender takes on is never written. -/
theorem Framed.queue (nonempty : ∀ m, Divisible m → content m ≠ []) (h : Framed content Divisible w)
    (closed : w.isOpen = false) {m : μ} (divisible : Divisible m) :
    Framed content Divisible { w with messages := w.messages ++ [m], pending := some (m, 0) } := by
  rcases h with ⟨sent, part, hwire, ⟨hmessages, rfl⟩ | ⟨m', unsent, hmessages, hdivisible, hprefix, hproper, _⟩⟩
  · refine ⟨sent, [], hwire, .inr ⟨m, [], ?_, divisible, List.nil_prefix, fun h => nonempty m divisible h.symm,
      fun _ => rfl⟩⟩
    rw [hmessages]
  · refine ⟨sent, part, hwire, .inr ⟨m', unsent ++ [m], ?_, hdivisible, hprefix, hproper, fun ho => ?_⟩⟩
    · rw [hmessages, List.append_assoc, List.cons_append]
    · rw [closed] at ho
      cases ho

theorem take_add_of_prefix {l part : List β} {n : Nat} (h : part <+: l.drop n) :
    l.take (n + part.length) = l.take n ++ part := by
  rw [List.take_add, ← List.prefix_iff_eq_take.mp h]

theorem Step.valid (nonempty : ∀ m, Divisible m → content m ≠ []) (hw : Valid content Divisible w)
    (h : Step content Divisible w w') : Valid content Divisible w' := by
  cases h with
  | write m isOpen idle =>
    have hwhole : w.wire ++ content m = (w.messages ++ [m]).flatMap content := by
      rw [hw.whole isOpen idle, List.flatMap_append, List.flatMap_singleton]
    refine ⟨framed_of_whole hwhole, fun _ _ => hwhole, fun m' n _ hpending => ?_⟩
    rw [show w.pending = some (m', n) from hpending] at idle
    cases idle
  | queue m divisible idle =>
    have hpart (ho : w.isOpen = true) : w.wire = w.messages.flatMap content ++ (content m).take 0 := by
      rw [hw.whole ho idle, List.take_zero, List.append_nil]
    have hlength := List.length_pos_iff.mpr (nonempty m divisible)
    refine ⟨?_, fun _ => nofun, fun m' n ho hpending => ?_⟩
    · rcases Bool.eq_false_or_eq_true w.isOpen with ho | ho
      · exact framed_of_partway divisible hlength rfl (hpart ho)
      · exact hw.framed.queue nonempty ho divisible
    · cases hpending
      exact ⟨divisible, hlength, w.messages, rfl, hpart ho⟩
  | advance m n part isOpen pending next =>
    -- The part continues the message, and either completes it or stays a proper prefix.
    obtain ⟨hdivisible, hn, sent, hmessages, hwire⟩ := hw.partway m n isOpen pending
    have hpart : w.wire ++ part = sent.flatMap content ++ (content m).take (n + part.length) := by
      rw [hwire, List.append_assoc, take_add_of_prefix next]
    have hle : n + part.length ≤ (content m).length := by
      have hlength := next.length_le
      rw [List.length_drop] at hlength
      omega
    by_cases hover : n + part.length = (content m).length
    · have hwhole : w.wire ++ part = w.messages.flatMap content := by
        rw [hpart, hover, List.take_length, hmessages, List.flatMap_append, List.flatMap_singleton]
      refine ⟨framed_of_whole hwhole, fun _ _ => hwhole, fun m' n' _ hpending => ?_⟩
      rw [if_pos hover] at hpending
      cases hpending
    · have hlt := lt_of_le_of_ne hle hover
      refine ⟨framed_of_partway hdivisible hlt hmessages hpart, fun _ hpending => ?_, fun m' n' _ hpending => ?_⟩
      · rw [if_neg hover] at hpending
        cases hpending
      · rw [if_neg hover] at hpending
        cases hpending
        exact ⟨hdivisible, hlt, sent, hmessages, hpart⟩
  | close => exact ⟨hw.framed.of_eq rfl rfl nofun, nofun, nofun⟩
  | abandon => exact ⟨hw.framed.of_eq rfl rfl nofun, nofun, nofun⟩

theorem valid_empty (isOpen : Bool) : Valid content Divisible { isOpen, messages := [], wire := [], pending := none } :=
  ⟨framed_of_whole rfl, fun _ _ => rfl, nofun⟩

end Sender

end Framing
