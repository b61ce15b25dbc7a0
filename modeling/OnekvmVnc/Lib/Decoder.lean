import Mathlib.Data.List.Infix

/-! Decoders of a stream of units, and when a decoder reads a code: exactly its units, whatever follows them.
    Codes that one decoder reads are prefix-free, and decoders in sequence read codes in sequence. -/

/-- A decoder takes units from the front of a stream, or fails. -/
abbrev Decoder (β α : Type) := StateT (List β) Option α

namespace Decoder

variable {β α γ : Type}

/-- The next unit. -/
def unit : Decoder β β := fun
  | [] => none
  | b :: rest => some (b, rest)

/-- The next units. -/
def units (n : Nat) : Decoder β (List β) := fun stream =>
  if stream.length < n then none else some (stream.take n, stream.drop n)

/-- What is decoded has to be the given value. -/
def expect [DecidableEq α] (d : Decoder β α) (x : α) : Decoder β Unit := do
  let y ← d
  if y = x then pure () else failure

/-- The decoder reads the units of the code, and leaves what follows them. -/
def Reads (d : Decoder β α) (code : List β) (x : α) : Prop := ∀ rest, d.run (code ++ rest) = some (x, rest)

variable {d : Decoder β α} {code code' : List β} {x : α}

theorem reads_unit (b : β) : Reads unit [b] b := fun _ => rfl

theorem reads_units (code : List β) : Reads (units code.length) code code := by
  intro rest
  change (if _ then none else some ((code ++ rest).take code.length, (code ++ rest).drop code.length)) = _
  rw [if_neg (by simp), List.take_left, List.drop_left]

theorem reads_pure (x : α) : Reads (pure x : Decoder β α) [] x := fun _ => rfl

namespace Reads

/-- In sequence, each decoder reads its own code. -/
theorem bind (h : Reads d code x) {f : α → Decoder β γ} {y : γ} (h' : Reads (f x) code' y) :
    Reads (d >>= f) (code ++ code') y := by
  intro rest
  rw [List.append_assoc, StateT.run_bind, h]
  exact h' rest

/-- The next unit, and then the rest of the code. -/
theorem cons {b : β} {f : β → Decoder β γ} {y : γ} (h : Reads (f b) code' y) : Reads (unit >>= f) (b :: code') y :=
  (reads_unit b).bind h

theorem expect [DecidableEq α] (h : Reads d code x) : Reads (expect d x) code () := by
  intro rest
  rw [Decoder.expect, StateT.run_bind, h]
  change StateT.run (if x = x then _ else _) rest = _
  rw [if_pos rfl]
  rfl

/-- No code that a decoder reads continues another one. -/
theorem eq_of_continues {x' : α} (h : Reads d code x) (h' : Reads d code' x') (hmore : code <+: code') :
    x = x' ∧ code = code' := by
  obtain ⟨more, rfl⟩ := hmore
  have heq := (h more).symm.trans (List.append_nil (code ++ more) ▸ h' [])
  obtain ⟨rfl, rfl⟩ := Prod.mk.inj (Option.some.inj heq)
  exact ⟨rfl, (List.append_nil code).symm⟩

end Reads

/-! ### Streams that break off -/

/-- The decoder reads the code, and a proper part of it is not enough. -/
structure Delimits (d : Decoder β α) (code : List β) (x : α) : Prop where
  reads : Reads d code x
  short : ∀ k < code.length, d.run (code.take k) = none

theorem delimits_pure (x : α) : Delimits (pure x : Decoder β α) [] x := ⟨reads_pure x, fun k hk => by cases hk⟩

theorem delimits_units {n : Nat} (h : code.length = n) : Delimits (units n) code code := by
  subst h
  refine ⟨reads_units code, fun k hk => ?_⟩
  change (if _ then none else _) = none
  rw [if_pos (by rw [List.length_take]; omega)]

theorem Delimits.bind (h : Delimits d code x) {f : α → Decoder β γ} {y : γ} (h' : Delimits (f x) code' y) :
    Delimits (d >>= f) (code ++ code') y := by
  refine ⟨h.reads.bind h'.reads, fun k hk => ?_⟩
  rw [List.length_append] at hk
  rw [StateT.run_bind]
  rcases Nat.lt_or_ge k code.length with hlt | hge
  · rw [List.take_append_of_le_length hlt.le, h.short k hlt]
    rfl
  · rw [List.take_append, List.take_of_length_le hge, h.reads]
    exact h'.short (k - code.length) (by omega)

/-- Nothing is read behind the code. -/
theorem Delimits.map (h : Delimits d code x) (f : α → γ) : Delimits (d >>= fun y => pure (f y)) code (f x) := by
  rw [← List.append_nil code]
  exact h.bind (delimits_pure (f x))

/-- A stream of codes breaks off behind whole codes, or with a proper part of the next one. -/
theorem take_flatMap {ι : Type} (content : ι → List β) (items : List ι) (n : Nat) :
    ∃ whole rest part, items = whole ++ rest ∧ (items.flatMap content).take n = whole.flatMap content ++ part ∧
      (rest = [] ∧ part = [] ∨ ∃ item more k, rest = item :: more ∧ part = (content item).take k ∧
        k < (content item).length ∧ n < ((whole ++ [item]).flatMap content).length) := by
  induction items generalizing n with
  | nil => exact ⟨[], [], [], rfl, by simp, .inl ⟨rfl, rfl⟩⟩
  | cons item rest ih =>
    rcases Nat.lt_or_ge n (content item).length with hlt | hge
    · refine ⟨[], item :: rest, (content item).take n, rfl, ?_, .inr ⟨item, rest, n, rfl, rfl, hlt, ?_⟩⟩
      · rw [List.flatMap_cons, List.take_append_of_le_length hlt.le]
        rfl
      · rwa [List.nil_append, List.flatMap_singleton]
    · obtain ⟨whole, more, part, rfl, htake, hpart⟩ := ih (n - (content item).length)
      refine ⟨item :: whole, more, part, rfl, ?_, hpart.imp_right ?_⟩
      · rw [List.flatMap_cons, List.take_append, List.take_of_length_le hge, htake, List.flatMap_cons, List.append_assoc]
      · rintro ⟨next, after, k, hmore, htaken, hk, hn⟩
        refine ⟨next, after, k, hmore, htaken, hk, ?_⟩
        rw [List.cons_append, List.flatMap_cons, List.length_append]
        omega

end Decoder
