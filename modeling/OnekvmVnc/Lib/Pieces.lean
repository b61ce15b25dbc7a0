import Mathlib.Data.List.Basic

/-! Reading a stream that comes in pieces. A call takes at most as much as is wanted of the next piece, and may be
    interrupted; a loop of calls takes an exact amount, however the stream is cut. -/

namespace Pieces

variable {β ε : Type}

/-- What a call finds: items that have come, none at the end of the stream, an interruption or an error. -/
inductive Piece (β ε : Type) where
  | items (chunk : List β)
  | interrupted
  | failed (error : ε)
  deriving DecidableEq, Repr

/-- How a loop of calls ends, if it does not wait for more. -/
inductive Taken (β ε : Type) where
  | waiting
  | ended
  | failed (error : ε)
  | done (items : List β)
  deriving DecidableEq, Repr

/-- The loop that takes `size` more items, with what it leaves. -/
def take (size : Nat) (taken : List β) : List (Piece β ε) → Taken β ε × List (Piece β ε)
  | [] => (if size = 0 then .done taken else .waiting, [])
  | piece :: rest =>
    if size = 0 then (.done taken, piece :: rest)
    else
      match piece with
      | .interrupted => take size taken rest
      | .failed error => (.failed error, rest)
      | .items [] => (.ended, rest)
      | .items (b :: chunk) =>
        if size < (b :: chunk).length then
          (.done (taken ++ (b :: chunk).take size), .items ((b :: chunk).drop size) :: rest)
        else take (size - (b :: chunk).length) (taken ++ b :: chunk) rest

/-- The items come, cut anyhow, and with interrupted calls in between. -/
inductive Delivers : List (Piece β ε) → List β → Prop where
  | nil : Delivers [] []
  | interrupted {pieces : List (Piece β ε)} {stream : List β} (h : Delivers pieces stream) :
    Delivers (.interrupted :: pieces) stream
  | items {chunk : List β} {pieces : List (Piece β ε)} {stream : List β} (nonempty : chunk ≠ [])
    (h : Delivers pieces stream) : Delivers (.items chunk :: pieces) (chunk ++ stream)

variable {pieces : List (Piece β ε)} {stream : List β}

theorem take_zero (taken : List β) (pieces : List (Piece β ε)) : take 0 taken pieces = (.done taken, pieces) := by
  cases pieces <;> rfl

/-- A loop that is done leaves what comes later. -/
theorem take_append {size : Nat} {taken items : List β} {rest : List (Piece β ε)}
    (h : take size taken pieces = (.done items, rest)) (later : List (Piece β ε)) :
    take size taken (pieces ++ later) = (.done items, rest ++ later) := by
  fun_induction take size taken pieces with
  | case1 size taken =>
    split at h
    · rename_i hzero
      cases h
      rw [hzero]
      exact take_zero _ later
    · cases h
  | case2 =>
    cases h
    exact take_zero _ _
  | case3 size taken rest' hsize ih =>
    rw [List.cons_append, take, if_neg hsize]
    exact ih h
  | case4 => cases h
  | case5 => cases h
  | case6 size taken rest' hsize b chunk hshort =>
    cases h
    rw [List.cons_append, take, if_neg hsize]
    exact if_pos hshort
  | case7 size taken rest' hsize b chunk hlong ih =>
    rw [List.cons_append, take, if_neg hsize]
    exact (if_neg hlong).trans (ih h)

namespace Delivers

/-- However the stream comes, the loop takes its first items and leaves the others. -/
theorem take (h : Delivers pieces stream) {size : Nat} (hsize : size ≤ stream.length) (taken : List β) :
    ∃ rest, Pieces.take size taken pieces = (.done (taken ++ stream.take size), rest) ∧ Delivers rest (stream.drop size) := by
  induction h generalizing size taken with
  | nil =>
    obtain rfl : size = 0 := Nat.le_zero.mp hsize
    exact ⟨[], by rw [take_zero, List.take_zero, List.append_nil], .nil⟩
  | @interrupted pieces stream h ih =>
    rw [Pieces.take]
    split
    · rename_i hzero
      exact ⟨_, by rw [hzero, List.take_zero, List.append_nil], by
        rw [hzero, List.drop_zero]
        exact .interrupted h⟩
    · exact ih hsize taken
  | @items chunk pieces stream nonempty h ih =>
    cases chunk with
    | nil => exact absurd rfl nonempty
    | cons b chunk =>
      rw [Pieces.take]
      split
      · rename_i hzero
        exact ⟨_, by rw [hzero, List.take_zero, List.append_nil], by
          rw [hzero, List.drop_zero]
          exact .items nonempty h⟩
      · split
        · rename_i hshort
          refine ⟨_, by rw [List.take_append_of_le_length (Nat.le_of_lt hshort)], ?_⟩
          rw [List.drop_append_of_le_length (Nat.le_of_lt hshort)]
          exact .items (by rw [ne_eq, List.drop_eq_nil_iff, Nat.not_le]; exact hshort) h
        · rename_i hlong
          rw [Nat.not_lt] at hlong
          rw [List.length_append] at hsize
          have hmore : size - (b :: chunk).length ≤ stream.length := by omega
          obtain ⟨rest, htake, hrest⟩ := ih hmore (taken ++ b :: chunk)
          refine ⟨rest, ?_, ?_⟩
          · rw [htake, List.take_append, List.take_of_length_le hlong, List.append_assoc]
          · rw [List.drop_append, List.drop_eq_nil_of_le hlong, List.nil_append]
            exact hrest

/-- A stream that ends before the loop has what it wants makes it fail. -/
theorem take_ended (h : Delivers pieces stream) {size : Nat} (hsize : stream.length < size) (taken : List β)
    (later : List (Piece β ε)) : Pieces.take size taken (pieces ++ .items [] :: later) = (.ended, later) := by
  induction h generalizing size taken with
  | nil =>
    rw [List.nil_append, Pieces.take, if_neg (Nat.ne_of_gt (Nat.zero_lt_of_lt hsize))]
  | interrupted _ ih =>
    rw [List.cons_append, Pieces.take, if_neg (by omega)]
    exact ih hsize taken
  | @items chunk pieces stream nonempty _ ih =>
    rw [List.length_append] at hsize
    cases chunk with
    | nil => exact absurd rfl nonempty
    | cons b chunk =>
      rw [List.cons_append, Pieces.take, if_neg (by omega), if_neg (by omega)]
      exact ih (by omega) _

end Delivers

end Pieces
