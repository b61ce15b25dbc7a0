import Mathlib.Data.List.Infix
import Mathlib.Data.List.Range

/-! The first occurrence of a pattern in a text, from a position on. What is found depends only on the text up to the
    end of the occurrence, so that a search may begin before all of the text is there. -/

namespace Search

variable {α : Type*} {pattern text : List α} {start i : Nat}

/-- `pattern` is at the position `i` of `text`. -/
def At (pattern text : List α) (i : Nat) : Prop := pattern <+: text.drop i

instance [DecidableEq α] : Decidable (At pattern text i) := inferInstanceAs (Decidable (_ <+: _))

/-- The first position from `start` on where the pattern is. -/
def find [DecidableEq α] (pattern text : List α) (start : Nat) : Option Nat :=
  (List.range' start (text.length + 1 - start)).find? (At pattern text ·)

/-! ### Where a pattern is -/

theorem At.add_length_le (h : At pattern text i) (nonempty : pattern ≠ []) : i + pattern.length ≤ text.length := by
  have hlength := h.length_le
  have hpos := List.length_pos_of_ne_nil nonempty
  rw [List.length_drop] at hlength
  omega

/-- A pattern is at a position of a text that is cut, if it is there before the cut. -/
theorem at_take {n : Nat} (nonempty : pattern ≠ []) :
    At pattern (text.take n) i ↔ At pattern text i ∧ i + pattern.length ≤ n := by
  unfold At
  rw [List.drop_take, List.prefix_take_iff]
  have hpos := List.length_pos_of_ne_nil nonempty
  exact and_congr_right fun _ => by omega

/-- A pattern does not begin within a line that has not its first element. -/
theorem not_at_line {a : α} {before line after : List α} (h : a ∉ line) {j : Nat} (hj : before.length ≤ j)
    (hline : j < before.length + line.length) : ¬At (a :: pattern) (before ++ (line ++ after)) j := by
  intro hat
  obtain ⟨k, rfl⟩ := Nat.exists_eq_add_of_le hj
  have hk : k < line.length := by omega
  unfold At at hat
  rw [List.drop_append, List.drop_of_length_le (by omega), Nat.add_sub_cancel_left, List.nil_append,
    List.drop_append_of_le_length hk.le, List.drop_eq_getElem_cons hk, List.cons_append,
    List.cons_prefix_cons] at hat
  exact h (hat.1 ▸ List.getElem_mem hk)

/-! ### The first one -/

variable [DecidableEq α]

theorem find_eq_some (nonempty : pattern ≠ []) : find pattern text start = some i ↔
    start ≤ i ∧ At pattern text i ∧ ∀ j, start ≤ j → j < i → ¬At pattern text j := by
  unfold find
  rw [List.find?_range'_eq_some]
  simp only [decide_eq_true_eq, List.mem_range'_1, Bool.not_eq_true', decide_eq_false_iff_not]
  constructor
  · rintro ⟨hat, ⟨hstart, -⟩, hfirst⟩
    exact ⟨hstart, hat, hfirst⟩
  · rintro ⟨hstart, hat, hfirst⟩
    have hlength := hat.add_length_le nonempty
    exact ⟨hat, ⟨hstart, by omega⟩, hfirst⟩

theorem find_eq_none (nonempty : pattern ≠ []) :
    find pattern text start = none ↔ ∀ i, start ≤ i → ¬At pattern text i := by
  constructor
  · intro h i hstart hat
    have hlength := hat.add_length_le nonempty
    have hmem : i ∈ List.range' start (text.length + 1 - start) := List.mem_range'_1.mpr ⟨hstart, by omega⟩
    simpa [hat] using List.find?_eq_none.mp h i hmem
  · intro h
    refine List.find?_eq_none.mpr fun i hi => ?_
    simpa using h i (List.mem_range'_1.mp hi).1

theorem le_of_find (h : find pattern text start = some i) : start ≤ i :=
  (List.mem_range'_1.mp (List.mem_of_find?_eq_some h)).1

/-- Once the occurrence is there, it is found, and not before. -/
theorem find_take (nonempty : pattern ≠ []) (h : find pattern text start = some i) (n : Nat) :
    find pattern (text.take n) start = if i + pattern.length ≤ n then some i else none := by
  obtain ⟨hstart, hat, hfirst⟩ := (find_eq_some nonempty).mp h
  split
  · rename_i hn
    exact (find_eq_some nonempty).mpr
      ⟨hstart, (at_take nonempty).mpr ⟨hat, hn⟩, fun j hj hji hat' => hfirst j hj hji ((at_take nonempty).mp hat').1⟩
  · rename_i hn
    refine (find_eq_none nonempty).mpr fun j hj hat' => ?_
    obtain ⟨hat', hjn⟩ := (at_take nonempty).mp hat'
    exact hfirst j hj (by omega) hat'

/-- The search goes on behind positions where the pattern is not. -/
theorem find_skip (nonempty : pattern ≠ []) {n : Nat} (h : ∀ j, start ≤ j → j < start + n → ¬At pattern text j) :
    find pattern text start = find pattern text (start + n) := by
  cases hfound : find pattern text (start + n) with
  | none =>
    refine (find_eq_none nonempty).mpr fun j hj => ?_
    by_cases hjn : j < start + n
    · exact h j hj hjn
    · exact (find_eq_none nonempty).mp hfound j (by omega)
  | some i =>
    obtain ⟨hstart, hat, hfirst⟩ := (find_eq_some nonempty).mp hfound
    refine (find_eq_some nonempty).mpr ⟨by omega, hat, fun j hj hji => ?_⟩
    by_cases hjn : j < start + n
    · exact h j hj hjn
    · exact hfirst j (by omega) hji

/-- The pattern is found right behind the line. -/
theorem find_line (pattern before after : List α) {a : α} {line : List α} (h : a ∉ line) :
    find (a :: pattern) (before ++ (line ++ (a :: pattern ++ after))) before.length =
      some (before.length + line.length) := by
  refine (find_eq_some (List.cons_ne_nil a pattern)).mpr
    ⟨Nat.le_add_right _ _, ?_, fun j hj hline => not_at_line h hj hline⟩
  unfold At
  rw [← List.append_assoc, ← List.length_append, List.drop_left]
  exact List.prefix_append _ _

/-! ### All of them -/

/-- What `f` finds at the positions from `start` up to `stop`. -/
def found {β : Type*} (f : Nat → Option β) (start stop : Nat) : List β :=
  (List.range' start (stop - start)).filterMap f

section
variable {β : Type*} {f : Nat → Option β} {stop : Nat}

theorem found_eq_nil (h : ∀ j, start ≤ j → j < stop → f j = none) : found f start stop = [] := by
  refine List.filterMap_eq_nil_iff.mpr fun j hj => ?_
  obtain ⟨hstart, hstop⟩ := List.mem_range'_1.mp hj
  exact h j hstart (by omega)

theorem found_cons {b : β} (h : f start = some b) (hstop : start < stop) :
    found f start stop = b :: found f (start + 1) stop := by
  have hlength : stop - start = stop - (start + 1) + 1 := by omega
  rw [found, hlength, List.range'_succ, List.filterMap_cons_some h]
  rfl

/-- The positions before `i` may be left out where nothing is found. -/
theorem found_skip (hi : start ≤ i) (h : ∀ j, start ≤ j → j < i → f j = none) : found f start stop = found f i stop := by
  rcases Nat.lt_or_ge i stop with hlt | hge
  · have hlength : stop - start = (i - start) + (stop - i) := by omega
    have hnext : start + (i - start) = i := by omega
    have hnone : (List.range' start (i - start)).filterMap f = [] := found_eq_nil h
    rw [found, hlength, ← List.range'_append_1, List.filterMap_append, hnext, hnone, List.nil_append]
    rfl
  · rw [found_eq_nil fun j hj hstop => h j hj (by omega), found_eq_nil fun j hj hstop => absurd hstop (by omega)]

end

end Search
