import Mathlib.Algebra.Order.Ring.Int

/-! Loops that may fail, and the positions that two nested loops over a grid go through. -/

namespace Loop

variable {ε σ α : Type*} {body : σ → α → Except ε σ} {I : σ → Prop} {s t : σ} {l : List α}

/-- Where the invariant lets every turn succeed and every turn keeps it, the whole loop succeeds. -/
theorem foldlM_ok (hbody : ∀ s, I s → ∀ x ∈ l, ∃ t, body s x = .ok t ∧ I t) (hs : I s) :
    ∃ t, l.foldlM body s = .ok t ∧ I t := by
  induction l generalizing s with
  | nil => exact ⟨s, rfl, hs⟩
  | cons x l ih =>
    obtain ⟨u, hu, hI⟩ := hbody s hs x (List.mem_cons_self ..)
    obtain ⟨t, ht, hIt⟩ := ih (fun s hs y hy => hbody s hs y (List.mem_cons_of_mem _ hy)) hI
    refine ⟨t, ?_, hIt⟩
    rw [List.foldlM_cons, hu]
    exact ht

/-- A loop that succeeds has gone through a turn for every element. -/
theorem turn_of_foldlM_ok (h : l.foldlM body s = .ok t) : ∀ x ∈ l, ∃ u v, body u x = .ok v := by
  induction l generalizing s with
  | nil => exact fun x hx => nomatch hx
  | cons y l ih =>
    rw [List.foldlM_cons] at h
    cases hu : body s y with
    | error e =>
      rw [hu] at h
      cases h
    | ok u =>
      rw [hu] at h
      intro x hx
      rcases List.mem_cons.mp hx with rfl | hx
      · exact ⟨s, u, hu⟩
      · exact ih h x hx

/-- A loop that collects what its turns make, when each of them succeeds. -/
theorem mapM_ok {β : Type*} {f : α → Except ε β} {g : α → β} (h : ∀ x ∈ l, f x = .ok (g x)) :
    l.mapM f = .ok (l.map g) := by
  induction l with
  | nil => rfl
  | cons x l ih =>
    rw [List.mapM_cons, h x (List.mem_cons_self ..), ih fun y hy => h y (List.mem_cons_of_mem x hy)]
    rfl

/-- A position of a grid, row by row. -/
theorem position_bounds {rows columns row column : Int} (hrow : 0 ≤ row) (hrows : row < rows) (hcolumn : 0 ≤ column)
    (hcolumns : column < columns) : 0 ≤ row * columns + column ∧ row * columns + column < columns * rows := by
  have hstart : 0 ≤ row * columns := Int.mul_nonneg hrow (by omega)
  have hend : (row + 1) * columns ≤ rows * columns := Int.mul_le_mul_of_nonneg_right (by omega) (by omega)
  rw [Int.add_mul, Int.one_mul, Int.mul_comm rows] at hend
  constructor <;> omega

end Loop
