import Mathlib.Data.List.Infix

/-! Order-preserving coalescing of a sequence: some elements are dropped, each only because the
    element right after it supersedes it, and everything else is kept in order. -/

namespace Coalesce

variable {α β : Type*}

/-- `bs` is `as` without some elements, each superseded by the element that follows it in `as`. -/
inductive Coalesces (supersedes : α → α → Prop) : List α → List α → Prop
  | nil : Coalesces supersedes [] []
  | keep (a : α) {as bs : List α} : Coalesces supersedes as bs → Coalesces supersedes (a :: as) (a :: bs)
  | drop (a b : α) {as bs : List α} : supersedes b a → Coalesces supersedes (b :: as) bs →
      Coalesces supersedes (a :: b :: as) bs

section
variable {supersedes : α → α → Prop} {as bs : List α}

theorem Coalesces.concat (h : Coalesces supersedes as bs) (c : α) :
    Coalesces supersedes (as ++ [c]) (bs ++ [c]) := by
  induction h with
  | nil => exact .keep c .nil
  | keep a _ ih => exact .keep a ih
  | drop a b hab _ ih => exact .drop a b hab ih

/-- The last element is never dropped. -/
theorem Coalesces.getLast?_eq (h : Coalesces supersedes as bs) : bs.getLast? = as.getLast? := by
  induction h with
  | nil => rfl
  | keep a _ ih => rw [List.getLast?_cons, List.getLast?_cons, ih]
  | drop a b _ _ ih => rw [ih, List.getLast?_cons_cons]

theorem Coalesces.eq_nil (h : Coalesces supersedes as []) : as = [] := by
  have hlast := h.getLast?_eq
  rw [List.getLast?_nil, eq_comm, List.getLast?_eq_none_iff] at hlast
  exact hlast

/-- A further element may supersede the last one, if that one is still to come out. -/
theorem Coalesces.supersede {m c : α} (hc : supersedes c m)
    (h : Coalesces supersedes (as ++ [m]) (bs ++ [m])) :
    Coalesces supersedes (as ++ [m] ++ [c]) (bs ++ [c]) := by
  generalize hxs : as ++ [m] = xs at h
  generalize hys : bs ++ [m] = ys at h
  induction h generalizing as bs with
  | nil => simp at hxs
  | @keep a as' bs' htail ih =>
    rcases as with _ | ⟨a₀, as⟩
    · -- The last element is the only one: it is dropped in favour of `c`.
      simp only [List.nil_append, List.cons.injEq] at hxs
      obtain ⟨rfl, rfl⟩ := hxs
      cases htail
      obtain rfl : bs = [] := by simpa using hys
      exact .drop m c hc (.keep c .nil)
    · simp only [List.cons_append, List.cons.injEq] at hxs
      obtain ⟨rfl, hxs⟩ := hxs
      rcases bs with _ | ⟨b₀, bs⟩
      · -- The kept list cannot end before the coalesced one does.
        simp only [List.nil_append, List.cons.injEq] at hys
        obtain ⟨-, rfl⟩ := hys
        rw [htail.eq_nil] at hxs
        simp at hxs
      · simp only [List.cons_append, List.cons.injEq] at hys
        obtain ⟨rfl, hys⟩ := hys
        exact .keep b₀ (ih hxs hys)
  | @drop a b as' bs' hba htail ih =>
    rcases as with _ | ⟨a₀, as⟩
    · simp at hxs
    · simp only [List.cons_append, List.cons.injEq] at hxs
      obtain ⟨rfl, hxs⟩ := hxs
      exact .drop a₀ b hba (ih hxs hys)

/-- Coalescing keeps the order and adds nothing. -/
theorem Coalesces.sublist (h : Coalesces supersedes as bs) : bs.Sublist as := by
  induction h with
  | nil => exact .slnil
  | keep a _ ih => exact ih.cons_cons a
  | drop a b _ _ ih => exact ih.cons a

/-- Elements that nothing supersedes are all kept, in order. -/
theorem Coalesces.filter_eq {p : α → Bool} (hp : ∀ a b, supersedes b a → p a = false)
    (h : Coalesces supersedes as bs) : bs.filter p = as.filter p := by
  induction h with
  | nil => rfl
  | keep a _ ih => simp only [List.filter_cons, ih]
  | drop a b hba _ ih =>
    rw [ih, List.filter_cons_of_neg (a := a)]
    simp [hp a b hba]

/-- When only elements of a kind supersede, the last element of that kind is kept. -/
theorem Coalesces.getLast?_filter {p : α → Bool} (hp : ∀ a b, supersedes b a → p b = true)
    (h : Coalesces supersedes as bs) : (bs.filter p).getLast? = (as.filter p).getLast? := by
  induction h with
  | nil => rfl
  | keep a _ ih =>
    by_cases ha : p a = true
    · rw [List.filter_cons_of_pos ha, List.filter_cons_of_pos ha, List.getLast?_cons, List.getLast?_cons, ih]
    · rw [List.filter_cons_of_neg ha, List.filter_cons_of_neg ha, ih]
  | drop a b hba _ ih =>
    rw [ih]
    by_cases ha : p a = true
    · rw [List.filter_cons_of_pos ha, List.filter_cons_of_pos (hp a b hba), List.getLast?_cons_cons]
    · rw [List.filter_cons_of_neg ha]

/-- A barrier, which neither supersedes nor is superseded, separates the coalescing of what precedes
    it from the coalescing of what follows it. -/
theorem Coalesces.split {a : α} {xs ys : List α} (ha : ∀ b, ¬supersedes a b ∧ ¬supersedes b a)
    (h : Coalesces supersedes (xs ++ a :: ys) bs) :
    ∃ us vs, bs = us ++ a :: vs ∧ Coalesces supersedes xs us ∧ Coalesces supersedes ys vs := by
  generalize has : xs ++ a :: ys = as at h
  induction h generalizing xs with
  | nil => simp at has
  | @keep b as' bs' htail ih =>
    rcases xs with _ | ⟨x, xs⟩
    · simp only [List.nil_append, List.cons.injEq] at has
      obtain ⟨rfl, rfl⟩ := has
      exact ⟨[], bs', rfl, .nil, htail⟩
    · simp only [List.cons_append, List.cons.injEq] at has
      obtain ⟨rfl, has⟩ := has
      obtain ⟨us, vs, rfl, hus, hvs⟩ := ih has
      exact ⟨x :: us, vs, rfl, .keep x hus, hvs⟩
  | @drop b c as' bs' hcb htail ih =>
    -- Neither the dropped element nor the one that supersedes it is `a`.
    rcases xs with _ | ⟨x, _ | ⟨y, xs⟩⟩
    · simp only [List.nil_append, List.cons.injEq] at has
      exact absurd (has.1 ▸ hcb) (ha c).2
    · simp only [List.cons_append, List.nil_append, List.cons.injEq] at has
      exact absurd (has.2.1 ▸ hcb) (ha b).1
    · simp only [List.cons_append, List.cons.injEq] at has
      obtain ⟨rfl, rfl, has⟩ := has
      obtain ⟨us, vs, rfl, hus, hvs⟩ := @ih (y :: xs) (by rw [List.cons_append, has])
      exact ⟨us, vs, rfl, .drop x y hcb hus, hvs⟩

end

end Coalesce
