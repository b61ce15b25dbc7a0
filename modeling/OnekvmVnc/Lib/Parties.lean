import Mathlib.Data.List.Basic
import Mathlib.Tactic.Common

/-! A list of parties of which one moves at a time, and what is counted over them. -/

namespace Parties

variable {π : Type*} {parties : List π} {i j : Nat} {c c' d : π} {p q : π → Bool}

/-! ### Moves -/

theorem getElem?_move (h : (parties.set i c')[j]? = some d) : j = i ∧ d = c' ∨ j ≠ i ∧ parties[j]? = some d := by
  rw [List.getElem?_set] at h
  split at h
  · rename_i hij
    split at h
    · exact .inl ⟨hij.symm, (Option.some.inj h).symm⟩
    · cases h
  · rename_i hij
    exact .inr ⟨fun hji => hij hji.symm, h⟩

/-- A party that joins is the last one. -/
theorem getElem?_join (h : (parties ++ [c])[j]? = some d) : j = parties.length ∧ d = c ∨ parties[j]? = some d := by
  rcases Nat.lt_or_ge j parties.length with hlt | hle
  · rw [List.getElem?_append_left hlt] at h
    exact .inr h
  · rw [List.getElem?_append_right hle, List.getElem?_singleton] at h
    split at h
    · exact .inl ⟨by omega, (Option.some.inj h).symm⟩
    · cases h

theorem mem_move (h : parties[i]? = some c) : c' ∈ parties.set i c' :=
  List.mem_set (List.getElem?_eq_some_iff.mp h).1 c'

/-- Every other party stays. -/
theorem mem_move_of_ne (h : parties[i]? = some c) (hd : d ∈ parties) (hne : d ≠ c) : d ∈ parties.set i c' := by
  obtain ⟨j, hj⟩ := List.mem_iff_getElem?.mp hd
  refine List.mem_of_getElem? (i := j) ?_
  rw [List.getElem?_set_ne, hj]
  rintro rfl
  rw [h] at hj
  exact hne (Option.some.inj hj).symm

theorem forall_move {P : π → Prop} (h : ∀ d ∈ parties, P d) (hc' : P c') : ∀ d ∈ parties.set i c', P d := by
  intro d hd
  rcases List.mem_or_eq_of_mem_set hd with hd | rfl
  · exact h d hd
  · exact hc'

/-- A move that keeps what is seen of the party keeps what is seen of all. -/
theorem map_move {β : Type*} {f : π → β} (h : parties[i]? = some c) (hf : f c' = f c) :
    (parties.set i c').map f = parties.map f := by
  induction parties generalizing i with
  | nil => rfl
  | cons d parties ih =>
    cases i with
    | zero =>
      obtain rfl := Option.some.inj h
      rw [List.set_cons_zero, List.map_cons, List.map_cons, hf]
    | succ i => rw [List.set_cons_succ, List.map_cons, List.map_cons, ih h]

/-! ### Counts -/

/-- The number of parties with a property. -/
def tally (parties : List π) (p : π → Bool) : Int := parties.countP p

theorem tally_nonneg : 0 ≤ tally parties p := Int.natCast_nonneg _

theorem tally_cons : tally (c :: parties) p = tally parties p + if p c then 1 else 0 := by
  unfold tally
  rw [List.countP_cons]
  split <;> simp

theorem tally_concat : tally (parties ++ [c]) p = tally parties p + if p c then 1 else 0 := by
  unfold tally
  rw [List.countP_append, List.countP_singleton]
  split <;> simp

/-- A move changes a count by what it changes for the party. -/
theorem tally_move (h : parties[i]? = some c) :
    tally (parties.set i c') p = tally parties p - (if p c then 1 else 0) + if p c' then 1 else 0 := by
  induction parties generalizing i with
  | nil => cases h
  | cons d parties ih =>
    cases i with
    | zero =>
      obtain rfl := Option.some.inj h
      rw [List.set_cons_zero, tally_cons, tally_cons]
      omega
    | succ i =>
      rw [List.set_cons_succ, tally_cons, tally_cons, ih h]
      omega

theorem tally_pos (hc : c ∈ parties) (hp : p c = true) : 0 < tally parties p := by
  have := List.countP_pos_iff.mpr ⟨c, hc, hp⟩
  unfold tally
  omega

theorem tally_eq_zero : tally parties p = 0 ↔ ∀ c ∈ parties, p c = false := by
  unfold tally
  rw [Int.natCast_eq_zero, List.countP_eq_zero]
  simp

/-- Of two properties, the one that says more holds of fewer parties. -/
theorem tally_le (h : ∀ c ∈ parties, p c = true → q c = true) : tally parties p ≤ tally parties q :=
  Int.ofNat_le.mpr (List.countP_mono_left h)

theorem tally_congr (h : ∀ c ∈ parties, p c = q c) : tally parties p = tally parties q :=
  congrArg Int.ofNat (List.countP_congr fun c hc => by rw [h c hc])

theorem tally_or (h : ∀ c ∈ parties, p c = true → q c = false) :
    tally parties (fun c => p c || q c) = tally parties p + tally parties q := by
  induction parties with
  | nil => rfl
  | cons c parties ih =>
    rw [tally_cons, tally_cons, tally_cons, ih fun d hd => h d (List.mem_cons_of_mem c hd)]
    have hc := h c List.mem_cons_self
    cases hp : p c with
    | true =>
      rw [hc hp]
      simp only [Bool.or_false, if_true, Bool.false_eq_true, if_false]
      omega
    | false =>
      simp only [Bool.false_or, Bool.false_eq_true, if_false]
      omega

/-! ### Weights -/

/-- What all parties weigh. -/
def total (w : π → Nat) (parties : List π) : Nat := parties.foldr (fun c n => w c + n) 0

theorem total_cons (w : π → Nat) : total w (c :: parties) = w c + total w parties := rfl

/-- A move changes the weight by what it changes for the party. -/
theorem total_move (w : π → Nat) (c' : π) (h : parties[i]? = some c) :
    total w (parties.set i c') + w c = total w parties + w c' := by
  induction parties generalizing i with
  | nil => cases h
  | cons d parties ih =>
    cases i with
    | zero =>
      obtain rfl := Option.some.inj h
      rw [List.set_cons_zero, total_cons, total_cons]
      omega
    | succ i =>
      have := ih h
      rw [List.set_cons_succ, total_cons, total_cons]
      omega

end Parties
