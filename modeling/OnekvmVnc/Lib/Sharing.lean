import Mathlib.Data.Finset.Card
import Mathlib.Logic.Function.Basic

/-! Shared pointers. Holders point to objects, and each object has a use count; assigning to a holder counts
    the new object up and the old one down. The count of an object is then the number of its holders, so it
    falls to 0 exactly when the last of them lets go. -/

namespace Sharing

structure Shared (η ι : Type*) where
  holds : η → Option ι
  useCount : ι → Nat

variable {η ι : Type*}

namespace Shared

def empty : Shared η ι := { holds := fun _ => none, useCount := fun _ => 0 }

/-- Some holder points to the object. -/
def Live (s : Shared η ι) (i : ι) : Prop := ∃ h, s.holds h = some i

/-- Each use count is the number of holders of the object. -/
def Exact [DecidableEq ι] (s : Shared η ι) : Prop :=
  ∃ support : Finset η, (∀ h, (s.holds h).isSome = true → h ∈ support) ∧
    ∀ i, s.useCount i = (support.filter fun h => s.holds h = some i).card

section
variable [DecidableEq ι] {s : Shared η ι} {i : ι}

theorem exact_empty : (empty : Shared η ι).Exact := ⟨∅, by simp [empty], by simp [empty]⟩

/-- An object with a use has a holder, and the other way round. -/
theorem Exact.pos_iff (exact : s.Exact) : 0 < s.useCount i ↔ s.Live i := by
  obtain ⟨support, hsupport, hcount⟩ := exact
  rw [hcount, Finset.card_pos]
  constructor
  · rintro ⟨h, hmem⟩
    exact ⟨h, (Finset.mem_filter.mp hmem).2⟩
  · rintro ⟨h, hh⟩
    exact ⟨h, Finset.mem_filter.mpr ⟨hsupport h (by rw [hh]; rfl), hh⟩⟩

theorem Exact.zero_iff (exact : s.Exact) : s.useCount i = 0 ↔ ¬ s.Live i := by
  rw [← exact.pos_iff, Nat.pos_iff_ne_zero, not_not]

end

/-! ### Assignments -/

variable [DecidableEq η] [DecidableEq ι]

/-- The holder is made to point to `target`, and lets go of what it pointed to. -/
def assign (s : Shared η ι) (h : η) (target : Option ι) : Shared η ι where
  holds := Function.update s.holds h target
  useCount i := s.useCount i + (if target = some i then 1 else 0) - if s.holds h = some i then 1 else 0

variable {s : Shared η ι} {h : η} {target : Option ι} {i : ι}

@[simp] theorem assign_holds_self : (s.assign h target).holds h = target := Function.update_self ..

theorem assign_holds_of_ne {h' : η} (hne : h' ≠ h) : (s.assign h target).holds h' = s.holds h' :=
  Function.update_of_ne hne ..

omit [DecidableEq ι] in
theorem card_filter_erase (p : η → Prop) [DecidablePred p] {support : Finset η} (hmem : h ∈ support) :
    (support.filter p).card = ((support.erase h).filter p).card + if p h then 1 else 0 := by
  conv_lhs => rw [← Finset.insert_erase hmem, Finset.filter_insert]
  split
  · rw [Finset.card_insert_of_notMem (by simp)]
  · rfl

/-- An assignment keeps the counts exact. -/
theorem Exact.assign (exact : s.Exact) (h : η) (target : Option ι) : (s.assign h target).Exact := by
  obtain ⟨support, hsupport, hcount⟩ := exact
  refine ⟨insert h support, fun h' hh' => ?_, fun i => ?_⟩
  · by_cases hne : h' = h
    · exact hne ▸ Finset.mem_insert_self ..
    · rw [assign_holds_of_ne hne] at hh'
      exact Finset.mem_insert_of_mem (hsupport h' hh')
  · have hold : s.useCount i = ((support.erase h).filter fun h' => s.holds h' = some i).card +
        if s.holds h = some i then 1 else 0 := by
      rw [hcount]
      by_cases hmem : h ∈ support
      · exact card_filter_erase _ hmem
      · have hnone : ¬ s.holds h = some i := fun hi => hmem (hsupport h (by rw [hi]; rfl))
        rw [if_neg hnone, Finset.erase_eq_of_notMem hmem, Nat.add_zero]
    have hrest : ((support.erase h).filter fun h' => (s.assign h target).holds h' = some i) =
        (support.erase h).filter fun h' => s.holds h' = some i :=
      Finset.filter_congr fun h' hh' => by rw [assign_holds_of_ne (Finset.ne_of_mem_erase hh')]
    rw [card_filter_erase _ (Finset.mem_insert_self h support), Finset.erase_insert_eq_erase, hrest, assign_holds_self]
    change s.useCount i + _ - _ = _
    rw [hold]
    omega

/-- Who is live after an assignment. -/
theorem live_assign : (s.assign h target).Live i ↔ target = some i ∨ ∃ h', h' ≠ h ∧ s.holds h' = some i := by
  constructor
  · rintro ⟨h', hh'⟩
    by_cases hne : h' = h
    · subst hne
      exact .inl (by rwa [assign_holds_self] at hh')
    · exact .inr ⟨h', hne, by rwa [assign_holds_of_ne hne] at hh'⟩
  · rintro (hto | ⟨h', hne, hh'⟩)
    · exact ⟨h, by rw [assign_holds_self, hto]⟩
    · exact ⟨h', by rwa [assign_holds_of_ne hne]⟩

/-- Only the object that the holder lets go of can die. -/
theorem live_of_assign (hlive : s.Live i) (hdead : ¬ (s.assign h target).Live i) : s.holds h = some i := by
  obtain ⟨h', hh'⟩ := hlive
  by_cases hne : h' = h
  · exact hne ▸ hh'
  · exact absurd (live_assign.mpr (.inr ⟨h', hne, hh'⟩)) hdead

end Shared

end Sharing
