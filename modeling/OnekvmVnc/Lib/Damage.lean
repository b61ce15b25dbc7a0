import Mathlib.Data.Finset.SDiff
import Mathlib.Data.Finset.Filter

/-! Damage tracking: a source picture that changes, and views of it that are brought up to date a part at a
    time. A view keeps the positions that may be out of date, its damage; the positions where it was given
    another picture than the source, and which are not damage, are kept apart as strayed. -/

namespace Damage

variable {P V : Type*}

structure View (P V : Type*) where
  shows : P → V
  damage : Finset P
  strayed : Finset P

/-- On the screen, the view shows the source outside of its damage, except exactly where it has strayed. -/
structure Tracks (screen : Finset P) (source : P → V) (v : View P V) : Prop where
  covered : ∀ p ∈ screen, v.shows p ≠ source p → p ∈ v.damage ∨ p ∈ v.strayed
  strayed : ∀ p ∈ screen, p ∈ v.strayed → p ∉ v.damage → v.shows p ≠ source p

namespace View

def mark [DecidableEq P] (v : View P V) (region : Finset P) : View P V := { v with damage := v.damage ∪ region }

/-- The damage in a region is repaired from the source. -/
def deliver [DecidableEq P] (v : View P V) (source : P → V) (region : Finset P) : View P V where
  shows p := if p ∈ v.damage ∩ region then source p else v.shows p
  damage := v.damage \ (v.damage ∩ region)
  strayed := v.strayed \ (v.damage ∩ region)

/-- The view is given a whole picture. -/
def replace [DecidableEq V] (screen : Finset P) (source picture : P → V) : View P V where
  shows := picture
  damage := ∅
  strayed := screen.filter fun p => picture p ≠ source p

end View

variable {screen : Finset P} {source source' picture : P → V} {v : View P V} {region : Finset P}

/-- A view whose damage is the whole screen tracks any source. -/
theorem tracks_of_subset (h : screen ⊆ v.damage) : Tracks screen source v :=
  ⟨fun _ hp _ => .inl (h hp), fun _ hp _ hd => absurd (h hp) hd⟩

theorem tracks_replace [DecidableEq V] : Tracks screen source (View.replace screen source picture) :=
  ⟨fun _ hp hne => .inr (Finset.mem_filter.mpr ⟨hp, hne⟩), fun _ _ hs _ => (Finset.mem_filter.mp hs).2⟩

section
variable [DecidableEq P]

theorem Tracks.mark (h : Tracks screen source v) (region : Finset P) : Tracks screen source (v.mark region) :=
  ⟨fun p hp hne => (h.covered p hp hne).imp_left fun hd => Finset.mem_union_left region hd,
    fun p hp hs hd => h.strayed p hp hs fun hmem => hd (Finset.mem_union_left region hmem)⟩

/-- The source changes, and where it does is marked. -/
theorem Tracks.retarget (h : Tracks screen source v) (marked : ∀ p ∈ screen, source p ≠ source' p → p ∈ region) :
    Tracks screen source' (v.mark region) := by
  refine ⟨fun p hp hne => ?_, fun p hp hs hd => ?_⟩
  · by_cases hsame : source p = source' p
    · rw [← hsame] at hne
      exact (h.covered p hp hne).imp_left fun hd => Finset.mem_union_left region hd
    · exact .inl (Finset.mem_union_right v.damage (marked p hp hsame))
  · rw [View.mark, Finset.mem_union, not_or] at hd
    have hsame : source p = source' p := by
      by_contra hne
      exact hd.2 (marked p hp hne)
    rw [← hsame]
    exact h.strayed p hp hs hd.1

theorem Tracks.deliver (h : Tracks screen source v) (region : Finset P) : Tracks screen source (v.deliver source region) := by
  refine ⟨fun p hp hne => ?_, fun p hp hs hd => ?_⟩
  · by_cases hdelivered : p ∈ v.damage ∩ region
    · exact absurd (if_pos hdelivered) hne
    · simp only [View.deliver, hdelivered, if_false] at hne
      simp only [View.deliver, Finset.mem_sdiff, hdelivered, not_false_eq_true, and_true]
      exact h.covered p hp hne
  · simp only [View.deliver, Finset.mem_sdiff, not_and, not_not] at hs hd
    simp only [View.deliver, hs.2, if_false]
    exact h.strayed p hp hs.1 fun hmem => hs.2 (hd hmem)

/-- After a delivery, the region shows the source except where the view had strayed without damage. -/
theorem Tracks.stale_deliver [DecidableEq V] (h : Tracks screen source v) (subset : region ⊆ screen) :
    region.filter (fun p => (v.deliver source region).shows p ≠ source p) = (v.strayed ∩ region) \ v.damage := by
  ext p
  simp only [View.deliver, Finset.mem_filter, Finset.mem_sdiff, Finset.mem_inter]
  by_cases hd : p ∈ v.damage
  · simp +contextual [hd]
  · simp only [hd, false_and, if_false, not_false_eq_true, and_true]
    constructor
    · rintro ⟨hp, hne⟩
      exact ⟨(h.covered p (subset hp) hne).resolve_left hd, hp⟩
    · rintro ⟨hs, hp⟩
      exact ⟨hp, h.strayed p (subset hp) hs hd⟩

end

end Damage
