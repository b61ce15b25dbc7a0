import Mathlib.Data.List.Basic

/-! Tables of numbered entries, in which a new entry gets the lowest number that is free. A number that was given up
    is given out again, to whoever comes when all lower ones are taken. -/

namespace Numbering

variable {β : Type}

/-- A free number below the end holds nothing. -/
structure Table (β : Type) where
  entries : List (Option β)
  deriving DecidableEq, Repr

namespace Table

def lookup (t : Table β) (n : Nat) : Option β := t.entries[n]?.join

/-- The lowest free number. -/
def lowest (t : Table β) : Nat := t.entries.findIdx (·.isNone)

def add (t : Table β) (b : β) : Table β :=
  ⟨if t.lowest < t.entries.length then t.entries.set t.lowest (some b) else t.entries ++ [some b]⟩

def remove (t : Table β) (n : Nat) : Table β := ⟨t.entries.set n none⟩

variable {t : Table β} {b : β} {n : Nat}

theorem lowest_le_length (t : Table β) : t.lowest ≤ t.entries.length := List.findIdx_le_length

theorem lookup_lowest (t : Table β) : t.lookup t.lowest = none := by
  unfold lookup
  rcases Nat.lt_or_ge t.lowest t.entries.length with hlt | hge
  · have hnone : t.entries[t.lowest].isNone = true := List.findIdx_getElem (w := hlt)
    rw [List.getElem?_eq_getElem hlt, Option.isNone_iff_eq_none.mp hnone]
    rfl
  · rw [List.getElem?_eq_none hge]
    rfl

/-- A number that is free is not below the lowest. -/
theorem lowest_le (h : t.lookup n = none) : t.lowest ≤ n := by
  by_contra hlt
  rw [Nat.not_le] at hlt
  have hlength : n < t.entries.length := Nat.lt_of_lt_of_le hlt t.lowest_le_length
  have htaken : t.entries[n].isNone = false := List.not_of_lt_findIdx hlt
  rw [lookup, List.getElem?_eq_getElem hlength] at h
  change t.entries[n] = none at h
  rw [h] at htaken
  cases htaken

theorem lookup_add (t : Table β) (b : β) (n : Nat) :
    (t.add b).lookup n = if n = t.lowest then some b else t.lookup n := by
  unfold lookup add
  split
  · rename_i hlt
    rw [List.getElem?_set]
    split
    · rename_i heq
      rw [if_pos heq.symm]
      rfl
    · rename_i hne
      rw [if_neg (Ne.symm hne)]
  · rename_i hge
    have hlast : t.lowest = t.entries.length := Nat.le_antisymm t.lowest_le_length (Nat.not_lt.mp hge)
    rw [List.getElem?_append, hlast]
    rcases Nat.lt_trichotomy n t.entries.length with hlt | rfl | hgt
    · rw [if_pos hlt, if_neg (Nat.ne_of_lt hlt)]
    · rw [if_neg (Nat.lt_irrefl _), if_pos rfl, Nat.sub_self]
      rfl
    · rw [if_neg (Nat.lt_asymm hgt), if_neg (Nat.ne_of_gt hgt), List.getElem?_eq_none (Nat.le_of_lt hgt)]
      rw [List.getElem?_eq_none (Nat.sub_pos_of_lt hgt)]

theorem lookup_add_of_some {c : β} (h : t.lookup n = some c) : (t.add b).lookup n = some c := by
  rw [lookup_add, if_neg ?_, h]
  rintro rfl
  rw [lookup_lowest] at h
  cases h

theorem lookup_remove (t : Table β) (n m : Nat) : (t.remove n).lookup m = if m = n then none else t.lookup m := by
  unfold lookup remove
  rw [List.getElem?_set]
  split
  · rename_i heq
    rw [if_pos heq.symm]
    split <;> rfl
  · rename_i hne
    rw [if_neg (Ne.symm hne)]

/-- An addition moves the lowest free number up. -/
theorem lowest_lt_lowest_add (t : Table β) (b : β) : t.lowest < (t.add b).lowest := by
  by_contra hle
  rw [Nat.not_lt] at hle
  have hfree := lookup_lowest (t.add b)
  rw [lookup_add] at hfree
  split at hfree
  · cases hfree
  · rename_i hne
    exact hne (Nat.le_antisymm hle (lowest_le hfree))

/-- Entries that are added one after the other. -/
def addAll (t : Table β) (b : β) : Nat → Table β
  | 0 => t
  | k + 1 => (t.add b).addAll b k

/-- Entries that come one after the other take every number in the end. -/
theorem lookup_addAll (b : β) (h : t.lookup n = none) : ∃ k, (t.addAll b k).lookup n = some b := by
  induction hm : n - t.lowest using Nat.strongRecOn generalizing t with
  | _ m ih =>
    rcases Nat.eq_or_lt_of_le (lowest_le h) with heq | hlt
    · exact ⟨1, by rw [addAll, addAll, lookup_add, if_pos heq.symm]⟩
    · have hadd : (t.add b).lookup n = none := by rw [lookup_add, if_neg (Nat.ne_of_gt hlt), h]
      have hup := t.lowest_lt_lowest_add b
      obtain ⟨k, hk⟩ := ih (n - (t.add b).lowest) (by omega) hadd rfl
      exact ⟨k + 1, hk⟩

end Table

end Numbering
