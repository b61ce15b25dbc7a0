import Mathlib.Data.List.Basic

/-! Words of groups: each group is opened, holds items and is closed, and the last one may still be open.
    A group is opened under a label, and every item of it stands in a relation to that label. -/

namespace Grouping

inductive Token (β α : Type*) where
  | opened (label : β)
  | item (a : α)
  | closed
  deriving DecidableEq, Repr

variable {β α : Type*}

/-- A group under a label, and its items. -/
structure Block (β α : Type*) where
  label : β
  items : List α

namespace Block

/-- The word of a group that is still open. -/
def openWord (g : Block β α) : List (Token β α) := .opened g.label :: g.items.map .item

def word (g : Block β α) : List (Token β α) := g.openWord ++ [.closed]

/-- Every item of the group stands in the relation to its label. -/
def Holds (R : β → α → Prop) (g : Block β α) : Prop := ∀ a ∈ g.items, R g.label a

end Block

/-- The word is one of groups, the last of which is open under the label `current` if there is one. -/
def Grouped (R : β → α → Prop) (current : Option β) (word : List (Token β α)) : Prop :=
  ∃ (groups : List (Block β α)) (last : Option (Block β α)), last.map Block.label = current ∧
    (∀ g ∈ groups ++ last.toList, g.Holds R) ∧
    word = groups.flatMap Block.word ++ last.toList.flatMap Block.openWord

section
variable {R : β → α → Prop} {word : List (Token β α)} {b : β}

theorem Grouped.nil : Grouped R none [] := ⟨[], none, rfl, by simp, rfl⟩

theorem Grouped.begin (h : Grouped R none word) (b : β) : Grouped R (some b) (word ++ [.opened b]) := by
  obtain ⟨groups, last, hcurrent, hholds, rfl⟩ := h
  obtain rfl : last = none := by simpa using hcurrent
  refine ⟨groups, some ⟨b, []⟩, rfl, fun g hg => ?_, by simp [Block.openWord]⟩
  rcases List.mem_append.mp hg with hg | hg
  · exact hholds g (List.mem_append_left _ hg)
  · obtain rfl := List.mem_singleton.mp hg
    exact fun a ha => by cases ha

theorem Grouped.item (h : Grouped R (some b) word) {a : α} (ha : R b a) : Grouped R (some b) (word ++ [.item a]) := by
  obtain ⟨groups, last, hcurrent, hholds, rfl⟩ := h
  obtain ⟨g, rfl, rfl⟩ := Option.map_eq_some_iff.mp hcurrent
  refine ⟨groups, some ⟨g.label, g.items ++ [a]⟩, rfl, fun g' hg' => ?_, by simp [Block.openWord]⟩
  rcases List.mem_append.mp hg' with hg' | hg'
  · exact hholds g' (List.mem_append_left _ hg')
  · obtain rfl := List.mem_singleton.mp hg'
    intro a' ha'
    rcases List.mem_append.mp ha' with ha' | ha'
    · exact hholds g (by simp) a' ha'
    · exact List.mem_singleton.mp ha' ▸ ha

theorem Grouped.end (h : Grouped R (some b) word) : Grouped R none (word ++ [.closed]) := by
  obtain ⟨groups, last, hcurrent, hholds, rfl⟩ := h
  obtain ⟨g, rfl, rfl⟩ := Option.map_eq_some_iff.mp hcurrent
  exact ⟨groups ++ [g], none, rfl, by simpa using hholds, by simp [Block.word]⟩

end

end Grouping
