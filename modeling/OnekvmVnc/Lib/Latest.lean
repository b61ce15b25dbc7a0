import Mathlib.Data.List.Induction

/-! A place that several parties write to holds what was written last, whoever wrote it. The writes are in one log,
    each with its party; what a party wrote last is found in its own writes. -/

namespace Latest

variable {ι α β : Type*}

/-- What the latest entry that writes has written. -/
def latest (f : α → Option β) (entries : List α) : Option β := (entries.filterMap f).getLast?

/-- The entries of one party. -/
def own [DecidableEq ι] (i : ι) (log : List (ι × α)) : List α := (log.filter (·.1 = i)).map (·.2)

/-- What an entry writes, with its party. -/
def signed (f : α → Option β) (entry : ι × α) : Option (ι × β) := (f entry.2).map (entry.1, ·)

section
variable {f : α → Option β} {entries : List α} {log : List (ι × α)} {a : α} {b : β} {i j : ι}

@[simp] theorem latest_nil : latest f [] = none := rfl

/-- Entries that follow write over what was there. -/
theorem latest_append (more : List α) : latest f (entries ++ more) = (latest f more).or (latest f entries) := by
  rw [latest, List.filterMap_append, List.getLast?_append]
  rfl

theorem latest_write (h : f a = some b) : latest f (entries ++ [a]) = some b := by
  rw [latest_append, latest, List.filterMap_cons_some h]
  rfl

theorem latest_silent (h : f a = none) : latest f (entries ++ [a]) = latest f entries := by
  rw [latest_append, latest, List.filterMap_cons_none h]
  rfl

theorem latest_signed : (latest (signed f) log).map (·.2) = latest f (log.map (·.2)) := by
  rw [latest, latest, ← List.getLast?_map, List.map_filterMap, List.filterMap_map]
  congr 2
  funext entry
  simp [signed, Function.comp_def]

variable [DecidableEq ι]

theorem own_concat : own i (log ++ [(j, a)]) = own i log ++ if j = i then [a] else [] := by
  rw [own, List.filter_append, List.map_append]
  by_cases h : j = i
  · simp [own, h]
  · simp [own, h]

/-- The party that wrote last has written last, of what it wrote itself. -/
theorem latest_own (h : latest (signed f) log = some (i, b)) : latest f (own i log) = some b := by
  induction log using List.reverseRecOn with
  | nil => cases h
  | append_singleton log entry ih =>
    obtain ⟨j, a⟩ := entry
    rw [own_concat]
    cases hf : f a with
    | some c =>
      rw [latest_write (by rw [signed, hf]; rfl), Option.some.injEq, Prod.mk.injEq] at h
      obtain ⟨rfl, rfl⟩ := h
      rw [if_pos rfl, latest_write hf]
    | none =>
      rw [latest_silent (by rw [signed, hf]; rfl)] at h
      split
      · rw [latest_silent hf]
        exact ih h
      · rw [List.append_nil]
        exact ih h

/-- What the place holds, one of the parties has written last of its own writes. -/
theorem exists_latest_own (h : latest f (log.map (·.2)) = some b) : ∃ i, latest f (own i log) = some b := by
  rw [← latest_signed, Option.map_eq_some_iff] at h
  obtain ⟨⟨i, c⟩, hsigned, rfl⟩ := h
  exact ⟨i, latest_own hsigned⟩

end

end Latest
