import Mathlib.Algebra.Order.Ring.Int
import Mathlib.Tactic.Ring
import OnekvmVnc.Lib.Latest
import OnekvmVnc.Lib.Transition

/-! A throttle lets a time pass that comes at least a gap behind the one that passed last, and drops the others. The times
    need not come in order. -/

namespace Throttle

open Latest Transition

inductive Entry where
  | passed (time : Int)
  | dropped (time : Int)
  /-- What passed before is forgotten. -/
  | reset
  deriving DecidableEq, Repr

namespace Entry

def time? : Entry → Option Int
  | .passed time => some time
  | _ => none

/-- What the throttle remembers. -/
def keeps : Entry → Option (Option Int)
  | .passed time => some (some time)
  | .dropped _ => none
  | .reset => some none

end Entry

/-- The time that passed last. -/
def last (log : List Entry) : Option Int := (latest Entry.keeps log).join

/-- What the throttle makes of the next time. -/
def Obeys (gap : Int) (log : List Entry) : Entry → Prop
  | .passed time => ∀ before ∈ last log, gap ≤ time - before
  | .dropped time => ∃ before ∈ last log, time - before < gap
  | .reset => True

/-- From each of the times to a later one there is a gap for each step. -/
def Spaced (gap : Int) (times : List Int) : Prop :=
  ∀ i j, (hij : i < j) → (hj : j < times.length) → ((j - i : Nat) : Int) * gap ≤ times[j] - times[i]

variable {gap time : Int} {log stretch : List Entry} {times : List Int} {e : Entry}

theorem last_concat : last (log ++ [e]) = match e with
    | .passed time => some time
    | .dropped _ => last log
    | .reset => none := by
  cases e with
  | passed time => rw [last, latest_write (f := Entry.keeps) rfl]; rfl
  | dropped time => rw [last, latest_silent (f := Entry.keeps) rfl, last]
  | reset => rw [last, latest_write (f := Entry.keeps) rfl]; rfl

theorem Spaced.concat (h : Spaced gap times) (hgap : ∀ before ∈ times.getLast?, gap ≤ time - before) :
    Spaced gap (times ++ [time]) := by
  intro i j hij hj
  rw [List.length_append, List.length_singleton] at hj
  rcases Nat.lt_or_ge j times.length with hold | hnew
  · rw [List.getElem_append_left hold, List.getElem_append_left (by omega)]
    exact h i j hij hold
  · obtain rfl : j = times.length := by omega
    have hpos : times.length - 1 < times.length := by omega
    have hlast := hgap times[times.length - 1] (by rw [List.getLast?_eq_getElem?, List.getElem?_eq_getElem hpos]; rfl)
    rw [List.getElem_append_left hij, List.getElem_concat_length rfl]
    rcases Nat.lt_or_ge i (times.length - 1) with hi | hi
    · have hbefore := h i (times.length - 1) hi hpos
      have hcount : times.length - i = times.length - 1 - i + 1 := by omega
      have hstep : ((times.length - i : Nat) : Int) * gap = ((times.length - 1 - i : Nat) : Int) * gap + gap := by
        rw [hcount, Nat.cast_succ]
        ring
      omega
    · obtain rfl : i = times.length - 1 := by omega
      have hone : times.length - (times.length - 1) = 1 := by omega
      rw [hone, Nat.cast_one, Int.one_mul]
      exact hlast

/-- While nothing is forgotten, the time that passed last is remembered. -/
theorem last_of_getLast (noReset : ∀ e ∈ stretch, e ≠ .reset) (h : (stretch.filterMap Entry.time?).getLast? = some time) :
    last (log ++ stretch) = some time := by
  induction stretch using List.reverseRecOn with
  | nil => cases h
  | append_singleton stretch e ih =>
    rw [← List.append_assoc, last_concat]
    rw [List.filterMap_append] at h
    cases e with
    | passed now =>
      rw [List.filterMap_cons_some (f := Entry.time?) rfl, List.filterMap_nil, List.getLast?_concat] at h
      exact h
    | dropped now =>
      rw [List.filterMap_cons_none (f := Entry.time?) rfl, List.filterMap_nil, List.append_nil] at h
      exact ih (fun e he => noReset e (List.mem_append_left _ he)) h
    | reset => exact absurd rfl (noReset .reset (List.mem_append_right _ (List.mem_singleton_self _)))

/-- While nothing is forgotten, the times that pass are spaced. -/
theorem spaced_of_obeys (noReset : ∀ e ∈ stretch, e ≠ .reset) (h : Along (Obeys gap) (log ++ stretch)) :
    Spaced gap (stretch.filterMap Entry.time?) := by
  induction stretch using List.reverseRecOn with
  | nil => exact fun _ _ _ hj => absurd hj (Nat.not_lt_zero _)
  | append_singleton stretch e ih =>
    rw [← List.append_assoc, along_concat] at h
    have hbefore (e : Entry) (he : e ∈ stretch) : e ≠ .reset := noReset e (List.mem_append_left _ he)
    have hspaced := ih hbefore h.1
    rw [List.filterMap_append]
    cases e with
    | passed now =>
      rw [List.filterMap_cons_some (f := Entry.time?) rfl, List.filterMap_nil]
      exact hspaced.concat fun before hlast => h.2 before (last_of_getLast hbefore hlast)
    | dropped now =>
      rw [List.filterMap_cons_none (f := Entry.time?) rfl, List.filterMap_nil, List.append_nil]
      exact hspaced
    | reset => exact absurd rfl (noReset .reset (List.mem_append_right _ (List.mem_singleton_self _)))

end Throttle
