import Mathlib.Algebra.Order.Ring.Int
import Mathlib.Tactic.Ring

/-! Schedules that move on in whole intervals. A schedule never falls an interval behind the times it is moved at,
    and as long as it does not run ahead of them by more than a slack, the times keep the cadence. -/

namespace Cadence

variable {interval slack last now : Int} {times : List Int}

/-- The schedule moves on by an interval, and by as many more as have gone by. -/
def advance (interval last now : Int) : Int :=
  if last + interval + interval ≤ now then last + interval + interval * ((now - (last + interval)) / interval)
  else last + interval

theorem le_advance (pos : 0 < interval) : last + interval ≤ advance interval last now := by
  unfold advance
  split
  · rename_i hbehind
    have hskipped : 0 ≤ interval * ((now - (last + interval)) / interval) :=
      Int.mul_nonneg pos.le (Int.ediv_nonneg (by omega) pos.le)
    omega
  · exact le_refl _

theorem lt_advance (pos : 0 < interval) : now < advance interval last now + interval := by
  unfold advance
  split
  · have hrest : now - (last + interval) < interval * ((now - (last + interval)) / interval) + interval :=
      Int.lt_mul_ediv_self_add pos
    omega
  · omega

theorem advance_le (nonneg : 0 ≤ slack) (h : last + interval ≤ now + slack) :
    advance interval last now ≤ now + slack := by
  unfold advance
  split
  · have hskipped : interval * ((now - (last + interval)) / interval) ≤ now - (last + interval) := by
      by_cases hzero : interval = 0
      · rw [hzero, Int.zero_mul]
        omega
      · exact Int.mul_ediv_self_le hzero
    omega
  · exact h

/-- A schedule that is moved less than an interval late moves on by one interval. -/
theorem advance_of_lt (h : now < last + interval + interval) : advance interval last now = last + interval :=
  if_neg (by omega)

/-! ### The times of a schedule -/

/-- From any of the times to a later one, less than an interval and the slack are missing. -/
def Spaced (interval slack : Int) (times : List Int) : Prop :=
  ∀ i j, (hij : i ≤ j) → (hj : j < times.length) →
    ((j - i : Nat) : Int) * interval < times[j] - times[i] + interval + slack

/-- The schedule was moved at the times. From each of them on it has counted the intervals. -/
structure Counts (interval slack : Int) (times : List Int) (last : Int) : Prop where
  spaced : Spaced interval slack times
  behind : ∀ i (hi : i < times.length), times[i] + ((times.length - 1 - i : Nat) : Int) * interval < last + interval

theorem counts_nil : Counts interval slack [] last :=
  ⟨fun _ _ _ hj => absurd hj (Nat.not_lt_zero _), fun _ hi => absurd hi (Nat.not_lt_zero _)⟩

theorem Counts.append (h : Counts interval slack times last) {last' : Int} (moved : times ≠ [] → last + interval ≤ last')
    (behind : now < last' + interval) (ahead : last' ≤ now + slack) : Counts interval slack (times ++ [now]) last' := by
  have hbehind (i : Nat) (hi : i < (times ++ [now]).length) :
      (times ++ [now])[i] + (((times ++ [now]).length - 1 - i : Nat) : Int) * interval < last' + interval := by
    rw [List.length_append, List.length_singleton] at hi
    by_cases hold : i < times.length
    · have hmoved := moved (List.ne_nil_of_length_pos (by omega))
      have hcount : times.length - i = times.length - 1 - i + 1 := by omega
      have hsum : ((times.length - i : Nat) : Int) * interval =
          ((times.length - 1 - i : Nat) : Int) * interval + interval := by
        rw [hcount, Nat.cast_succ]
        ring
      have hlast := h.behind i hold
      rw [List.getElem_append_left hold, List.length_append, List.length_singleton, Nat.add_sub_cancel, hsum]
      omega
    · obtain rfl : i = times.length := by omega
      simpa using behind
  refine ⟨fun i j hij hj => ?_, hbehind⟩
  by_cases hold : j < times.length
  · rw [List.getElem_append_left hold, List.getElem_append_left (by omega)]
    exact h.spaced i j hij hold
  · have hlength : (times ++ [now]).length = times.length + 1 := by rw [List.length_append, List.length_singleton]
    obtain rfl : j = times.length := by omega
    have hcount : (times ++ [now]).length - 1 - i = times.length - i := by rw [hlength, Nat.add_sub_cancel]
    have hfirst := hbehind i (by omega)
    rw [hcount] at hfirst
    rw [List.getElem_concat_length rfl]
    omega

end Cadence
