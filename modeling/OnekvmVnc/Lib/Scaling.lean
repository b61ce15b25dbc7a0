import Mathlib.Order.Lattice

/-! Steps scaled onto a range with a division that truncates. The first step comes to the start of the range and the
    last one to its end; no two steps come to the same place, if there are no more of them than places. -/

namespace Scaling

variable {range last v w : Nat}

/-- Where the step `v` of `0..last` lies in `0..range`. -/
def scale (range last v : Nat) : Nat := v * range / last

@[simp] theorem scale_zero : scale range last 0 = 0 := by rw [scale, Nat.zero_mul, Nat.zero_div]

theorem scale_last (pos : 0 < last) : scale range last last = range := Nat.mul_div_cancel_left range pos

theorem scale_mono (h : v ≤ w) : scale range last v ≤ scale range last w :=
  Nat.div_le_div_right (Nat.mul_le_mul_right range h)

theorem scale_le (pos : 0 < last) (h : v ≤ last) : scale range last v ≤ range :=
  (scale_mono h).trans (scale_last pos).le

/-- One step is at least one place. -/
theorem scale_lt (pos : 0 < last) (places : last ≤ range) (h : v < w) : scale range last v < scale range last w := by
  have hstep : v * range + last ≤ w * range :=
    calc v * range + last ≤ v * range + range := Nat.add_le_add_left places _
      _ = (v + 1) * range := (Nat.succ_mul v range).symm
      _ ≤ w * range := Nat.mul_le_mul_right range h
  calc scale range last v < v * range / last + 1 := Nat.lt_succ_self _
    _ = (v * range + last) / last := (Nat.add_div_right _ pos).symm
    _ ≤ scale range last w := Nat.div_le_div_right hstep

theorem scale_injective (pos : 0 < last) (places : last ≤ range) (h : scale range last v = scale range last w) :
    v = w := by
  rcases Nat.lt_trichotomy v w with hlt | heq | hlt
  · exact absurd h (scale_lt pos places hlt).ne
  · exact heq
  · exact absurd h.symm (scale_lt pos places hlt).ne

end Scaling
