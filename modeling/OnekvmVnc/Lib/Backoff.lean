import Mathlib.Algebra.Order.Ring.Nat
import Mathlib.Data.List.Basic

/-! One who tries again and again, and sleeps before the next attempt. The sleep doubles with every attempt that fails,
    up to a limit, and begins anew behind an attempt that goes through. -/

namespace Backoff

/-- What a log tells of the attempts. -/
inductive Mark where
  | failed
  | done
  deriving DecidableEq, Repr

/-- The failures since the last attempt that went through. -/
def failures (marks : List Mark) : Nat :=
  marks.foldl (fun n mark => match mark with | .failed => n + 1 | .done => 0) 0

theorem failures_failed (marks : List Mark) : failures (marks ++ [.failed]) = failures marks + 1 := List.foldl_concat ..

theorem failures_done (marks : List Mark) : failures (marks ++ [.done]) = 0 := List.foldl_concat ..

/-- The sleep, doubled that often. -/
def doubled (first limit times : Nat) : Nat := min (first * 2 ^ times) limit

variable {first limit : Nat}

theorem doubled_zero (h : first ≤ limit) : doubled first limit 0 = first := by
  rw [doubled, pow_zero, Nat.mul_one, Nat.min_eq_left h]

/-- Once more, with the limit applied at each time. -/
theorem doubled_succ (times : Nat) : min (doubled first limit times * 2) limit = doubled first limit (times + 1) := by
  rw [doubled, doubled, pow_succ, ← Nat.mul_assoc]
  omega

end Backoff
