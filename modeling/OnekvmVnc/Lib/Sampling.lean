import Mathlib.Algebra.Order.Floor.Div
import Mathlib.Order.Interval.Set.UnorderedInterval

/-! Sampling a stream at a fixed step, and truncated interpolation. The samples lie at the multiples of the step;
    a stream that comes in pieces is sampled piece by piece, with the phase carried from each piece to the next. -/

namespace Sampling

/-- How many samples the first `length` units of a stream have. -/
def taken (step length : Nat) : Nat := length ⌈/⌉ step

/-- How far past the first `length` units the next sample lies. -/
def phase (step length : Nat) : Nat := taken step length * step - length

variable {step length : Nat}

theorem lt_taken_iff (hstep : 0 < step) {k : Nat} : k < taken step length ↔ k * step < length := by
  rw [← Nat.not_le, ← Nat.not_le, taken, ceilDiv_le_iff_le_mul hstep, Nat.mul_comm]

theorem le_taken_mul (hstep : 0 < step) : length ≤ taken step length * step := by
  rw [Nat.mul_comm]
  exact le_smul_ceilDiv hstep

theorem taken_mono (hstep : 0 < step) {length' : Nat} (h : length ≤ length') : taken step length ≤ taken step length' :=
  (ceilDiv_le_iff_le_mul hstep).mpr (h.trans (le_smul_ceilDiv hstep))

theorem length_add_phase (hstep : 0 < step) : length + phase step length = taken step length * step :=
  Nat.add_sub_of_le (le_taken_mul hstep)

/-- The phase is less than a step. -/
theorem phase_lt (hstep : 0 < step) : phase step length < step := by
  obtain hzero | hpos := Nat.eq_zero_or_pos (taken step length)
  · rw [phase, hzero, Nat.zero_mul, Nat.zero_sub]
    exact hstep
  · -- The last sample lies before the end.
    have hlast := (lt_taken_iff hstep).mp (Nat.sub_one_lt_of_lt hpos)
    rw [Nat.sub_one_mul] at hlast
    have hle : step ≤ taken step length * step := Nat.le_mul_of_pos_left step hpos
    unfold phase
    omega

/-- The samples of a stream are those of its first part and those of the piece after it. -/
theorem range_taken (hstep : 0 < step) {length' : Nat} (h : length ≤ length') : List.range (taken step length') =
    List.range (taken step length) ++ List.range' (taken step length) (taken step length' - taken step length) := by
  rw [List.range_eq_range', List.range_eq_range']
  have hjoin := List.range'_append_1 (s := 0) (m := taken step length) (n := taken step length' - taken step length)
  rw [Nat.zero_add, Nat.add_sub_of_le (taken_mono hstep h)] at hjoin
  exact hjoin.symm

/-- The mean of two values, the second at its `weight` in `total`, truncated towards zero. -/
def mean (total weight : Nat) (first second : Int) : Int :=
  (first * (total - weight : Nat) + second * weight).tdiv total

/-- A quotient truncated towards zero lies between two numbers when the dividend lies between their multiples. -/
theorem le_tdiv_le {divisor dividend low high : Int} (hpos : 0 < divisor) (hlow : low * divisor ≤ dividend)
    (hhigh : dividend ≤ high * divisor) : low ≤ dividend.tdiv divisor ∧ dividend.tdiv divisor ≤ high := by
  have hne : divisor ≠ 0 := by omega
  constructor
  · calc low = (low * divisor).tdiv divisor := (Int.mul_tdiv_cancel low hne).symm
      _ ≤ dividend.tdiv divisor := Int.tdiv_le_tdiv hpos hlow
  · calc dividend.tdiv divisor ≤ (high * divisor).tdiv divisor := Int.tdiv_le_tdiv hpos hhigh
      _ = high := Int.mul_tdiv_cancel high hne

/-- The mean lies between the two values. -/
theorem mean_mem_uIcc {total weight : Nat} (hpos : 0 < total) (hweight : weight ≤ total) (first second : Int) :
    mean total weight first second ∈ Set.uIcc first second := by
  have hsplit (value : Int) : value * total = value * (total - weight : Nat) + value * weight := by
    rw [← Int.mul_add, ← Int.natCast_add, Nat.sub_add_cancel hweight]
  refine le_tdiv_le (Int.natCast_pos.mpr hpos) ?_ ?_
  · rw [hsplit]
    exact Int.add_le_add (Int.mul_le_mul_of_nonneg_right inf_le_left (Int.natCast_nonneg _))
      (Int.mul_le_mul_of_nonneg_right inf_le_right (Int.natCast_nonneg _))
  · rw [hsplit]
    exact Int.add_le_add (Int.mul_le_mul_of_nonneg_right le_sup_left (Int.natCast_nonneg _))
      (Int.mul_le_mul_of_nonneg_right le_sup_right (Int.natCast_nonneg _))

end Sampling
