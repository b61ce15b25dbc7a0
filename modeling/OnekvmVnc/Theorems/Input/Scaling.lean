import Mathlib.Algebra.Ring.Int.Defs
import OnekvmVnc.Input
import OnekvmVnc.Lib.Scaling

/-! The absolute coordinates of `Pointer`. The product of a clamped coordinate and 32767 fits in 32 bits for every
    framebuffer, so that the division gives the place of the pixel on the range of an absolute report. -/

namespace OnekvmVnc

open Scaling

/-- The greatest coordinate of an absolute report. -/
def maxAbsolute : Nat := 32767

/-- How an axis with `extent` pixels is scaled. -/
structure Scaled (extent : Nat) (coordinate : Int → UInt16) : Prop where
  /-- The clamped value is a pixel of the axis, and its product has no overflow. -/
  fits : ∀ value, 0 ≤ clamp value 0 (extent - 1) ∧ clamp value 0 (extent - 1) < extent ∧
    clamp value 0 (extent - 1) * maxAbsolute < 2 ^ 32
  /-- The coordinate is what the division gives without any overflow. -/
  exact : 1 < extent → ∀ value,
    (coordinate value).toNat = (clamp value 0 (extent - 1)).toNat * maxAbsolute / (extent - 1)
  single : extent ≤ 1 → ∀ value, coordinate value = 0
  le : ∀ value, (coordinate value).toNat ≤ maxAbsolute
  mono : ∀ value value', value ≤ value' → (coordinate value).toNat ≤ (coordinate value').toNat
  first : ∀ value, value ≤ 0 → coordinate value = 0
  last : 1 < extent → ∀ value : Int, extent - 1 ≤ value → (coordinate value).toNat = maxAbsolute
  distinct : extent ≤ 32768 → ∀ value value' : Int, 0 ≤ value → value < extent → 0 ≤ value' → value' < extent →
    coordinate value = coordinate value' → value = value'

theorem clamp_mem {value low high : Int} (h : low ≤ high) : low ≤ clamp value low high ∧ clamp value low high ≤ high := by
  unfold clamp
  split
  · exact ⟨le_refl low, h⟩
  · split <;> omega

theorem clamp_of_mem {value low high : Int} (hlow : low ≤ value) (hhigh : value ≤ high) : clamp value low high = value := by
  rw [clamp, if_neg (not_lt.mpr hlow), if_neg (not_lt.mpr hhigh)]

theorem clamp_of_le {value low high : Int} (h : low ≤ high) (hle : value ≤ low) : clamp value low high = low := by
  rcases hle.eq_or_lt with rfl | hlt
  · exact clamp_of_mem (le_refl _) h
  · rw [clamp, if_pos hlt]

theorem clamp_of_ge {value low high : Int} (h : low ≤ high) (hge : high ≤ value) : clamp value low high = high := by
  rcases hge.eq_or_lt with rfl | hlt
  · exact clamp_of_mem h (le_refl _)
  · rw [clamp, if_neg (not_lt.mpr (h.trans hge)), if_pos hlt]

theorem clamp_mono {value value' low high : Int} (h : low ≤ high) (hle : value ≤ value') :
    clamp value low high ≤ clamp value' low high := by
  rcases le_total value low with hlow | hlow
  · rw [clamp_of_le h hlow]
    exact (clamp_mem h).1
  · rcases le_total value' high with hhigh | hhigh
    · rw [clamp_of_mem hlow (hle.trans hhigh), clamp_of_mem (hlow.trans hle) hhigh]
      exact hle
    · rw [clamp_of_ge h hhigh]
      exact (clamp_mem h).2

section
variable {extent : UInt16}

/-- The 32-bit arithmetic of `Pointer` is exact. -/
theorem absoluteCoordinate_eq (wide : 1 < extent.toNat) (value : Int) :
    (absoluteCoordinate value extent).toNat =
      scale maxAbsolute (extent.toNat - 1) (clamp value 0 (extent.toNat - 1)).toNat := by
  have hextent : extent.toNat < 65536 := extent.toNat_lt
  have hroom : (0 : Int) ≤ extent.toNat - 1 := by omega
  obtain ⟨hlow, hhigh⟩ : 0 ≤ clamp value 0 (extent.toNat - 1) ∧ clamp value 0 (extent.toNat - 1) ≤ extent.toNat - 1 :=
    clamp_mem hroom
  unfold absoluteCoordinate
  generalize clamp value 0 (extent.toNat - 1) = clamped at hlow hhigh
  obtain ⟨n, rfl⟩ := Int.eq_ofNat_of_zero_le hlow
  have hn : n ≤ extent.toNat - 1 := by omega
  have hone : (1 : UInt32) ≤ extent.toUInt32 := by
    rw [UInt32.le_iff_toNat_le, UInt16.toNat_toUInt32]
    exact wide.le
  have hlast : (extent.toUInt32 - 1).toNat = extent.toNat - 1 := by
    rw [UInt32.toNat_sub_of_le _ _ hone, UInt16.toNat_toUInt32]
    rfl
  have hmod : ((n : Int) % 2 ^ 32).toNat = n := by omega
  have hvalue : (UInt32.ofInt (n : Int)).toNat = n := by
    rw [UInt32.ofInt, hmod]
    exact Nat.mod_eq_of_lt (by omega)
  have hproduct : (UInt32.ofInt (n : Int) * 32767).toNat = n * maxAbsolute := by
    rw [UInt32.toNat_mul, hvalue]
    change n * 32767 % _ = n * 32767
    exact Nat.mod_eq_of_lt (by omega)
  have hle : scale maxAbsolute (extent.toNat - 1) n ≤ maxAbsolute := scale_le (by omega) hn
  have hwide : extent > 1 := UInt16.lt_iff_toNat_lt.mpr wide
  dsimp only
  rw [if_pos hwide, UInt32.toNat_toUInt16, UInt32.toNat_div, hproduct, hlast, Int.toNat_natCast]
  exact Nat.mod_eq_of_lt (Nat.lt_of_le_of_lt hle (by decide))

theorem absoluteCoordinate_of_le (single : extent.toNat ≤ 1) (value : Int) : absoluteCoordinate value extent = 0 := by
  unfold absoluteCoordinate
  dsimp only
  refine if_neg ?_
  rw [gt_iff_lt, UInt16.lt_iff_toNat_lt]
  exact not_lt.mpr single

theorem scaled_absoluteCoordinate (pos : 0 < extent.toNat) : Scaled extent.toNat (absoluteCoordinate · extent) := by
  have hextent : extent.toNat < 65536 := extent.toNat_lt
  have hroom : (0 : Int) ≤ extent.toNat - 1 := by omega
  have hclamp (value : Int) : 0 ≤ clamp value 0 (extent.toNat - 1) ∧ clamp value 0 (extent.toNat - 1) ≤ extent.toNat - 1 :=
    clamp_mem hroom
  have htoNat {value : Int} : (clamp value 0 (extent.toNat - 1)).toNat ≤ extent.toNat - 1 := by
    have := hclamp value
    omega
  rcases Nat.lt_or_ge 1 extent.toNat with wide | single
  · have hlast : 0 < extent.toNat - 1 := by omega
    refine ⟨fun value => ?_, fun _ value => absoluteCoordinate_eq wide value, fun h => absurd h (not_le.mpr wide),
      fun value => ?_, fun value value' hle => ?_, fun value hle => ?_, fun _ value hge => ?_,
      fun hsmall value value' hlow hhigh hlow' hhigh' heq => ?_⟩
    · obtain ⟨hlow, hhigh⟩ := hclamp value
      refine ⟨hlow, by omega, ?_⟩
      unfold maxAbsolute
      omega
    · rw [absoluteCoordinate_eq wide]
      exact scale_le hlast htoNat
    · rw [absoluteCoordinate_eq wide, absoluteCoordinate_eq wide]
      exact scale_mono (Int.toNat_le_toNat (clamp_mono (by omega) hle))
    · rw [← UInt16.toNat_inj, absoluteCoordinate_eq wide, clamp_of_le (by omega) hle]
      exact scale_zero
    · have htop : ((extent.toNat : Int) - 1).toNat = extent.toNat - 1 := by omega
      rw [absoluteCoordinate_eq wide, clamp_of_ge (by omega) hge, htop]
      exact scale_last hlast
    · have hscale := congrArg UInt16.toNat heq
      rw [absoluteCoordinate_eq wide, absoluteCoordinate_eq wide, clamp_of_mem hlow (by omega),
        clamp_of_mem hlow' (by omega)] at hscale
      have hplace := scale_injective hlast (by unfold maxAbsolute; omega) hscale
      omega
  · have hzero := absoluteCoordinate_of_le single
    refine ⟨fun value => ?_, fun h => absurd h (not_lt.mpr single), fun _ => hzero, fun value => ?_,
      fun value value' _ => ?_, fun value _ => hzero value, fun h => absurd h (not_lt.mpr single),
      fun _ value value' hlow hhigh hlow' hhigh' _ => by omega⟩
    · obtain ⟨hlow, hhigh⟩ := hclamp value
      refine ⟨hlow, by omega, ?_⟩
      unfold maxAbsolute
      omega
    · rw [hzero]
      exact Nat.zero_le _
    · rw [hzero, hzero]

end

theorem toNat_max_one (extent : UInt16) : (max extent 1).toNat = max extent.toNat 1 := by
  change (if extent ≤ 1 then 1 else extent).toNat = _
  split
  · rename_i hle
    exact (max_eq_right (UInt16.le_iff_toNat_le.mp hle)).symm
  · rename_i hgt
    exact (max_eq_left (not_le.mp (mt UInt16.le_iff_toNat_le.mpr hgt)).le).symm

/-- The coordinates that `Pointer` stores, whether the report is urgent or not. -/
theorem pointer_coordinates (s : InputState) (buttonMask : UInt32) (x y : Int) :
    (s.pointer buttonMask x y).pointerX = absoluteCoordinate x s.width ∧
      (s.pointer buttonMask x y).pointerY = absoluteCoordinate y s.height := by
  unfold InputState.pointer
  dsimp only
  split <;> exact ⟨rfl, rfl⟩

/-- After `Resize`, every pointer event has its coordinates scaled along both axes of the framebuffer. -/
theorem pointer_scaled (s : InputState) (width height : UInt16) (buttonMask : UInt32) :
    (∀ y, Scaled (max width.toNat 1) fun x => ((s.resize width height).pointer buttonMask x y).pointerX) ∧
    (∀ x, Scaled (max height.toNat 1) fun y => ((s.resize width height).pointer buttonMask x y).pointerY) := by
  have hscaled (extent : UInt16) : Scaled (max extent.toNat 1) (absoluteCoordinate · (max extent 1)) := by
    rw [← toNat_max_one]
    refine scaled_absoluteCoordinate ?_
    rw [toNat_max_one]
    exact Nat.lt_of_lt_of_le Nat.one_pos (Nat.le_max_right extent.toNat 1)
  refine ⟨fun y => ?_, fun x => ?_⟩
  · simp only [pointer_coordinates]
    exact hscaled width
  · simp only [pointer_coordinates]
    exact hscaled height

end OnekvmVnc
