import Mathlib.Order.Basic
import Mathlib.Algebra.Order.Ring.Nat

/-! Regions at a fixed stride in wrapping arithmetic. Region `i` starts at `base + i * stride`, computed modulo a
    word, while the regions themselves do not wrap. They are apart without a wrap; what they are with one
    depends on the multiples of the stride modulo the word. -/

namespace Strides

/-- The start of a region. -/
def start (word base stride i : Nat) : Nat := (base + i * stride) % word

/-- The regions start at the base or after it, and no two of them overlap. -/
def Apart (word base stride length count : Nat) : Prop :=
  (∀ i < count, base ≤ start word base stride i) ∧
    ∀ i j, i < j → j < count →
      start word base stride i + length ≤ start word base stride j ∨
        start word base stride j + length ≤ start word base stride i

/-- Each multiple of the stride leaves room for a region after the first start; it stays below the word, by the
    base, and if more regions follow, by the length of one. -/
def Spaced (word base stride length count : Nat) : Prop :=
  ∀ d, 0 < d → d < count →
    length ≤ d * stride % word ∧ d * stride % word + base < word ∧ (d + 1 < count → d * stride % word + length ≤ word)

variable {word base stride length count : Nat}

theorem start_eq (stride : Nat) (hword : 0 < word) (hbase : base < word) (i : Nat) : start word base stride i =
    if i * stride % word + base < word then base + i * stride % word else base + i * stride % word - word := by
  have hlt : i * stride % word < word := Nat.mod_lt _ hword
  rw [start, ← Nat.add_mod_mod]
  split
  · rw [Nat.mod_eq_of_lt (by omega)]
  · rw [Nat.mod_eq_sub_mod (by omega), Nat.mod_eq_of_lt (by omega)]

/-- The residues of two multiples add up, or wrap once. -/
theorem residue_add (stride : Nat) (hword : 0 < word) (i d : Nat) : (i + d) * stride % word =
    if i * stride % word + d * stride % word < word then i * stride % word + d * stride % word
    else i * stride % word + d * stride % word - word := by
  have hi : i * stride % word < word := Nat.mod_lt _ hword
  have hd : d * stride % word < word := Nat.mod_lt _ hword
  rw [Nat.add_mul, Nat.add_mod]
  split
  · rw [Nat.mod_eq_of_lt (by omega)]
  · rw [Nat.mod_eq_sub_mod (by omega), Nat.mod_eq_of_lt (by omega)]

theorem start_of_spaced (hword : 0 < word) (hbase : base < word) (h : Spaced word base stride length count) {i : Nat}
    (hi : i < count) : start word base stride i = base + i * stride % word := by
  rw [start_eq stride hword hbase]
  cases i with
  | zero => rw [if_pos (by simpa using hbase)]
  | succ i => rw [if_pos (h (i + 1) (Nat.succ_pos i) hi).2.1]

/-- The regions are apart exactly when the multiples of the stride are spaced. -/
theorem apart_iff (hbase : base < word) (hlength : 0 < length) :
    Apart word base stride length count ↔ Spaced word base stride length count := by
  have hword : 0 < word := Nat.zero_lt_of_lt hbase
  have hzero : start word base stride 0 = base := by rw [start, Nat.zero_mul, Nat.add_zero, Nat.mod_eq_of_lt hbase]
  constructor
  · rintro ⟨hafter, hapart⟩
    have hspaced (d : Nat) (hpos : 0 < d) (hd : d < count) :
        start word base stride d = base + d * stride % word ∧ d * stride % word + base < word ∧
          length ≤ d * stride % word := by
      have hlt : d * stride % word < word := Nat.mod_lt _ hword
      have hstart := start_eq stride hword hbase d
      have hge := hafter d hd
      have hfirst := hapart 0 d hpos hd
      rw [hzero] at hfirst
      split at hstart <;> omega
    intro d hpos hd
    obtain ⟨-, hbelow, hroom⟩ := hspaced d hpos hd
    refine ⟨hroom, hbelow, fun hnext => ?_⟩
    -- Region 1 and region `d + 1` are as far apart as the first one and region `d`, or meet around the word.
    obtain ⟨hone, -, hroom₁⟩ := hspaced 1 Nat.one_pos (by omega)
    obtain ⟨hsucc, -, -⟩ := hspaced (1 + d) (by omega) (by omega)
    have hadd := residue_add stride hword 1 d
    have hpair := hapart 1 (1 + d) (by omega) (by omega)
    rw [hone, hsucc] at hpair
    have hlt : d * stride % word < word := Nat.mod_lt _ hword
    split at hadd <;> omega
  · intro h
    refine ⟨fun i hi => ?_, fun i j hij hj => ?_⟩
    · rw [start_of_spaced hword hbase h hi]
      omega
    · rw [start_of_spaced hword hbase h (hij.trans hj), start_of_spaced hword hbase h hj]
      obtain ⟨d, rfl⟩ := Nat.exists_eq_add_of_lt hij
      obtain ⟨hroom, -, hnext⟩ := h (d + 1) (Nat.succ_pos d) (by omega)
      have hadd := residue_add stride hword i (d + 1)
      rw [Nat.add_assoc i d 1]
      split at hadd
      · omega
      · -- Only a region after the first one can be passed by a wrap.
        have hfirst : i ≠ 0 := by
          rintro rfl
          have hlt : (d + 1) * stride % word < word := Nat.mod_lt _ hword
          rw [Nat.zero_mul, Nat.zero_mod] at *
          omega
        have := hnext (by omega)
        omega

/-- Without a wrap, the multiples are spaced. -/
theorem spaced_of_lt (hlength : length ≤ stride) (h : base + (count - 1) * stride < word) :
    Spaced word base stride length count := by
  intro d hpos hd
  have hle : d * stride ≤ (count - 1) * stride := Nat.mul_le_mul_right stride (by omega)
  have hone : stride ≤ d * stride := Nat.le_mul_of_pos_left stride hpos
  rw [Nat.mod_eq_of_lt (by omega)]
  refine ⟨by omega, by omega, fun hnext => ?_⟩
  have hsucc : (d + 1) * stride ≤ (count - 1) * stride := Nat.mul_le_mul_right stride (by omega)
  rw [Nat.succ_mul] at hsucc
  omega

/-- Regions that fit without a wrap end within the same bound with one. -/
theorem start_add_le {size : Nat} (hlength : length ≤ stride)
    (hsize : base + count * stride ≤ size) {i : Nat} (hi : i < count) : start word base stride i + length ≤ size := by
  have hle : start word base stride i ≤ base + i * stride := Nat.mod_le _ _
  have hnext : (i + 1) * stride ≤ count * stride := Nat.mul_le_mul_right stride hi
  rw [Nat.succ_mul] at hnext
  omega

end Strides
