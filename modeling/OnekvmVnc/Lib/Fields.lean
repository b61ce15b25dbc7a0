import Mathlib.Algebra.Order.Ring.Nat

/-! Fields of bits in a word. Values that are put into fields with no bit in common are found there again, in whatever
    order they are put together. -/

namespace Fields

/-- `width` bits from the bit `shift` on. -/
structure BitField where
  shift : Nat
  width : Nat
  deriving DecidableEq, Repr

namespace BitField

def put (f : BitField) (value : Nat) : Nat := value <<< f.shift

def get (f : BitField) (word : Nat) : Nat := (word >>> f.shift) % 2 ^ f.width

/-- The field has room for the value. -/
def Fits (f : BitField) (value : Nat) : Prop := value < 2 ^ f.width

/-- No bit is in both fields. -/
def Apart (f g : BitField) : Prop := f.shift + f.width ≤ g.shift ∨ g.shift + g.width ≤ f.shift

instance (f g : BitField) : Decidable (f.Apart g) := inferInstanceAs (Decidable (_ ∨ _))

variable {f g : BitField} {value word word' : Nat}

theorem Apart.symm (h : f.Apart g) : g.Apart f := Or.symm h

theorem testBit_get (i : Nat) : (f.get word).testBit i = (decide (i < f.width) && word.testBit (f.shift + i)) := by
  rw [get, Nat.testBit_mod_two_pow, Nat.testBit_shiftRight]

theorem get_or : f.get (word ||| word') = f.get word ||| f.get word' := by
  refine Nat.eq_of_testBit_eq fun i => ?_
  rw [testBit_get, Nat.testBit_or, Nat.testBit_or, testBit_get, testBit_get, Bool.and_or_distrib_left]

theorem get_put (h : f.Fits value) : f.get (f.put value) = value := by
  rw [get, put, Nat.shiftLeft_shiftRight]
  exact Nat.mod_eq_of_lt h

/-- The value of another field leaves no bit. -/
theorem get_put_of_apart (apart : f.Apart g) (h : g.Fits value) : f.get (g.put value) = 0 := by
  refine Nat.eq_of_testBit_eq fun i => ?_
  rw [testBit_get, put, Nat.testBit_shiftLeft, Nat.zero_testBit]
  by_cases hi : i < f.width
  · by_cases hge : g.shift ≤ f.shift + i
    · have habove : g.width ≤ f.shift + i - g.shift := by
        rcases apart with happ | happ <;> omega
      have hbit : value.testBit (f.shift + i - g.shift) = false :=
        Nat.testBit_lt_two_pow (Nat.lt_of_lt_of_le h (Nat.pow_le_pow_right Nat.two_pos habove))
      rw [hbit, Bool.and_false, Bool.and_false]
    · rw [decide_eq_false hge, Bool.false_and, Bool.and_false]
  · rw [decide_eq_false hi, Bool.false_and]

theorem put_lt (h : f.Fits value) {bits : Nat} (room : f.shift + f.width ≤ bits) : f.put value < 2 ^ bits := by
  rw [put, Nat.shiftLeft_eq]
  calc value * 2 ^ f.shift < 2 ^ f.width * 2 ^ f.shift := Nat.mul_lt_mul_of_pos_right h (Nat.two_pow_pos _)
    _ = 2 ^ (f.shift + f.width) := by rw [Nat.mul_comm, ← pow_add]
    _ ≤ 2 ^ bits := Nat.pow_le_pow_right Nat.two_pos room

end BitField

/-- The word with all values put together. -/
def word : List (BitField × Nat) → Nat
  | [] => 0
  | (f, value) :: rest => f.put value ||| word rest

variable {entries : List (BitField × Nat)} {f : BitField} {value : Nat}

/-- A field that is apart from all is empty. -/
theorem get_word_of_apart (fits : ∀ entry ∈ entries, entry.1.Fits entry.2) (apart : ∀ entry ∈ entries, f.Apart entry.1) :
    f.get (word entries) = 0 := by
  induction entries with
  | nil =>
    rw [word, BitField.get, Nat.zero_shiftRight, Nat.zero_mod]
  | cons entry rest ih =>
    obtain ⟨hfits, hfitsRest⟩ := List.forall_mem_cons.mp fits
    obtain ⟨hapart, hapartRest⟩ := List.forall_mem_cons.mp apart
    rw [word, BitField.get_or, BitField.get_put_of_apart hapart hfits, ih hfitsRest hapartRest, Nat.zero_or]

/-- Every value is found in its field. -/
theorem get_word (fits : ∀ entry ∈ entries, entry.1.Fits entry.2)
    (apart : entries.Pairwise fun entry other => entry.1.Apart other.1) (mem : (f, value) ∈ entries) :
    f.get (word entries) = value := by
  induction entries with
  | nil => cases mem
  | cons entry rest ih =>
    obtain ⟨hfits, hfitsRest⟩ := List.forall_mem_cons.mp fits
    obtain ⟨hapart, hapartRest⟩ := List.pairwise_cons.mp apart
    rw [word, BitField.get_or]
    rcases List.mem_cons.mp mem with rfl | hmem
    · rw [BitField.get_put hfits, get_word_of_apart hfitsRest hapart, Nat.or_zero]
    · rw [BitField.get_put_of_apart (hapart _ hmem).symm hfits, ih hfitsRest hapartRest hmem, Nat.zero_or]

end Fields
