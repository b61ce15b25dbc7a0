import Mathlib.Data.Rat.Defs
import Mathlib.Tactic.NormNum
import Mathlib.Tactic.FieldSimp
import Mathlib.Tactic.Ring
import OnekvmVnc.Lib.Json

/-! Numbers as they are written in decimal in a JSON text: natural numbers, and numbers with a decimal point. -/

namespace Json

open Decoder

/-! ### Digits -/

/-- The decimal digits of a number. -/
def decimalCode (n : Nat) : List UInt8 := (Nat.toDigits 10 n).map fun c => UInt8.ofNat c.toNat

/-- What the digits stand for. -/
def decimalValue (code : List UInt8) : Nat := code.foldl (fun n b => 10 * n + (b.toNat - 0x30)) 0

theorem decimalValue_concat (code : List UInt8) (b : UInt8) :
    decimalValue (code ++ [b]) = 10 * decimalValue code + (b.toNat - 0x30) := List.foldl_concat ..

theorem digit_lt_ten : ∀ n : Fin 10, UInt8.ofNat (Nat.digitChar n).toNat = UInt8.ofNat (0x30 + n) := by decide

theorem isDigit_ofNat : ∀ n : Fin 10, isDigit (UInt8.ofNat (0x30 + n)) = true := by decide

theorem toNat_digit {n : Nat} (h : n < 10) : (UInt8.ofNat (0x30 + n)).toNat = 0x30 + n := by
  rw [UInt8.toNat_ofNat', Nat.mod_eq_of_lt (by omega)]

theorem decimalCode_of_lt {n : Nat} (h : n < 10) : decimalCode n = [UInt8.ofNat (0x30 + n)] := by
  rw [decimalCode, Nat.toDigits_of_lt_base h, List.map_singleton]
  exact congrArg (fun b => [b]) (digit_lt_ten ⟨n, h⟩)

theorem decimalCode_of_le {n : Nat} (h : 10 ≤ n) :
    decimalCode n = decimalCode (n / 10) ++ [UInt8.ofNat (0x30 + n % 10)] := by
  rw [decimalCode, Nat.toDigits_of_base_le (by decide) h, List.map_append, List.map_singleton]
  exact congrArg (fun b => decimalCode (n / 10) ++ [b]) (digit_lt_ten ⟨n % 10, Nat.mod_lt n (by decide)⟩)

/-- A number with one digit, or one digit behind those of a smaller number. -/
theorem decimal_induction {P : Nat → Prop} (digit : ∀ n < 10, P n) (more : ∀ n, 10 ≤ n → P (n / 10) → P n) (n : Nat) :
    P n := by
  induction n using Nat.strongRecOn with
  | ind n ih =>
    by_cases hn : n < 10
    · exact digit n hn
    · exact more n (by omega) (ih (n / 10) (by omega))

theorem decimalValue_decimalCode (n : Nat) : decimalValue (decimalCode n) = n := by
  induction n using decimal_induction with
  | digit n hn =>
    rw [decimalCode_of_lt hn]
    change 10 * 0 + ((UInt8.ofNat (0x30 + n)).toNat - 0x30) = n
    rw [toNat_digit hn]
    omega
  | more n hn ih =>
    rw [decimalCode_of_le hn, decimalValue_concat, ih, toNat_digit (Nat.mod_lt n (by decide))]
    omega

theorem digits_decimalCode (n : Nat) : ∀ b ∈ decimalCode n, isDigit b = true := by
  induction n using decimal_induction with
  | digit n hn =>
    rw [decimalCode_of_lt hn]
    exact List.forall_mem_singleton.mpr (isDigit_ofNat ⟨n, hn⟩)
  | more n hn ih =>
    rw [decimalCode_of_le hn]
    exact List.forall_mem_append.mpr
      ⟨ih, List.forall_mem_singleton.mpr (isDigit_ofNat ⟨n % 10, Nat.mod_lt n (by decide)⟩)⟩

theorem decimalCode_ne_nil (n : Nat) : decimalCode n ≠ [] :=
  fun h => Nat.toDigits_ne_nil (List.map_eq_nil_iff.mp h)

/-- The digits of a number begin with a zero if that is all there is. -/
theorem decimalCode_lead (n : Nat) : decimalCode n = [0x30] ∨ ∃ b rest, decimalCode n = b :: rest ∧ b ≠ 0x30 := by
  induction n using decimal_induction with
  | digit n hn =>
    rw [decimalCode_of_lt hn]
    by_cases hzero : n = 0
    · exact .inl (by rw [hzero]; rfl)
    · refine .inr ⟨_, [], rfl, fun h => ?_⟩
      have hval := congrArg UInt8.toNat h
      rw [toNat_digit hn] at hval
      change 0x30 + n = 0x30 at hval
      omega
  | more n hn ih =>
    rw [decimalCode_of_le hn]
    rcases ih with hzero | ⟨b, rest, hlead, hne⟩
    · have hvalue := decimalValue_decimalCode (n / 10)
      rw [hzero] at hvalue
      change 0 = n / 10 at hvalue
      omega
    · exact .inr ⟨b, rest ++ [_], by rw [hlead, List.cons_append], hne⟩

/-! ### Numbers -/

/-- What a number without sign and exponent stands for. -/
def numberValue (text : List UInt8) : ℚ :=
  let fraction := (text.dropWhile isDigit).drop 1
  decimalValue (text.takeWhile isDigit ++ fraction) / 10 ^ fraction.length

/-- The text behind a number begins with no digit. -/
def Stops (rest : List UInt8) : Prop := ∀ b ∈ rest.head?, isDigit b = false

theorem takeWhile_digits {code : List UInt8} (rest : List UInt8) (h : ∀ b ∈ code, isDigit b = true) (stops : Stops rest) :
    (code ++ rest).takeWhile isDigit = code ∧ (code ++ rest).dropWhile isDigit = rest := by
  rw [List.takeWhile_append_of_pos h, List.dropWhile_append_of_pos h]
  cases rest with
  | nil => exact ⟨List.append_nil code, rfl⟩
  | cons b rest =>
    have hb : ¬ isDigit b = true := by rw [stops b rfl]; exact Bool.false_ne_true
    exact ⟨by rw [List.takeWhile_cons_of_neg hb, List.append_nil], List.dropWhile_cons_of_neg hb⟩

theorem numberValue_decimalCode (n : Nat) : numberValue (decimalCode n) = n := by
  have hspan := takeWhile_digits [] (digits_decimalCode n) nofun
  rw [List.append_nil] at hspan
  simp [numberValue, hspan, decimalValue_decimalCode]

/-- A number of hundredths with its point, and some zeros behind. -/
def hundredthsCode (zeros n : Nat) : List UInt8 :=
  decimalCode (n / 100) ++ 0x2e :: (UInt8.ofNat (0x30 + n / 10 % 10) :: UInt8.ofNat (0x30 + n % 10) :: List.replicate zeros 0x30)

theorem decimalValue_zeros (code : List UInt8) (zeros : Nat) :
    decimalValue (code ++ List.replicate zeros 0x30) = decimalValue code * 10 ^ zeros := by
  induction zeros with
  | zero => rw [List.replicate_zero, List.append_nil, Nat.pow_zero, Nat.mul_one]
  | succ zeros ih =>
    rw [List.replicate_succ', ← List.append_assoc, decimalValue_concat, ih, Nat.pow_succ]
    change 10 * (decimalValue code * 10 ^ zeros) + 0 = _
    ring

theorem numberValue_hundredthsCode (zeros n : Nat) : numberValue (hundredthsCode zeros n) = n / 100 := by
  obtain ⟨htake, hdrop⟩ := takeWhile_digits (0x2e :: (UInt8.ofNat (0x30 + n / 10 % 10) ::
    UInt8.ofNat (0x30 + n % 10) :: List.replicate zeros 0x30)) (digits_decimalCode (n / 100)) (by rintro b ⟨⟩; rfl)
  have hdigits : decimalValue (decimalCode (n / 100) ++ UInt8.ofNat (0x30 + n / 10 % 10) :: UInt8.ofNat (0x30 + n % 10) ::
      List.replicate zeros 0x30) = n * 10 ^ zeros := by
    have hsplit : decimalCode (n / 100) ++ UInt8.ofNat (0x30 + n / 10 % 10) :: UInt8.ofNat (0x30 + n % 10) ::
        List.replicate zeros 0x30 = decimalCode (n / 100) ++ [UInt8.ofNat (0x30 + n / 10 % 10)] ++
          [UInt8.ofNat (0x30 + n % 10)] ++ List.replicate zeros 0x30 := by
      simp only [List.append_assoc, List.cons_append, List.nil_append]
    rw [hsplit, decimalValue_zeros, decimalValue_concat, decimalValue_concat, decimalValue_decimalCode,
      toNat_digit (Nat.mod_lt _ (by decide)), toNat_digit (Nat.mod_lt _ (by decide))]
    congr 1
    omega
  rw [numberValue, hundredthsCode, htake, hdrop, List.drop_one, List.tail_cons, hdigits, List.length_cons, List.length_cons, List.length_replicate]
  push_cast
  have hpow : (10 : ℚ) ^ zeros ≠ 0 := pow_ne_zero _ (by norm_num)
  rw [pow_succ, pow_succ]
  field_simp
  norm_num

/-! ### Reading them -/

theorem digit_bounds {b : UInt8} (h : isDigit b = true) : 0x30 ≤ b ∧ b ≤ 0x39 := by
  simpa only [isDigit, Bool.and_eq_true, decide_eq_true_eq] using h

theorem digit_ne {b x : UInt8} (h : isDigit b = true) (hx : isDigit x = false) : b ≠ x := by
  rintro rfl
  rw [h] at hx
  cases hx

theorem digits_append {code : List UInt8} (rest : List UInt8) (hne : code ≠ []) (h : ∀ b ∈ code, isDigit b = true) (stops : Stops rest) :
    digits (code ++ rest) = some (code, rest) := by
  obtain ⟨htake, hdrop⟩ := takeWhile_digits rest h stops
  rw [digits, htake, hdrop, if_neg hne]

theorem integer_append (n : Nat) {rest : List UInt8} (stops : Stops rest) :
    integer (decimalCode n ++ rest) = some (decimalCode n, rest) := by
  have hdigits := digits_append _ (decimalCode_ne_nil n) (digits_decimalCode n) stops
  rcases decimalCode_lead n with hzero | ⟨b, more, hlead, hne⟩
  · rw [hzero]
    rfl
  · rw [hlead] at hdigits ⊢
    exact (if_neg hne).trans hdigits

/-- A number whose fraction and exponent are read as given is read whole. -/
theorem readsValue_number (n : Nat) (fraction : List UInt8)
    (h : ∀ c rest, c = 0x2c ∨ c = 0x7d → Stops (fraction ++ c :: rest) ∧
      optional [0x2e] digits (fraction ++ c :: rest) = some (fraction, c :: rest)) :
    ReadsValue (decimalCode n ++ fraction) (.number (decimalCode n ++ fraction)) := by
  intro fuel c rest hc
  obtain ⟨hstops, hfraction⟩ := h c rest hc
  have hinteger := integer_append n hstops
  obtain ⟨b, more, hcode⟩ := List.exists_cons_of_ne_nil (decimalCode_ne_nil n)
  have hb : isDigit b = true := digits_decimalCode n b (by rw [hcode]; exact List.mem_cons_self ..)
  have hminus : b ∉ ([0x2d] : List UInt8) := fun hmem => digit_ne hb (by decide) (List.mem_singleton.mp hmem)
  have hmark : c ∉ ([0x65, 0x45] : List UInt8) := by rcases hc with rfl | rfl <;> decide
  have hskip : skipSpace (decimalCode n ++ fraction ++ c :: rest) = b :: (more ++ (fraction ++ c :: rest)) := by
    rw [List.append_assoc, hcode, List.cons_append, skipSpace, List.dropWhile_cons_of_neg]
    simp [isSpace, digit_ne hb (x := 0x20) rfl, digit_ne hb (x := 0x09) rfl, digit_ne hb (x := 0x0a) rfl,
      digit_ne hb (x := 0x0d) rfl]
  rw [hcode, List.cons_append] at hinteger
  have hnumber : readNumber (b :: (more ++ (fraction ++ c :: rest))) = some (b :: more ++ fraction, c :: rest) := by
    simp only [readNumber, bind, StateT.bind, Option.bind, optional_absent hminus, hinteger, hfraction,
      optional_absent hmark]
    change some (b :: more ++ fraction ++ [], c :: rest) = _
    rw [List.append_nil]
  rw [readValue, hskip]
  dsimp only
  rw [if_neg (digit_ne hb (by decide)), if_neg (digit_ne hb (by decide)), if_neg (digit_ne hb (by decide)),
    if_neg (digit_ne hb (by decide)), if_neg (digit_ne hb (by decide)), if_neg (digit_ne hb (by decide)), hnumber, hcode]
  rfl

theorem readsValue_decimalCode (n : Nat) : ReadsValue (decimalCode n) (.number (decimalCode n)) := by
  have hreads := readsValue_number n [] fun c rest hc => by
    rcases hc with rfl | rfl
    · exact ⟨by rintro b ⟨⟩; rfl, optional_absent (by decide) digits rest⟩
    · exact ⟨by rintro b ⟨⟩; rfl, optional_absent (by decide) digits rest⟩
  rwa [List.append_nil] at hreads

/-- What stands behind the point of a number of hundredths. -/
theorem digits_hundredths (zeros n : Nat) : ∀ b ∈ UInt8.ofNat (0x30 + n / 10 % 10) :: UInt8.ofNat (0x30 + n % 10) ::
    List.replicate zeros 0x30, isDigit b = true := by
  refine List.forall_mem_cons.mpr ⟨isDigit_ofNat ⟨n / 10 % 10, Nat.mod_lt _ (by decide)⟩,
    List.forall_mem_cons.mpr ⟨isDigit_ofNat ⟨n % 10, Nat.mod_lt _ (by decide)⟩, fun b hb => ?_⟩⟩
  rw [List.eq_of_mem_replicate hb]
  rfl

theorem readsValue_hundredthsCode (zeros n : Nat) :
    ReadsValue (hundredthsCode zeros n) (.number (hundredthsCode zeros n)) := by
  refine readsValue_number (n / 100) _ fun c rest hc => ⟨by rintro b ⟨⟩; rfl, ?_⟩
  have hdigits := digits_append (c :: rest) (List.cons_ne_nil _ _) (digits_hundredths zeros n) ?_
  · rw [List.cons_append, optional, if_pos (List.mem_singleton_self _), hdigits]
    rfl
  · rcases hc with rfl | rfl <;> rintro b ⟨⟩ <;> rfl

theorem readsValue_false : ReadsValue [0x66, 0x61, 0x6c, 0x73, 0x65] (.bool false) := by
  intro fuel c rest _
  exact ((reads_units [0x61, 0x6c, 0x73, 0x65]).expect.bind (reads_pure (Json.bool false))) (c :: rest)

theorem printable_digits {code : List UInt8} (h : ∀ b ∈ code, isDigit b = true) : Printable code :=
  fun b hb => UInt8.le_trans (by decide) (digit_bounds (h b hb)).1

theorem printable_hundredthsCode (zeros n : Nat) : Printable (hundredthsCode zeros n) := by
  exact (printable_digits (digits_decimalCode _)).append (.cons (by decide) (printable_digits (digits_hundredths zeros n)))

end Json
