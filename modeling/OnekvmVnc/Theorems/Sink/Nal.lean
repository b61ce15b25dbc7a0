import Mathlib.Tactic.IntervalCases
import OnekvmVnc.Lib.Search
import OnekvmVnc.Sink.H264

/-! The scan of `h264NALTypes`. A start code of four bytes is one of three bytes behind a zero, so that a NAL unit
    begins behind every 00 00 01; its header is not looked at again. -/

namespace OnekvmVnc

open Search

variable {payload : List UInt8} {i offset : Nat}

/-- A start code without the zero that may be in front of it. -/
def startCodeBytes : List UInt8 := [0, 0, 1]

/-- The header of the NAL unit behind a start code at the position. -/
def headerAt (payload : List UInt8) (i : Nat) : Option UInt8 :=
  if At startCodeBytes payload i then payload[i + 3]? else none

/-- The types of the NAL units from a position on. -/
def nalTypesAt (payload : List UInt8) (offset : Nat) : List UInt8 :=
  found (fun i => (headerAt payload i).map (· &&& 0x1f)) offset payload.length

/-- No header of a NAL unit is zero. -/
def HeadersNonzero (payload : List UInt8) : Prop := ∀ i header, headerAt payload i = some header → header ≠ 0

theorem at_startCodeBytes : At startCodeBytes payload i ↔
    payload[i]? = some 0 ∧ payload[i + 1]? = some 0 ∧ payload[i + 2]? = some 1 := by
  unfold At startCodeBytes
  rw [List.prefix_iff_getElem?]
  simp only [List.getElem?_drop, List.length_cons, List.length_nil]
  constructor
  · intro h
    exact ⟨h 0 (by decide), h 1 (by decide), h 2 (by decide)⟩
  · rintro ⟨h0, h1, h2⟩ j hj
    obtain rfl | rfl | rfl : j = 0 ∨ j = 1 ∨ j = 2 := by omega
    · exact h0
    · exact h1
    · exact h2

theorem headerAt_eq_some {header : UInt8} : headerAt payload i = some header ↔
    At startCodeBytes payload i ∧ payload[i + 3]? = some header := by
  rw [headerAt, Option.ite_none_right_eq_some]

/-- No start code begins at a position of the payload that has not a zero. -/
theorem headerAt_of_ne {b : UInt8} (hb : payload[i]? = some b) (nonzero : b ≠ 0) : headerAt payload i = none := by
  refine if_neg fun hat => nonzero ?_
  have hzero := (at_startCodeBytes.mp hat).1
  rw [hb] at hzero
  exact Option.some.inj hzero

/-- Nothing comes behind a start code at the end. -/
theorem headerAt_of_le (h : payload.length ≤ i + 3) : headerAt payload i = none := by
  unfold headerAt
  split
  · exact List.getElem?_eq_none h
  · rfl

theorem headerAt_of_three {a b c : UInt8} (ha : payload[i]? = some a) (hb : payload[i + 1]? = some b)
    (hc : payload[i + 2]? = some c) (hthree : ¬(a = 0 ∧ b = 0 ∧ c = 1)) : headerAt payload i = none := by
  refine if_neg fun hat => hthree ?_
  have hat := at_startCodeBytes.mp hat
  rwa [ha, hb, hc, Option.some.injEq, Option.some.injEq, Option.some.injEq] at hat

/-! ### The next start code -/

/-- What `startCode` finds, with the position of its last three bytes. -/
structure FoundCode (payload : List UInt8) (offset start length : Nat) : Prop where
  le : offset ≤ start
  short : length = 3 ∨ length = 4
  at_ : At startCodeBytes payload (start + length - 3)
  first : ∀ j, offset ≤ j → j < start + length - 3 → headerAt payload j = none

theorem foundCode_of_startCode {start length : Nat} (h : startCode payload offset = some (start, length)) :
    FoundCode payload offset start length := by
  induction offset using startCode.induct payload with
  | case1 i hi hthree =>
    rw [startCode, dif_pos hi, if_pos hthree] at h
    cases h
    obtain ⟨h0, h1, h2⟩ := hthree
    refine ⟨le_refl _, .inl rfl, at_startCodeBytes.mpr ⟨?_, ?_, ?_⟩, fun j hj hlt => absurd hlt (by omega)⟩
    · exact List.getElem?_eq_some_iff.mpr ⟨_, h0⟩
    · exact List.getElem?_eq_some_iff.mpr ⟨_, h1⟩
    · exact List.getElem?_eq_some_iff.mpr ⟨_, h2⟩
  | case2 i hi hthree hfour =>
    rw [startCode, dif_pos hi, if_neg hthree, if_pos hfour] at h
    cases h
    obtain ⟨-, h0, h1, h2, h3⟩ := hfour
    refine ⟨le_refl _, .inr rfl, at_startCodeBytes.mpr ⟨?_, ?_, ?_⟩, fun j hj hlt => ?_⟩
    · exact List.getElem?_eq_some_iff.mpr ⟨_, h1⟩
    · exact List.getElem?_eq_some_iff.mpr ⟨_, h2⟩
    · exact List.getElem?_eq_some_iff.mpr ⟨_, h3⟩
    · -- The first of the four bytes begins no start code of three bytes.
      obtain rfl : j = start := by omega
      refine if_neg fun hat => ?_
      have hone := (at_startCodeBytes.mp hat).2.2
      rw [List.getElem?_eq_getElem (by omega), h2] at hone
      cases hone
  | case3 i hi hthree hfour ih =>
    rw [startCode, dif_pos hi, if_neg hthree, if_neg hfour] at h
    obtain ⟨hle, hshort, hat, hfirst⟩ := ih h
    refine ⟨Nat.le_of_succ_le hle, hshort, hat, fun j hj hlt => ?_⟩
    rcases hj.eq_or_lt with rfl | hj
    · exact headerAt_of_three (List.getElem?_eq_getElem _) (List.getElem?_eq_getElem _) (List.getElem?_eq_getElem _) hthree
    · exact hfirst j hj hlt
  | case4 i hi =>
    rw [startCode, dif_neg hi] at h
    cases h

theorem headerAt_of_none (h : startCode payload offset = none) {j : Nat} (hj : offset ≤ j) :
    headerAt payload j = none := by
  induction offset using startCode.induct payload with
  | case1 i hi hthree =>
    rw [startCode, dif_pos hi, if_pos hthree] at h
    cases h
  | case2 i hi hthree hfour =>
    rw [startCode, dif_pos hi, if_neg hthree, if_pos hfour] at h
    cases h
  | case3 i hi hthree hfour ih =>
    rw [startCode, dif_pos hi, if_neg hthree, if_neg hfour] at h
    rcases hj.eq_or_lt with rfl | hj
    · exact headerAt_of_three (List.getElem?_eq_getElem _) (List.getElem?_eq_getElem _) (List.getElem?_eq_getElem _) hthree
    · exact ih h hj
  | case4 i hi => exact headerAt_of_le (by omega)

/-- Behind a start code, none begins in the rest of it, and none with the header. -/
theorem headerAt_inside {code : Nat} {header : UInt8} (nonzero : HeadersNonzero payload)
    (h : headerAt payload code = some header) {j : Nat} (hj : code < j) (hle : j ≤ code + 3) :
    headerAt payload j = none := by
  obtain ⟨hat, hheader⟩ := headerAt_eq_some.mp h
  obtain ⟨-, -, hone⟩ := at_startCodeBytes.mp hat
  obtain rfl | rfl | rfl : j = code + 1 ∨ j = code + 2 ∨ j = code + 3 := by omega
  · refine if_neg fun hat' => ?_
    have hzero := (at_startCodeBytes.mp hat').2.1
    rw [hone] at hzero
    cases hzero
  · exact headerAt_of_ne hone (by decide)
  · exact headerAt_of_ne hheader (nonzero code header h)

/-- The loop finds the NAL units from its offset on. -/
theorem nalTypesFrom_eq (nonzero : HeadersNonzero payload) (offset : Nat) :
    nalTypesFrom payload offset = nalTypesAt payload offset := by
  have hmap {j : Nat} (h : headerAt payload j = none) : (headerAt payload j).map (· &&& 0x1f) = none := by
    rw [h, Option.map_none]
  induction offset using nalTypesFrom.induct payload with
  | case1 offset hlt hnone =>
    have hnil : nalTypesAt payload offset = [] := found_eq_nil fun j hj _ => hmap (headerAt_of_none hnone hj)
    rw [nalTypesFrom, if_pos hlt, hnil]
    split
    · rfl
    · rename_i hsome
      rw [hnone] at hsome
      cases hsome
  | case2 offset hlt start length hcode hfits ih =>
    obtain ⟨hle, hshort, hat, hfirst⟩ := foundCode_of_startCode hcode
    obtain ⟨code, hend⟩ : ∃ code, start + length = code + 3 := ⟨start + length - 3, by omega⟩
    have hstart : start + length - 3 = code := by omega
    rw [hstart] at hat hfirst
    have hheader : headerAt payload code = some payload[start + length] := by
      refine headerAt_eq_some.mpr ⟨hat, ?_⟩
      rw [← hend]
      exact List.getElem?_eq_getElem hfits
    -- The scan goes on behind the header, and skips only what begins no NAL unit.
    have hall : nalTypesAt payload offset =
        (payload[start + length] &&& 0x1f) :: nalTypesAt payload (start + length + 1) := by
      calc nalTypesAt payload offset
          = nalTypesAt payload code := found_skip (by omega) fun j hj hlt => hmap (hfirst j hj hlt)
        _ = (payload[start + length] &&& 0x1f) :: nalTypesAt payload (code + 1) :=
          found_cons (by rw [hheader, Option.map_some]) (by omega)
        _ = (payload[start + length] &&& 0x1f) :: nalTypesAt payload (start + length + 1) :=
          congrArg _ (found_skip (by omega) fun j hj hlt => hmap (headerAt_inside nonzero hheader hj (by omega)))
    rw [nalTypesFrom, if_pos hlt, hall, ← ih]
    split
    · rename_i hnone
      rw [hcode] at hnone
      cases hnone
    · rename_i start' length' hsome
      rw [hcode] at hsome
      cases hsome
      rw [dif_pos hfits]
  | case3 offset hlt start length hcode hfits =>
    obtain ⟨hle, hshort, hat, hfirst⟩ := foundCode_of_startCode hcode
    have hnil : nalTypesAt payload offset = [] := found_eq_nil fun j hj _ => hmap <| by
      by_cases hcode : j < start + length - 3
      · exact hfirst j hj hcode
      · exact headerAt_of_le (by omega)
    rw [nalTypesFrom, if_pos hlt, hnil]
    split
    · rfl
    · rename_i start' length' hsome
      rw [hcode] at hsome
      cases hsome
      rw [dif_neg hfits]
  | case4 offset hge =>
    rw [nalTypesFrom, if_neg hge]
    exact (found_eq_nil fun j hj _ => hmap (headerAt_of_le (by omega))).symm

/-- Where no header is zero, `h264NALTypes` returns the types of all NAL units in order, or that of the first byte
    if there is none. -/
theorem h264NALTypes_complete (payload : List UInt8) (nonzero : HeadersNonzero payload) :
    h264NALTypes payload =
      if nalTypesAt payload 0 = [] then (payload.take 1).map (· &&& 0x1f) else nalTypesAt payload 0 := by
  unfold h264NALTypes
  rw [nalTypesFrom_eq nonzero]
  cases nalTypesAt payload 0 with
  | nil => cases payload <;> rfl
  | cons type types => rfl

/-- A start code of four bytes and one of three. -/
def twoUnits : List UInt8 := [0, 0, 0, 1, 0x67, 0, 0, 1, 0x65]

theorem h264NALTypes_complete_two : HeadersNonzero twoUnits ∧ h264NALTypes twoUnits = [7, 5] := by
  have nonzero : HeadersNonzero twoUnits := by
    intro i header h
    by_cases hi : i < 6
    · interval_cases i <;> cases h <;> decide
    · rw [headerAt_of_le (by simp only [twoUnits, List.length_cons, List.length_nil]; omega)] at h
      cases h
  exact ⟨nonzero, h264NALTypes_complete twoUnits nonzero⟩

end OnekvmVnc
