import OnekvmVnc.Lib.Strides
import OnekvmVnc.RingMapping

/-! The slots of an accepted ring layout. The layout is checked in 64 bits, while the offset of a slot wraps in
    32, so a mapping of more than 4 GiB may be accepted whose slots overlap. -/

namespace OnekvmVnc

open Strides

namespace RingMapping
variable {r : RingMapping}

/-- The offset of each slot, with the length of one, stays in the mapping and off the ring's header and the other
    slots, so writing to another slot leaves what is read of it. -/
structure SafeToIndex (r : RingMapping) : Prop where
  inside : ∀ i < r.slotCount.toNat, 64 ≤ r.slotStart i ∧ r.slotStart i + r.slotLength ≤ r.size.toNat
  disjoint : ∀ i < r.slotCount.toNat, ∀ j < r.slotCount.toNat, i ≠ j → Disjoint (r.slotRegion i) (r.slotRegion j)
  owned : ∀ i < r.slotCount.toNat, ∀ j < r.slotCount.toNat, i ≠ j → ∀ memory,
    (∀ a, a ∉ r.slotRegion j → memory a = r.memory a) →
      header { r with memory } i = r.header i ∧ takeFrame { r with memory } i = r.takeFrame i

/-- What the multiples of the stride leave modulo 2^32 are a slot's length or more, below 2^32 by the ring's header
    and, if another slot follows, by a slot's length. -/
def StrideSpaced (r : RingMapping) : Prop :=
  ∀ d, 0 < d → d < r.slotCount.toNat →
    r.slotLength ≤ d * r.stride.toNat % 2 ^ 32 ∧ d * r.stride.toNat % 2 ^ 32 + 64 < 2 ^ 32 ∧
      (d + 1 < r.slotCount.toNat → d * r.stride.toNat % 2 ^ 32 + r.slotLength ≤ 2 ^ 32)

/-- What `ReceiveSharedRing` has checked. -/
structure Accepted (r : RingMapping) : Prop where
  count : r.slotCount.toNat ≤ 16
  stride : r.slotLength ≤ r.stride.toNat
  size : 64 + r.slotCount.toNat * r.stride.toNat ≤ r.size.toNat

theorem accepted_of_receive {memory : Nat → UInt8} {stSize : Int64} (h : receiveSharedRing memory stSize = .ok r) :
    r.Accepted := by
  unfold receiveSharedRing at h
  split at h
  · cases h
  · rename_i hsize
    dsimp only at h
    split at h
    · rename_i hlayout
      obtain rfl := Except.ok.inj h
      obtain ⟨-, -, hheader, -, hcount, -, hcapacity, hstride, hfits⟩ := hlayout
      rw [Int64.not_lt] at hsize
      have hmapped : ringHeaderSize.toUInt64 ≤ stSize.toUInt64 := Int64.toUInt64_le (by decide) hsize
      rw [hheader, UInt64.le_iff_toNat_le, UInt64.toNat_div, UInt64.toNat_sub_of_le _ _ hmapped] at hfits
      rw [UInt32.le_iff_toNat_le] at hcount
      rw [ge_iff_le, UInt32.le_iff_toNat_le, UInt32.toNat_add] at hstride
      unfold maxPayloadBytes at hcapacity
      refine ⟨hcount, ?_, ?_⟩
      · -- The capacity is small, so the check of the stride does not wrap.
        have hslot : ringSlotHeaderSize.toNat = 64 := rfl
        rwa [Nat.mod_eq_of_lt (by omega)] at hstride
      · have hsum : 64 ≤ stSize.toUInt64.toNat := UInt64.le_iff_toNat_le.mp hmapped
        have hcells := Nat.mul_le_of_le_div _ _ _ hfits
        change _ * _ ≤ stSize.toUInt64.toNat - 64 at hcells
        simp only [UInt32.toNat_toUInt64] at hcells
        dsimp only
        omega
    · cases h

theorem slotStart_eq {i : Nat} (hi : i < 16) : r.slotStart i = start (2 ^ 32) 64 r.stride.toNat i := by
  rw [slotStart, slotOffset, UInt32.toNat_add, UInt32.toNat_mul, UInt32.toNat_ofNat', start]
  rw [Nat.mod_eq_of_lt (show i < 2 ^ 32 by omega), Nat.add_mod_mod]
  rfl

/-- What is read of a slot lies in its region. -/
theorem read_congr {memory : Nat → UInt8} {i : Nat} (h : ∀ a ∈ r.slotRegion i, memory a = r.memory a) :
    header { r with memory } i = r.header i ∧ takeFrame { r with memory } i = r.takeFrame i := by
  have hbyte (k : Nat) (hk : k < r.slotLength) : memory (r.slotStart i + k) = r.memory (r.slotStart i + k) :=
    h _ (Finset.mem_Ico.mpr ⟨Nat.le_add_right _ _, Nat.add_lt_add_left hk _⟩)
  have hlength : 64 ≤ r.slotLength := Nat.le_add_right _ _
  have h16 (k : Nat) (hk : k + 2 ≤ r.slotLength) :
      readLE16 memory (r.slotStart i + k) = readLE16 r.memory (r.slotStart i + k) := by
    simp only [readLE16, Nat.add_assoc]
    rw [hbyte k (by omega), hbyte (k + 1) (by omega)]
  have h32 (k : Nat) (hk : k + 4 ≤ r.slotLength) :
      readLE32 memory (r.slotStart i + k) = readLE32 r.memory (r.slotStart i + k) := by
    simp only [readLE32, Nat.add_assoc]
    rw [hbyte k (by omega), hbyte (k + 1) (by omega), hbyte (k + 2) (by omega), hbyte (k + 3) (by omega)]
  have hheader : header { r with memory } i = r.header i := by
    have hstart : slotStart { r with memory } i = r.slotStart i := rfl
    have hstate := h32 0 (by omega)
    have hsequence : readLE64 memory (r.slotStart i + 8) = readLE64 r.memory (r.slotStart i + 8) := by
      simp only [readLE64, Nat.add_assoc]
      rw [h32 8 (by omega), h32 (8 + 4) (by omega)]
    rw [Nat.add_zero] at hstate
    simp only [header, hstart]
    rw [hstate, h32 4 (by omega), hsequence, h32 24 (by omega), h16 28 (by omega), h16 30 (by omega),
      hbyte 32 (by omega)]
  refine ⟨hheader, ?_⟩
  simp only [takeFrame, hheader]
  split
  · rfl
  · rename_i hvalid
    -- The payload ends within the capacity that the header was checked against.
    have hpayload : (r.header i).payloadSize.toNat ≤ r.slotCapacity.toNat := by
      have := UInt32.lt_iff_toNat_lt.not.mp fun hgt => hvalid (.inr (.inl hgt))
      omega
    have hdata : (List.range (r.header i).payloadSize.toNat).map (fun k => memory (r.slotStart i + 64 + k)) =
        (List.range (r.header i).payloadSize.toNat).map (fun k => r.memory (r.slotStart i + 64 + k)) := by
      refine List.map_congr_left fun k hk => ?_
      rw [List.mem_range] at hk
      rw [Nat.add_assoc]
      exact hbyte (64 + k) (Nat.add_lt_add_left (hk.trans_le hpayload) 64)
    exact congrArg (fun data => some (JPEGFrame.mk data _ _ _)) hdata

/-- The slots of an accepted layout are apart, modulo the word in which their offsets are computed, exactly when
    the multiples of its stride are spaced. -/
theorem apart_iff_strideSpaced (r : RingMapping) :
    Apart (2 ^ 32) 64 r.stride.toNat r.slotLength r.slotCount.toNat ↔ r.StrideSpaced :=
  apart_iff (by decide) (Nat.lt_of_lt_of_le (by decide) (Nat.le_add_right _ _))

theorem disjoint_slotRegion_iff {i j : Nat} : Disjoint (r.slotRegion i) (r.slotRegion j) ↔
    r.slotStart i + r.slotLength ≤ r.slotStart j ∨ r.slotStart j + r.slotLength ≤ r.slotStart i := by
  have hpos : 0 < r.slotLength := Nat.lt_of_lt_of_le (by decide) (Nat.le_add_right _ _)
  rw [slotRegion, slotRegion, Finset.disjoint_left]
  simp only [Finset.mem_Ico]
  constructor
  · intro h
    have hfirst := @h (r.slotStart i)
    have hsecond := @h (r.slotStart j)
    omega
  · intro h a ha
    omega

theorem safeToIndex_of_apart (h : r.Accepted)
    (hapart : Apart (2 ^ 32) 64 r.stride.toNat r.slotLength r.slotCount.toNat) : r.SafeToIndex := by
  have hstart {i : Nat} (hi : i < r.slotCount.toNat) := r.slotStart_eq (hi.trans_le h.count)
  have hdisjoint : ∀ i < r.slotCount.toNat, ∀ j < r.slotCount.toNat, i ≠ j →
      Disjoint (r.slotRegion i) (r.slotRegion j) := by
    intro i hi j hj hne
    rw [disjoint_slotRegion_iff, hstart hi, hstart hj]
    obtain hij | hji := Nat.lt_or_gt_of_ne hne
    · exact hapart.2 i j hij hj
    · exact (hapart.2 j i hji hi).symm
  refine ⟨fun i hi => ?_, hdisjoint, fun i hi j hj hne memory hsame => ?_⟩
  · rw [hstart hi]
    exact ⟨hapart.1 i hi, start_add_le h.stride h.size hi⟩
  · exact read_congr fun a ha => hsame a (Finset.disjoint_left.mp (hdisjoint i hi j hj hne) ha)

theorem apart_of_safeToIndex (h : r.Accepted) (hsafe : r.SafeToIndex) :
    Apart (2 ^ 32) 64 r.stride.toNat r.slotLength r.slotCount.toNat := by
  have hstart {i : Nat} (hi : i < r.slotCount.toNat) := r.slotStart_eq (hi.trans_le h.count)
  refine ⟨fun i hi => ?_, fun i j hij hj => ?_⟩
  · rw [← hstart hi]
    exact (hsafe.inside i hi).1
  · have hi := hij.trans hj
    rw [← hstart hi, ← hstart hj]
    exact disjoint_slotRegion_iff.mp (hsafe.disjoint i hi j hj (Nat.ne_of_lt hij))

/-- An accepted layout is safe to index exactly when the multiples of its stride are spaced. -/
theorem safeToIndex_iff {memory : Nat → UInt8} {stSize : Int64} (r : RingMapping)
    (h : receiveSharedRing memory stSize = .ok r) : r.SafeToIndex ↔ r.StrideSpaced := by
  have haccepted := accepted_of_receive h
  rw [← apart_iff_strideSpaced]
  exact ⟨apart_of_safeToIndex haccepted, safeToIndex_of_apart haccepted⟩

/-- So is one whose offsets do not wrap. -/
theorem safeToIndex_of_lt {memory : Nat → UInt8} {stSize : Int64} (h : receiveSharedRing memory stSize = .ok r)
    (hwrap : 64 + (r.slotCount.toNat - 1) * r.stride.toNat < 2 ^ 32) : r.SafeToIndex :=
  have haccepted := accepted_of_receive h
  safeToIndex_of_apart haccepted ((apart_iff_strideSpaced r).mpr (spaced_of_lt haccepted.stride hwrap))

/-- The header of a ring, as its writer puts it. -/
def ringHeader (slotCount slotCapacity stride : UInt32) (i : Nat) : UInt8 :=
  let field (value : UInt32) (k : Nat) : UInt8 := (value >>> UInt32.ofNat (8 * k)).toUInt8
  if i < 4 then ringMagic.getD i 0
  else if i < 8 then field ringVersion (i - 4)
  else if i < 12 then field slotCount (i - 8)
  else if i < 16 then field slotCapacity (i - 12)
  else if i < 20 then field stride (i - 16)
  else if i < 24 then field ringHeaderSize (i - 20)
  else 0

/-- A ring of three slots, each with its header and one byte, at the largest stride that a 32-bit word halves
    to. -/
def farRing : RingMapping :=
  { memory := ringHeader 3 1 0x80000000, size := 6442451008, slotCount := 3, slotCapacity := 1, stride := 0x80000000 }

theorem receiveSharedRing_far : receiveSharedRing (ringHeader 3 1 0x80000000) 6442451008 = .ok farRing := by
  rfl

/-- The mapping is large enough for three slots that are 2 GiB apart, and the offset of the third wraps to that of
    the first. -/
theorem safeToIndex_wrap :
    ¬∀ (memory : Nat → UInt8) (stSize : Int64) (r : RingMapping),
      receiveSharedRing memory stSize = .ok r → r.SafeToIndex := by
  intro h
  have hsafe := h _ _ _ receiveSharedRing_far
  have hsame : farRing.slotStart 0 = farRing.slotStart 2 := by decide
  have hdisjoint := hsafe.disjoint 0 (by decide) 2 (by decide) (by decide)
  rw [disjoint_slotRegion_iff, hsame] at hdisjoint
  have hpos : 0 < farRing.slotLength := by decide
  omega

/-- A ring of two slots of one page. -/
def pageRing : RingMapping :=
  { memory := ringHeader 2 4032 4096, size := 8256, slotCount := 2, slotCapacity := 4032, stride := 4096 }

theorem safeToIndex_page :
    receiveSharedRing (ringHeader 2 4032 4096) 8256 = .ok pageRing ∧ (pageRing.SafeToIndex ↔ pageRing.StrideSpaced) :=
  have hreceive : receiveSharedRing (ringHeader 2 4032 4096) 8256 = .ok pageRing := rfl
  ⟨hreceive, safeToIndex_iff pageRing hreceive⟩

end RingMapping

end OnekvmVnc
