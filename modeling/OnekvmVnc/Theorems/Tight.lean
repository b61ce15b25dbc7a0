import OnekvmVnc.Tight
import OnekvmVnc.Theorems.Server.Change

/-! The framing of a Tight JPEG rectangle. What is queued for a client and its payload are read back by the
    viewer, whatever follows them, and have the control byte and the length of the writer in Go. -/

namespace OnekvmVnc

open Decoder

/-! ### Integers -/

theorem reads_be16 (value : UInt16) : Reads TightUpdate.readU16 (be16 value) value := by
  have hbytes : UInt16.ofNat ((value >>> 8).toUInt8.toNat * 256 + value.toUInt8.toNat) = value := by
    have hlt := value.toNat_lt
    rw [← UInt16.toNat_inj]
    simp only [UInt16.toNat_ofNat', UInt16.toNat_toUInt8, UInt16.toNat_shiftRight, Nat.shiftRight_eq_div_pow]
    change (value.toNat / 2 ^ 8 % 2 ^ 8 * 256 + value.toNat % 2 ^ 8) % 2 ^ 16 = value.toNat
    omega
  refine .cons (.cons ?_)
  rw [hbytes]
  exact reads_pure value

theorem reads_be32 (value : UInt32) : Reads TightUpdate.readU32 (be32 value) value := by
  have hhalves : UInt32.ofNat ((value >>> 16).toUInt16.toNat * 65536 + value.toUInt16.toNat) = value := by
    have hlt := value.toNat_lt
    rw [← UInt32.toNat_inj]
    simp only [UInt32.toNat_ofNat', UInt32.toNat_toUInt16, UInt32.toNat_shiftRight, Nat.shiftRight_eq_div_pow]
    change (value.toNat / 2 ^ 16 % 2 ^ 16 * 65536 + value.toNat % 2 ^ 16) % 2 ^ 32 = value.toNat
    omega
  have hcode : be32 value = be16 (value >>> 16).toUInt16 ++ be16 value.toUInt16 := by
    have hshift (x : UInt32) : (x.toUInt16 >>> 8).toUInt8 = (x >>> 8).toUInt8 := by
      rw [← UInt8.toNat_inj]
      simp only [UInt16.toNat_toUInt8, UInt16.toNat_shiftRight, UInt32.toNat_toUInt8, UInt32.toNat_toUInt16,
        UInt32.toNat_shiftRight, Nat.shiftRight_eq_div_pow]
      change x.toNat % 2 ^ 16 / 2 ^ 8 % 2 ^ 8 = x.toNat / 2 ^ 8 % 2 ^ 8
      omega
    have htop : value >>> 16 >>> 8 = value >>> 24 := by
      rw [← UInt32.toNat_inj]
      simp only [UInt32.toNat_shiftRight, ← Nat.shiftRight_add]
      rfl
    simp only [be32, be16, hshift, htop, UInt32.toUInt8_toUInt16, List.cons_append, List.nil_append]
  rw [hcode, ← List.append_nil (be16 value.toUInt16)]
  refine (reads_be16 _).bind ((reads_be16 _).bind ?_)
  rw [hhalves]
  exact reads_pure value

/-! ### Lengths -/

theorem toNat_continued {n : Nat} (h : n < 128) : (n.toUInt8 ||| 0x80).toNat = n + 128 := by
  have hor : ∀ n < 128, n % 256 ||| 128 = n + 128 := by decide
  exact hor n h

theorem tightLength_eq (length : Nat) : tightLength length =
    if length < 128 then [length.toUInt8]
    else if length < 16384 then [(length % 128).toUInt8 ||| 0x80, (length / 128 % 128).toUInt8]
    else [(length % 128).toUInt8 ||| 0x80, (length / 128 % 128).toUInt8 ||| 0x80, (length / 16384 % 256).toUInt8] := by
  have hlow (n : Nat) : n &&& 0x7f = n % 128 := Nat.and_two_pow_sub_one_eq_mod n 7
  have hbyte (n : Nat) : n &&& 0xff = n % 256 := Nat.and_two_pow_sub_one_eq_mod n 8
  simp only [tightLength, hlow, hbyte, Nat.shiftRight_eq_div_pow, Nat.reducePow]
  by_cases hone : length < 128
  · rw [if_neg (by omega), if_pos hone, Nat.mod_eq_of_lt hone]
  · rw [if_pos (by omega), if_neg hone]
    by_cases htwo : length < 16384
    · rw [if_neg (by omega), if_pos htwo]
    · rw [if_pos (by omega), if_neg htwo]

/-- The length of a payload is read back. -/
theorem reads_tightLength {length : Nat} (h : length ≤ 0x3fffff) :
    Reads TightUpdate.readLength (tightLength length) length := by
  rw [tightLength_eq]
  split
  · rename_i hone
    have hfirst : length.toUInt8.toNat = length := Nat.mod_eq_of_lt (by omega)
    refine .cons ?_
    rw [hfirst, if_pos hone]
    exact reads_pure length
  · have hfirst := toNat_continued (n := length % 128) (by omega)
    split
    · rename_i htwo
      have hsecond : (length / 128 % 128).toUInt8.toNat = length / 128 := by
        change length / 128 % 128 % 256 = length / 128
        omega
      refine .cons ?_
      rw [hfirst, if_neg (by omega)]
      refine .cons ?_
      rw [hsecond, if_pos (by omega), show length % 128 + 128 - 128 + 128 * (length / 128) = length by omega]
      exact reads_pure length
    · have hsecond := toNat_continued (n := length / 128 % 128) (by omega)
      have hthird : (length / 16384 % 256).toUInt8.toNat = length / 16384 := by
        change length / 16384 % 256 % 256 = length / 16384
        omega
      refine .cons ?_
      rw [hfirst, if_neg (by omega)]
      refine .cons ?_
      rw [hsecond, if_neg (by omega)]
      refine .cons ?_
      rw [hthird, show length % 128 + 128 - 128 + 128 * (length / 128 % 128 + 128 - 128) +
        16384 * (length / 16384) = length by omega]
      exact reads_pure length

/-- The length after the control byte of the C++ header is the one in Go. -/
theorem tightHeader_eq (size : Nat) : tightHeader size = [0x90] ++ tightLength size := by
  simp only [tightHeader, tightLength]
  by_cases hone : size > 0x7f
  · rw [if_pos hone, if_pos hone]
    by_cases htwo : size > 0x3fff
    · simp only [if_pos hone, if_pos htwo, List.cons_append, List.nil_append]
    · simp only [if_pos hone, if_neg htwo, List.cons_append, List.nil_append, UInt8.or_zero]
  · simp only [if_neg hone, List.append_nil, UInt8.or_zero, List.cons_append, List.nil_append]

theorem length_tightLength_le (length : Nat) : (tightLength length).length ≤ 3 := by
  rw [tightLength_eq]
  split
  · exact Nat.le_of_ble_eq_true rfl
  · split <;> exact Nat.le_of_ble_eq_true rfl

/-! ### The message -/

/-- The header that is queued before a payload. -/
def tightUpdateHeader (frame : JPEGFrame) : List UInt8 :=
  updateHeader frame.width frame.height rfbEncodingTight ++ tightHeader frame.data.length

theorem sendJPEG_header {k k' : Client} {frame : JPEGFrame} {now : Int} {image previous : Nat × Nat → Option UInt16}
    (h : k.sendJPEG frame now image previous = (k', true)) :
    k'.data.jpegHeader = tightUpdateHeader frame ∧ frame.data.length ≤ 0x3fffff := by
  unfold Client.sendJPEG at h
  split at h
  · cases h
  · rename_i hsize
    unfold Client.queueJPEG at h
    split at h
    · cases h
    · cases h
      exact ⟨rfl, Nat.not_lt.mp fun hgt => hsize (.inr hgt)⟩

theorem reads_message {frame : JPEGFrame} (h : frame.data.length ≤ 0x3fffff) :
    Reads TightUpdate.read (tightUpdateHeader frame ++ frame.data)
      { x := 0, y := 0, width := frame.width, height := frame.height, payload := frame.data } := by
  have hcode : tightUpdateHeader frame ++ frame.data = [0] ++ ([0] ++ (be16 1 ++ (be16 0 ++ (be16 0 ++
      (be16 frame.width ++ (be16 frame.height ++ (be32 7 ++ ([0x90] ++ (tightLength frame.data.length ++
        (frame.data ++ [])))))))))) := by
    simp only [tightUpdateHeader, updateHeader, tightHeader_eq, List.append_assoc, List.append_nil]
    rfl
  rw [hcode]
  refine (reads_unit 0).expect.bind ((reads_unit 0).bind ((reads_be16 1).expect.bind ((reads_be16 0).bind
    ((reads_be16 0).bind ((reads_be16 _).bind ((reads_be16 _).bind ((reads_be32 7).expect.bind
      ((reads_unit 0x90).expect.bind ((reads_tightLength h).bind ((reads_units _).bind ?_))))))))))
  exact reads_pure _

/-- The viewer reads what is queued for it and the payload as one update, whatever follows; the header fits its
    array, no encoding of a length continues another one, and the writer in Go has the same control byte and
    length. -/
theorem tight_framing {k k' : Client} {frame : JPEGFrame} {now : Int} {image previous : Nat × Nat → Option UInt16}
    (accepted : k.sendJPEG frame now image previous = (k', true)) :
    (∀ following, TightUpdate.read.run (k'.data.jpegHeader ++ frame.data ++ following) =
      some ({ x := 0, y := 0, width := frame.width, height := frame.height, payload := frame.data }, following)) ∧
    k'.data.jpegHeader.length ≤ 20 ∧
    (∃ update, k'.data.jpegHeader = update ++ [0x90] ++ tightLength frame.data.length ∧ update.length = 16 ∧
      tightJPEGEncodingWrite frame.data = .ok ([0x90] ++ tightLength frame.data.length ++ frame.data)) ∧
    ∀ m n, m ≤ 0x3fffff → n ≤ 0x3fffff → tightLength m <+: tightLength n → m = n := by
  obtain ⟨hheader, hsize⟩ := sendJPEG_header accepted
  rw [hheader]
  refine ⟨reads_message hsize, ?_, ⟨updateHeader frame.width frame.height rfbEncodingTight, ?_, rfl, ?_⟩, ?_⟩
  · have hlength := length_tightLength_le frame.data.length
    rw [tightUpdateHeader, tightHeader_eq, List.length_append, List.length_append]
    change 16 + (1 + _) ≤ 20
    omega
  · rw [tightUpdateHeader, tightHeader_eq, List.append_assoc]
  · exact if_neg (Nat.not_lt.mpr hsize)
  · intro m n hm hn hprefix
    exact ((reads_tightLength hm).eq_of_continues (reads_tightLength hn) hprefix).1

theorem tight_framing_byte :
    let k : Client := { sock := some 5 }
    let frame : JPEGFrame := { data := [0xff], width := 1, height := 1 }
    ∀ following, TightUpdate.read.run ((k.sendJPEG frame 0 (fun _ => none) fun _ => none).1.data.jpegHeader ++
      frame.data ++ following) = some ({ x := 0, y := 0, width := 1, height := 1, payload := [0xff] }, following) := by
  intro k frame
  have accepted : k.sendJPEG frame 0 (fun _ => none) (fun _ => none) =
      ((k.sendJPEG frame 0 (fun _ => none) fun _ => none).1, true) := rfl
  exact (tight_framing accepted).1

end OnekvmVnc
