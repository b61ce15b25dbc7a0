import OnekvmVnc.Theorems.Input.Keyboard
import OnekvmVnc.Theorems.Input.Scaling
import OnekvmVnc.Theorems.Sink.Input

/-! `inputState` in `internal/vnc/input.go` and `InputState` of `src/vnc_server.cpp` report the same events to the same
    kind of controller. The key map of the server has some symbols more; with the other ones, the host holds the same
    keys. Buttons and positions agree where the mask and the position let them. -/

namespace OnekvmVnc

open Scaling

/-! ### The key maps -/

/-- Where the symbols of both maps are. -/
def Listed (key : KeySym) : Prop := key < 0x80 ∨ 0xff00 ≤ key ∧ key ≤ 0xffff

instance (key : KeySym) : Decidable (Listed key) := inferInstanceAs (Decidable (_ ∨ _))

/-- The symbols that the server alone maps: shifted digits, the keypad and three keys more. -/
def serverSymbols : List KeySym :=
  [0x21, 0x40, 0x23, 0x24, 0x25, 0x5e, 0x26, 0x2a, 0x28, 0x29,
   0xff91, 0xff92, 0xff93, 0xff94,
   0xffb0, 0xffb1, 0xffb2, 0xffb3, 0xffb4, 0xffb5, 0xffb6, 0xffb7, 0xffb8, 0xffb9,
   0xff95, 0xff96, 0xff97, 0xff98, 0xff99, 0xff9a, 0xff9b, 0xff9c, 0xff9e, 0xff9f,
   0xff80, 0xff89, 0xff8d, 0xffaa, 0xffab, 0xffad, 0xffae, 0xffaf, 0xffbd,
   0xff7f, 0xff67]

/-- A property of the symbols is one of the two ranges and of the other symbols. -/
theorem forall_symbols {P : KeySym → Prop} (low : ∀ n : Fin 128, P (UInt32.ofNat n))
    (high : ∀ n : Fin 256, P (UInt32.ofNat (0xff00 + n))) (other : ∀ key, ¬ Listed key → P key) (key : KeySym) : P key := by
  by_cases hlisted : Listed key
  · have hkey : UInt32.ofNat key.toNat = key := UInt32.ofNat_toNat
    rcases hlisted with hlow | ⟨hge, hle⟩
    · rw [UInt32.lt_iff_toNat_lt] at hlow
      exact hkey ▸ low ⟨key.toNat, hlow⟩
    · rw [UInt32.le_iff_toNat_le] at hge hle
      change 0xff00 ≤ key.toNat at hge
      change key.toNat ≤ 0xffff at hle
      have h := high ⟨key.toNat - 0xff00, by omega⟩
      rwa [Nat.add_sub_cancel' hge, hkey] at h
  · exact other key hlisted

theorem lookup_of_not_listed {map : List (KeySym × UInt8)} (hmap : map.all (Listed ·.1) = true) {key : KeySym}
    (h : ¬ Listed key) : map.lookup key = none := by
  rw [List.lookup_eq_none_iff]
  intro entry hentry
  rw [bne_iff_ne]
  rintro rfl
  exact h (of_decide_eq_true (List.all_eq_true.mp hmap entry hentry))

theorem scancodeIn_of_not_listed {map : List (KeySym × UInt8)} (hmap : map.all (Listed ·.1) = true) {key : KeySym}
    (h : ¬ Listed key) : scancodeIn map key = 0 := by
  rw [scancodeIn, lookup_of_not_listed hmap h]
  rfl

theorem not_lowRange {key low high : KeySym} (h : ¬ Listed key) (hhigh : high < 0x80) : ¬ (low ≤ key ∧ key ≤ high) :=
  fun hrange => h (.inl (UInt32.lt_of_le_of_lt hrange.2 hhigh))

theorem not_highRange {key low high : KeySym} (h : ¬ Listed key) (hlow : 0xff00 ≤ low) (hhigh : high ≤ 0xffff) :
    ¬ (low ≤ key ∧ key ≤ high) :=
  fun hrange => h (.inr ⟨UInt32.le_trans hlow hrange.1, UInt32.le_trans hrange.2 hhigh⟩)

/-- Both maps have the same modifiers. -/
theorem modifierBit_eq (key : KeySym) :
    SinkInput.modifierBit key = if keyToMod key = 0 then none else some (keyToMod key) := by
  revert key
  refine forall_symbols (by decide +kernel) (by decide +kernel) fun key h => ?_
  have hmod : keyToMod key = 0 := by
    unfold keyToMod
    rw [if_neg (by rintro rfl; exact h (by decide)), if_neg (by rintro rfl; exact h (by decide))]
    exact scancodeIn_of_not_listed (by decide) h
  rw [hmod, if_pos rfl]
  exact lookup_of_not_listed (by decide) h

theorem keyToScancode_of_not_listed {key : KeySym} (h : ¬ Listed key) : keyToScancode key = 0 := by
  have hrange : rangeToScancode key = 0 := by
    unfold rangeToScancode
    have hletter : ¬ ((0x41 ≤ key ∧ key ≤ 0x5a) ∨ (0x61 ≤ key ∧ key ≤ 0x7a)) :=
      not_or.mpr ⟨not_lowRange h (by decide), not_lowRange h (by decide)⟩
    rw [if_neg hletter, if_neg (not_lowRange h (by decide)), if_neg (not_highRange h (by decide) (by decide)),
      if_neg (not_highRange h (by decide) (by decide)), if_neg (not_highRange h (by decide) (by decide))]
  have hsymbol : symbolToScancode key = 0 := scancodeIn_of_not_listed (by decide) h
  have hnavigation : navigationToScancode key = 0 := scancodeIn_of_not_listed (by decide) h
  have hspecial : specialToScancode key = 0 := scancodeIn_of_not_listed (by decide) h
  simp only [keyToScancode, hrange, hsymbol, hnavigation, hspecial, if_true]

/-- Both maps have the same usage for a symbol, or the server alone has one. -/
theorem usbUsage_eq (key : KeySym) : SinkInput.usbUsage key =
    if keyToScancode key = 0 ∨ key ∈ serverSymbols then none else some (keyToScancode key) := by
  revert key
  refine forall_symbols (by decide +kernel) (by decide +kernel) fun key h => ?_
  rw [keyToScancode_of_not_listed h, if_pos (.inl rfl)]
  unfold SinkInput.usbUsage
  rw [if_neg (not_lowRange h (by decide)), if_neg (not_lowRange h (by decide)), if_neg (not_lowRange h (by decide))]
  exact lookup_of_not_listed (by decide) h

/-! ### Keyboards -/

namespace SinkInput

/-- `inputState` after key events, with its calls of the controller. -/
def keyEvents (s : SinkInput) (events : List KeyEvent) : SinkInput × List HIDRequest :=
  events.foldl (fun (s, requests) e => ((s.key e.down e.key).1, requests ++ (s.key e.down e.key).2)) (s, [])

theorem keyEvents_concat (s : SinkInput) (events : List KeyEvent) (event : KeyEvent) :
    s.keyEvents (events ++ [event]) = (((s.keyEvents events).1.key event.down event.key).1,
      (s.keyEvents events).2 ++ ((s.keyEvents events).1.key event.down event.key).2) := List.foldl_concat ..

end SinkInput

namespace InputState

/-- The requests of `Key` events. -/
def keyRequests (s : InputState) (events : List KeyEvent) : List HIDRequest :=
  (events.foldl (fun (s, requests) e => ((s.key e.down e.key).1, requests ++ (s.key e.down e.key).2.toList)) (s, [])).2

theorem foldl_keyEvents (s : InputState) (events : List KeyEvent) :
    (events.foldl (fun (s, requests) e => ((s.key e.down e.key).1, requests ++ (s.key e.down e.key).2.toList)) (s, [])).1 =
      s.keyEvents events := by
  induction events using List.reverseRecOn with
  | nil => rfl
  | append_singleton events event ih =>
    rw [List.foldl_concat, keyEvents_concat, ← ih]

theorem keyRequests_concat (s : InputState) (events : List KeyEvent) (event : KeyEvent) :
    s.keyRequests (events ++ [event]) =
      s.keyRequests events ++ ((s.keyEvents events).key event.down event.key).2.toList := by
  rw [keyRequests, List.foldl_concat, ← foldl_keyEvents]
  rfl

end InputState

/-- Both hold the same. -/
structure SameKeys (s : SinkInput) (t : InputState) : Prop where
  controller : s.controller = true
  modifiers : s.modifiers = t.modifiers
  keys : s.keys = t.keys

theorem SameKeys.sendKeyboard {s : SinkInput} {t : InputState} (h : SameKeys s t) :
    t.sendKeyboard = .keyboard s.modifiers s.reportKeys := by
  rw [InputState.sendKeyboard, SinkInput.reportKeys, h.modifiers, h.keys]

/-- An event of a symbol that both map, or neither. The server sends nothing for one that it does not map, and the sink
    sends its report again. -/
theorem SameKeys.key {s : SinkInput} {t : InputState} (h : SameKeys s t) (down : Bool) {key : KeySym}
    (common : key ∉ serverSymbols) : SameKeys (s.key down key).1 (t.key down key).1 ∧
      (s.key down key).2 = [.keyboard (s.key down key).1.modifiers (s.key down key).1.reportKeys] ∧
      ((t.key down key).2 = some (t.key down key).1.sendKeyboard ∨
        (t.key down key).2 = none ∧ (s.key down key).1 = s) := by
  rw [SinkInput.key, if_pos h.controller]
  refine ⟨?_, rfl, ?_⟩ <;> dsimp only
  · unfold SinkInput.pressKey InputState.key
    rw [modifierBit_eq, usbUsage_eq]
    by_cases hmodifier : keyToMod key = 0
    · rw [if_pos hmodifier]
      dsimp only
      rw [if_neg (not_not.mpr hmodifier)]
      by_cases husage : keyToScancode key = 0
      · rw [if_pos (.inl husage), if_pos husage]
        exact h
      · rw [if_neg (not_or.mpr ⟨husage, common⟩), if_neg husage]
        exact ⟨h.controller, h.modifiers, by dsimp only; rw [h.keys]⟩
    · rw [if_neg hmodifier]
      dsimp only
      rw [if_pos hmodifier]
      exact ⟨h.controller, by dsimp only; rw [h.modifiers], h.keys⟩
  · unfold SinkInput.pressKey InputState.key
    rw [modifierBit_eq, usbUsage_eq]
    by_cases hmodifier : keyToMod key = 0
    · rw [if_pos hmodifier]
      dsimp only
      rw [if_neg (not_not.mpr hmodifier)]
      by_cases husage : keyToScancode key = 0
      · rw [if_pos husage]
        refine .inr ⟨rfl, ?_⟩
        rw [if_pos (.inl husage)]
      · rw [if_neg husage]
        exact .inl rfl
    · dsimp only
      rw [if_pos hmodifier]
      exact .inl rfl

/-- Whatever the key events are, as long as they are of symbols that both key maps have or neither has: the host of the
    sink and the host of the server have been told the same last, and both programs keep the same modifiers and keys. -/
theorem keyboards_agree (width height : UInt16) (events : List KeyEvent) (common : ∀ e ∈ events, e.key ∉ serverSymbols) :
    HIDPart.keyboard.after (0, []) (SinkInput.keyEvents { controller := true, width, height } events).2 =
        HIDPart.keyboard.after (0, []) (InputState.keyRequests (.resize {} width height) events) ∧
      (SinkInput.keyEvents { controller := true, width, height } events).1.modifiers =
        (InputState.keyEvents (.resize {} width height) events).modifiers ∧
      (SinkInput.keyEvents { controller := true, width, height } events).1.keys =
        (InputState.keyEvents (.resize {} width height) events).keys := by
  suffices hboth : SameKeys (SinkInput.keyEvents { controller := true, width, height } events).1
        (InputState.keyEvents (.resize {} width height) events) ∧
      HIDPart.keyboard.after (0, []) (SinkInput.keyEvents { controller := true, width, height } events).2 =
        HIDPart.keyboard.holds (SinkInput.keyEvents { controller := true, width, height } events).1 ∧
      HIDPart.keyboard.after (0, []) (InputState.keyRequests (.resize {} width height) events) =
        HIDPart.keyboard.holds (SinkInput.keyEvents { controller := true, width, height } events).1 from
    ⟨hboth.2.1.trans hboth.2.2.symm, hboth.1.modifiers, hboth.1.keys⟩
  induction events using List.reverseRecOn with
  | nil => exact ⟨⟨rfl, rfl, rfl⟩, rfl, rfl⟩
  | append_singleton events event ih =>
    obtain ⟨hsame, hsink, hserver⟩ := ih fun e he => common e (List.mem_append_left _ he)
    have hevent := common event (List.mem_append_right _ (List.mem_singleton_self _))
    obtain ⟨hnext, hreport, hrequest⟩ := hsame.key event.down hevent
    rw [SinkInput.keyEvents_concat, InputState.keyEvents_concat, InputState.keyRequests_concat]
    refine ⟨hnext, ?_, ?_⟩
    · rw [HIDPart.after_append, hreport]
      rfl
    · rw [HIDPart.after_append, hserver]
      rcases hrequest with hsent | ⟨hnone, hstay⟩
      · rw [hsent, hnext.sendKeyboard]
        rfl
      · rw [hnone, hstay]
        rfl

/-- A key is pressed with shift, and a symbol comes that neither map has. -/
theorem keyboards_agree_shift : HIDPart.keyboard.after (0, [])
    (InputState.keyRequests (.resize {} 640 480) [⟨true, 0xffe1⟩, ⟨true, 0x41⟩, ⟨true, 0x20ac⟩]) = (0x02, [0x04]) := by
  have hsame := (keyboards_agree 640 480 [⟨true, 0xffe1⟩, ⟨true, 0x41⟩, ⟨true, 0x20ac⟩] (by decide)).1
  rw [← hsame]
  decide

/-! ### Pointers -/

namespace SinkInput

/-- Only the middle and the right button are told apart differently. -/
theorem maskButtons_iff (mask : UInt8) :
    maskButtons mask = rfbButtonsToHID mask.toUInt32 ↔ (mask &&& 0x02 ≠ 0 ↔ mask &&& 0x04 ≠ 0) := by
  have hall : ∀ n : Fin 256, maskButtons (UInt8.ofNat n) = rfbButtonsToHID (UInt8.ofNat n).toUInt32 ↔
      (UInt8.ofNat n &&& 0x02 ≠ 0 ↔ UInt8.ofNat n &&& 0x04 ≠ 0) := by decide +kernel
  have h := hall ⟨mask.toNat, mask.toNat_lt⟩
  rwa [UInt8.ofNat_toNat] at h

theorem maskWheel_eq (mask : UInt8) : maskWheel mask = wheelOf mask.toUInt32 := by
  have hall : ∀ n : Fin 256, maskWheel (UInt8.ofNat n) = wheelOf (UInt8.ofNat n).toUInt32 := by decide +kernel
  have h := hall ⟨mask.toNat, mask.toNat_lt⟩
  rwa [UInt8.ofNat_toNat] at h

section
variable {value extent : UInt16}

/-- The division in 32 bits is exact, and its result is cut to 16 bits. -/
theorem coordinate_eq (wide : 1 < extent.toNat) :
    (coordinate value extent).toNat = scale maxAbsolute (extent.toNat - 1) value.toNat % 65536 := by
  have hvalue : value.toNat < 65536 := value.toNat_lt
  have hone : (1 : UInt16) ≤ extent := UInt16.le_iff_toNat_le.mpr wide.le
  have hlast : (extent - 1).toUInt32.toNat = extent.toNat - 1 := by
    rw [UInt16.toNat_toUInt32, UInt16.toNat_sub_of_le _ _ hone]
    rfl
  have hproduct : (value.toUInt32 * 32767).toNat = value.toNat * maxAbsolute := by
    rw [UInt32.toNat_mul, UInt16.toNat_toUInt32]
    change value.toNat * 32767 % _ = value.toNat * 32767
    exact Nat.mod_eq_of_lt (by omega)
  have hwide : extent > 1 := UInt16.lt_iff_toNat_lt.mpr wide
  rw [coordinate, if_pos hwide, UInt32.toNat_toUInt16, UInt32.toNat_div, hproduct, hlast]
  rfl

/-- A pixel of the framebuffer is reported where the server reports it. -/
theorem coordinate_inside (h : value < extent) : coordinate value extent = absoluteCoordinate value.toNat extent := by
  rw [UInt16.lt_iff_toNat_lt] at h
  by_cases wide : 1 < extent.toNat
  · have hclamp : clamp (value.toNat : Int) 0 (extent.toNat - 1) = value.toNat := clamp_of_mem (by omega) (by omega)
    have hle : scale maxAbsolute (extent.toNat - 1) value.toNat ≤ maxAbsolute := scale_le (by omega) (by omega)
    rw [← UInt16.toNat_inj, coordinate_eq wide, absoluteCoordinate_eq wide, hclamp, Int.toNat_natCast]
    exact Nat.mod_eq_of_lt (Nat.lt_of_le_of_lt hle (by decide))
  · rw [absoluteCoordinate_of_le (Nat.not_lt.mp wide), coordinate, if_neg]
    rw [gt_iff_lt, UInt16.lt_iff_toNat_lt]
    exact wide

/-- A position beyond the framebuffer, by its size at most, is reported beyond the range of the device. -/
theorem coordinate_beyond (wide : 1 < extent.toNat) (places : extent.toNat ≤ 32768) (h : extent ≤ value)
    (near : value.toNat ≤ 2 * (extent.toNat - 1)) : maxAbsolute < (coordinate value extent).toNat := by
  rw [UInt16.le_iff_toNat_le] at h
  have hlast : 0 < extent.toNat - 1 := by omega
  have hroom : extent.toNat - 1 ≤ maxAbsolute := by unfold maxAbsolute; omega
  have hpast : maxAbsolute < scale maxAbsolute (extent.toNat - 1) value.toNat :=
    (scale_last hlast).symm.trans_lt (scale_lt hlast hroom (by omega))
  have htwice : scale maxAbsolute (extent.toNat - 1) (2 * (extent.toNat - 1)) = 2 * maxAbsolute := by
    rw [scale, Nat.mul_right_comm]
    exact Nat.mul_div_cancel _ hlast
  have hcut : scale maxAbsolute (extent.toNat - 1) value.toNat < 65536 :=
    Nat.lt_of_le_of_lt ((scale_mono near).trans htwice.le) (by decide)
  rw [coordinate_eq wide, Nat.mod_eq_of_lt hcut]
  exact hpast

end

end SinkInput

/-- For every pointer event, the sink reports the buttons that the server reports exactly when the middle and the right
    button are both down or both up; the wheel is always the same, and so is each coordinate of a position inside of the
    framebuffer. Beyond it the server reports the last pixel, while the sink leaves the range of the device, on an axis of
    2 to 32768 pixels up to twice the last of them. -/
theorem pointers_agree {s : SinkInput} {t : InputState} (controller : s.controller = true) (width : t.width = s.width)
    (height : t.height = s.height) (mask : UInt8) (x y : UInt16) :
    ∃ buttons x' y', (s.pointer mask x y).2 = .absoluteMouse buttons x' y' ::
        (if (t.report mask.toUInt32 x.toNat y.toNat).wheel ≠ 0 then
          [.mouse buttons.toUInt8 (t.report mask.toUInt32 x.toNat y.toNat).wheel] else []) ∧
      (buttons = (t.report mask.toUInt32 x.toNat y.toNat).buttons ↔ (mask &&& 0x02 ≠ 0 ↔ mask &&& 0x04 ≠ 0)) ∧
      (x < s.width → x' = (t.report mask.toUInt32 x.toNat y.toNat).x) ∧
      (y < s.height → y' = (t.report mask.toUInt32 x.toNat y.toNat).y) ∧
      (1 < s.width.toNat → s.width.toNat ≤ 32768 → s.width ≤ x → x.toNat ≤ 2 * (s.width.toNat - 1) → maxAbsolute < x'.toNat) ∧
      (1 < s.height.toNat → s.height.toNat ≤ 32768 → s.height ≤ y → y.toNat ≤ 2 * (s.height.toNat - 1) →
        maxAbsolute < y'.toNat) := by
  refine ⟨SinkInput.maskButtons mask, SinkInput.coordinate x s.width, SinkInput.coordinate y s.height, ?_,
    SinkInput.maskButtons_iff mask, fun hx => ?_, fun hy => ?_, SinkInput.coordinate_beyond, SinkInput.coordinate_beyond⟩
  · rw [SinkInput.pointer, if_pos controller, SinkInput.maskWheel_eq]
    rfl
  · rw [SinkInput.coordinate_inside hx, ← width]
    rfl
  · rw [SinkInput.coordinate_inside hy, ← height]
    rfl

/-- The middle button is pressed in the last column, one row below the framebuffer. -/
theorem pointers_agree_middle : ∃ buttons x' y',
    (SinkInput.pointer { controller := true, width := 640, height := 480 } 0x02 639 480).2 = [.absoluteMouse buttons x' y'] ∧
      buttons ≠ 4 ∧ x' = 32767 ∧ maxAbsolute < y'.toNat := by
  obtain ⟨buttons, x', y', hrequests, hbuttons, hx, -, -, hy⟩ :=
    pointers_agree (t := InputState.resize {} 640 480) (s := { controller := true, width := 640, height := 480 })
      rfl (by decide) (by decide) 0x02 639 480
  refine ⟨buttons, x', y', hrequests, fun hmiddle => ?_, hx (by decide), ?_⟩
  · exact absurd (hbuttons.mp hmiddle) (by decide)
  · exact hy (by decide) (by decide) (by decide) (by decide)

end OnekvmVnc
