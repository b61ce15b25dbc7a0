/-! The key map of `src/keymap.cpp`: RFB key symbols to USB HID modifier bits and usages. A symbol
    without a mapping gives 0. -/

namespace OnekvmVnc

abbrev KeySym := UInt32

/-- The value of the first entry for `key`, 0 without one. -/
def scancodeIn (map : List (KeySym × UInt8)) (key : KeySym) : UInt8 := (map.lookup key).getD 0

/-- RFB modifier key symbols mapped to HID modifier byte bit masks. -/
def keyModMap : List (KeySym × UInt8) :=
  [(0xffe1, 0x02),  -- XK_Shift_L
   (0xffe2, 0x20),  -- XK_Shift_R
   (0xffe3, 0x01),  -- XK_Control_L
   (0xffe4, 0x10),  -- XK_Control_R
   (0xffe7, 0x08),  -- XK_Meta_L
   (0xffe8, 0x80),  -- XK_Meta_R
   (0xffe9, 0x04),  -- XK_Alt_L
   (0xffea, 0x40)]  -- XK_Alt_R

/-- Letters, digits and function and keypad number keys. -/
def rangeToScancode (key : KeySym) : UInt8 :=
  if (0x41 ≤ key ∧ key ≤ 0x5a) ∨ (0x61 ≤ key ∧ key ≤ 0x7a) then 0x04 + ((key &&& 0x5f) - 0x41).toUInt8
  else if 0x31 ≤ key ∧ key ≤ 0x39 then 0x1e + (key - 0x31).toUInt8
  else if 0xffbe ≤ key ∧ key ≤ 0xffc9 then 0x3a + (key - 0xffbe).toUInt8
  else if 0xff91 ≤ key ∧ key ≤ 0xff94 then 0x3a + (key - 0xff91).toUInt8
  else if 0xffb1 ≤ key ∧ key ≤ 0xffb9 then 0x59 + (key - 0xffb1).toUInt8
  else 0

/-- Printable punctuation and shifted number-row symbols. -/
def symbolToScancode : KeySym → UInt8 := scancodeIn
  [(0x21, 0x1e),  -- XK_exclam
   (0x40, 0x1f),  -- XK_at
   (0x23, 0x20),  -- XK_numbersign
   (0x24, 0x21),  -- XK_dollar
   (0x25, 0x22),  -- XK_percent
   (0x5e, 0x23),  -- XK_asciicircum
   (0x26, 0x24),  -- XK_ampersand
   (0x2a, 0x25),  -- XK_asterisk
   (0x28, 0x26),  -- XK_parenleft
   (0x30, 0x27), (0x29, 0x27),  -- XK_0, XK_parenright
   (0x2d, 0x2d), (0x5f, 0x2d),  -- XK_minus, XK_underscore
   (0x2b, 0x2e), (0x3d, 0x2e),  -- XK_plus, XK_equal
   (0x5b, 0x2f), (0x7b, 0x2f),  -- XK_bracketleft, XK_braceleft
   (0x5d, 0x30), (0x7d, 0x30),  -- XK_bracketright, XK_braceright
   (0x5c, 0x31), (0x7c, 0x31),  -- XK_backslash, XK_bar
   (0x3a, 0x33), (0x3b, 0x33),  -- XK_colon, XK_semicolon
   (0x22, 0x34), (0x27, 0x34),  -- XK_quotedbl, XK_apostrophe
   (0x60, 0x35), (0x7e, 0x35),  -- XK_grave, XK_asciitilde
   (0x2c, 0x36), (0x3c, 0x36),  -- XK_comma, XK_less
   (0x2e, 0x37), (0x3e, 0x37),  -- XK_period, XK_greater
   (0x2f, 0x38), (0x3f, 0x38)]  -- XK_slash, XK_question

/-- Editing and cursor navigation keys and their keypad aliases. -/
def navigationToScancode : KeySym → UInt8 := scancodeIn
  [(0xff63, 0x49), (0xff9e, 0x49),  -- XK_Insert, XK_KP_Insert
   (0xff50, 0x4a), (0xff95, 0x4a),  -- XK_Home, XK_KP_Home
   (0xff55, 0x4b), (0xff9a, 0x4b),  -- XK_Page_Up, XK_KP_Page_Up
   (0xffff, 0x4c), (0xff9f, 0x4c),  -- XK_Delete, XK_KP_Delete
   (0xff57, 0x4d), (0xff9c, 0x4d),  -- XK_End, XK_KP_End
   (0xff56, 0x4e), (0xff9b, 0x4e),  -- XK_Page_Down, XK_KP_Page_Down
   (0xff53, 0x4f), (0xff98, 0x4f),  -- XK_Right, XK_KP_Right
   (0xff51, 0x50), (0xff96, 0x50),  -- XK_Left, XK_KP_Left
   (0xff54, 0x51), (0xff99, 0x51),  -- XK_Down, XK_KP_Down
   (0xff52, 0x52), (0xff97, 0x52)]  -- XK_Up, XK_KP_Up

/-- Control, lock, keypad operator and menu keys. -/
def specialToScancode : KeySym → UInt8 := scancodeIn
  [(0xff0d, 0x28),  -- XK_Return
   (0xff1b, 0x29),  -- XK_Escape
   (0xff08, 0x2a),  -- XK_BackSpace
   (0xff09, 0x2b), (0xff89, 0x2b),  -- XK_Tab, XK_KP_Tab
   (0x20, 0x2c), (0xff80, 0x2c),  -- XK_space, XK_KP_Space
   (0xffe5, 0x39),  -- XK_Caps_Lock
   (0xff61, 0x46),  -- XK_Print
   (0xff14, 0x47),  -- XK_Scroll_Lock
   (0xff13, 0x48),  -- XK_Pause
   (0xff7f, 0x53),  -- XK_Num_Lock
   (0xff8d, 0x58),  -- XK_KP_Enter
   (0xffbd, 0x67),  -- XK_KP_Equal
   (0xffaa, 0x55),  -- XK_KP_Multiply
   (0xffab, 0x57),  -- XK_KP_Add
   (0xffad, 0x56),  -- XK_KP_Subtract
   (0xffae, 0x63),  -- XK_KP_Decimal
   (0xffaf, 0x54),  -- XK_KP_Divide
   (0xffb0, 0x62),  -- XK_KP_0
   (0xff67, 0x65)]  -- XK_Menu

def keyToMod (key : KeySym) : UInt8 :=
  let mod := scancodeIn keyModMap key
  if key = 0xffeb then 0x08       -- XK_Super_L
  else if key = 0xffec then 0x80  -- XK_Super_R
  else mod

def keyToScancode (key : KeySym) : UInt8 :=
  let scancode := rangeToScancode key
  let scancode := if scancode = 0 then symbolToScancode key else scancode
  let scancode := if scancode = 0 then navigationToScancode key else scancode
  if scancode = 0 then specialToScancode key else scancode

-- The assertions of `tests/keymap_test.cpp`.
example : keyToScancode 0x61 = 0x04 ∧ keyToScancode 0x5a = 0x1d ∧ keyToScancode 0xff0d = 0x28 ∧
    keyToScancode 0xffc9 = 0x45 ∧ keyToMod 0xffe3 = 0x01 ∧ keyToMod 0xffec = 0x80 := by decide

end OnekvmVnc
