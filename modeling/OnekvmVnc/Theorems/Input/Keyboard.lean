import Mathlib.Data.Finset.Card
import Mathlib.Data.List.FinRange
import Mathlib.Data.List.Induction
import OnekvmVnc.Input
import OnekvmVnc.Lib.Smallest

/-! The keyboard reports of `Key`. `keys_` is kept by key symbol, while a report names physical keys, and
    several symbols share one key; modifiers are kept by bit. What the reports follow is the latest event of
    a key, under any of its symbols. -/

namespace OnekvmVnc

open Smallest

local instance instLinearOrderUInt8 : LinearOrder UInt8 where
  le_refl := UInt8.le_refl
  le_trans _ _ _ := UInt8.le_trans
  le_antisymm _ _ := UInt8.le_antisymm
  le_total := UInt8.le_total
  lt_iff_le_not_ge a b := by
    rw [UInt8.lt_iff_toNat_lt, UInt8.le_iff_toNat_le, UInt8.le_iff_toNat_le]
    omega
  toDecidableLE := inferInstance
  toDecidableEq := inferInstance
  toDecidableLT := inferInstance

/-- A key event of a client. -/
structure KeyEvent where
  down : Bool
  key : KeySym
  deriving DecidableEq, Repr

/-- Of the events of the symbols of a kind, the latest one is a press. -/
def pressed (kind : KeySym → Bool) (events : List KeyEvent) : Bool :=
  events.foldl (fun last event => if kind event.key then event.down else last) false

/-- The usage of a symbol that is not a modifier, 0 without one. -/
def usageOf (key : KeySym) : UInt8 := if keyToMod key = 0 then keyToScancode key else 0

def keyPressed (events : List KeyEvent) (usage : UInt8) : Bool := pressed (usageOf · = usage) events

/-- The usages of the physical keys that are pressed, in increasing order. -/
def pressedKeys (events : List KeyEvent) : List UInt8 :=
  ((List.finRange 256).map fun n => UInt8.ofNat n.val).filter fun usage => usage ≠ 0 ∧ keyPressed events usage = true

/-- The bits of the modifier byte. -/
def modifierBit (n : Fin 8) : UInt8 := 1 <<< UInt8.ofNat n.val

/-- A report follows the physical keys: it has the modifiers that are pressed, and the six smallest usages. -/
def FollowsKeys (events : List KeyEvent) : HIDRequest → Prop
  | .keyboard modifiers keys =>
    (∀ n, modifiers &&& modifierBit n ≠ 0 ↔ pressed (keyToMod · = modifierBit n) events = true) ∧
      keys.Pairwise (· < ·) ∧ keys = (pressedKeys events).take 6
  | _ => False

/-- The pressed keys below a usage. -/
def lowerKeys (events : List KeyEvent) (usage : UInt8) : Nat := (pressedKeys events).countP (· < usage)

/-- A symbol that is down, its own latest event being a press, is the only one of its key that is down, and its
    key is pressed; or else enough lower keys are pressed that the report leaves the key out. -/
def SymbolsApart (events : List KeyEvent) : Prop :=
  ∀ key, pressed (· = key) events = true → usageOf key ≠ 0 →
    (keyPressed events (usageOf key) = false → 6 ≤ lowerKeys events (usageOf key)) ∧
    ((∃ other, other ≠ key ∧ usageOf other = usageOf key ∧ pressed (· = other) events = true) →
      5 ≤ lowerKeys events (usageOf key))

namespace InputState

/-- `InputState` after `Key` events. -/
def keyEvents (s : InputState) (events : List KeyEvent) : InputState :=
  events.foldl (fun s e => (s.key e.down e.key).1) s

theorem keyEvents_concat (s : InputState) (events : List KeyEvent) (event : KeyEvent) :
    s.keyEvents (events ++ [event]) = ((s.keyEvents events).key event.down event.key).1 := List.foldl_concat ..

end InputState

section
variable {kind : KeySym → Bool} {events : List KeyEvent} {event : KeyEvent}

@[simp] theorem pressed_nil : pressed kind [] = false := rfl

@[simp] theorem pressed_concat :
    pressed kind (events ++ [event]) = if kind event.key then event.down else pressed kind events := by
  simp [pressed]

/-- The symbol of the latest press of a kind is down. -/
theorem exists_of_pressed (h : pressed kind events = true) :
    ∃ key, kind key = true ∧ pressed (· = key) events = true := by
  induction events using List.reverseRecOn with
  | nil => cases h
  | append_singleton events event ih =>
    rw [pressed_concat] at h
    split at h
    · rename_i hkind
      exact ⟨event.key, hkind, by simpa using h⟩
    · rename_i hkind
      obtain ⟨key, hkey, hdown⟩ := ih h
      have hne : event.key ≠ key := fun heq => hkind (heq ▸ hkey)
      exact ⟨key, hkey, by simpa [hne] using hdown⟩

theorem mem_pressedKeys {usage : UInt8} : usage ∈ pressedKeys events ↔ usage ≠ 0 ∧ keyPressed events usage = true := by
  have hall : usage ∈ (List.finRange 256).map fun n => UInt8.ofNat n.val :=
    List.mem_map.mpr ⟨⟨usage.toNat, usage.toNat_lt⟩, List.mem_finRange _, UInt8.ofNat_toNat⟩
  rw [pressedKeys, List.mem_filter, and_iff_right hall, decide_eq_true_eq]

theorem pressedKeys_increasing : (pressedKeys events).Pairwise (· < ·) := by
  have hall : ((List.finRange 256).map fun n => UInt8.ofNat n.val).Pairwise (· < ·) := by
    refine List.Pairwise.map _ (fun m n hlt => ?_) (List.pairwise_lt_finRange 256)
    rw [UInt8.lt_iff_toNat_lt, UInt8.toNat_ofNat', UInt8.toNat_ofNat']
    omega
  exact hall.filter _

end

/-! ### Modifiers -/

/-- A modifier symbol has a single bit. -/
theorem keyToMod_bit (key : KeySym) : keyToMod key = 0 ∨ ∃ n, keyToMod key = modifierBit n := by
  unfold keyToMod
  dsimp only
  split
  · exact .inr ⟨3, by decide⟩
  · split
    · exact .inr ⟨7, by decide⟩
    · rw [scancodeIn]
      cases h : List.lookup key keyModMap with
      | none => exact .inl rfl
      | some modifier =>
        have hmem : modifier ∈ keyModMap.map (·.2) := by
          obtain ⟨l₁, l₂, hsplit, -⟩ := List.lookup_eq_some_iff.mp h
          simp [hsplit]
        have hbits : ∀ modifier ∈ keyModMap.map (·.2), ∃ n, modifier = modifierBit n := by
          decide +kernel
        exact .inr (hbits modifier hmem)

theorem modifierBit_and (m n : Fin 8) : modifierBit m &&& modifierBit n = if m = n then modifierBit n else 0 := by
  revert m n
  decide

theorem modifierBit_ne_zero (n : Fin 8) : modifierBit n ≠ 0 := by
  revert n
  decide

theorem modifierBit_inj {m n : Fin 8} (h : modifierBit m = modifierBit n) : m = n := by
  by_contra hne
  have hand := modifierBit_and m n
  rw [h, if_neg hne, UInt8.and_self] at hand
  exact modifierBit_ne_zero n hand

theorem or_and_right (a b c : UInt8) : (a ||| b) &&& c = a &&& c ||| b &&& c := by
  rw [← UInt8.toBitVec_inj]
  exact BitVec.and_or_distrib_right

theorem and_or_absorb (a b : UInt8) : a &&& b ||| b = b := by
  rw [← UInt8.toBitVec_inj]
  refine BitVec.eq_of_getElem_eq fun i hi => ?_
  simp only [UInt8.toBitVec_or, UInt8.toBitVec_and, BitVec.getElem_or, BitVec.getElem_and]
  cases a.toBitVec[i] <;> simp

/-- An event of a modifier moves its own bit only. -/
theorem and_modifierBit (modifiers : UInt8) (down : Bool) (m n : Fin 8) :
    (if down then modifiers ||| modifierBit m else modifiers &&& ~~~modifierBit m) &&& modifierBit n =
      if m = n then if down then modifierBit n else 0 else modifiers &&& modifierBit n := by
  have hclear : ~~~modifierBit m &&& modifierBit n = if m = n then 0 else modifierBit n := by
    revert m n
    decide
  cases down with
  | true =>
    rw [if_pos rfl, if_pos rfl, or_and_right, modifierBit_and]
    split
    · rw [and_or_absorb]
    · rw [UInt8.or_zero]
  | false =>
    rw [if_neg Bool.false_ne_true, UInt8.and_assoc, hclear]
    split <;> simp

/-! ### `Key` -/

/-- What `modifiers_` and `keys_` are after the events. -/
structure KeysKept (s : InputState) (events : List KeyEvent) : Prop where
  modifiers : ∀ n, s.modifiers &&& modifierBit n ≠ 0 ↔ pressed (keyToMod · = modifierBit n) events = true
  nodup : (s.keys.map (·.1)).Nodup
  keys : ∀ key usage, (key, usage) ∈ s.keys ↔ usage = usageOf key ∧ usage ≠ 0 ∧ pressed (· = key) events = true

namespace KeysKept
variable {s : InputState} {events : List KeyEvent}

theorem start (modifiers : s.modifiers = 0) (keys : s.keys = []) : KeysKept s [] :=
  ⟨fun n => by simp [modifiers], by simp [keys], fun key usage => by simp [keys]⟩

/-- The keys after an event of a symbol without a usage. -/
theorem unmapped (h : KeysKept s events) {event : KeyEvent} (husage : usageOf event.key = 0) (key : KeySym)
    (usage : UInt8) : (key, usage) ∈ s.keys ↔ usage = usageOf key ∧ usage ≠ 0 ∧ pressed (· = key) (events ++ [event]) = true := by
  rw [h.keys, pressed_concat]
  by_cases hkey : event.key = key
  · subst hkey
    rw [husage]
    simp +contextual
  · simp [hkey]

theorem step (h : KeysKept s events) (event : KeyEvent) :
    KeysKept (s.key event.down event.key).1 (events ++ [event]) := by
  unfold InputState.key
  dsimp only
  split
  · rename_i hmodifier
    obtain ⟨m, hm⟩ := (keyToMod_bit event.key).resolve_left hmodifier
    refine ⟨fun n => ?_, h.nodup, h.unmapped (by simp [usageOf, hmodifier])⟩
    rw [pressed_concat, hm]
    dsimp only
    rw [and_modifierBit]
    by_cases hmn : m = n
    · subst hmn
      cases event.down <;> simp [modifierBit_ne_zero]
    · have hne : modifierBit m ≠ modifierBit n := fun heq => hmn (modifierBit_inj heq)
      simpa [hmn, hne] using h.modifiers n
  · rename_i hmodifier
    rw [not_not] at hmodifier
    have hmodifiers (n : Fin 8) : s.modifiers &&& modifierBit n ≠ 0 ↔
        pressed (keyToMod · = modifierBit n) (events ++ [event]) = true := by
      have hne : (0 : UInt8) ≠ modifierBit n := (modifierBit_ne_zero n).symm
      rw [pressed_concat, hmodifier]
      simpa [hne] using h.modifiers n
    split
    · rename_i husage
      exact ⟨hmodifiers, h.nodup, h.unmapped (by simp [usageOf, husage])⟩
    · rename_i husage
      have husageOf : usageOf event.key = keyToScancode event.key := if_pos hmodifier
      have hothers : ((s.keys.filter (·.1 ≠ event.key)).map (·.1)).Nodup := h.nodup.sublist (List.filter_sublist.map _)
      refine ⟨hmodifiers, ?_, fun key usage => ?_⟩
      · cases event.down with
        | false => exact hothers
        | true => exact List.nodup_cons.mpr ⟨by simp, hothers⟩
      · rw [pressed_concat]
        by_cases hkey : event.key = key
        · subst hkey
          cases event.down with
          | false => simp
          | true =>
            simp only [if_true, List.mem_cons, Prod.mk.injEq, true_and, List.mem_filter, ne_eq, not_true_eq_false,
              decide_false, Bool.false_eq_true, and_false, or_false, husageOf, decide_true, and_true]
            exact ⟨fun heq => ⟨heq, heq ▸ husage⟩, fun ⟨heq, _⟩ => heq⟩
        · have hpair : (key, usage) ≠ (event.key, keyToScancode event.key) := fun heq =>
            hkey (congrArg Prod.fst heq).symm
          have hmem : (key, usage) ∈ s.keys.filter (·.1 ≠ event.key) ↔ (key, usage) ∈ s.keys := by
            simp [List.mem_filter, Ne.symm hkey]
          have hother : decide (event.key = key) = false := by simpa using hkey
          rw [hother, if_neg Bool.false_ne_true, ← h.keys]
          cases event.down with
          | false => exact hmem
          | true => simpa [List.mem_cons, hpair] using hmem

theorem run (modifiers : s.modifiers = 0) (keys : s.keys = []) (events : List KeyEvent) :
    KeysKept (s.keyEvents events) events := by
  induction events using List.reverseRecOn with
  | nil => exact .start modifiers keys
  | append_singleton events event ih =>
    rw [InputState.keyEvents_concat]
    exact ih.step event

/-! ### Reports -/

/-- The usages of the symbols that are down, in the order of a report. -/
def usages (s : InputState) : List UInt8 := (s.keys.map (·.2)).insertionSort (· ≤ ·)

theorem mem_usages (h : KeysKept s events) {usage : UInt8} :
    usage ∈ usages s ↔ usage ≠ 0 ∧ ∃ key, usageOf key = usage ∧ pressed (· = key) events = true := by
  rw [usages, List.mem_insertionSort, List.mem_map]
  constructor
  · rintro ⟨⟨key, _⟩, hmem, rfl⟩
    obtain ⟨heq, hne, hdown⟩ := (h.keys _ _).mp hmem
    exact ⟨hne, key, heq.symm, hdown⟩
  · rintro ⟨hne, key, rfl, hdown⟩
    exact ⟨(key, usageOf key), (h.keys _ _).mpr ⟨rfl, hne, hdown⟩, rfl⟩

/-- A usage is there twice when two of its symbols are down. -/
theorem count_usages (h : KeysKept s events) {usage : UInt8} (husage : usage ≠ 0) : 1 < (usages s).count usage ↔
    ∃ key other, other ≠ key ∧ usageOf key = usage ∧ usageOf other = usage ∧ pressed (· = key) events = true ∧
      pressed (· = other) events = true := by
  have hcount : (usages s).count usage = ((s.keys.filter (·.2 = usage)).map (·.1)).toFinset.card := by
    have hnodup : ((s.keys.filter (·.2 = usage)).map (·.1)).Nodup := h.nodup.sublist (List.filter_sublist.map _)
    rw [usages, (List.perm_insertionSort _ _).count_eq, List.toFinset_card_of_nodup hnodup, List.length_map, List.count,
      List.countP_map, List.countP_eq_length_filter]
    rfl
  have hmem (key : KeySym) : key ∈ ((s.keys.filter (·.2 = usage)).map (·.1)).toFinset ↔
      usageOf key = usage ∧ pressed (· = key) events = true := by
    simp only [List.mem_toFinset, List.mem_map, List.mem_filter, decide_eq_true_eq]
    constructor
    · rintro ⟨⟨key, _⟩, ⟨hmem, rfl⟩, rfl⟩
      obtain ⟨heq, -, hdown⟩ := (h.keys _ _).mp hmem
      exact ⟨heq.symm, hdown⟩
    · rintro ⟨rfl, hdown⟩
      exact ⟨(key, usageOf key), ⟨(h.keys _ _).mpr ⟨rfl, husage, hdown⟩, rfl⟩, rfl⟩
  rw [hcount, Finset.one_lt_card]
  simp only [hmem]
  constructor
  · rintro ⟨key, ⟨hkey, hdown⟩, other, ⟨hother, hdown'⟩, hne⟩
    exact ⟨key, other, hne.symm, hkey, hother, hdown, hdown'⟩
  · rintro ⟨key, other, hne, hkey, hother, hdown, hdown'⟩
    exact ⟨key, ⟨hkey, hdown⟩, other, ⟨hother, hdown'⟩, hne.symm⟩

theorem pressedKeys_subset (h : KeysKept s events) : ∀ usage ∈ pressedKeys events, usage ∈ usages s := by
  intro usage hmem
  obtain ⟨hne, hpressed⟩ := mem_pressedKeys.mp hmem
  obtain ⟨key, hkey, hdown⟩ := exists_of_pressed hpressed
  exact h.mem_usages.mpr ⟨hne, key, of_decide_eq_true hkey, hdown⟩

/-- What keeps the symbols apart is what keeps a report of all symbols and one of the pressed keys alike. -/
theorem apart_iff (h : KeysKept s events) : SymbolsApart events ↔ Beyond 6 (usages s) (pressedKeys events) := by
  constructor
  · intro hapart usage hmem
    obtain ⟨hne, key, rfl, hdown⟩ := h.mem_usages.mp hmem
    obtain ⟨hreleased, htwice⟩ := hapart key hdown hne
    refine ⟨fun hnot => hreleased ?_, fun hcount => ?_⟩
    · rw [mem_pressedKeys, not_and, Bool.not_eq_true] at hnot
      exact hnot hne
    · obtain ⟨first, second, hsecond, hfirst', hsecond', hdown₁, hdown₂⟩ := (h.count_usages hne).mp hcount
      -- One of the two symbols is another one than the symbol at hand.
      have hfive : 5 ≤ lowerKeys events (usageOf key) := by
        by_cases heq : first = key
        · exact htwice ⟨second, heq ▸ hsecond, hsecond', hdown₂⟩
        · exact htwice ⟨first, heq, hfirst', hdown₁⟩
      exact Nat.succ_le_succ hfive
  · intro hbeyond key hdown hne
    obtain ⟨hextra, htwice⟩ := hbeyond (usageOf key) (h.mem_usages.mpr ⟨hne, key, rfl, hdown⟩)
    refine ⟨fun hreleased => hextra ?_, fun ⟨other, hother, husage, hdown'⟩ => ?_⟩
    · rw [mem_pressedKeys, hreleased]
      simp
    · exact Nat.le_of_succ_le_succ (htwice ((h.count_usages hne).mpr ⟨key, other, hother, rfl, husage, hdown, hdown'⟩))

theorem follows_iff (h : KeysKept s events) : FollowsKeys events s.sendKeyboard ↔ SymbolsApart events := by
  have hsorted : (usages s).Pairwise (· ≤ ·) := List.pairwise_insertionSort _ _
  rw [h.apart_iff, ← take_eq_take_iff hsorted pressedKeys_increasing h.pressedKeys_subset]
  constructor
  · rintro ⟨-, -, heq⟩
    exact heq
  · intro heq
    have hkeys : ((s.keys.map (·.2)).insertionSort (· ≤ ·)).take 6 = (pressedKeys events).take 6 := heq
    refine ⟨h.modifiers, ?_, hkeys⟩
    rw [hkeys]
    exact pressedKeys_increasing.sublist (List.take_sublist ..)

end KeysKept

/-- The report after each event of a mapped symbol follows the physical keys exactly when the symbols of each
    reported key are kept apart: none is down while its key was last released, and no two are down at once. -/
theorem keyboard_follows_iff (width height : UInt16) (events : List KeyEvent) (event : KeyEvent)
    (mapped : keyToMod event.key ≠ 0 ∨ keyToScancode event.key ≠ 0) :
    (∃ report, ((InputState.keyEvents (.resize {} width height) events).key event.down event.key).2 = some report ∧
      FollowsKeys (events ++ [event]) report) ↔ SymbolsApart (events ++ [event]) := by
  have hkeyed : KeysKept (InputState.keyEvents (.resize {} width height) (events ++ [event])) (events ++ [event]) :=
    KeysKept.run rfl rfl _
  rw [← hkeyed.follows_iff, InputState.keyEvents_concat]
  generalize InputState.keyEvents (.resize {} width height) events = s
  have hreport : (s.key event.down event.key).2 = some (s.key event.down event.key).1.sendKeyboard := by
    unfold InputState.key
    dsimp only
    split
    · rfl
    · rename_i hmodifier
      rw [if_neg (mapped.resolve_left hmodifier)]
  rw [hreport]
  simp

/-- A key is pressed and released, and pressed again with shift, which makes it another symbol. -/
theorem keyboard_follows_iff_shifted :
    ∃ report, ((InputState.keyEvents (.resize {} 1024 768) [⟨true, 0x61⟩, ⟨false, 0x61⟩]).key true 0x41).2 = some report ∧
      FollowsKeys ([⟨true, 0x61⟩, ⟨false, 0x61⟩] ++ [⟨true, 0x41⟩]) report := by
  refine (keyboard_follows_iff 1024 768 [⟨true, 0x61⟩, ⟨false, 0x61⟩] ⟨true, 0x41⟩ (.inr (by decide))).mpr
    fun key hdown _ => ?_
  have honly (key : KeySym) (h : pressed (· = key) ([⟨true, 0x61⟩, ⟨false, 0x61⟩] ++ [⟨true, 0x41⟩]) = true) :
      key = 0x41 := by
    rw [pressed_concat] at h
    by_contra hne
    rw [if_neg (by simpa using Ne.symm hne)] at h
    simp [pressed] at h
  obtain rfl := honly key hdown
  refine ⟨fun hreleased => absurd hreleased (by decide), ?_⟩
  rintro ⟨other, hne, -, hother⟩
  exact absurd (honly other hother) hne

/-- Shift and 1 are pressed, shift is released before 1, and 1 is released as the unshifted symbol. -/
def shiftedOne : List KeyEvent := [⟨true, 0xffe1⟩, ⟨true, 0x21⟩, ⟨false, 0xffe1⟩]

/-- The key stays in the report. -/
theorem keyboard_stuck :
    ((InputState.keyEvents (.resize {} 1024 768) shiftedOne).key false 0x31).2 = some (.keyboard 0 [0x1e]) ∧
      ¬ ∃ report, ((InputState.keyEvents (.resize {} 1024 768) shiftedOne).key false 0x31).2 = some report ∧
        FollowsKeys (shiftedOne ++ [⟨false, 0x31⟩]) report := by
  have hreport : ((InputState.keyEvents (.resize {} 1024 768) shiftedOne).key false 0x31).2 =
      some (.keyboard 0 [0x1e]) := by decide
  refine ⟨hreport, ?_⟩
  rintro ⟨report, heq, hfollows⟩
  obtain rfl := Option.some.inj (hreport.symm.trans heq)
  obtain ⟨-, -, hkeys⟩ := hfollows
  have hmem : (0x1e : UInt8) ∈ pressedKeys (shiftedOne ++ [⟨false, 0x31⟩]) :=
    List.mem_of_mem_take (hkeys ▸ List.mem_singleton_self _)
  exact absurd (mem_pressedKeys.mp hmem).2 (by decide)

end OnekvmVnc
