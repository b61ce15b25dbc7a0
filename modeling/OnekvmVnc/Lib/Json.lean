import Mathlib.Data.List.Basic
import OnekvmVnc.Lib.Decoder

/-! A reader of JSON texts as bytes. Bytes from 0x80 on are ordinary characters of a string, and an escaped character
    beyond ASCII becomes its UTF-8 bytes. The reader descends with fuel, of which every level takes one. -/

/-- A JSON value. A number is kept as it is written. -/
inductive Json where
  | null
  | bool (value : Bool)
  | number (text : List UInt8)
  | string (bytes : List UInt8)
  | array (items : List Json)
  | object (members : List (List UInt8 × Json))

namespace Json

open Decoder

/-! ### Strings -/

/-- The character of an escape of two characters. -/
def escapes : List (UInt8 × UInt8) :=
  [(0x22, 0x22), (0x5c, 0x5c), (0x2f, 0x2f), (0x62, 0x08), (0x66, 0x0c), (0x6e, 0x0a), (0x72, 0x0d), (0x74, 0x09)]

def hexValue (b : UInt8) : Option Nat :=
  if 0x30 ≤ b ∧ b ≤ 0x39 then some (b.toNat - 0x30)
  else if 0x61 ≤ b ∧ b ≤ 0x66 then some (b.toNat - 0x61 + 10)
  else if 0x41 ≤ b ∧ b ≤ 0x46 then some (b.toNat - 0x41 + 10)
  else none

/-- The code unit of four hexadecimal digits. -/
def hex4 (a b c d : UInt8) : Option Nat := do
  let a ← hexValue a
  let b ← hexValue b
  let c ← hexValue c
  let d ← hexValue d
  return ((a * 16 + b) * 16 + c) * 16 + d

def utf8 (n : Nat) : List UInt8 :=
  let continuation (n : Nat) : UInt8 := UInt8.ofNat (0x80 + n % 64)
  if n < 0x80 then [UInt8.ofNat n]
  else if n < 0x800 then [UInt8.ofNat (0xc0 + n / 64), continuation n]
  else if n < 0x10000 then [UInt8.ofNat (0xe0 + n / 4096), continuation (n / 64), continuation n]
  else [UInt8.ofNat (0xf0 + n / 262144), continuation (n / 4096), continuation (n / 64), continuation n]

/-- The bytes go in front of those that are read after them. -/
def after (bytes : List UInt8) : Option (List UInt8 × List UInt8) → Option (List UInt8 × List UInt8)
  | some (more, rest) => some (bytes ++ more, rest)
  | none => none

/-- What a string stands for, behind its opening quote and up to its closing one. -/
def readStringBody : List UInt8 → Option (List UInt8 × List UInt8)
  | [] => none
  | b :: rest =>
    if b = 0x22 then some ([], rest)
    else if b < 0x20 then none
    else if b ≠ 0x5c then after [b] (readStringBody rest)
    else
      match rest with
      | [] => none
      | e :: rest =>
        match escapes.lookup e with
        | some c => after [c] (readStringBody rest)
        | none =>
          if e ≠ 0x75 then none
          else
            match rest with
            | a :: b :: c :: d :: rest =>
              match hex4 a b c d with
              | none => none
              | some n =>
                if n < 0xd800 ∨ 0xe000 ≤ n then after (utf8 n) (readStringBody rest)
                else
                  match rest with
                  | s :: u :: a :: b :: c :: d :: rest =>
                    match hex4 a b c d with
                    | none => none
                    | some m =>
                      -- a high surrogate stands before a low one
                      if n < 0xdc00 ∧ s = 0x5c ∧ u = 0x75 ∧ 0xdc00 ≤ m ∧ m < 0xe000 then
                        after (utf8 (0x10000 + (n - 0xd800) * 0x400 + (m - 0xdc00))) (readStringBody rest)
                      else none
                  | _ => none
            | _ => none

/-- A string token. -/
def readString : Decoder UInt8 (List UInt8) := fun
  | [] => none
  | b :: rest => if b = 0x22 then readStringBody rest else none

/-! ### Numbers and literals -/

def isDigit (b : UInt8) : Bool := 0x30 ≤ b && b ≤ 0x39

/-- One digit or more. -/
def digits (text : List UInt8) : Option (List UInt8 × List UInt8) :=
  if text.takeWhile isDigit = [] then none else some (text.takeWhile isDigit, text.dropWhile isDigit)

/-- A part that is there if the text begins with one of its marks, and is read then. -/
def optional (marks : List UInt8) (read : List UInt8 → Option (List UInt8 × List UInt8)) (text : List UInt8) :
    Option (List UInt8 × List UInt8) :=
  match text with
  | [] => some ([], [])
  | b :: rest => if b ∈ marks then after [b] (read rest) else some ([], text)

/-- The integer part of a number, which has no leading zero. -/
def integer (text : List UInt8) : Option (List UInt8 × List UInt8) :=
  match text with
  | [] => none
  | b :: rest => if b = 0x30 then some ([b], rest) else digits text

def exponent (text : List UInt8) : Option (List UInt8 × List UInt8) :=
  match text with
  | [] => none
  | b :: rest => if b = 0x2b ∨ b = 0x2d then after [b] (digits rest) else digits text

def readNumber : Decoder UInt8 (List UInt8) := do
  let minus ← fun text => optional [0x2d] (fun rest => some ([], rest)) text
  let whole ← integer
  let fraction ← optional [0x2e] digits
  let scale ← optional [0x65, 0x45] exponent
  return minus ++ whole ++ fraction ++ scale

/-- The rest of a literal. -/
def literal (rest : List UInt8) (value : Json) : Decoder UInt8 Json := do
  expect (units rest.length) rest
  return value

/-! ### Values -/

def isSpace (b : UInt8) : Bool := b = 0x20 || b = 0x09 || b = 0x0a || b = 0x0d

def skipSpace (text : List UInt8) : List UInt8 := text.dropWhile isSpace

mutual

def readValue : Nat → List UInt8 → Option (Json × List UInt8)
  | 0, _ => none
  | fuel + 1, text =>
    match skipSpace text with
    | [] => none
    | b :: rest =>
      if b = 0x22 then (readStringBody rest).map fun (bytes, rest) => (.string bytes, rest)
      else if b = 0x7b then
        match skipSpace rest with
        | [] => none
        | c :: after => if c = 0x7d then some (.object [], after)
          else (readMembers fuel rest).map fun (members, rest) => (.object members, rest)
      else if b = 0x5b then
        match skipSpace rest with
        | [] => none
        | c :: after => if c = 0x5d then some (.array [], after)
          else (readItems fuel rest).map fun (items, rest) => (.array items, rest)
      else if b = 0x74 then literal [0x72, 0x75, 0x65] (.bool true) rest
      else if b = 0x66 then literal [0x61, 0x6c, 0x73, 0x65] (.bool false) rest
      else if b = 0x6e then literal [0x75, 0x6c, 0x6c] .null rest
      else (readNumber (b :: rest)).map fun (text, rest) => (.number text, rest)

/-- The members of an object, up to its closing brace. -/
def readMembers : Nat → List UInt8 → Option (List (List UInt8 × Json) × List UInt8)
  | 0, _ => none
  | fuel + 1, text =>
    match readString (skipSpace text) with
    | none => none
    | some (key, rest) =>
      match skipSpace rest with
      | [] => none
      | c :: rest =>
        if c ≠ 0x3a then none
        else
          match readValue fuel rest with
          | none => none
          | some (v, rest) =>
            match skipSpace rest with
            | [] => none
            | c :: rest =>
              if c = 0x7d then some ([(key, v)], rest)
              else if c = 0x2c then (readMembers fuel rest).map fun (more, rest) => ((key, v) :: more, rest)
              else none

/-- The items of an array, up to its closing bracket. -/
def readItems : Nat → List UInt8 → Option (List Json × List UInt8)
  | 0, _ => none
  | fuel + 1, text =>
    match readValue fuel text with
    | none => none
    | some (v, rest) =>
      match skipSpace rest with
      | [] => none
      | c :: rest =>
        if c = 0x5d then some ([v], rest)
        else if c = 0x2c then (readItems fuel rest).map fun (more, rest) => (v :: more, rest)
        else none

end

/-- A whole text, with fuel for a level at each of its bytes. -/
def parse (text : List UInt8) : Option Json :=
  match readValue (text.length + 1) text with
  | none => none
  | some (v, rest) => if skipSpace rest = [] then some v else none

/-! ### Writing -/

/-- The code stands for the byte inside a string. -/
def Spells (code : List UInt8) (c : UInt8) : Prop :=
  ∀ rest, readStringBody (code ++ rest) = after [c] (readStringBody rest)

theorem spells_self {b : UInt8} (hquote : b ≠ 0x22) (hcontrol : 0x20 ≤ b) (hescape : b ≠ 0x5c) : Spells [b] b := by
  intro rest
  rw [List.singleton_append, readStringBody.eq_def]
  dsimp only
  rw [if_neg hquote, if_neg (UInt8.not_lt.mpr hcontrol), if_pos hescape]

theorem spells_escape {e c : UInt8} (h : escapes.lookup e = some c) : Spells [0x5c, e] c := by
  intro rest
  rw [List.cons_append, List.singleton_append, readStringBody.eq_def]
  dsimp only
  rw [if_neg (by decide), if_neg (by decide), if_neg (by decide), h]

theorem spells_hex {a b c d : UInt8} {n : Nat} (h : hex4 a b c d = some n) (hn : n < 0x80) :
    Spells [0x5c, 0x75, a, b, c, d] (UInt8.ofNat n) := by
  intro rest
  have hutf8 : utf8 n = [UInt8.ofNat n] := if_pos hn
  simp only [List.cons_append, List.nil_append]
  rw [readStringBody, if_neg (by decide), if_neg (by decide), if_neg (by decide)]
  have hlookup : escapes.lookup 0x75 = none := by decide
  rw [hlookup]
  dsimp only
  rw [if_neg (by decide), h]
  dsimp only
  rw [if_pos (.inl (by omega)), hutf8]

/-- A string of bytes that are spelled one after the other. -/
theorem reads_spelled {spell : UInt8 → List UInt8} (h : ∀ c, Spells (spell c) c) (s : List UInt8) :
    Reads readStringBody (s.flatMap spell ++ [0x22]) s := by
  intro rest
  change readStringBody _ = _
  induction s with
  | nil =>
    rw [List.flatMap_nil, List.nil_append, List.singleton_append, readStringBody.eq_def]
    exact if_pos rfl
  | cons c s ih =>
    rw [List.flatMap_cons, List.append_assoc, List.append_assoc, h c, ← List.append_assoc, ih]
    rfl

theorem reads_string {body s : List UInt8} (h : Reads readStringBody body s) : Reads readString (0x22 :: body) s := h

/-- A value is read up to the comma or the brace behind it. -/
def ReadsValue (code : List UInt8) (v : Json) : Prop :=
  ∀ fuel c rest, c = 0x2c ∨ c = 0x7d → readValue (fuel + 1) (code ++ c :: rest) = some (v, c :: rest)

theorem readsValue_string {body s : List UInt8} (h : Reads readStringBody body s) :
    ReadsValue (0x22 :: body) (.string s) := by
  intro fuel c rest _
  have hbody : readStringBody (body ++ c :: rest) = some (s, c :: rest) := h (c :: rest)
  have hskip : skipSpace (0x22 :: body ++ c :: rest) = 0x22 :: (body ++ c :: rest) := rfl
  rw [readValue, hskip]
  dsimp only
  rw [if_pos rfl, hbody]
  rfl

theorem optional_absent {marks : List UInt8} {c : UInt8} (h : c ∉ marks)
    (read : List UInt8 → Option (List UInt8 × List UInt8)) (rest : List UInt8) :
    optional marks read (c :: rest) = some ([], c :: rest) := if_neg h

/-- A number of one digit, which is not zero. -/
theorem readsValue_digit {b : UInt8} (h : 0x31 ≤ b ∧ b ≤ 0x39) : ReadsValue [b] (.number [b]) := by
  intro fuel c rest hc
  have hne {x : UInt8} (hx : x < 0x31 ∨ 0x39 < x) : b ≠ x := by
    rintro rfl
    rcases hx with hx | hx
    · exact UInt8.not_lt.mpr h.1 hx
    · exact UInt8.not_lt.mpr h.2 hx
  have hnot {marks : List UInt8} (hcomma : (0x2c : UInt8) ∉ marks) (hbrace : (0x7d : UInt8) ∉ marks) : c ∉ marks := by
    rcases hc with rfl | rfl
    · exact hcomma
    · exact hbrace
  have hspace : isSpace b = false := by
    simp [isSpace, hne (x := 0x20) (.inl (by decide)), hne (x := 0x09) (.inl (by decide)),
      hne (x := 0x0a) (.inl (by decide)), hne (x := 0x0d) (.inl (by decide))]
  have hskip : skipSpace ([b] ++ c :: rest) = b :: c :: rest := by
    rw [skipSpace, List.singleton_append, List.dropWhile_cons_of_neg]
    rw [hspace]
    exact Bool.false_ne_true
  have hdigits : digits (b :: c :: rest) = some ([b], c :: rest) := by
    have hb : isDigit b = true := by
      simp only [isDigit, Bool.and_eq_true, decide_eq_true_eq]
      exact ⟨UInt8.le_trans (by decide) h.1, h.2⟩
    have hstop : isDigit c = false := by rcases hc with rfl | rfl <;> decide
    simp [digits, hb, hstop]
  have hnumber : readNumber (b :: c :: rest) = some ([b], c :: rest) := by
    have hminus : b ∉ ([0x2d] : List UInt8) := fun hmem => hne (.inl (by decide)) (List.mem_singleton.mp hmem)
    have hinteger : integer (b :: c :: rest) = some ([b], c :: rest) := (if_neg (hne (.inl (by decide)))).trans hdigits
    have hpoint : c ∉ ([0x2e] : List UInt8) := hnot (by decide) (by decide)
    have hmark : c ∉ ([0x65, 0x45] : List UInt8) := hnot (by decide) (by decide)
    simp only [readNumber, bind, StateT.bind, Option.bind, optional_absent hminus, hinteger, optional_absent hpoint,
      optional_absent hmark]
    rfl
  rw [readValue, hskip]
  dsimp only
  rw [if_neg (hne (.inl (by decide))), if_neg (hne (.inr (by decide))), if_neg (hne (.inr (by decide))),
    if_neg (hne (.inr (by decide))), if_neg (hne (.inr (by decide))), if_neg (hne (.inr (by decide))), hnumber]
  rfl

/-- A member of an object as it is written, with the rest of its key's token. -/
structure Field where
  key : List UInt8
  value : Json
  keyCode : List UInt8
  valueCode : List UInt8

namespace Field

def code (f : Field) : List UInt8 := 0x22 :: (f.keyCode ++ 0x3a :: f.valueCode)

structure Reads (f : Field) : Prop where
  key : Decoder.Reads readStringBody f.keyCode f.key
  value : ReadsValue f.valueCode f.value

end Field

/-- The other members, each behind a comma. -/
def moreCode (fields : List Field) : List UInt8 := fields.flatMap fun f => 0x2c :: f.code

def objectCode (first : Field) (fields : List Field) : List UInt8 :=
  0x7b :: (first.code ++ moreCode fields ++ [0x7d])

/-- A member is read, and the others if a comma follows. -/
theorem readMembers_field {f : Field} (h : f.Reads) (fuel : Nat) {c : UInt8} (hc : c = 0x2c ∨ c = 0x7d)
    (rest : List UInt8) : readMembers (fuel + 2) (f.code ++ c :: rest) =
      if c = 0x7d then some ([(f.key, f.value)], rest)
      else (readMembers (fuel + 1) rest).map fun (more, rest) => ((f.key, f.value) :: more, rest) := by
  have hcode : f.code ++ c :: rest = 0x22 :: (f.keyCode ++ 0x3a :: (f.valueCode ++ c :: rest)) := by
    simp only [Field.code, List.cons_append, List.append_assoc]
  have hkey : readString (skipSpace (f.code ++ c :: rest)) = some (f.key, 0x3a :: (f.valueCode ++ c :: rest)) := by
    rw [hcode]
    exact h.key (0x3a :: (f.valueCode ++ c :: rest))
  have hcolon : skipSpace (0x3a :: (f.valueCode ++ c :: rest)) = 0x3a :: (f.valueCode ++ c :: rest) := rfl
  have hend : skipSpace (c :: rest) = c :: rest := by rcases hc with rfl | rfl <;> rfl
  rw [readMembers, hkey]
  dsimp only
  rw [hcolon]
  dsimp only
  rw [if_neg (not_not.mpr rfl), h.value fuel c rest hc]
  dsimp only
  rw [hend]
  dsimp only
  rcases hc with rfl | rfl <;> rfl

theorem readMembers_fields {first : Field} {fields : List Field} (h : ∀ f ∈ first :: fields, f.Reads) {fuel : Nat}
    (hfuel : fields.length + 2 ≤ fuel) (rest : List UInt8) :
    readMembers fuel (first.code ++ moreCode fields ++ 0x7d :: rest) =
      some ((first :: fields).map fun f => (f.key, f.value), rest) := by
  obtain ⟨fuel, rfl⟩ : ∃ n, fuel = n + 2 := ⟨fuel - 2, by omega⟩
  have hfirst := h first (List.mem_cons_self ..)
  induction fields generalizing first fuel with
  | nil =>
    rw [moreCode, List.flatMap_nil, List.append_nil, readMembers_field hfirst fuel (.inr rfl), if_pos rfl]
    rfl
  | cons second fields ih =>
    have hmore : first.code ++ moreCode (second :: fields) ++ 0x7d :: rest =
        first.code ++ 0x2c :: (second.code ++ moreCode fields ++ 0x7d :: rest) := by
      simp only [moreCode, List.flatMap_cons, List.cons_append, List.append_assoc]
    rw [List.length_cons] at hfuel
    obtain ⟨fuel, rfl⟩ : ∃ n, fuel = n + 1 := ⟨fuel - 1, by omega⟩
    rw [hmore, readMembers_field hfirst (fuel + 1) (.inl rfl), if_neg (by decide),
      ih (fun f hf => h f (List.mem_cons_of_mem _ hf)) fuel (by omega) (h second (by simp))]
    rfl

theorem length_le_moreCode (fields : List Field) : fields.length ≤ (moreCode fields).length := by
  induction fields with
  | nil => exact Nat.le_refl 0
  | cons f fields ih =>
    rw [moreCode, List.flatMap_cons, List.length_append, List.length_cons, List.length_cons]
    have : (moreCode fields).length = (fields.flatMap fun f => 0x2c :: f.code).length := rfl
    omega

/-- An object that is written without spaces is read back, with all its members in order. -/
theorem parse_object {first : Field} {fields : List Field} (h : ∀ f ∈ first :: fields, f.Reads) :
    parse (objectCode first fields) = some (.object ((first :: fields).map fun f => (f.key, f.value))) := by
  have hstart : skipSpace (objectCode first fields) = 0x7b :: (first.code ++ moreCode fields ++ [0x7d]) := rfl
  have hquote : skipSpace (first.code ++ moreCode fields ++ [0x7d]) = 0x22 :: (first.keyCode ++ 0x3a :: first.valueCode ++
      moreCode fields ++ [0x7d]) := rfl
  have hfuel : fields.length + 2 ≤ (objectCode first fields).length := by
    have := length_le_moreCode fields
    simp only [objectCode, List.length_cons, List.length_append]
    omega
  rw [parse, readValue, hstart]
  dsimp only
  rw [if_neg (by decide), if_pos rfl, hquote]
  dsimp only
  rw [if_neg (by decide), readMembers_fields h hfuel []]
  rfl

/-- No control byte stands in the code. -/
def Printable (code : List UInt8) : Prop := ∀ b ∈ code, 0x20 ≤ b

instance : DecidablePred Printable := fun code => List.decidableBAll (0x20 ≤ ·) code

theorem Printable.append {code code' : List UInt8} (h : Printable code) (h' : Printable code') : Printable (code ++ code') :=
  List.forall_mem_append.mpr ⟨h, h'⟩

theorem Printable.cons {b : UInt8} (hb : 0x20 ≤ b) {code : List UInt8} (h : Printable code) : Printable (b :: code) :=
  List.forall_mem_cons.mpr ⟨hb, h⟩

theorem printable_objectCode {first : Field} {fields : List Field}
    (h : ∀ f ∈ first :: fields, Printable f.keyCode ∧ Printable f.valueCode) : Printable (objectCode first fields) := by
  have hcode (f : Field) (hf : f ∈ first :: fields) : Printable f.code :=
    .cons (by decide) ((h f hf).1.append (.cons (by decide) (h f hf).2))
  have hmore : Printable (moreCode fields) := by
    intro b hb
    obtain ⟨f, hf, hb⟩ := List.mem_flatMap.mp hb
    exact Printable.cons (by decide) (hcode f (List.mem_cons_of_mem first hf)) b hb
  exact .cons (by decide) (((hcode first (List.mem_cons_self ..)).append hmore).append (.cons (by decide) nofun))

end Json
