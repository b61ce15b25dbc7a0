import OnekvmVnc.Theorems.AdminHID.Reading

/-! The head of a response. `ParseResponse` finds the end of the head as soon as it is there, and takes the status and
    the length of the body from it, whatever has been read behind it. -/

namespace OnekvmVnc

/-- A header line without its end. -/
structure Header where
  name : List UInt8
  value : List UInt8
  name_line : 13 ∉ name
  name_colon : 58 ∉ name
  value_line : 13 ∉ value

namespace Header

def line (h : Header) : List UInt8 := h.name ++ 58 :: h.value

theorem line_ne_nil (h : Header) : h.line ≠ [] := by simp [line]

theorem line_line (h : Header) : 13 ∉ h.line := by
  simp only [line, List.mem_append, List.mem_cons, not_or]
  exact ⟨h.name_line, by decide, h.value_line⟩

def IsContentLength (h : Header) : Prop := lower h.name = bytesOf "content-length"

/-- The value is a number after blanks, and nothing follows it. -/
def Gives (h : Header) (n : Nat) : Prop :=
  ∃ blanks digits, h.value = blanks ++ digits ∧ (∀ b ∈ blanks, b = 32 ∨ b = 9) ∧ digits ≠ [] ∧
    digits.all isDigit = true ∧ decimal digits = n

end Header

/-- Lines with their ends. -/
def lined (lines : List (List UInt8)) : List UInt8 := lines.flatMap (· ++ crlf)

/-- The parts of a response: the status line is `HTTP/`, the version, a blank, the status and the reason. -/
structure ResponseText where
  version : List UInt8
  status : List UInt8
  reason : List UInt8
  headers : List Header
  body : List UInt8

namespace ResponseText
variable (r : ResponseText)

def statusLine : List UInt8 := bytesOf "HTTP/" ++ (r.version ++ (32 :: (r.status ++ r.reason)))

/-- The status line and the header lines. -/
def lines : List (List UInt8) := r.statusLine :: r.headers.map Header.line

/-- Everything up to and with the blank line. -/
def head : List UInt8 := lined r.lines ++ crlf

def bytes : List UInt8 := r.head ++ r.body

end ResponseText

/-- A response of the server: one length, no transfer encoding, and a head that is not too long. -/
structure Response extends ResponseText where
  version_line : 13 ∉ version
  version_blank : 32 ∉ version
  status_length : status.length = 3
  status_digits : status.all isDigit = true
  reason_line : 13 ∉ reason
  length : ∃ h ∈ headers, h.IsContentLength
  lengths : ∀ h ∈ headers, h.IsContentLength → h.Gives body.length
  encoding : ∀ h ∈ headers, lower h.name ≠ bytesOf "transfer-encoding"
  head_length : toResponseText.head.length ≤ maxResponseHeader
  body_length : body.length ≤ maxResponseBody

/-! ### The blank line -/

variable {line : List UInt8} {lines : List (List UInt8)}

@[simp] theorem lined_nil : lined [] = [] := rfl

@[simp] theorem lined_cons (line : List UInt8) : lined (line :: lines) = line ++ (crlf ++ lined lines) := by
  simp [lined]

@[simp] theorem length_crlf : crlf.length = 2 := rfl

/-- The blank line is behind the last line, and nowhere before. -/
theorem find_blankLine (before tail line : List UInt8) (cr : ∀ l ∈ line :: lines, 13 ∉ l) (nonempty : ∀ l ∈ lines, l ≠ []) :
    Search.find blankLine (before ++ (lined (line :: lines) ++ (crlf ++ tail))) before.length =
      some (before.length + (lined (line :: lines)).length - 2) := by
  induction lines generalizing before line with
  | nil =>
    have hfound : Search.find blankLine (before ++ (line ++ (blankLine ++ tail))) before.length =
        some (before.length + line.length) :=
      Search.find_line [10, 13, 10] before tail (cr line List.mem_cons_self)
    have htext : before ++ (lined [line] ++ (crlf ++ tail)) = before ++ (line ++ (blankLine ++ tail)) := by
      simp [crlf, blankLine]
    have hlength : (lined [line]).length = line.length + 2 := by
      rw [lined_cons, lined_nil, List.append_nil, List.length_append, length_crlf]
    rw [htext, hfound, hlength, Option.some.injEq]
    omega
  | cons next lines ih =>
    have hline : 13 ∉ line := cr line List.mem_cons_self
    have hnext := ih (before ++ (line ++ crlf)) next
      (fun l hl => cr l (List.mem_cons_of_mem line hl)) (fun l hl => nonempty l (List.mem_cons_of_mem next hl))
    have hskip : Search.find blankLine (before ++ (line ++ (crlf ++ (lined (next :: lines) ++ (crlf ++ tail)))))
        before.length = Search.find blankLine
          (before ++ (line ++ (crlf ++ (lined (next :: lines) ++ (crlf ++ tail))))) (before.length + (line.length + 2)) :=
      Search.find_skip (by decide) fun j hj hjn => by
        by_cases hin : j < before.length + line.length
        · exact Search.not_at_line hline hj hin
        · -- At the end of the line, the next one begins with neither half of a line end.
          obtain ⟨b, rest, rfl⟩ : ∃ b rest, next = b :: rest := List.exists_cons_of_ne_nil (nonempty next List.mem_cons_self)
          have hb : b ≠ 13 := fun hb => cr (b :: rest) (by simp) (by simp [hb])
          unfold Search.At
          obtain rfl | rfl : j = (before ++ line).length ∨ j = (before ++ (line ++ [13])).length := by
            simp only [List.length_append, List.length_singleton]
            omega
          · rw [← List.append_assoc, List.drop_left]
            simp [blankLine, crlf, Ne.symm hb]
          · have htext : before ++ (line ++ (crlf ++ (lined ((b :: rest) :: lines) ++ (crlf ++ tail)))) =
                (before ++ (line ++ [13])) ++ (10 :: (lined ((b :: rest) :: lines) ++ (crlf ++ tail))) := by
              simp [crlf]
            rw [htext, List.drop_left]
            simp [blankLine]
    have hbefore : (before ++ (line ++ crlf)).length = before.length + (line.length + 2) := by
      rw [List.length_append, List.length_append, length_crlf]
    have hlength : (lined (line :: next :: lines)).length = line.length + (2 + (lined (next :: lines)).length) := by
      rw [lined_cons line, List.length_append, List.length_append, length_crlf]
    rw [hbefore, List.append_assoc, List.append_assoc] at hnext
    rw [hlength, lined_cons line, List.append_assoc, List.append_assoc, hskip, hnext, Option.some.injEq]
    omega

/-! ### The header lines -/

theorem isDigit_ne {b : UInt8} (h : isDigit b = true) : b ≠ 45 ∧ ¬(b = 32 ∨ b = 9) := by
  constructor
  · rintro rfl
    cases h
  · rintro (rfl | rfl) <;> cases h

/-- The length is what is left of the value without its blanks. -/
theorem Header.Gives.fromCharsSize {h : Header} {n : Nat} (hgives : h.Gives n) (small : n < 2 ^ 64) :
    OnekvmVnc.fromCharsSize (h.value.dropWhile fun b => b = 32 ∨ b = 9) = some n := by
  obtain ⟨blanks, digits, hvalue, hblanks, hnonempty, hdigits, hdecimal⟩ := hgives
  have hdrop : h.value.dropWhile (fun b => b = 32 ∨ b = 9) = digits := by
    obtain ⟨b, rest, rfl⟩ := List.exists_cons_of_ne_nil hnonempty
    have hb : ¬(b = 32 ∨ b = 9) := (isDigit_ne (List.all_eq_true.mp hdigits b List.mem_cons_self)).2
    rw [hvalue, List.dropWhile_append_of_pos (by simpa using hblanks), List.dropWhile_cons_of_neg (by simpa using hb)]
  rw [hdrop, OnekvmVnc.fromCharsSize, if_pos ⟨hnonempty, hdigits, hdecimal ▸ small⟩, hdecimal]

/-- A header line is accepted, and if it gives the length, sets it. -/
theorem Header.parsed {h : Header} {n : Nat} (hlength : h.IsContentLength → h.Gives n)
    (hencoding : lower h.name ≠ bytesOf "transfer-encoding") (hn : n ≤ maxResponseBody) (fields : HeaderFields) :
    ∃ fields', fields.line h.name h.value = .ok fields' ∧
      (h.IsContentLength ∨ fields.contentLength = some n → fields'.contentLength = some n) := by
  unfold HeaderFields.line
  dsimp only
  by_cases hname : lower h.name = bytesOf "content-length"
  · have hsmall : n < 2 ^ 64 := lt_of_le_of_lt hn (by decide)
    rw [if_pos hname, (hlength hname).fromCharsSize hsmall]
    dsimp only
    rw [if_neg (by omega)]
    exact ⟨_, rfl, fun _ => rfl⟩
  · rw [if_neg hname]
    by_cases hclose : lower h.name = bytesOf "connection" ∧
        lower (h.value.dropWhile fun b => b = 32 ∨ b = 9) = bytesOf "close"
    · rw [if_pos hclose]
      exact ⟨_, rfl, fun hset => hset.resolve_left hname⟩
    · rw [if_neg hclose, if_neg fun h => hencoding h.1]
      exact ⟨_, rfl, fun hset => hset.resolve_left hname⟩

theorem substr_append (before text rest : List UInt8) {pos count : Nat} (hpos : pos = before.length)
    (hcount : count = text.length) : substr (before ++ (text ++ rest)) pos count = text := by
  rw [substr, hpos, List.drop_left, hcount, List.take_left]

/-- The next header line goes up to its end, with the name before the first colon. -/
theorem parseHeaders_line {h : Header} {before rest : List UInt8} {headerEnd : Nat} (hstart : before.length < headerEnd)
    (hend : before.length + h.line.length ≤ headerEnd) (fields : HeaderFields) :
    parseHeaders (before ++ (h.line ++ (crlf ++ rest))) headerEnd before.length fields =
      match fields.line h.name h.value with
      | .error error => .error error
      | .ok fields =>
        parseHeaders (before ++ (h.line ++ (crlf ++ rest))) headerEnd (before.length + h.line.length + 2) fields := by
  have hlineEnd : Search.find crlf (before ++ (h.line ++ (crlf ++ rest))) before.length =
      some (before.length + h.line.length) := Search.find_line [10] before rest h.line_line
  have hcolon : Search.find [58] (before ++ (h.line ++ (crlf ++ rest))) before.length =
      some (before.length + h.name.length) := by
    have hfound : Search.find [58] (before ++ (h.name ++ ([58] ++ (h.value ++ (crlf ++ rest))))) before.length =
        some (before.length + h.name.length) :=
          Search.find_line [] before (h.value ++ (crlf ++ rest)) h.name_colon
    simpa [Header.line] using hfound
  have hlength : h.line.length = h.name.length + (h.value.length + 1) := by simp [Header.line]
  have hname : substr (before ++ (h.line ++ (crlf ++ rest))) before.length h.name.length = h.name := by
    simpa [Header.line] using substr_append before h.name (58 :: (h.value ++ (crlf ++ rest))) rfl rfl
  have hvalue : substr (before ++ (h.line ++ (crlf ++ rest))) (before.length + h.name.length + 1) h.value.length =
      h.value := by
    have hpos : before.length + h.name.length + 1 = (before ++ (h.name ++ [58])).length := by simp [Nat.add_assoc]
    have hsub := substr_append (before ++ (h.name ++ [58])) h.value (crlf ++ rest) hpos rfl
    simpa [Header.line] using hsub
  rw [parseHeaders, if_pos hstart]
  split
  · rename_i hnone
    rw [hlineEnd] at hnone
    cases hnone
  · rename_i lineEnd hsome
    rw [hlineEnd, Option.some.injEq] at hsome
    subst hsome
    have hnameCount : before.length + h.name.length - before.length = h.name.length := by omega
    have hvalueCount : before.length + h.line.length - (before.length + h.name.length) - 1 = h.value.length := by omega
    rw [if_neg (by omega), hcolon]
    dsimp only
    rewrite [if_pos (by omega), hnameCount, hvalueCount, hname, hvalue]
    cases fields.line h.name h.value with
    | error error => rfl
    | ok fields => rfl

/-- The loop over the header lines takes them one by one, and ends before the blank line. -/
theorem parseHeaders_lines (before tail : List UInt8) {headers : List Header} {n : Nat} (hn : n ≤ maxResponseBody)
    (lengths : ∀ h ∈ headers, h.IsContentLength → h.Gives n)
    (encoding : ∀ h ∈ headers, lower h.name ≠ bytesOf "transfer-encoding") (hbefore : 2 ≤ before.length)
    (headerEnd : Nat) (hend : headerEnd = before.length + (lined (headers.map Header.line)).length - 2)
    (fields : HeaderFields) : ∃ fields',
      parseHeaders (before ++ (lined (headers.map Header.line) ++ (crlf ++ tail))) headerEnd before.length fields =
        .ok fields' ∧
      ((∃ h ∈ headers, h.IsContentLength) ∨ fields.contentLength = some n → fields'.contentLength = some n) := by
  induction headers generalizing before fields with
  | nil =>
    rw [List.map_nil, lined_nil, List.length_nil] at hend
    rw [parseHeaders, if_neg (by omega)]
    exact ⟨fields, rfl, fun hset => hset.resolve_left fun ⟨h, hh, _⟩ => List.not_mem_nil hh⟩
  | cons h headers ih =>
    obtain ⟨fields', hparsed, hset⟩ :=
      h.parsed (lengths h List.mem_cons_self) (encoding h List.mem_cons_self) hn fields
    have hline : 0 < h.line.length := List.length_pos_of_ne_nil h.line_ne_nil
    rw [List.map_cons, lined_cons, List.length_append, List.length_append, length_crlf] at hend
    obtain ⟨fields'', hrest, hset'⟩ := ih (before ++ (h.line ++ crlf))
      (fun h hh => lengths h (List.mem_cons_of_mem _ hh)) (fun h hh => encoding h (List.mem_cons_of_mem _ hh))
      (by rw [List.length_append]; omega)
      (by rw [List.length_append, List.length_append, length_crlf]; omega) fields'
    refine ⟨fields'', ?_, fun hone => hset' ?_⟩
    · have hnext : (before ++ (h.line ++ crlf)).length = before.length + h.line.length + 2 := by
        rw [List.length_append, List.length_append, length_crlf, Nat.add_assoc]
      rw [hnext, List.append_assoc, List.append_assoc] at hrest
      rw [List.map_cons, lined_cons, List.append_assoc, List.append_assoc,
        parseHeaders_line (by omega) (by omega), hparsed]
      exact hrest
    · rcases hone with ⟨h', hh', hlength⟩ | hfields
      · rcases List.mem_cons.mp hh' with rfl | hh'
        · exact .inr (hset (.inl hlength))
        · exact .inl ⟨h', hh', hlength⟩
      · exact .inr (hset (.inr hfields))

/-! ### The status line -/

namespace Response
variable (r : Response)

/-- The status as a number. -/
def statusCode : Nat := decimal r.status

theorem statusLine_line : 13 ∉ r.statusLine := by
  have hstatus : 13 ∉ r.status := fun h => by cases List.all_eq_true.mp r.status_digits 13 h
  have hversion : 13 ∉ bytesOf "HTTP/" := by decide
  simp only [ResponseText.statusLine, List.mem_append, List.mem_cons, not_or]
  exact ⟨hversion, r.version_line, by decide, hstatus, r.reason_line⟩

/-- The position of the blank line. -/
def headerEnd : Nat := (lined r.lines).length - 2

theorem length_head : r.head.length = r.headerEnd + 4 := by
  have hlines : 2 ≤ (lined r.lines).length := by
    rw [ResponseText.lines, lined_cons, List.length_append, List.length_append, length_crlf]
    omega
  rw [ResponseText.head, List.length_append, length_crlf, headerEnd]
  omega

theorem find_headerEnd (tail : List UInt8) : Search.find blankLine (r.head ++ tail) 0 = some r.headerEnd := by
  have hcr : ∀ l ∈ r.statusLine :: r.headers.map Header.line, 13 ∉ l := by
    intro l hl
    rcases List.mem_cons.mp hl with rfl | hl
    · exact r.statusLine_line
    · obtain ⟨h, -, rfl⟩ := List.mem_map.mp hl
      exact h.line_line
  have hnonempty : ∀ l ∈ r.headers.map Header.line, l ≠ [] := by
    intro l hl
    obtain ⟨h, -, rfl⟩ := List.mem_map.mp hl
    exact h.line_ne_nil
  have hfound := find_blankLine [] tail r.statusLine hcr hnonempty
  rw [List.nil_append, List.length_nil, Nat.zero_add] at hfound
  rw [ResponseText.head, List.append_assoc]
  exact hfound

theorem fromCharsInt_status : fromCharsInt r.status = some (r.statusCode : Int) := by
  obtain ⟨b, rest, hstatus⟩ : ∃ b rest, r.status = b :: rest := by
    refine List.exists_cons_of_ne_nil fun hnil => ?_
    have hlength := r.status_length
    rw [hnil] at hlength
    cases hlength
  have hdigits := r.status_digits
  have hb : b ≠ 45 := by
    rw [hstatus] at hdigits
    exact (isDigit_ne (List.all_eq_true.mp hdigits b List.mem_cons_self)).1
  rw [statusCode]
  rw [hstatus] at hdigits ⊢
  unfold fromCharsInt
  split
  · rename_i heq
    cases heq
    exact absurd rfl hb
  · rw [if_pos ⟨List.cons_ne_nil b rest, hdigits⟩]

/-- The head gives the status and the length of the body, whatever follows it. -/
theorem parseHead_head (tail : List UInt8) : ∃ fields, parseHead (r.head ++ tail) r.headerEnd = .ok (r.statusCode, fields) ∧
    fields.contentLength = some r.body.length := by
  obtain ⟨fields, hfields, hlength⟩ := parseHeaders_lines (r.statusLine ++ crlf) tail r.body_length
    r.lengths r.encoding (by rw [List.length_append, length_crlf]; omega) r.headerEnd (by
      rw [headerEnd, ResponseText.lines, lined_cons, List.length_append, List.length_append, List.length_append]
      omega) {}
  refine ⟨fields, ?_, hlength (.inl r.length)⟩
  have htext : r.head ++ tail =
      r.statusLine ++ (crlf ++ (lined (r.headers.map Header.line) ++ (crlf ++ tail))) := by
    simp [ResponseText.head, ResponseText.lines]
  have hfirstLine : Search.find crlf (r.head ++ tail) 0 = some r.statusLine.length := by
    have hfound := Search.find_line [10] [] (lined (r.headers.map Header.line) ++ (crlf ++ tail)) r.statusLine_line
    rw [htext]
    simpa [crlf] using hfound
  have hfive : (bytesOf "HTTP/").length = 5 := by decide
  have hstart : (r.head ++ tail).take 5 = bytesOf "HTTP/" := by
    rw [htext, ResponseText.statusLine, List.append_assoc, ← hfive, List.take_left]
  have hspace : Search.find [32] (r.head ++ tail) 5 = some (5 + r.version.length) := by
    have hfound := Search.find_line [] (bytesOf "HTTP/")
      (r.status ++ (r.reason ++ (crlf ++ (lined (r.headers.map Header.line) ++ (crlf ++ tail))))) r.version_blank
    rw [hfive] at hfound
    rw [htext]
    simpa [ResponseText.statusLine] using hfound
  have hstatus : substr (r.head ++ tail) (5 + r.version.length + 1) 3 = r.status := by
    have hpos : 5 + r.version.length + 1 = (bytesOf "HTTP/" ++ (r.version ++ [32])).length := by
      simp [hfive, Nat.add_assoc]
    have hsub := substr_append (bytesOf "HTTP/" ++ (r.version ++ [32])) r.status
      (r.reason ++ (crlf ++ (lined (r.headers.map Header.line) ++ (crlf ++ tail)))) hpos r.status_length.symm
    rw [htext]
    simpa [ResponseText.statusLine] using hsub
  have hlength : 5 + r.version.length + 4 ≤ r.statusLine.length := by
    have hthree := r.status_length
    simp only [ResponseText.statusLine, List.length_append, List.length_cons, hfive]
    omega
  have hbefore : (r.statusLine ++ crlf).length = r.statusLine.length + 2 := by rw [List.length_append, length_crlf]
  rw [hbefore, List.append_assoc, ← htext] at hfields
  rw [parseHead, hfirstLine]
  dsimp only
  rw [if_neg (not_not.mpr hstart), hspace]
  dsimp only
  rw [if_neg (by omega), hstatus, r.fromCharsInt_status]
  dsimp only
  rw [hfields]
  rfl

/-! ### The whole response -/

/-- What has been read of a response has its blank line once all of the head is there. -/
theorem find_take (m : Nat) :
    Search.find blankLine (r.bytes.take m) 0 = if r.head.length ≤ m then some r.headerEnd else none := by
  rw [ResponseText.bytes, Search.find_take (by decide) (r.find_headerEnd r.body), r.length_head]
  rfl

/-- A response that comes in any pieces is read to its end, and no further. -/
theorem parseResponse_done {arrivals : List Arrival} (h : Carries arrivals r.bytes) : ∃ closeConnection rest,
    parseResponse arrivals =
      .done ({ response := r.bytes, status := r.statusCode, closeConnection }, rest) ∧ Carries rest [] := by
  have hbytes : r.bytes.length = r.headerEnd + 4 + r.body.length := by
    rw [ResponseText.bytes, List.length_append, r.length_head]
  have hfits : r.head.length ≤ r.bytes.length := by
    rw [hbytes, r.length_head]
    omega
  obtain ⟨m, rest, hm, hmle, hhead, hrest⟩ := Carries.readUntil (k := 0) (Search.find blankLine · 0) r.headerEnd r.bytes
    hfits r.head_length (fun m _ hlt => by rw [r.find_take, if_neg (Nat.not_le.mpr hlt)])
    (fun m hle => by rw [r.find_take, if_pos hle]) (Nat.zero_le _) h
  have htake : r.bytes.take m = r.head ++ r.body.take (m - r.head.length) := by
    rw [ResponseText.bytes, List.take_append, List.take_of_length_le hm]
  obtain ⟨fields, hparsed, hlength⟩ := r.parseHead_head (r.body.take (m - r.head.length))
  have hbody {j : Nat} (hj : m ≤ j) :
      (r.bytes.take j).length - (r.headerEnd + 4) < r.body.length ↔ j < r.bytes.length := by
    have hheadLength := r.length_head
    rw [List.length_take]
    omega
  obtain ⟨j, rest', hj, hjle, hread, hrest'⟩ := Carries.readUntil (k := m)
    (fun response => if response.length - (r.headerEnd + 4) < r.body.length then none else some ()) () r.bytes
    (le_refl _) hbytes.le (fun j hj hlt => if_pos ((hbody hj).mpr hlt))
    (fun j hle => if_neg fun hlt => absurd ((hbody (by omega)).mp hlt) (by omega)) hmle hrest
  have hall : r.bytes.take j = r.bytes := List.take_of_length_le hj
  have hnone : r.bytes.drop j = [] := List.drop_of_length_le hj
  rw [hall] at hread
  rw [hnone] at hrest'
  refine ⟨fields.closeConnection, rest', ?_, hrest'⟩
  rw [List.take_zero] at hhead
  rw [parseResponse, hhead]
  dsimp only
  rw [htake, hparsed]
  dsimp only
  rw [hlength]
  dsimp only
  rw [← htake, hread]

end Response

end OnekvmVnc
