import OnekvmVnc.AdminHID

/-! The loops of `ReadMore`. A loop reads a text that comes in pieces up to what it looks for, and never waits for more
    than its limit. -/

namespace OnekvmVnc

/-- The bytes come, cut anyhow, and with interrupted calls in between. -/
inductive Carries : List Arrival → List UInt8 → Prop where
  | nil : Carries [] []
  | interrupted {arrivals : List Arrival} {text : List UInt8} (h : Carries arrivals text) :
    Carries (.interrupted :: arrivals) text
  | bytes {chunk : List UInt8} {arrivals : List Arrival} {text : List UInt8} (nonempty : chunk ≠ [])
    (h : Carries arrivals text) : Carries (.bytes chunk :: arrivals) (chunk ++ text)

variable {arrivals arrivals' rest : List Arrival} {text text' data data' : List UInt8} {limit wanted : Nat}
variable {α : Type} {stop : List UInt8 → Option α} {found : α}

namespace Carries

theorem append (h : Carries arrivals text) (h' : Carries arrivals' text') :
    Carries (arrivals ++ arrivals') (text ++ text') := by
  induction h with
  | nil => exact h'
  | interrupted _ ih => exact .interrupted ih
  | bytes nonempty _ ih =>
    rw [List.append_assoc]
    exact .bytes nonempty ih

theorem receive (h : Carries arrivals text) (nonempty : text ≠ []) {wanted : Nat} (pos : 0 < wanted) :
    ∃ n rest, 0 < n ∧ n ≤ wanted ∧ n ≤ text.length ∧
      OnekvmVnc.receive wanted arrivals = .done (text.take n, rest) ∧ Carries rest (text.drop n) := by
  induction h with
  | nil => exact absurd rfl nonempty
  | interrupted _ ih => exact ih nonempty
  | @bytes chunk arrivals text hchunk h _ =>
    have hlength := List.length_pos_of_ne_nil hchunk
    rw [OnekvmVnc.receive, if_neg hchunk, List.length_append]
    by_cases hall : chunk.length ≤ wanted
    · refine ⟨chunk.length, arrivals, hlength, hall, by omega, ?_, ?_⟩
      · rw [if_pos hall, List.take_left, List.take_of_length_le hall]
      · rw [List.drop_left]
        exact h
    · have hle : wanted ≤ chunk.length := by omega
      refine ⟨wanted, .bytes (chunk.drop wanted) :: arrivals, pos, le_refl _, by omega, ?_, ?_⟩
      · rw [if_neg hall, List.take_append_of_le_length hle]
      · rw [List.drop_append_of_le_length hle]
        exact .bytes (by simpa using hall) h

theorem readMore (h : Carries arrivals text) (nonempty : text ≠ []) (data : List UInt8) (room : data.length < limit) :
    ∃ n rest, 0 < n ∧ n ≤ text.length ∧ OnekvmVnc.readMore data limit arrivals = .done (data ++ text.take n, rest) ∧
      Carries rest (text.drop n) := by
  have hwanted : 0 < min 4096 (limit - data.length) := by omega
  obtain ⟨n, rest, hpos, -, hn, hreceived, hrest⟩ := h.receive nonempty hwanted
  refine ⟨n, rest, hpos, hn, ?_, hrest⟩
  rw [OnekvmVnc.readMore, if_neg (by omega), hreceived]

/-- A loop that has read `k` bytes of the text goes on until it has read the `n` that it needs, and maybe more. -/
theorem readUntil (stop : List UInt8 → Option α) (found : α) (text : List UInt8) {n k : Nat}
    (hn : n ≤ text.length) (hlimit : n ≤ limit) (before : ∀ m, k ≤ m → m < n → stop (text.take m) = none)
    (after : ∀ m, n ≤ m → stop (text.take m) = some found)
    (hk : k ≤ text.length) (h : Carries arrivals (text.drop k)) :
    ∃ m rest, n ≤ m ∧ m ≤ text.length ∧
      OnekvmVnc.readUntil stop limit (text.take k) arrivals = .done (text.take m, found, rest) ∧
      Carries rest (text.drop m) := by
  induction hfuel : text.length - k using Nat.strong_induction_on generalizing k arrivals with
  | _ fuel ih =>
    rw [OnekvmVnc.readUntil]
    by_cases hnk : n ≤ k
    · rw [after k hnk]
      exact ⟨k, arrivals, hnk, hk, rfl, h⟩
    · have hlength : (text.take k).length = k := List.length_take_of_le hk
      have hroom : (text.take k).length < limit := by omega
      have hnonempty : text.drop k ≠ [] := by
        rw [ne_eq, List.drop_eq_nil_iff]
        omega
      obtain ⟨j, rest, hpos, hj, hread, hrest⟩ := h.readMore hnonempty (text.take k) hroom
      rw [List.length_drop] at hj
      rw [← List.take_add] at hread
      rw [List.drop_drop] at hrest
      rw [before k (le_refl k) (by omega), hread]
      exact ih _ (by omega) (fun m hm => before m (by omega)) (by omega) hrest rfl

end Carries

/-! ### How long a loop waits -/

/-- The arrivals that a call does not simply try again after. -/
def answered (arrivals : List Arrival) : Nat := arrivals.countP (· ≠ .interrupted)

theorem receive_waiting (h : receive wanted arrivals = .waiting) : answered arrivals = 0 := by
  fun_induction receive wanted arrivals with
  | case1 => rfl
  | case2 rest ih => simpa [answered] using ih h
  | case3 => cases h
  | case4 => cases h
  | case5 => cases h
  | case6 => cases h

theorem receive_answered {received : List UInt8} (h : receive wanted arrivals = .done (received, rest)) :
    answered arrivals ≤ answered rest + 1 := by
  fun_induction receive wanted arrivals with
  | case1 => cases h
  | case2 rest ih => simpa [answered] using ih h
  | case3 => cases h
  | case4 => cases h
  | case5 => cases h
  | case6 chunk rest hchunk =>
    cases h
    unfold answered
    split
    · simp
    · simp

theorem readMore_waiting (h : readMore data limit arrivals = .waiting) : data.length < limit ∧ answered arrivals = 0 := by
  unfold readMore at h
  split at h
  · cases h
  · rename_i hroom
    split at h
    · rename_i hreceived
      exact ⟨by omega, receive_waiting hreceived⟩
    · cases h
    · cases h

theorem readMore_answered (h : readMore data limit arrivals = .done (data', rest)) :
    answered arrivals + data.length ≤ answered rest + data'.length := by
  have hlength := (readMore_length h).1
  unfold readMore at h
  split at h
  · cases h
  · split at h
    · cases h
    · cases h
    · rename_i hreceived
      have hanswered := receive_answered hreceived
      cases h
      omega

theorem readUntil_waiting (h : readUntil stop limit data arrivals = .waiting) :
    answered arrivals + data.length ≤ limit := by
  fun_induction readUntil stop limit data arrivals with
  | case1 => cases h
  | case2 data arrivals _ hread =>
    obtain ⟨hroom, hnone⟩ := readMore_waiting hread
    omega
  | case3 => cases h
  | case4 data arrivals _ data' rest hread ih =>
    have hanswered := readMore_answered hread
    have hrest := ih h
    omega

/-- What a loop has found, and how much of what came it has used. -/
theorem readUntil_done (h : readUntil stop limit data arrivals = .done (data', found, rest)) :
    stop data' = some found ∧ answered arrivals + data.length ≤ answered rest + data'.length ∧
      data'.length ≤ max data.length limit := by
  fun_induction readUntil stop limit data arrivals with
  | case1 data arrivals found' hfound =>
    cases h
    exact ⟨hfound, le_refl _, le_max_left _ _⟩
  | case2 => cases h
  | case3 => cases h
  | case4 data arrivals _ data'' rest' hread ih =>
    have hanswered := readMore_answered hread
    have hlength := (readMore_length hread).2
    obtain ⟨hfound, hrest, hmax⟩ := ih h
    exact ⟨hfound, by omega, by omega⟩

end OnekvmVnc
