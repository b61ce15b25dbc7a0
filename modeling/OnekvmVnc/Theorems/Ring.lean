import OnekvmVnc.Lib.Transition
import OnekvmVnc.Ring

/-! What `TakeLatestFrame` throws away. The scan selects a frame at least as new as every ready frame it
    passed; the sweep frees whatever is ready by then. A frame that the writer puts into a slot between
    the two is freed unread, and it is newer than the one taken unless a still newer one went to a slot
    that the scan had yet to read. -/

namespace OnekvmVnc

open Transition

namespace Ring
variable {ring : Ring} {i j : Nat} {state : RingState}

@[simp] theorem setState_sequence : ((ring.setState i state).slots j).sequence = (ring.slots j).sequence := by
  by_cases h : j = i
  · simp [setState, h]
  · simp [setState, h]

@[simp] theorem setState_state :
    ((ring.setState i state).slots j).state = if j = i then state else (ring.slots j).state := by
  by_cases h : j = i
  · simp [setState, h]
  · simp [setState, h]

@[simp] theorem setState_slotCount : (ring.setState i state).slotCount = ring.slotCount := rfl

@[simp] theorem setState_lastSequence : (ring.setState i state).lastSequence = ring.lastSequence := rfl

theorem put_self (header : RingSlot) : (ring.put i header).slots i = { header with state := .ready } := by
  simp [put]

theorem put_of_ne {header : RingSlot} (h : j ≠ i) : (ring.put i header).slots j = ring.slots j := by
  simp [put, h]

end Ring

namespace Reader

def selected : Reader → Option Nat
  | .scan _ selected _ => selected
  | .claim selected | .sweep _ selected | .validate selected => some selected
  | .returned frame => frame.map (·.slot)
  | .start => none

def claimed : Reader → Bool
  | .sweep .. | .validate _ | .returned _ => true
  | _ => false

/-- The call owns the slot it has claimed until it returns. -/
theorem owned_eq_selected {r : Reader} (hclaimed : r.claimed = true) (hret : ∀ frame, r ≠ .returned frame) :
    r.owned = r.selected := by
  cases r with
  | sweep index selected => rfl
  | validate selected => rfl
  | returned frame => exact absurd rfl (hret frame)
  | _ => cases hclaimed

end Reader

/-- What holds between any two steps of a call. -/
structure Taking (c : RingCall) : Prop where
  published : ∀ i, (c.ring.slots i).state = .ready → (c.ring.slots i).sequence ≤ c.ring.lastSequence
  selected : ∀ k, c.reader.selected = some k →
    (c.ring.slots k).state = (if c.reader.claimed then .reading else .ready) ∧
      (c.ring.slots k).sequence ≤ c.ring.lastSequence
  newest : ∀ index k newest, c.reader = .scan index (some k) newest → newest = (c.ring.slots k).sequence
  unswept : c.reader.claimed = false → c.released = []
  /-- While nothing has overtaken the call, what the sweep frees is no newer than what it takes, and what
      it has still to free is no newer than what it takes or has still to scan. -/
  released : c.overtaken = false → ∀ q ∈ c.released, ∀ k, c.reader.selected = some k → q ≤ (c.ring.slots k).sequence
  covered : c.overtaken = false → ∀ i < c.ring.slotCount, c.reader.unswept i = true → (c.ring.slots i).state = .ready →
    (∃ k, c.reader.selected = some k ∧ (c.ring.slots i).sequence ≤ (c.ring.slots k).sequence) ∨
      ∃ j < c.ring.slotCount, c.reader.unscanned j = true ∧ (c.ring.slots j).state = .ready ∧
        (c.ring.slots i).sequence ≤ (c.ring.slots j).sequence
  /-- Once something has, a newer frame is waiting to be freed, or has been. -/
  lost : c.overtaken = true →
    (∃ i < c.ring.slotCount, c.reader.unswept i = true ∧ (c.ring.slots i).state = .ready ∧
      (∀ k, c.reader.selected = some k → (c.ring.slots k).sequence < (c.ring.slots i).sequence) ∧
      ∀ j < c.ring.slotCount, c.reader.unscanned j = true → (c.ring.slots j).state = .ready →
        (c.ring.slots j).sequence < (c.ring.slots i).sequence) ∨
    ∃ q ∈ c.released, ∀ k, c.reader.selected = some k → (c.ring.slots k).sequence < q

def Taken (c : RingCall) : Prop := Taking c ∨ c.reader = .returned none

namespace Taking
open RingCall
variable {c d : RingCall}

/-- A call starts with whatever the writer has published. -/
theorem start {ring : Ring} (h : ∀ i, (ring.slots i).state = .ready → (ring.slots i).sequence ≤ ring.lastSequence) :
    Taking { ring } where
  published := h
  selected := fun k hk => by cases hk
  newest := fun index k newest hr => by cases hr
  unswept := fun _ => rfl
  released := fun _ q hq => by cases hq
  covered := fun _ i _ hi => by cases hi
  lost := fun ho => by cases ho

theorem not_released (h : Taking c) (hclaimed : c.reader.claimed = false) {q : UInt64} (hq : q ∈ c.released) : False := by
  rw [h.unswept hclaimed] at hq
  cases hq

/-- The scan reads a ready slot that is newer than the one selected, and selects it. -/
theorem scan_select (h : Taking c) {index : Nat} {selected : Option Nat} {newestSequence : UInt64}
    (hr : c.reader = .scan index selected newestSequence) (hindex : index < c.ring.slotCount)
    (hready : (c.ring.slots index).state = .ready)
    (hnewer : ∀ k, selected = some k → (c.ring.slots k).sequence < (c.ring.slots index).sequence) :
    Taking { c with reader := .scan (index + 1) (some index) (c.ring.slots index).sequence } := by
  have hsel : c.reader.selected = selected := by rw [hr]; rfl
  have hclaimed : c.reader.claimed = false := by rw [hr]; rfl
  have hunswept : ∀ i, c.reader.unswept i = decide (i < index) := fun i => by rw [hr]; rfl
  have hunscanned : ∀ i, c.reader.unscanned i = decide (index ≤ i) := fun i => by rw [hr]; rfl
  -- What was covered by the old selection, or by this slot, is covered by the new one.
  refine ⟨h.published, ?_, ?_, fun _ => h.unswept hclaimed, fun _ q hq => (h.not_released hclaimed hq).elim, ?_, ?_⟩
  · intro k hk
    obtain rfl := Option.some.inj hk
    exact ⟨hready, h.published index hready⟩
  · intro _ k newest hn
    cases hn
    rfl
  · intro ho i hi hswept hstate
    by_cases hii : i = index
    · exact .inl ⟨index, rfl, hii ▸ UInt64.le_refl _⟩
    · have hlt : i < index := by
        simp only [Reader.unswept, decide_eq_true_eq] at hswept
        omega
      rcases h.covered ho i hi (by simp [hunswept, hlt]) hstate with ⟨k, hk, hle⟩ | ⟨j, hj, hun, hjs, hle⟩
      · exact .inl ⟨index, rfl, UInt64.le_trans hle (UInt64.le_of_lt (hnewer k (hsel ▸ hk)))⟩
      · by_cases hji : j = index
        · exact .inl ⟨index, rfl, hji ▸ hle⟩
        · refine .inr ⟨j, hj, ?_, hjs, hle⟩
          simp only [hunscanned, decide_eq_true_eq] at hun
          simp only [Reader.unscanned, decide_eq_true_eq]
          omega
  · intro ho
    rcases h.lost ho with ⟨i, hi, hswept, hstate, -, hun⟩ | ⟨q, hq, -⟩
    · refine .inl ⟨i, hi, ?_, hstate, fun k hk => ?_, fun j hj hjun => hun j hj ?_⟩
      · simp only [hunswept, decide_eq_true_eq] at hswept
        simp only [Reader.unswept, decide_eq_true_eq]
        omega
      · obtain rfl := Option.some.inj hk
        exact hun index hindex (by simp [hunscanned]) hready
      · simp only [Reader.unscanned, decide_eq_true_eq] at hjun
        simp only [hunscanned, decide_eq_true_eq]
        omega
    · exact (h.not_released hclaimed hq).elim

/-- The scan passes a slot that is not ready, or no newer than the one selected. -/
theorem scan_pass (h : Taking c) {index : Nat} {selected : Option Nat} {newestSequence : UInt64}
    (hr : c.reader = .scan index selected newestSequence)
    (hold : (c.ring.slots index).state = .ready →
      ∃ k, selected = some k ∧ (c.ring.slots index).sequence ≤ (c.ring.slots k).sequence) :
    Taking { c with reader := .scan (index + 1) selected newestSequence } := by
  have hsel : c.reader.selected = selected := by rw [hr]; rfl
  have hclaimed : c.reader.claimed = false := by rw [hr]; rfl
  have hunswept : ∀ i, c.reader.unswept i = decide (i < index) := fun i => by rw [hr]; rfl
  have hunscanned : ∀ i, c.reader.unscanned i = decide (index ≤ i) := fun i => by rw [hr]; rfl
  refine ⟨h.published, ?_, ?_, fun _ => h.unswept hclaimed, fun _ q hq => (h.not_released hclaimed hq).elim, ?_, ?_⟩
  · intro k hk
    have hk' := h.selected k (hsel.trans hk)
    rw [hclaimed] at hk'
    exact hk'
  · intro _ k newest hn
    cases hn
    exact h.newest index k newestSequence hr
  · intro ho i hi hswept hstate
    by_cases hii : i = index
    · obtain ⟨k, hk, hle⟩ := hold (hii ▸ hstate)
      exact .inl ⟨k, hk, hii ▸ hle⟩
    · have hlt : i < index := by
        simp only [Reader.unswept, decide_eq_true_eq] at hswept
        omega
      rcases h.covered ho i hi (by simp [hunswept, hlt]) hstate with ⟨k, hk, hle⟩ | ⟨j, hj, hun, hjs, hle⟩
      · exact .inl ⟨k, hsel ▸ hk, hle⟩
      · by_cases hji : j = index
        · obtain ⟨k, hk, hle'⟩ := hold (hji ▸ hjs)
          exact .inl ⟨k, hk, UInt64.le_trans hle (hji ▸ hle')⟩
        · refine .inr ⟨j, hj, ?_, hjs, hle⟩
          simp only [hunscanned, decide_eq_true_eq] at hun
          simp only [Reader.unscanned, decide_eq_true_eq]
          omega
  · intro ho
    rcases h.lost ho with ⟨i, hi, hswept, hstate, hk, hun⟩ | ⟨q, hq, -⟩
    · refine .inl ⟨i, hi, ?_, hstate, fun k hk' => hk k (hsel.trans hk'), fun j hj hjun => hun j hj ?_⟩
      · simp only [hunswept, decide_eq_true_eq] at hswept
        simp only [Reader.unswept, decide_eq_true_eq]
        omega
      · simp only [Reader.unscanned, decide_eq_true_eq] at hjun
        simp only [hunscanned, decide_eq_true_eq]
        omega
    · exact (h.not_released hclaimed hq).elim

theorem scan (h : Taking c) {index : Nat} {selected : Option Nat} {newestSequence : UInt64}
    (hr : c.reader = .scan index selected newestSequence) (hindex : index < c.ring.slotCount) :
    Taking (c.scan index selected newestSequence) := by
  unfold RingCall.scan
  dsimp only
  split
  · rename_i hready
    refine h.scan_select hr hindex hready.1 fun k hk => ?_
    rcases hready.2 with hnone | hlt
    · cases hnone.symm.trans hk
    · subst hk
      rwa [h.newest index k newestSequence hr] at hlt
  · rename_i hold
    refine h.scan_pass hr fun hstate => ?_
    simp only [hstate, true_and, not_or] at hold
    obtain ⟨hne, hle⟩ := hold
    obtain ⟨k, rfl⟩ := Option.ne_none_iff_exists'.mp hne
    rw [h.newest index k newestSequence hr] at hle
    exact ⟨k, rfl, UInt64.not_lt.mp hle⟩

/-- The scan is over: every slot is behind it. -/
theorem scanned (h : Taking c) {index selected : Nat} {newestSequence : UInt64}
    (hr : c.reader = .scan index (some selected) newestSequence) (hindex : c.ring.slotCount ≤ index) :
    Taking { c with reader := .claim selected } := by
  have hsel : c.reader.selected = some selected := by rw [hr]; rfl
  have hclaimed : c.reader.claimed = false := by rw [hr]; rfl
  have hunswept : ∀ i < c.ring.slotCount, c.reader.unswept i = true := fun i hi => by
    rw [hr]
    simp only [Reader.unswept, decide_eq_true_eq]
    omega
  refine ⟨h.published, fun k hk => ?_, fun _ k newest hn => (by cases hn), fun _ => h.unswept hclaimed,
    fun _ q hq => (h.not_released hclaimed hq).elim, fun ho i hi _ hstate => ?_, fun ho => ?_⟩
  · have hk' := h.selected k (hsel.trans hk)
    rw [hclaimed] at hk'
    exact hk'
  · rcases h.covered ho i hi (hunswept i hi) hstate with ⟨k, hk, hle⟩ | ⟨j, hj, hun, -, -⟩
    · exact .inl ⟨k, hsel.symm.trans hk, hle⟩
    · simp only [hr, Reader.unscanned, decide_eq_true_eq] at hun
      omega
  · rcases h.lost ho with ⟨i, hi, -, hstate, hk, -⟩ | ⟨q, hq, -⟩
    · exact .inl ⟨i, hi, rfl, hstate, fun k hk' => hk k (hsel.trans hk'), fun j _ hjun => by cases hjun⟩
    · exact (h.not_released hclaimed hq).elim

theorem claim (h : Taking c) {selected : Nat} (hr : c.reader = .claim selected) :
    Taking { c with ring := c.ring.setState selected .reading, reader := .sweep 0 selected } := by
  have hsel : c.reader.selected = some selected := by rw [hr]; rfl
  have hclaimed : c.reader.claimed = false := by rw [hr]; rfl
  have hunswept : ∀ i, c.reader.unswept i = true := fun i => by rw [hr]; rfl
  have hkeep : ∀ i, ((c.ring.setState selected .reading).slots i).state = .ready →
      i ≠ selected ∧ (c.ring.slots i).state = .ready := fun i hi => by
    by_cases his : i = selected <;> simp_all
  refine ⟨fun i hi => ?_, fun k hk => ?_, fun _ k newest hn => (by cases hn), fun hc => (by cases hc),
    fun _ q hq => (h.not_released hclaimed hq).elim, fun ho i hi _ hstate => ?_, fun ho => ?_⟩
  · simpa using h.published i (hkeep i hi).2
  · obtain rfl := Option.some.inj hk
    have hk' := (h.selected _ hsel).2
    exact ⟨by simp [Reader.claimed], by simpa using hk'⟩
  · rcases h.covered ho i hi (hunswept i) (hkeep i hstate).2 with ⟨k, hk, hle⟩ | ⟨j, -, hun, -, -⟩
    · exact .inl ⟨k, hsel.symm.trans hk, by simpa using hle⟩
    · simp [hr, Reader.unscanned] at hun
  · rcases h.lost ho with ⟨i, hi, -, hstate, hk, -⟩ | ⟨q, hq, -⟩
    · have hne : i ≠ selected := fun his => UInt64.lt_irrefl _ (his ▸ hk selected hsel)
      refine .inl ⟨i, hi, by simp [Reader.unswept], by simp [hne, hstate], fun k hk' => ?_, fun j _ hjun => by cases hjun⟩
      simpa using hk k (hsel.trans hk')
    · exact (h.not_released hclaimed hq).elim

theorem sweep_free (h : Taking c) {index selected : Nat} (hr : c.reader = .sweep index selected)
    (hindex : index < c.ring.slotCount) (hne : index ≠ selected) (hready : (c.ring.slots index).state = .ready) :
    Taking { c with
      ring := c.ring.setState index .free
      reader := .sweep (index + 1) selected
      released := c.released ++ [(c.ring.slots index).sequence] } := by
  have hsel : c.reader.selected = some selected := by rw [hr]; rfl
  have hunswept : ∀ i, c.reader.unswept i = decide (index ≤ i) := fun i => by rw [hr]; rfl
  have hunscanned : ∀ i, c.reader.unscanned i = false := fun i => by rw [hr]; rfl
  have hkeep : ∀ i, ((c.ring.setState index .free).slots i).state = .ready →
      i ≠ index ∧ (c.ring.slots i).state = .ready := fun i hi => by
    by_cases his : i = index <;> simp_all
  refine ⟨?_, ?_, fun _ k newest hn => (by cases hn), fun hc => (by cases hc), ?_, ?_, ?_⟩
  · intro i hi
    simpa using h.published i (hkeep i hi).2
  · intro k hk
    have hk' := h.selected k (hsel.trans hk)
    obtain rfl := Option.some.inj hk
    simp only [hr, Reader.claimed, if_true] at hk'
    simpa [Reader.claimed, Ne.symm hne] using hk'
  · intro ho q hq k hk
    rw [Ring.setState_sequence]
    rcases List.mem_append.mp hq with hq | hq
    · exact h.released ho q hq k (hsel.trans hk)
    · obtain rfl := List.mem_singleton.mp hq
      rcases h.covered ho index hindex (by simp [hunswept]) hready with ⟨k', hk', hle⟩ | ⟨j, -, hun, -, -⟩
      · rw [hsel.trans hk, Option.some.injEq] at hk'
        exact hk' ▸ hle
      · simp [hunscanned] at hun
  · intro ho i hi hswept hstate
    simp only [Reader.unswept, decide_eq_true_eq] at hswept
    rcases h.covered ho i hi (by simp [hunswept]; omega) (hkeep i hstate).2 with ⟨k, hk, hle⟩ | ⟨j, -, hun, -, -⟩
    · exact .inl ⟨k, hsel.symm.trans hk, by simpa using hle⟩
    · simp [hunscanned] at hun
  · intro ho
    rcases h.lost ho with ⟨i, hi, hswept, hstate, hk, -⟩ | ⟨q, hq, hk⟩
    · simp only [hunswept, decide_eq_true_eq] at hswept
      by_cases his : i = index
      · refine .inr ⟨(c.ring.slots index).sequence, by simp, fun k hk' => ?_⟩
        simpa [his] using hk k (hsel.trans hk')
      · refine .inl ⟨i, hi, ?_, by simp [his, hstate], fun k hk' => ?_, fun j _ hjun => by cases hjun⟩
        · simp only [Reader.unswept, decide_eq_true_eq]
          omega
        · simpa using hk k (hsel.trans hk')
    · exact .inr ⟨q, List.mem_append_left _ hq, fun k hk' => by simpa using hk k (hsel.trans hk')⟩

/-- The sweep passes the selected slot, or one that is not ready. -/
theorem sweep_pass (h : Taking c) {index selected : Nat} (hr : c.reader = .sweep index selected)
    (hpass : (c.ring.slots index).state ≠ .ready) : Taking { c with reader := .sweep (index + 1) selected } := by
  have hsel : c.reader.selected = some selected := by rw [hr]; rfl
  have hunswept : ∀ i, c.reader.unswept i = decide (index ≤ i) := fun i => by rw [hr]; rfl
  have hunscanned : ∀ i, c.reader.unscanned i = false := fun i => by rw [hr]; rfl
  refine ⟨h.published, fun k hk => ?_, fun _ k newest hn => (by cases hn), fun hc => (by cases hc),
    fun ho q hq k hk => h.released ho q hq k (hsel.trans hk), fun ho i hi hswept hstate => ?_, fun ho => ?_⟩
  · have hk' := h.selected k (hsel.trans hk)
    simp only [hr, Reader.claimed] at hk'
    exact hk'
  · simp only [Reader.unswept, decide_eq_true_eq] at hswept
    rcases h.covered ho i hi (by simp [hunswept]; omega) hstate with ⟨k, hk, hle⟩ | ⟨j, -, hun, -, -⟩
    · exact .inl ⟨k, hsel.symm.trans hk, hle⟩
    · simp [hunscanned] at hun
  · rcases h.lost ho with ⟨i, hi, hswept, hstate, hk, -⟩ | ⟨q, hq, hk⟩
    · have hne : i ≠ index := fun hii => hpass (hii ▸ hstate)
      simp only [hunswept, decide_eq_true_eq] at hswept
      refine .inl ⟨i, hi, ?_, hstate, fun k hk' => hk k (hsel.trans hk'), fun j _ hjun => by cases hjun⟩
      simp only [Reader.unswept, decide_eq_true_eq]
      omega
    · exact .inr ⟨q, hq, fun k hk' => hk k (hsel.trans hk')⟩

theorem sweep (h : Taking c) {index selected : Nat} (hr : c.reader = .sweep index selected)
    (hindex : index < c.ring.slotCount) : Taking (c.sweep index selected) := by
  unfold RingCall.sweep
  split
  · rename_i hfree
    exact h.sweep_free hr hindex hfree.1 hfree.2
  · rename_i hpass
    refine h.sweep_pass hr fun hready => ?_
    obtain rfl : index = selected := by
      by_contra hne
      exact hpass ⟨hne, hready⟩
    -- The selected slot is being read.
    have hk := (h.selected index (by rw [hr]; rfl)).1
    simp [hr, Reader.claimed, hready] at hk

/-- The sweep is over: every slot is behind it, and the call goes on with the slot it claimed. -/
theorem swept (h : Taking c) {reader : Reader} (hsel : reader.selected = c.reader.selected)
    (hclaimed : c.reader.claimed = true) (hclaimed' : reader.claimed = true)
    (hdone : ∀ i < c.ring.slotCount, c.reader.unswept i = false) (hunswept : ∀ i, reader.unswept i = false) :
    Taking { c with reader } := by
  refine ⟨h.published, ?_, ?_, ?_, fun ho q hq k hk => h.released ho q hq k (hsel.symm.trans hk), ?_, ?_⟩
  · intro k hk
    have hk' := h.selected k (hsel.symm.trans hk)
    rw [hclaimed] at hk'
    simpa only [hclaimed'] using hk'
  · intro index k newest hn
    obtain rfl : reader = _ := hn
    cases hclaimed'
  · intro hc
    cases hclaimed'.symm.trans hc
  · intro ho i hi hswept _
    cases (hunswept i).symm.trans hswept
  · intro ho
    rcases h.lost ho with ⟨i, hi, hswept, -, -, -⟩ | ⟨q, hq, hk⟩
    · cases (hdone i hi).symm.trans hswept
    · exact .inr ⟨q, hq, fun k hk' => hk k (hsel.symm.trans hk')⟩

/-! ### Every step -/

theorem read (h : Taking c) (hd : c.read = some d) : Taken d := by
  unfold RingCall.read at hd
  cases hr : c.reader with
  | start =>
    simp only [hr, Option.some.injEq] at hd
    subst hd
    have hclaimed : c.reader.claimed = false := by rw [hr]; rfl
    refine .inl ⟨h.published, fun k hk => (by cases hk), fun _ k newest hn => (by cases hn), fun _ => h.unswept hclaimed,
      fun _ q hq => (h.not_released hclaimed hq).elim, fun _ i _ hi => ?_, fun ho => ?_⟩
    · simp [Reader.unswept] at hi
    · rcases h.lost ho with ⟨i, -, hswept, -⟩ | ⟨q, hq, -⟩
      · simp [hr, Reader.unswept] at hswept
      · exact (h.not_released hclaimed hq).elim
  | scan index selected newestSequence =>
    simp only [hr] at hd
    split at hd
    · rename_i hindex
      obtain rfl := Option.some.inj hd
      exact .inl (h.scan hr hindex)
    · rename_i hindex
      cases selected with
      | none =>
        obtain rfl := Option.some.inj hd
        exact .inr rfl
      | some selected =>
        obtain rfl := Option.some.inj hd
        exact .inl (h.scanned hr (Nat.le_of_not_lt hindex))
  | claim selected =>
    simp only [hr] at hd
    split at hd
    · obtain rfl := Option.some.inj hd
      exact .inl (h.claim hr)
    · obtain rfl := Option.some.inj hd
      exact .inr rfl
  | sweep index selected =>
    simp only [hr] at hd
    split at hd
    · rename_i hindex
      obtain rfl := Option.some.inj hd
      exact .inl (h.sweep hr hindex)
    · rename_i hindex
      obtain rfl := Option.some.inj hd
      refine .inl (h.swept (by rw [hr]; rfl) (by rw [hr]; rfl) rfl (fun i hi => ?_) fun _ => rfl)
      rw [hr]
      simp only [Reader.unswept, decide_eq_false_iff_not]
      omega
  | validate selected =>
    simp only [hr] at hd
    split at hd
    · obtain rfl := Option.some.inj hd
      exact .inl (h.swept (by rw [hr]; rfl) (by rw [hr]; rfl) rfl (fun i _ => by rw [hr]; rfl) fun _ => rfl)
    · obtain rfl := Option.some.inj hd
      exact .inr rfl
  | returned frame => simp [hr] at hd

/-- A publication is newer than everything before it. -/
theorem publish (h : Taking c) {index : Nat} {header : RingSlot} (hd : c.publish index header = some d) : Taking d := by
  simp only [RingCall.publish, Option.ite_none_right_eq_some, Option.some.injEq] at hd
  obtain ⟨⟨hindex, hfree, hnew⟩, rfl⟩ := hd
  have hsel : ∀ k, c.reader.selected = some k → k ≠ index := fun k hk hki => by
    have hk' := (h.selected k hk).1
    rw [hki, hfree] at hk'
    split at hk' <;> cases hk'
  have hready : ∀ i, (c.ring.slots i).state = .ready → i ≠ index := fun i hi hii => by
    rw [hii, hfree] at hi
    cases hi
  have hpublished : ∀ i, ((c.ring.put index header).slots i).state = .ready →
      ((c.ring.put index header).slots i).sequence ≤ header.sequence := fun i hi => by
    by_cases hii : i = index
    · rw [hii, Ring.put_self]
      exact UInt64.le_refl _
    · rw [Ring.put_of_ne hii] at hi ⊢
      exact UInt64.le_of_lt (UInt64.lt_of_le_of_lt (h.published i hi) hnew)
  have hselected : ∀ k, c.reader.selected = some k →
      ((c.ring.put index header).slots k).state = (if c.reader.claimed then .reading else .ready) ∧
        ((c.ring.put index header).slots k).sequence ≤ header.sequence := fun k hk => by
    rw [Ring.put_of_ne (hsel k hk)]
    exact ⟨(h.selected k hk).1, UInt64.le_of_lt (UInt64.lt_of_le_of_lt (h.selected k hk).2 hnew)⟩
  have hnewest : ∀ i k newest, c.reader = .scan i (some k) newest →
      newest = ((c.ring.put index header).slots k).sequence := fun i k newest hn => by
    rw [Ring.put_of_ne (hsel k (by rw [hn]; rfl))]
    exact h.newest i k newest hn
  -- Whether the publication overtakes the call depends on where its slot lies.
  cases hus : c.reader.unswept index
  · cases hun : c.reader.unscanned index
    · -- The sweep has passed the slot: the call has nothing more to do with it.
      refine ⟨hpublished, hselected, hnewest, h.unswept, ?_, ?_, ?_⟩
      · intro ho q hq k hk
        rw [Ring.put_of_ne (hsel k hk)]
        exact h.released ho q hq k hk
      · intro ho i hi hswept hstate
        have hii : i ≠ index := fun hii => by cases hus.symm.trans (hii ▸ hswept)
        rw [Ring.put_of_ne hii] at hstate ⊢
        rcases h.covered ho i hi hswept hstate with ⟨k, hk, hle⟩ | ⟨j, hj, hjun, hjs, hle⟩
        · exact .inl ⟨k, hk, by rwa [Ring.put_of_ne (hsel k hk)]⟩
        · exact .inr ⟨j, hj, hjun, by rwa [Ring.put_of_ne (hready j hjs)], by rwa [Ring.put_of_ne (hready j hjs)]⟩
      · intro ho
        rcases h.lost ho with ⟨i, hi, hswept, hstate, hk, hj⟩ | ⟨q, hq, hk⟩
        · refine .inl ⟨i, hi, hswept, by rwa [Ring.put_of_ne (hready i hstate)], fun k hk' => ?_, fun j hj' hjun hjs => ?_⟩
          · rw [Ring.put_of_ne (hsel k hk'), Ring.put_of_ne (hready i hstate)]
            exact hk k hk'
          · have hji : j ≠ index := fun hji => by cases hun.symm.trans (hji ▸ hjun)
            rw [Ring.put_of_ne hji] at hjs ⊢
            rw [Ring.put_of_ne (hready i hstate)]
            exact hj j hj' hjun hjs
        · exact .inr ⟨q, hq, fun k hk' => by rw [Ring.put_of_ne (hsel k hk')]; exact hk k hk'⟩
    · -- The scan will find the new frame.
      have hclaimed : c.reader.claimed = false := by
        cases hr : c.reader <;> simp_all [Reader.unscanned, Reader.claimed]
      refine ⟨hpublished, hselected, hnewest, h.unswept, fun _ q hq => (h.not_released hclaimed hq).elim,
        fun _ i hi hswept hstate => .inr ⟨index, hindex, hun, by rw [Ring.put_self], ?_⟩, fun ho => by cases ho⟩
      rw [Ring.put_self]
      exact hpublished i hstate
  · -- The scan has passed the slot: the sweep will free the new frame.
    refine ⟨hpublished, hselected, hnewest, h.unswept, fun ho => (by cases ho), fun ho => (by cases ho),
      fun _ => .inl ⟨index, hindex, hus, by rw [Ring.put_self], fun k hk => ?_, fun j hj hjun hjs => ?_⟩⟩
    · rw [Ring.put_self, Ring.put_of_ne (hsel k hk)]
      exact UInt64.lt_of_le_of_lt (h.selected k hk).2 hnew
    · have hji : j ≠ index := fun hji => by
        cases hr : c.reader <;> simp_all [Reader.unscanned, Reader.unswept]
        omega
      rw [Ring.put_of_ne hji] at hjs ⊢
      rw [Ring.put_self]
      exact UInt64.lt_of_le_of_lt (h.published j hjs) hnew

/-- The end of an earlier lease changes no ready slot. -/
theorem release (h : Taking c) {index : Nat} (hret : ∀ frame, c.reader ≠ .returned frame)
    (hd : c.release index = some d) : Taking d := by
  simp only [RingCall.release, Option.ite_none_right_eq_some, Option.some.injEq] at hd
  obtain ⟨⟨hreading, howned⟩, rfl⟩ := hd
  have hready : ∀ i, ((c.ring.setState index .free).slots i).state = .ready ↔ (c.ring.slots i).state = .ready := fun i => by
    by_cases hi : i = index <;> simp [hi, hreading]
  refine ⟨?_, ?_, ?_, h.unswept, ?_, ?_, ?_⟩
  · intro i hi
    simpa using h.published i ((hready i).mp hi)
  · intro k hk
    -- The selected slot is ready, or owned by the call.
    have hki : k ≠ index := fun hki => by
      have hk' := (h.selected k hk).1
      rw [hki, hreading] at hk'
      cases hclaimed : c.reader.claimed
      · simp [hclaimed] at hk'
      · rw [Reader.owned_eq_selected hclaimed hret, ← hki] at howned
        exact howned hk
    simpa [hki] using h.selected k hk
  · intro index k newest hn
    simpa using h.newest index k newest hn
  · intro ho q hq k hk
    simpa using h.released ho q hq k hk
  · intro ho i hi hswept hstate
    simp only [hready, Ring.setState_sequence]
    exact h.covered ho i hi hswept ((hready i).mp hstate)
  · intro ho
    simp only [hready, Ring.setState_sequence]
    exact h.lost ho

theorem step (h : Taken c) {a : RingAction} (hd : c.step a = some d) : Taken d := by
  rcases h with h | hnone
  · cases a with
    | read => exact h.read hd
    | publish index header =>
      cases hr : c.reader with
      | returned frame => simp [RingCall.step, hr] at hd
      | _ => exact .inl (h.publish (by simpa [RingCall.step, hr] using hd))
    | release index =>
      cases hr : c.reader with
      | returned frame => simp [RingCall.step, hr] at hd
      | _ => exact .inl (h.release (by simp [hr]) (by simpa [RingCall.step, hr] using hd))
  · -- The call has returned.
    cases a <;> simp [RingCall.step, RingCall.read, hnone] at hd

end Taking

/-- A call that returns a frame moves no newer frame from READY to FREE exactly when, of the frames
    published before their slot was swept, the last one went to a slot that the scan had yet to read, if
    there was any. -/
theorem takeLatestFrame_keeps_newer_iff {ring : Ring} {acts : List RingAction} {c : RingCall} {frame : LeasedFrame}
    (hpublished : ∀ i, (ring.slots i).state = .ready → (ring.slots i).sequence ≤ ring.lastSequence)
    (hrun : run RingCall.step { ring } acts = some c) (hreturned : c.reader = .returned (some frame)) :
    (∀ q ∈ c.released, q ≤ (c.ring.slots frame.slot).sequence) ↔ c.overtaken = false := by
  have hsel : c.reader.selected = some frame.slot := by rw [hreturned]; rfl
  have h : Taking c := by
    rcases run_invariant (P := Taken) (.inl (.start hpublished)) (fun _ _ _ hu ha => Taking.step hu ha) hrun with h | hnone
    · exact h
    · simp [hreturned] at hnone
  refine ⟨?_, fun ho q hq => h.released ho q hq _ hsel⟩
  intro hle
  cases ho : c.overtaken
  · rfl
  · rcases h.lost ho with ⟨i, -, hswept, -⟩ | ⟨q, hq, hlt⟩
    · simp [hreturned, Reader.unswept] at hswept
    · exact absurd (hle q hq) (UInt64.not_le.mpr (hlt _ hsel))

/-- A ready MJPEG frame with the given sequence. -/
def readyFrame (sequence : UInt64) : RingSlot :=
  { state := .ready, payloadSize := 1, sequence, durationUs := 0, width := 1, height := 1, codec := kMJPEG }

/-- Two slots, the first of which holds the frame with sequence 1. -/
def twoSlots : Ring :=
  { slotCount := 2
    slotCapacity := 1
    slots := fun i => if i = 0 then readyFrame 1 else { readyFrame 0 with state := .free }
    lastSequence := 1 }

/-- A frame published before its slot is scanned is taken. -/
theorem takeLatestFrame_keeps_newer_iff_scanned : ∃ c frame,
    run RingCall.step { ring := twoSlots }
      [.read, .read, .publish 1 (readyFrame 2), .read, .read, .read, .read, .read, .read, .read] = some c ∧
    c.reader = .returned (some frame) ∧
    ((∀ q ∈ c.released, q ≤ (c.ring.slots frame.slot).sequence) ↔ c.overtaken = false) := by
  obtain ⟨c, frame, hrun, hreturned⟩ : ∃ c frame, run RingCall.step { ring := twoSlots }
      [.read, .read, .publish 1 (readyFrame 2), .read, .read, .read, .read, .read, .read, .read] = some c ∧
    c.reader = .returned (some frame) := ⟨_, _, rfl, rfl⟩
  refine ⟨c, frame, hrun, hreturned, takeLatestFrame_keeps_newer_iff (fun i hi => ?_) hrun hreturned⟩
  by_cases h0 : i = 0
  · subst h0
    decide
  · simp [twoSlots, h0] at hi

/-- A frame published between the scan and the sweep of its slot is freed unread. -/
theorem takeLatestFrame_frees_newer : ∃ c frame,
    run RingCall.step { ring := twoSlots }
      [.read, .read, .read, .publish 1 (readyFrame 2), .read, .read, .read, .read, .read, .read] = some c ∧
    c.reader = .returned (some frame) ∧ (c.ring.slots frame.slot).sequence = 1 ∧ 2 ∈ c.released := by
  refine ⟨_, _, rfl, rfl, by decide +kernel, by decide +kernel⟩

end OnekvmVnc
