import OnekvmVnc.Leases
import OnekvmVnc.Theorems.Ring

/-! Leases of ring slots are exact. A slot is READING while `TakeLatestFrame` owns it or a frame shares its
    lease, each claim frees its slot once, and the frames that are claimed get newer and newer. -/

namespace OnekvmVnc

open Transition Sharing

namespace Leases
variable {s t : Leases} {n i : Nat}

/-- The claim is being validated by `TakeLatestFrame`. -/
def Validating (s : Leases) (n : Nat) : Prop := s.reader.owned.isSome = true ∧ n + 1 = s.claims.length

/-- Some frame shares the lease of the claim. -/
def Shared (s : Leases) (n : Nat) : Prop := ∃ lease, lease.claim = n ∧ s.frames.Live lease

def InUse (s : Leases) (n : Nat) : Prop := s.Validating n ∨ s.Shared n

/-! ### What a step does -/

/-- What a step of `TakeLatestFrame` does. -/
inductive Reads (s : Leases) : Leases → Prop
  | start (h : s.reader = .start) : Reads s { s with ring := { s.ring with notified := 0 }, reader := .scan 0 none 0 }
  | select (index : Nat) (selected : Option Nat) (newest : UInt64) (h : s.reader = .scan index selected newest)
      (hi : index < s.ring.slotCount) :
      Reads s { s with reader := .scan (index + 1) (some index) (s.ring.slots index).sequence }
  | pass (index : Nat) (selected : Option Nat) (newest : UInt64) (h : s.reader = .scan index selected newest) :
      Reads s { s with reader := .scan (index + 1) selected newest }
  | found (index selected : Nat) (newest : UInt64) (h : s.reader = .scan index (some selected) newest) :
      Reads s { s with reader := .claim selected }
  | nothing (h : s.reader.owned = none) : Reads s { s with reader := .returned none }
  | claim (selected : Nat) (h : s.reader = .claim selected) (ready : (s.ring.slots selected).state = .ready) :
      Reads s { s with
        ring := s.ring.setState selected .reading
        reader := .sweep 0 selected
        claims := s.claims ++ [⟨selected, (s.ring.slots selected).sequence⟩] }
  | sweep (index selected : Nat) (h : s.reader = .sweep index selected) (ready : (s.ring.slots index).state = .ready) :
      Reads s { s with ring := s.ring.setState index .free, reader := .sweep (index + 1) selected }
  | skip (index selected : Nat) (h : s.reader = .sweep index selected)
      (hskip : index = selected ∨ (s.ring.slots index).state ≠ .ready) :
      Reads s { s with reader := .sweep (index + 1) selected }
  | swept (index selected : Nat) (h : s.reader = .sweep index selected) (hi : s.ring.slotCount ≤ index) :
      Reads s { s with reader := .validate selected }
  | valid (selected : Nat) (frame : LeasedFrame) (h : s.reader = .validate selected) (hslot : frame.slot = selected)
      (hvalid : s.ring.valid (s.ring.slots selected) = true) :
      Reads s (({ s with reader := .returned (some frame) } : Leases).assign .taken
        (some ⟨s.claims.length - 1, selected⟩))
  | invalid (selected : Nat) (h : s.reader = .validate selected)
      (hvalid : s.ring.valid (s.ring.slots selected) = false) :
      Reads s { s with
        ring := s.ring.setState selected .free, reader := .returned none, freed := s.freed ++ [s.claims.length - 1] }

theorem read_reads (h : s.read = some t) : Reads s t := by
  unfold read at h
  cases hreader : s.reader with
  | start =>
    simp only [hreader, RingCall.read, Option.map_some, Option.some.injEq] at h
    exact h ▸ .start hreader
  | scan index selected newest =>
    simp only [hreader, RingCall.read] at h
    by_cases hi : index < s.ring.slotCount
    · simp only [hi, if_true, Option.map_some, Option.some.injEq, RingCall.scan] at h
      split at h
      · exact h ▸ .select index selected newest hreader hi
      · exact h ▸ .pass index selected newest hreader
    · simp only [hi, if_false] at h
      cases selected with
      | none =>
        simp only [Option.map_some, Option.some.injEq] at h
        exact h ▸ .nothing (by rw [hreader]; rfl)
      | some selected =>
        simp only [Option.map_some, Option.some.injEq] at h
        exact h ▸ .found index selected newest hreader
  | claim selected =>
    simp only [hreader, RingCall.read] at h
    split at h
    · rename_i hready
      simp only [Option.map_some, Option.some.injEq] at h
      exact h ▸ .claim selected hreader hready
    · simp only [Option.map_some, Option.some.injEq] at h
      exact h ▸ .nothing (by rw [hreader]; rfl)
  | sweep index selected =>
    simp only [hreader, RingCall.read] at h
    by_cases hi : index < s.ring.slotCount
    · simp only [hi, if_true, Option.map_some, Option.some.injEq, RingCall.sweep] at h
      split at h
      · rename_i hsweep
        exact h ▸ .sweep index selected hreader hsweep.2
      · rename_i hskip
        exact h ▸ .skip index selected hreader (by tauto)
    · simp only [hi, if_false, Option.map_some, Option.some.injEq] at h
      exact h ▸ .swept index selected hreader (not_lt.mp hi)
  | validate selected =>
    simp only [hreader, RingCall.read] at h
    split at h
    · rename_i hvalid
      simp only [Option.map_some, Option.some.injEq] at h
      exact h ▸ .valid selected _ hreader rfl hvalid
    · rename_i hvalid
      simp only [Option.map_some, Option.some.injEq] at h
      exact h ▸ .invalid selected hreader (by simpa using hvalid)
  | returned frame =>
    simp [hreader, RingCall.read] at h

/-- What an assignment of frames does: the lease that the holder drops ends, or no lease does. -/
theorem assign_cases (exact : s.frames.Exact) (holder : FrameHolder) (lease : Option RingLease) :
    s.assign holder lease = { s with frames := s.frames.assign holder lease } ∧
        (∀ l, s.frames.Live l → (s.frames.assign holder lease).Live l) ∨
      ∃ old, s.frames.holds holder = some old ∧ ¬ (s.frames.assign holder lease).Live old ∧
        s.assign holder lease = { s with
          frames := s.frames.assign holder lease
          ring := s.ring.setState old.slot .free
          freed := s.freed ++ [old.claim] } := by
  have hexact := exact.assign holder lease
  unfold Leases.assign
  cases hold : s.frames.holds holder with
  | none =>
    refine .inl ⟨rfl, fun l hl => ?_⟩
    by_contra hdead
    rw [Shared.live_of_assign hl hdead] at hold
    cases hold
  | some old =>
    dsimp only
    split
    · rename_i hzero
      exact .inr ⟨old, rfl, hexact.zero_iff.mp hzero, rfl⟩
    · rename_i hcount
      refine .inl ⟨rfl, fun l hl => ?_⟩
      by_contra hdead
      obtain rfl : old = l := Option.some.inj (hold.symm.trans (Shared.live_of_assign hl hdead))
      exact hcount (hexact.zero_iff.mpr hdead)

theorem assign_empty {holder : FrameHolder} {lease : Option RingLease} (h : s.frames.holds holder = none) :
    s.assign holder lease = { s with frames := s.frames.assign holder lease } := by
  unfold Leases.assign
  dsimp only
  rw [h]

/-- What happens to the leases in one go: a step of the reader or of the writer, or an assignment of a frame
    that is there. -/
inductive LeaseChange (s : Leases) : Leases → Prop
  | reads {u : Leases} (h : Reads s u) : LeaseChange s u
  | take (frame : Option LeasedFrame) (h : s.reader = .returned frame) (idle : s.frames.holds .taken = none) :
      LeaseChange s { s with reader := .start }
  | publish (index : Nat) (header : RingSlot) (unread : (s.ring.slots index).state ≠ .reading)
      (newer : s.ring.lastSequence < header.sequence) : LeaseChange s { s with ring := s.ring.put index header }
  | withdraw (index : Nat) (ready : (s.ring.slots index).state = .ready) :
      LeaseChange s { s with ring := s.ring.setState index .free }
  | assign (holder : FrameHolder) (lease : Option RingLease) (live : ∀ l, lease = some l → s.frames.Live l)
      (taken : holder = .taken → lease = none) : LeaseChange s (s.assign holder lease)
  | clients (clients : List Nat) : LeaseChange s { s with clients }

abbrev LeaseChanges : Leases → Leases → Prop := Relation.ReflTransGen LeaseChange

/-- The slots, the claims and the leases are the same. -/
structure SameLeases (s t : Leases) : Prop where
  ring : t.ring = s.ring
  reader : t.reader = s.reader
  claims : t.claims = s.claims
  freed : t.freed = s.freed
  live : ∀ l, t.frames.Live l ↔ s.frames.Live l

theorem SameLeases.refl : SameLeases s s := ⟨rfl, rfl, rfl, rfl, fun _ => .rfl⟩

theorem assign_exact (exact : s.frames.Exact) (holder : FrameHolder) (lease : Option RingLease) :
    (s.assign holder lease).frames.Exact := by
  rcases assign_cases exact holder lease with ⟨heq, -⟩ | ⟨old, -, -, heq⟩
  · rw [heq]
    exact exact.assign holder lease
  · rw [heq]
    exact exact.assign holder lease

theorem assign_frames (exact : s.frames.Exact) (holder : FrameHolder) (lease : Option RingLease) :
    (s.assign holder lease).frames = s.frames.assign holder lease := by
  rcases assign_cases exact holder lease with ⟨heq, -⟩ | ⟨old, -, -, heq⟩
  · rw [heq]
  · rw [heq]

/-- A holder whose lease is shared drops it, and no lease ends. -/
theorem sameLeases_assign_none (exact : s.frames.Exact) {holder other : FrameHolder} (hne : other ≠ holder)
    (shared : s.frames.holds other = s.frames.holds holder) : SameLeases s (s.assign holder none) := by
  have hlive (l : RingLease) (hl : s.frames.Live l) : (s.frames.assign holder none).Live l := by
    by_contra hdead
    have hold := Shared.live_of_assign hl hdead
    exact hdead (Shared.live_assign.mpr (.inr ⟨other, hne, shared.trans hold⟩))
  rcases assign_cases exact holder none with ⟨heq, -⟩ | ⟨old, hold, hdead, -⟩
  · rw [heq]
    refine ⟨rfl, rfl, rfl, rfl, fun l => ⟨fun hl => ?_, hlive l⟩⟩
    rcases Shared.live_assign.mp hl with hl | ⟨h', -, hl⟩
    · cases hl
    · exact ⟨h', hl⟩
  · exact absurd (hlive old ⟨holder, hold⟩) hdead

/-- A step is one change, but for what does not concern the leases. -/
theorem step_changes (exact : s.frames.Exact) {action : LeaseAction} (h : s.step action = some t) :
    ∃ u, LeaseChange s u ∧ LeaseChanges u t ∧ SameLeases u t := by
  have single {t : Leases} (hchange : LeaseChange s t) : ∃ u, LeaseChange s u ∧ LeaseChanges u t ∧ SameLeases u t :=
    ⟨t, hchange, .refl, .refl⟩
  cases action with
  | take =>
    simp only [step] at h
    split at h
    · rename_i frame hreader hidle
      exact Option.some.inj h ▸ single (.take frame hreader hidle)
    · cases h
  | read => exact single (.reads (read_reads h))
  | publish index header =>
    simp only [step, publish, Option.ite_none_right_eq_some, Option.some.injEq] at h
    obtain ⟨⟨-, hunread, hnewer⟩, rfl⟩ := h
    exact single (.publish index header hunread hnewer)
  | withdraw index =>
    simp only [step, withdraw, Option.ite_none_right_eq_some, Option.some.injEq] at h
    obtain ⟨hready, rfl⟩ := h
    exact single (.withdraw index hready)
  | setFrame =>
    simp only [step, Option.map_eq_some_iff] at h
    obtain ⟨lease, htaken, rfl⟩ := h
    have hframes := assign_frames exact .latest (some lease)
    have hstill : (s.assign .latest (some lease)).frames.holds .taken = some lease := by
      rw [hframes, Shared.assign_holds_of_ne (by simp), htaken]
    refine ⟨_, .assign .latest (some lease) (fun l hl => Option.some.inj hl ▸ ⟨.taken, htaken⟩) nofun,
      .single (.assign .taken none nofun fun _ => rfl), ?_⟩
    refine sameLeases_assign_none (assign_exact exact _ _) (show FrameHolder.latest ≠ .taken by simp) ?_
    rw [hstill, hframes, Shared.assign_holds_self]
  | clearLatestFrame =>
    obtain rfl := Option.some.inj h
    exact single (.assign .latest none nofun fun _ => rfl)
  | copyFrame =>
    simp only [step, Option.ite_none_right_eq_some, Option.some.injEq] at h
    obtain ⟨-, rfl⟩ := h
    exact single (.assign .processed _ (fun l hl => ⟨.latest, hl⟩) nofun)
  | dropFrame =>
    obtain rfl := Option.some.inj h
    exact single (.assign .processed none nofun fun _ => rfl)
  | queueJPEG client =>
    simp only [step] at h
    split at h
    · rename_i lease hprocessed _
      rw [Option.ite_none_right_eq_some, Option.some.injEq] at h
      obtain ⟨-, rfl⟩ := h
      exact single (.assign (.pending client) (some lease) (fun l hl => Option.some.inj hl ▸ ⟨.processed, hprocessed⟩) nofun)
    · cases h
  | flushJPEG client =>
    simp only [step, Option.ite_none_right_eq_some, Option.some.injEq] at h
    obtain ⟨-, rfl⟩ := h
    exact single (.assign (.pending client) none nofun fun _ => rfl)
  | newClient client =>
    simp only [step, Option.ite_none_left_eq_some, Option.some.injEq] at h
    obtain ⟨-, rfl⟩ := h
    exact single (.clients _)
  | clientGone client =>
    simp only [step, Option.ite_none_right_eq_some, Option.some.injEq] at h
    obtain ⟨-, rfl⟩ := h
    exact ⟨_, .assign (.pending client) none nofun fun _ => rfl, .single (.clients _), ⟨rfl, rfl, rfl, rfl, fun _ => .rfl⟩⟩

/-! ### The invariant -/

/-- What the slots, the frames and the claims so far say of each other. -/
structure Held (s : Leases) : Prop where
  exact : s.frames.Exact
  lease : ∀ l, s.frames.Live l → (s.ring.slots l.slot).state = .reading ∧ s.reader.owned ≠ some l.slot ∧
    ∃ q, s.claims[l.claim]? = some ⟨l.slot, q⟩
  single : ∀ l l', s.frames.Live l → s.frames.Live l' → l.slot = l'.slot → l = l'
  owned : ∀ i, s.reader.owned = some i → (s.ring.slots i).state = .reading ∧
    ∃ q, s.claims[s.claims.length - 1]? = some ⟨i, q⟩
  reading : ∀ i, (s.ring.slots i).state = .reading → s.reader.owned = some i ∨ ∃ l, s.frames.Live l ∧ l.slot = i
  idle : s.frames.holds .taken = none ∨ ∃ frame, s.reader = .returned frame
  freed_nodup : s.freed.Nodup
  freed : ∀ n, n ∈ s.freed ↔ n < s.claims.length ∧ ¬ s.InUse n

namespace Held

/-- Nothing is claimed yet. -/
theorem start {ring : Ring} (h : ∀ i, (ring.slots i).state ≠ .reading) : Held { ring } where
  exact := Shared.exact_empty
  lease := fun l ⟨_, hl⟩ => by cases hl
  single := fun l _ ⟨_, hl⟩ => by cases hl
  owned := nofun
  reading := fun i hi => absurd hi (h i)
  idle := .inl rfl
  freed_nodup := List.nodup_nil
  freed := by simp

/-- The reader moves on, or slots change that nobody reads. -/
theorem congr (h : s.Held) (reading : ∀ i, (t.ring.slots i).state = .reading ↔ (s.ring.slots i).state = .reading)
    (owned : t.reader.owned = s.reader.owned) (frames : t.frames = s.frames) (claims : t.claims = s.claims)
    (freed : t.freed = s.freed) (idle : t.frames.holds .taken = none ∨ ∃ frame, t.reader = .returned frame) : t.Held where
  exact := frames ▸ h.exact
  lease := by
    rw [frames, owned, claims]
    simpa only [reading] using h.lease
  single := by
    rw [frames]
    exact h.single
  owned := by
    rw [owned, claims]
    simpa only [reading] using h.owned
  reading := by
    rw [frames, owned]
    simpa only [reading] using h.reading
  idle := idle
  freed_nodup := freed ▸ h.freed_nodup
  freed := by
    simp only [InUse, Validating, Leases.Shared, frames, owned, claims, freed]
    exact h.freed

/-- The reader moves on in a call, with the slots as they are. -/
theorem moved (h : s.Held) {reader : Reader} (owned : reader.owned = s.reader.owned)
    (calling : ∀ frame, s.reader ≠ .returned frame) : Held { s with reader } :=
  h.congr (fun _ => .rfl) owned rfl rfl rfl (.inl (h.idle.resolve_right fun ⟨frame, hf⟩ => calling frame hf))

/-- A claim in use has not been freed, and can be. -/
theorem not_freed (h : s.Held) (hin : s.InUse n) : n ∉ s.freed := fun hf => ((h.freed n).mp hf).2 hin

theorem nodup_freed (h : s.Held) (hin : s.InUse n) : (s.freed ++ [n]).Nodup := by
  refine List.nodup_append.mpr ⟨h.freed_nodup, List.nodup_singleton n, ?_⟩
  rintro a ha b hb rfl
  rw [List.mem_singleton] at hb
  exact h.not_freed hin (hb ▸ ha)

/-- The lease of a frame is not that of the claim in progress. -/
theorem lease_lt (h : s.Held) {l : RingLease} (hl : s.frames.Live l) :
    l.claim < s.claims.length ∧ ∀ i, s.reader.owned = some i → l.claim + 1 ≠ s.claims.length := by
  obtain ⟨-, hother, q, hq⟩ := h.lease l hl
  obtain ⟨hlt, -⟩ := List.getElem?_eq_some_iff.mp hq
  refine ⟨hlt, fun i hi hlast => ?_⟩
  obtain ⟨-, q', hq'⟩ := h.owned i hi
  rw [show s.claims.length - 1 = l.claim by omega, hq, Option.some.injEq, Claim.mk.injEq] at hq'
  exact hother (hq'.1 ▸ hi)

/-- Two leases of one claim are one lease. -/
theorem lease_eq (h : s.Held) {l l' : RingLease} (hl : s.frames.Live l) (hl' : s.frames.Live l')
    (heq : l.claim = l'.claim) : l = l' := by
  obtain ⟨-, -, q, hq⟩ := h.lease l hl
  obtain ⟨-, -, q', hq'⟩ := h.lease l' hl'
  rw [← heq, hq, Option.some.injEq, Claim.mk.injEq] at hq'
  exact h.single l l' hl hl' hq'.1

/-- The reader claims a ready slot. -/
theorem claim (h : s.Held) {selected : Nat} (hreader : s.reader = .claim selected)
    (ready : (s.ring.slots selected).state = .ready) : Held { s with
      ring := s.ring.setState selected .reading
      reader := .sweep 0 selected
      claims := s.claims ++ [⟨selected, (s.ring.slots selected).sequence⟩] } := by
  have howned : s.reader.owned = none := by rw [hreader]; rfl
  refine ⟨h.exact, fun l hl => ?_, h.single, fun i hi => ?_, fun i hi => ?_, ?_, h.freed_nodup, fun n => ?_⟩
  · obtain ⟨hreading, -, q, hq⟩ := h.lease l hl
    have hne : l.slot ≠ selected := fun heq => by
      rw [heq, ready] at hreading
      cases hreading
    refine ⟨by simp [hne, hreading], fun heq => hne (Option.some.inj heq).symm, q, ?_⟩
    rw [List.getElem?_append_left (h.lease_lt hl).1]
    exact hq
  · obtain rfl : selected = i := Option.some.inj hi
    exact ⟨by simp, (s.ring.slots selected).sequence, by simp⟩
  · by_cases heq : i = selected
    · exact .inl (heq ▸ rfl)
    · have hold : (s.ring.slots i).state = .reading := by simpa [heq] using hi
      exact .inr ((h.reading i hold).resolve_left (by simp [howned]))
  · rcases h.idle with hidle | ⟨frame, hret⟩
    · exact .inl hidle
    · rw [hreader] at hret
      cases hret
  · rw [h.freed n]
    rw [List.length_append, List.length_singleton]
    constructor
    · rintro ⟨hlt, hunused⟩
      refine ⟨by omega, ?_⟩
      rintro (⟨-, hlast⟩ | hshared)
      · rw [List.length_append, List.length_singleton] at hlast
        omega
      · exact hunused (.inr hshared)
    · rintro ⟨hlt, hunused⟩
      have hne : n ≠ s.claims.length := fun heq => hunused (.inl ⟨rfl, by simp [heq]⟩)
      refine ⟨by omega, ?_⟩
      rintro (⟨hf, -⟩ | hshared)
      · simp [howned] at hf
      · exact hunused (.inr hshared)

/-- The claim in progress is that of the slot which the reader owns. -/
theorem owned_last (h : s.Held) {selected : Nat} (hreader : s.reader = .validate selected) :
    0 < s.claims.length ∧ (s.ring.slots selected).state = .reading ∧
      ∃ q, s.claims[s.claims.length - 1]? = some ⟨selected, q⟩ := by
  obtain ⟨hreading, q, hq⟩ := h.owned selected (by rw [hreader]; rfl)
  obtain ⟨hlt, -⟩ := List.getElem?_eq_some_iff.mp hq
  exact ⟨by omega, hreading, q, hq⟩

/-- While a claim is validated, the reader has no frame. -/
theorem idle_of_validate (h : s.Held) {selected : Nat} (hreader : s.reader = .validate selected) :
    s.frames.holds .taken = none :=
  h.idle.resolve_right fun ⟨f, hf⟩ => by
    rw [hreader] at hf
    cases hf

/-- The frame that is returned shares the lease of its claim. -/
theorem valid (h : s.Held) {selected : Nat} (frame : LeasedFrame) (hreader : s.reader = .validate selected) :
    Held (({ s with reader := .returned (some frame) } : Leases).assign .taken
      (some ⟨s.claims.length - 1, selected⟩)) := by
  have howned : s.reader.owned = some selected := by rw [hreader]; rfl
  have hidle : s.frames.holds .taken = none := h.idle_of_validate hreader
  obtain ⟨hpos, hreading, q, hq⟩ := h.owned_last hreader
  have hlive (l : RingLease) : (s.frames.assign .taken (some ⟨s.claims.length - 1, selected⟩)).Live l ↔
      l = ⟨s.claims.length - 1, selected⟩ ∨ s.frames.Live l := by
    rw [Shared.live_assign, Option.some.injEq]
    refine or_congr eq_comm ⟨fun ⟨h', _, hh'⟩ => ⟨h', hh'⟩, fun ⟨h', hh'⟩ => ⟨h', fun heq => ?_, hh'⟩⟩
    rw [heq, hidle] at hh'
    cases hh'
  rw [assign_empty (s := { s with reader := .returned (some frame) }) hidle]
  refine ⟨h.exact.assign _ _, fun l hl => ?_, fun l l' hl hl' heq => ?_, nofun, fun i hi => ?_, .inr ⟨_, rfl⟩,
    h.freed_nodup, fun n => ?_⟩
  · rcases (hlive l).mp hl with rfl | hl
    · exact ⟨hreading, nofun, q, hq⟩
    · obtain ⟨hreading, -, hq⟩ := h.lease l hl
      exact ⟨hreading, nofun, hq⟩
  · have hother (l : RingLease) (hl : s.frames.Live l) : l.slot ≠ selected := fun heq =>
      (h.lease l hl).2.1 (heq ▸ howned)
    rcases (hlive l).mp hl with rfl | hl <;> rcases (hlive l').mp hl' with rfl | hl'
    · rfl
    · exact absurd heq.symm (hother l' hl')
    · exact absurd heq (hother l hl)
    · exact h.single l l' hl hl' heq
  · rcases h.reading i hi with hi | ⟨l, hl, hslot⟩
    · rw [howned] at hi
      exact .inr ⟨_, (hlive _).mpr (.inl rfl), Option.some.inj hi⟩
    · exact .inr ⟨l, (hlive l).mpr (.inr hl), hslot⟩
  · rw [h.freed n]
    refine and_congr_right fun hlt => not_congr ?_
    constructor
    · rintro (⟨-, hlast⟩ | ⟨l, hn, hl⟩)
      · exact .inr ⟨⟨s.claims.length - 1, selected⟩, by simp; omega, (hlive _).mpr (.inl rfl)⟩
      · exact .inr ⟨l, hn, (hlive l).mpr (.inr hl)⟩
    · rintro (⟨hf, -⟩ | ⟨l, hn, hl⟩)
      · cases hf
      · rcases (hlive l).mp hl with rfl | hl
        · exact .inl ⟨by simp [howned], by simp at hn; omega⟩
        · exact .inr ⟨l, hn, hl⟩

/-- The header of the claimed slot is not valid, and the slot is freed. -/
theorem invalid (h : s.Held) {selected : Nat} (hreader : s.reader = .validate selected) : Held { s with
    ring := s.ring.setState selected .free, reader := .returned none, freed := s.freed ++ [s.claims.length - 1] } := by
  have howned : s.reader.owned = some selected := by rw [hreader]; rfl
  obtain ⟨hpos, hreading, q, hq⟩ := h.owned_last hreader
  have hvalidating : s.Validating (s.claims.length - 1) := ⟨by rw [howned]; rfl, by omega⟩
  refine ⟨h.exact, fun l hl => ?_, h.single, nofun, fun i hi => ?_, .inr ⟨_, rfl⟩, ?_, fun n => ?_⟩
  · obtain ⟨hreading, hother, hq⟩ := h.lease l hl
    have hne : l.slot ≠ selected := fun heq => hother (heq ▸ howned)
    exact ⟨by simp [hne, hreading], nofun, hq⟩
  · have hne : i ≠ selected := fun heq => by simp [heq] at hi
    have hold : (s.ring.slots i).state = .reading := by simpa [hne] using hi
    refine .inr ((h.reading i hold).resolve_left fun heq => hne ?_)
    exact (Option.some.inj (howned.symm.trans heq)).symm
  · exact h.nodup_freed (.inl hvalidating)
  · rw [List.mem_append, List.mem_singleton, h.freed n]
    constructor
    · rintro (⟨hlt, hunused⟩ | rfl)
      · exact ⟨hlt, fun hin => hunused (hin.imp (fun hv => by cases hv.1) id)⟩
      · refine ⟨Nat.sub_lt hpos Nat.zero_lt_one, ?_⟩
        rintro (⟨hf, -⟩ | ⟨l, hn, hl⟩)
        · cases hf
        · exact (h.lease_lt hl).2 selected howned (by omega)
    · rintro ⟨hlt, hunused⟩
      by_cases hlast : n + 1 = s.claims.length
      · exact .inr (by omega)
      · exact .inl ⟨hlt, fun hin => hunused (hin.imp (fun hv => absurd hv.2 hlast) id)⟩

/-- A frame that is there is assigned to a holder. -/
theorem assign (h : s.Held) {holder : FrameHolder} {lease : Option RingLease} (live : ∀ l, lease = some l → s.frames.Live l)
    (taken : holder = .taken → lease = none) : Held (s.assign holder lease) := by
  have hdropped {l : RingLease} (hl : (s.frames.assign holder lease).Live l) : s.frames.Live l := by
    rcases Shared.live_assign.mp hl with hl | ⟨h', -, hl⟩
    · exact live l hl
    · exact ⟨h', hl⟩
  have hidle : (s.frames.assign holder lease).holds .taken = none ∨ ∃ frame, s.reader = .returned frame := by
    by_cases heq : .taken = holder
    · subst heq
      exact .inl (by rw [Shared.assign_holds_self, taken rfl])
    · rw [Shared.assign_holds_of_ne heq]
      exact h.idle
  rcases assign_cases h.exact holder lease with ⟨heq, hkept⟩ | ⟨old, hold, hdead, heq⟩
  · rw [heq]
    have hlive (l : RingLease) : (s.frames.assign holder lease).Live l ↔ s.frames.Live l := ⟨hdropped, hkept l⟩
    refine ⟨h.exact.assign _ _, fun l hl => h.lease l (hdropped hl),
      fun l l' hl hl' => h.single l l' (hdropped hl) (hdropped hl'), h.owned, fun i hi => ?_, hidle, h.freed_nodup,
      fun n => ?_⟩
    · exact (h.reading i hi).imp id fun ⟨l, hl, hslot⟩ => ⟨l, hkept l hl, hslot⟩
    · rw [h.freed n]
      refine and_congr_right fun _ => not_congr (or_congr_right ?_)
      exact exists_congr fun l => and_congr_right fun _ => (hlive l).symm
  · have hlold : s.frames.Live old := ⟨holder, hold⟩
    obtain ⟨hltold, hlast⟩ := h.lease_lt hlold
    have hne {l : RingLease} (hl : (s.frames.assign holder lease).Live l) : l.slot ≠ old.slot := fun hslot =>
      hdead (h.single l old (hdropped hl) hlold hslot ▸ hl)
    have hkept {l : RingLease} (hl : s.frames.Live l) (hother : l ≠ old) : (s.frames.assign holder lease).Live l := by
      by_contra hgone
      exact hother (Option.some.inj ((Shared.live_of_assign hl hgone).symm.trans hold))
    rw [heq]
    refine ⟨h.exact.assign _ _, fun l hl => ?_, fun l l' hl hl' => h.single l l' (hdropped hl) (hdropped hl'),
      fun i hi => ?_, fun i hi => ?_, hidle, ?_, fun n => ?_⟩
    · obtain ⟨hreading, howned, hq⟩ := h.lease l (hdropped hl)
      exact ⟨by simp [hne hl, hreading], howned, hq⟩
    · obtain ⟨hreading, hq⟩ := h.owned i hi
      have hother : i ≠ old.slot := fun heq => (h.lease old hlold).2.1 (heq ▸ hi)
      exact ⟨by simp [hother, hreading], hq⟩
    · have hother : i ≠ old.slot := fun heq => by simp [heq] at hi
      have hreading : (s.ring.slots i).state = .reading := by simpa [hother] using hi
      refine (h.reading i hreading).imp id fun ⟨l, hl, hslot⟩ => ⟨l, hkept hl fun heq => ?_, hslot⟩
      exact hother (heq ▸ hslot.symm)
    · exact h.nodup_freed (.inr ⟨old, rfl, hlold⟩)
    · rw [List.mem_append, List.mem_singleton, h.freed n]
      constructor
      · rintro (⟨hlt, hunused⟩ | rfl)
        · exact ⟨hlt, fun hin => hunused (hin.imp id fun ⟨l, hn, hl⟩ => ⟨l, hn, hdropped hl⟩)⟩
        · refine ⟨hltold, ?_⟩
          rintro (⟨howned, hn⟩ | ⟨l, hn, hl⟩)
          · obtain ⟨i, hi⟩ := Option.isSome_iff_exists.mp howned
            exact hlast i hi hn
          · exact hdead (h.lease_eq (hdropped hl) hlold hn ▸ hl)
      · rintro ⟨hlt, hunused⟩
        by_cases hn : n = old.claim
        · exact .inr hn
        · refine .inl ⟨hlt, fun hin => hunused (hin.imp id fun ⟨l, hln, hl⟩ => ⟨l, hln, hkept hl fun heq => ?_⟩)⟩
          exact hn (heq ▸ hln.symm)

theorem of_reads (h : s.Held) (hreads : Reads s t) : t.Held := by
  cases hreads with
  | start hr =>
    have hmoved : Held { s with reader := .scan 0 none 0 } := h.moved (by rw [hr]; rfl) (by simp [hr])
    exact hmoved.congr (fun _ => .rfl) rfl rfl rfl rfl hmoved.idle
  | select index selected newest hr _ => exact h.moved (by rw [hr]; rfl) (by simp [hr])
  | pass index selected newest hr => exact h.moved (by rw [hr]; rfl) (by simp [hr])
  | found index selected newest hr => exact h.moved (by rw [hr]; rfl) (by simp [hr])
  | nothing hr => exact h.congr (fun _ => .rfl) (by rw [hr]; rfl) rfl rfl rfl (.inr ⟨none, rfl⟩)
  | claim selected hr ready => exact h.claim hr ready
  | sweep index selected hr ready =>
    have hmoved : Held { s with reader := .sweep (index + 1) selected } := h.moved (by rw [hr]; rfl) (by simp [hr])
    refine hmoved.congr (fun i => ?_) rfl rfl rfl rfl hmoved.idle
    by_cases hi : i = index
    · simp [hi, ready]
    · simp [hi]
  | skip index selected hr _ => exact h.moved (by rw [hr]; rfl) (by simp [hr])
  | swept index selected hr _ => exact h.moved (by rw [hr]; rfl) (by simp [hr])
  | valid selected frame hr _ _ => exact h.valid frame hr
  | invalid selected hr _ => exact h.invalid hr

theorem of_change (h : s.Held) (hchange : LeaseChange s t) : t.Held := by
  cases hchange with
  | reads hreads => exact h.of_reads hreads
  | take frame hr idle => exact h.congr (fun _ => .rfl) (by rw [hr]; rfl) rfl rfl rfl (.inl idle)
  | publish index header unread newer =>
    refine h.congr (fun i => ?_) rfl rfl rfl rfl h.idle
    by_cases hi : i = index
    · subst hi
      rw [Ring.put_self]
      simp [unread]
    · rw [Ring.put_of_ne hi]
  | withdraw index ready =>
    refine h.congr (fun i => ?_) rfl rfl rfl rfl h.idle
    by_cases hi : i = index
    · simp [hi, ready]
    · simp [hi]
  | assign holder lease live taken => exact h.assign live taken
  | clients clients => exact h.congr (fun _ => .rfl) rfl rfl rfl rfl h.idle

end Held

/-! ### The sequences that are claimed -/

/-- What is ready is newer than every claim, but for what the sweep of the last one has still to free. -/
structure Rising (s : Leases) : Prop where
  published : ∀ i, (s.ring.slots i).state = .ready → (s.ring.slots i).sequence ≤ s.ring.lastSequence
  claimed : ∀ c ∈ s.claims, c.sequence ≤ s.ring.lastSequence
  rising : (s.claims.map (·.sequence)).Pairwise (· < ·)
  selected : ∀ k, s.reader.selected = some k → s.reader.claimed = false → k < s.ring.slotCount
  newer : ∀ i < s.ring.slotCount, (s.ring.slots i).state = .ready →
    (∃ index selected, s.reader = .sweep index selected ∧ index ≤ i) ∨ ∀ c ∈ s.claims, c.sequence < (s.ring.slots i).sequence

namespace Rising

theorem start {ring : Ring} (h : ∀ i, (ring.slots i).state = .ready → (ring.slots i).sequence ≤ ring.lastSequence) :
    Rising { ring } where
  published := h
  claimed := nofun
  rising := .nil
  selected := nofun
  newer := fun _ _ _ => .inr nofun

/-- Slots that were ready may no longer be. -/
theorem congr (h : s.Rising) (count : t.ring.slotCount = s.ring.slotCount)
    (last : t.ring.lastSequence = s.ring.lastSequence) (claims : t.claims = s.claims)
    (ready : ∀ i, (t.ring.slots i).state = .ready →
      (s.ring.slots i).state = .ready ∧ (t.ring.slots i).sequence = (s.ring.slots i).sequence)
    (selected : ∀ k, t.reader.selected = some k → t.reader.claimed = false → k < s.ring.slotCount)
    (newer : ∀ i < s.ring.slotCount, (t.ring.slots i).state = .ready → ∀ index k, s.reader = .sweep index k → index ≤ i →
      ∃ index k, t.reader = .sweep index k ∧ index ≤ i) : t.Rising where
  published i hi := by
    rw [(ready i hi).2, last]
    exact h.published i (ready i hi).1
  claimed := by
    rw [claims, last]
    exact h.claimed
  rising := by
    rw [claims]
    exact h.rising
  selected := by
    rw [count]
    exact selected
  newer i hi hready := by
    rw [count] at hi
    rw [(ready i hready).2, claims]
    rcases h.newer i hi (ready i hready).1 with ⟨index, k, hr, hle⟩ | hall
    · exact .inl (newer i hi hready index k hr hle)
    · exact .inr hall

/-- The reader moves on, but not from a sweep. -/
theorem moved (h : s.Rising) {reader : Reader}
    (selected : ∀ k, reader.selected = some k → reader.claimed = false → k < s.ring.slotCount)
    (unswept : ∀ index k, s.reader ≠ .sweep index k) : Rising { s with reader } :=
  h.congr rfl rfl rfl (fun _ hi => ⟨hi, rfl⟩) selected fun _ _ _ index k hs => absurd hs (unswept index k)

theorem ready_setState {ring : Ring} {j : Nat} {state : RingState} (hne : state ≠ .ready) {i : Nat}
    (hi : ((ring.setState j state).slots i).state = .ready) :
    (ring.slots i).state = .ready ∧ ((ring.setState j state).slots i).sequence = (ring.slots i).sequence := by
  rw [Ring.setState_state] at hi
  split at hi
  · exact absurd hi hne
  · exact ⟨hi, Ring.setState_sequence⟩

/-- A ready slot is claimed: it is newer than every claim before. -/
theorem claim (h : s.Rising) {selected : Nat} (hreader : s.reader = .claim selected)
    (ready : (s.ring.slots selected).state = .ready) : Rising { s with
      ring := s.ring.setState selected .reading
      reader := .sweep 0 selected
      claims := s.claims ++ [⟨selected, (s.ring.slots selected).sequence⟩] } := by
  have hnewer : ∀ c ∈ s.claims, c.sequence < (s.ring.slots selected).sequence := by
    have hcount : selected < s.ring.slotCount := h.selected selected (by rw [hreader]; rfl) (by rw [hreader]; rfl)
    refine (h.newer selected hcount ready).resolve_left fun ⟨index, k, hr, _⟩ => ?_
    rw [hreader] at hr
    cases hr
  refine ⟨fun i hi => ?_, fun c hc => ?_, ?_, nofun, fun i _ _ => .inl ⟨0, selected, rfl, Nat.zero_le _⟩⟩
  · obtain ⟨hold, hseq⟩ := ready_setState (by simp) hi
    rw [hseq]
    exact h.published i hold
  · rcases List.mem_append.mp hc with hc | hc
    · exact h.claimed c hc
    · rw [List.mem_singleton.mp hc]
      exact h.published selected ready
  · rw [List.map_append, List.pairwise_append]
    refine ⟨h.rising, List.pairwise_singleton _ _, fun a ha b hb => ?_⟩
    obtain ⟨c, hc, rfl⟩ := List.mem_map.mp ha
    rw [List.map_singleton, List.mem_singleton] at hb
    exact hb ▸ hnewer c hc

theorem assign (h : s.Rising) (exact : s.frames.Exact) (holder : FrameHolder) (lease : Option RingLease) :
    Rising (s.assign holder lease) := by
  rcases assign_cases exact holder lease with ⟨heq, -⟩ | ⟨old, -, -, heq⟩
  · rw [heq]
    exact ⟨h.published, h.claimed, h.rising, h.selected, h.newer⟩
  · rw [heq]
    exact h.congr rfl rfl rfl (fun i hi => ready_setState (by simp) hi) h.selected fun _ _ _ index k hr hle =>
      ⟨index, k, hr, hle⟩

theorem of_reads (h : s.Rising) (held : s.Held) (hreads : Reads s t) : t.Rising := by
  cases hreads with
  | start hr => exact h.congr rfl rfl rfl (fun i hi => ⟨hi, rfl⟩) nofun fun _ _ _ _ _ hs => by simp [hr] at hs
  | select index selected newest hr hi => exact h.moved (fun k hk _ => Option.some.inj hk ▸ hi) (by simp [hr])
  | pass index selected newest hr =>
    refine h.moved (fun k hk _ => ?_) (by simp [hr])
    exact h.selected k (by rw [hr]; exact hk) (by rw [hr]; rfl)
  | found index selected newest hr =>
    refine h.moved (fun k hk _ => ?_) (by simp [hr])
    exact h.selected k (by rw [hr]; exact hk) (by rw [hr]; rfl)
  | nothing hr =>
    refine h.moved nofun fun index k hs => ?_
    rw [hs] at hr
    cases hr
  | claim selected hr ready => exact h.claim hr ready
  | sweep index selected hr ready =>
    refine h.congr rfl rfl rfl (fun i hi => ready_setState (by simp) hi) nofun fun i _ hready j k hs hle => ?_
    -- The slot that was just freed is not ready, so the others are still ahead of the sweep.
    rw [hr] at hs
    cases hs
    refine ⟨_, _, rfl, ?_⟩
    have hne : i ≠ index := fun heq => by simp [heq] at hready
    omega
  | skip index selected hr hskip =>
    refine h.congr rfl rfl rfl (fun i hi => ⟨hi, rfl⟩) nofun fun i _ hready j k hs hle => ?_
    rw [hr] at hs
    cases hs
    refine ⟨_, _, rfl, ?_⟩
    have hne : i ≠ index := fun heq => by
      rcases hskip with hsel | hnot
      · have hreading := (held.owned selected (by rw [hr]; rfl)).1
        rw [← hsel, ← heq] at hreading
        rw [hreading] at hready
        cases hready
      · exact hnot (heq ▸ hready)
    omega
  | swept index selected hr hi =>
    refine h.congr rfl rfl rfl (fun i hi => ⟨hi, rfl⟩) nofun fun i hcount _ j k hs hle => ?_
    rw [hr] at hs
    cases hs
    omega
  | valid selected frame hr _ _ =>
    have hmoved : Rising { s with reader := .returned (some frame) } := h.moved nofun (by simp [hr])
    exact hmoved.assign held.exact _ _
  | invalid selected hr _ =>
    exact h.congr rfl rfl rfl (fun i hi => ready_setState (by simp) hi) nofun fun _ _ _ _ _ hs => by simp [hr] at hs

theorem of_change (h : s.Rising) (held : s.Held) (hchange : LeaseChange s t) : t.Rising := by
  cases hchange with
  | reads hreads => exact h.of_reads held hreads
  | take frame hr _ => exact h.moved nofun (by simp [hr])
  | publish index header unread newer =>
    refine ⟨fun i hi => ?_, fun c hc => ?_, h.rising, h.selected, fun i hi hready => ?_⟩
    · by_cases heq : i = index
      · rw [heq, Ring.put_self]
        exact UInt64.le_refl _
      · rw [Ring.put_of_ne heq] at hi ⊢
        exact UInt64.le_trans (h.published i hi) (UInt64.le_of_lt newer)
    · exact UInt64.le_trans (h.claimed c hc) (UInt64.le_of_lt newer)
    · by_cases heq : i = index
      · refine .inr fun c hc => ?_
        rw [heq, Ring.put_self]
        exact UInt64.lt_of_le_of_lt (h.claimed c hc) newer
      · rw [Ring.put_of_ne heq] at hready ⊢
        exact h.newer i hi hready
  | withdraw index _ =>
    exact h.congr rfl rfl rfl (fun i hi => ready_setState (by simp) hi) h.selected fun _ _ _ index k hr hle =>
      ⟨index, k, hr, hle⟩
  | assign holder lease _ _ => exact h.assign held.exact holder lease
  | clients clients => exact ⟨h.published, h.claimed, h.rising, h.selected, h.newer⟩

end Rising

/-! ### What becomes of a slot that is being read -/

/-- A slot that is being read, for a claim, stays as it is while the claim is in use. It is freed, and the claim
    with it, by the drop of the last frame that shares the lease, or because its header is not valid. -/
def SlotFate (s t : Leases) (i n : Nat) : Prop :=
  (t.ring.slots i = s.ring.slots i ∧ t.InUse n) ∨
    (t.ring.slots i = { s.ring.slots i with state := .free } ∧ n ∉ s.freed ∧ n ∈ t.freed ∧ ¬ t.InUse n ∧
      ((s.Shared n ∧ ¬ t.Shared n) ∨
        (s.reader = .validate i ∧ s.ring.valid (s.ring.slots i) = false ∧ t.reader = .returned none)))

theorem SameLeases.inUse (h : SameLeases s t) (n : Nat) : t.InUse n ↔ s.InUse n := by
  refine or_congr ?_ (exists_congr fun l => and_congr_right fun _ => h.live l)
  rw [Validating, h.reader, h.claims]
  rfl

theorem SlotFate.congr {u : Leases} (h : SlotFate s u i n) (same : SameLeases u t) : SlotFate s t i n := by
  have hshared : t.Shared n ↔ u.Shared n := exists_congr fun l => and_congr_right fun _ => same.live l
  unfold SlotFate
  rw [same.ring, same.freed, same.inUse, same.reader, hshared]
  exact h

theorem setState_slots_self {ring : Ring} (i : Nat) (state : RingState) :
    (ring.setState i state).slots i = { ring.slots i with state } := by
  simp [Ring.setState]

theorem setState_slots_of_ne {ring : Ring} {i j : Nat} {state : RingState} (h : i ≠ j) :
    (ring.setState j state).slots i = ring.slots i := by
  simp [Ring.setState, h]

namespace Held

/-- The slot of a claim in use is being read. -/
theorem reading_of_inUse (h : s.Held) {q : UInt64} (hclaim : s.claims[n]? = some ⟨i, q⟩) (hin : s.InUse n) :
    (s.ring.slots i).state = .reading ∧ (s.Validating n → s.reader.owned = some i) ∧
      (s.Shared n → s.frames.Live ⟨n, i⟩) := by
  have hvalidating : s.Validating n → s.reader.owned = some i := by
    rintro ⟨howned, hlast⟩
    obtain ⟨j, hj⟩ := Option.isSome_iff_exists.mp howned
    obtain ⟨-, q', hq'⟩ := h.owned j hj
    rw [show s.claims.length - 1 = n by omega, hclaim, Option.some.injEq, Claim.mk.injEq] at hq'
    rw [hj, hq'.1]
  have hshared : s.Shared n → s.frames.Live ⟨n, i⟩ := by
    rintro ⟨⟨claim, slot⟩, rfl, hl⟩
    obtain ⟨-, -, q', hq'⟩ := h.lease _ hl
    rw [hclaim, Option.some.injEq, Claim.mk.injEq] at hq'
    exact hq'.1 ▸ hl
  refine ⟨?_, hvalidating, hshared⟩
  rcases hin with hv | hs
  · exact (h.owned i (hvalidating hv)).1
  · exact (h.lease _ (hshared hs)).1

/-- The claim is not freed, and its slot is left alone. -/
theorem fate_kept (h : s.Held) (ht : t.Held) (hlt : n < t.claims.length) (hin : s.InUse n)
    (freed : n ∈ t.freed → n ∈ s.freed) (slot : t.ring.slots i = s.ring.slots i) : SlotFate s t i n := by
  refine .inl ⟨slot, ?_⟩
  by_contra hout
  exact h.not_freed hin (freed ((ht.freed n).mpr ⟨hlt, hout⟩))

theorem fate_assign (h : s.Held) {holder : FrameHolder} {lease : Option RingLease}
    (live : ∀ l, lease = some l → s.frames.Live l) (taken : holder = .taken → lease = none) {q : UInt64}
    (hclaim : s.claims[n]? = some ⟨i, q⟩) (hin : s.InUse n) : SlotFate s (s.assign holder lease) i n := by
  have ht := h.assign live taken
  obtain ⟨hlt, -⟩ := List.getElem?_eq_some_iff.mp hclaim
  obtain ⟨-, hvalidating, hshared⟩ := h.reading_of_inUse hclaim hin
  rcases assign_cases h.exact holder lease with ⟨heq, -⟩ | ⟨old, hold, hdead, heq⟩
  · rw [heq] at ht ⊢
    exact h.fate_kept ht hlt hin id rfl
  · rw [heq] at ht ⊢
    obtain ⟨-, hother, q', hq'⟩ := h.lease old ⟨holder, hold⟩
    by_cases hn : n = old.claim
    · subst hn
      rw [hclaim, Option.some.injEq, Claim.mk.injEq] at hq'
      have hfreed : old.claim ∈ s.freed ++ [old.claim] := by simp
      have hout := ((ht.freed _).mp hfreed).2
      refine .inr ⟨?_, h.not_freed hin, hfreed, hout, .inl ⟨⟨old, rfl, holder, hold⟩, fun hs => hout (.inr hs)⟩⟩
      rw [hq'.1]
      exact setState_slots_self _ _
    · have hne : i ≠ old.slot := by
        rintro rfl
        rcases hin with hv | hs
        · exact hother (hvalidating hv)
        · exact hn (congrArg RingLease.claim (h.single _ _ (hshared hs) ⟨holder, hold⟩ rfl))
      exact h.fate_kept ht hlt hin (fun hf => (List.mem_append.mp hf).resolve_right (by simpa using hn))
        (setState_slots_of_ne hne)

theorem fate_reads (h : s.Held) (hreads : Reads s t) {q : UInt64} (hclaim : s.claims[n]? = some ⟨i, q⟩)
    (hin : s.InUse n) : SlotFate s t i n := by
  have ht := h.of_reads hreads
  obtain ⟨hlt, -⟩ := List.getElem?_eq_some_iff.mp hclaim
  obtain ⟨hreading, -, -⟩ := h.reading_of_inUse hclaim hin
  have hne {j : Nat} (ready : (s.ring.slots j).state = .ready) : i ≠ j := by
    rintro rfl
    rw [ready] at hreading
    cases hreading
  cases hreads with
  | start _ | select _ _ _ _ _ | pass _ _ _ _ | found _ _ _ _ | nothing _ | skip _ _ _ _ | swept _ _ _ _ =>
    exact h.fate_kept ht hlt hin id rfl
  | claim selected _ ready =>
    refine h.fate_kept ht ?_ hin id (setState_slots_of_ne (hne ready))
    rw [List.length_append]
    omega
  | sweep index selected _ ready => exact h.fate_kept ht hlt hin id (setState_slots_of_ne (hne ready))
  | valid selected frame hr _ _ =>
    rw [assign_empty (s := { s with reader := .returned (some frame) }) (h.idle_of_validate hr)] at ht ⊢
    exact h.fate_kept ht hlt hin id rfl
  | invalid selected hr hvalid =>
    have howned : s.reader.owned = some selected := by rw [hr]; rfl
    obtain ⟨hpos, -, q', hq'⟩ := h.owned_last hr
    obtain ⟨-, -, hshared⟩ := h.reading_of_inUse hclaim hin
    by_cases hlast : n = s.claims.length - 1
    · subst hlast
      rw [hclaim, Option.some.injEq, Claim.mk.injEq] at hq'
      obtain ⟨rfl, -⟩ := hq'
      have hfreed : s.claims.length - 1 ∈ s.freed ++ [s.claims.length - 1] := by simp
      exact .inr ⟨setState_slots_self _ _, h.not_freed hin, hfreed, ((ht.freed _).mp hfreed).2, .inr ⟨hr, hvalid, rfl⟩⟩
    · have hslot : i ≠ selected := by
        rintro rfl
        rcases hin with ⟨-, hv⟩ | hs
        · omega
        · exact (h.lease _ (hshared hs)).2.1 howned
      exact h.fate_kept ht hlt hin (fun hf => (List.mem_append.mp hf).resolve_right (by simpa using hlast))
        (setState_slots_of_ne hslot)

/-- A change leaves the slot of a claim in use alone, or ends the claim. -/
theorem fate (h : s.Held) (hchange : LeaseChange s t) {q : UInt64} (hclaim : s.claims[n]? = some ⟨i, q⟩)
    (hin : s.InUse n) : SlotFate s t i n := by
  have ht := h.of_change hchange
  obtain ⟨hlt, -⟩ := List.getElem?_eq_some_iff.mp hclaim
  obtain ⟨hreading, -, -⟩ := h.reading_of_inUse hclaim hin
  cases hchange with
  | reads hreads => exact h.fate_reads hreads hclaim hin
  | take _ _ _ | clients _ => exact h.fate_kept ht hlt hin id rfl
  | publish index header unread _ =>
    have hne : i ≠ index := fun heq => unread (heq ▸ hreading)
    exact h.fate_kept ht hlt hin id (Ring.put_of_ne hne)
  | withdraw index ready =>
    have hne : i ≠ index := by
      rintro rfl
      rw [ready] at hreading
      cases hreading
    exact h.fate_kept ht hlt hin id (setState_slots_of_ne hne)
  | assign holder lease live taken => exact h.fate_assign live taken hclaim hin

end Held

/-! ### Runs -/

/-- A ring that a reader may be given: nothing is being read, and what is ready has been published. -/
structure Fresh (ring : Ring) : Prop where
  unread : ∀ i, (ring.slots i).state ≠ .reading
  published : ∀ i, (ring.slots i).state = .ready → (ring.slots i).sequence ≤ ring.lastSequence

theorem held_step (h : s.Held ∧ s.Rising) {action : LeaseAction} (hstep : s.step action = some t) : t.Held ∧ t.Rising := by
  obtain ⟨u, hfirst, hrest, -⟩ := step_changes h.1.exact hstep
  have keep {s t : Leases} (h : s.Held ∧ s.Rising) (hchange : LeaseChange s t) : t.Held ∧ t.Rising :=
    ⟨h.1.of_change hchange, h.2.of_change h.1 hchange⟩
  have hu := keep h hfirst
  clear hstep
  induction hrest with
  | refl => exact hu
  | tail _ hlast ih => exact keep ih hlast

theorem run_held {ring : Ring} (fresh : Fresh ring) {actions : List LeaseAction}
    (h : run step { ring } actions = some t) : t.Held ∧ t.Rising :=
  run_invariant (P := fun u => u.Held ∧ u.Rising) ⟨Held.start fresh.unread, Rising.start fresh.published⟩
    (fun _ _ _ hu ha => held_step hu ha) h

end Leases

/-- Leases are exact, after every run of the reader, the writer and the holders of frames. A slot is READING
    while the reader owns it or a frame shares its lease. A claim frees its slot once, when it is no longer in
    use. A step leaves a slot that is being read alone, or ends its claim. Each claim is for a newer frame. -/
theorem leases_exact {ring : Ring} (fresh : Leases.Fresh ring) {actions : List LeaseAction} {t : Leases}
    (h : run Leases.step { ring } actions = some t) :
    (∀ i, (t.ring.slots i).state = .reading ↔
      t.reader.owned = some i ∨ ∃ holder lease, t.frames.holds holder = some lease ∧ lease.slot = i) ∧
    (t.freed.Nodup ∧ ∀ n, n ∈ t.freed ↔ n < t.claims.length ∧ ¬ t.InUse n) ∧
    (∀ action u, t.step action = some u → ∀ i, (t.ring.slots i).state = .reading →
      ∃ n q, t.claims[n]? = some ⟨i, q⟩ ∧ t.InUse n ∧ Leases.SlotFate t u i n) ∧
    (t.claims.map (·.sequence)).Pairwise (· < ·) := by
  obtain ⟨hheld, hrising⟩ := Leases.run_held fresh h
  refine ⟨fun i => ⟨fun hi => ?_, ?_⟩, ⟨hheld.freed_nodup, hheld.freed⟩, fun action u hstep i hi => ?_, hrising.rising⟩
  · refine (hheld.reading i hi).imp id ?_
    rintro ⟨lease, ⟨holder, hholds⟩, hslot⟩
    exact ⟨holder, lease, hholds, hslot⟩
  · rintro (howned | ⟨holder, lease, hholds, rfl⟩)
    · exact (hheld.owned i howned).1
    · exact (hheld.lease lease ⟨holder, hholds⟩).1
  · obtain ⟨n, q, hclaim, hin⟩ : ∃ n q, t.claims[n]? = some ⟨i, q⟩ ∧ t.InUse n := by
      rcases hheld.reading i hi with howned | ⟨lease, hlive, rfl⟩
      · obtain ⟨-, q, hq⟩ := hheld.owned i howned
        obtain ⟨hlt, -⟩ := List.getElem?_eq_some_iff.mp hq
        exact ⟨_, q, hq, .inl ⟨by rw [howned]; rfl, by omega⟩⟩
      · obtain ⟨-, -, q, hq⟩ := hheld.lease lease hlive
        exact ⟨lease.claim, q, hq, .inr ⟨lease, rfl, hlive⟩⟩
    obtain ⟨v, hchange, -, hsame⟩ := Leases.step_changes hheld.exact hstep
    exact ⟨n, q, hclaim, hin, (hheld.fate hchange hclaim hin).congr hsame⟩

/-- The steps of a call that takes a frame from two slots and hands it to `SetFrame`. -/
def takeAndSet : List LeaseAction := .take :: List.replicate 9 .read ++ [.setFrame]

/-- A client is still being sent the first frame when the second one replaces it, and then is done. -/
def slowClient : List LeaseAction :=
  takeAndSet ++ [.newClient 0, .copyFrame, .queueJPEG 0, .dropFrame, .publish 1 (readyFrame 2)] ++ takeAndSet ++
    [.flushJPEG 0]

/-- The slot of the first frame is freed by the slow client, that of the second one is still being read. -/
theorem leases_exact_slow_client : ∃ t, run Leases.step { ring := twoSlots } slowClient = some t ∧ t.freed = [0] ∧
    t.claims = [⟨0, 1⟩, ⟨1, 2⟩] ∧ (t.ring.slots 0).state = .free ∧
    ((t.ring.slots 1).state = .reading ↔
      t.reader.owned = some 1 ∨ ∃ holder lease, t.frames.holds holder = some lease ∧ lease.slot = 1) := by
  have fresh : Leases.Fresh twoSlots := by
    refine ⟨fun i => ?_, fun i hi => ?_⟩
    · unfold twoSlots
      dsimp only
      split <;> simp [readyFrame]
    · by_cases h0 : i = 0
      · subst h0
        decide
      · simp [twoSlots, h0] at hi
  have hrun : (run Leases.step { ring := twoSlots } slowClient).map (fun t =>
      (t.freed, t.claims, (t.ring.slots 0).state)) = some ([0], [⟨0, 1⟩, ⟨1, 2⟩], .free) := by decide +kernel
  obtain ⟨t, h, hstate⟩ := Option.map_eq_some_iff.mp hrun
  obtain ⟨hfreed, hstate⟩ := Prod.mk.inj hstate
  obtain ⟨hclaims, hfree⟩ := Prod.mk.inj hstate
  exact ⟨t, h, hfreed, hclaims, hfree, (leases_exact fresh h).1 1⟩

end OnekvmVnc
