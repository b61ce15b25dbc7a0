import OnekvmVnc.Theorems.Sink.Moves

/-! Whether the media are wanted follows the viewers, as long as no last leave is reported after a later first
    join. Each is decided under the lock and reported without it, so the reports can overtake each other. -/

namespace OnekvmVnc

open Parties Transition

namespace Sink
variable {cfg : SinkConfig} {s t : Sink} {i : Nat} {c c' : SinkClient}

/-- A client is to call `OnDemandChange` with this value. -/
def Owed (s : Sink) (active : Bool) : Prop := ∃ c ∈ s.clients, c.place = .owes active

instance (s : Sink) (active : Bool) : Decidable (s.Owed active) := inferInstanceAs (Decidable (∃ c ∈ s.clients, _))

/-- A last leave is reported only while there are no viewers, or the first join after it is still to be reported. -/
def InOrder (s : Sink) : SinkAction → Prop
  | .client i .demandChange => (s.clients[i]?.map (·.place) = some (.owes false)) → s.consumers = 0 ∨ s.Owed true
  | _ => True

instance (s : Sink) : DecidablePred s.InOrder := fun a => by
  unfold InOrder
  split <;> infer_instance

/-- What was reported last is true of the viewers, or the report that makes it so is owed. -/
structure Reported (s : Sink) : Prop where
  present : s.consumers ≠ 0 → s.demand = true ∨ s.Owed true
  absent : s.consumers = 0 → s.demand = false ∨ s.Owed false

/-- What another client owes is still owed. -/
theorem Owed.moved {active : Bool} (h : s.Owed active) (hc : s.clients[i]? = some c) (hne : c.place ≠ .owes active) :
    Owed { t with clients := s.clients.set i c' } active := by
  obtain ⟨d, hd, hplace⟩ := h
  exact ⟨d, mem_move_of_ne hc hd fun heq => hne (heq ▸ hplace), hplace⟩

theorem Owed.new (hc : s.clients[i]? = some c) {active : Bool} (hplace : c'.place = .owes active) :
    Owed { t with clients := s.clients.set i c' } active :=
  ⟨c', mem_move hc, hplace⟩

end Sink

/-- Apart from the joins, the leaves and the reports, a step changes neither the viewers nor what is owed. -/
theorem ClientMove.unreported {cfg : SinkConfig} {s t : Sink} {i : Nat} {c c' : SinkClient}
    (move : ClientMove cfg s i c t c') :
    (c.place = .handshake ∧ t.consumers = s.consumers + 1 ∧ t.demand = s.demand ∧
      (s.consumers = 0 → cfg.onDemandChange = true → c'.place = .owes true)) ∨
    (∃ active, c.place = .owes active ∧ t.consumers = s.consumers ∧ t.demand = active) ∨
    (c.place = .closed ∧ t.consumers = s.consumers - 1 ∧ t.demand = s.demand ∧
      (s.consumers - 1 = 0 → cfg.onDemandChange = true → c'.place = .owes false)) ∨
    ((∀ active, c.place ≠ .owes active) ∧ t.consumers = s.consumers ∧ t.demand = s.demand) := by
  cases move with
  | joined h => exact .inl ⟨h, rfl, rfl, fun hfirst hset => by simp [hfirst, hset]⟩
  | demanded active h => exact .inr (.inl ⟨active, h, rfl, rfl⟩)
  | left h => exact .inr (.inr (.inl ⟨h, rfl, rfl, fun hlast hset => by simp [hlast, hset]⟩))
  | counted h =>
    obtain ⟨_, _, _, _, _, ht⟩ := s.countSwitch_fst c _ _
    rw [ht]
    exact .inr (.inr (.inr ⟨fun _ => by simp [h], rfl, rfl⟩))
  | _ => exact .inr (.inr (.inr ⟨fun _ => by simp [*], rfl, rfl⟩))

namespace Sink
variable {cfg : SinkConfig} {s t : Sink} {i : Nat} {c c' : SinkClient}

namespace Reported

theorem start : Reported {} := ⟨fun h => absurd rfl h, fun _ => .inl rfl⟩

theorem moved (h : s.Reported) (accounts : s.Accounts) (hset : cfg.onDemandChange = true)
    (hc : s.clients[i]? = some c) (move : ClientMove cfg s i c t c')
    (inOrder : c.place = .owes false → s.consumers = 0 ∨ s.Owed true) :
    Reported { t with clients := s.clients.set i c' } := by
  have hnonneg : 0 ≤ s.consumers := accounts.consumers ▸ tally_nonneg
  have hpos (hcounted : c.place.counted = true) : 0 < s.consumers :=
    accounts.consumers ▸ tally_pos (List.mem_of_getElem? hc) hcounted
  rcases move.unreported with ⟨hplace, hconsumers, hdemand, hfirst⟩ | ⟨active, hplace, hconsumers, hdemand⟩ |
    ⟨hplace, hconsumers, hdemand, hlast⟩ | ⟨hplace, hconsumers, hdemand⟩
  · -- A client joins. If it is the first, it owes the report.
    refine ⟨fun _ => ?_, fun hzero => ?_⟩
    · by_cases hzero : s.consumers = 0
      · exact .inr (.new hc (hfirst hzero hset))
      · exact (h.present hzero).imp hdemand.trans fun howed => howed.moved hc (by simp [hplace])
    · rw [show t.consumers = 0 from hzero] at hconsumers
      omega
  · cases active with
    | true =>
      have := hpos (by rw [hplace]; rfl)
      refine ⟨fun _ => .inl hdemand, fun hzero => ?_⟩
      rw [show t.consumers = 0 from hzero] at hconsumers
      omega
    | false =>
      refine ⟨fun hne => .inr ?_, fun _ => .inl hdemand⟩
      rcases inOrder hplace with hzero | howed
      · exact absurd (hconsumers.trans hzero) hne
      · exact howed.moved hc (by simp [hplace])
  · -- A client leaves. If it is the last, it owes the report.
    have := hpos (by rw [hplace]; rfl)
    refine ⟨fun hne => ?_, fun hzero => .inr (.new hc (hlast (hconsumers.symm.trans hzero) hset))⟩
    exact (h.present (by omega)).imp hdemand.trans fun howed => howed.moved hc (by simp [hplace])
  · refine ⟨fun hne => ?_, fun hzero => ?_⟩
    · exact (h.present (hconsumers ▸ hne)).imp hdemand.trans fun howed => howed.moved hc (hplace true)
    · exact (h.absent (hconsumers ▸ hzero)).imp hdemand.trans fun howed => howed.moved hc (hplace false)

/-- A client that owes a report does nothing else. -/
theorem owes_demandChange {active : Bool} (hplace : c.place = .owes active) {action : SinkClientAction}
    {r : Sink × SinkClient} (h : s.clientStep cfg i c action = some r) : action = .demandChange := by
  cases action <;> simp [clientStep, hplace] at h ⊢

theorem step (h : s.Reported) (accounts : s.Accounts) (hset : cfg.onDemandChange = true) {a : SinkAction}
    (inOrder : s.InOrder a) (hstep : s.step cfg a = some t) : t.Reported := by
  cases a with
  | start | stop | teardown =>
    simp only [Sink.step, Option.ite_none_right_eq_some, Option.some.injEq] at hstep
    obtain ⟨-, rfl⟩ := hstep
    exact ⟨h.present, h.absent⟩
  | accept =>
    simp only [Sink.step, Option.ite_none_right_eq_some, Option.some.injEq] at hstep
    obtain ⟨-, rfl⟩ := hstep
    have kept {active : Bool} (howed : s.Owed active) : Owed { s with clients := s.clients ++ [{}] } active := by
      obtain ⟨d, hd, hplace⟩ := howed
      exact ⟨d, List.mem_append_left _ hd, hplace⟩
    exact ⟨fun hne => (h.present hne).imp_right kept, fun hzero => (h.absent hzero).imp_right kept⟩
  | client i action =>
    simp only [Sink.step] at hstep
    split at hstep
    · rename_i c hc
      obtain ⟨⟨u, c'⟩, hmove, rfl⟩ := Option.map_eq_some_iff.mp hstep
      refine h.moved accounts hset hc (.of_clientStep hmove) fun hplace => ?_
      obtain rfl := owes_demandChange hplace hmove
      exact inOrder (by rw [hc, Option.map_some, hplace])
    · cases hstep
  | write unit =>
    obtain rfl := Option.some.inj hstep
    unfold beginWrite
    split
    · split
      · exact ⟨h.present, h.absent⟩
      · exact h
    · exact h
  | append k =>
    simp only [Sink.step] at hstep
    split at hstep
    · obtain rfl := Option.some.inj hstep
      exact ⟨h.present, h.absent⟩
    · cases hstep

end Reported

/-- The client after it has reported a last leave. -/
theorem step_report (hc : s.clients[i]? = some c) (hplace : c.place = .owes false) :
    s.step cfg (.client i .demandChange) =
      some { s with demand := false, clients := s.clients.set i { c with place := .returned } } := by
  simp [step, hc, clientStep, hplace]

theorem not_owed_report (h : ¬ s.Owed true) {demand : Bool} :
    ¬ Owed { s with demand, clients := s.clients.set i { c with place := .returned } } true := by
  rintro ⟨d, hd, hplace⟩
  rcases List.mem_or_eq_of_mem_set hd with hd | rfl
  · exact h ⟨d, hd, hplace⟩
  · cases hplace

/-- The reports of last leaves that are owed can be made one after the other. -/
theorem run_reports (cfg : SinkConfig) (hwanted : ¬ s.Owed true) (hdemand : s.demand = false) :
    ∃ more t, run (step cfg) s more = some t ∧ (∀ active, ¬ t.Owed active) ∧ t.demand = false ∧
      t.consumers = s.consumers := by
  obtain ⟨n, hn⟩ : ∃ n : Nat, tally s.clients (·.place = .owes false) = n := ⟨_, rfl⟩
  induction n generalizing s with
  | zero =>
    refine ⟨[], s, rfl, fun active => ?_, hdemand, rfl⟩
    cases active with
    | true => exact hwanted
    | false =>
      rintro ⟨c, hc, hplace⟩
      simpa [hplace] using tally_eq_zero.mp hn c hc
  | succ n ih =>
    obtain ⟨c, hc, hplace⟩ : s.Owed false := by
      by_contra hnone
      rw [tally_eq_zero.mpr fun c hc => decide_eq_false fun hplace => hnone ⟨c, hc, hplace⟩] at hn
      omega
    obtain ⟨i, hi⟩ := List.mem_iff_getElem?.mp hc
    obtain ⟨more, t, hrun, hrest⟩ := ih (s := { s with
      demand := false, clients := s.clients.set i { c with place := .returned } }) (not_owed_report hwanted) rfl (by
        rw [tally_move hi, hn, hplace]
        simp)
    exact ⟨.client i .demandChange :: more, t, run_cons_eq_some.mpr ⟨_, step_report hi hplace, hrun⟩, hrest⟩

/-- If a last leave is reported out of order, the reports can all be made and be wrong in the end. -/
theorem run_wrong (accounts : s.Accounts) (hlate : ¬ s.InOrder (.client i .demandChange)) :
    ∃ more t, run (step cfg) s (.client i .demandChange :: more) = some t ∧ (∀ active, ¬ t.Owed active) ∧
      t.demand = false ∧ 0 < t.consumers := by
  simp only [InOrder, Classical.not_imp, not_or, Option.map_eq_some_iff] at hlate
  obtain ⟨⟨c, hc, hplace⟩, hne, hwanted⟩ := hlate
  have hnonneg : 0 ≤ s.consumers := accounts.consumers ▸ tally_nonneg
  obtain ⟨more, t, hrun, hnone, hdemand, hconsumers⟩ := run_reports cfg (s := { s with
    demand := false, clients := s.clients.set i { c with place := .returned } }) (not_owed_report hwanted) rfl
  refine ⟨more, t, run_cons_eq_some.mpr ⟨_, step_report hc hplace, hrun⟩, hnone, hdemand, ?_⟩
  rw [hconsumers]
  exact Int.lt_iff_le_and_ne.mpr ⟨hnonneg, Ne.symm hne⟩

end Sink

/-- If no last leave is reported after a later first join, then whenever no report is owed, `OnDemandChange` was
    called last with whether there are viewers. If one is, then the reports that are owed can all be made and
    leave the media unwanted while there are viewers. -/
theorem demand_follows (cfg : SinkConfig) (hset : cfg.onDemandChange = true) :
    (∀ actions t, Allowed (Sink.step cfg) Sink.InOrder {} actions → run (Sink.step cfg) {} actions = some t →
      (∀ active, ¬ t.Owed active) → (t.demand = true ↔ 0 < t.consumers)) ∧
    (∀ actions s i, run (Sink.step cfg) {} actions = some s → ¬ s.InOrder (.client i .demandChange) →
      ∃ more t, run (Sink.step cfg) s (.client i .demandChange :: more) = some t ∧ (∀ active, ¬ t.Owed active) ∧
        t.demand = false ∧ 0 < t.consumers) := by
  refine ⟨fun actions t allowed h hnone => ?_, fun actions s i h => Sink.run_wrong (Sink.run_accounts h)⟩
  have hboth : t.Accounts ∧ t.Reported :=
    run_invariant_of_allowed (P := fun u => u.Accounts ∧ u.Reported) ⟨.start, .start⟩
      (fun _ _ _ hu hinOrder ha => ⟨hu.1.step (.of_step ha), hu.2.step hu.1 hset hinOrder ha⟩) allowed h
  have hnonneg : 0 ≤ t.consumers := hboth.1.consumers ▸ tally_nonneg
  constructor
  · intro hdemand
    by_contra hzero
    have habsent := (hboth.2.absent (by omega)).resolve_right (hnone false)
    rw [hdemand] at habsent
    cases habsent
  · intro hpos
    exact (hboth.2.present (by omega)).resolve_right (hnone true)

/-- The viewers of an MJPEG stream, which is subscribed to on demand. -/
def demandConfig : SinkConfig := { codecH264 := false, jpegEncoder := false, jpegInput := true, onDemandChange := true }

/-- A viewer comes and goes, without reporting that. -/
def demandActions : List SinkAction :=
  [.start, .accept, .accept, .client 0 .join, .client 0 .demandChange, .client 0 .disconnect, .client 0 .begin,
    .client 0 .count, .client 0 .leave]

/-- It reports its leave, and then the next one comes. -/
theorem demand_follows_next : ∃ t, run (Sink.step demandConfig) {} (demandActions ++
      [.client 0 .demandChange, .client 1 .join, .client 1 .demandChange]) = some t ∧
    t.consumers = 1 ∧ (t.demand = true ↔ 0 < t.consumers) := by
  obtain ⟨t, ht, hconsumers⟩ := Option.map_eq_some_iff.mp
    (show (run (Sink.step demandConfig) {} (demandActions ++
      [.client 0 .demandChange, .client 1 .join, .client 1 .demandChange])).map
        (fun t => (t.consumers, decide (t.Owed true ∨ t.Owed false))) = some (1, false) by decide +kernel)
  obtain ⟨hconsumers, howed⟩ := Prod.mk.inj hconsumers
  have hnone := not_or.mp (of_decide_eq_false howed)
  refine ⟨t, ht, hconsumers, (demand_follows demandConfig rfl).1 _ t (by decide +kernel) ht fun active => ?_⟩
  cases active with
  | true => exact hnone.1
  | false => exact hnone.2

/-- The next viewer comes first, and reports that before the last one reports its leave. -/
theorem demand_overtaken : ∃ t, run (Sink.step demandConfig) {} (demandActions ++
      [.client 1 .join, .client 1 .demandChange, .client 0 .demandChange]) = some t ∧
    (∀ active, ¬ t.Owed active) ∧ ¬ (t.demand = true ↔ 0 < t.consumers) := by
  obtain ⟨t, ht, hend⟩ := Option.map_eq_some_iff.mp
    (show (run (Sink.step demandConfig) {} (demandActions ++
      [.client 1 .join, .client 1 .demandChange, .client 0 .demandChange])).map
        (fun t => (t.consumers, t.demand, decide (t.Owed true ∨ t.Owed false))) = some (1, false, false) by decide +kernel)
  simp only [Prod.mk.injEq] at hend
  obtain ⟨hconsumers, hdemand, howed⟩ := hend
  have hnone := not_or.mp (of_decide_eq_false howed)
  refine ⟨t, ht, fun active => ?_, by simp [hconsumers, hdemand]⟩
  cases active with
  | true => exact hnone.1
  | false => exact hnone.2

end OnekvmVnc
