import OnekvmVnc.Lib.Parties
import OnekvmVnc.Lib.Transition
import OnekvmVnc.Sink.Lifecycle

/-! Nothing of a sink outlives `Stop`, and `Stop` returns. `wg` counts the goroutines exactly, each of them has its
    connection closed before it ends, and whatever `Stop` waits for has nothing left to wait for itself. -/

namespace OnekvmVnc

open Parties Transition

namespace ConnPlace

/-- `acceptLoop` has the connection. -/
def handed : ConnPlace → Bool
  | .accepted | .refused | .registered | .added => true
  | _ => false

/-- `wg` counts its `serveClient`. -/
def counted : ConnPlace → Bool
  | .added | .running | .restarting | .pausing | .leaving | .left | .deleted | .closed => true
  | _ => false

theorem eq_gone {place : ConnPlace} : place.handed = false → place.counted = false → place = .gone := by
  cases place <;> decide

/-- It is in `clients`. -/
def listed : ConnPlace → Bool
  | .registered | .added | .running | .restarting | .pausing | .leaving | .left => true
  | _ => false

/-- `continuousUpdater.Stop` waits. -/
def joining : ConnPlace → Bool
  | .restarting | .pausing | .leaving => true
  | _ => false

/-- How far the place is from the end. -/
def weight : ConnPlace → Nat
  | .accepted => 24
  | .registered => 22
  | .added => 21
  | .restarting => 13
  | .pausing => 11
  | .running => 10
  | .refused | .leaving => 5
  | .left => 4
  | .deleted => 3
  | .closed => 2
  | .gone => 0

end ConnPlace

namespace Updater

def weight : Updater → Nat
  | .none => 0
  | .cancelled => 1
  | .ticking => 2

end Updater

namespace Connection
variable {c c' : Connection} {a : ConnAction}

/-- What holds of a connection by its place. -/
structure Fit (c : Connection) : Prop where
  listed : c.inClients = c.place.listed
  closed : c.place = .closed ∨ c.place = .gone → c.closed = true
  updater : c.updater ≠ .none → c.place = .running ∨ c.place.joining = true
  joining : c.place.joining = true → c.updater ≠ .ticking

def weight (c : Connection) : Nat := c.place.weight + 8 * c.buffered + c.updater.weight

/-- What a step with a connection does. -/
structure Moved (c : Connection) (a : ConnAction) (c' : Connection) : Prop where
  fit : c'.Fit
  served : c.place.handed = false ∧ c'.place.handed = false ∧ c.place ≠ .gone
  counted : if a = .done then c.place.counted = true ∧ c'.place.counted = false else c'.place.counted = c.place.counted
  listed : c'.inClients = true → c.inClients = true
  closed : c.closed = true → c'.closed = true
  weight : a ≠ .arrive → c'.weight < c.weight

theorem cancel_weight (u : Updater) : u.cancel.weight ≤ u.weight := by cases u <;> decide

theorem cancel_ne_ticking (u : Updater) : u.cancel ≠ .ticking := by cases u <;> decide

/-- A step that leaves the place as it is. -/
theorem moved_of_place (fit : c.Fit) (served : c.place.handed = false ∧ c.place ≠ .gone) (undone : a ≠ .done)
    {updater : Updater} {buffered : Nat} {closed : Bool} (huse : updater ≠ .none → c.place = .running ∨ c.place.joining = true)
    (hjoining : c.place.joining = true → updater ≠ .ticking) (hclosed : c.closed = true → closed = true)
    (hweight : a ≠ .arrive → 8 * buffered + updater.weight < 8 * c.buffered + c.updater.weight) :
    Moved c a { c with updater, buffered, closed } where
  fit := ⟨fit.listed, fun h => hclosed (fit.closed h), huse, hjoining⟩
  served := ⟨served.1, served.1, served.2⟩
  counted := by rw [if_neg undone]
  listed := id
  closed := hclosed
  weight h := by
    have := hweight h
    simp only [weight]
    omega

theorem Fit.handed (fit : c.Fit) (h : c.updater ≠ .none) : c.place.handed = false ∧ c.place ≠ .gone := by
  rcases fit.updater h with hplace | hplace
  · rw [hplace]
    decide
  · cases hc : c.place <;> rw [hc] at hplace <;> cases hplace <;> decide

/-- A step from one place of `runClient` to another. -/
theorem moved_of_runClient (fit : c.Fit) {place : ConnPlace} {updater : Updater} {buffered : Nat} (undone : a ≠ .done)
    (hfrom : c.place = .running ∨ c.place.joining = true)
    (hto : place = .running ∨ place.joining = true ∨ place = .left ∧ updater = .none)
    (hjoining : place.joining = true → updater ≠ .ticking)
    (hweight : place.weight + 8 * buffered + updater.weight < c.weight) :
    Moved c a { c with place, updater, buffered } := by
  have hold : c.place.counted = true ∧ c.place.listed = true ∧ c.place.handed = false ∧ c.place ≠ .gone := by
    rcases hfrom with hplace | hplace
    · rw [hplace]
      decide
    · cases hc : c.place <;> rw [hc] at hplace <;> cases hplace <;> decide
  have hnew : place.counted = true ∧ place.listed = true ∧ place.handed = false ∧ ¬ (place = .closed ∨ place = .gone) := by
    rcases hto with hplace | hplace | ⟨hplace, -⟩
    · rw [hplace]
      decide
    · cases place <;> cases hplace <;> decide
    · rw [hplace]
      decide
  refine ⟨⟨?_, fun h => absurd h hnew.2.2.2, fun h => ?_, hjoining⟩, ⟨hold.2.2.1, hnew.2.2.1, hold.2.2.2⟩, ?_, id, id,
    fun _ => hweight⟩
  · change c.inClients = place.listed
    rw [fit.listed, hold.2.1, hnew.2.1]
  · rcases hto with hplace | hplace | ⟨-, hnone⟩
    · exact .inl hplace
    · exact .inr hplace
    · exact absurd hnone h
  · rw [if_neg undone]
    exact hnew.1.trans hold.1.symm

theorem moved_stopUpdater (fit : c.Fit) {place : ConnPlace} (undone : a ≠ .done) (hplace : c.place = .running)
    (hto : place.joining = true) (hweight : place.weight ≤ 17) (hbuffered : 0 < c.buffered) :
    Moved c a (c.stopUpdater place) := by
  have hcancel := cancel_weight c.updater
  refine moved_of_runClient fit undone (.inl hplace) (.inr (.inl hto)) (fun _ => cancel_ne_ticking c.updater) ?_
  rw [weight, hplace, ConnPlace.weight]
  omega

theorem moved_leave (fit : c.Fit) (undone : a ≠ .done) (hplace : c.place = .running) :
    Moved c a { c with place := .leaving, updater := c.updater.cancel } := by
  have hcancel := cancel_weight c.updater
  refine moved_of_runClient fit undone (.inl hplace) (.inr (.inl rfl)) (fun _ => cancel_ne_ticking c.updater) ?_
  rw [weight, hplace, ConnPlace.weight, ConnPlace.weight]
  omega

theorem moved (fit : c.Fit) (h : c.step a = some c') : Moved c a c' := by
  have running (hplace : c.place = .running) : c.place.handed = false ∧ c.place ≠ .gone := by
    rw [hplace]
    decide
  have unjoined (hplace : c.place = .running) {updater : Updater} : c.place.joining = true → updater ≠ .ticking := by
    rw [hplace]
    exact nofun
  cases a with
  | arrive =>
    simp only [Connection.step, Option.ite_none_right_eq_some, Option.some.injEq] at h
    obtain ⟨⟨hplace, -⟩, rfl⟩ := h
    exact moved_of_place fit (running hplace) (by decide) fit.updater fit.joining id fun h => absurd rfl h
  | message =>
    simp only [Connection.step, Option.ite_none_right_eq_some, Option.some.injEq] at h
    obtain ⟨⟨hplace, hbuffered⟩, rfl⟩ := h
    exact moved_of_place fit (running hplace) (by decide) fit.updater fit.joining id fun _ => by omega
  | enable =>
    simp only [Connection.step, Option.ite_none_right_eq_some, Option.some.injEq] at h
    obtain ⟨⟨hplace, hbuffered⟩, rfl⟩ := h
    split
    · rename_i hnone
      refine moved_of_place fit (running hplace) (by decide) (fun _ => .inl hplace) (unjoined hplace) id fun _ => ?_
      rw [hnone, Updater.weight, Updater.weight]
      omega
    · exact moved_stopUpdater fit (by decide) hplace rfl (by decide) hbuffered
  | disable =>
    simp only [Connection.step, Option.ite_none_right_eq_some, Option.some.injEq] at h
    obtain ⟨⟨hplace, hbuffered⟩, rfl⟩ := h
    split
    · exact moved_of_place fit (running hplace) (by decide) fit.updater fit.joining id fun _ => by omega
    · exact moved_stopUpdater fit (by decide) hplace rfl (by decide) hbuffered
  | joined =>
    simp only [Connection.step, Option.ite_none_right_eq_some] at h
    obtain ⟨hnone, h⟩ := h
    split at h
    · rename_i hplace
      cases h
      refine moved_of_runClient fit (by decide) (.inr (by rw [hplace]; rfl)) (.inl rfl) nofun ?_
      rw [weight, hplace, hnone]
      simp only [ConnPlace.weight, Updater.weight]
      omega
    · rename_i hplace
      cases h
      refine moved_of_runClient fit (by decide) (.inr (by rw [hplace]; rfl)) (.inl rfl) nofun ?_
      rw [weight, hplace, hnone]
      simp only [ConnPlace.weight, Updater.weight]
      omega
    · rename_i hplace
      cases h
      refine moved_of_runClient fit (by decide) (.inr (by rw [hplace]; rfl)) (.inr (.inr ⟨rfl, hnone⟩)) nofun ?_
      rw [weight, hplace, hnone]
      simp only [ConnPlace.weight, Updater.weight]
      omega
    · cases h
  | fail =>
    simp only [Connection.step, Option.ite_none_right_eq_some, Option.some.injEq] at h
    obtain ⟨hplace, rfl⟩ := h
    exact moved_leave fit (by decide) hplace
  | eof =>
    simp only [Connection.step, Option.ite_none_right_eq_some, Option.some.injEq] at h
    obtain ⟨⟨hplace, -⟩, rfl⟩ := h
    exact moved_leave fit (by decide) hplace
  | updaterFail =>
    simp only [Connection.step, Option.ite_none_right_eq_some, Option.some.injEq] at h
    obtain ⟨husing, rfl⟩ := h
    refine moved_of_place fit (fit.handed husing) (by decide) (by intro h; exact absurd rfl h) (by intro _; decide) (fun _ => rfl) fun _ => ?_
    cases hupdater : c.updater with
    | none => exact absurd hupdater husing
    | ticking | cancelled => simp only [Updater.weight]; omega
  | updaterStop =>
    simp only [Connection.step, Option.ite_none_right_eq_some, Option.some.injEq] at h
    obtain ⟨hcancelled, rfl⟩ := h
    refine moved_of_place fit (fit.handed (by rw [hcancelled]; decide)) (by decide) (by intro h; exact absurd rfl h) (by intro _; decide) id fun _ => ?_
    rw [hcancelled, Updater.weight, Updater.weight]
    omega
  | delete =>
    simp only [Connection.step, Option.ite_none_right_eq_some, Option.some.injEq] at h
    obtain ⟨hplace, rfl⟩ := h
    have hnone : c.updater = .none := by
      by_contra husing
      rcases fit.updater husing with h | h <;> rw [hplace] at h <;> cases h
    refine ⟨⟨rfl, nofun, fun h => absurd hnone h, nofun⟩, ?_, ?_, nofun, id, fun _ => ?_⟩
    · rw [hplace]
      exact ⟨rfl, rfl, by decide⟩
    · rw [if_neg (by decide), hplace]
      rfl
    · rw [weight, weight, hplace]
      simp only [ConnPlace.weight]
      omega
  | close =>
    simp only [Connection.step, Option.ite_none_right_eq_some, Option.some.injEq] at h
    obtain ⟨hplace, rfl⟩ := h
    have hnone : c.updater = .none := by
      by_contra husing
      rcases fit.updater husing with h | h <;> rw [hplace] at h <;> cases h
    refine ⟨⟨?_, fun _ => rfl, fun h => absurd hnone h, nofun⟩, ?_, ?_, id, fun _ => rfl, fun _ => ?_⟩
    · change c.inClients = _
      rw [fit.listed, hplace]
      rfl
    · rw [hplace]
      exact ⟨rfl, rfl, by decide⟩
    · rw [if_neg (by decide), hplace]
      rfl
    · rw [weight, weight, hplace]
      simp only [ConnPlace.weight]
      omega
  | done =>
    simp only [Connection.step, Option.ite_none_right_eq_some, Option.some.injEq] at h
    obtain ⟨hplace, rfl⟩ := h
    have hnone : c.updater = .none := by
      by_contra husing
      rcases fit.updater husing with h | h <;> rw [hplace] at h <;> cases h
    refine ⟨⟨?_, fun _ => fit.closed (.inl hplace), fun h => absurd hnone h, nofun⟩, ?_, ?_, id, id, fun _ => ?_⟩
    · change c.inClients = _
      rw [fit.listed, hplace]
      rfl
    · rw [hplace]
      exact ⟨rfl, rfl, by decide⟩
    · rw [if_pos rfl, hplace]
      exact ⟨rfl, rfl⟩
    · rw [weight, weight, hplace]
      simp only [ConnPlace.weight]
      omega

end Connection

/-- The loop waits in `wg`. -/
def AcceptPlace.counted : AcceptPlace → Int
  | .returned => 0
  | _ => 1

/-- The clients that `Stop` has yet to close. -/
def StopPlace.pending : StopPlace → List Nat
  | .cancel clients | .closeListener clients | .closeClients clients => clients
  | .idle | .wait => []

/-- `Stop` has cancelled the context of `acceptLoop`. -/
def StopPlace.cancelled : StopPlace → Bool
  | .closeListener _ | .closeClients _ | .wait => true
  | .idle | .cancel _ => false

/-- `Stop` has closed the listener. -/
def StopPlace.closed : StopPlace → Bool
  | .closeClients _ | .wait => true
  | _ => false

namespace Lifecycle
variable {s t : Lifecycle}

/-- What holds in every state. -/
structure Kept (s : Lifecycle) : Prop where
  fit : ∀ c ∈ s.conns, c.Fit
  held : ∀ i c, s.conns[i]? = some c → (c.place.handed = true ↔ s.acceptor = .holding i)
  present : ∀ i, s.acceptor = .holding i → i < s.conns.length
  wg : s.wg = tally s.conns (fun c => c.place.counted) + s.acceptor.counted
  started : s.started = true → s.stopper = .idle
  ended : s.started = false → s.stopper = .idle → s.acceptor = .returned ∧ ∀ c ∈ s.conns, c.place = .gone
  cancelled : s.stopper.cancelled = true → s.cancelled = true
  closed : s.stopper.closed = true → s.listening = false
  pending : s.stopper ≠ .idle → ∀ i c, s.conns[i]? = some c → c.inClients = true → c.closed = true ∨ i ∈ s.stopper.pending

/-- A step with a connection. -/
theorem Kept.conn (h : s.Kept) {i : Nat} {a : ConnAction} (hstep : s.connStep i a = some t) : t.Kept := by
  obtain ⟨c, hc, hstep⟩ := Option.bind_eq_some_iff.mp hstep
  obtain ⟨c', hc', rfl⟩ := Option.map_eq_some_iff.mp hstep
  have hmem := List.mem_of_getElem? hc
  have hmoved := Connection.moved (h.fit c hmem) hc'
  refine ⟨forall_move h.fit hmoved.fit, fun j d hd => ?_, fun j hj => ?_, ?_, h.started, fun hs hidle => ?_, h.cancelled,
    h.closed, fun hstop j d hd hlisted => ?_⟩
  · rcases getElem?_move hd with ⟨rfl, rfl⟩ | ⟨-, hd⟩
    · have hnot : s.acceptor ≠ .holding j := fun hhold => by
        have := (h.held j c hc).mpr hhold
        rw [hmoved.served.1] at this
        cases this
      exact iff_of_false (by rw [hmoved.served.2.1]; exact Bool.false_ne_true) hnot
    · exact h.held j d hd
  · rw [List.length_set]
    exact h.present j hj
  · have htally : tally (s.conns.set i c') (fun c => c.place.counted) = _ := tally_move hc
    have hcounted := hmoved.counted
    dsimp only at htally ⊢
    rw [htally, h.wg]
    split at hcounted
    · rename_i hdone
      rw [if_pos hdone, hcounted.1, hcounted.2]
      simp only [if_true, Bool.false_eq_true, if_false]
      omega
    · rename_i hdone
      rw [if_neg hdone, hcounted]
      omega
  · exact absurd ((h.ended hs hidle).2 c hmem) hmoved.served.2.2
  · rcases getElem?_move hd with ⟨rfl, rfl⟩ | ⟨-, hd⟩
    · exact (h.pending hstop j c hc (hmoved.listed hlisted)).imp hmoved.closed id
    · exact h.pending hstop j d hd hlisted

/-- `acceptLoop` goes on with its connection: it keeps it, or it hands it on or closes it. -/
theorem Kept.handle (h : s.Kept) {i : Nat} {place : ConnPlace} {f : Connection → Connection} {wg : Int}
    {acceptor : AcceptPlace} (hstep : Lifecycle.handle { s with wg, acceptor } i place f = some t)
    (hheld : s.acceptor = .holding i) (fit : ∀ c : Connection, c.place = place → c.Fit → (f c).Fit)
    (handed : ∀ c : Connection, c.place = place → ((f c).place.handed = true ↔ acceptor = .holding i))
    (holds : acceptor = .holding i ∨ ∀ j, acceptor ≠ .holding j) (alive : acceptor ≠ .returned)
    (counted : ∀ c : Connection, c.place = place → wg - s.wg = (if (f c).place.counted then 1 else 0) - if place.counted then 1 else 0)
    (listed : ∀ c : Connection, c.place = place → s.stopper ≠ .idle → (f c).inClients = true → c.inClients = true)
    (closed : ∀ c : Connection, c.closed = true → (f c).closed = true) : t.Kept := by
  obtain ⟨c, hc, hstep⟩ := Option.bind_eq_some_iff.mp hstep
  change s.conns[i]? = some c at hc
  simp only [Option.ite_none_right_eq_some, Option.some.injEq] at hstep
  obtain ⟨hcplace, rfl⟩ := hstep
  have hmem := List.mem_of_getElem? hc
  refine ⟨forall_move h.fit (fit c hcplace (h.fit c hmem)), fun j d hd => ?_, fun j hj => ?_, ?_, h.started,
    fun hs hidle => ?_, h.cancelled, h.closed, fun hstop j d hd hlisted => ?_⟩
  · rcases getElem?_move hd with ⟨rfl, rfl⟩ | ⟨hne, hd⟩
    · exact handed c hcplace
    · have hnot : d.place.handed = false := by
        rw [Bool.eq_false_iff]
        intro hhanded
        have := (h.held j d hd).mp hhanded
        rw [hheld] at this
        exact hne (AcceptPlace.holding.inj this).symm
      refine iff_of_false (by rw [hnot]; exact Bool.false_ne_true) fun hhold => ?_
      rcases holds with hsame | hnone
      · exact hne (AcceptPlace.holding.inj (hhold.symm.trans hsame))
      · exact hnone j hhold
  · change j < (s.conns.set i (f c)).length
    rw [List.length_set]
    rcases holds with hsame | hnone
    · rw [AcceptPlace.holding.inj (hj.symm.trans hsame)]
      exact h.present i hheld
    · exact absurd hj (hnone j)
  · have htally : tally (s.conns.set i (f c)) (fun c => c.place.counted) = _ := tally_move hc
    have hwg := counted c hcplace
    have hone : acceptor.counted = 1 := by cases acceptor <;> first | rfl | exact absurd rfl alive
    have hheldOne : s.acceptor.counted = 1 := by
      rw [hheld]
      rfl
    have hold := h.wg
    dsimp only at htally ⊢
    rw [htally, hone, hcplace]
    omega
  · have hgone := (h.ended hs hidle).1
    rw [hheld] at hgone
    cases hgone
  · rcases getElem?_move hd with ⟨rfl, rfl⟩ | ⟨-, hd⟩
    · exact (h.pending hstop j c hc (listed c hcplace hstop hlisted)).imp (closed c) id
    · exact h.pending hstop j d hd hlisted

theorem Kept.accept (h : s.Kept) {a : AcceptAction} (hstep : s.acceptStep a s.acceptor = some t) : t.Kept := by
  have hrunning (hacceptor : s.acceptor ≠ .returned) : ¬ (s.started = false ∧ s.stopper = .idle) := fun hs =>
    hacceptor (h.ended hs.1 hs.2).1
  unfold acceptStep at hstep
  split at hstep
  -- a connection
  · rename_i hacceptor
    simp only [Option.ite_none_right_eq_some, Option.some.injEq] at hstep
    obtain ⟨hlistening, rfl⟩ := hstep
    have hnew : Connection.Fit {} := ⟨rfl, nofun, fun hu => absurd rfl hu, nofun⟩
    refine ⟨List.forall_mem_append.mpr ⟨h.fit, List.forall_mem_singleton.mpr hnew⟩, fun j d hd => ?_, fun j hj => ?_, ?_,
      h.started, fun hs hidle => absurd ⟨hs, hidle⟩ (hrunning (by rw [hacceptor]; exact nofun)), h.cancelled, h.closed,
      fun hstop j d hd hlisted => ?_⟩
    · rcases getElem?_join hd with ⟨rfl, rfl⟩ | hd
      · exact iff_of_true rfl rfl
      · have hlt : j < s.conns.length := (List.getElem?_eq_some_iff.mp hd).1
        have hnot := h.held j d hd
        rw [hacceptor] at hnot
        refine iff_of_false (fun hhanded => nomatch hnot.mp hhanded) fun hhold => ?_
        have := AcceptPlace.holding.inj hhold
        omega
    · rw [List.length_append, ← AcceptPlace.holding.inj hj]
      exact Nat.lt_succ_self _
    · have hold := h.wg
      rw [hacceptor] at hold
      dsimp only
      rw [tally_concat, hold]
      simp only [ConnPlace.counted, AcceptPlace.counted, Bool.false_eq_true, if_false]
      omega
    · rcases getElem?_join hd with ⟨-, rfl⟩ | hd
      · cases hlisted
      · exact h.pending hstop j d hd hlisted
  -- an error
  · rename_i hacceptor
    cases hstep
    have hnot (j : Nat) : s.acceptor ≠ .holding j := by
      rw [hacceptor]
      exact nofun
    have hnone (j : Nat) : (if s.cancelled then AcceptPlace.returning else .accept) ≠ .holding j := by split <;> exact nofun
    refine ⟨h.fit, fun j d hd => iff_of_false (fun hhanded => hnot j ((h.held j d hd).mp hhanded)) (hnone j),
      fun j hj => absurd hj (hnone j), ?_, h.started,
      fun hs hidle => absurd ⟨hs, hidle⟩ (hrunning (by rw [hacceptor]; exact nofun)), h.cancelled, h.closed, h.pending⟩
    have hold := h.wg
    rw [hacceptor] at hold
    have hone : (if s.cancelled then AcceptPlace.returning else .accept).counted = 1 := by split <;> rfl
    dsimp only
    rw [hone]
    exact hold
  -- the check of `started`
  · rename_i conn hacceptor
    split at hstep
    · rename_i hstarted
      refine h.handle hstep hacceptor (fun c hc hfit => ?_) (fun c hc => iff_of_true rfl hacceptor) (.inl hacceptor)
        (by rw [hacceptor]; exact nofun) (fun c hc => ?_) (fun c hc hstop => absurd (h.started hstarted) hstop)
        fun c hclosed => hclosed
      · have hnone : c.updater = .none := by
          by_contra husing
          rcases hfit.updater husing with hu | hu <;> rw [hc] at hu <;> cases hu
        exact ⟨rfl, nofun, fun hu => absurd hnone hu, nofun⟩
      · simp only [ConnPlace.counted, Bool.false_eq_true, if_false]
        omega
    · refine h.handle hstep hacceptor (fun c hc hfit => ?_) (fun c hc => iff_of_true rfl hacceptor) (.inl hacceptor)
        (by rw [hacceptor]; exact nofun) (fun c hc => ?_) (fun c hc hstop hlisted => hlisted) fun c hclosed => hclosed
      · have hnone : c.updater = .none := by
          by_contra husing
          rcases hfit.updater husing with hu | hu <;> rw [hc] at hu <;> cases hu
        have hlisted : c.inClients = false := hfit.listed.trans (by rw [hc]; rfl)
        exact ⟨hlisted, nofun, fun hu => absurd hnone hu, nofun⟩
      · simp only [ConnPlace.counted, Bool.false_eq_true, if_false]
        omega
  -- `wg.Add`
  · rename_i conn hacceptor
    refine h.handle hstep hacceptor (fun c hc hfit => ?_) (fun c hc => iff_of_true rfl hacceptor) (.inl hacceptor)
      (by rw [hacceptor]; exact nofun) (fun c hc => ?_) (fun c hc hstop hlisted => hlisted) fun c hclosed => hclosed
    · have hnone : c.updater = .none := by
        by_contra husing
        rcases hfit.updater husing with hu | hu <;> rw [hc] at hu <;> cases hu
      have hlisted : c.inClients = true := hfit.listed.trans (by rw [hc]; rfl)
      exact ⟨hlisted, nofun, fun hu => absurd hnone hu, nofun⟩
    · simp only [ConnPlace.counted, Bool.false_eq_true, if_false, if_true]
      omega
  -- `go`
  · rename_i conn hacceptor
    refine h.handle hstep hacceptor (fun c hc hfit => ?_) (fun c hc => iff_of_false nofun nofun) (.inr nofun)
      nofun (fun c hc => ?_) (fun c hc hstop hlisted => hlisted) fun c hclosed => hclosed
    · have hlisted : c.inClients = true := hfit.listed.trans (by rw [hc]; rfl)
      exact ⟨hlisted, nofun, fun _ => .inl rfl, nofun⟩
    · simp only [ConnPlace.counted, if_true]
      omega
  -- a connection that came too late
  · rename_i conn hacceptor
    refine h.handle hstep hacceptor (fun c hc hfit => ?_) (fun c hc => iff_of_false nofun nofun) (.inr nofun)
      nofun (fun c hc => ?_) (fun c hc hstop hlisted => hlisted) fun c hclosed => rfl
    · have hnone : c.updater = .none := by
        by_contra husing
        rcases hfit.updater husing with hu | hu <;> rw [hc] at hu <;> cases hu
      have hlisted : c.inClients = false := hfit.listed.trans (by rw [hc]; rfl)
      exact ⟨hlisted, fun _ => rfl, fun hu => absurd hnone hu, nofun⟩
    · simp only [ConnPlace.counted, Bool.false_eq_true, if_false]
      omega
  -- `wg.Done`
  · rename_i hacceptor
    cases hstep
    have hnot (j : Nat) : s.acceptor ≠ .holding j := by
      rw [hacceptor]
      exact nofun
    refine ⟨h.fit, fun j d hd => iff_of_false (fun hhanded => hnot j ((h.held j d hd).mp hhanded)) nofun, nofun, ?_, h.started,
      fun hs hidle => absurd ⟨hs, hidle⟩ (hrunning (by rw [hacceptor]; exact nofun)), h.cancelled, h.closed, h.pending⟩
    have hold := h.wg
    rw [hacceptor] at hold
    dsimp only
    rw [hold]
    simp only [AcceptPlace.counted]
    omega
  · cases hstep

theorem mem_clients {i : Nat} {c : Connection} (hc : s.conns[i]? = some c) (hlisted : c.inClients = true) : i ∈ s.clients := by
  refine List.mem_filter.mpr ⟨List.mem_range.mpr (List.getElem?_eq_some_iff.mp hc).1, ?_⟩
  rw [hc]
  exact hlisted

/-- A step of `Stop`. -/
theorem Kept.stop (h : s.Kept) (hstep : s.stopStep s.stopper = some t) : t.Kept := by
  have hstopped (hstop : s.stopper ≠ .idle) : s.started = true → False := fun hs => hstop (h.started hs)
  unfold stopStep at hstep
  split at hstep
  · cases hstep
  · rename_i clients hplace
    cases hstep
    have hne : s.stopper ≠ .idle := by rw [hplace]; exact nofun
    have hpending := h.pending hne
    rw [hplace] at hpending
    exact ⟨h.fit, h.held, h.present, h.wg, fun hs => absurd hs (hstopped hne), nofun, fun _ => rfl, nofun, fun _ => hpending⟩
  · rename_i clients hplace
    cases hstep
    have hne : s.stopper ≠ .idle := by rw [hplace]; exact nofun
    have hpending := h.pending hne
    rw [hplace] at hpending
    exact ⟨h.fit, h.held, h.present, h.wg, fun hs => absurd hs (hstopped hne), nofun,
      fun _ => h.cancelled (by rw [hplace]; rfl), fun _ => rfl, fun _ => hpending⟩
  · rename_i hplace
    cases hstep
    have hne : s.stopper ≠ .idle := by rw [hplace]; exact nofun
    have hpending := h.pending hne
    rw [hplace] at hpending
    exact ⟨h.fit, h.held, h.present, h.wg, fun hs => absurd hs (hstopped hne), nofun,
      fun _ => h.cancelled (by rw [hplace]; rfl), fun _ => h.closed (by rw [hplace]; rfl), fun _ => hpending⟩
  · rename_i conn rest hplace
    cases hstep
    have hne : s.stopper ≠ .idle := by rw [hplace]; exact nofun
    have hpending := h.pending hne
    rw [hplace] at hpending
    have hlookup {j : Nat} {d : Connection} (hd : (s.conns.modify conn fun c => { c with closed := true })[j]? = some d) :
        ∃ c, s.conns[j]? = some c ∧ d = if conn = j then { c with closed := true } else c := by
      rw [List.getElem?_modify] at hd
      obtain ⟨c, hc, rfl⟩ := Option.map_eq_some_iff.mp hd
      exact ⟨c, hc, by split <;> rfl⟩
    have hfit (c : Connection) (hc : c.Fit) : Connection.Fit { c with closed := true } :=
      ⟨hc.listed, fun _ => rfl, hc.updater, hc.joining⟩
    refine ⟨fun d hd => ?_, fun j d hd => ?_, fun j hj => ?_, ?_, fun hs => absurd hs (hstopped hne), nofun,
      fun _ => h.cancelled (by rw [hplace]; rfl), fun _ => h.closed (by rw [hplace]; rfl), fun _ j d hd hlisted => ?_⟩
    · obtain ⟨j, hj⟩ := List.mem_iff_getElem?.mp hd
      obtain ⟨c, hc, rfl⟩ := hlookup hj
      have := h.fit c (List.mem_of_getElem? hc)
      split
      · exact hfit c this
      · exact this
    · obtain ⟨c, hc, rfl⟩ := hlookup hd
      have := h.held j c hc
      split <;> exact this
    · rw [List.length_modify]
      exact h.present j hj
    · have hsame : tally (s.conns.modify conn fun c => { c with closed := true }) (fun c => c.place.counted) =
          tally s.conns fun c => c.place.counted := by
        rw [List.modify_eq_set_getElem?]
        cases hc : s.conns[conn]? with
        | none => rfl
        | some c =>
          change tally (s.conns.set conn { c with closed := true }) _ = _
          rw [tally_move hc]
          dsimp only
          omega
      dsimp only
      rw [hsame]
      exact h.wg
    · obtain ⟨c, hc, rfl⟩ := hlookup hd
      split
      · exact .inl rfl
      · rename_i hother
        rw [if_neg hother] at hlisted
        rcases hpending j c hc hlisted with hclosed | hmem
        · exact .inl hclosed
        · exact .inr ((List.mem_cons.mp hmem).resolve_left fun heq => hother heq.symm)
  · rename_i hplace
    simp only [Option.ite_none_right_eq_some, Option.some.injEq] at hstep
    obtain ⟨hwg, rfl⟩ := hstep
    have hne : s.stopper ≠ .idle := by rw [hplace]; exact nofun
    have hcount := h.wg
    have hnonneg : 0 ≤ tally s.conns fun c => c.place.counted := tally_nonneg
    have hreturned : s.acceptor = .returned := by
      by_contra halive
      have hone : s.acceptor.counted = 1 := by
        cases ha : s.acceptor with
        | returned => exact absurd ha halive
        | accept | holding | returning => rfl
      omega
    rw [hreturned] at hcount
    have hzero : tally s.conns (fun c => c.place.counted) = 0 := by
      change s.wg = _ + 0 at hcount
      omega
    refine ⟨h.fit, h.held, h.present, h.wg, fun _ => rfl, fun _ _ => ⟨hreturned, fun c hc => ?_⟩, nofun, nofun,
      fun hstop => absurd rfl hstop⟩
    have huncounted := tally_eq_zero.mp hzero c hc
    obtain ⟨j, hj⟩ := List.mem_iff_getElem?.mp hc
    refine ConnPlace.eq_gone (Bool.eq_false_iff.mpr fun hhanded => ?_) huncounted
    have hhold := (h.held j c hj).mp hhanded
    rw [hreturned] at hhold
    cases hhold

theorem Kept.step (h : s.Kept) {a : LifecycleAction} (hstep : s.step a = some t) : t.Kept := by
  cases a with
  | start ok =>
    simp only [Lifecycle.step, Option.ite_none_right_eq_some] at hstep
    obtain ⟨hidle, hstep⟩ := hstep
    split at hstep
    · cases hstep
      exact h
    · rename_i hfresh
      simp only [Option.ite_none_right_eq_some, Option.some.injEq] at hstep
      obtain ⟨hreturned, rfl⟩ := hstep
      have hnot (j : Nat) : s.acceptor ≠ .holding j := by
        rw [hreturned]
        exact nofun
      have hcount := h.wg
      rw [hreturned] at hcount
      refine ⟨h.fit, fun j d hd => iff_of_false (fun hhanded => hnot j ((h.held j d hd).mp hhanded)) nofun, nofun, ?_,
        fun _ => hidle, nofun, ?_, ?_, fun hstop => absurd hidle hstop⟩
      · change s.wg + 1 = _ + 1
        rw [hcount]
        rfl
      · change s.stopper.cancelled = true → false = true
        rw [hidle]
        exact id
      · change s.stopper.closed = true → true = false
        rw [hidle]
        exact nofun
  | stop =>
    simp only [Lifecycle.step, Option.ite_none_right_eq_some, Option.some.injEq] at hstep
    obtain ⟨hidle, rfl⟩ := hstep
    split
    · exact ⟨h.fit, h.held, h.present, h.wg, nofun, nofun, nofun, nofun, fun _ i c hc hlisted => .inr (mem_clients hc hlisted)⟩
    · exact h
  | stopping => exact h.stop hstep
  | acceptor action => exact h.accept hstep
  | conn conn action => exact h.conn hstep

theorem kept_new : Kept {} where
  fit c hc := absurd hc List.not_mem_nil
  held i c hc := by cases hc
  present i hi := by cases hi
  wg := rfl
  started _ := rfl
  ended _ _ := ⟨rfl, fun c hc => absurd hc List.not_mem_nil⟩
  cancelled hs := by cases hs
  closed hs := by cases hs
  pending hstop := absurd rfl hstop

theorem run_kept {actions : List LifecycleAction} (h : run step {} actions = some s) : s.Kept :=
  run_invariant kept_new (fun _ _ _ hu ha => hu.step ha) h

/-- However connections come and go and whatever their goroutines are at when `Stop` is called: when it has returned,
    `acceptLoop`, every `serveClient` and every updater have returned, no client is left in `clients`, every connection
    that was ever accepted is closed, and `wg` is back at zero, so that `Start` finds nothing left. -/
theorem stop_leaves_nothing {actions : List LifecycleAction} (h : run step {} actions = some s)
    (stopped : s.started = false) (returned : s.stopper = .idle) :
    s.acceptor = .returned ∧ s.wg = 0 ∧
      ∀ c ∈ s.conns, c.place = .gone ∧ c.updater = .none ∧ c.closed = true ∧ c.inClients = false := by
  have hkept := run_kept h
  obtain ⟨hreturned, hgone⟩ := hkept.ended stopped returned
  refine ⟨hreturned, ?_, fun c hc => ?_⟩
  · rw [hkept.wg, hreturned, tally_eq_zero.mpr fun c hc => by rw [hgone c hc]; rfl]
    rfl
  · have hfit := hkept.fit c hc
    have hplace := hgone c hc
    refine ⟨hplace, ?_, hfit.closed (.inr hplace), hfit.listed.trans (by rw [hplace]; rfl)⟩
    by_contra husing
    rcases hfit.updater husing with hu | hu <;> rw [hplace] at hu <;> cases hu

end Lifecycle

/-! ### `Stop` returns -/

namespace LifecycleAction

/-- The step is one of the goroutines that `Stop` waits for. -/
def ofGoroutine : LifecycleAction → Bool
  | .acceptor _ | .conn _ _ => true
  | _ => false

/-- The step needs nothing from a peer. -/
def alone : LifecycleAction → Bool
  | .acceptor action => action ≠ .connect
  | .conn _ action => action ≠ .arrive ∧ action ≠ .fail
  | _ => true

end LifecycleAction

/-- How far `acceptLoop` is from its end. -/
def AcceptPlace.weight : AcceptPlace → Nat
  | .accept | .holding _ => 2
  | .returning => 1
  | .returned => 0

namespace Lifecycle
variable {s t : Lifecycle}

/-- How far the goroutines are from their end. -/
def weight (s : Lifecycle) : Nat := total Connection.weight s.conns + s.acceptor.weight

/-- `Stop` waits, and every client is closed. -/
structure Waiting (s : Lifecycle) : Prop extends Kept s where
  waits : s.stopper = .wait

theorem Waiting.closed_of_listed (h : s.Waiting) {i : Nat} {c : Connection} (hc : s.conns[i]? = some c)
    (hlisted : c.place.listed = true) : c.closed = true := by
  have hin : c.inClients = true := ((h.fit c (List.mem_of_getElem? hc)).listed).trans hlisted
  rcases h.pending (by rw [h.waits]; exact nofun) i c hc hin with hclosed | hmem
  · exact hclosed
  · rw [h.waits] at hmem
    cases hmem

theorem Waiting.unstarted (h : s.Waiting) : s.started = false := by
  rw [Bool.eq_false_iff]
  intro hs
  have := h.started hs
  rw [h.waits] at this
  cases this

/-- A step of `acceptLoop` with its connection takes it closer to the end. -/
theorem weight_handle {i : Nat} {place : ConnPlace} {f : Connection → Connection} {wg : Int} {acceptor : AcceptPlace}
    (hstep : Lifecycle.handle { s with wg, acceptor } i place f = some t) (hacceptor : acceptor.weight ≤ s.acceptor.weight)
    (hweight : ∀ c : Connection, c.place = place → (f c).weight < c.weight) :
    t.weight < s.weight ∧ t.stopper = s.stopper := by
  obtain ⟨c, hc, hstep⟩ := Option.bind_eq_some_iff.mp hstep
  simp only [Option.ite_none_right_eq_some, Option.some.injEq] at hstep
  obtain ⟨hplace, rfl⟩ := hstep
  refine ⟨?_, rfl⟩
  have hsum := total_move Connection.weight (f c) hc
  have hless := hweight c hplace
  change total Connection.weight (s.conns.set i (f c)) + acceptor.weight < _
  unfold weight
  change total Connection.weight (s.conns.set i (f c)) + c.weight = total Connection.weight s.conns + (f c).weight at hsum
  omega

/-- Every step of the goroutines takes them closer to their end, while `Stop` waits. -/
theorem Waiting.step (h : s.Waiting) {a : LifecycleAction} (ha : a.ofGoroutine = true) (hstep : s.step a = some t) :
    t.Waiting ∧ t.weight < s.weight := by
  suffices hless : t.weight < s.weight ∧ t.stopper = s.stopper from
    ⟨⟨h.toKept.step hstep, hless.2.trans h.waits⟩, hless.1⟩
  cases a with
  | start | stop | stopping => cases ha
  | conn i action =>
    obtain ⟨c, hc, hstep⟩ := Option.bind_eq_some_iff.mp hstep
    obtain ⟨c', hc', rfl⟩ := Option.map_eq_some_iff.mp hstep
    have hmoved := Connection.moved (h.fit c (List.mem_of_getElem? hc)) hc'
    have hsum := total_move Connection.weight c' hc
    have hquiet : action ≠ .arrive := by
      rintro rfl
      simp only [Connection.step, Option.ite_none_right_eq_some] at hc'
      have hclosed := h.closed_of_listed hc (by rw [hc'.1.1]; rfl)
      rw [hc'.1.2] at hclosed
      cases hclosed
    have hless := hmoved.weight hquiet
    refine ⟨?_, rfl⟩
    unfold weight
    dsimp only
    omega
  | acceptor action =>
    have hpast : s.cancelled = true ∧ s.listening = false :=
      ⟨h.cancelled (by rw [h.waits]; rfl), h.closed (by rw [h.waits]; rfl)⟩
    change s.acceptStep action s.acceptor = some t at hstep
    unfold acceptStep at hstep
    split at hstep
    · rw [hpast.2] at hstep
      cases hstep
    · rename_i hacceptor
      cases hstep
      rw [if_pos hpast.1]
      refine ⟨?_, rfl⟩
      unfold weight
      rw [hacceptor]
      exact Nat.lt_succ_self _
    · rename_i conn hacceptor
      rw [h.unstarted] at hstep
      refine weight_handle hstep (Nat.le_refl _) fun c hc => ?_
      simp only [Connection.weight, hc, ConnPlace.weight]
      omega
    · rename_i conn hacceptor
      refine weight_handle hstep (Nat.le_refl _) fun c hc => ?_
      simp only [Connection.weight, hc, ConnPlace.weight]
      omega
    · rename_i conn hacceptor
      refine weight_handle hstep (by rw [hacceptor]; exact Nat.le_refl _) fun c hc => ?_
      simp only [Connection.weight, hc, ConnPlace.weight]
      omega
    · rename_i conn hacceptor
      refine weight_handle hstep (by rw [hacceptor]; exact Nat.le_succ _) fun c hc => ?_
      simp only [Connection.weight, hc, ConnPlace.weight]
      omega
    · rename_i hacceptor
      cases hstep
      refine ⟨?_, rfl⟩
      unfold weight
      rw [hacceptor]
      exact Nat.lt_succ_self _
    · cases hstep

/-- `acceptLoop` goes on with a connection that it has. -/
theorem isSome_handle {i : Nat} {c : Connection} (hc : s.conns[i]? = some c) (f : Connection → Connection) :
    (s.handle i c.place f).isSome := by
  rw [handle, hc]
  change (if c.place = c.place then some _ else none).isSome = true
  rw [if_pos rfl]
  rfl

theorem Waiting.accept_goes_on (h : s.Waiting) (halive : s.acceptor ≠ .returned) :
    ∃ action, action ≠ .connect ∧ (s.step (.acceptor action)).isSome := by
  cases hacceptor : s.acceptor with
  | returned => exact absurd hacceptor halive
  | accept => exact ⟨.error, nofun, by simp only [Lifecycle.step, hacceptor, acceptStep, Option.isSome_some]⟩
  | returning => exact ⟨.exit, nofun, by simp only [Lifecycle.step, hacceptor, acceptStep, Option.isSome_some]⟩
  | holding i =>
    obtain ⟨c, hc⟩ : ∃ c, s.conns[i]? = some c := ⟨_, List.getElem?_eq_getElem (h.present i hacceptor)⟩
    have hhanded := (h.held i c hc).mpr hacceptor
    have hgo (f : Connection → Connection) (wg : Int) (acceptor : AcceptPlace) :
        (Lifecycle.handle { s with wg, acceptor } i c.place f).isSome :=
      isSome_handle (s := { s with wg, acceptor }) hc f
    cases hplace : c.place <;> rw [hplace] at hhanded hgo <;> try cases hhanded
    · refine ⟨.check, nofun, ?_⟩
      simp only [Lifecycle.step, hacceptor, acceptStep, h.unstarted, Bool.false_eq_true, if_false]
      exact hgo _ s.wg s.acceptor
    · refine ⟨.refuse, nofun, ?_⟩
      simp only [Lifecycle.step, hacceptor, acceptStep]
      exact hgo _ s.wg .returning
    · refine ⟨.add, nofun, ?_⟩
      simp only [Lifecycle.step, hacceptor, acceptStep]
      exact hgo _ (s.wg + 1) (.holding i)
    · refine ⟨.spawn, nofun, ?_⟩
      simp only [Lifecycle.step, hacceptor, acceptStep]
      exact hgo _ s.wg .accept

end Lifecycle

/-- A `serveClient` that has not returned goes on without its peer, if its connection is closed. -/
theorem Connection.goes_on {c : Connection} (fit : c.Fit) (counted : c.place.counted = true) (started : c.place ≠ .added)
    (closed : c.place = .running → c.closed = true) : ∃ action, (action ≠ .arrive ∧ action ≠ .fail) ∧ (c.step action).isSome := by
  have join (hjoining : c.place.joining = true) : ∃ action, (action ≠ .arrive ∧ action ≠ .fail) ∧ (c.step action).isSome := by
    cases hupdater : c.updater with
    | ticking => exact absurd hupdater (fit.joining hjoining)
    | cancelled => exact ⟨.updaterStop, ⟨nofun, nofun⟩, by simp only [Connection.step, hupdater, if_true, Option.isSome_some]⟩
    | none =>
      refine ⟨.joined, ⟨nofun, nofun⟩, ?_⟩
      simp only [Connection.step, hupdater, if_true]
      cases hplace : c.place <;> rw [hplace] at hjoining <;> first | rfl | cases hjoining
  cases hplace : c.place with
  | running =>
    by_cases hbuffered : 0 < c.buffered
    · exact ⟨.message, ⟨nofun, nofun⟩, by simp [Connection.step, hplace, hbuffered]⟩
    · exact ⟨.eof, ⟨nofun, nofun⟩, by simp [Connection.step, hplace, closed hplace, Nat.eq_zero_of_not_pos hbuffered]⟩
  | restarting | pausing | leaving => exact join (by rw [hplace]; rfl)
  | left => exact ⟨.delete, ⟨nofun, nofun⟩, by simp [Connection.step, hplace]⟩
  | deleted => exact ⟨.close, ⟨nofun, nofun⟩, by simp [Connection.step, hplace]⟩
  | closed => exact ⟨.done, ⟨nofun, nofun⟩, by simp [Connection.step, hplace]⟩
  | added => exact absurd hplace started
  | accepted | refused | registered | gone =>
    rw [hplace] at counted
    cases counted

namespace Lifecycle
variable {s t : Lifecycle}

/-- While `Stop` waits, a goroutine that it waits for can go on. -/
theorem Waiting.goes_on (h : s.Waiting) (hwg : s.wg ≠ 0) :
    ∃ a : LifecycleAction, a.ofGoroutine = true ∧ a.alone = true ∧ (s.step a).isSome := by
  by_cases halive : s.acceptor = .returned
  · have hcount := h.wg
    rw [halive] at hcount
    have hpos : tally s.conns (fun c => c.place.counted) ≠ 0 := by
      change s.wg = _ + 0 at hcount
      omega
    obtain ⟨c, hc, hcounted⟩ : ∃ c ∈ s.conns, c.place.counted = true := by
      by_contra hnone
      push Not at hnone
      exact hpos (tally_eq_zero.mpr fun c hc => Bool.eq_false_iff.mpr (hnone c hc))
    obtain ⟨i, hi⟩ := List.mem_iff_getElem?.mp hc
    have hstarted : c.place ≠ .added := fun hplace => by
      have hhold := (h.held i c hi).mp (by rw [hplace]; rfl)
      rw [halive] at hhold
      cases hhold
    obtain ⟨action, haction, hsome⟩ := Connection.goes_on (h.fit c hc) hcounted hstarted
      fun hplace => h.closed_of_listed hi (by rw [hplace]; rfl)
    refine ⟨.conn i action, rfl, decide_eq_true haction, ?_⟩
    obtain ⟨c', hc'⟩ := Option.isSome_iff_exists.mp hsome
    simp only [Lifecycle.step, connStep, hi, Option.bind_some, hc', Option.map_some, Option.isSome_some]
  · obtain ⟨action, haction, hsome⟩ := h.accept_goes_on halive
    exact ⟨.acceptor action, rfl, decide_eq_true haction, hsome⟩

/-- Once `Stop` waits, the goroutines can take only so many steps, whatever they are at. After any of these steps, either
    `Stop` can return, or one of the goroutines can go on without its peer: nothing keeps `Stop` from returning. -/
theorem stop_returns {actions : List LifecycleAction} (h : run step {} actions = some s) (waits : s.stopper = .wait)
    {more : List LifecycleAction} (goroutines : ∀ a ∈ more, a.ofGoroutine = true) (hmore : run step s more = some t) :
    more.length + t.weight ≤ s.weight ∧
      ((∃ u, t.step .stopping = some u ∧ u.stopper = .idle) ∨
        ∃ a : LifecycleAction, a.ofGoroutine = true ∧ a.alone = true ∧ (t.step a).isSome) := by
  have hwaiting : s.Waiting := ⟨run_kept h, waits⟩
  suffices hall : ∀ {s : Lifecycle}, s.Waiting → run step s more = some t → t.Waiting ∧ more.length + t.weight ≤ s.weight by
    obtain ⟨hlater, hweight⟩ := hall hwaiting hmore
    refine ⟨hweight, ?_⟩
    by_cases hwg : t.wg = 0
    · refine .inl ⟨{ t with stopper := .idle }, ?_, rfl⟩
      simp only [Lifecycle.step, hlater.waits, stopStep, hwg, if_true]
    · exact .inr (hlater.goes_on hwg)
  clear hwaiting waits hmore h
  intro s hs hrun
  induction more generalizing s with
  | nil =>
    rw [run_nil, Option.some.injEq] at hrun
    subst hrun
    exact ⟨hs, Nat.le_of_eq (Nat.zero_add _)⟩
  | cons a more ih =>
    obtain ⟨u, hu, hrun⟩ := run_cons_eq_some.mp hrun
    obtain ⟨hnext, hless⟩ := hs.step (goroutines a (List.mem_cons_self ..)) hu
    obtain ⟨hlater, hweight⟩ := ih (fun b hb => goroutines b (List.mem_cons_of_mem a hb)) hnext hrun
    refine ⟨hlater, ?_⟩
    rw [List.length_cons]
    omega

/-- `Stop` is called while one client is served, with an updater, and another one has just been accepted. -/
def stopped : List LifecycleAction :=
  [.start true, .acceptor .connect, .acceptor .check, .acceptor .add, .acceptor .spawn, .conn 0 .arrive, .conn 0 .enable,
    .acceptor .connect, .stop, .stopping, .stopping, .stopping, .stopping]

/-- Both end, and `Stop` returns. -/
def ended : List LifecycleAction :=
  [.acceptor .check, .conn 0 .eof, .conn 0 .updaterFail, .conn 0 .joined, .acceptor .refuse, .conn 0 .delete,
    .conn 0 .close, .acceptor .exit, .conn 0 .done]

theorem stop_returns_two : ∃ s t, run step {} stopped = some s ∧ run step s ended = some t ∧ 9 + t.weight ≤ s.weight := by
  have hrun : (run step {} stopped).map (fun s => (s.stopper, (run step s ended).isSome)) = some (.wait, true) := by decide
  obtain ⟨s, hs, hstate⟩ := Option.map_eq_some_iff.mp hrun
  simp only [Prod.mk.injEq] at hstate
  obtain ⟨t, ht⟩ := Option.isSome_iff_exists.mp hstate.2
  exact ⟨s, t, hs, ht, (stop_returns hs hstate.1 (by decide) ht).1⟩

theorem stop_leaves_nothing_two : ∃ s, run step {} (stopped ++ ended ++ [.stopping]) = some s ∧ s.conns.length = 2 ∧
    ∀ c ∈ s.conns, c.closed = true := by
  have hrun : (run step {} (stopped ++ ended ++ [.stopping])).map (fun s => (s.started, s.stopper, s.conns.length)) =
      some (false, .idle, 2) := by decide
  obtain ⟨s, hs, hstate⟩ := Option.map_eq_some_iff.mp hrun
  simp only [Prod.mk.injEq] at hstate
  exact ⟨s, hs, hstate.2.2, fun c hc => ((stop_leaves_nothing hs hstate.1 hstate.2.1).2.2 c hc).2.2.1⟩

end Lifecycle

end OnekvmVnc
