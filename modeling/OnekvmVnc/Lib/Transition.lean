import Mathlib.Data.List.Induction

/-! Runs of a transition system given by a partial step function, and the rules that carry a
    property from one step to a whole run. An action that is not enabled ends the run, so `run` is
    `some` exactly on the interleavings the system can take. -/

namespace Transition

variable {σ α : Type*}

/-- The state after the actions `acts`, if each of them is enabled in turn. -/
def run (step : σ → α → Option σ) (s : σ) (acts : List α) : Option σ := acts.foldlM step s

section
variable {step : σ → α → Option σ} {s t : σ}

@[simp] theorem run_nil : run step s [] = some s := rfl

@[simp] theorem run_cons (a : α) (acts : List α) : run step s (a :: acts) = (step s a).bind (run step · acts) := rfl

theorem run_append (as bs : List α) : run step s (as ++ bs) = (run step s as).bind (run step · bs) := by
  induction as generalizing s with
  | nil => rfl
  | cons a as ih =>
    simp only [List.cons_append, run_cons, Option.bind_assoc, ih]

theorem run_append_eq_some {as bs : List α} :
    run step s (as ++ bs) = some t ↔ ∃ u, run step s as = some u ∧ run step u bs = some t := by
  rw [run_append, Option.bind_eq_some_iff]

theorem run_cons_eq_some {a : α} {acts : List α} :
    run step s (a :: acts) = some t ↔ ∃ u, step s a = some u ∧ run step u acts = some t := by
  rw [run_cons, Option.bind_eq_some_iff]

theorem run_concat_eq_some {acts : List α} {a : α} :
    run step s (acts ++ [a]) = some t ↔ ∃ u, run step s acts = some u ∧ step u a = some t := by
  simp [run_append_eq_some]

/-- A property of the actions taken so far and the state they lead to holds after every run, when it
    holds at the start and each step keeps it. -/
theorem run_history {P : List α → σ → Prop} (start : P [] s)
    (keep : ∀ pre u a v, run step s pre = some u → P pre u → step u a = some v → P (pre ++ [a]) v)
    {acts : List α} (h : run step s acts = some t) : P acts t := by
  induction acts using List.reverseRecOn generalizing t with
  | nil =>
    rw [run_nil, Option.some.injEq] at h
    exact h ▸ start
  | append_singleton pre a ih =>
    obtain ⟨u, hu, ha⟩ := run_concat_eq_some.mp h
    exact keep pre u a t hu (ih hu) ha

/-- An invariant of every step is an invariant of every run. -/
theorem run_invariant {P : σ → Prop} (start : P s) (keep : ∀ u a v, P u → step u a = some v → P v)
    {acts : List α} (h : run step s acts = some t) : P t :=
  run_history (P := fun _ u => P u) start (fun _ u a v _ hu ha => keep u a v hu ha) h

/-- Each action of a run is taken in a state that allows it. -/
def Allowed (step : σ → α → Option σ) (Q : σ → α → Prop) (s : σ) (acts : List α) : Prop :=
  ∀ pre a post u, acts = pre ++ a :: post → run step s pre = some u → Q u a

theorem allowed_nil {Q : σ → α → Prop} : Allowed step Q s [] := fun pre a post _ h => by simp at h

theorem allowed_cons {Q : σ → α → Prop} {a : α} {acts : List α} :
    Allowed step Q s (a :: acts) ↔ Q s a ∧ ∀ u, step s a = some u → Allowed step Q u acts := by
  constructor
  · intro h
    refine ⟨h [] a acts s rfl rfl, fun u hu pre b post v hsplit hv => h (a :: pre) b post v ?_ ?_⟩
    · rw [hsplit, List.cons_append]
    · exact run_cons_eq_some.mpr ⟨u, hu, hv⟩
  · rintro ⟨hfirst, hrest⟩ pre b post v hsplit hv
    cases pre with
    | nil =>
      obtain ⟨rfl, rfl⟩ := List.cons.inj hsplit
      rw [run_nil, Option.some.injEq] at hv
      exact hv ▸ hfirst
    | cons c pre =>
      obtain ⟨rfl, rfl⟩ := List.cons.inj hsplit
      obtain ⟨u, hu, hv⟩ := run_cons_eq_some.mp hv
      exact hrest u hu pre b post v rfl hv

theorem Allowed.of_append {Q : σ → α → Prop} {as bs : List α} (h : Allowed step Q s (as ++ bs)) :
    Allowed step Q s as := by
  intro pre a post u hsplit hu
  exact h pre a (post ++ bs) u (by rw [hsplit, List.append_assoc, List.cons_append]) hu

/-- What every action finds, and the run ends with, holds at every point. -/
theorem Allowed.between {P : σ → Prop} {as bs : List α} {u : σ} (h : Allowed step (fun v _ => P v) s (as ++ bs))
    (hend : run step s (as ++ bs) = some t) (last : P t) (hu : run step s as = some u) : P u := by
  cases bs with
  | nil =>
    rw [List.append_nil, hu, Option.some.injEq] at hend
    exact hend ▸ last
  | cons b bs => exact h as b bs u rfl hu

instance decidableAllowed {Q : σ → α → Prop} [∀ u a, Decidable (Q u a)] :
    (s : σ) → (acts : List α) → Decidable (Allowed step Q s acts)
  | _, [] => .isTrue allowed_nil
  | s, a :: acts =>
    match h : step s a with
    | none => decidable_of_iff (Q s a) (by simp [allowed_cons, h])
    | some u =>
      have := decidableAllowed (Q := Q) u acts
      decidable_of_iff (Q s a ∧ Allowed step Q u acts) (by simp [allowed_cons, h])

/-- A property of the actions taken so far and the state they lead to, when each step keeps it whenever its action
    is allowed. -/
theorem run_history_of_allowed {P : List α → σ → Prop} {Q : σ → α → Prop} (start : P [] s)
    (keep : ∀ pre u a v, run step s pre = some u → P pre u → Q u a → step u a = some v → P (pre ++ [a]) v)
    {acts : List α} (allowed : Allowed step Q s acts) (h : run step s acts = some t) : P acts t := by
  induction acts using List.reverseRecOn generalizing t with
  | nil =>
    rw [run_nil, Option.some.injEq] at h
    exact h ▸ start
  | append_singleton pre a ih =>
    obtain ⟨u, hu, ha⟩ := run_concat_eq_some.mp h
    exact keep pre u a t hu (ih allowed.of_append hu) (allowed pre a [] u rfl hu) ha

/-- An invariant that each step keeps whenever its action is allowed holds after every run of
    allowed actions. -/
theorem run_invariant_of_allowed {P : σ → Prop} {Q : σ → α → Prop} (start : P s)
    (keep : ∀ u a v, P u → Q u a → step u a = some v → P v) {acts : List α} (allowed : Allowed step Q s acts)
    (h : run step s acts = some t) : P t := by
  induction acts generalizing s with
  | nil =>
    rw [run_nil, Option.some.injEq] at h
    exact h ▸ start
  | cons a acts ih =>
    obtain ⟨u, hu, h⟩ := run_cons_eq_some.mp h
    obtain ⟨hfirst, hrest⟩ := allowed_cons.mp allowed
    exact ih (keep s a u start hfirst hu) (hrest u hu) h

/-- An invariant that the steps of the actions in `acts` keep holds after the run of `acts`. -/
theorem run_invariant_of_mem {P : σ → Prop} {acts : List α} (start : P s)
    (keep : ∀ u v, ∀ a ∈ acts, P u → step u a = some v → P v) (h : run step s acts = some t) : P t :=
  run_invariant_of_allowed (Q := fun _ a => a ∈ acts) start (fun u a v hu hmem ha => keep u v a hmem hu ha)
    (fun pre a post _ hacts _ => by simp [hacts]) h

end

/-! ### What a run leaves behind -/

/-- What the steps of a run put out, where `out` says what a step puts out that is taken in a state. -/
def collect {β : Type*} (step : σ → α → Option σ) (out : σ → α → List β) (s : σ) : List α → List β
  | [] => []
  | a :: acts => out s a ++ ((step s a).map (collect step out · acts)).getD []

section
variable {β : Type*} {step : σ → α → Option σ} {out : σ → α → List β} {s t : σ}

theorem collect_append {as bs : List α} (h : run step s as = some t) :
    collect step out s (as ++ bs) = collect step out s as ++ collect step out t bs := by
  induction as generalizing s with
  | nil =>
    rw [run_nil, Option.some.injEq] at h
    rw [h]
    rfl
  | cons a as ih =>
    obtain ⟨u, hu, h⟩ := run_cons_eq_some.mp h
    simp only [List.cons_append, collect, hu, Option.map_some, Option.getD_some, ih h, List.append_assoc]

theorem collect_concat {acts : List α} {a : α} (h : run step s acts = some t) :
    collect step out s (acts ++ [a]) = collect step out s acts ++ out t a := by
  rw [collect_append h]
  simp only [collect, List.append_cancel_left_eq]
  cases step t a <;> simp

end

/-! ### Histories -/

/-- Each element of a history stands in the relation to the part of the history before it. -/
def Along (Q : List α → α → Prop) (history : List α) : Prop :=
  ∀ pre a post, history = pre ++ a :: post → Q pre a

section
variable {Q : List α → α → Prop} {history : List α} {a : α}

/-- An element of a history that grows was in it before, or is the new one. -/
theorem split_concat {pre post : List α} {b : α} (h : history ++ [a] = pre ++ b :: post) :
    (∃ rest, history = pre ++ b :: rest) ∨ (history = pre ∧ a = b) := by
  rcases List.eq_nil_or_concat post with rfl | ⟨rest, c, rfl⟩
  · obtain ⟨hhistory, hab⟩ := List.append_inj' h rfl
    exact .inr ⟨hhistory, List.head_eq_of_cons_eq hab⟩
  · rw [List.concat_eq_append, ← List.cons_append, ← List.append_assoc] at h
    exact .inl ⟨rest, (List.append_inj' h rfl).1⟩

theorem along_nil : Along Q [] := fun pre a post h => by simp at h

theorem Along.of_append {more : List α} (h : Along Q (history ++ more)) : Along Q history := by
  intro pre a post hsplit
  refine h pre a (post ++ more) ?_
  rw [hsplit, List.append_assoc, List.cons_append]

theorem along_concat : Along Q (history ++ [a]) ↔ Along Q history ∧ Q history a := by
  constructor
  · intro h
    refine ⟨fun pre b post hsplit => h pre b (post ++ [a]) ?_, h history a [] rfl⟩
    rw [hsplit, List.append_assoc, List.cons_append]
  · rintro ⟨hold, hnew⟩ pre b post hsplit
    rcases split_concat hsplit with ⟨rest, hrest⟩ | ⟨rfl, rfl⟩
    · exact hold pre b rest hrest
    · exact hnew

end

end Transition
