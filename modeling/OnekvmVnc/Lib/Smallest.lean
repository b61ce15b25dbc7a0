import Mathlib.Data.List.Nodup
import Mathlib.Order.Lattice

/-! The first elements of sorted lists. A list with repetitions holds more than the strictly increasing list of
    the elements that count; the question is whether the two begin alike. -/

namespace Smallest

variable {α : Type*} [LinearOrder α]

/-- The number of elements below a bound. -/
def below (l : List α) (a : α) : Nat := l.countP (· < a)

@[simp] theorem below_nil (a : α) : below [] a = 0 := rfl

theorem below_cons_of_lt {l : List α} {a b : α} (h : b < a) : below (b :: l) a = below l a + 1 :=
  List.countP_cons_of_pos (by simpa using h)

theorem below_eq_zero {l : List α} {a : α} (h : ∀ b ∈ l, a ≤ b) : below l a = 0 := by
  rw [below, List.countP_eq_zero]
  intro b hb
  simpa using h b hb

/-- An element of `all` that is not wanted, or that is there twice, comes after the first `n` of `wanted`; the
    second of two may also be the first one to be cut off. -/
def Beyond (n : Nat) (all wanted : List α) : Prop :=
  ∀ a ∈ all, (a ∉ wanted → n ≤ below wanted a) ∧ (1 < all.count a → n ≤ below wanted a + 1)

/-- The first element of both lists is the same, so the question is about the rest. -/
theorem beyond_cons {n : Nat} {a : α} {all wanted : List α} (hall : ∀ b ∈ all, a ≤ b) (hwanted : ∀ b ∈ wanted, a < b) :
    Beyond (n + 1) (a :: all) (a :: wanted) ↔ Beyond n all wanted := by
  have hnot : a ∉ wanted := fun h => lt_irrefl a (hwanted a h)
  have hzero : below wanted a = 0 := below_eq_zero fun b hb => (hwanted b hb).le
  have hself : below (a :: wanted) a = 0 := below_eq_zero fun b hb =>
    (List.mem_cons.mp hb).elim (fun h => h.ge) fun h => (hwanted b h).le
  constructor
  · intro h b hb
    obtain ⟨hextra, htwice⟩ := h b (List.mem_cons_of_mem a hb)
    rcases (hall b hb).eq_or_lt with rfl | hlt
    · -- A second copy of the first element: only the first one fits.
      have hcount : 1 < (a :: all).count a := by
        rw [List.count_cons_self]
        exact Nat.succ_lt_succ (List.count_pos_iff.mpr hb)
      have hn := htwice hcount
      rw [hself] at hn
      exact ⟨fun _ => by omega, fun _ => by omega⟩
    · rw [below_cons_of_lt hlt] at hextra htwice
      rw [List.count_cons_of_ne hlt.ne] at htwice
      refine ⟨fun hb' => ?_, fun hcount => by have := htwice hcount; omega⟩
      have := hextra (by simp [hlt.ne', hb'])
      omega
  · intro h b hb
    rcases List.mem_cons.mp hb with rfl | hb
    · refine ⟨fun hb' => absurd List.mem_cons_self hb', fun hcount => ?_⟩
      rw [List.count_cons_self] at hcount
      have := (h b (List.count_pos_iff.mp (by omega))).1 hnot
      omega
    · obtain ⟨hextra, htwice⟩ := h b hb
      rcases (hall b hb).eq_or_lt with rfl | hlt
      · have := hextra hnot
        exact ⟨fun hb' => absurd List.mem_cons_self hb', fun _ => by omega⟩
      · rw [below_cons_of_lt hlt, List.count_cons_of_ne hlt.ne]
        refine ⟨fun hb' => ?_, fun hcount => by have := htwice hcount; omega⟩
        have := hextra fun hmem => hb' (List.mem_cons_of_mem a hmem)
        omega

/-- Sorted lists of which one holds the other begin alike exactly when all that differs is beyond. -/
theorem take_eq_take_iff {n : Nat} {all wanted : List α} (hall : all.Pairwise (· ≤ ·))
    (hwanted : wanted.Pairwise (· < ·)) (hsub : ∀ a ∈ wanted, a ∈ all) :
    all.take n = wanted.take n ↔ Beyond n all wanted := by
  induction n generalizing all wanted with
  | zero => simp [Beyond]
  | succ n ih =>
    cases all with
    | nil =>
      obtain rfl : wanted = [] := List.eq_nil_iff_forall_not_mem.mpr fun a ha => by simpa using hsub a ha
      simp [Beyond]
    | cons a all =>
      obtain ⟨hleast, hall⟩ := List.pairwise_cons.mp hall
      -- An unwanted first element is below everything that is wanted.
      have hunwanted (hlt : ∀ b ∈ wanted, a < b) : ¬ Beyond (n + 1) (a :: all) wanted := fun h => by
        have := (h a List.mem_cons_self).1 fun ha => lt_irrefl a (hlt a ha)
        rw [below_eq_zero fun b hb => (hlt b hb).le] at this
        omega
      cases wanted with
      | nil => simpa using hunwanted (by simp)
      | cons b wanted =>
        obtain ⟨hfirst, hrest⟩ := List.pairwise_cons.mp hwanted
        have hle : a ≤ b := (List.mem_cons.mp (hsub b List.mem_cons_self)).elim (fun h => h.ge) (hleast b)
        rcases hle.eq_or_lt with rfl | hlt
        · have hsub' : ∀ c ∈ wanted, c ∈ all := fun c hc =>
            (List.mem_cons.mp (hsub c (List.mem_cons_of_mem a hc))).resolve_left (hfirst c hc).ne'
          rw [List.take_succ_cons, List.take_succ_cons, List.cons.injEq, beyond_cons hleast hfirst,
            ← ih hall hrest hsub']
          exact and_iff_right rfl
        · have hbelow : ∀ c ∈ b :: wanted, a < c := fun c hc =>
            (List.mem_cons.mp hc).elim (fun h => h ▸ hlt) fun h => hlt.trans (hfirst c h)
          simp [hlt.ne, hunwanted hbelow]

end Smallest
