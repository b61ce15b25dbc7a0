import Mathlib.Data.List.Chain

/-! Items with rising sequence numbers that come in groups, and a reader that takes the first item past its
    cursor. The items may be dropped at any time; what the reader has taken is linked all the same. A reader may also set
    its cursor back, when a new term begins; what it takes rises within every term. -/

namespace Cursor

variable {ι : Type*} {seq : ι → Nat} {start : ι → Prop} {next next' : ι → ι → Prop} {items read : List ι} {f g : ι}
  {cursor : Nat}

/-- The first item starts a group, and every other item starts one or follows the item before it. -/
structure Linked (start : ι → Prop) (next : ι → ι → Prop) (items : List ι) : Prop where
  head : ∀ g ∈ items.head?, start g
  chain : items.IsChain fun f g => start g ∨ next f g

namespace Linked

theorem nil : Linked start next [] := ⟨nofun, .nil⟩

theorem concat (h : Linked start next items) (hg : start g ∨ ∃ f ∈ items.getLast?, next f g) :
    Linked start next (items ++ [g]) := by
  refine ⟨fun a ha => ?_, List.isChain_append.mpr ⟨h.chain, .singleton g, fun f hf b hb => ?_⟩⟩
  · cases items with
    | nil =>
      obtain rfl := Option.some.inj ha
      exact hg.resolve_right fun ⟨_, hf, _⟩ => by cases hf
    | cons b rest => exact h.head a ha
  · obtain rfl := Option.some.inj hb
    rcases hg with hstart | ⟨f', hf', hnext⟩
    · exact .inl hstart
    · rw [hf, Option.mem_some_iff] at hf'
      exact .inr (hf' ▸ hnext)

/-- An item starts a group or follows the item before it. -/
theorem link {pre post : List ι} (h : Linked start next (pre ++ g :: post)) : start g ∨ ∃ f ∈ pre.getLast?, next f g := by
  rcases List.eq_nil_or_concat pre with rfl | ⟨pre, f, rfl⟩
  · exact .inl (h.head g rfl)
  · have hchain := (List.isChain_append.mp h.chain).2.2 f (by simp) g rfl
    exact hchain.imp_right fun hnext => ⟨f, by simp, hnext⟩

theorem imp (h : Linked start next items) (himp : ∀ f ∈ items, ∀ g ∈ items, next f g → next' f g) :
    Linked start next' items :=
  ⟨h.head, h.chain.imp_of_mem_imp fun f g hf hg hlink => hlink.imp_right (himp f hf g hg)⟩

end Linked

/-- What has been read is linked. The item read last is among the items, or all of them come after the cursor. -/
structure Reader (seq : ι → Nat) (start : ι → Prop) (next : ι → ι → Prop) (items : List ι) (cursor : Nat)
    (read : List ι) : Prop where
  linked : Linked start next read
  place : (∃ f ∈ read.getLast?, f ∈ items ∧ seq f = cursor) ∨ ∀ g ∈ items, cursor < seq g

namespace Reader

/-- All items are dropped. -/
theorem clear (h : Reader seq start next items cursor read) : Reader seq start next [] cursor read :=
  ⟨h.linked, .inr nofun⟩

theorem append (h : Reader seq start next items cursor read) (hg : cursor < seq g) :
    Reader seq start next (items ++ [g]) cursor read := by
  refine ⟨h.linked, h.place.imp (fun ⟨f, hf, hmem, hseq⟩ => ⟨f, hf, List.mem_append_left _ hmem, hseq⟩) ?_⟩
  intro hall a ha
  rcases List.mem_append.mp ha with ha | ha
  · exact hall a ha
  · exact List.mem_singleton.mp ha ▸ hg

theorem imp (h : Reader seq start next items cursor read) (himp : ∀ f ∈ read, ∀ g ∈ read, next f g → next' f g) :
    Reader seq start next' items cursor read :=
  ⟨h.linked.imp himp, h.place⟩

/-- The first item past the cursor is read. -/
theorem take (h : Reader seq start next items cursor read) (linked : Linked start next items)
    (rising : items.Pairwise fun f g => seq f < seq g) (hfind : items.find? (cursor < seq ·) = some g) :
    Reader seq start next items (seq g) (read ++ [g]) := by
  obtain ⟨hcursor, pre, post, rfl, hpre⟩ := List.find?_eq_some_iff_append.mp hfind
  have hpast (a : ι) (ha : a ∈ pre) : seq a ≤ cursor := by simpa using hpre a ha
  refine ⟨h.linked.concat (linked.link.imp_right ?_), .inl ⟨g, by simp, by simp, rfl⟩⟩
  rintro ⟨l, hl, hnext⟩
  obtain ⟨pre, rfl⟩ : ∃ pre', pre = pre' ++ [l] := List.getLast?_eq_some_iff.mp hl
  rcases h.place with ⟨f, hf, hmem, hseq⟩ | hall
  · -- The item at the cursor is the last one that is not past it.
    suffices f = l from ⟨f, hf, this ▸ hnext⟩
    have hl' := hpast l (by simp)
    rw [List.append_assoc, List.pairwise_append] at rising
    obtain ⟨-, htail, hcross⟩ := rising
    simp only [List.append_assoc, List.mem_append, List.singleton_append, List.mem_cons] at hmem
    rcases hmem with hmem | rfl | hmem
    · have := hcross f hmem l (by simp)
      omega
    · rfl
    · have := (List.pairwise_cons.mp htail).1 f (by simpa using hmem)
      have hfpast : cursor < seq f := by
        rcases hmem with rfl | hmem
        · simpa using hcursor
        · have hgf := (List.pairwise_cons.mp (List.pairwise_cons.mp htail).2).1 f hmem
          have hg : cursor < seq g := by simpa using hcursor
          omega
      omega
  · have := hall l (by simp)
    have := hpast l (by simp)
    omega

end Reader

/-! ### Terms -/

/-- The numbers of what was taken in one term rise, up to the cursor in the term that lasts. -/
structure Rising (term : ι → Nat) (number : ι → Option Nat) (log : List ι) (now cursor : Nat) : Prop where
  pairwise : log.Pairwise fun f g => term f = term g → ∀ m ∈ number f, ∀ n ∈ number g, m < n
  past : ∀ f ∈ log, term f ≤ now
  below : ∀ f ∈ log, term f = now → ∀ n ∈ number f, n ≤ cursor

namespace Rising
variable {term : ι → Nat} {number : ι → Option Nat} {log : List ι} {now cursor' : Nat}

theorem nil : Rising term number [] now cursor := ⟨.nil, nofun, nofun⟩

/-- A new term begins. -/
theorem change (h : Rising term number log now cursor) : Rising term number log (now + 1) cursor' := by
  refine ⟨h.pairwise, fun f hf => Nat.le_succ_of_le (h.past f hf), fun f hf hterm => ?_⟩
  have := h.past f hf
  omega

/-- What is taken has a number past the cursor, which becomes the cursor, or it has none. -/
theorem concat (h : Rising term number log now cursor) (hterm : term g = now) (hle : cursor ≤ cursor')
    (hnumber : ∀ n ∈ number g, cursor < n ∧ n ≤ cursor') : Rising term number (log ++ [g]) now cursor' := by
  refine ⟨?_, fun f hf => ?_, fun f hf hnow n hn => ?_⟩
  · refine List.pairwise_append.mpr ⟨h.pairwise, List.pairwise_singleton .., fun f hf b hb hsame m hm n hn => ?_⟩
    obtain rfl := List.mem_singleton.mp hb
    exact Nat.lt_of_le_of_lt (h.below f hf (hsame.trans hterm) m hm) (hnumber n hn).1
  · rcases List.mem_append.mp hf with hf | hf
    · exact h.past f hf
    · rw [List.mem_singleton.mp hf, hterm]
  · rcases List.mem_append.mp hf with hf | hf
    · exact (h.below f hf hnow n hn).trans hle
    · rw [List.mem_singleton.mp hf] at hn
      exact (hnumber n hn).2

end Rising

end Cursor
