/-! Threads that put things into boxes and ring a bell, for one that sleeps until it rings. Who has put something into a
    box rings afterwards, and the one that was woken silences the bell before it looks into the boxes. As long as both
    keep this order, nothing waits in a box behind a silent bell. -/

namespace Doorbell

variable {ι : Type}

/-- The bell and the boxes, as far as waking goes. -/
structure View (ι : Type) where
  /-- The bell has rung and was not silenced since. -/
  rung : Prop
  /-- Something new is in the box. -/
  news : ι → Prop
  /-- Someone who has put something into the box is going to ring. -/
  ringing : ι → Prop
  /-- The box will be looked into before the next sleep. -/
  ahead : ι → Prop

/-- Whatever is new will be looked at. -/
def Heard (v : View ι) : Prop := ∀ i, v.news i → v.rung ∨ v.ringing i ∨ v.ahead i

namespace Heard
variable {v w : View ι}

/-- While the bell is silent and nobody is about to ring, nothing new is in a box that is not ahead. -/
theorem quiet (h : Heard v) (silent : ¬ v.rung) {i : ι} (ringing : ¬ v.ringing i) (behind : ¬ v.ahead i) : ¬ v.news i :=
  fun hnews => by
    rcases h i hnews with hrung | hringing | hahead
    · exact silent hrung
    · exact ringing hringing
    · exact behind hahead

/-- What becomes new is announced or ahead, and only a box that has been looked into is ahead no more. -/
theorem keep (h : Heard v) (rung : v.rung → w.rung) (news : ∀ i, w.news i → v.news i ∨ w.ringing i ∨ w.ahead i)
    (ringing : ∀ i, v.ringing i → w.ringing i) (ahead : ∀ i, v.ahead i → w.ahead i ∨ ¬ w.news i) : Heard w := by
  intro i hnews
  rcases news i hnews with hold | hnew
  · rcases h i hold with hrung | hringing | hahead
    · exact .inl (rung hrung)
    · exact .inr (.inl (ringing i hringing))
    · exact .inr (.inr ((ahead i hahead).resolve_right (not_not_intro hnews)))
  · exact .inr hnew

/-- The bell rings. -/
theorem ring (rung : w.rung) : Heard w := fun _ _ => .inl rung

/-- The bell is silenced, and all boxes are ahead. -/
theorem silence (ahead : ∀ i, w.ahead i) : Heard w := fun i _ => .inr (.inr (ahead i))

end Heard

end Doorbell
