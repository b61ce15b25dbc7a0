import OnekvmVnc.Theorems.Server.Resize

/-! The turns of the loop of `ProcessFrame`: the turn of one client leaves the others and the schedule as
    they are, and a client that is not skipped at its turn is sent the frame, has nothing to be sent, or is
    closed. -/

namespace OnekvmVnc

variable {decoder : JPEGDecoder}

namespace Server
variable {s t u : Server}

/-- The two servers agree on the schedules, and on the number of the latest frame. -/
structure SameSchedule (s t : Server) : Prop where
  fps : t.fps = s.fps
  latestSequence : t.latestSequence = s.latestSequence
  lastJPEGSent : t.lastJPEGSent = s.lastJPEGSent
  lastFramebufferProcessed : t.lastFramebufferProcessed = s.lastFramebufferProcessed

theorem SameSchedule.refl : SameSchedule s s := ⟨rfl, rfl, rfl, rfl⟩

theorem SameSchedule.trans (h : SameSchedule s t) (h' : SameSchedule t u) : SameSchedule s u :=
  ⟨h'.fps.trans h.fps, h'.latestSequence.trans h.latestSequence, h'.lastJPEGSent.trans h.lastJPEGSent,
    h'.lastFramebufferProcessed.trans h.lastFramebufferProcessed⟩

theorem SameSchedule.paced (h : SameSchedule s t) (k : Client) (now : Int) : t.paced k now = s.paced k now := by
  unfold Server.paced jpegInterval jpegSlack framebufferInterval
  rw [h.fps, h.lastJPEGSent, h.lastFramebufferProcessed]

/-- The schedule of direct JPEG or of the fallback. -/
def last (s : Server) (direct : Bool) : Int := if direct then s.lastJPEGSent else s.lastFramebufferProcessed

def interval (s : Server) (direct : Bool) : Int := if direct then s.jpegInterval else s.framebufferInterval

/-- How much the gate opens before the interval is over. -/
def slack (s : Server) (direct : Bool) : Int := if direct then s.jpegSlack else 0

/-- The gate of the rate limiter is closed. -/
def gateClosed (s : Server) (direct : Bool) (now : Int) : Bool :=
  s.last direct ≠ 0 && now - s.last direct < s.interval direct - s.slack direct

theorem paced_eq (k : Client) (now : Int) :
    s.paced k now = (s.gateClosed k.wantsDirectJPEG now && !k.data.forceUpdate) := by
  unfold Server.paced gateClosed last interval slack
  cases k.wantsDirectJPEG with
  | true => rfl
  | false => simp

theorem markTiles_schedule (tiles : List TileRect) : SameSchedule s (s.markTiles tiles) := by
  unfold markTiles
  induction tiles generalizing s with
  | nil => exact .refl
  | cons tile tiles ih =>
    have h := ih (s := s.rfbMarkRectAsModified tile.x tile.y (tile.x + tile.width) (tile.y + tile.height))
    exact ⟨h.fps, h.latestSequence, h.lastJPEGSent, h.lastFramebufferProcessed⟩

theorem decodeLatestFrame_schedule (frame : JPEGFrame) (sequence : Nat) :
    SameSchedule s (s.decodeLatestFrame decoder frame sequence).1 := by
  unfold decodeLatestFrame
  split
  · exact .refl
  · dsimp only
    split
    · exact ⟨rfl, rfl, rfl, rfl⟩
    · exact ⟨(markTiles_schedule _).fps, (markTiles_schedule _).latestSequence, (markTiles_schedule _).lastJPEGSent,
        (markTiles_schedule _).lastFramebufferProcessed⟩

end Server

namespace FrameLoop
variable {l l' l'' : FrameLoop} {c d : ClientPtr} {env : Server.FrameEnv} {frame : JPEGFrame} {sequence : Nat}

/-! ### One turn -/

/-- What the turn of a client leaves as it was. Once the frame is decoded, the other clients do not change. -/
structure Turn (l l' : FrameLoop) (c : ClientPtr) : Prop where
  schedule : Server.SameSchedule l.server l'.server
  clients : l'.server.clients = l.server.clients
  others : ∀ d, d ≠ c → ∃ region, l'.server.client d = { l.server.client d with modifiedRegion := region }
  decoded : l.decoded = true → l'.decoded = true ∧ ∀ d, d ≠ c → l'.server.client d = l.server.client d
  closing : l.closing ⊆ l'.closing

theorem Turn.refl : Turn l l c :=
  ⟨.refl, rfl, fun _ _ => ⟨_, rfl⟩, fun h => ⟨h, fun _ _ => rfl⟩, List.Subset.refl _⟩

theorem Turn.trans (h : Turn l l' c) (h' : Turn l' l'' c) : Turn l l'' c := by
  refine ⟨h.schedule.trans h'.schedule, h'.clients.trans h.clients, ?_, ?_, List.Subset.trans h.closing h'.closing⟩
  · intro d hd
    obtain ⟨region, hclient⟩ := h.others d hd
    obtain ⟨region', hclient'⟩ := h'.others d hd
    exact ⟨region', by rw [hclient', hclient]⟩
  · intro hdecoded
    obtain ⟨hdecoded', hothers⟩ := h.decoded hdecoded
    obtain ⟨hdecoded'', hothers'⟩ := h'.decoded hdecoded'
    exact ⟨hdecoded'', fun d hd => (hothers' d hd).trans (hothers d hd)⟩

theorem turn_modify (f : Client → Client) (sentJPEG sentFramebuffer : Bool) :
    Turn l { l with server := l.server.modify c f, sentJPEG, sentFramebuffer } c :=
  ⟨⟨rfl, rfl, rfl, rfl⟩, rfl, fun _ hd => ⟨_, Server.modify_client_of_ne hd f⟩,
    fun h => ⟨h, fun _ hd => Server.modify_client_of_ne hd f⟩, List.Subset.refl _⟩

theorem turn_close : Turn l (l.close d) c :=
  ⟨.refl, rfl, fun _ _ => ⟨_, rfl⟩, fun h => ⟨h, fun _ _ => rfl⟩, List.subset_append_left _ _⟩

theorem turn_decode (hdecoded : l.decoded = false) (decoded : Bool) :
    Turn l { l with server := (l.server.decodeLatestFrame decoder frame sequence).1, decoded } c := by
  have hframe : Server.SameFrame l.server (l.server.decodeLatestFrame decoder frame sequence).1 :=
    Server.sameFrame_decodeLatestFrame frame sequence
  refine ⟨Server.decodeLatestFrame_schedule frame sequence, hframe.clients, fun d _ => hframe.client d, fun h => ?_,
    List.Subset.refl _⟩
  rw [hdecoded] at h
  cases h

/-- A client with direct JPEG is closed, or is sent the frame. -/
theorem serveJPEG_cases (l : FrameLoop) (c : ClientPtr) : l.serveJPEG decoder env frame sequence c = l.close c ∨
    ∃ k, l.serveJPEG decoder env frame sequence c =
      { l with server := l.server.modify c fun _ => Client.served k sequence, sentJPEG := true } := by
  unfold serveJPEG
  dsimp only
  generalize (if (l.server.client c).wantsNativeJPEG then
      (l.server.client c).sendNativeJPEG frame (env.queued c)
        (Server.image decoder frame l.server.width l.server.height) l.server.previous
    else (l.server.client c).sendJPEG frame (env.queued c)
      (Server.image decoder frame l.server.width l.server.height) l.server.previous) = r
  obtain ⟨k, ok⟩ := r
  cases ok with
  | false => exact .inl rfl
  | true => exact .inr ⟨k, rfl⟩

theorem turn_serveJPEG : Turn l (l.serveJPEG decoder env frame sequence c) c := by
  rcases serveJPEG_cases l c with h | ⟨k, h⟩
  · rw [h]
    exact turn_close
  · rw [h]
    exact turn_modify (fun _ => k.served sequence) true l.sentFramebuffer

theorem turn_serveFramebuffer : Turn l (l.serveFramebuffer decoder env frame sequence c) c := by
  unfold serveFramebuffer
  dsimp only
  split
  · exact (turn_modify _ l.sentJPEG l.sentFramebuffer).trans turn_close
  · exact turn_modify _ l.sentJPEG l.sentFramebuffer
  · exact turn_modify _ l.sentJPEG true

/-- A fallback client is served from the decoded frame, or closed if the frame is not decoded. -/
theorem serveFallback_cases (l : FrameLoop) (c : ClientPtr) :
    (l.decoded = true ∧ l.serveFallback decoder env frame sequence c = l.serveFramebuffer decoder env frame sequence c) ∨
    (l.decoded = false ∧ (l.serveFallback decoder env frame sequence c =
        FrameLoop.close { l with server := (l.server.decodeLatestFrame decoder frame sequence).1 } c ∨
      l.serveFallback decoder env frame sequence c = serveFramebuffer
        { l with server := (l.server.decodeLatestFrame decoder frame sequence).1, decoded := true }
          decoder env frame sequence c)) := by
  unfold serveFallback
  cases l.decoded with
  | true => exact .inl ⟨rfl, rfl⟩
  | false =>
    generalize l.server.decodeLatestFrame decoder frame sequence = r
    obtain ⟨server, ok⟩ := r
    cases ok with
    | false => exact .inr ⟨rfl, .inl rfl⟩
    | true => exact .inr ⟨rfl, .inr rfl⟩

theorem turn_serveFallback : Turn l (l.serveFallback decoder env frame sequence c) c := by
  rcases serveFallback_cases l c with ⟨-, h⟩ | ⟨hdecoded, h | h⟩
  · rw [h]
    exact turn_serveFramebuffer
  · rw [h]
    exact (turn_decode hdecoded l.decoded).trans turn_close
  · rw [h]
    exact (turn_decode hdecoded true).trans turn_serveFramebuffer

/-- The log message of a client that waits. -/
def logged (l : FrameLoop) (c : ClientPtr) : FrameLoop :=
  { l with server := l.server.modify c fun k => { k with data := { k.data with loggedEncoding := true } } }

theorem turn_logged : Turn l (l.logged c) c := turn_modify _ l.sentJPEG l.sentFramebuffer

/-- A client that does not wait, or that the limiter skips, has no turn. -/
theorem client_skipped (h : Server.waiting (l.server.client c) sequence = false ∨
    l.server.paced (l.server.client c) env.now = true) :
    l.client decoder env frame sequence c = l ∨ l.client decoder env frame sequence c = l.logged c := by
  unfold client
  dsimp only
  cases hwaiting : Server.waiting (l.server.client c) sequence with
  | false => exact .inl rfl
  | true =>
    have hpaced := h.resolve_left (by simp [hwaiting])
    have hlogged : (l.logged c).server.paced (l.server.client c) env.now = true := hpaced
    exact .inr (if_pos hlogged)

theorem client_served (hwaiting : Server.waiting (l.server.client c) sequence = true)
    (hpaced : l.server.paced (l.server.client c) env.now = false) :
    l.client decoder env frame sequence c =
      if (l.server.client c).wantsDirectJPEG then (l.logged c).serveJPEG decoder env frame sequence c
      else (l.logged c).serveFallback decoder env frame sequence c := by
  have hopen : ¬(l.logged c).server.paced (l.server.client c) env.now = true := Bool.eq_false_iff.mp hpaced
  unfold client
  dsimp only
  rw [hwaiting, Bool.not_true, if_neg Bool.false_ne_true]
  exact if_neg hopen

theorem turn_client : Turn l (l.client decoder env frame sequence c) c := by
  by_cases h : Server.waiting (l.server.client c) sequence = true ∧ l.server.paced (l.server.client c) env.now = false
  · rw [client_served h.1 h.2]
    split
    · exact turn_logged.trans turn_serveJPEG
    · exact turn_logged.trans turn_serveFallback
  · rw [not_and_or, Bool.not_eq_true, Bool.not_eq_false] at h
    have hskipped : l.client decoder env frame sequence c = l ∨ l.client decoder env frame sequence c = l.logged c :=
      client_skipped h
    rcases hskipped with heq | heq
    · rw [heq]
      exact .refl
    · rw [heq]
      exact turn_logged

/-- The client has its turn: it waits, and the limiter does not skip it. -/
structure Served (l : FrameLoop) (sequence : Nat) (now : Int) (direct : Bool) (c : ClientPtr) : Prop where
  waiting : Server.waiting (l.server.client c) sequence = true
  paced : l.server.paced (l.server.client c) now = false
  kind : (l.server.client c).wantsDirectJPEG = direct

/-! ### What a turn comes to -/

def Sent (k : Client) (sequence : Nat) : Prop := k.data.forceUpdate = false ∧ k.data.lastSequence = sequence

/-- The client is to be closed, has been sent the frame, or has nothing to be sent of the decoded frame. -/
def Outcome (l : FrameLoop) (sequence : Nat) (c : ClientPtr) : Prop :=
  c ∈ l.closing ∨ Sent (l.server.client c) sequence ∨
    (l.decoded = true ∧ (l.server.client c).modifiedRegion ∩ (l.server.client c).requestedRegion = ∅)

theorem mem_close : c ∈ (l.close c).closing := List.mem_append_right _ (List.mem_singleton.mpr rfl)

theorem sent_served (l : FrameLoop) (k : Client) : Sent ((l.server.modify c fun _ => k.served sequence).client c) sequence := by
  rw [Server.modify_client_self]
  exact ⟨rfl, rfl⟩

theorem serveJPEG_outcome : c ∈ (l.serveJPEG decoder env frame sequence c).closing ∨
    Sent ((l.serveJPEG decoder env frame sequence c).server.client c) sequence := by
  rcases serveJPEG_cases l c with h | ⟨k, h⟩
  · rw [h]
    exact .inl mem_close
  · rw [h]
    exact .inr (sent_served l k)

theorem serveFramebuffer_outcome (hdecoded : l.decoded = true) :
    Outcome (l.serveFramebuffer decoder env frame sequence c) sequence c := by
  unfold serveFramebuffer Client.sendFramebuffer
  dsimp only
  generalize (l.server.client c).growRegions l.server.width l.server.height (l.server.client c).data.forceUpdate = k
  by_cases hempty : k.modifiedRegion ∩ k.requestedRegion = ∅
  · rw [if_pos hempty]
    refine .inr (.inr ⟨hdecoded, ?_⟩)
    rw [Server.modify_client_self]
    exact hempty
  · rw [if_neg hempty]
    generalize k.sendFramebufferUpdate l.server.width l.server.height l.server.pixels
      (Server.image decoder frame l.server.width l.server.height) (env.update c) = r
    obtain ⟨k', ok⟩ := r
    cases ok with
    | false => exact .inl mem_close
    | true => exact .inr (.inl (sent_served l k'))

theorem serveFallback_outcome : Outcome (l.serveFallback decoder env frame sequence c) sequence c := by
  rcases serveFallback_cases l c with ⟨hdecoded, h⟩ | ⟨-, h | h⟩
  · rw [h]
    exact serveFramebuffer_outcome hdecoded
  · rw [h]
    exact .inl mem_close
  · rw [h]
    exact serveFramebuffer_outcome rfl

theorem client_outcome_direct (h : Served l sequence env.now true c) :
    c ∈ (l.client decoder env frame sequence c).closing ∨
      Sent ((l.client decoder env frame sequence c).server.client c) sequence := by
  rw [client_served h.waiting h.paced, h.kind]
  exact serveJPEG_outcome

theorem client_outcome {direct : Bool} (h : Served l sequence env.now direct c) :
    Outcome (l.client decoder env frame sequence c) sequence c := by
  cases direct with
  | false =>
    rw [client_served h.waiting h.paced, h.kind]
    exact serveFallback_outcome
  | true => exact (client_outcome_direct h).imp_right .inl

/-! ### What moves the schedule -/

/-- A turn of one kind has been taken: a JPEG was sent, or the frame was decoded or sent to a fallback client. -/
def taken (l : FrameLoop) (direct : Bool) : Bool := if direct then l.sentJPEG else l.sentFramebuffer || l.decoded

theorem serveJPEG_taken : (l.serveJPEG decoder env frame sequence c).taken false = l.taken false := by
  rcases serveJPEG_cases l c with h | ⟨k, h⟩
  · rw [h]
    rfl
  · rw [h]
    rfl

theorem serveFramebuffer_taken : (l.serveFramebuffer decoder env frame sequence c).taken true = l.taken true := by
  unfold serveFramebuffer
  dsimp only
  split <;> rfl

theorem serveFallback_taken : (l.serveFallback decoder env frame sequence c).taken true = l.taken true := by
  rcases serveFallback_cases l c with ⟨-, h⟩ | ⟨-, h | h⟩
  · rw [h, serveFramebuffer_taken]
  · rw [h]
    rfl
  · rw [h, serveFramebuffer_taken]
    rfl

/-- Only the turn of a client of that kind counts as one. -/
theorem client_taken {direct : Bool} (h : (l.client decoder env frame sequence c).taken direct = true) :
    l.taken direct = true ∨ Served l sequence env.now direct c := by
  by_cases hserved : Server.waiting (l.server.client c) sequence = true ∧ l.server.paced (l.server.client c) env.now = false
  · by_cases hkind : (l.server.client c).wantsDirectJPEG = direct
    · exact .inr ⟨hserved.1, hserved.2, hkind⟩
    · left
      rw [client_served hserved.1 hserved.2] at h
      cases direct with
      | true =>
        rw [if_neg hkind, serveFallback_taken] at h
        exact h
      | false =>
        rw [Bool.not_eq_false] at hkind
        rw [if_pos hkind, serveJPEG_taken] at h
        exact h
  · rw [not_and_or, Bool.not_eq_true, Bool.not_eq_false] at hserved
    have hskipped : l.client decoder env frame sequence c = l ∨ l.client decoder env frame sequence c = l.logged c :=
      client_skipped hserved
    rcases hskipped with heq | heq
    · rw [heq] at h
      exact .inl h
    · rw [heq] at h
      exact .inl h

/-! ### The turns of the others -/

/-- What the turns of other clients leave of a client. -/
structure Aside (l l' : FrameLoop) (c : ClientPtr) : Prop where
  schedule : Server.SameSchedule l.server l'.server
  client : ∃ region, l'.server.client c = { l.server.client c with modifiedRegion := region }
  decoded : l.decoded = true → l'.decoded = true ∧ l'.server.client c = l.server.client c
  closing : l.closing ⊆ l'.closing

theorem Aside.refl : Aside l l c := ⟨.refl, ⟨_, rfl⟩, fun h => ⟨h, rfl⟩, List.Subset.refl _⟩

theorem Aside.trans (h : Aside l l' c) (h' : Aside l' l'' c) : Aside l l'' c := by
  refine ⟨h.schedule.trans h'.schedule, ?_, ?_, List.Subset.trans h.closing h'.closing⟩
  · obtain ⟨region, hclient⟩ := h.client
    obtain ⟨region', hclient'⟩ := h'.client
    exact ⟨region', by rw [hclient', hclient]⟩
  · intro hdecoded
    obtain ⟨hdecoded', hclient⟩ := h.decoded hdecoded
    obtain ⟨hdecoded'', hclient'⟩ := h'.decoded hdecoded'
    exact ⟨hdecoded'', hclient'.trans hclient⟩

theorem Turn.aside (h : Turn l l' c) (hd : d ≠ c) : Aside l l' d :=
  ⟨h.schedule, h.others d hd, fun hdecoded => ⟨(h.decoded hdecoded).1, (h.decoded hdecoded).2 d hd⟩, h.closing⟩

theorem Aside.served_iff (h : Aside l l' c) {now : Int} {direct : Bool} :
    Served l' sequence now direct c ↔ Served l sequence now direct c := by
  obtain ⟨region, hclient⟩ := h.client
  have hwaiting : Server.waiting (l'.server.client c) sequence = Server.waiting (l.server.client c) sequence := by
    rw [hclient]
    rfl
  have hpaced : l'.server.paced (l'.server.client c) now = l.server.paced (l.server.client c) now := by
    rw [h.schedule.paced, hclient]
    rfl
  have hkind : (l'.server.client c).wantsDirectJPEG = (l.server.client c).wantsDirectJPEG := by
    rw [hclient]
    rfl
  constructor
  · exact fun hs => ⟨hwaiting ▸ hs.waiting, hpaced ▸ hs.paced, hkind ▸ hs.kind⟩
  · exact fun hs => ⟨hwaiting ▸ hs.waiting, hpaced ▸ hs.paced, hkind ▸ hs.kind⟩

theorem Aside.sent (h : Aside l l' c) (hs : Sent (l.server.client c) sequence) : Sent (l'.server.client c) sequence := by
  obtain ⟨region, hclient⟩ := h.client
  rw [hclient]
  exact hs

theorem Aside.outcome (h : Aside l l' c) (ho : Outcome l sequence c) : Outcome l' sequence c := by
  rcases ho with hclosing | hsent | ⟨hdecoded, hempty⟩
  · exact .inl (h.closing hclosing)
  · exact .inr (.inl (h.sent hsent))
  · obtain ⟨hdecoded', hclient⟩ := h.decoded hdecoded
    exact .inr (.inr ⟨hdecoded', by rw [hclient]; exact hempty⟩)

/-! ### The whole loop -/

def clients (l : FrameLoop) (decoder : JPEGDecoder) (env : Server.FrameEnv) (frame : JPEGFrame) (sequence : Nat)
    (list : List ClientPtr) : FrameLoop :=
  list.foldl (fun l c => l.client decoder env frame sequence c) l

theorem clients_aside {list : List ClientPtr} (hc : c ∉ list) : Aside l (l.clients decoder env frame sequence list) c := by
  unfold clients
  induction list generalizing l with
  | nil => exact .refl
  | cons d rest ih =>
    rw [List.mem_cons, not_or] at hc
    exact (turn_client.aside hc.1).trans (ih hc.2)

theorem clients_schedule (list : List ClientPtr) :
    Server.SameSchedule l.server (l.clients decoder env frame sequence list).server ∧
      (l.clients decoder env frame sequence list).server.clients = l.server.clients := by
  unfold clients
  induction list generalizing l with
  | nil => exact ⟨.refl, rfl⟩
  | cons d rest ih =>
    have hturn : Turn l (l.client decoder env frame sequence d) d := turn_client
    exact ⟨hturn.schedule.trans (ih (l := l.client decoder env frame sequence d)).1,
      (ih (l := l.client decoder env frame sequence d)).2.trans hturn.clients⟩

/-- A turn was taken by a client that was to be served from the start. -/
theorem clients_taken {direct : Bool} {list : List ClientPtr} (nodup : list.Nodup)
    (h : (l.clients decoder env frame sequence list).taken direct = true) :
    l.taken direct = true ∨ ∃ c ∈ list, Served l sequence env.now direct c := by
  unfold clients at h
  induction list generalizing l with
  | nil => exact .inl h
  | cons d rest ih =>
    obtain ⟨hnew, hrest⟩ := List.nodup_cons.mp nodup
    rcases ih hrest h with htaken | ⟨c, hc, hserved⟩
    · exact (client_taken htaken).imp_right fun hserved => ⟨d, List.mem_cons_self, hserved⟩
    · have hcd : c ≠ d := fun hcd => hnew (hcd ▸ hc)
      exact .inr ⟨c, List.mem_cons_of_mem d hc, (turn_client.aside hcd).served_iff.mp hserved⟩

/-- A client that is to be served comes to its turn as it was, and what comes of it stays. -/
theorem clients_outcome {direct : Bool} {list : List ClientPtr} (nodup : list.Nodup) (hc : c ∈ list)
    (h : Served l sequence env.now direct c) :
    Outcome (l.clients decoder env frame sequence list) sequence c ∧
      (direct = true → c ∈ (l.clients decoder env frame sequence list).closing ∨
        Sent ((l.clients decoder env frame sequence list).server.client c) sequence) := by
  unfold clients
  induction list generalizing l with
  | nil => exact absurd hc List.not_mem_nil
  | cons d rest ih =>
    obtain ⟨hnew, hrest⟩ := List.nodup_cons.mp nodup
    rw [List.foldl_cons]
    by_cases hcd : c = d
    · subst hcd
      have haside : Aside (l.client decoder env frame sequence c)
          ((l.client decoder env frame sequence c).clients decoder env frame sequence rest) c := clients_aside hnew
      refine ⟨haside.outcome (client_outcome h), ?_⟩
      intro hdirect
      subst hdirect
      exact (client_outcome_direct h).imp (fun hclosing => haside.closing hclosing) haside.sent
    · have hrest' : c ∈ rest := (List.mem_cons.mp hc).resolve_left hcd
      exact ih hrest hrest' ((turn_client.aside hcd).served_iff.mpr h)

end FrameLoop

end OnekvmVnc
