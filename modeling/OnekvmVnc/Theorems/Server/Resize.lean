import Mathlib.Data.List.Nodup
import OnekvmVnc.Lib.Transition
import OnekvmVnc.Theorems.Server.Steps

/-! What `Resize` does to each client: the new size is announced to it, or it is closed. With that, an
    invariant of the changes and of `Resize` holds after every run. -/

namespace OnekvmVnc

variable {decoder : JPEGDecoder}

namespace Client

/-- The client in `Resize`, with everything modified and the new size pending. -/
def resizing (k : Client) (width height : UInt16) : Client :=
  { k with modifiedRegion := rectRegion 0 0 width.toNat height.toNat, newFBSizePending := true }

/-- The client that `Resize` has announced the new size to. -/
def resized (k : Client) (width height : UInt16) (bytes : List UInt8) : Client :=
  { k.output (.newFBSize width height bytes) with
    requestedRegion := ∅
    modifiedRegion := ∅
    newFBSizePending := false
    announced := some (width, height)
    data := { k.data with needUpdate := k.data.continuousEnabled, forceUpdate := false, lastSequence := 0 } }

end Client

namespace Server
variable {s t : Server}

/-! ### The list of clients -/

theorem closeClients_clients (closing : List ClientPtr) : (s.closeClients closing).clients = s.clients.diff closing := by
  unfold closeClients
  induction closing generalizing s with
  | nil => rfl
  | cons c closing ih =>
    rw [List.foldl_cons, ih, List.diff_cons]
    congr 1
    rw [rfbClientConnectionGone, rfbCloseClient_clients]

theorem closeClients_client (closing : List ClientPtr) (c : ClientPtr) :
    (s.closeClients closing).client c = if c ∈ closing then { s.client c with sock := none } else s.client c := by
  unfold closeClients
  induction closing generalizing s with
  | nil => rfl
  | cons d closing ih =>
    rw [List.foldl_cons, ih, rfbClientConnectionGone]
    dsimp only
    by_cases hcd : c = d
    · subst hcd
      simp [rfbCloseClient_client_self]
    · simp [rfbCloseClient_client_of_ne hcd, hcd]

theorem sameScreen_closeClients (closing : List ClientPtr) : SameScreen s (s.closeClients closing) := by
  unfold closeClients
  induction closing generalizing s with
  | nil => exact .refl
  | cons c closing ih => exact ((sameScreen_rfbCloseClient c).trans (sameScreen_gone c)).trans ih

/-! ### Resizing -/

/-- What the loop of `Resize` does, over a part of the clients. -/
structure Looped (s t : Server) (list closing : List ClientPtr) : Prop where
  screen : SameScreen s t
  clients : t.clients = s.clients
  sublist : closing.Sublist list
  other : ∀ c, c ∉ list ∨ c ∈ closing → t.client c = s.client c
  resized : ∀ c ∈ list, c ∉ closing → (s.client c).useNewFBSize = true ∧ (s.client c).sock.isSome = true ∧
    ∃ bytes, t.client c = (s.client c).resized s.screenWidth s.screenHeight bytes

theorem modify_id (c : ClientPtr) : (s.modify c fun _ => s.client c) = s := by
  unfold modify
  rw [Function.update_eq_self]

/-- A client that is closed is left as it was until the end of `Resize`. -/
theorem resizeLoop_closed {update : ClientPtr → Option (List UInt8)} {c : ClientPtr} {rest : List ClientPtr}
    (h : (s.client c).useNewFBSize = false ∨
      (s.client c).sendFramebufferUpdate s.screenWidth s.screenHeight s.pixels s.pixels (update c) = (s.client c, false)) :
    resizeLoop update s (c :: rest) = ((resizeLoop update s rest).1, c :: (resizeLoop update s rest).2) := by
  cases huse : (s.client c).useNewFBSize with
  | false => simp [resizeLoop, huse]
  | true =>
    rcases h with huse' | hfailed
    · simp [huse] at huse'
    · simp [resizeLoop, huse, hfailed, modify_id]

theorem resizeLoop_told {update : ClientPtr → Option (List UInt8)} {c : ClientPtr} {rest : List ClientPtr}
    {bytes : List UInt8} (huse : (s.client c).useNewFBSize = true)
    (h : (s.client c).sendFramebufferUpdate s.screenWidth s.screenHeight s.pixels s.pixels (update c) =
      ((s.client c).toldSize s.screenWidth s.screenHeight bytes, true)) :
    resizeLoop update s (c :: rest) =
      resizeLoop update (s.modify c fun _ => (s.client c).resized s.screenWidth s.screenHeight bytes) rest := by
  simp [resizeLoop, huse, h]
  rfl

/-- The loop of `Resize` closes a client or tells it the new size. -/
theorem resizeLoop_looped (update : ClientPtr → Option (List UInt8)) {list : List ClientPtr} (nodup : list.Nodup)
    (pending : ∀ c ∈ list, (s.client c).newFBSizePending = true) :
    Looped s (resizeLoop update s list).1 list (resizeLoop update s list).2 := by
  induction list generalizing s with
  | nil => exact ⟨.refl, rfl, .slnil, fun _ _ => rfl, fun _ hc => absurd hc List.not_mem_nil⟩
  | cons c rest ih =>
    obtain ⟨hnew, hrest⟩ := List.nodup_cons.mp nodup
    -- A client to be closed is left alone by the rest of the loop, and so is one that was told the size.
    have hclosed (h : (s.client c).useNewFBSize = false ∨ (s.client c).sendFramebufferUpdate s.screenWidth s.screenHeight
        s.pixels s.pixels (update c) = (s.client c, false)) :
        Looped s (resizeLoop update s (c :: rest)).1 (c :: rest) (resizeLoop update s (c :: rest)).2 := by
      have hnext := ih hrest fun d hd => pending d (List.mem_cons_of_mem c hd)
      rw [resizeLoop_closed h]
      refine ⟨hnext.screen, hnext.clients, hnext.sublist.cons_cons c, ?_, ?_⟩
      · intro d hd
        by_cases hdc : d = c
        · exact hnext.other d (.inl (hdc ▸ hnew))
        · refine hnext.other d ?_
          simpa [hdc] using hd
      · intro d hd hopen
        simp only [List.mem_cons, not_or] at hd hopen
        exact hnext.resized d (hd.resolve_left hopen.1) hopen.2
    cases huse : (s.client c).useNewFBSize with
    | false => exact hclosed (.inl huse)
    | true =>
      cases hsend : (s.client c).sendFramebufferUpdate s.screenWidth s.screenHeight s.pixels s.pixels (update c) with
      | mk k ok =>
        rcases Client.sendFramebufferUpdate_cases hsend with ⟨rfl, rfl⟩ | ⟨rfl, hsock, bytes, ⟨-, -, rfl⟩ | ⟨hnone, -⟩⟩
        · exact hclosed (.inr hsend)
        · rw [resizeLoop_told huse hsend]
          have hother (d : ClientPtr) (hd : d ≠ c) : (s.modify c fun _ =>
              (s.client c).resized s.screenWidth s.screenHeight bytes).client d = s.client d := modify_client_of_ne hd _
          have hself : (s.modify c fun _ => (s.client c).resized s.screenWidth s.screenHeight bytes).client c =
              (s.client c).resized s.screenWidth s.screenHeight bytes := modify_client_self c _
          have hscreen := sameScreen_modify (s := s) c fun _ => (s.client c).resized s.screenWidth s.screenHeight bytes
          have hclients : (s.modify c fun _ => (s.client c).resized s.screenWidth s.screenHeight bytes).clients =
            s.clients := rfl
          generalize (s.modify c fun _ => (s.client c).resized s.screenWidth s.screenHeight bytes) = u at *
          have hne (d : ClientPtr) (hd : d ∈ rest) : d ≠ c := fun hdc => hnew (hdc ▸ hd)
          have hnext := ih (s := u) hrest fun d hd => by
            rw [hother d (hne d hd)]
            exact pending d (List.mem_cons_of_mem c hd)
          have hopen : c ∉ (resizeLoop update u rest).2 := fun hc => hnew (hnext.sublist.subset hc)
          refine ⟨hscreen.trans hnext.screen, hnext.clients.trans hclients, hnext.sublist.cons c, ?_, ?_⟩
          · intro d hd
            have hdc : d ≠ c := by
              rintro rfl
              exact hd.elim (fun h => h List.mem_cons_self) hopen
            refine (hnext.other d ?_).trans (hother d hdc)
            simpa [hdc] using hd
          · intro d hd hdopen
            by_cases hdc : d = c
            · subst hdc
              exact ⟨huse, hsock, bytes, (hnext.other d (.inl hnew)).trans hself⟩
            · have htold := hnext.resized d ((List.mem_cons.mp hd).resolve_left hdc) hdopen
              rw [hother d hdc, hscreen.screenWidth, hscreen.screenHeight] at htold
              exact htold
        · -- The new size is pending, so this was no update.
          rw [huse, pending c List.mem_cons_self] at hnone
          rcases hnone with h | h <;> cases h

def resizing (s : Server) (width height : UInt16) : Server :=
  { s with
    framebuffer := List.replicate (width.toNat * height.toNat) 0
    width
    height
    screenWidth := width
    screenHeight := height
    client := fun c => (s.client c).resizing width height
    previousRGB := []
    decodedSequence := 0 }

theorem resize_eq {width height : UInt16} {memory : Bool} {update : ClientPtr → Option (List UInt8)}
    (h : s.resize width height memory update = some t) :
    t = (resizeLoop update (s.resizing width height) s.clients).1.closeClients
      (resizeLoop update (s.resizing width height) s.clients).2 := by
  simp only [resize, Option.map_eq_some_iff] at h
  obtain ⟨framebuffer, hallocated, rfl⟩ := h
  unfold allocateFramebuffer at hallocated
  split at hallocated
  · simp at hallocated
  · obtain rfl := Option.some.inj hallocated
    rfl

/-- What `Resize` does: the screen and the decoder start afresh, and every client is told the new size or
    closed. -/
structure Resized (s t : Server) (width height : UInt16) : Prop where
  other : width ≠ s.width ∨ height ≠ s.height
  size : t.width = width ∧ t.height = height ∧ t.screenWidth = width ∧ t.screenHeight = height
  framebuffer : t.framebuffer = List.replicate (width.toNat * height.toNat) 0
  decoder : t.previousRGB = [] ∧ t.decodedSequence = 0
  latest : t.latestFrame = s.latestFrame ∧ t.latestSequence = s.latestSequence
  clients : t.clients.Sublist s.clients
  told : ∀ c ∈ t.clients, (s.client c).useNewFBSize = true ∧ (s.client c).sock.isSome = true ∧
    (s.client c).data.pendingJPEG = none ∧ ∃ bytes, t.client c = ((s.client c).resizing width height).resized width height bytes
  closed : ∀ c ∈ s.clients, c ∉ t.clients → t.client c = { (s.client c).resizing width height with sock := none }
  absent : ∀ c, c ∉ s.clients → t.client c = (s.client c).resizing width height

theorem Resizes.resized (nodup : s.clients.Nodup) (h : Resizes s t) : ∃ width height, Resized s t width height := by
  obtain ⟨width, height, memory, update, hother, hidle, h⟩ := h
  refine ⟨width, height, ?_⟩
  obtain rfl := resize_eq h
  have hlooped := resizeLoop_looped (s := s.resizing width height) update nodup (fun c _ => rfl)
  generalize (resizeLoop update (s.resizing width height) s.clients) = r at hlooped
  obtain ⟨t, closing⟩ := r
  dsimp only at hlooped ⊢
  have hscreen := hlooped.screen.trans (sameScreen_closeClients closing)
  have hclients : (t.closeClients closing).clients = s.clients.diff closing := by
    rw [closeClients_clients, hlooped.clients]
    rfl
  have hmem (c : ClientPtr) : c ∈ (t.closeClients closing).clients ↔ c ∈ s.clients ∧ c ∉ closing := by
    rw [hclients, nodup.mem_sdiff_iff]
  refine ⟨hother, ⟨hscreen.width, hscreen.height, hscreen.screenWidth, hscreen.screenHeight⟩, hscreen.framebuffer,
    ⟨hscreen.previousRGB, hscreen.decodedSequence⟩, ⟨hscreen.latestFrame, hscreen.latestSequence⟩, ?_,
    fun c hc => ?_, fun c hc hgone => ?_, fun c hc => ?_⟩
  · rw [hclients]
    exact List.diff_sublist _ _
  · obtain ⟨hin, hopen⟩ := (hmem c).mp hc
    obtain ⟨huse, hsock, hresized⟩ := hlooped.resized c hin hopen
    rw [closeClients_client, if_neg hopen]
    exact ⟨huse, hsock, hidle c hin, hresized⟩
  · have hclosing : c ∈ closing := by
      by_contra hopen
      exact hgone ((hmem c).mpr ⟨hc, hopen⟩)
    rw [closeClients_client, if_pos hclosing, hlooped.other c (.inr hclosing)]
    rfl
  · have hopen : c ∉ closing := fun hin => hc (hlooped.sublist.subset hin)
    rw [closeClients_client, if_neg hopen, hlooped.other c (.inl hc)]
    rfl

theorem decodeLatestFrame_clients (frame : JPEGFrame) (sequence : Nat) :
    (s.decodeLatestFrame decoder frame sequence).1.clients = s.clients := (sameFrame_decodeLatestFrame frame sequence).clients

/-- What `Resize` does to a client that is not there, one that it closes, and one that it tells the size. -/
theorem Resized.client_cases {width height : UInt16} (h : Resized s t width height) (c : ClientPtr) :
    (c ∉ t.clients ∧ c ∉ s.clients ∧ t.client c = (s.client c).resizing width height) ∨
      (c ∉ t.clients ∧ c ∈ s.clients ∧ t.client c = { (s.client c).resizing width height with sock := none }) ∨
      (c ∈ t.clients ∧ (s.client c).useNewFBSize = true ∧ (s.client c).sock.isSome = true ∧
        (s.client c).data.pendingJPEG = none ∧
          ∃ bytes, t.client c = ((s.client c).resizing width height).resized width height bytes) := by
  by_cases ht : c ∈ t.clients
  · exact .inr (.inr ⟨ht, h.told c ht⟩)
  · by_cases hs : c ∈ s.clients
    · exact .inr (.inl ⟨ht, hs, h.closed c hs ht⟩)
    · exact .inl ⟨ht, hs, h.absent c hs⟩

theorem accept_client_self (c : ClientPtr) (fd : Nat) (version : List UInt8) :
    (s.accept c fd version).client c = s.newClient fd version :=
  modify_client_self (s := s) c fun _ => s.newClient fd version

theorem accept_client_of_ne {c d : ClientPtr} (h : d ≠ c) (fd : Nat) (version : List UInt8) :
    (s.accept c fd version).client d = s.client d :=
  modify_client_of_ne (s := s) h fun _ => s.newClient fd version

end Server

variable {s t : Server}

theorem Change.nodup (nodup : s.clients.Nodup) (h : Change decoder s t) : t.clients.Nodup := by
  cases h with
  | other same clients client => exact clients ▸ nodup
  | setFrame frame => exact nodup
  | clearLatestFrame => exact nodup
  | client c present same clients others change => exact clients ▸ nodup
  | close c same clients others closed => exact clients ▸ nodup
  | gone c same clients client => exact clients ▸ nodup.erase c
  | accept c fd version new => exact List.nodup_cons.mpr ⟨new, nodup⟩
  | decode frame latest => rwa [Server.decodeLatestFrame_clients]

/-! ### What becomes of a client -/

/-- What a change of the server other than `Resize` does to one client. -/
inductive Fate (decoder : JPEGDecoder) (s t : Server) (c : ClientPtr) : Prop
  | same (h : t.client c = s.client c) (stays : c ∈ t.clients → c ∈ s.clients)
  | change (h : ClientChange decoder s (s.client c) (t.client c)) (present : c ∈ s.clients)
  | shut (h : t.client c = { s.client c with sock := none }) (stays : c ∈ t.clients → c ∈ s.clients)
  | marked (region : Region) (h : t.client c = { s.client c with modifiedRegion := region })
      (stays : c ∈ t.clients ↔ c ∈ s.clients)
  | connected (fd : Nat) (version : List UInt8) (h : t.client c = s.newClient fd version)

theorem Change.fate (h : Change decoder s t) (c : ClientPtr) : Fate decoder s t c := by
  cases h with
  | other same clients client => exact .same (by rw [client]) (by rw [clients]; exact id)
  | setFrame frame => exact .same rfl id
  | clearLatestFrame => exact .same rfl id
  | client d present same clients others change =>
    by_cases hcd : c = d
    · subst hcd
      exact .change change present
    · exact .same (others c hcd) (by rw [clients]; exact id)
  | close d same clients others closed =>
    by_cases hcd : c = d
    · subst hcd
      exact .shut closed (by rw [clients]; exact id)
    · exact .same (others c hcd) (by rw [clients]; exact id)
  | gone d same clients client => exact .same (by rw [client]) (by rw [clients]; exact List.mem_of_mem_erase)
  | accept d fd version new =>
    by_cases hcd : c = d
    · subst hcd
      exact .connected fd version (Server.accept_client_self c fd version)
    · exact .same (Server.accept_client_of_ne hcd fd version) fun hc => (List.mem_cons.mp hc).resolve_left hcd
  | decode frame latest =>
    have hframe : Server.SameFrame s (s.decodeLatestFrame decoder frame s.latestSequence).1 :=
      Server.sameFrame_decodeLatestFrame frame s.latestSequence
    obtain ⟨region, hclient⟩ := hframe.client c
    exact .marked region hclient (by rw [hframe.clients])

/-! ### Invariants -/

namespace Server

theorem step_nodup (nodup : s.clients.Nodup) {action : ServerAction} (h : step decoder s action = some t) :
    t.clients.Nodup := by
  rcases step_changes h with hchanges | hresizes
  · exact hchanges.keep (P := fun u => u.clients.Nodup) (fun _ _ hu hchange => hchange.nodup hu) nodup
  · obtain ⟨width, height, hresized⟩ := hresizes.resized nodup
    exact hresized.clients.nodup nodup

theorem run_nodup (nodup : s.clients.Nodup) {actions : List ServerAction}
    (h : Transition.run (step decoder) s actions = some t) : t.clients.Nodup :=
  Transition.run_invariant (P := fun u => u.clients.Nodup) nodup (fun _ _ _ hu ha => step_nodup hu ha) h

/-- A property that every change and `Resize` keep holds after every run of the server. -/
theorem run_invariant {P : Server → Prop} (start : P s) (nodup : ∀ u, P u → u.clients.Nodup)
    (change : ∀ u v, P u → Change decoder u v → P v) (resize : ∀ u v width height, P u → Resized u v width height → P v)
    {actions : List ServerAction} (h : Transition.run (step decoder) s actions = some t) : P t := by
  refine Transition.run_invariant start (fun u action v hu ha => ?_) h
  rcases step_changes ha with hchanges | hresizes
  · exact hchanges.keep change hu
  · obtain ⟨width, height, hresized⟩ := hresizes.resized (nodup u hu)
    exact resize u v width height hu hresized

end Server

end OnekvmVnc
