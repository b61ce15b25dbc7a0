import OnekvmVnc.Lib.Transition
import OnekvmVnc.Theorems.AdminHID.Response

/-! The calls of `Post`. Each one reads the response to its own request, and a connection on which one has failed is
    not used again, so that no later call sees what still comes on it. -/

namespace OnekvmVnc
open Transition (run collect)

variable {arrivals : List Arrival}

/-! ### `ParseResponse` terminates -/

theorem HeaderFields.line_length {fields fields' : HeaderFields} {name value : List UInt8}
    (h : fields.line name value = .ok fields') (small : ∀ n ∈ fields.contentLength, n ≤ maxResponseBody) :
    ∀ n ∈ fields'.contentLength, n ≤ maxResponseBody := by
  unfold HeaderFields.line at h
  dsimp only at h
  split at h
  · split at h
    · cases h
    · split at h
      · cases h
      · rename_i hle
        cases h
        intro n hn
        cases hn
        omega
  · split at h
    · cases h
      exact small
    · split at h
      · cases h
      · cases h
        exact small

theorem parseHeaders_length {response : List UInt8} {headerEnd lineStart : Nat} {fields fields' : HeaderFields}
    (h : parseHeaders response headerEnd lineStart fields = .ok fields')
    (small : ∀ n ∈ fields.contentLength, n ≤ maxResponseBody) : ∀ n ∈ fields'.contentLength, n ≤ maxResponseBody := by
  fun_induction parseHeaders response headerEnd lineStart fields with
  | case1 => exact Except.ok.inj h ▸ small
  | case2 => exact Except.ok.inj h ▸ small
  | case3 => cases h
  | case4 lineStart fields hstart lineEnd hlineEnd hle parsed fields'' hparsed ih =>
    refine ih h ?_
    unfold parsed at hparsed
    split at hparsed
    · exact Except.ok.inj hparsed ▸ small
    · split at hparsed
      · exact HeaderFields.line_length hparsed small
      · exact Except.ok.inj hparsed ▸ small
  | case5 => exact Except.ok.inj h ▸ small

theorem parseHead_length {response : List UInt8} {headerEnd : Nat} {status : Int} {fields : HeaderFields}
    (h : parseHead response headerEnd = .ok (status, fields)) : ∀ n ∈ fields.contentLength, n ≤ maxResponseBody := by
  unfold parseHead at h
  split at h
  · cases h
  · split at h
    · cases h
    · split at h
      · cases h
      · split at h
        · cases h
        · split at h
          · cases h
          · unfold Except.map at h
            split at h
            · cases h
            · rename_i hfields
              cases h
              exact parseHeaders_length hfields (by simp)

/-- `ParseResponse` waits at most for the largest head and the largest body, one byte at a time. -/
theorem parseResponse_waiting (h : parseResponse arrivals = .waiting) :
    answered arrivals ≤ maxResponseHeader + maxResponseBody := by
  unfold parseResponse at h
  split at h
  · rename_i hhead
    have hwaiting := readUntil_waiting hhead
    omega
  · cases h
  · rename_i response headerEnd rest hhead
    obtain ⟨hfound, hanswered, hlength⟩ := readUntil_done hhead
    have hend : headerEnd + 4 ≤ response.length :=
      ((Search.find_eq_some (by decide)).mp hfound).2.1.add_length_le (by decide)
    rw [List.length_nil] at hanswered hlength
    split at h
    · cases h
    · rename_i status fields hparsed
      split at h
      · cases h
      · rename_i contentLength hcontent
        have hsmall := parseHead_length hparsed contentLength hcontent
        dsimp only at h
        split at h
        · rename_i hbody
          have hwaiting := readUntil_waiting hbody
          omega
        · cases h
        · cases h

/-! ### Answered calls -/

/-- The server answers a call with the response, once all of the request has been written. -/
structure PostCall.Answered (hid : AdminHID) (call : PostCall) (r : Response) : Prop where
  connects : call.connect = .connected
  written : writeAll (hid.request call.path call.payload) call.writes = .done ()
  answer : Carries call.arrivals r.bytes

namespace AdminHID
variable {hid s t : AdminHID} {connection k : Nat} {arrivals arrivals' : List Arrival}

@[simp] theorem setUnread_socketPath : (s.setUnread connection arrivals).socketPath = s.socketPath := rfl

@[simp] theorem setUnread_socket : (s.setUnread connection arrivals).socket = s.socket := rfl

@[simp] theorem setUnread_opened : (s.setUnread connection arrivals).opened = s.opened := rfl

@[simp] theorem setUnread_unread_self : (s.setUnread connection arrivals).unread connection = arrivals := by
  simp only [setUnread, Function.update_self]

theorem setUnread_unread_of_ne (h : k ≠ connection) : (s.setUnread connection arrivals).unread k = s.unread k := by
  simp only [setUnread, ne_eq, h, not_false_eq_true, Function.update_of_ne]

@[simp] theorem setUnread_setUnread :
    (s.setUnread connection arrivals).setUnread connection arrivals' = s.setUnread connection arrivals' := by
  simp [setUnread]

theorem setUnread_comm (h : connection ≠ k) : (s.setUnread connection arrivals).setUnread k arrivals' =
    (s.setUnread k arrivals').setUnread connection arrivals := by
  simp only [setUnread, Function.update_comm h]

/-- Nothing is left to be read on the connection, nor on one that is not open yet. -/
structure Idle (hid s : AdminHID) : Prop where
  socketPath : s.socketPath = hid.socketPath
  identity : s.identity = hid.identity
  isOpen : ∀ connection ∈ s.socket, connection < s.opened
  read : ∀ connection ∈ s.socket, Carries (s.unread connection) []
  fresh : ∀ connection, s.opened ≤ connection → s.unread connection = []

theorem Idle.connect (h : Idle hid s) (short : hid.socketPath.utf8ByteSize < sunPathSize) :
    ∃ t connection, s.connect .connected = .ok (t, connection) ∧ Idle hid t ∧ t.socket = some connection := by
  unfold AdminHID.connect
  cases hsocket : s.socket with
  | some connection => exact ⟨s, connection, rfl, h, hsocket⟩
  | none =>
    dsimp only
    rw [if_neg (by rw [h.socketPath]; omega)]
    refine ⟨_, s.opened, rfl, ⟨h.socketPath, h.identity, ?_, ?_, ?_⟩, rfl⟩
    · intro connection hconnection
      obtain rfl := Option.some.inj hconnection
      exact Nat.lt_succ_self _
    · intro connection hconnection
      obtain rfl := Option.some.inj hconnection
      exact (h.fresh s.opened (le_refl _)).symm ▸ Carries.nil
    · intro connection hle
      exact h.fresh connection (Nat.le_of_succ_le hle)

/-- What is left unread on the connection is nothing again. -/
theorem Idle.setUnread (h : Idle hid s) (hsocket : s.socket = some connection) (hunread : Carries arrivals []) :
    Idle hid (s.setUnread connection arrivals) := by
  refine ⟨h.socketPath, h.identity, h.isOpen, ?_, ?_⟩
  · intro other hother
    obtain rfl := Option.some.inj (hsocket.symm.trans hother)
    rw [setUnread_unread_self]
    exact hunread
  · intro other hle
    have hlt := h.isOpen connection hsocket
    rw [setUnread_opened] at hle
    rw [setUnread_unread_of_ne (by omega)]
    exact h.fresh other hle

theorem Idle.close (h : Idle hid s) : Idle hid s.close :=
  ⟨h.socketPath, h.identity, fun _ hnone => (by cases hnone), fun _ hnone => (by cases hnone), h.fresh⟩

theorem request_congr (h : s.identity = hid.identity) (path payload : String) :
    s.request path payload = hid.request path payload := by
  rw [request, request, h]

/-- An answered call reads the response, and returns by its status. -/
theorem Idle.post (h : Idle hid s) (short : hid.socketPath.utf8ByteSize < sunPathSize) {call : PostCall} {r : Response}
    (answered : call.Answered hid r) : ∃ t record, s.post call = some (t, record) ∧ Idle hid t ∧
      record.response = r.bytes ∧ record.result = postResult call.path r.statusCode := by
  obtain ⟨t, connection, hconnect, ht, hsocket⟩ := h.connect short
  have hcarries : Carries (t.unread connection ++ call.arrivals) r.bytes :=
    (ht.read connection hsocket).append answered.answer
  obtain ⟨closeConnection, rest, hparsed, hrest⟩ := r.parseResponse_done hcarries
  have hrequest : (t.arrive connection call.arrivals).request call.path call.payload =
      hid.request call.path call.payload := request_congr ht.identity _ _
  have hidle : Idle hid (t.setUnread connection rest) := ht.setUnread hsocket hrest
  unfold AdminHID.post
  rw [answered.connects, hconnect]
  dsimp only
  rw [hrequest, answered.written]
  dsimp only
  rw [arrive, setUnread_unread_self, hparsed]
  dsimp only
  rw [setUnread_setUnread]
  refine ⟨_, _, rfl, ?_, ?_, ?_⟩
  · split
    · exact hidle.close
    · exact hidle
  · dsimp only
  · dsimp only

/-- The calls read the responses in turn. -/
theorem Idle.run (h : Idle hid s) (short : hid.socketPath.utf8ByteSize < sunPathSize)
    {exchanges : List (PostCall × Response)} (answered : ∀ e ∈ exchanges, e.1.Answered hid e.2) :
    ∃ t, Transition.run step s (exchanges.map fun e => .post e.1) = some t ∧
      (collect step record s (exchanges.map fun e => .post e.1)).map (fun r => (r.response, r.result)) =
        exchanges.map fun e => (e.2.bytes, postResult e.1.path e.2.statusCode) := by
  induction exchanges generalizing s with
  | nil => exact ⟨s, rfl, rfl⟩
  | cons e exchanges ih =>
    obtain ⟨t, r, hpost, ht, hresponse, hresult⟩ := h.post short (answered e List.mem_cons_self)
    obtain ⟨u, hu, hcollect⟩ := ih ht fun e he => answered e (List.mem_cons_of_mem _ he)
    have hstep : s.step (.post e.1) = some t := by rw [step, hpost, Option.map_some]
    have hrecord : s.record (.post e.1) = [r] := by rw [record, hpost]; rfl
    refine ⟨u, Transition.run_cons_eq_some.mpr ⟨t, hstep, hu⟩, ?_⟩
    rw [List.map_cons, collect, hstep, hrecord, Option.map_some, Option.getD_some, List.singleton_append, List.map_cons,
      hcollect, hresponse, hresult, List.map_cons]

/-! ### Connections that are not used any more -/

/-- Nothing has come on the connection. -/
def without (s : AdminHID) (k : Nat) : AdminHID := s.setUnread k []

end AdminHID

/-- Nothing comes on the connection. -/
def HIDAction.without (k : Nat) : HIDAction → HIDAction
  | .post call => .post call
  | .arrive connection arrivals => .arrive connection (if connection = k then [] else arrivals)

namespace AdminHID
variable {s t : AdminHID} {connection k : Nat}

/-- The connection has been closed. -/
structure Past (k : Nat) (s : AdminHID) : Prop where
  opened : k < s.opened
  socket : s.socket ≠ some k

theorem without_arrive (h : connection ≠ k) (arrivals : List Arrival) :
    (s.without k).arrive connection arrivals = (s.arrive connection arrivals).without k := by
  rw [arrive, arrive, without, without, setUnread_unread_of_ne h, setUnread_comm h.symm]

/-- A later connection is another one. -/
theorem Past.connect (h : s.Past k) (result : ConnectResult) :
    (∃ error, s.connect result = .error error ∧ (s.without k).connect result = .error error) ∨
      ∃ t connection, s.connect result = .ok (t, connection) ∧
        (s.without k).connect result = .ok (t.without k, connection) ∧ t.Past k ∧ connection ≠ k := by
  unfold AdminHID.connect
  rw [without, setUnread_socket]
  cases hsocket : s.socket with
  | some connection =>
    exact .inr ⟨s, connection, rfl, rfl, h, fun hk => h.socket (hk ▸ hsocket)⟩
  | none =>
    dsimp only
    rw [setUnread_socketPath]
    split
    · exact .inl ⟨_, rfl, rfl⟩
    · cases result with
      | connected =>
        have hne : s.opened ≠ k := h.opened.ne'
        exact .inr ⟨_, s.opened, rfl, rfl, ⟨Nat.lt_succ_of_lt h.opened, fun hk => hne (Option.some.inj hk)⟩, hne⟩
      | _ => exact .inl ⟨_, rfl, rfl⟩

theorem Past.close (h : s.Past k) : s.close.Past k := ⟨h.opened, fun hk => by cases hk⟩

/-- A call after the connection has been closed does not see what comes on it. -/
theorem Past.post (h : s.Past k) (call : PostCall) :
    (s.without k).post call = (s.post call).map (fun p => (p.1.without k, p.2)) ∧
      ∀ t record, s.post call = some (t, record) → t.Past k := by
  unfold AdminHID.post
  rcases h.connect call.connect with ⟨error, hconnect, hconnect'⟩ | ⟨t, connection, hconnect, hconnect', ht, hne⟩
  · rw [hconnect, hconnect']
    refine ⟨rfl, fun t record hpost => ?_⟩
    cases hpost
    exact h
  · have hrequest : ((t.arrive connection call.arrivals).without k).request call.path call.payload =
        (t.arrive connection call.arrivals).request call.path call.payload := rfl
    have hunread : ((t.arrive connection call.arrivals).without k).unread connection =
        (t.arrive connection call.arrivals).unread connection := setUnread_unread_of_ne hne
    have hpast : (t.arrive connection call.arrivals).Past k := ⟨ht.opened, ht.socket⟩
    rw [hconnect, hconnect']
    dsimp only
    rw [without_arrive hne, hrequest, hunread]
    generalize t.arrive connection call.arrivals = u at hpast
    cases writeAll (u.request call.path call.payload) call.writes with
    | waiting => exact ⟨rfl, fun t record hpost => by cases hpost⟩
    | failed error =>
      refine ⟨rfl, fun t record hpost => ?_⟩
      cases hpost
      exact hpast.close
    | done _ =>
      dsimp only
      cases parseResponse (u.unread connection) with
      | waiting => exact ⟨rfl, fun t record hpost => by cases hpost⟩
      | failed error =>
        refine ⟨rfl, fun t record hpost => ?_⟩
        cases hpost
        exact hpast.close
      | done parsed =>
        obtain ⟨parsed, unread⟩ := parsed
        dsimp only
        have hcomm : (u.without k).setUnread connection unread = (u.setUnread connection unread).without k :=
          setUnread_comm hne.symm
        have hread : (u.setUnread connection unread).Past k := ⟨hpast.opened, hpast.socket⟩
        rw [hcomm]
        cases parsed.closeConnection with
        | true =>
          refine ⟨rfl, fun t record hpost => ?_⟩
          cases hpost
          exact hread.close
        | false =>
          refine ⟨rfl, fun t record hpost => ?_⟩
          cases hpost
          exact hread

theorem Past.step (h : s.Past k) (action : HIDAction) :
    (s.without k).step (action.without k) = (s.step action).map (·.without k) ∧
      (s.without k).record (action.without k) = s.record action ∧ ∀ t, s.step action = some t → t.Past k := by
  cases action with
  | post call =>
    obtain ⟨hpost, hpast⟩ := h.post call
    rw [HIDAction.without, AdminHID.step, AdminHID.step, record, record, hpost]
    refine ⟨?_, ?_, fun t ht => ?_⟩
    · cases s.post call <;> rfl
    · cases s.post call <;> rfl
    · obtain ⟨p, hp, rfl⟩ := Option.map_eq_some_iff.mp ht
      exact hpast p.1 p.2 hp
  | arrive connection arrivals =>
    rw [HIDAction.without, AdminHID.step, AdminHID.step]
    refine ⟨?_, rfl, fun t ht => ?_⟩
    · have hopened : (s.without k).opened = s.opened := rfl
      rw [hopened]
      by_cases hlt : connection < s.opened
      · rw [if_pos hlt, if_pos hlt, Option.map_some]
        by_cases hk : connection = k
        · subst hk
          rw [if_pos rfl, arrive, arrive, without, without, setUnread_setUnread, setUnread_setUnread,
            setUnread_unread_self, List.append_nil]
        · rw [if_neg hk, without_arrive hk]
      · rw [if_neg hlt, if_neg hlt, Option.map_none]
    · simp only [Option.ite_none_right_eq_some, Option.some.injEq] at ht
      obtain ⟨-, rfl⟩ := ht
      exact ⟨h.opened, h.socket⟩

/-- After the connection has been closed, the calls leave behind what they would if nothing came on it. -/
theorem Past.collect (h : s.Past k) (actions : List HIDAction) :
    Transition.collect AdminHID.step record (s.without k) (actions.map (HIDAction.without k)) =
      Transition.collect AdminHID.step record s actions := by
  induction actions generalizing s with
  | nil => rfl
  | cons action actions ih =>
    obtain ⟨hstep, hrecord, hpast⟩ := h.step action
    rw [List.map_cons, Transition.collect, Transition.collect, hrecord, hstep]
    cases hnext : s.step action with
    | none => rfl
    | some t =>
      rw [Option.map_some, Option.map_some, Option.map_some, ih (hpast t hnext)]

/-! ### Calls that fail -/

/-- The connection that is open is one that has been opened. -/
def Opened (s : AdminHID) : Prop := ∀ connection ∈ s.socket, connection < s.opened

theorem Opened.connect (h : s.Opened) {result : ConnectResult} (hconnect : s.connect result = .ok (t, connection)) :
    t.Opened ∧ connection < t.opened := by
  unfold AdminHID.connect at hconnect
  split at hconnect
  · rename_i hsocket
    cases hconnect
    exact ⟨h, h connection hsocket⟩
  · split at hconnect
    · cases hconnect
    · split at hconnect
      any_goals cases hconnect
      refine ⟨fun connection hopen => ?_, Nat.lt_succ_self _⟩
      cases hopen
      exact Nat.lt_succ_self _

theorem Opened.close (s : AdminHID) : s.close.Opened := fun _ hnone => by cases hnone

/-- A call keeps what is open in order, and closes its connection if writing or parsing fails. -/
theorem Opened.post (h : s.Opened) {call : PostCall} {r : PostRecord} (hpost : s.post call = some (t, r)) :
    t.Opened ∧ (r.broken = true → ∃ k, r.connection = some k ∧ t.socket = none ∧ k < t.opened) := by
  unfold AdminHID.post at hpost
  split at hpost
  · cases hpost
    exact ⟨h, fun hbroken => by cases hbroken⟩
  · rename_i u connection hconnect
    obtain ⟨hopened, hlt⟩ := h.connect hconnect
    dsimp only at hpost
    split at hpost
    · cases hpost
    · cases hpost
      exact ⟨Opened.close _, fun _ => ⟨connection, rfl, rfl, hlt⟩⟩
    · split at hpost
      · cases hpost
      · cases hpost
        exact ⟨Opened.close _, fun _ => ⟨connection, rfl, rfl, hlt⟩⟩
      · cases hpost
        refine ⟨?_, fun hbroken => by cases hbroken⟩
        split
        · exact Opened.close _
        · exact hopened

theorem Opened.step (h : s.Opened) {action : HIDAction} (hstep : s.step action = some t) : t.Opened := by
  cases action with
  | post call =>
    obtain ⟨p, hpost, rfl⟩ := Option.map_eq_some_iff.mp hstep
    exact (h.post hpost).1
  | arrive connection arrivals =>
    simp only [AdminHID.step, Option.ite_none_right_eq_some, Option.some.injEq] at hstep
    obtain ⟨-, rfl⟩ := hstep
    exact h

end AdminHID

/-- Where the server answers each call with one response, each call reads its own and returns by its status.
    `ParseResponse` does not wait once there have been more answers from the socket than a response has bytes at
    most. After a call that fails in writing or parsing, the later ones are as if nothing came on its connection. -/
theorem posts_paired (socketPath : String) (identity : Identity)
    (short : socketPath.utf8ByteSize < AdminHID.sunPathSize) :
    (∀ exchanges : List (PostCall × Response),
      (∀ e ∈ exchanges, e.1.Answered (AdminHID.start socketPath identity) e.2) →
      ∃ t, run AdminHID.step (AdminHID.start socketPath identity) (exchanges.map fun e => .post e.1) = some t ∧
        (collect AdminHID.step AdminHID.record (AdminHID.start socketPath identity)
          (exchanges.map fun e => .post e.1)).map (fun r => (r.response, r.result)) =
            exchanges.map fun e => (e.2.bytes, AdminHID.postResult e.1.path e.2.statusCode)) ∧
    (∀ arrivals, maxResponseHeader + maxResponseBody < answered arrivals → parseResponse arrivals ≠ .waiting) ∧
    (∀ actions s call t r, run AdminHID.step (AdminHID.start socketPath identity) actions = some s →
      s.post call = some (t, r) → r.broken = true → ∃ k, r.connection = some k ∧ t.socket = none ∧
        ∀ later, collect AdminHID.step AdminHID.record (t.without k) (later.map (HIDAction.without k)) =
          collect AdminHID.step AdminHID.record t later) := by
  refine ⟨fun exchanges answered => ?_, fun arrivals hlt hwaiting => ?_, fun actions s call t r hs hpost hbroken => ?_⟩
  · have hidle : (AdminHID.start socketPath identity).Idle (AdminHID.start socketPath identity) :=
      ⟨rfl, rfl, fun _ hnone => (by cases hnone), fun _ hnone => (by cases hnone), fun _ _ => rfl⟩
    exact hidle.run short answered
  · have hle := parseResponse_waiting hwaiting
    omega
  · have hopened : s.Opened := Transition.run_invariant (P := AdminHID.Opened) (fun _ hnone => by cases hnone)
      (fun _ _ _ hu hstep => hu.step hstep) hs
    obtain ⟨k, hconnection, hclosed, hlt⟩ := (hopened.post hpost).2 hbroken
    have hpast : t.Past k := ⟨hlt, by rw [hclosed]; exact Option.some_ne_none k |>.symm⟩
    exact ⟨k, hconnection, hclosed, hpast.collect⟩

/-- A short response, with an odd spelling of its length. -/
def shortResponse (ok : Bool) : Response where
  version := bytesOf "1.1"
  status := if ok then bytesOf "200" else bytesOf "404"
  reason := bytesOf " ?"
  headers :=
    [{ name := bytesOf "cOnTent-LENGTH", value := bytesOf " 2", name_line := by decide, name_colon := by decide
       value_line := by decide }]
  body := bytesOf "[]"
  version_line := by decide
  version_blank := by decide
  status_length := by cases ok <;> decide
  status_digits := by cases ok <;> decide
  reason_line := by decide
  length := ⟨_, List.mem_cons_self, by unfold Header.IsContentLength; decide⟩
  lengths := by
    intro h hh _
    obtain rfl := List.mem_singleton.mp hh
    exact ⟨bytesOf " ", bytesOf "2", by decide, fun _ hb => .inl (List.mem_singleton.mp hb), by decide, by decide,
      by decide⟩
  encoding := by
    intro h hh
    obtain rfl := List.mem_singleton.mp hh
    decide
  head_length := by cases ok <;> decide
  body_length := by decide

/-- The response comes in two parts, the first one without all of the head. -/
def shortCall (ok : Bool) : PostCall where
  path := (HIDRequest.keyboard 0 [4]).path
  payload := (HIDRequest.keyboard 0 [4]).payload
  writes := [.interrupted, .send 4096 ""]
  arrivals := [.bytes ((shortResponse ok).bytes.take 20), .interrupted, .bytes ((shortResponse ok).bytes.drop 20)]

theorem answered_shortCall (ok : Bool) :
    (shortCall ok).Answered (AdminHID.start "/run/admin.sock" { extensionId := "vnc", token := "t" }) (shortResponse ok) where
  connects := rfl
  written := by cases ok <;> decide +kernel
  answer := by
    have hcarries : Carries (shortCall ok).arrivals
        ((shortResponse ok).bytes.take 20 ++ ((shortResponse ok).bytes.drop 20 ++ [])) :=
      .bytes (by cases ok <;> decide) (.interrupted (.bytes (by cases ok <;> decide) .nil))
    rw [List.append_nil, List.take_append_drop] at hcarries
    exact hcarries

/-- A request is accepted, and the next one is not. -/
theorem posts_paired_short : ∃ t,
    run AdminHID.step (AdminHID.start "/run/admin.sock" { extensionId := "vnc", token := "t" })
      [.post (shortCall true), .post (shortCall false)] = some t ∧
    (collect AdminHID.step AdminHID.record (AdminHID.start "/run/admin.sock" { extensionId := "vnc", token := "t" })
      [.post (shortCall true), .post (shortCall false)]).map (fun r => (r.response, r.result)) =
        [((shortResponse true).bytes, AdminHID.postResult "/api/hid/keyboard" 200),
          ((shortResponse false).bytes, AdminHID.postResult "/api/hid/keyboard" 404)] := by
  obtain ⟨hpaired, -, -⟩ := posts_paired "/run/admin.sock" { extensionId := "vnc", token := "t" } (by decide)
  have hanswered : ∀ e ∈ [(shortCall true, shortResponse true), (shortCall false, shortResponse false)],
      e.1.Answered (AdminHID.start "/run/admin.sock" { extensionId := "vnc", token := "t" }) e.2 := by
    simp [answered_shortCall]
  exact hpaired _ hanswered

end OnekvmVnc
