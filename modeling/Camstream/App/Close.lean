import Camstream.App.Signaling
import Camstream.Session.Watchdogs

/-!
# Closing a session by its id

`json_get_int` and `handle_rtc_close` of `src/app/app_server.c`, for the two data models the program is built
for. An id is printed as an `unsigned`, read back as a `long`, and compared as a `uint32_t`:
`closesAddressed_iff` says which numbers come through unharmed, and what is closed when one does not.
-/

namespace Camstream

open CString

/-! ### The handler -/

/-- How wide a `long` is: 32 bits on 32-bit Raspberry Pi OS, 64 bits elsewhere. -/
inductive DataModel
  | ilp32
  | lp64
  deriving DecidableEq, Repr

def DataModel.longBits : DataModel → ℕ
  | ilp32 => 32
  | lp64 => 64

/-- `LONG_MAX` -/
def DataModel.longMax (model : DataModel) : ℕ :=
  2 ^ (model.longBits - 1) - 1

/-- `json_get_int`; `none` is `-1`. -/
def jsonGetInt (model : DataModel) (body field : List UInt8) : Option ℤ :=
  match strstrIndex body (jsonPattern field) with
  | none => none
  | some i =>
    strtolLong model.longBits
      ((body.drop (i + (jsonPattern field).length)).dropWhile fun c ↦ c = 0x20 ∨ c = 0x3A)

/-- `rtc_session_close` of the session in a slot. -/
def Server.closeSlot (server : Server) (ans : Answers) (slot : Fin maxRtcSessions) : Server :=
  { server with
    sessions := server.sessions.set slot
      ((server.sessions.get slot).map fun x ↦ (x.1, rtcSessionClose ans x.2)) slot.isLt
    trace := server.trace ++ [slotCall slot ⟨ans, .close⟩] }

/-- The loop of `handle_rtc_close`: the first slot with a session of this id. -/
def findSession (server : Server) (id : UInt32) : Option (Fin maxRtcSessions) :=
  (List.finRange maxRtcSessions).find? fun i ↦ (server.sessions.get i).any fun session ↦ session.1 = id

/-- `sizeof(request_body)` -/
def closeRequestSize : ℕ := 512

/-- `handle_rtc_close` -/
def handleRtcClose (model : DataModel) (server : Server) (request : List UInt8) (ans : Answers) :
    Server × HttpReply :=
  if closeRequestSize ≤ request.length then
    (server, ⟨413, ascii "\x7b\"error\":\"close request is too large\"\x7d"⟩)
  else
    match jsonGetInt model (cstring (request ++ [0])) (ascii "session_id") with
    | none => (server, ⟨400, ascii "\x7b\"error\":\"missing session_id\"\x7d"⟩)
    | some id =>
      let server :=
        match findSession server (UInt32.ofInt id) with
        | some slot => server.closeSlot ans slot
        | none => server
      (server, ⟨200, ascii "\x7b\"closed\":true\x7d"⟩)

/-! ### Which session is addressed -/

/-- The request a viewer sends, with so many spaces behind the colon. -/
def closeRequest (spaces id : ℕ) : List UInt8 :=
  ascii "\x7b\"session_id\":" ++ List.replicate spaces 0x20 ++ decimal id ++ ascii "\x7d"

/-- No two sessions have the same id. -/
def Server.DistinctIds (server : Server) : Prop :=
  ∀ i j x y, server.sessions.get i = some x → server.sessions.get j = some y → x.1 = y.1 → i = j

/-- There is a session with this id that is not closed. -/
def Server.HasOpen (server : Server) (id : ℕ) : Prop :=
  ∃ i x, server.sessions.get i = some x ∧ x.1.toNat = id ∧ x.2.state ≠ .closed

/-- The session with this id is closed, and nothing else of the program has changed. -/
structure ClosesExactly (id : ℕ) (server server' : Server) : Prop where
  addressed : ∀ i x, server.sessions.get i = some x → x.1.toNat = id →
    ∃ session, server'.sessions.get i = some (x.1, session) ∧ session.state = .closed
  others : ∀ i, (∀ x, server.sessions.get i = some x → x.1.toNat ≠ id) →
    server'.sessions.get i = server.sessions.get i
  rest : { server' with sessions := server.sessions, trace := server.trace } = server

/-- What a request does that names this id. -/
def ClosesAddressed (model : DataModel) (server : Server) (spaces id : ℕ) (ans : Answers) : Prop :=
  ClosesExactly id server (handleRtcClose model server (closeRequest spaces id) ans).1

/-! ### Reading the request -/

/-- The key of a request. -/
theorem jsonPattern_sessionId : jsonPattern (ascii "session_id") = ascii "\"session_id\"" := by decide

/-- A request is a C string. -/
theorem cstring_closeRequest (spaces id : ℕ) :
    cstring (closeRequest spaces id ++ [0]) = closeRequest spaces id := by
  refine cstring_append_zero ?_ []
  have hdecimal : 0 ∉ decimal id := notMem_decimal (by decide) id
  have hspaces : 0 ∉ List.replicate spaces (0x20 : UInt8) := fun h ↦
    absurd (List.eq_of_mem_replicate h) (by decide)
  rw [closeRequest]
  simp only [List.mem_append, hdecimal, hspaces, or_false]
  decide

/-- **The number a request is read as.** -/
theorem jsonGetInt_closeRequest (model : DataModel) (spaces id : ℕ) :
    jsonGetInt model (closeRequest spaces id) (ascii "session_id") =
      some ((min id model.longMax : ℕ) : ℤ) := by
  set pattern := jsonPattern (ascii "session_id") with hpattern
  have hkey : pattern = ascii "\"session_id\"" := jsonPattern_sessionId
  have hbody : closeRequest spaces id = [0x7B] ++ (pattern ++
      (0x3A :: List.replicate spaces 0x20 ++ (decimal id ++ [0x7D]))) := by
    have hhead : ascii "\x7b\"session_id\":" = [0x7B] ++ (pattern ++ [0x3A]) := by rw [hkey]; decide
    rw [closeRequest, hhead]
    simp only [List.append_assoc, List.cons_append, List.nil_append]
    rfl
  -- Nothing in front of the name looks like its beginning.
  have hfirst : strstrIndex (closeRequest spaces id) pattern = some 1 := by
    rw [hbody, strstrIndex_append (by rw [hkey]; decide), strstrIndex_of_prefix (List.prefix_append _ _)]
    rfl
  have hdrop : (closeRequest spaces id).drop (1 + pattern.length) =
      0x3A :: List.replicate spaces 0x20 ++ (decimal id ++ [0x7D]) := by
    rw [hbody, ← List.append_assoc]
    exact List.drop_left' (by rw [List.length_append, List.length_singleton])
  -- The colon and the blanks are skipped, up to the first digit.
  have hspaces : (0x3A :: List.replicate spaces 0x20 ++ (decimal id ++ [0x7D])).dropWhile
      (fun c ↦ c = 0x20 ∨ c = 0x3A) = decimal id ++ [0x7D] := by
    obtain ⟨d, ds, hd⟩ := List.exists_cons_of_ne_nil (decimal_ne_nil id)
    have hdigit : isdigit d = true := isdigit_of_mem_decimal (hd ▸ List.mem_cons_self)
    have hstop : ¬ decide (d = 0x20 ∨ d = 0x3A) = true := by
      rw [decide_eq_true_eq]
      rintro (rfl | rfl) <;> exact absurd hdigit (by decide)
    have hskip : ∀ c ∈ 0x3A :: List.replicate spaces 0x20, decide (c = (0x20 : UInt8) ∨ c = 0x3A) = true :=
      List.forall_mem_cons.2 ⟨by decide, fun c hc ↦ decide_eq_true (.inl (List.eq_of_mem_replicate hc))⟩
    rw [List.dropWhile_append_of_pos hskip, hd, List.cons_append]
    exact List.dropWhile_cons_of_neg hstop
  rw [jsonGetInt, ← hpattern, hfirst]
  dsimp only
  rw [hdrop, hspaces]
  refine strtolLong_decimal _ _ fun c hc ↦ ?_
  obtain rfl : 0x7D = c := Option.some.inj hc
  decide

/-! ### What is closed -/

variable {model : DataModel} {server : Server} {ans : Answers}

/-- The id that a number is compared as. -/
def addressedId (model : DataModel) (id : ℕ) : ℕ :=
  min id model.longMax % 2 ^ 32

theorem addressedId_eq_iff {id : ℕ} : addressedId model id = id ↔ id ≤ model.longMax ∧ id < 2 ^ 32 := by
  rw [addressedId]
  omega

/-- The loop stops at a session with the id. -/
theorem findSession_eq_some {id : UInt32} {i : Fin maxRtcSessions} (h : findSession server id = some i) :
    ∃ session, server.sessions.get i = some (id, session) := by
  have hany : (server.sessions.get i).any (fun session ↦ session.1 = id) = true := by
    exact (List.find?_eq_some_iff_append.1 h).1
  obtain ⟨⟨id', session⟩, hget, hid⟩ := (Option.any_eq_true _ _).1 hany
  obtain rfl : id' = id := of_decide_eq_true hid
  exact ⟨session, hget⟩

/-- It does not stop when there is none. -/
theorem findSession_eq_none {id : UInt32} (h : findSession server id = none) {i : Fin maxRtcSessions}
    {x : UInt32 × RtcSession} (hget : server.sessions.get i = some x) : x.1 ≠ id := by
  intro hid
  refine List.find?_eq_none.1 h i (List.mem_finRange i) ?_
  rw [hget]
  exact decide_eq_true hid

/-- The other slots are as they were. -/
theorem get_closeSlot (slot i : Fin maxRtcSessions) :
    (server.closeSlot ans slot).sessions.get i =
      if i = slot then (server.sessions.get i).map fun x ↦ (x.1, rtcSessionClose ans x.2)
      else server.sessions.get i := by
  show (server.sessions.set slot _ slot.isLt)[i.val] = _
  rw [Vector.getElem_set]
  rcases eq_or_ne i slot with h | h
  · rw [if_pos h, if_pos (congrArg Fin.val h.symm), h]
  · rw [if_neg h, if_neg fun hval ↦ h (Fin.ext hval.symm)]
    rfl

/-- **What a request that fits does**: it closes the session with the addressed id. -/
theorem get_handleRtcClose (hdistinct : server.DistinctIds) {spaces id : ℕ}
    (hfits : (closeRequest spaces id).length < closeRequestSize) (i : Fin maxRtcSessions) :
    (handleRtcClose model server (closeRequest spaces id) ans).1.sessions.get i =
      (server.sessions.get i).map fun x ↦
        if x.1.toNat = addressedId model id then (x.1, rtcSessionClose ans x.2) else x := by
  set number := UInt32.ofInt ((min id model.longMax : ℕ) : ℤ) with hnumber
  have haddressed : addressedId model id = number.toNat := by
    rw [hnumber, UInt32.ofInt, UInt32.toNat_ofNat', addressedId]
    omega
  rw [handleRtcClose, if_neg (Nat.not_le.2 hfits), cstring_closeRequest, jsonGetInt_closeRequest]
  dsimp only
  rw [← hnumber, haddressed]
  rcases hfind : findSession server number with - | slot
  · -- No session has the id, and none is touched.
    dsimp only
    rcases hget : server.sessions.get i with - | x
    · rfl
    · rw [Option.map_some, if_neg fun h ↦ findSession_eq_none hfind hget (UInt32.toNat.inj h)]
  · dsimp only
    obtain ⟨session, hslot⟩ := findSession_eq_some hfind
    rw [get_closeSlot]
    rcases hget : server.sessions.get i with - | x
    · exact ite_self _
    · have hiff : i = slot ↔ x.1.toNat = number.toNat := by
        constructor
        · rintro rfl
          rw [hslot] at hget
          rw [← Option.some.inj hget]
        · exact fun h ↦ hdistinct i slot x _ hget hslot (UInt32.toNat.inj h)
      rw [Option.map_some, Option.map_some]
      rcases eq_or_ne i slot with h | h
      · rw [if_pos h, if_pos (hiff.1 h)]
      · rw [if_neg h, if_neg (mt hiff.2 h)]

/-- Only the sessions are touched. -/
theorem rest_handleRtcClose (request : List UInt8) :
    { (handleRtcClose model server request ans).1 with
      sessions := server.sessions, trace := server.trace } = server := by
  rw [handleRtcClose]
  split_ifs
  · rfl
  · split
    · rfl
    · dsimp only
      split <;> rfl

/-- Nothing happens: that is right when no session with the id is open. -/
theorem closesExactly_self_iff {id : ℕ} : ClosesExactly id server server ↔ ¬ server.HasOpen id := by
  constructor
  · rintro h ⟨i, x, hget, hid, hopen⟩
    obtain ⟨session, hget', hclosed⟩ := h.addressed i x hget hid
    rw [hget] at hget'
    exact hopen ((congrArg (fun y ↦ y.2.state) (Option.some.inj hget')).trans hclosed)
  · intro h
    refine ⟨fun i x hget hid ↦ ⟨x.2, hget, ?_⟩, fun _ _ ↦ rfl, rfl⟩
    by_contra hopen
    exact h ⟨i, x, hget, hid, hopen⟩

/-- The session with the id `taken` is closed: that is right when it is the one, or when neither is open. -/
theorem closesExactly_iff {server' : Server} {id taken : ℕ}
    (hget : ∀ i, server'.sessions.get i = (server.sessions.get i).map fun x ↦
      if x.1.toNat = taken then (x.1, rtcSessionClose ans x.2) else x)
    (hrest : { server' with sessions := server.sessions, trace := server.trace } = server) :
    ClosesExactly id server server' ↔ taken = id ∨ ¬ server.HasOpen id ∧ ¬ server.HasOpen taken := by
  have hsome {i : Fin maxRtcSessions} {x : UInt32 × RtcSession} (hx : server.sessions.get i = some x) :
      server'.sessions.get i =
        some (if x.1.toNat = taken then (x.1, rtcSessionClose ans x.2) else x) := by
    rw [hget, hx, Option.map_some]
  constructor
  · intro h
    refine or_iff_not_imp_left.2 fun hne ↦ ⟨?_, ?_⟩
    · rintro ⟨i, x, hx, hid, hopen⟩
      obtain ⟨session, hx', hclosed⟩ := h.addressed i x hx hid
      rw [hsome hx, if_neg fun htaken ↦ hne (htaken.symm.trans hid)] at hx'
      exact hopen ((congrArg (fun y ↦ y.2.state) (Option.some.inj hx')).trans hclosed)
    · rintro ⟨i, x, hx, htaken, hopen⟩
      have hother : ∀ y, server.sessions.get i = some y → y.1.toNat ≠ id := by
        rintro y hy hid
        obtain rfl := Option.some.inj (hx.symm.trans hy)
        exact hne (htaken.symm.trans hid)
      have hsame := h.others i hother
      rw [hsome hx, if_pos htaken, hx] at hsame
      have hclosed := congrArg (fun y ↦ y.2.state) (Option.some.inj hsame)
      exact hopen (hclosed.symm.trans (state_rtcSessionClose x.2))
  · rintro (rfl | ⟨hid, htaken⟩)
    · refine ⟨fun i x hx hid ↦ ⟨rtcSessionClose ans x.2, ?_, state_rtcSessionClose x.2⟩, fun i h ↦ ?_, hrest⟩
      · rw [hsome hx, if_pos hid]
      · rcases hx : server.sessions.get i with - | x
        · rw [hget, hx, Option.map_none]
        · rw [hsome hx, if_neg (h x hx)]
    · -- The session that is taken for the addressed one is closed already, and closing it does nothing.
      have hsame : ∀ i, server'.sessions.get i = server.sessions.get i := by
        intro i
        rcases hx : server.sessions.get i with - | x
        · rw [hget, hx, Option.map_none]
        · rw [hsome hx]
          rcases eq_or_ne x.1.toNat taken with htake | htake
          · have hclosed : x.2.state = .closed := by
              by_contra hopen
              exact htaken ⟨i, x, hx, htake, hopen⟩
            rw [if_pos htake, rtcSessionClose_of_closed ans hclosed]
          · rw [if_neg htake]
      refine ⟨fun i x hx hid' ↦ ⟨x.2, (hsame i).trans hx, ?_⟩, fun i _ ↦ hsame i, hrest⟩
      by_contra hopen
      exact hid ⟨i, x, hx, hid', hopen⟩

/-- **When `POST /rtc/close` closes the session it addresses.** The request fits its buffer, and the number
fits a `long` and the ids; or nothing is to be closed, neither the session that is named nor the one the
number is taken for. -/
theorem closesAddressed_iff (hdistinct : server.DistinctIds) (spaces id : ℕ) :
    ClosesAddressed model server spaces id ans ↔
      (closeRequest spaces id).length < closeRequestSize ∧ id ≤ model.longMax ∧ id < 2 ^ 32 ∨
        ¬ server.HasOpen id ∧ ((closeRequest spaces id).length < closeRequestSize →
          ¬ server.HasOpen (min id model.longMax % 2 ^ 32)) := by
  rw [ClosesAddressed, ← addressedId_eq_iff, ← addressedId]
  by_cases hfits : (closeRequest spaces id).length < closeRequestSize
  · rw [closesExactly_iff (get_handleRtcClose hdistinct hfits) (rest_handleRtcClose _)]
    simp only [hfits, true_and, true_implies]
  · have hkept : (handleRtcClose model server (closeRequest spaces id) ans).1 = server := by
      rw [handleRtcClose, if_pos (Nat.not_lt.1 hfits)]
    rw [hkept, closesExactly_self_iff]
    simp only [hfits, false_and, false_or, false_implies, and_true]

/-! ### The id of the documentation -/

/-- A server without sessions. -/
def idleServer : Server :=
  ⟨Vector.replicate maxRtcSessions none, 0, false, false, 50000, []⟩

/-- The other slots are as they were. -/
theorem get_openSession (slot i : Fin maxRtcSessions) (id : UInt32) (session : RtcSession) :
    (server.openSession slot id session).sessions.get i =
      if i = slot then some (id, session) else server.sessions.get i := by
  show (server.sessions.set slot _ slot.isLt)[i.val] = _
  rw [Vector.getElem_set]
  rcases eq_or_ne i slot with h | h
  · rw [if_pos h, if_pos (congrArg Fin.val h.symm)]
  · rw [if_neg h, if_neg fun hval ↦ h (Fin.ext hval.symm)]
    rfl

/-- With one session the ids are distinct. -/
theorem get_openSession_idleServer {slot i : Fin maxRtcSessions} {id : UInt32} {session : RtcSession}
    {x : UInt32 × RtcSession} (h : (idleServer.openSession slot id session).sessions.get i = some x) :
    i = slot ∧ x = (id, session) := by
  rw [get_openSession] at h
  rcases eq_or_ne i slot with hi | hi
  · rw [if_pos hi] at h
    exact ⟨hi, (Option.some.inj h).symm⟩
  · have hnone : idleServer.sessions.get i = none :=
      Vector.getElem_replicate i.isLt
    rw [if_neg hi, hnone] at h
    cases h

theorem distinctIds_openSession_idleServer (slot : Fin maxRtcSessions) (id : UInt32) (session : RtcSession) :
    (idleServer.openSession slot id session).DistinctIds := by
  intro i j x y hx hy _
  exact (get_openSession_idleServer hx).1.trans (get_openSession_idleServer hy).1.symm

theorem hasOpen_openSession (slot : Fin maxRtcSessions) (id : UInt32) {session : RtcSession}
    (h : session.state ≠ .closed) : (server.openSession slot id session).HasOpen id.toNat :=
  ⟨slot, (id, session), by rw [get_openSession, if_pos rfl], rfl, h⟩

theorem closesAddressed_iff_sample : ∃ session,
    rtcSessionCreate sampleCreate (sampleConfig sampleFingerprint) = some session ∧
    ClosesAddressed .lp64 (idleServer.openSession ⟨0, by decide⟩ 2716354772 session) 1 2716354772
      (sampleAnswers 100) :=
  ⟨_, rfl, (closesAddressed_iff (distinctIds_openSession_idleServer _ _ _) 1 2716354772).2
    (.inl ⟨by decide, by decide, by decide⟩)⟩

/-- **A session that `POST /rtc/close` does not close**, on a system with a 32-bit `long`. -/
theorem not_closesAddressed_ilp32 : ∃ session,
    rtcSessionCreate sampleCreate (sampleConfig sampleFingerprint) = some session ∧
    (idleServer.openSession ⟨0, by decide⟩ 2716354772 session).DistinctIds ∧
    ¬ ClosesAddressed .ilp32 (idleServer.openSession ⟨0, by decide⟩ 2716354772 session) 0 2716354772
      (sampleAnswers 100) := by
  have hstate : (rtcSessionCreate sampleCreate (sampleConfig sampleFingerprint)).map (fun s ↦ s.state) =
      some .new := by decide
  obtain ⟨session, hcreate, hnew⟩ := Option.map_eq_some_iff.1 hstate
  have hopen : session.state ≠ .closed := by
    rw [hnew]
    decide
  have hdistinct := distinctIds_openSession_idleServer ⟨0, by decide⟩ 2716354772 session
  refine ⟨session, hcreate, hdistinct, fun h ↦ ?_⟩
  rcases (closesExactly_iff (get_handleRtcClose hdistinct (by decide)) (rest_handleRtcClose _)).1 h with h | h
  · exact absurd h (by decide)
  · exact h.1 (hasOpen_openSession _ _ hopen)

end Camstream
