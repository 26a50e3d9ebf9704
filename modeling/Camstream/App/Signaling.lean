import Camstream.App.Json
import Camstream.Lib.Hosting
import Camstream.Sdp.Injection
import Camstream.Session.Session

/-!
# Answering an offer

`handle_rtc_offer` of `src/app/app_server.c`: a JSON request with an offer, and the JSON reply with the
answer. What the handler asks of the operating system and of the session it creates is in `OfferEnv`; the
log lines and the choice of the addresses are left out.

The reply is put together in a buffer of 24576 bytes. `offerPayload_eq_ok` says that this is enough for
every answer the builder can return, and `signaling_roundTrip` that the reply reads back as that answer.
-/

namespace Camstream

open CString Hosting

/-- `MAX_RTC_SESSIONS` -/
def maxRtcSessions : ℕ := 8

theorem maxRtcSessions_pos : 0 < maxRtcSessions := by decide

/-- What happens to a slot: a session is created in it, called, or destroyed. -/
abbrev SlotEvent := Event (Fin maxRtcSessions) (UInt32 × RtcSession) RtcEvent

/-- Whether a call is `rtc_session_destroy`. -/
def RtcCall.isDestroy : RtcCall → Bool
  | destroy => true
  | _ => false

/-- A call on the session of a slot. -/
def slotCall (slot : Fin maxRtcSessions) (e : RtcEvent) : SlotEvent :=
  if e.call.isDestroy then .stop slot e else .call slot e

/-- The fields of `Server` that signaling uses. A session is kept with its id. -/
structure Server where
  sessions : Vector (Option (UInt32 × RtcSession)) maxRtcSessions
  sessionsTotal : UInt64
  rtcActive : Bool
  forceIdr : Bool
  udpBasePort : UInt16
  /-- The calls of the server on its sessions so far. The program keeps no such record. -/
  trace : List SlotEvent

/-- What `mg_http_reply` is called with. -/
structure HttpReply where
  status : ℕ
  body : List UInt8
  deriving DecidableEq, Repr

/-- What the handler asks its environment. -/
structure OfferEnv where
  /-- The stack above the request body. -/
  stack : List UInt8
  /-- `session_id`, drawn at random. -/
  sessionId : UInt32
  create : CreateAnswers
  localFingerprint : List UInt8
  advertiseIp : List UInt8
  extraIps : List (List UInt8)
  /-- The port the socket is bound to. -/
  boundPort : UInt16
  /-- What `rtc_session_destroy` asks when the reply does not fit. -/
  destroy : Answers

/-! ### The payload -/

/-- `sizeof(payload)` -/
def payloadSize : ℕ := 24576

/-- The payload in front of the answer. -/
def payloadHead (sessionId : UInt32) (udpPort : UInt16) : List UInt8 :=
  ascii "\x7b\"type\":\"answer\",\"session_id\":" ++ decimal sessionId.toNat ++ ascii ",\"udp_port\":" ++
    decimal udpPort.toNat ++ ascii ",\"sdp\":\""

/-- The payload behind the answer. -/
def payloadTail : List UInt8 :=
  ascii "\"\x7d"

/-- What `json_escape_append` writes of an answer. -/
def payloadAnswer (sessionId : UInt32) (udpPort : UInt16) (answer : List UInt8) : List UInt8 :=
  jsonEscapeAppend answer (payloadSize - (payloadHead sessionId udpPort).length)

/-- Why there is no payload. -/
inductive PayloadOverflow
  | answerTooLarge
  | sdpEscapeOverflow
  | payloadOverflow
  deriving DecidableEq, Repr

/-- The text of the error. -/
def PayloadOverflow.body : PayloadOverflow → List UInt8
  | answerTooLarge => ascii "\x7b\"error\":\"answer too large\"\x7d"
  | sdpEscapeOverflow => ascii "\x7b\"error\":\"SDP escape overflow\"\x7d"
  | payloadOverflow => ascii "\x7b\"error\":\"payload overflow\"\x7d"

/-- The payload, up to its terminating zero. -/
def offerPayload (sessionId : UInt32) (udpPort : UInt16) (answer : List UInt8) :
    Except PayloadOverflow (List UInt8) :=
  let head := payloadHead sessionId udpPort
  let esc := payloadAnswer sessionId udpPort answer
  if payloadSize ≤ head.length then .error .answerTooLarge
  else if esc = [] ∧ answer ≠ [] then .error .sdpEscapeOverflow
  else if payloadSize - (head ++ esc).length ≤ payloadTail.length then .error .payloadOverflow
  else .ok (head ++ esc ++ payloadTail)

/-! ### The handler -/

/-- `sizeof(request_body)` -/
def requestSize : ℕ := 16384

/-- The arguments of `sdp_build_answer_multi`. -/
def OfferEnv.args (env : OfferEnv) : SdpAnswerArgs where
  localFingerprint := env.localFingerprint
  localUfrag := (generateCredentials env.create.raw).1
  localPwd := (generateCredentials env.create.raw).2
  advertiseIp := env.advertiseIp
  extraIps := env.extraIps.map some
  udpPort := env.boundPort
  ssrc := if env.create.ssrc = 0 then 0x1234ABCD else env.create.ssrc

/-- The id a session gets. -/
def OfferEnv.id (env : OfferEnv) : UInt32 :=
  if env.sessionId = 0 then 1 else env.sessionId

/-- `sizeof(answer)`, and of `sdp`. -/
def answerSize : ℕ := 8192

/-- The answer to an offer. -/
def rtcAnswer (offer : SdpOffer) (env : OfferEnv) : Except SdpFailure (List UInt8) :=
  if env.extraIps ≠ [] then sdpBuildAnswerMulti offer env.args answerSize
  else sdpBuildAnswer offer env.args answerSize

/-- `rtc_session_create`, with the answer it builds. The outer `none` is a write outside a buffer. -/
def createSession (offer : SdpOffer) (env : OfferEnv) : Option (Option (RtcSession × List UInt8)) :=
  if !env.create.allocated ∨ env.create.udpFd < 0 ∨ !env.create.engineCreated then some none
  else
    match rtcAnswer offer env with
    | .error .overrun => none
    | .error .zero => some none
    | .ok answer =>
      let create := { env.create with answerLength := answer.length }
      some ((rtcSessionCreate create ⟨offer, true, true⟩).map fun session ↦ (session, answer))

/-- The server with a session in a slot. -/
def Server.openSession (server : Server) (slot : Fin maxRtcSessions) (sessionId : UInt32)
    (session : RtcSession) : Server :=
  { server with
    sessions := server.sessions.set slot (some (sessionId, session))
    sessionsTotal := server.sessionsTotal + 1
    rtcActive := true
    forceIdr := true
    trace := server.trace ++ [.start slot (sessionId, session)] }

/-- The reply once a session is in its slot. If it does not fit, the session is destroyed. -/
def replyToOffer (server : Server) (destroy : Answers) (slot : Fin maxRtcSessions) (sessionId : UInt32)
    (udpPort : UInt16) (answer : List UInt8) : Server × HttpReply :=
  match offerPayload sessionId udpPort answer with
  | .error overflow =>
    ({ server with
        sessions := server.sessions.set slot none
        sessionsTotal := server.sessionsTotal - 1
        rtcActive := false
        trace := server.trace ++ [slotCall slot ⟨destroy, .destroy⟩] },
      ⟨500, overflow.body⟩)
  | .ok payload => (server, ⟨200, payload⟩)

/-- The first free slot. -/
def freeSlot (server : Server) : Option (Fin maxRtcSessions) :=
  (List.finRange maxRtcSessions).find? fun i ↦ (server.sessions.get i).isNone

/-- `handle_rtc_offer`. `none` is a read or a write outside a buffer. -/
def handleRtcOffer (server : Server) (request : List UInt8) (env : OfferEnv) :
    Option (Server × HttpReply) :=
  if requestSize ≤ request.length then
    some (server, ⟨413, ascii "\x7b\"error\":\"signaling request is too large\"\x7d"⟩)
  else
    match jsonGetString ((request ++ 0 :: env.stack).take requestSize) (ascii "sdp") answerSize with
    | .overrun => none
    | .missing | .stored _ false =>
      some (server, ⟨400, ascii "\x7b\"error\":\"missing sdp field\"\x7d"⟩)
    | .stored sdp true =>
      match sdpParseOffer (cstring sdp) with
      | none =>
        some (server, ⟨400, ascii ("\x7b\"error\":\"offer is missing ICE credentials, " ++
          "fingerprint or H264 codec\"\x7d")⟩)
      | some offer =>
        match freeSlot server with
        | none => some (server, ⟨503, ascii "\x7b\"error\":\"session limit reached\"\x7d"⟩)
        | some slot =>
          let sessionId := env.id
          let udpPort := server.udpBasePort + UInt16.ofNat slot
          match createSession offer env with
          | none => none
          | some none =>
            some (server,
              ⟨500, ascii "\x7b\"error\":\"session create failed (UDP port busy?)\"\x7d"⟩)
          | some (some (session, answer)) =>
            some (replyToOffer (server.openSession slot sessionId session) env.destroy slot sessionId udpPort
              answer)

/-! ### The reply is complete -/

/-- An answer ends within its buffer. -/
theorem length_lt_of_sdpBuildAnswerMulti {offer : SdpOffer} {args : SdpAnswerArgs} {outCapacity : ℕ}
    {answer : List UInt8} (h : sdpBuildAnswerMulti offer args outCapacity = .ok answer) :
    answer.length < outCapacity := by
  obtain ⟨text, -, h⟩ := except_bind_eq_ok.1 h
  split_ifs at h
  obtain rfl := Except.ok.inj h
  omega

/-- Two numbers of ten digits at most, and the texts around them. -/
theorem length_payloadHead_le (sessionId : UInt32) (udpPort : UInt16) :
    (payloadHead sessionId udpPort).length ≤ 65 := by
  have hid := length_decimal_uint32 sessionId
  have hport := length_decimal_uint16 udpPort
  simp only [payloadHead, List.length_append]
  simp [ascii]
  omega

/-- The whole answer is escaped. -/
theorem payloadAnswer_eq {answer : List UInt8} (h : answer.length < answerSize) (sessionId : UInt32)
    (udpPort : UInt16) : payloadAnswer sessionId udpPort answer = jsonEscape answer := by
  have hhead := length_payloadHead_le sessionId udpPort
  have hesc := length_jsonEscape_le answer
  refine jsonEscapeAppend_of_lt ?_
  rw [answerSize] at h
  rw [payloadSize]
  omega

/-- **There is room for every answer.** -/
theorem offerPayload_eq_ok {answer : List UInt8} (h : answer.length < answerSize) (sessionId : UInt32)
    (udpPort : UInt16) :
    offerPayload sessionId udpPort answer =
      .ok (payloadHead sessionId udpPort ++ jsonEscape answer ++ payloadTail) := by
  have hhead := length_payloadHead_le sessionId udpPort
  have hesc := length_jsonEscape_le answer
  have htail : payloadTail.length = 2 := by decide
  have hlarge : ¬ payloadSize ≤ (payloadHead sessionId udpPort).length := by
    rw [payloadSize]
    omega
  have hempty : ¬ (jsonEscape answer = [] ∧ answer ≠ []) := by
    rintro ⟨hnil, hanswer⟩
    obtain ⟨c, rest, rfl⟩ := List.exists_cons_of_ne_nil hanswer
    exact jsonEscapeByte_ne_nil c (List.append_eq_nil_iff.1 hnil).1
  have hfits : ¬ payloadSize - (payloadHead sessionId udpPort ++ jsonEscape answer).length ≤
      payloadTail.length := by
    rw [answerSize] at h
    rw [payloadSize, List.length_append]
    omega
  rw [offerPayload, payloadAnswer_eq h, if_neg hlarge, if_neg hempty, if_neg hfits]

/-- A reply with an answer leaves the session in its slot. -/
theorem replyToOffer_eq {answer : List UInt8} (h : answer.length < answerSize) (server : Server)
    (destroy : Answers) (slot : Fin maxRtcSessions) (sessionId : UInt32) (udpPort : UInt16) :
    replyToOffer server destroy slot sessionId udpPort answer =
      (server, ⟨200, payloadHead sessionId udpPort ++ jsonEscape answer ++ payloadTail⟩) := by
  rw [replyToOffer, offerPayload_eq_ok h]

/-- Without further addresses the two builders are one. -/
theorem rtcAnswer_eq (offer : SdpOffer) (env : OfferEnv) :
    rtcAnswer offer env = sdpBuildAnswerMulti offer env.args answerSize := by
  rw [rtcAnswer]
  split_ifs with h
  · rfl
  · have hargs : { env.args with extraIps := [] } = env.args := by
      rw [OfferEnv.args, not_not.1 h, List.map_nil]
    rw [sdpBuildAnswer, hargs]

/-- An answer leaves room for its terminating zero. -/
theorem length_lt_of_createSession {offer : SdpOffer} {env : OfferEnv} {session : RtcSession}
    {answer : List UInt8} (h : createSession offer env = some (some (session, answer))) :
    answer.length < answerSize := by
  rw [createSession] at h
  split_ifs at h
  · exact nomatch Option.some.inj h
  split at h
  · exact nomatch h
  · exact nomatch Option.some.inj h
  · rename_i answer' hanswer
    obtain ⟨session', -, hpair⟩ := Option.map_eq_some_iff.1 (Option.some.inj h)
    obtain ⟨-, rfl⟩ := Prod.mk.inj hpair
    exact length_lt_of_sdpBuildAnswerMulti (rtcAnswer_eq offer env ▸ hanswer)

/-- **What a request can do**: an offer that was understood, with a free slot and a session for it, is
answered; every other request is refused, and the server is as before. -/
theorem handleRtcOffer_cases {server server' : Server} {request : List UInt8} {env : OfferEnv}
    {reply : HttpReply} (h : handleRtcOffer server request env = some (server', reply)) :
    (server' = server ∧ reply.status ∈ [400, 413, 500, 503]) ∨
      ∃ sdp offer slot session answer,
        jsonGetString ((request ++ 0 :: env.stack).take requestSize) (ascii "sdp") answerSize =
            .stored sdp true ∧
          sdpParseOffer (cstring sdp) = some offer ∧ freeSlot server = some slot ∧
          createSession offer env = some (some (session, answer)) ∧
          server' = server.openSession slot env.id session ∧
          reply = ⟨200, payloadHead env.id (server.udpBasePort + UInt16.ofNat slot) ++
            jsonEscape answer ++ payloadTail⟩ := by
  -- Every reply but the last leaves the server as it was.
  have hrefused : ∀ {status : ℕ} {body : List UInt8}, status ∈ [400, 413, 500, 503] →
      some (server, (⟨status, body⟩ : HttpReply)) = some (server', reply) →
      server' = server ∧ reply.status ∈ [400, 413, 500, 503] := by
    intro status body hstatus heq
    obtain ⟨rfl, rfl⟩ := Prod.mk.inj (Option.some.inj heq)
    exact ⟨rfl, hstatus⟩
  rw [handleRtcOffer] at h
  split_ifs at h with hlarge
  · exact Or.inl (hrefused (by decide) h)
  split at h
  · exact nomatch h
  · exact Or.inl (hrefused (by decide) h)
  · exact Or.inl (hrefused (by decide) h)
  rename_i sdp hget
  split at h
  · exact Or.inl (hrefused (by decide) h)
  rename_i offer hparse
  split at h
  · exact Or.inl (hrefused (by decide) h)
  rename_i slot hslot
  dsimp only at h
  split at h
  · exact nomatch h
  · exact Or.inl (hrefused (by decide) h)
  rename_i session answer hcreate
  rw [replyToOffer_eq (length_lt_of_createSession hcreate)] at h
  obtain ⟨rfl, rfl⟩ := Prod.mk.inj (Option.some.inj h)
  exact Or.inr ⟨sdp, offer, slot, session, answer, hget, hparse, hslot, hcreate, rfl, rfl⟩

/-! ### The reply read back -/

/-- The payload in front of the name of the field. -/
def payloadBefore (sessionId : UInt32) (udpPort : UInt16) : List UInt8 :=
  ascii "\x7b\"type\":\"answer\",\"session_id\":" ++ (decimal sessionId.toNat ++
    (ascii ",\"udp_port\":" ++ (decimal udpPort.toNat ++ ascii ",")))

/-- The head of the payload ends with the name of the member and its opening quote. -/
theorem payloadHead_eq (sessionId : UInt32) (udpPort : UInt16) :
    payloadHead sessionId udpPort =
      payloadBefore sessionId udpPort ++ jsonPattern (ascii "sdp") ++ ascii ":" ++ [0x22] := by
  have hlast : ascii ",\"sdp\":\"" =
      ascii "," ++ jsonPattern (ascii "sdp") ++ ascii ":" ++ [0x22] := by decide
  rw [payloadHead, payloadBefore, hlast]
  simp only [List.append_assoc]

/-- The name of the field does not begin inside a number. -/
theorem no_field_in_decimal (n : ℕ) : ∀ t ∈ (decimal n).tails, t ≠ [] →
    ¬ jsonPattern (ascii "sdp") <+: t ∧ ¬ t <+: jsonPattern (ascii "sdp") := by
  intro t ht hne
  obtain ⟨c, t, rfl⟩ := List.exists_cons_of_ne_nil hne
  have hdigit := isdigit_of_mem_decimal (((List.mem_tails _ _).1 ht).subset List.mem_cons_self)
  have hc : c ≠ 0x22 := by
    rintro rfl
    exact absurd hdigit (by decide)
  have hpattern : jsonPattern (ascii "sdp") = 0x22 :: ascii "sdp\"" := by decide
  rw [hpattern, List.cons_prefix_cons, List.cons_prefix_cons]
  exact ⟨fun h ↦ hc h.1.symm, fun h ↦ hc h.1⟩

/-- Nor anywhere else in front of the name. -/
theorem strstrIndex_payloadBefore (sessionId : UInt32) (udpPort : UInt16) {rest : List UInt8}
    (h : jsonPattern (ascii "sdp") <+: rest) :
    strstrIndex (payloadBefore sessionId udpPort ++ rest) (jsonPattern (ascii "sdp")) =
      some (payloadBefore sessionId udpPort).length := by
  rw [payloadBefore]
  simp only [List.append_assoc]
  rw [strstrIndex_append (by decide), strstrIndex_append (no_field_in_decimal _),
    strstrIndex_append (by decide), strstrIndex_append (no_field_in_decimal _),
    strstrIndex_append (by decide), strstrIndex_of_prefix h]
  simp only [Option.map_some, List.length_append]
  congr 1
  omega

/-- **The reply round trip.** The answer is read back from the payload, whatever stands behind it in
memory. -/
theorem jsonGetString_payload {answer : List UInt8} (hzero : 0 ∉ answer) (h : answer.length < answerSize)
    (sessionId : UInt32) (udpPort : UInt16) (after : List UInt8) :
    jsonGetString (payloadHead sessionId udpPort ++ jsonEscape answer ++ payloadTail ++ 0 :: after)
      (ascii "sdp") answerSize = .stored answer true := by
  set payload := payloadHead sessionId udpPort ++ jsonEscape answer ++ payloadTail with hpayload
  have hsplit : payload = payloadBefore sessionId udpPort ++ (jsonPattern (ascii "sdp") ++
      (ascii ":" ++ 0x22 :: (jsonEscape answer ++ payloadTail))) := by
    rw [hpayload, payloadHead_eq]
    simp only [List.append_assoc, List.cons_append, List.nil_append]
  have hnozero : 0 ∉ payload := by
    have hdecimal (n : ℕ) : 0 ∉ decimal n := notMem_decimal (by decide) n
    have hesc := notMem_jsonEscape hzero
    rw [hpayload, payloadHead]
    simp only [List.mem_append, hdecimal, hesc, or_false]
    decide
  have hcstring : cstring (payload ++ 0 :: after) = payload := cstring_append_zero hnozero after
  have hbody : payload ++ 0 :: after = payloadBefore sessionId udpPort ++ jsonPattern (ascii "sdp") ++
      ascii ":" ++ 0x22 :: (jsonEscape answer ++ 0x22 :: (ascii "\x7d" ++ 0 :: after)) := by
    have htail : payloadTail = 0x22 :: ascii "\x7d" := by decide
    rw [hsplit, htail]
    simp only [List.append_assoc, List.cons_append]
  -- Neither the numbers nor the names in front look like the name that is searched for.
  have hfirst : strstrIndex (cstring (payload ++ 0 :: after)) (jsonPattern (ascii "sdp")) =
      some (payloadBefore sessionId udpPort).length := by
    rw [hcstring, hsplit]
    exact strstrIndex_payloadBefore sessionId udpPort (List.prefix_append _ _)
  exact jsonGetString_escape ⟨List.mem_append_right _ List.mem_cons_self, _, _, _, hbody,
    forall_mem_of_all (by decide), hfirst⟩ hzero h

/-- **The signaling round trip.** For every answer that fits the buffer of the answer, the payload is
complete and reads back as this answer. `json_get_string` undoes `json_escape_append` wherever a field
holds an escaped string, and what it finds is never cut: it fits, and every larger buffer gets the same. -/
theorem signaling_roundTrip :
    (∀ answer : List UInt8, 0 ∉ answer → answer.length ≤ 8191 →
      ∀ (sessionId : UInt32) (udpPort : UInt16),
        payloadAnswer sessionId udpPort answer = jsonEscape answer ∧
          ∃ payload, offerPayload sessionId udpPort answer = .ok payload ∧
            payload = payloadHead sessionId udpPort ++ jsonEscape answer ++ payloadTail ∧
            payload.length < payloadSize ∧
            ∀ after : List UInt8,
              jsonGetString (payload ++ 0 :: after) (ascii "sdp") 8192 = .stored answer true) ∧
    (∀ (s body field : List UInt8) (escapeSize outSize : ℕ), 0 ∉ s →
      (jsonEscape s).length < escapeSize → HoldsField body field (jsonEscapeAppend s escapeSize) →
      s.length < outSize → jsonGetString body field outSize = .stored s true) ∧
    ∀ (body field out : List UInt8) (outSize : ℕ),
      jsonGetString body field outSize = .stored out true →
        out.length < outSize ∧
          ∀ outSize' ≥ outSize, jsonGetString body field outSize' = .stored out true := by
  refine ⟨fun answer hzero hlen sessionId udpPort ↦ ?_, ?_,
    fun body field out outSize ↦ jsonGetString_mono⟩
  · have hlt : answer.length < answerSize := Nat.lt_succ_of_le hlen
    have hhead := length_payloadHead_le sessionId udpPort
    have hesc := length_jsonEscape_le answer
    have htail : payloadTail.length = 2 := by decide
    refine ⟨payloadAnswer_eq hlt sessionId udpPort, _, offerPayload_eq_ok hlt sessionId udpPort, rfl, ?_,
      jsonGetString_payload hzero hlt sessionId udpPort⟩
    rw [payloadSize, List.length_append, List.length_append]
    omega
  · intro s body field escapeSize outSize hs hescape hfield hroom
    rw [jsonEscapeAppend_of_lt hescape] at hfield
    exact jsonGetString_escape hfield hs hroom

/-- An answer with every byte that is escaped. -/
theorem signaling_roundTrip_sample :
    ∃ payload, offerPayload 7 50000 (ascii "a=x:\"\\\t\r\n") = .ok payload ∧
      jsonGetString (payload ++ [0]) (ascii "sdp") 8192 = .stored (ascii "a=x:\"\\\t\r\n") true := by
  obtain ⟨-, payload, hpayload, -, -, hget⟩ :=
    signaling_roundTrip.1 (ascii "a=x:\"\\\t\r\n") (by decide) (by decide) 7 50000
  exact ⟨payload, hpayload, hget []⟩

end Camstream
