import Camstream.Session.Lifecycle
import Camstream.Stun.Bounds

/-!
# What a datagram is read for

`rtc_session_on_udp` with everything it calls before a datagram is handed to OpenSSL or libsrtp, in a memory
that ends where the datagram ends: `none` is a read behind it. The event loop receives into one buffer, so
behind a datagram stand the bytes of an earlier one.

Every function that parses STUN looks at the length first (`stunVerifyMiChecked_take` and its like). Two
places after the classification do not: the type of a message that is no binding request, and the second
byte that tells RTP from RTCP. `ReadsSecondByte` is when one of them reads behind the datagram.
-/

namespace Camstream

open Bytes

/-! ### Checked reads -/

/-- `rtc_classify_packet`, where every read is checked. -/
def rtcClassifyPacketChecked (mem : List UInt8) (len : ℕ) : Option RtcPacketClass :=
  if len < 1 then some .other
  else
    match mem[0]? with
    | none => none
    | some first =>
      if first ≤ 3 then some .stun
      else if 20 ≤ first ∧ first ≤ 63 then some .dtls
      else if 128 ≤ first then some .rtp
      else some .other

/-- `stun_copy_username`: the text for the log, which has room for `outSize` bytes with the terminator. -/
def stunCopyUsernameChecked (mem : List UInt8) (len outSize : ℕ) : Option (Option (List UInt8)) :=
  match stunFindAttributeChecked mem len 0x0006 with
  | none => none
  | some none => some none
  | some (some value) =>
    (slice? mem value.1 (if outSize ≤ value.2 then outSize - 1 else value.2)).map some

/-- `stun_is_binding_request` -/
def stunIsBindingRequestChecked (mem : List UInt8) (len : ℕ) : Option (Option (List UInt8)) :=
  if len < stunHeaderSize then some none
  else
    match readBe16? mem 0, readBe16? mem 2, readBe32? mem 4 with
    | some type, some messageLen, some cookie =>
      if type ≠ 0x0001 then some none
      else if cookie ≠ stunMagicCookie then some none
      else if len < messageLen + stunHeaderSize then some none
      else (slice? mem 8 12).map some
    | _, _, _ => none

/-- `stun_verify_mi` -/
def stunVerifyMiChecked (hmac : HmacSha1) (mem : List UInt8) (len : ℕ) (password : List UInt8) :
    Option Bool :=
  if password = [] ∨ len < stunHeaderSize + 24 then some false
  else
    match stunFindAttributeChecked mem len 0x0008 with
    | none => none
    | some none => some false
    | some (some value) =>
      if value.2 ≠ 20 then some false
      else
        let miHeader := value.1 - 4
        if miHeader < stunHeaderSize ∨ len < miHeader + 24 then some false
        else
          match slice? mem 0 miHeader, slice? mem value.1 20 with
          | some covered, some mac => some (decide ((hmac password (stunScratch covered miHeader)).1 = mac))
          | _, _ => none

/-- `stun_build_binding_response`: of the request it reads the cookie and the transaction id, and the
response is built from these sixteen bytes. -/
def stunBuildBindingResponseChecked (hmac : HmacSha1) (localPwd mem : List UInt8) (requestLen : ℕ)
    (peer : SockAddr) (out : List UInt8) (outCapacity : ℕ) : Option (Option (List UInt8 × ℕ)) :=
  if requestLen < stunHeaderSize ∨ outCapacity < 128 then some none
  else
    match slice? mem 4 16 with
    | none => none
    | some echoed =>
      some (stunBuildBindingResponse hmac localPwd (List.replicate 4 0 ++ echoed) requestLen peer out
        outCapacity)

/-- `stunAccept` -/
def stunAcceptChecked (lib : Libraries) (ans : Answers) (session : RtcSession) (mem : List UInt8)
    (length : ℕ) (source : SockAddr) : Option RtcSession :=
  let session :=
    { session with stats := { session.stats with stunOk := session.stats.stunOk + 1 } }
  let session := followPeer session source
  let session := if session.state = .new then setState session .ice else session
  match stunBuildBindingResponseChecked lib.hmac session.localPwd mem length source ans.stack 128 with
  | none => none
  | some (some (response, responseLen)) =>
    some (session.emit (.sendStun (response.take responseLen) source))
  | some none => some session

/-- The `RTC_PKT_STUN` case of `rtc_session_on_udp`. -/
def onUdpStunChecked (lib : Libraries) (ans : Answers) (session : RtcSession) (mem : List UInt8)
    (length : ℕ) (source : SockAddr) : Option RtcSession :=
  let session :=
    { session with stats := { session.stats with stunRx := session.stats.stunRx + 1 } }
  match stunCopyUsernameChecked mem length 160, stunIsBindingRequestChecked mem length with
  | some _, some none =>
    match readBe16? mem 0 with
    | none => none
    | some stype =>
      if stype = 0x0011 ∧ stunHeaderSize ≤ length then
        some { session with stats := { session.stats with stunOk := session.stats.stunOk + 1 } }
      else some session
  | some _, some (some tid) =>
    match stunVerifyMiChecked lib.hmac mem length session.localPwd with
    | none => none
    | some false => some (stunReject ans session tid source)
    | some true =>
      match stunUsernameMatchesChecked mem length session.localUfrag with
      | none => none
      | some false => some (stunReject ans session tid source)
      | some true => stunAcceptChecked lib ans session mem length source
  | _, _ => none

/-- The `RTC_PKT_DTLS` case: the datagram is copied for OpenSSL. -/
def onUdpDtlsChecked (lib : Libraries) (ans : Answers) (session : RtcSession) (mem : List UInt8)
    (length : ℕ) : Option RtcSession :=
  if session.haveRemote then
    (slice? mem 0 length).map fun packet ↦ dtlsSrtpOnUdp lib (rtcCallbacks ans) ans session packet
  else some session

/-- The `RTC_PKT_RTP` case: the datagram is handed to libsrtp. -/
def onUdpRtpChecked (lib : Libraries) (ans : Answers) (session : RtcSession) (mem : List UInt8)
    (length : ℕ) : Option RtcSession :=
  match mem[1]? with
  | none => none
  | some second =>
    let pt := second &&& 0x7F
    if 64 ≤ pt ∧ pt ≤ 95 ∧ session.state = .streaming then
      (slice? mem 0 length).map fun packet ↦
        match dtlsSrtpUnprotectRtcp lib session packet with
        | (session, none) => session
        | (session, some packet) => dtlsOnRtcp ans session packet
    else some session

/-- `rtc_session_on_udp` -/
def rtcSessionOnUdpChecked (lib : Libraries) (ans : Answers) (session : RtcSession) (mem : List UInt8)
    (length : ℕ) (source : SockAddr) : Option RtcSession :=
  if session.state = .closed then some session
  else
    let session := { session with lastRxMs := ans.rxMs }
    match rtcClassifyPacketChecked mem length with
    | none => none
    | some .stun => onUdpStunChecked lib ans session mem length source
    | some .dtls => onUdpDtlsChecked lib ans session mem length
    | some .rtp => onUdpRtpChecked lib ans session mem length
    | some .other => some session

/-! ### Inside the datagram -/

variable {buf : List UInt8} {len : ℕ}

theorem getElem?_take_zero (h : len ≤ buf.length) {i : ℕ} (hi : i < len) :
    (buf.take len)[i]? = some (buf.getD i 0) := by
  have hget := matches_take h i hi
  rwa [Nat.zero_add] at hget

/-- **The classification reads the first byte**, if there is one. -/
theorem rtcClassifyPacketChecked_take (h : len ≤ buf.length) :
    rtcClassifyPacketChecked (buf.take len) len = some (rtcClassifyPacket buf len) := by
  rw [rtcClassifyPacketChecked, rtcClassifyPacket]
  rcases Nat.lt_or_ge len 1 with hempty | hfirst
  · rw [if_pos hempty, if_pos hempty]
  · rw [if_neg (by omega), if_neg (by omega), getElem?_take_zero h hfirst]
    dsimp only
    split_ifs <;> rfl

/-- The text for the log is copied out of the datagram. -/
theorem exists_stunCopyUsernameChecked_take (h : len ≤ buf.length) (outSize : ℕ) :
    ∃ text, stunCopyUsernameChecked (buf.take len) len outSize = some text := by
  rw [stunCopyUsernameChecked, stunFindAttributeChecked_take h]
  cases hfound : stunFindAttribute buf len 0x0006 with
  | none => exact ⟨none, rfl⟩
  | some value =>
    obtain ⟨-, hend, hlen⟩ := stunFindAttribute_bounds hfound
    dsimp only
    rw [slice?_take (by split_ifs <;> omega) h]
    exact ⟨_, rfl⟩

/-- The test of the header stays inside the datagram. -/
theorem stunIsBindingRequestChecked_take (h : len ≤ buf.length) :
    stunIsBindingRequestChecked (buf.take len) len = some (stunIsBindingRequest buf len) := by
  rw [stunIsBindingRequestChecked, stunIsBindingRequest]
  rcases Nat.lt_or_ge len stunHeaderSize with hshort | hheader
  · rw [if_pos hshort, if_pos hshort]
  · have hsize : stunHeaderSize = 20 := rfl
    have hcookie : readBe32? (buf.take len) 4 = some (readBe32 buf 4) := by
      have hread := (matches_take h).readBe32? (k := 4) (by omega)
      rwa [Nat.zero_add] at hread
    rw [if_neg (by omega), if_neg (by omega), readBe16?_take h (by omega), readBe16?_take h (by omega),
      hcookie, slice?_take (by omega) h]
    dsimp only
    split_ifs <;> rfl

/-- So does the check of MESSAGE-INTEGRITY. -/
theorem stunVerifyMiChecked_take (h : len ≤ buf.length) (hmac : HmacSha1) (password : List UInt8) :
    stunVerifyMiChecked hmac (buf.take len) len password = some (stunVerifyMi hmac buf len password) := by
  rw [stunVerifyMiChecked, stunVerifyMi, stunFindAttributeChecked_take h]
  split_ifs
  · rfl
  · cases hfound : stunFindAttribute buf len 0x0008 with
    | none => rfl
    | some value =>
      obtain ⟨hstart, hend, hlen⟩ := stunFindAttribute_bounds hfound
      have hsize : stunHeaderSize = 20 := rfl
      have hcovered : stunScratch ((buf.drop 0).take (value.1 - 4)) (value.1 - 4) =
          stunScratch buf (value.1 - 4) := by
        rw [stunScratch, stunScratch, List.drop_zero, List.take_take, Nat.min_self]
      dsimp only
      split_ifs with hmiLen hroom
      · rfl
      · rfl
      · rw [slice?_take (by omega) h, slice?_take (by omega) h]
        dsimp only
        rw [hcovered]

/-- The response depends on the cookie and the transaction id of the request. -/
theorem stunBuildBindingResponse_congr {request request' : List UInt8}
    (h : (request.drop 4).take 16 = (request'.drop 4).take 16) (hmac : HmacSha1) (localPwd : List UInt8)
    (requestLen : ℕ) (peer : SockAddr) (out : List UInt8) (outCapacity : ℕ) :
    stunBuildBindingResponse hmac localPwd request requestLen peer out outCapacity =
      stunBuildBindingResponse hmac localPwd request' requestLen peer out outCapacity := by
  have hmask : stunXorMask request = stunXorMask request' := by
    have htid := congrArg (List.drop 4) h
    rw [List.drop_take, List.drop_take, List.drop_drop, List.drop_drop] at htid
    exact congrArg ([0x21, 0x12, 0xA4, 0x42] ++ ·) htid
  have hwrite : ∀ out, stunWriteXorMappedAddress request peer out =
      stunWriteXorMappedAddress request' peer out := fun out ↦ by
    cases peer <;> simp only [stunWriteXorMappedAddress, hmask]
  rw [stunBuildBindingResponse, stunBuildBindingResponse, h]
  simp only [hwrite]

/-- The response is built from bytes of the datagram. -/
theorem stunBuildBindingResponseChecked_take (h : len ≤ buf.length) (hmac : HmacSha1)
    (localPwd : List UInt8) (peer : SockAddr) (out : List UInt8) (outCapacity : ℕ) :
    stunBuildBindingResponseChecked hmac localPwd (buf.take len) len peer out outCapacity =
      some (stunBuildBindingResponse hmac localPwd buf len peer out outCapacity) := by
  rw [stunBuildBindingResponseChecked]
  split_ifs with hreject
  · rw [stunBuildBindingResponse, if_pos hreject]
  · have hsize : stunHeaderSize = 20 := rfl
    rw [slice?_take (by omega) h]
    refine congrArg some (stunBuildBindingResponse_congr ?_ hmac localPwd len peer out outCapacity)
    rw [List.drop_left' (List.length_replicate ..), List.take_take, Nat.min_self]

/-! ### The dispatch -/

/-- The first byte alone sends a datagram to a place that reads the second one. -/
def ReadsSecondByte (session : RtcSession) (packet : List UInt8) : Prop :=
  packet.length = 1 ∧ session.state ≠ .closed ∧ (packet.getD 0 0 ≤ 3 ∨ 128 ≤ packet.getD 0 0)

variable (lib : Libraries) (ans : Answers) (session : RtcSession) (source : SockAddr)

/-- A check that is accepted reads nothing else. -/
theorem stunAcceptChecked_take (h : len ≤ buf.length) :
    stunAcceptChecked lib ans session (buf.take len) len source =
      some (stunAccept lib ans session buf len source) := by
  rw [stunAcceptChecked, stunAccept]
  dsimp only
  rw [stunBuildBindingResponseChecked_take h]
  split <;> rename_i heq
  · exact absurd heq (Option.some_ne_none _)
  · rw [Option.some.inj heq]
  · rw [Option.some.inj heq]

/-- **The STUN case** reads the datagram only, from two bytes on. -/
theorem onUdpStunChecked_take (h : len ≤ buf.length) (hlen : 2 ≤ len) :
    onUdpStunChecked lib ans session (buf.take len) len source =
      some (onUdpStun lib ans session buf len source) := by
  obtain ⟨text, htext⟩ := exists_stunCopyUsernameChecked_take h 160
  rw [onUdpStunChecked, onUdpStun, htext, stunIsBindingRequestChecked_take h,
    stunVerifyMiChecked_take h, stunUsernameMatchesChecked_take h, readBe16?_take h hlen]
  dsimp only
  cases stunIsBindingRequest buf len with
  | none =>
    dsimp only
    split_ifs <;> rfl
  | some tid =>
    dsimp only
    cases stunVerifyMi lib.hmac buf len session.localPwd with
    | false => rfl
    | true =>
      cases stunUsernameMatches buf len session.localUfrag with
      | false => rfl
      | true => exact stunAcceptChecked_take lib ans _ source h

/-- What the DTLS engine gets is the datagram. -/
theorem onUdpDtlsChecked_take (h : len ≤ buf.length) :
    onUdpDtlsChecked lib ans session (buf.take len) len =
      some (onUdpDtls lib ans session (buf.take len)) := by
  rw [onUdpDtlsChecked, onUdpDtls, slice?_take (by omega) h, List.drop_zero]
  split_ifs <;> rfl

/-- **The RTP case** reads the datagram only, from two bytes on. -/
theorem onUdpRtpChecked_take (h : len ≤ buf.length) (hlen : 2 ≤ len) :
    onUdpRtpChecked lib ans session (buf.take len) len = some (onUdpRtp lib ans session buf len) := by
  rw [onUdpRtpChecked, onUdpRtp, getElem?_take_zero h (by omega), slice?_take (by omega) h,
    List.drop_zero]
  dsimp only
  split_ifs
  · rfl
  · rfl

/-- **A datagram that is not a single byte** is all that is read. -/
theorem rtcSessionOnUdpChecked_take (h : len ≤ buf.length) (hlen : len ≠ 1) :
    rtcSessionOnUdpChecked lib ans session (buf.take len) len source =
      some (rtcSessionOnUdp lib ans session buf len source) := by
  rw [rtcSessionOnUdpChecked, rtcSessionOnUdp, rtcClassifyPacketChecked_take h]
  split_ifs
  · rfl
  dsimp only
  have hroom : rtcClassifyPacket buf len ≠ .other → 2 ≤ len := fun hclass ↦ by
    by_contra hshort
    exact hclass (by rw [rtcClassifyPacket, if_pos (by omega)])
  cases hclass : rtcClassifyPacket buf len with
  | stun => exact onUdpStunChecked_take lib ans _ source h (hroom (by rw [hclass]; decide))
  | dtls => exact onUdpDtlsChecked_take lib ans _ h
  | rtp => exact onUdpRtpChecked_take lib ans _ h (hroom (by rw [hclass]; decide))
  | other => rfl

/-- A single byte that sends the datagram on is read past. -/
theorem rtcSessionOnUdpChecked_eq_none {packet : List UInt8} (h : ReadsSecondByte session packet) :
    rtcSessionOnUdpChecked lib ans session packet packet.length source = none := by
  obtain ⟨hlength, hopen, hclass⟩ := h
  obtain ⟨b, rfl⟩ := List.length_eq_one_iff.1 hlength
  rw [List.getD_cons_zero] at hclass
  rw [rtcSessionOnUdpChecked, if_neg hopen]
  rcases hclass with hstun | hrtp
  · have hkind : rtcClassifyPacketChecked [b] [b].length = some .stun := if_pos hstun
    have hname : stunCopyUsernameChecked [b] [b].length 160 = some none := rfl
    have hrequest : stunIsBindingRequestChecked [b] [b].length = some none := rfl
    rw [hkind]
    dsimp only
    rw [onUdpStunChecked, hname, hrequest]
    rfl
  · have hstun : ¬ b ≤ 3 := fun hle ↦ absurd (UInt8.le_trans hrtp hle) (by decide)
    have hdtls : ¬ (20 ≤ b ∧ b ≤ 63) := fun hle ↦ absurd (UInt8.le_trans hrtp hle.2) (by decide)
    have hkind : rtcClassifyPacketChecked [b] [b].length = some .rtp :=
      (if_neg hstun).trans ((if_neg hdtls).trans (if_pos hrtp))
    rw [hkind]
    rfl

/-- **When datagram handling stays inside the datagram**: it has its result over the datagram alone,
whatever stands behind it in the buffer, exactly when the datagram is not a single byte that the first
look sends on to a second one. -/
theorem rtcSessionOnUdp_reads_iff (packet stale : List UInt8) :
    rtcSessionOnUdpChecked lib ans session packet packet.length source =
        some (rtcSessionOnUdp lib ans session (packet ++ stale) packet.length source) ↔
      ¬ ReadsSecondByte session packet := by
  constructor
  · intro heq hreads
    rw [rtcSessionOnUdpChecked_eq_none lib ans session source hreads] at heq
    exact Option.some_ne_none _ heq.symm
  intro hinside
  have hle : packet.length ≤ (packet ++ stale).length := by
    rw [List.length_append]
    exact Nat.le_add_right _ _
  -- The function sees the datagram in a buffer that goes on behind it.
  have htake : (packet ++ stale).take packet.length = packet := List.take_left
  rcases Nat.decEq packet.length 1 with hmany | hone
  · have h := rtcSessionOnUdpChecked_take lib ans session source hle hmany
    rwa [htake] at h
  · obtain ⟨b, rfl⟩ := List.length_eq_one_iff.1 hone
    rw [rtcSessionOnUdpChecked, rtcSessionOnUdp]
    split_ifs with hclosed
    · rfl
    -- Of a single byte the second is not looked at if the first one decides.
    have hclass : ¬ (b ≤ 3 ∨ 128 ≤ b) := fun hclass ↦ hinside ⟨rfl, hclosed, hclass⟩
    obtain ⟨hstun, hrtp⟩ := not_or.1 hclass
    have hchecked := rtcClassifyPacketChecked_take hle
    have hkind : rtcClassifyPacket ([b] ++ stale) [b].length =
        if 20 ≤ b ∧ b ≤ 63 then .dtls else .other := by
      refine (if_neg hstun).trans ?_
      congr 1
      exact if_neg hrtp
    rw [htake] at hchecked
    rw [hchecked, hkind]
    dsimp only
    split_ifs
    · have h := onUdpDtlsChecked_take lib ans { session with lastRxMs := ans.rxMs } hle
      rwa [htake] at h
    · rfl

/-- A single zero byte to a session that has just been created: the type field of what is taken for a STUN
message is read all the same. -/
theorem rtcSessionOnUdp_reads_past : ∃ s,
    rtcSessionCreate sampleCreate (sampleConfig sampleFingerprint) = some s ∧
    rtcClassifyPacketChecked [0] 1 = some .stun ∧
    ¬ ∃ result, rtcSessionOnUdpChecked sampleLibraries (sampleAnswers 100) s [0] 1
      (.inet 0x0A000001 4000) = some result := by
  rcases hcreate : rtcSessionCreate sampleCreate (sampleConfig sampleFingerprint) with - | s
  · exact absurd hcreate (Option.some_ne_none _)
  · have hopen : s.state ≠ .closed := by
      rw [← Option.some.inj hcreate]
      exact fun h ↦ RtcSessionState.noConfusion h
    refine ⟨s, rfl, rfl, fun ⟨result, hresult⟩ ↦ ?_⟩
    have hreads : ReadsSecondByte s [0] := ⟨rfl, hopen, Or.inl (by decide)⟩
    have hnone := rtcSessionOnUdpChecked_eq_none sampleLibraries (sampleAnswers 100) s
      (.inet 0x0A000001 4000) hreads
    rw [show [(0 : UInt8)].length = 1 from rfl, hresult] at hnone
    exact Option.some_ne_none _ hnone

end Camstream
