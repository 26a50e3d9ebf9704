import Camstream.Lib.CString

/-!
# Parsing the SDP offer

The first half of `src/webrtc/sdp.c`: the offer is walked line by line, a line is copied into a buffer of
512 bytes, and a visitor picks the attributes it knows. Which media section a line belongs to is part of
the walk.

The fields of `SdpOffer` are fixed buffers in the source; here they are byte lists, and `copyValue`
takes the size of the buffer it copies into.
-/

namespace Camstream

open CString

/-- `SdpOffer` -/
structure SdpOffer where
  iceUfrag : List UInt8
  icePwd : List UInt8
  fingerprint : List UInt8
  setup : List UInt8
  videoMid : List UInt8
  audioMid : List UInt8
  hasAudio : Bool
  h264PayloadType : ℤ
  h264PacketizationMode : ℤ
  deriving DecidableEq, Repr

/-- The media section a line belongs to, `""` in the source for neither. -/
inductive SdpMedia
  | none
  | audio
  | video
  deriving DecidableEq, Repr

/-- `copy_value`: the value behind the prefix, up to the end of the line and cut to the buffer. -/
def copyValue (line pre : List UInt8) (out : List UInt8) (outSize : ℕ) : List UInt8 :=
  if startsWith line pre then
    ((line.drop pre.length).takeWhile fun c ↦ c ≠ 13 ∧ c ≠ 10).take (outSize - 1)
  else out

/-- The media section after a line. -/
def sdpMediaAfter (media : SdpMedia) (line : List UInt8) : SdpMedia :=
  if startsWith line (ascii "m=") then
    if startsWith (line.drop 2) (ascii "audio") then .audio
    else if startsWith (line.drop 2) (ascii "video") then .video
    else .none
  else media

/-- The `line` buffer for the bytes between two line feeds: carriage returns at the end are dropped, the
rest is cut to the buffer and read as a string. -/
def sdpLine (raw : List UInt8) : List UInt8 :=
  cstring ((raw.rdropWhile fun c ↦ c = 13 ∨ c = 10).take 511)

/-- `sdp_for_each_line` -/
def sdpForEachLine {σ : Type} (visit : σ → List UInt8 → SdpMedia → σ) (sdp : List UInt8)
    (media : SdpMedia) (user : σ) : σ :=
  if sdp = [] then user
  else
    let line := sdpLine (sdp.takeWhile (· ≠ 10))
    let media := sdpMediaAfter media line
    sdpForEachLine visit ((sdp.dropWhile (· ≠ 10)).tail) media (visit user line media)
termination_by sdp.length
decreasing_by
  have hlen : (sdp.dropWhile (· ≠ 10)).length ≤ sdp.length := (List.dropWhile_suffix _).length_le
  have hpos : 0 < sdp.length := List.length_pos_iff.2 ‹_›
  rw [List.length_tail]
  omega

/-- `struct ParseContext` -/
structure ParseContext where
  offer : SdpOffer
  haveUfrag : Bool
  havePwd : Bool
  haveFingerprint : Bool
  deriving DecidableEq, Repr

/-- `parse_visit` -/
def parseVisit (ctx : ParseContext) (line : List UInt8) (media : SdpMedia) : ParseContext :=
  let offer := ctx.offer
  if startsWith line (ascii "a=ice-ufrag:") then
    { ctx with
      offer := { offer with iceUfrag := copyValue line (ascii "a=ice-ufrag:") offer.iceUfrag 80 }
      haveUfrag := true }
  else if startsWith line (ascii "a=ice-pwd:") then
    { ctx with
      offer := { offer with icePwd := copyValue line (ascii "a=ice-pwd:") offer.icePwd 128 }
      havePwd := true }
  else if startsWith line (ascii "a=fingerprint:") then
    { ctx with
      offer :=
        { offer with fingerprint := copyValue line (ascii "a=fingerprint:") offer.fingerprint 128 }
      haveFingerprint := true }
  else if startsWith line (ascii "a=setup:") then
    { ctx with offer := { offer with setup := copyValue line (ascii "a=setup:") offer.setup 24 } }
  else if media = .video ∧ startsWith line (ascii "a=mid:") then
    { ctx with
      offer := { offer with videoMid := copyValue line (ascii "a=mid:") offer.videoMid 24 } }
  else if media = .audio ∧ startsWith line (ascii "a=mid:") then
    { ctx with
      offer :=
        { offer with
          audioMid := copyValue line (ascii "a=mid:") offer.audioMid 24
          hasAudio := true } }
  else if media = .video ∧ startsWith line (ascii "a=rtpmap:") then
    if strstr line (ascii "H264/90000") ∧ offer.h264PayloadType < 0 then
      { ctx with offer := { offer with h264PayloadType := atoi (line.drop 9) } }
    else ctx
  else if media = .video ∧ startsWith line (ascii "a=fmtp:") then
    if atoi (line.drop 7) = offer.h264PayloadType ∧ strstr line (ascii "packetization-mode=0") then
      { ctx with offer := { offer with h264PacketizationMode := 0 } }
    else ctx
  else ctx

/-- The offer `sdp_parse_offer` starts from. -/
def emptyOffer : SdpOffer :=
  ⟨[], [], [], [], [], [], false, -1, 1⟩

/-- `sdp_parse_offer`: `none` for a return value of `-1`. -/
def sdpParseOffer (sdp : List UInt8) : Option SdpOffer :=
  let ctx := sdpForEachLine parseVisit sdp .none ⟨emptyOffer, false, false, false⟩
  if !ctx.haveUfrag || !ctx.havePwd || !ctx.haveFingerprint then none
  else if ctx.offer.h264PayloadType < 0 then none
  else if ctx.offer.setup = [] then some { ctx.offer with setup := ascii "actpass" }
  else some ctx.offer

/-! ### The fingerprint of an offer -/

/-- Two walks over the same text go side by side. -/
theorem sdpForEachLine_rel {σ τ : Type} {R : σ → τ → Prop} {visit : σ → List UInt8 → SdpMedia → σ}
    {visit' : τ → List UInt8 → SdpMedia → τ}
    (hvisit : ∀ u v line media, R u v → R (visit u line media) (visit' v line media))
    (sdp : List UInt8) (media : SdpMedia) {u : σ} {v : τ} (h : R u v) :
    R (sdpForEachLine visit sdp media u) (sdpForEachLine visit' sdp media v) := by
  induction sdp, media, u using sdpForEachLine.induct visit generalizing v with
  | case1 media u =>
    rw [sdpForEachLine, if_pos rfl, sdpForEachLine, if_pos rfl]
    exact h
  | case2 sdp media u hne line media' =>
    rename_i ih
    rw [sdpForEachLine, if_neg hne, sdpForEachLine.eq_def visit', if_neg hne]
    exact ih (hvisit u v line media' h)

/-- The last `a=fingerprint:` line of an offer. -/
def lastFingerprintLine (sdp : List UInt8) : Option (List UInt8) :=
  sdpForEachLine
    (fun last line _ ↦ if startsWith line (ascii "a=fingerprint:") then some line else last) sdp
    .none none

/-- The last `a=fingerprint:` line of an offer has a value. -/
def NamesFingerprint (sdp : List UInt8) : Prop :=
  ∃ c value, lastFingerprintLine sdp = some (ascii "a=fingerprint:" ++ c :: value) ∧ c ≠ 13 ∧ c ≠ 10

/-- A line that starts with one attribute does not start with another. -/
theorem startsWith_unique {line pre pre' : List UInt8} (h : startsWith line pre = true)
    (hne : ¬ pre <+: pre' ∧ ¬ pre' <+: pre) : startsWith line pre' = false := by
  rcases h' : startsWith line pre' with - | -
  · rfl
  · rcases List.prefix_or_prefix_of_prefix (List.isPrefixOf_iff_prefix.1 h)
      (List.isPrefixOf_iff_prefix.1 h') with hpre | hpre
    · exact absurd hpre hne.1
    · exact absurd hpre hne.2

/-- The fingerprint is as it was before a line. -/
def KeepsFingerprint (ctx ctx' : ParseContext) : Prop :=
  (ctx'.haveFingerprint, ctx'.offer.fingerprint) = (ctx.haveFingerprint, ctx.offer.fingerprint)

theorem KeepsFingerprint.ite {ctx t e : ParseContext} (p : Prop) [Decidable p]
    (ht : KeepsFingerprint ctx t) (he : KeepsFingerprint ctx e) :
    KeepsFingerprint ctx (if p then t else e) :=
  iteInduction (fun _ ↦ ht) fun _ ↦ he

/-- One line: the fingerprint is that of the line if it has one. -/
theorem fingerprint_parseVisit (ctx : ParseContext) (line : List UInt8) (media : SdpMedia) :
    ((parseVisit ctx line media).haveFingerprint, (parseVisit ctx line media).offer.fingerprint) =
      if startsWith line (ascii "a=fingerprint:") then
        (true, copyValue line (ascii "a=fingerprint:") ctx.offer.fingerprint 128)
      else (ctx.haveFingerprint, ctx.offer.fingerprint) := by
  unfold parseVisit
  dsimp only
  by_cases hline : startsWith line (ascii "a=fingerprint:") = true
  · have hufrag : startsWith line (ascii "a=ice-ufrag:") = false := startsWith_unique hline (by decide)
    have hpwd : startsWith line (ascii "a=ice-pwd:") = false := startsWith_unique hline (by decide)
    rw [if_neg (Bool.eq_false_iff.1 hufrag), if_neg (Bool.eq_false_iff.1 hpwd), if_pos hline,
      if_pos hline]
  · rw [if_neg hline, if_neg hline]
    -- No other attribute touches the fingerprint.
    have hsame : KeepsFingerprint ctx ctx := rfl
    show KeepsFingerprint ctx _
    exact .ite _ rfl (.ite _ rfl (.ite _ rfl (.ite _ rfl (.ite _ rfl (.ite _ (.ite _ rfl hsame)
      (.ite _ (.ite _ rfl hsame) hsame))))))

/-- What the parser knows about the fingerprint, given the last line that has one. -/
def FingerprintFrom (ctx : ParseContext) : Option (List UInt8) → Prop
  | none => ctx.haveFingerprint = false
  | some line =>
    startsWith line (ascii "a=fingerprint:") = true ∧
      ctx.offer.fingerprint = copyValue line (ascii "a=fingerprint:") [] 128

theorem copyValue_of_startsWith {line pre : List UInt8} (h : startsWith line pre = true)
    (out out' : List UInt8) (outSize : ℕ) :
    copyValue line pre out outSize = copyValue line pre out' outSize := by
  rw [copyValue, if_pos h, copyValue, if_pos h]

/-- **The fingerprint of an accepted offer** is the value of its last `a=fingerprint:` line. -/
theorem fingerprint_of_sdpParseOffer {sdp : List UInt8} {offer : SdpOffer}
    (h : sdpParseOffer sdp = some offer) :
    ∃ line, lastFingerprintLine sdp = some line ∧
      startsWith line (ascii "a=fingerprint:") = true ∧
      offer.fingerprint = copyValue line (ascii "a=fingerprint:") [] 128 := by
  set ctx := sdpForEachLine parseVisit sdp .none ⟨emptyOffer, false, false, false⟩ with hctx
  -- The parser and the search for the last line walk over the same lines.
  have hfrom : FingerprintFrom ctx (lastFingerprintLine sdp) := by
    refine sdpForEachLine_rel (fun u v line media hR ↦ ?_) sdp .none rfl
    have hvisit := fingerprint_parseVisit u line media
    split_ifs at hvisit ⊢ with hline
    · obtain ⟨-, hfp⟩ := Prod.mk.inj hvisit
      exact ⟨hline, hfp.trans (copyValue_of_startsWith hline _ _ _)⟩
    · obtain ⟨hhave, hfp⟩ := Prod.mk.inj hvisit
      cases v with
      | none => exact hhave.trans hR
      | some last => exact ⟨hR.1, hfp.trans hR.2⟩
  have haccepted : ctx.haveFingerprint = true ∧ offer.fingerprint = ctx.offer.fingerprint := by
    rw [sdpParseOffer, ← hctx] at h
    dsimp only at h
    split_ifs at h with hhave hpt hsetup
    all_goals
      obtain rfl := Option.some.inj h
      simp only [Bool.or_eq_true, Bool.not_eq_true', not_or, Bool.not_eq_false] at hhave
      exact ⟨hhave.2, rfl⟩
  rcases hlast : lastFingerprintLine sdp with - | line <;> rw [hlast] at hfrom
  · exact absurd (haccepted.1.symm.trans hfrom) (by decide)
  · exact ⟨line, rfl, hfrom.1, haccepted.2.trans hfrom.2⟩

/-- It is empty unless there is something behind the colon. -/
theorem fingerprint_ne_nil_iff {sdp : List UInt8} {offer : SdpOffer}
    (h : sdpParseOffer sdp = some offer) : offer.fingerprint ≠ [] ↔ NamesFingerprint sdp := by
  obtain ⟨line, hlast, hline, hfp⟩ := fingerprint_of_sdpParseOffer h
  obtain ⟨rest, rfl⟩ := List.isPrefixOf_iff_prefix.1 hline
  rw [hfp, copyValue, if_pos hline, List.drop_left, NamesFingerprint, hlast]
  cases rest with
  | nil => simp
  | cons c value =>
    rw [List.takeWhile_cons]
    split_ifs with hc
    · exact iff_of_true (by simp) ⟨c, value, rfl, of_decide_eq_true hc⟩
    · refine iff_of_false (by simp) ?_
      rintro ⟨c', value', heq, hne⟩
      obtain ⟨rfl, -⟩ := List.cons.inj (List.append_cancel_left (Option.some.inj heq))
      exact hc (decide_eq_true hne)

/-- The field holds at most 127 bytes. -/
theorem length_fingerprint_le {sdp : List UInt8} {offer : SdpOffer}
    (h : sdpParseOffer sdp = some offer) : offer.fingerprint.length ≤ 127 := by
  obtain ⟨line, -, hline, hfp⟩ := fingerprint_of_sdpParseOffer h
  rw [hfp, copyValue, if_pos hline]
  exact List.length_take_le _ _

/-- An offer with an empty fingerprint is accepted. -/
example :
    (sdpParseOffer (ascii "a=ice-ufrag:u\na=ice-pwd:p\na=fingerprint:\nm=video\na=rtpmap:96 H264/90000")).map
      SdpOffer.fingerprint = some [] := by decide +kernel

end Camstream
