import Camstream.Sdp.Parse

/-!
# The credentials of an offer

A user name fragment, a password and a fingerprint stand at the session level and in the media sections of
an offer. `parse_visit` copies them without looking at the section, so that of all the lines with one of
these attributes the last one counts (`credential_eq`).

The values of the video section are those that are kept exactly if the sections behind it leave them
alone: `credentials_iff`.
-/

namespace Camstream

open CString Lines

/-- The attributes that identify a transport. -/
inductive Credential
  | iceUfrag
  | icePwd
  | fingerprint
  deriving DecidableEq, Repr

/-- The name of the attribute, up to the colon. -/
def Credential.name : Credential → List UInt8
  | .iceUfrag => ascii "a=ice-ufrag:"
  | .icePwd => ascii "a=ice-pwd:"
  | .fingerprint => ascii "a=fingerprint:"

/-- The size of the field it is copied to. -/
def Credential.size : Credential → ℕ
  | .iceUfrag => 80
  | .icePwd => 128
  | .fingerprint => 128

/-- The field. -/
def SdpOffer.credential (offer : SdpOffer) : Credential → List UInt8
  | .iceUfrag => offer.iceUfrag
  | .icePwd => offer.icePwd
  | .fingerprint => offer.fingerprint

@[simp] theorem SdpOffer.withSetup_credential (offer : SdpOffer) (k : Credential) :
    offer.withSetup.credential k = offer.credential k := by
  rw [withSetup]
  split_ifs
  · cases k <;> rfl
  · rfl

/-- What a field gets from a line with its attribute. -/
def fieldValue (k : Credential) (line : List UInt8) : List UInt8 :=
  copyValue (lineBuffer line) k.name [] k.size

/-- The last of some lines that has the attribute. -/
def lastLine (k : Credential) (ls : List (List UInt8)) : Option (List UInt8) :=
  (ls.filter fun line ↦ startsWith line k.name).getLast?

/-- The lines behind a section leave its value alone: the last of them that has the attribute gives the
same value, or none of them has it and the value fits the field. -/
def LeavesValue (k : Credential) (value : List UInt8) (behind : List (List UInt8)) : Prop :=
  match lastLine k behind with
  | none => FitsField k.size value
  | some line => fieldValue k line = value

/-! ### One line -/

theorem copyValue_of_not_startsWith {line pre : List UInt8} (h : ¬ startsWith line pre = true)
    (out : List UInt8) (outSize : ℕ) : copyValue line pre out outSize = out :=
  if_neg h

/-- A line changes a credential if it has its attribute, wherever it stands. -/
theorem credential_parseVisit (k : Credential) (ctx : ParseContext) (line : List UInt8)
    (media : SdpMedia) :
    (parseVisit ctx line media).offer.credential k =
      if startsWith line k.name then copyValue line k.name [] k.size else ctx.offer.credential k := by
  split_ifs with hline
  · rw [copyValue_of_startsWith hline [] (ctx.offer.credential k)]
    obtain ⟨v, rfl⟩ := List.isPrefixOf_iff_prefix.1 hline
    cases k with
    | iceUfrag => exact congrArg (fun c ↦ c.offer.iceUfrag) (parseVisit_iceUfrag ctx media v)
    | icePwd => exact congrArg (fun c ↦ c.offer.icePwd) (parseVisit_icePwd ctx media v)
    | fingerprint => exact congrArg (fun c ↦ c.offer.fingerprint) (parseVisit_fingerprint ctx media v)
  · -- The branch of the attribute itself copies nothing, and the others write other fields.
    have hsame := copyValue_of_not_startsWith hline (ctx.offer.credential k) k.size
    refine parseVisit_cases (fun c ↦ c.offer.credential k = ctx.offer.credential k) ?_ ?_ ?_ ?_
      (fun _ ↦ ?_) (fun _ ↦ ?_) (fun _ ↦ ?_) ?_ rfl
    all_goals
      cases k with
      | iceUfrag => first | exact hsame | rfl
      | icePwd => first | exact hsame | rfl
      | fingerprint => first | exact hsame | rfl

theorem Credential.startsWith_lineBuffer (k : Credential) (line : List UInt8) :
    startsWith (lineBuffer line) k.name = startsWith line k.name := by
  cases k <;> exact Camstream.startsWith_lineBuffer line (by decide) (by decide)

/-- **The credential of an offer** is that of the last line with its attribute. -/
theorem credential_eq {sdp : List UInt8} {offer : SdpOffer} (h : sdpParseOffer sdp = some offer)
    (k : Credential) :
    offer.credential k = ((lastLine k (lines sdp)).map (fieldValue k)).getD [] := by
  obtain ⟨-, rfl⟩ := sdpParseOffer_eq_some.1 h
  have hwalk : ∀ (media : SdpMedia) (ls : List (List UInt8)) (ctx : ParseContext),
      ((labelled isMediaLine (sdpMediaAfter .none) media ls).foldl
        (fun u x ↦ parseVisit u (lineBuffer x.1) x.2) ctx).offer.credential k =
        ((lastLine k ls).map (fieldValue k)).getD (ctx.offer.credential k) := by
    intro media ls
    induction ls generalizing media with
    | nil => exact fun ctx ↦ rfl
    | cons line ls ih =>
      intro ctx
      rw [labelled, List.foldl_cons, ih, credential_parseVisit, k.startsWith_lineBuffer, lastLine,
        lastLine, List.filter_cons]
      dsimp only
      rcases startsWith line k.name with - | -
      · rfl
      · rw [if_pos rfl, if_pos rfl, List.getLast?_cons, Option.map_some, Option.getD_some]
        cases (ls.filter fun line ↦ startsWith line k.name).getLast? <;> rfl
  have hempty : emptyOffer.credential k = [] := by cases k <;> rfl
  rw [SdpOffer.withSetup_credential, parsedContext, sdpForEachLine_eq_foldl, mediaLines, hwalk, hempty]

/-! ### Which section wins -/

theorem lastLine_append (k : Credential) (ls ls' : List (List UInt8)) :
    lastLine k (ls ++ ls') = (lastLine k ls').or (lastLine k ls) := by
  rw [lastLine, List.filter_append, List.getLast?_append]
  rfl

/-- A value arrives in its field as it is, if it fits. -/
theorem fieldValue_eq_iff (k : Credential) (v : List UInt8) :
    fieldValue k (k.name ++ v) = v ↔ FitsField k.size v := by
  have hsize : 0 < k.size ∧ k.name.length + k.size ≤ 512 ∧ 0 ∉ k.name := by
    cases k <;> decide
  constructor
  · intro h
    have hfits := fitsField_copyValue (notMem_lineBuffer (k.name ++ v)) k.name hsize.1
      (FitsField.nil hsize.1)
    rwa [← fieldValue, h] at hfits
  · intro h
    have hlen := h.length_lt
    have hzero : 0 ∉ k.name ++ v := by
      rw [List.mem_append, not_or]
      exact ⟨hsize.2.2, h.isValue.1⟩
    rw [fieldValue, lineBuffer_of_length_le (by rw [List.length_append]; omega) hzero]
    exact copyValue_append h _ _

/-- **One credential**, for a section that has it: what stands in front of the section does not count, and
what stands behind it does. -/
theorem credential_eq_iff {sdp : List UInt8} {offer : SdpOffer} (h : sdpParseOffer sdp = some offer)
    {before after : List (List (List UInt8))} {video : List (List UInt8)}
    (hsections : mediaSections sdp = before ++ video :: after) {k : Credential} {value : List UInt8}
    (hvalue : lastLine k video = some (k.name ++ value)) :
    offer.credential k = value ↔ LeavesValue k value after.flatten := by
  have hlines := takeWhile_append_flatten_sections isMediaLine (lines sdp)
  rw [← mediaSections, hsections, List.flatten_append, List.flatten_cons, ← List.append_assoc,
    ← List.append_assoc] at hlines
  rw [credential_eq h, ← hlines, lastLine_append, lastLine_append, hvalue, LeavesValue, Option.some_or]
  rcases lastLine k after.flatten with - | line
  · exact fieldValue_eq_iff k value
  · exact Iff.rfl

/-- **The credentials of a section are kept exactly if the sections behind it leave them alone.** For every
accepted offer, whatever stands at the session level and in the other sections: the three credentials of
the video section, or of any other one that has them, are those of the parsed offer if and only if for each
of them the last line behind the section with this attribute gives the same value, or there is none and
the value fits its field. -/
theorem credentials_iff {sdp : List UInt8} {offer : SdpOffer} (h : sdpParseOffer sdp = some offer)
    {before after : List (List (List UInt8))} {video : List (List UInt8)}
    (hsections : mediaSections sdp = before ++ video :: after) {value : Credential → List UInt8}
    (hvalue : ∀ k, lastLine k video = some (k.name ++ value k)) :
    (∀ k, offer.credential k = value k) ↔ ∀ k, LeavesValue k (value k) after.flatten :=
  forall_congr' fun k ↦ credential_eq_iff h hsections (hvalue k)

/-- The credentials of the video section below. -/
def videoCredential : Credential → List UInt8
  | .iceUfrag => ascii "uV"
  | .icePwd => ascii "pV"
  | .fingerprint => ascii "sha-256 01"

/-- An offer whose credentials at the session level differ from those of its video section, with more lines
behind. -/
def videoOfferText (behind : List (List UInt8)) : List UInt8 :=
  crlf ([ascii "v=0", ascii "a=ice-ufrag:u", ascii "a=ice-pwd:p", ascii "a=fingerprint:sha-256 00",
    ascii "m=video 9 X 96", ascii "a=ice-ufrag:uV", ascii "a=ice-pwd:pV", ascii "a=fingerprint:sha-256 01",
    ascii "a=rtpmap:96 H264/90000"] ++ behind)

/-- An audio section with credentials of its own. -/
def audioCredentialLines : List (List UInt8) :=
  [ascii "m=audio 9 Y 0", ascii "a=ice-ufrag:uA", ascii "a=ice-pwd:pA", ascii "a=fingerprint:sha-256 02"]

/-- What is parsed when nothing stands behind the video section. -/
theorem credentials_iff_sample : ∃ offer, sdpParseOffer (videoOfferText []) = some offer ∧
    ((∀ k, offer.credential k = videoCredential k) ↔
      ∀ k, LeavesValue k (videoCredential k) ([] : List (List (List UInt8))).flatten) := by
  have hparse : sdpParseOffer (videoOfferText []) =
      some ⟨ascii "uV", ascii "pV", ascii "sha-256 01", ascii "actpass", [], [], false, 96, 1⟩ := by
    decide +kernel
  have hsections : mediaSections (videoOfferText []) = [] ++
      [ascii "m=video 9 X 96", ascii "a=ice-ufrag:uV", ascii "a=ice-pwd:pV",
        ascii "a=fingerprint:sha-256 01", ascii "a=rtpmap:96 H264/90000"] :: [] := by
    decide +kernel
  refine ⟨_, hparse, credentials_iff hparse hsections fun k ↦ ?_⟩
  cases k <;> decide

/-- With the audio section behind the video section, the user name fragment is that of the audio. -/
theorem not_credentials_video :
    ¬ ∀ (sdp : List UInt8) (offer : SdpOffer) (before after : List (List (List UInt8)))
      (video : List (List UInt8)) (value : Credential → List UInt8), sdpParseOffer sdp = some offer →
      mediaSections sdp = before ++ video :: after →
      video.head?.map (sdpMediaAfter .none) = some .video →
      (∀ k, lastLine k video = some (k.name ++ value k)) → ∀ k, offer.credential k = value k := by
  intro hall
  have hparse : sdpParseOffer (videoOfferText audioCredentialLines) =
      some ⟨ascii "uA", ascii "pA", ascii "sha-256 02", ascii "actpass", [], [], false, 96, 1⟩ := by
    decide +kernel
  have hsections : mediaSections (videoOfferText audioCredentialLines) = [] ++
      [ascii "m=video 9 X 96", ascii "a=ice-ufrag:uV", ascii "a=ice-pwd:pV",
        ascii "a=fingerprint:sha-256 01", ascii "a=rtpmap:96 H264/90000"] :: [audioCredentialLines] := by
    decide +kernel
  have hufrag := hall _ _ _ _ _ videoCredential hparse hsections (by decide)
    (fun k ↦ by cases k <;> decide) .iceUfrag
  exact absurd hufrag (by decide)

end Camstream
