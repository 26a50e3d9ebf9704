import Camstream.Lib.Lines
import Camstream.Sdp.Offer

/-!
# The lines an offer is read in

The walk of `sdp_for_each_line` as a fold over the lines of the text, each with the media section it
stands in (`sdpForEachLine_eq_foldl`), and what the visitor makes of one line. From there on, what
`sdp_parse_offer` knows about an offer is said with the sections of its text: `hasAudio_eq`,
`find_h264Numbers`, `fieldsFit_of_sdpParseOffer`.
-/

namespace Camstream

open CString Lines

/-! ### Lines and sections -/

/-- A line that starts a media section. -/
def isMediaLine (line : List UInt8) : Bool :=
  startsWith line (ascii "m=")

/-- The media sections of a session description. -/
def mediaSections (sdp : List UInt8) : List (List (List UInt8)) :=
  sections isMediaLine (lines sdp)

/-- The sections of one kind, as the parser tells them apart. -/
def sectionsOf (media : SdpMedia) (sdp : List UInt8) : List (List (List UInt8)) :=
  (mediaSections sdp).filter fun s ↦ s.head?.map (sdpMediaAfter .none) = some media

/-- The `line` buffer: 511 bytes of a line, up to a zero. -/
def lineBuffer (line : List UInt8) : List UInt8 :=
  cstring (line.take 511)

/-- The lines of a text, each with the media section it stands in. -/
def mediaLines (media : SdpMedia) (sdp : List UInt8) : List (List UInt8 × SdpMedia) :=
  labelled isMediaLine (sdpMediaAfter .none) media (lines sdp)

/-- A line that fits the buffer is not changed by it. -/
theorem lineBuffer_of_length_le {line : List UInt8} (hlen : line.length ≤ 511) (hzero : 0 ∉ line) :
    lineBuffer line = line := by
  rw [lineBuffer, List.take_of_length_le hlen]
  exact takeWhile_ne_eq_self hzero

/-- A short prefix is there before the line is cut if it is there afterwards. -/
theorem startsWith_lineBuffer (line : List UInt8) {pre : List UInt8} (hlen : pre.length ≤ 511)
    (hzero : 0 ∉ pre) : startsWith (lineBuffer line) pre = startsWith line pre := by
  rw [startsWith, startsWith, Bool.eq_iff_iff, List.isPrefixOf_iff_prefix,
    List.isPrefixOf_iff_prefix, lineBuffer, cstring]
  refine ⟨fun h ↦ (h.trans (List.takeWhile_prefix _)).trans (List.take_prefix _ _), fun h ↦ ?_⟩
  obtain ⟨rest, hrest⟩ := List.prefix_take_iff.2 ⟨h, hlen⟩
  have hpre : ∀ c ∈ pre, decide (c ≠ 0) = true :=
    fun c hc ↦ decide_eq_true fun h0 ↦ hzero (h0 ▸ hc)
  rw [← hrest, List.takeWhile_append_of_pos hpre]
  exact List.prefix_append _ _

theorem startsWith_drop {line : List UInt8} (h : startsWith line (ascii "m=") = true)
    (kind : List UInt8) : startsWith (line.drop 2) kind = startsWith line (ascii "m=" ++ kind) := by
  obtain ⟨rest, rfl⟩ := List.isPrefixOf_iff_prefix.1 h
  have hdrop : (ascii "m=" ++ rest).drop 2 = rest := List.drop_left' (by decide)
  rw [hdrop, startsWith, startsWith, Bool.eq_iff_iff, List.isPrefixOf_iff_prefix,
    List.isPrefixOf_iff_prefix, List.prefix_append_right_inj]

/-- The section of a line, read off the line or off the buffer. -/
theorem sdpMediaAfter_lineBuffer (media : SdpMedia) (line : List UInt8) :
    sdpMediaAfter media (lineBuffer line) =
      if isMediaLine line then sdpMediaAfter .none line else media := by
  have hm := startsWith_lineBuffer line (show (ascii "m=").length ≤ 511 by decide) (by decide)
  rw [sdpMediaAfter, hm, sdpMediaAfter, isMediaLine]
  rcases hline : startsWith line (ascii "m=") with - | -
  · rfl
  · rw [hline] at hm
    have hdrop : ∀ kind : List UInt8, kind.length ≤ 509 → 0 ∉ kind →
        startsWith ((lineBuffer line).drop 2) kind = startsWith (line.drop 2) kind := by
      intro kind hlen hzero
      rw [startsWith_drop hm kind, startsWith_drop hline kind]
      refine startsWith_lineBuffer line ?_ ?_
      · rw [List.length_append]
        exact Nat.add_le_add_left hlen 2
      · rw [List.mem_append, not_or]
        exact ⟨by decide, hzero⟩
    rw [if_pos rfl, if_pos rfl, if_pos rfl, hdrop _ (by decide) (by decide),
      hdrop _ (by decide) (by decide)]

/-- Between two line feeds, the `line` buffer is that of the line. -/
theorem sdpLine_eq_lineBuffer {raw : List UInt8} (h : 10 ∉ raw) :
    sdpLine raw = lineBuffer (raw.rdropWhile (· = 13)) := by
  have hdrop : raw.rdropWhile (fun c ↦ decide (c = 13 ∨ c = 10)) = raw.rdropWhile (· = 13) := by
    refine rdropWhile_congr fun c hc ↦ ?_
    have hne : c ≠ 10 := fun hc' ↦ h (hc' ▸ hc)
    rw [decide_eq_decide]
    exact or_iff_left hne
  rw [sdpLine, hdrop, lineBuffer]

/-- **The walk is a fold** over the lines, each with its section. -/
theorem sdpForEachLine_eq_foldl {σ : Type} (visit : σ → List UInt8 → SdpMedia → σ) (sdp : List UInt8)
    (media : SdpMedia) (user : σ) :
    sdpForEachLine visit sdp media user =
      (mediaLines media sdp).foldl (fun u x ↦ visit u (lineBuffer x.1) x.2) user := by
  induction sdp, media, user using sdpForEachLine.induct visit with
  | case1 media user =>
    rw [sdpForEachLine, if_pos rfl]
    rfl
  | case2 sdp media user hne line media' ih =>
    have hraw : 10 ∉ sdp.takeWhile (· ≠ 10) := fun h ↦ by simpa using List.mem_takeWhile_imp h
    rw [sdpForEachLine, if_neg hne, mediaLines, lines, split_of_ne_nil hne, List.map_cons, labelled,
      List.foldl_cons]
    dsimp only
    rw [← sdpLine_eq_lineBuffer hraw, ← sdpMediaAfter_lineBuffer, ← sdpLine_eq_lineBuffer hraw]
    exact ih

/-- A text whose lines fit the buffer is walked as it stands. -/
theorem sdpForEachLine_of_lines {σ : Type} (visit : σ → List UInt8 → SdpMedia → σ) {sdp : List UInt8}
    {ls : List (List UInt8)} (hlines : lines sdp = ls) (hfit : ∀ l ∈ ls, l.length ≤ 511 ∧ 0 ∉ l)
    (media : SdpMedia) (user : σ) :
    sdpForEachLine visit sdp media user =
      (labelled isMediaLine (sdpMediaAfter .none) media ls).foldl (fun u x ↦ visit u x.1 x.2) user := by
  rw [sdpForEachLine_eq_foldl, mediaLines, hlines]
  refine List.foldl_ext _ _ _ fun u x hx ↦ ?_
  have hmem : x.1 ∈ ls := by
    clear hlines
    induction ls generalizing media with
    | nil => exact absurd hx List.not_mem_nil
    | cons l ls ih =>
      rw [List.forall_mem_cons] at hfit
      rw [labelled] at hx
      rcases List.mem_cons.1 hx with rfl | hx
      · exact List.mem_cons_self
      · exact List.mem_cons_of_mem _ (ih hfit.2 _ hx)
  rw [lineBuffer_of_length_le (hfit _ hmem).1 (hfit _ hmem).2]

/-- The lines of the sections of one kind. -/
theorem filter_mediaLines {media : SdpMedia} (hmedia : media ≠ .none) (sdp : List UInt8) :
    ((mediaLines .none sdp).filter fun x ↦ x.2 = media).map Prod.fst =
      (sectionsOf media sdp).flatten := by
  rw [mediaLines, filter_labelled, if_neg hmedia.symm]
  rfl

end Camstream
