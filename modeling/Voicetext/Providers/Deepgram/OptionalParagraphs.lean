import Voicetext.Providers.Deepgram.NormalizedTimeline

/-!
# What the paragraphs of a response can cost

The paragraphs are a second projection of the speech, which parsing drops when it is not usable. Normalizing
checks its segments once more, on the authoritative timeline, and there a segment which does not fit costs the
whole result.
-/

namespace Voicetext.Providers.Deepgram.Batch

open Voicetext.Common Voicetext.Speech.Application

/-- The payload without the paragraphs of its first alternative. -/
def withoutParagraphs (payload : Json) : Json :=
  payload.editAt alternativePath (Json.withoutMember "paragraphs")

/-- Payloads which differ only in the paragraphs of their first alternative. -/
def DifferInParagraphs (payload payload' : Json) : Prop := withoutParagraphs payload = withoutParagraphs payload'

section Recognition

variable (toLowercase : List Char → List Char) (readers : NumberReaders)

/-- Parse a response, and normalize its timeline. -/
def parseAndNormalize (payload : Option Json) (headerRequestId : Option String) (duration : ℕ) :
    Except RecognitionFailure ParsedBatchResult :=
  match parseResponse readers payload headerRequestId with
  | .error failure =>
    .error (.unknownAfterSend failure.code (failure.providerRequestId.map fun id => ⟨id, some .requestId⟩))
  | .ok parsed => normalize toLowercase parsed duration

variable (payload payload' : Json) (headerRequestId : Option String) (duration : ℕ)

/-- Everything but the paragraphs parses, fits the timeline and has bounded overlaps. -/
def SharedAccepted : Prop :=
  ∃ shared durationSeconds segments changed,
    parseShared readers payload headerRequestId = .ok (shared, durationSeconds) ∧
      (∀ segment ∈ shared.segments, FitsTimeline duration segment.startMs segment.endMs) ∧
      normalizeUtteranceOverlaps toLowercase (clampedSegments shared duration) (providerReference shared) =
        .ok (segments, changed)

/-- The projection the paragraphs give, when parsing accepts it. -/
def Projects (readable : List ParsedReadableSegment) : Prop :=
  ∃ shared durationSeconds, parseShared readers payload headerRequestId = .ok (shared, durationSeconds) ∧
    parseReadableSegments readers payload shared.text durationSeconds shared.segments = some readable

/-- A projection which parsing accepts fits the authoritative timeline. -/
def ProjectionFits : Prop :=
  ∀ readable, Projects readers payload headerRequestId readable →
    ∀ segment ∈ readable, FitsTimeline duration segment.startMs segment.endMs

/-- The paragraphs are usable. -/
def UsableProjection : Prop :=
  ∃ readable, Projects readers payload headerRequestId readable ∧
    ∀ segment ∈ readable, FitsTimeline duration segment.startMs segment.endMs

/-- Paragraphs decide neither whether a response is accepted nor anything but its readable segments. -/
structure ParagraphsOptional : Prop where
  succeeds_iff :
    (∃ result, parseAndNormalize toLowercase readers (some payload) headerRequestId duration = .ok result) ↔
      ∃ result, parseAndNormalize toLowercase readers (some payload') headerRequestId duration = .ok result
  agrees : ∀ result result',
    parseAndNormalize toLowercase readers (some payload) headerRequestId duration = .ok result →
    parseAndNormalize toLowercase readers (some payload') headerRequestId duration = .ok result' →
      result.text = result'.text ∧ result.segments = result'.segments ∧
      result.providerDurationMs = result'.providerDurationMs ∧
      result.providerRequestId = result'.providerRequestId
  falls_back : ∀ either ∈ [payload, payload'],
    SharedAccepted toLowercase readers either headerRequestId duration →
    ¬ UsableProjection readers either headerRequestId duration →
      ∃ result, parseAndNormalize toLowercase readers (some either) headerRequestId duration = .ok result ∧
        result.readableSegments = []

end Recognition

section Sharing

variable {toLowercase : List Char → List Char} {readers : NumberReaders} {payload payload' : Json}
  {headerRequestId : Option String} {duration : ℕ}

/-- Everything but the paragraphs is parsed from the payload without them. -/
theorem parseShared_withoutParagraphs (payload : Json) (headerRequestId : Option String) :
    parseShared readers (withoutParagraphs payload) headerRequestId = parseShared readers payload headerRequestId := by
  have hmetadata : (withoutParagraphs payload).member "metadata" = payload.member "metadata" :=
    Json.member_editAt_of_ne (by decide) _ payload
  have hutterances : (withoutParagraphs payload).pointer ["results", "utterances"] =
      payload.pointer ["results", "utterances"] :=
    Json.pointer_editAt_of_ne ["results"] (by decide) (by decide) _ payload
  have halternative : (withoutParagraphs payload).pointer alternativePath =
      (payload.pointer alternativePath).map (Json.withoutMember "paragraphs") :=
    Json.pointer_editAt alternativePath _ payload
  have hobject (doc : Json) : (doc.withoutMember "paragraphs").asObject =
      doc.asObject.map fun members => members.filter fun member => member.1 ≠ "paragraphs" := by
    cases doc <;> rfl
  simp only [parseShared, hmetadata, hutterances, halternative]
  cases payload.pointer alternativePath with
  | none => rfl
  | some doc =>
    simp only [Option.map_some, Option.bind_some, hobject]
    cases doc.asObject with
    | none => rfl
    | some members =>
      have htranscript : Json.lookup (members.filter fun member => member.1 ≠ "paragraphs") "transcript" =
          Json.lookup members "transcript" := Json.lookup_filter (by decide) members
      simp only [Option.map_some, Option.elim_some, ok_bind, htranscript]

/-- Payloads which differ only in paragraphs share everything else. -/
theorem DifferInParagraphs.parseShared_eq (h : DifferInParagraphs payload payload') :
    parseShared readers payload headerRequestId = parseShared readers payload' headerRequestId := by
  rw [← parseShared_withoutParagraphs payload, h, parseShared_withoutParagraphs]

/-- A response is accepted when everything it parses to is. -/
theorem parseAndNormalize_eq_ok {result : ParsedBatchResult} :
    parseAndNormalize toLowercase readers (some payload) headerRequestId duration = .ok result ↔
      ∃ shared durationSeconds, parseShared readers payload headerRequestId = .ok (shared, durationSeconds) ∧
        normalize toLowercase
          { shared with
            readableSegments :=
              (parseReadableSegments readers payload shared.text durationSeconds shared.segments).getD [] }
          duration = .ok result := by
  have hparse : parseResponse readers (some payload) headerRequestId =
      parseShared readers payload headerRequestId >>= fun parts => .ok
        { parts.1 with
          readableSegments :=
            (parseReadableSegments readers payload parts.1.text parts.2 parts.1.segments).getD [] } := rfl
  rw [parseAndNormalize, hparse]
  cases hshared : parseShared readers payload headerRequestId with
  | error failure => simp [bind, Except.bind]
  | ok parts =>
    obtain ⟨shared, durationSeconds⟩ := parts
    rw [ok_bind]
    constructor
    · intro h
      exact ⟨shared, durationSeconds, rfl, h⟩
    · rintro ⟨_, _, hparts, h⟩
      cases hparts
      exact h

/-- A response is accepted exactly when all but its paragraphs is, and they project to what fits. -/
theorem accepted_iff :
    (∃ result, parseAndNormalize toLowercase readers (some payload) headerRequestId duration = .ok result) ↔
      SharedAccepted toLowercase readers payload headerRequestId duration ∧
        ProjectionFits readers payload headerRequestId duration := by
  simp only [parseAndNormalize_eq_ok, normalize_eq_ok]
  constructor
  · rintro ⟨result, shared, durationSeconds, hshared, hfits, hreadable, segments, changed, hoverlaps, -⟩
    refine ⟨⟨shared, durationSeconds, segments, changed, hshared, hfits, hoverlaps⟩, ?_⟩
    rintro readable ⟨_, _, hparts, hprojects⟩
    cases hshared.symm.trans hparts
    rwa [hprojects] at hreadable
  · rintro ⟨⟨shared, durationSeconds, segments, changed, hshared, hfits, hoverlaps⟩, hprojection⟩
    refine ⟨_, shared, durationSeconds, hshared, hfits, fun segment hsegment => ?_, segments, changed, hoverlaps, rfl⟩
    cases hprojects : parseReadableSegments readers payload shared.text durationSeconds shared.segments with
    | none =>
      rw [hprojects] at hsegment
      cases hsegment
    | some readable =>
      rw [hprojects] at hsegment
      exact hprojection readable ⟨shared, durationSeconds, hshared, hprojects⟩ segment hsegment

/-- A usable projection fits. -/
theorem UsableProjection.fits (h : UsableProjection readers payload headerRequestId duration) :
    ProjectionFits readers payload headerRequestId duration := by
  obtain ⟨readable, ⟨shared, durationSeconds, hshared, hprojects⟩, hfits⟩ := h
  rintro other ⟨_, _, hparts, hother⟩
  cases hshared.symm.trans hparts
  obtain rfl := Option.some.inj (hprojects.symm.trans hother)
  exact hfits

/-- An accepted response without a usable projection has no readable segments. -/
theorem readableSegments_eq_nil {result : ParsedBatchResult}
    (h : parseAndNormalize toLowercase readers (some payload) headerRequestId duration = .ok result)
    (hunusable : ¬ UsableProjection readers payload headerRequestId duration) : result.readableSegments = [] := by
  obtain ⟨shared, durationSeconds, hshared, hnormalize⟩ := parseAndNormalize_eq_ok.mp h
  obtain ⟨-, hreadable, segments, changed, -, rfl⟩ := normalize_eq_ok.mp hnormalize
  cases hprojects : parseReadableSegments readers payload shared.text durationSeconds shared.segments with
  | none => simp
  | some readable =>
    rw [hprojects] at hreadable
    exact absurd ⟨readable, ⟨shared, durationSeconds, hshared, hprojects⟩, hreadable⟩ hunusable

/-- Payloads which differ only in paragraphs share all but the readable segments of their results. -/
theorem DifferInParagraphs.agree (h : DifferInParagraphs payload payload') {result result' : ParsedBatchResult}
    (hresult : parseAndNormalize toLowercase readers (some payload) headerRequestId duration = .ok result)
    (hresult' : parseAndNormalize toLowercase readers (some payload') headerRequestId duration = .ok result') :
    result.text = result'.text ∧ result.segments = result'.segments ∧
      result.providerDurationMs = result'.providerDurationMs ∧
      result.providerRequestId = result'.providerRequestId := by
  obtain ⟨shared, durationSeconds, hshared, hnormalize⟩ := parseAndNormalize_eq_ok.mp hresult
  obtain ⟨_, _, hshared', hnormalize'⟩ := parseAndNormalize_eq_ok.mp hresult'
  rw [← h.parseShared_eq, hshared] at hshared'
  cases hshared'
  obtain ⟨-, -, segments, changed, hoverlaps, rfl⟩ := normalize_eq_ok.mp hnormalize
  obtain ⟨-, -, segments', changed', hoverlaps', rfl⟩ := normalize_eq_ok.mp hnormalize'
  have hsame := hoverlaps.symm.trans hoverlaps'
  cases hsame
  exact ⟨rfl, rfl, rfl, rfl⟩

/-- Paragraphs are optional exactly when the rest is refused anyway or both projections fit. -/
theorem paragraphsOptional_iff (h : DifferInParagraphs payload payload') :
    ParagraphsOptional toLowercase readers payload payload' headerRequestId duration ↔
      ¬ SharedAccepted toLowercase readers payload headerRequestId duration ∨
        (ProjectionFits readers payload headerRequestId duration ∧
          ProjectionFits readers payload' headerRequestId duration) := by
  have hshared : SharedAccepted toLowercase readers payload headerRequestId duration ↔
      SharedAccepted toLowercase readers payload' headerRequestId duration := by
    rw [SharedAccepted, SharedAccepted, h.parseShared_eq]
  constructor
  · intro hoptional
    by_cases haccepted : SharedAccepted toLowercase readers payload headerRequestId duration
    · have hfits (either : Json) (hmem : either ∈ [payload, payload'])
          (heither : SharedAccepted toLowercase readers either headerRequestId duration) :
          ProjectionFits readers either headerRequestId duration := by
        by_cases husable : UsableProjection readers either headerRequestId duration
        · exact husable.fits
        · obtain ⟨result, hresult, -⟩ := hoptional.falls_back either hmem heither husable
          exact (accepted_iff.mp ⟨result, hresult⟩).2
      exact .inr ⟨hfits payload (by simp) haccepted, hfits payload' (by simp) (hshared.mp haccepted)⟩
    · exact .inl haccepted
  · rintro (hrefused | ⟨hfits, hfits'⟩)
    · refine ⟨?_, fun _ _ => h.agree, fun either hmem heither _ => ?_⟩
      · rw [accepted_iff, accepted_iff, ← hshared]
        exact iff_of_false (fun h => hrefused h.1) fun h => hrefused h.1
      · rcases List.mem_pair.mp hmem with rfl | rfl
        · exact absurd heither hrefused
        · exact absurd (hshared.mpr heither) hrefused
    · refine ⟨?_, fun _ _ => h.agree, fun either hmem heither hunusable => ?_⟩
      · rw [accepted_iff, accepted_iff, ← hshared]
        exact and_congr_right fun _ => iff_of_true hfits hfits'
      · have hprojection : ProjectionFits readers either headerRequestId duration := by
          rcases List.mem_pair.mp hmem with rfl | rfl
          · exact hfits
          · exact hfits'
        obtain ⟨result, hresult⟩ := accepted_iff.mpr ⟨heither, hprojection⟩
        exact ⟨result, hresult, readableSegments_eq_nil hresult hunusable⟩

/-- A number of a payload. -/
def secondsLiteral (thousandths : ℕ) : Json := .number (.ofThousandths thousandths)

/-- A response of two and a quarter seconds, with the given members beside the transcript. -/
def driftingResponse (paragraphs : List (String × Json)) : Json :=
  .object
    [("metadata", .object [("duration", secondsLiteral 2250)]),
      ("results", .object
        [("channels", .array [.object [("alternatives", .array
            [.object (paragraphs ++ [("transcript", .string "hello world")])])]]),
          ("utterances", .array
            [.object [("end", secondsLiteral 2250), ("start", secondsLiteral 0),
              ("transcript", .string "hello world")]])])]

/-- Paragraphs whose second sentence lies behind two seconds. -/
def driftingParagraphs : List (String × Json) :=
  [("paragraphs", .object [("paragraphs", .array [.object [("sentences", .array
    [.object [("end", secondsLiteral 2000), ("start", secondsLiteral 0), ("text", .string "hello")],
      .object [("end", secondsLiteral 2250), ("start", secondsLiteral 2125), ("text", .string "world")]])]])])]

/-- Numbers are read as what they spell. -/
def exactReaders : NumberReaders := ⟨fun literal => some literal.toRat, fun _ => none⟩

/-- Absent paragraphs, and null in their place. -/
theorem paragraphsOptional_iff_absent :
    ParagraphsOptional (List.map Char.toLower) exactReaders (driftingResponse [])
        (driftingResponse [("paragraphs", .null)]) none 2000 ↔
      ¬ SharedAccepted (List.map Char.toLower) exactReaders (driftingResponse []) none 2000 ∨
        (ProjectionFits exactReaders (driftingResponse []) none 2000 ∧
          ProjectionFits exactReaders (driftingResponse [("paragraphs", .null)]) none 2000) :=
  paragraphsOptional_iff rfl

/-- A sentence within the tolerance behind the authoritative duration costs the result. -/
theorem driftingParagraphs_not_optional :
    DifferInParagraphs (driftingResponse driftingParagraphs) (driftingResponse []) ∧
      ¬ ParagraphsOptional (List.map Char.toLower) exactReaders (driftingResponse driftingParagraphs)
        (driftingResponse []) none 2000 := by
  have hrefused : (parseAndNormalize (List.map Char.toLower) exactReaders
      (some (driftingResponse driftingParagraphs)) none 2000).toOption.isSome = false := by decide +kernel
  have haccepted : (parseAndNormalize (List.map Char.toLower) exactReaders
      (some (driftingResponse [])) none 2000).toOption.isSome = true := by decide +kernel
  refine ⟨rfl, fun hoptional => ?_⟩
  cases hresult : parseAndNormalize (List.map Char.toLower) exactReaders (some (driftingResponse [])) none 2000 with
  | error failure =>
    rw [hresult] at haccepted
    cases haccepted
  | ok result =>
    obtain ⟨other, hother⟩ := hoptional.succeeds_iff.mpr ⟨result, hresult⟩
    rw [hother] at hrefused
    cases hrefused

end Sharing

end Voicetext.Providers.Deepgram.Batch
