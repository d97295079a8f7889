import Mathlib.Data.List.Chain
import Voicetext.Common.Fallible
import Voicetext.Providers.Deepgram.Timeline

/-!
# A normalized timeline is in order and says every word

Normalizing accepts utterances within the tolerance and walks them once. Whatever was walked, the segments kept
are in order within the duration, and every utterance is still a run of words in one of them.
-/

namespace Voicetext.Providers.Deepgram.Batch

open Voicetext.Common Voicetext.Speech.Application

/-- The latest end a provider may give. -/
def maximumProviderEnd (duration : ℕ) : ℕ :=
  U64.saturatingAdd duration
    (max TIMESTAMP_TOLERANCE_MILLIS (duration / TIMESTAMP_RELATIVE_TOLERANCE_DIVISOR))

/-- An interval the timeline accepts. -/
structure FitsTimeline (duration start stop : ℕ) : Prop where
  start_lt : start < duration
  stop_le : stop ≤ maximumProviderEnd duration
  start_lt_stop : start < stop

instance (duration start stop : ℕ) : Decidable (FitsTimeline duration start stop) :=
  decidable_of_iff (start < duration ∧ stop ≤ maximumProviderEnd duration ∧ start < stop)
    ⟨fun ⟨h, h', h''⟩ => ⟨h, h', h''⟩, fun ⟨h, h', h''⟩ => ⟨h, h', h''⟩⟩

/-- A segment with its end within the duration. -/
def ParsedSegment.clampEnd (duration : ℕ) (segment : ParsedSegment) : ParsedSegment :=
  { segment with endMs := min segment.endMs duration }

/-- A readable segment with its end within the duration. -/
def ParsedReadableSegment.clampEnd (duration : ℕ) (segment : ParsedReadableSegment) : ParsedReadableSegment :=
  { segment with endMs := min segment.endMs duration }

/-- The utterances of a result on the authoritative timeline. -/
def clampedSegments (parsed : ParsedBatchResult) (duration : ℕ) : List ParsedSegment :=
  parsed.segments.map (ParsedSegment.clampEnd duration)

/-- The reference the failures of a result carry. -/
def providerReference (parsed : ParsedBatchResult) : Option ProviderReference :=
  parsed.providerRequestId.map fun id => ⟨id, some .requestId⟩

variable {toLowercase : List Char → List Char} {reference : Option ProviderReference}

theorem normalizeEnd_eq_ok {duration start stop clamped : ℕ} :
    normalizeEnd start stop duration (maximumProviderEnd duration) reference = .ok clamped ↔
      FitsTimeline duration start stop ∧ min stop duration = clamped := by
  rw [normalizeEnd, ite_error_eq_ok, Except.ok.injEq]
  refine and_congr_left fun _ => ⟨fun h => ?_, fun h => ?_⟩
  · rw [not_or, not_or] at h
    exact ⟨Nat.not_le.mp h.1, Nat.not_lt.mp h.2.1, Nat.not_le.mp h.2.2⟩
  · rintro (hle | hlt | hle)
    · exact absurd h.start_lt (Nat.not_lt.mpr hle)
    · exact absurd h.stop_le (Nat.not_le.mpr hlt)
    · exact absurd h.start_lt_stop (Nat.not_lt.mpr hle)

/-- A result is normalized when all of its intervals fit and its utterances are free of overlaps. -/
theorem normalize_eq_ok {parsed result : ParsedBatchResult} {duration : ℕ} :
    normalize toLowercase parsed duration = .ok result ↔
      (∀ segment ∈ parsed.segments, FitsTimeline duration segment.startMs segment.endMs) ∧
      (∀ segment ∈ parsed.readableSegments, FitsTimeline duration segment.startMs segment.endMs) ∧
      ∃ segments changed,
        normalizeUtteranceOverlaps toLowercase (clampedSegments parsed duration) (providerReference parsed) =
          .ok (segments, changed) ∧
        result =
          { parsed with
            segments
            readableSegments := if changed then [] else
              parsed.readableSegments.map (ParsedReadableSegment.clampEnd duration) } := by
  have hsegment (segment clamped : ParsedSegment) : (do
      let endMs ← normalizeEnd segment.startMs segment.endMs duration (maximumProviderEnd duration)
        (providerReference parsed)
      return { segment with endMs }) = Except.ok clamped ↔
        FitsTimeline duration segment.startMs segment.endMs ∧ segment.clampEnd duration = clamped := by
    simp only [bind_eq_ok, normalizeEnd_eq_ok]
    constructor
    · rintro ⟨_, ⟨hfits, rfl⟩, hclamped⟩
      exact ⟨hfits, Except.ok.inj hclamped⟩
    · rintro ⟨hfits, rfl⟩
      exact ⟨_, ⟨hfits, rfl⟩, rfl⟩
  have hreadable (segment clamped : ParsedReadableSegment) : (do
      let endMs ← normalizeEnd segment.startMs segment.endMs duration (maximumProviderEnd duration)
        (providerReference parsed)
      return { segment with endMs }) = Except.ok clamped ↔
        FitsTimeline duration segment.startMs segment.endMs ∧ segment.clampEnd duration = clamped := by
    simp only [bind_eq_ok, normalizeEnd_eq_ok]
    constructor
    · rintro ⟨_, ⟨hfits, rfl⟩, hclamped⟩
      exact ⟨hfits, Except.ok.inj hclamped⟩
    · rintro ⟨hfits, rfl⟩
      exact ⟨_, ⟨hfits, rfl⟩, rfl⟩
  unfold normalize
  rw [bind_eq_ok]
  constructor
  · rintro ⟨segments, hsegments, hrest⟩
    obtain ⟨readable, hreadables, hrest⟩ := bind_eq_ok.mp hrest
    obtain ⟨⟨normalized, changed⟩, hoverlaps, hresult⟩ := bind_eq_ok.mp hrest
    obtain ⟨hfits, rfl⟩ := (mapM_eq_ok_map hsegment).mp hsegments
    obtain ⟨hfitsReadable, rfl⟩ := (mapM_eq_ok_map hreadable).mp hreadables
    exact ⟨hfits, hfitsReadable, normalized, changed, hoverlaps, (Except.ok.inj hresult).symm⟩
  · rintro ⟨hfits, hfitsReadable, normalized, changed, hoverlaps, rfl⟩
    refine ⟨_, (mapM_eq_ok_map hsegment).mpr ⟨hfits, rfl⟩, bind_eq_ok.mpr ?_⟩
    exact ⟨_, (mapM_eq_ok_map hreadable).mpr ⟨hfitsReadable, rfl⟩, bind_eq_ok.mpr ⟨_, hoverlaps, rfl⟩⟩

section Overlaps

/-- What one segment does to the normalized ones. -/
inductive Resolved (toLowercase : List Char → List Char) :
    List ParsedSegment × Bool → ParsedSegment → List ParsedSegment × Bool → Prop
  | first (changed : Bool) (segment : ParsedSegment) :
    Resolved toLowercase ([], changed) segment ([segment], changed)
  | apart {previous segment : ParsedSegment} {earlier : List ParsedSegment} (changed : Bool)
      (starts : previous.endMs ≤ segment.startMs) :
    Resolved toLowercase (previous :: earlier, changed) segment (segment :: previous :: earlier, changed)
  | merged {previous segment : ParsedSegment} {earlier : List ParsedSegment} (changed : Bool)
      (overlaps : segment.startMs < previous.endMs)
      (bounded : previous.endMs - segment.startMs ≤ MAX_UTTERANCE_OVERLAP_MILLIS)
      (ends : segment.endMs ≤ previous.endMs) :
    Resolved toLowercase (previous :: earlier, changed) segment
      ({ previous with text := mergeContainedText toLowercase previous.text segment.text } :: earlier, true)
  | moved {previous segment : ParsedSegment} {earlier : List ParsedSegment} (changed : Bool)
      (overlaps : segment.startMs < previous.endMs)
      (bounded : previous.endMs - segment.startMs ≤ MAX_UTTERANCE_OVERLAP_MILLIS)
      (ends : previous.endMs < segment.endMs) :
    Resolved toLowercase (previous :: earlier, changed) segment
      ({ segment with startMs := previous.endMs } :: previous :: earlier, true)

theorem resolved_of_overlapStep {state state' : List ParsedSegment × Bool} {segment : ParsedSegment}
    (h : overlapStep toLowercase reference state segment = .ok state') :
    Resolved toLowercase state segment state' := by
  obtain ⟨normalized, changed⟩ := state
  cases normalized with
  | nil =>
    cases h
    exact .first changed segment
  | cons previous earlier =>
    simp only [overlapStep] at h
    split at h
    · cases h
      exact .apart changed ‹_›
    · rename_i hstarts
      have hoverlaps := Nat.not_le.mp hstarts
      obtain ⟨hbounded, h⟩ := ite_error_eq_ok.mp h
      split at h
      · cases h
        exact .merged changed hoverlaps (Nat.not_lt.mp hbounded) ‹_›
      · rename_i hends
        cases h
        exact .moved changed hoverlaps (Nat.not_lt.mp hbounded) (Nat.not_le.mp hends)

/-- The normalized segments, with the last first, after the utterances which were walked. -/
structure Normalized (toLowercase : List Char → List Char) (duration : ℕ) (walked : List ParsedSegment)
    (state : List ParsedSegment × Bool) : Prop where
  within : ∀ segment ∈ state.1, segment.startMs < segment.endMs ∧ segment.endMs ≤ duration
  ordered : state.1.IsChain fun later earlier => earlier.endMs ≤ later.startMs
  length_le : state.1.length ≤ walked.length
  unchanged : state.2 = false → state.1.reverse = walked
  said : ∀ utterance ∈ walked, ∃ segment ∈ state.1,
    Text.RunIn toLowercase (Text.splitWhitespace utterance.text) (Text.splitWhitespace segment.text)

/-- Walking one more utterance keeps the segments normalized. -/
theorem Normalized.step {duration : ℕ} {walked : List ParsedSegment} {state state' : List ParsedSegment × Bool}
    {segment : ParsedSegment} (h : Normalized toLowercase duration walked state)
    (hsegment : segment.startMs < segment.endMs ∧ segment.endMs ≤ duration)
    (hstep : Resolved toLowercase state segment state') :
    Normalized toLowercase duration (walked ++ [segment]) state' := by
  have hsaid {kept : List ParsedSegment} (hself : ∃ other ∈ kept,
        Text.RunIn toLowercase (Text.splitWhitespace segment.text) (Text.splitWhitespace other.text))
      (hkept : ∀ other ∈ state.1, ∃ heir ∈ kept,
        Text.RunIn toLowercase (Text.splitWhitespace other.text) (Text.splitWhitespace heir.text)) :
      ∀ utterance ∈ walked ++ [segment], ∃ other ∈ kept,
        Text.RunIn toLowercase (Text.splitWhitespace utterance.text) (Text.splitWhitespace other.text) := by
    intro utterance hmem
    rcases List.mem_append.mp hmem with hwalked | hlast
    · obtain ⟨other, hother, hrun⟩ := h.said utterance hwalked
      obtain ⟨heir, hheir, hinherits⟩ := hkept other hother
      exact ⟨heir, hheir, hrun.trans hinherits⟩
    · obtain rfl := List.mem_singleton.mp hlast
      exact hself
  have hsayself : ∃ other ∈ [segment],
      Text.RunIn toLowercase (Text.splitWhitespace segment.text) (Text.splitWhitespace other.text) :=
    ⟨segment, List.mem_singleton_self segment, .refl _⟩
  cases hstep with
  | first changed =>
    refine ⟨List.forall_mem_singleton.mpr hsegment, List.isChain_singleton _, by simp, fun hchanged => ?_,
      hsaid hsayself fun _ hother => nomatch hother⟩
    rw [← h.unchanged hchanged]
    rfl
  | @apart previous _ earlier changed starts =>
    refine ⟨List.forall_mem_cons.mpr ⟨hsegment, h.within⟩, List.isChain_cons.mpr ⟨?_, h.ordered⟩, ?_,
      fun hchanged => ?_, hsaid ⟨segment, List.mem_cons_self, .refl _⟩ fun other hother =>
        ⟨other, List.mem_cons_of_mem _ hother, .refl _⟩⟩
    · rintro _ ⟨⟩
      exact starts
    · simpa using h.length_le
    · rw [← h.unchanged hchanged]
      simp
  | @merged previous _ earlier changed overlaps bounded ends =>
    obtain ⟨hprevious, hearlier⟩ := List.forall_mem_cons.mp h.within
    obtain ⟨hordered, htail⟩ := List.isChain_cons.mp h.ordered
    obtain ⟨hrunPrevious, hrunSegment⟩ :=
      @runIn_mergeContainedText toLowercase previous.text segment.text
    refine ⟨List.forall_mem_cons.mpr ⟨hprevious, hearlier⟩, List.isChain_cons.mpr ⟨hordered, htail⟩, ?_,
      fun hchanged => (nomatch hchanged), hsaid ⟨_, List.mem_cons_self, hrunSegment⟩ fun other hother => ?_⟩
    · have hlength := h.length_le
      simp only [List.length_cons, List.length_append, List.length_nil] at hlength ⊢
      omega
    · rcases List.mem_cons.mp hother with rfl | hother
      · exact ⟨_, List.mem_cons_self, hrunPrevious⟩
      · exact ⟨other, List.mem_cons_of_mem _ hother, .refl _⟩
  | @moved previous _ earlier changed overlaps bounded ends =>
    refine ⟨List.forall_mem_cons.mpr ⟨⟨ends, hsegment.2⟩, h.within⟩, List.isChain_cons.mpr ⟨?_, h.ordered⟩, ?_,
      fun hchanged => (nomatch hchanged), hsaid ⟨_, List.mem_cons_self, .refl _⟩ fun other hother =>
        ⟨other, List.mem_cons_of_mem _ hother, .refl _⟩⟩
    · rintro _ ⟨⟩
      exact le_rfl
    · simpa using h.length_le

/-- Walking utterances keeps the segments normalized. -/
theorem Normalized.run {duration : ℕ} {walked rest : List ParsedSegment} {state state' : List ParsedSegment × Bool}
    (h : Normalized toLowercase duration walked state)
    (hrest : ∀ segment ∈ rest, segment.startMs < segment.endMs ∧ segment.endMs ≤ duration)
    (hfold : rest.foldlM (overlapStep toLowercase reference) state = .ok state') :
    Normalized toLowercase duration (walked ++ rest) state' := by
  induction rest generalizing walked state with
  | nil =>
    cases hfold
    rwa [List.append_nil]
  | cons segment rest ih =>
    obtain ⟨hsegment, hrest⟩ := List.forall_mem_cons.mp hrest
    rw [List.foldlM_cons, bind_eq_ok] at hfold
    obtain ⟨middle, hstep, hfold⟩ := hfold
    have hwalked := ih (h.step hsegment (resolved_of_overlapStep hstep)) hrest hfold
    rwa [List.append_assoc] at hwalked

/-- The overlaps of utterances which fit the timeline are resolved into normalized segments. -/
theorem normalized_of_overlaps {parsed : ParsedBatchResult} {duration : ℕ} {segments : List ParsedSegment}
    {changed : Bool}
    (hfits : ∀ segment ∈ parsed.segments, FitsTimeline duration segment.startMs segment.endMs)
    (h : normalizeUtteranceOverlaps toLowercase (clampedSegments parsed duration) reference =
      .ok (segments, changed)) :
    Normalized toLowercase duration (clampedSegments parsed duration) (segments.reverse, changed) := by
  obtain ⟨⟨normalized, _⟩, hfold, hresult⟩ := bind_eq_ok.mp h
  cases hresult
  have hempty : Normalized toLowercase duration [] ([], false) :=
    ⟨fun _ h => (nomatch h), List.isChain_nil, le_rfl, fun _ => rfl, fun _ h => (nomatch h)⟩
  have hrun := hempty.run (fun segment hsegment => by
    obtain ⟨source, hsource, rfl⟩ := List.mem_map.mp hsegment
    have hfit := hfits source hsource
    exact ⟨lt_min hfit.start_lt_stop hfit.start_lt, min_le_right _ _⟩) hfold
  rwa [List.reverse_reverse]

end Overlaps

/-- A normalized timeline is in order within the duration, its readable segments are those of the result or none,
and every utterance is a run of words in one of its segments. -/
theorem normalize_sound {parsed result : ParsedBatchResult} {duration : ℕ}
    (h : normalize toLowercase parsed duration = .ok result) :
    (∀ segment ∈ result.segments,
      0 ≤ segment.startMs ∧ segment.startMs < segment.endMs ∧ segment.endMs ≤ duration) ∧
    result.segments.IsChain (fun earlier later => earlier.endMs ≤ later.startMs) ∧
    result.segments.length ≤ parsed.segments.length ∧
    (result.readableSegments = parsed.readableSegments.map (ParsedReadableSegment.clampEnd duration) ∨
      result.readableSegments = []) ∧
    (result.segments ≠ clampedSegments parsed duration → result.readableSegments = []) ∧
    ∀ utterance ∈ parsed.segments, ∃ segment ∈ result.segments,
      Text.RunIn toLowercase (Text.splitWhitespace utterance.text) (Text.splitWhitespace segment.text) := by
  obtain ⟨hfits, -, segments, changed, hoverlaps, rfl⟩ := normalize_eq_ok.mp h
  have hnormalized := normalized_of_overlaps hfits hoverlaps
  have hlength := hnormalized.length_le
  simp only [List.length_reverse, clampedSegments, List.length_map] at hlength
  refine ⟨fun segment hmem => ⟨Nat.zero_le _, hnormalized.within segment (List.mem_reverse.mpr hmem)⟩, ?_, hlength,
    ?_, fun hmoved => ?_, fun utterance hmem => ?_⟩
  · simpa [List.isChain_reverse] using hnormalized.ordered
  · cases changed
    · exact .inl rfl
    · exact .inr rfl
  · cases changed
    · have hsame := hnormalized.unchanged rfl
      rw [List.reverse_reverse] at hsame
      exact absurd hsame hmoved
    · rfl
  · obtain ⟨segment, hsegment, hrun⟩ := hnormalized.said _ (List.mem_map_of_mem hmem)
    exact ⟨segment, List.mem_reverse.mp hsegment, hrun⟩

/-- An utterance and a refinement within it. -/
def refinement : ParsedBatchResult where
  text := "release Redis queue"
  providerDurationMs := 30000
  segments :=
    [⟨10000, 20000, "release Redis queue", none, none, 10, 20⟩, ⟨12000, 18000, "redis queue", none, none, 12, 18⟩]
  readableSegments := []
  providerRequestId := none

theorem normalize_sound_refinement : ∃ result,
    normalize (List.map Char.toLower) refinement 30000 = .ok result ∧
      ∀ utterance ∈ refinement.segments, ∃ segment ∈ result.segments,
        Text.RunIn (List.map Char.toLower) (Text.splitWhitespace utterance.text)
          (Text.splitWhitespace segment.text) := by
  have h : ∃ result, normalize (List.map Char.toLower) refinement 30000 = .ok result := ⟨_, rfl⟩
  obtain ⟨result, hresult⟩ := h
  exact ⟨result, hresult, (normalize_sound hresult).2.2.2.2.2⟩

end Voicetext.Providers.Deepgram.Batch
