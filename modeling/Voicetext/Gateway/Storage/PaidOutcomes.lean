import Voicetext.Common.JsonSize
import Voicetext.Gateway.Contracts.BatchProjection
import Voicetext.Gateway.Storage.DurableRecords
import Voicetext.Speech.Application.SnapshotInvariant

/-!
# Outcomes of paid recognition in the ledger

A result the application accepts is within every bound of its stored representation, but for its speakers
and its provider reference: the text it is stored as is linear in the content the application bounds. Failure
evidence is stored when its reference and its retry delay are within the bounds of the ledger.
-/

namespace Voicetext.Gateway.Storage

open Voicetext.Common Voicetext.Speech.Domain Voicetext.Speech.Application

section Sizes

variable (floats : FloatText)

/-- The content of a segment, in bytes. -/
def segmentBytes (segment : BatchSegment) : ℕ := Text.len segment.text + segment.speaker.elim 0 Text.len

/-- The content of a readable projection, in bytes. -/
def readableBytes (segments : List BatchReadableSegment) : ℕ := (segments.map fun segment => Text.len segment.text).sum

/-- The number of source indices of a readable projection. -/
def referenceCount (segments : List BatchReadableSegment) : ℕ :=
  (segments.map fun segment => segment.sourceSegmentIndices.length).sum

theorem bytes_segmentRecord_le (segment : BatchSegment) :
    Text.bytes ((SegmentRecord.ofSegment segment).toJson floats).write ≤ 6 * segmentBytes segment + 140 := by
  have hkeys : Text.bytes (Json.quoted "start_millis") = 14 ∧ Text.bytes (Json.quoted "end_millis") = 12 ∧
      Text.bytes (Json.quoted "text") = 6 ∧ Text.bytes (Json.quoted "confidence") = 12 ∧
        Text.bytes (Json.quoted "speaker") = 9 := by decide
  have hstart := Json.bytes_write_ofU64_le segment.startMillis
  have hend := Json.bytes_write_ofU64_le segment.endMillis
  have htext := Json.bytes_write_string_le segment.text
  have hconfidence : Text.bytes (Json.ofOption (.ofF32 floats) segment.confidence).write ≤ 24 :=
    Json.bytes_write_ofOption_le (by decide) fun x _ => Json.bytes_write_ofF32_le floats x
  have hspeaker : Text.bytes (Json.ofOption .string segment.speaker).write ≤
      6 * segment.speaker.elim 0 Text.len + 4 := by
    refine Json.bytes_write_ofOption_le (by omega) fun speaker hspeaker => ?_
    rw [Option.mem_def.mp hspeaker, Option.elim_some]
    exact (Json.bytes_write_string_le speaker).trans (by omega)
  refine (Json.bytes_write_object_le _).trans ?_
  simp only [SegmentRecord.ofSegment, List.map_cons, List.map_nil, List.sum_cons, List.sum_nil, hkeys, segmentBytes]
  omega

theorem bytes_readableRecord_le (segment : BatchReadableSegment) :
    Text.bytes (ReadableRecord.ofSegment segment).toJson.write ≤
      6 * Text.len segment.text + 21 * segment.sourceSegmentIndices.length + 112 := by
  have hkeys : Text.bytes (Json.quoted "start_millis") = 14 ∧ Text.bytes (Json.quoted "end_millis") = 12 ∧
      Text.bytes (Json.quoted "text") = 6 ∧ Text.bytes (Json.quoted "source_segment_indices") = 24 := by decide
  have hstart := Json.bytes_write_ofU64_le segment.startMillis
  have hend := Json.bytes_write_ofU64_le segment.endMillis
  have htext := Json.bytes_write_string_le segment.text
  have hindices := @Json.bytes_write_array_le UInt64 .ofU64 (fun _ => 0) 0 20 segment.sourceSegmentIndices
    fun n _ => by
      have hn := Json.bytes_write_ofU64_le n
      omega
  refine (Json.bytes_write_object_le _).trans ?_
  simp only [ReadableRecord.ofSegment, List.map_cons, List.map_nil, List.sum_cons, List.sum_nil, hkeys]
  omega

theorem sum_readable (segments : List BatchReadableSegment) :
    (segments.map fun segment => 6 * Text.len segment.text + 21 * segment.sourceSegmentIndices.length).sum =
      6 * readableBytes segments + 21 * referenceCount segments := by
  induction segments with
  | nil => rfl
  | cons segment rest ih =>
    simp only [readableBytes, referenceCount, List.map_cons, List.sum_cons] at ih ⊢
    omega

/-- The stored text of a result is linear in its content and in the number of its parts. -/
theorem len_resultText_le (result : BatchRecognitionResult) : Text.len (resultText floats result) ≤
    6 * (Text.len result.text + (result.segments.map segmentBytes).sum +
      result.readableSegments.elim 0 readableBytes) + 21 * result.readableSegments.elim 0 referenceCount +
        141 * result.segments.length + 113 * result.readableSegments.elim 0 List.length + 200 := by
  have hkeys : Text.bytes (Json.quoted "text") = 6 ∧ Text.bytes (Json.quoted "duration_millis") = 17 ∧
      Text.bytes (Json.quoted "provider_duration_millis") = 26 ∧ Text.bytes (Json.quoted "segments") = 10 ∧
        Text.bytes (Json.quoted "readable_segments") = 19 := by decide
  have htext := Json.bytes_write_string_le result.text
  have hduration := Json.bytes_write_ofU64_le result.durationMillis
  have hprovider : Text.bytes (Json.ofOption .ofU64 result.providerDurationMillis).write ≤ 20 :=
    Json.bytes_write_ofOption_le (by decide) fun n _ => Json.bytes_write_ofU64_le n
  have hsegments := Json.bytes_write_array_le fun segment (_ : segment ∈ result.segments) =>
    bytes_segmentRecord_le floats segment
  have hreadable : Text.bytes (Json.ofOption (fun segments => .array (segments.map (·.toJson)))
      (result.readableSegments.map (·.map ReadableRecord.ofSegment))).write ≤
        6 * result.readableSegments.elim 0 readableBytes + 21 * result.readableSegments.elim 0 referenceCount +
          113 * result.readableSegments.elim 0 List.length + 4 := by
    refine Json.bytes_write_ofOption_le (by omega) fun records hrecords => ?_
    obtain ⟨segments, hsegments, rfl⟩ := Option.map_eq_some_iff.mp hrecords
    have harray := Json.bytes_write_array_le (k := 1) fun segment (_ : segment ∈ segments) =>
      (bytes_readableRecord_le segment).trans_eq (by rw [Nat.one_mul])
    have hsum := sum_readable segments
    rw [List.map_map, hsegments, Option.elim_some, Option.elim_some, Option.elim_some]
    simp only [Function.comp_def]
    omega
  rw [resultText, Json.toText, Text.len_ofList]
  refine (Json.bytes_write_object_le _).trans ?_
  simp only [ResultRecord.ofResult, List.map_map, List.map_cons, List.map_nil, List.sum_cons, List.sum_nil, hkeys,
    Function.comp_def] at hsegments ⊢
  omega

end Sizes

section Inclusion

theorem checkedAdd_eq_some {a b c : ℕ} (h : checkedAdd a b = some c) : a + b = c := by
  unfold checkedAdd at h
  split at h
  · exact Option.some.inj h
  · cases h

/-- One more segment of a valid timeline: its own bounds, and the rest of the timeline after it. -/
theorem validSegments_cons {duration previousEnd : UInt64} {bytes total : ℕ} {segment : BatchSegment}
    {rest : List BatchSegment} (h : validSegments duration previousEnd bytes (segment :: rest) = some total) :
    bytes + segmentBytes segment ≤ MAX_TRANSCRIPT_BYTES ∧
      ¬ (segment.startMillis < previousEnd ∨ segment.endMillis ≤ segment.startMillis ∨
        segment.endMillis > duration ∨ segment.text = "" ∨
          segment.confidence.any (fun value => !validConfidence value) = true) ∧
        validSegments duration segment.endMillis (bytes + segmentBytes segment) rest = some total := by
  unfold validSegments at h
  split at h
  · cases h
  · rename_i next hnext
    have hbytes : bytes + segmentBytes segment = next := by
      obtain ⟨withText, htext, hspeaker⟩ := Option.bind_eq_some_iff.mp hnext
      have htext := checkedAdd_eq_some htext
      cases hvalue : segment.speaker with
      | none =>
        rw [hvalue, Option.elim_none, Option.some.injEq] at hspeaker
        simp only [segmentBytes, hvalue, Option.elim_none]
        omega
      | some speaker =>
        rw [hvalue, Option.elim_some] at hspeaker
        have hspeaker := checkedAdd_eq_some hspeaker
        simp only [segmentBytes, hvalue, Option.elim_some]
        omega
    split at h
    · cases h
    · rename_i hvalid
      rw [hbytes]
      simp only [not_or] at hvalid ⊢
      exact ⟨not_lt.mp hvalid.2.2.2.2.1, ⟨hvalid.1, hvalid.2.1, hvalid.2.2.1, hvalid.2.2.2.1, hvalid.2.2.2.2.2⟩, h⟩

/-- A valid timeline counts its content. -/
theorem validSegments_bytes {duration previousEnd : UInt64} {bytes total : ℕ} {segments : List BatchSegment}
    (h : validSegments duration previousEnd bytes segments = some total) :
    bytes + (segments.map segmentBytes).sum = total := by
  induction segments generalizing previousEnd bytes with
  | nil => simpa [validSegments] using h
  | cons segment rest ih =>
    obtain ⟨_, _, hrest⟩ := validSegments_cons h
    have hsum := ih hrest
    rw [List.map_cons, List.sum_cons]
    omega

/-- The content of a valid timeline is within the budget. -/
theorem validSegments_le {duration previousEnd : UInt64} {bytes total : ℕ} {segments : List BatchSegment}
    (h : validSegments duration previousEnd bytes segments = some total) (hle : bytes ≤ MAX_TRANSCRIPT_BYTES) :
    total ≤ MAX_TRANSCRIPT_BYTES := by
  induction segments generalizing previousEnd bytes with
  | nil => exact (Option.some.inj h).symm.trans_le hle
  | cons segment rest ih =>
    obtain ⟨hnext, _, hrest⟩ := validSegments_cons h
    exact ih hrest hnext

/-- The ledger accepts a valid timeline when it accepts its speakers. -/
theorem validateSegments_of_valid {duration previousEnd : UInt64} {bytes total : ℕ} {segments : List BatchSegment}
    (h : validSegments duration previousEnd bytes segments = some total) :
    validateSegments duration previousEnd segments = .ok () ↔
      ∀ segment ∈ segments, ∀ speaker ∈ segment.speaker, validSpeaker speaker = true := by
  induction segments generalizing previousEnd bytes with
  | nil => simp [validateSegments]
  | cons segment rest ih =>
    obtain ⟨hbytes, hvalid, hrest⟩ := validSegments_cons h
    have htext : ¬ Text.len segment.text > MAX_TEXT_BYTES := by
      simp only [segmentBytes, MAX_TRANSCRIPT_BYTES] at hbytes
      simp only [MAX_TEXT_BYTES]
      omega
    rw [validateSegments, ite_error_eq_ok, ih hrest, List.forall_mem_cons]
    refine and_congr_left fun _ => ?_
    simp only [not_or] at hvalid ⊢
    cases segment.speaker <;> simp [hvalid, htext]

/-- The ledger accepts a valid readable projection, and counts its references. -/
theorem validateReadable_of_valid {duration previousEnd : UInt64} {count references bytes : ℕ}
    {segments : List BatchReadableSegment}
    (h : validReadable duration count previousEnd references bytes segments = true) :
    validateReadable duration count previousEnd references segments =
        .ok (references + referenceCount segments) ∧
      (references ≤ Speech.Application.MAX_READABLE_REFERENCES →
        references + referenceCount segments ≤ Speech.Application.MAX_READABLE_REFERENCES) ∧
      (bytes ≤ MAX_TRANSCRIPT_BYTES → bytes + readableBytes segments ≤ MAX_TRANSCRIPT_BYTES) := by
  induction segments generalizing previousEnd references bytes with
  | nil => exact ⟨rfl, id, id⟩
  | cons segment rest ih =>
    unfold validReadable at h
    split at h
    · rename_i nextReferences nextBytes hreferences hbytes
      simp only [Bool.and_eq_true, decide_eq_true_eq] at h
      obtain ⟨⟨⟨⟨⟨⟨⟨hstart, hend⟩, hduration⟩, htext⟩, hcounted⟩, hcontent⟩, hsources⟩, hrest⟩ := h
      obtain ⟨hok, hcount, hsize⟩ := ih hrest
      have hreferencesSum := checkedAdd_eq_some hreferences
      have hbytesSum := checkedAdd_eq_some hbytes
      have hlen : ¬ Text.len segment.text > MAX_TEXT_BYTES := by
        simp only [MAX_TRANSCRIPT_BYTES] at hcontent
        simp only [MAX_TEXT_BYTES]
        omega
      have hcountSum : references + referenceCount (segment :: rest) = nextReferences + referenceCount rest := by
        simp only [referenceCount, List.map_cons, List.sum_cons]
        omega
      have hbytesCons : bytes + readableBytes (segment :: rest) = nextBytes + readableBytes rest := by
        simp only [readableBytes, List.map_cons, List.sum_cons]
        omega
      rw [hcountSum, hbytesCons]
      refine ⟨?_, fun _ => hcount hcounted, fun _ => hsize hcontent⟩
      simp only [validateReadable, hreferences]
      rw [if_neg]
      · exact hok
      · simp only [not_or]
        exact ⟨UInt64.not_lt.mpr hstart, UInt64.not_le.mpr hend, UInt64.not_lt.mpr hduration, htext, hlen,
          by simp [hsources]⟩
    · cases h

/-- What the application checks of a result. -/
structure Accepted (snapshot : BatchJobSnapshot) (result : BatchRecognitionResult) (textBytes : ℕ) : Prop where
  profile : result.profile = snapshot.job.profile
  duration : result.durationMillis = snapshot.authoritativeDurationMillis
  text : Text.len result.text ≤ MAX_TRANSCRIPT_BYTES
  count : result.segments.length ≤ Speech.Application.MAX_SEGMENTS
  segments : validSegments result.durationMillis 0 (Text.len result.text) result.segments = some textBytes
  readable : ∀ segments ∈ result.readableSegments, segments.length ≤ Speech.Application.MAX_SEGMENTS ∧
    validReadable result.durationMillis result.segments.length 0 0 textBytes segments = true

theorem accepted_of_validResult {snapshot : BatchJobSnapshot} {result : BatchRecognitionResult}
    (h : validResult snapshot result = true) : ∃ textBytes, Accepted snapshot result textBytes := by
  unfold validResult at h
  split at h
  · cases h
  · rename_i hbounds
    simp only [not_or, not_not, not_lt] at hbounds
    obtain ⟨hprofile, hduration, htext, hcount⟩ := hbounds
    split at h
    · cases h
    · rename_i textBytes hsegments
      refine ⟨textBytes, hprofile, hduration, htext, hcount, hsegments, fun segments hreadable => ?_⟩
      rw [Option.mem_def.mp hreadable, Option.all_some, Bool.and_eq_true, decide_eq_true_eq] at h
      exact h

section Accepted

variable {snapshot : BatchJobSnapshot} {result : BatchRecognitionResult} {textBytes : ℕ}
  (h : Accepted snapshot result textBytes)

include h

/-- The content of an accepted result is within the budget, and its parts are counted. -/
theorem Accepted.content : Text.len result.text + (result.segments.map segmentBytes).sum +
    result.readableSegments.elim 0 readableBytes ≤ MAX_TRANSCRIPT_BYTES ∧
      result.readableSegments.elim 0 referenceCount ≤ Speech.Application.MAX_READABLE_REFERENCES ∧
        result.readableSegments.elim 0 List.length ≤ Speech.Application.MAX_SEGMENTS := by
  have hbytes := validSegments_bytes h.segments
  have hle := validSegments_le h.segments h.text
  cases hreadable : result.readableSegments with
  | none =>
    simp only [Option.elim_none]
    exact ⟨by omega, Nat.zero_le _, Nat.zero_le _⟩
  | some segments =>
    obtain ⟨hcount, hvalid⟩ := h.readable segments hreadable
    obtain ⟨_, hreferences, hcontent⟩ := validateReadable_of_valid hvalid
    have hreferences := hreferences (Nat.zero_le _)
    have hcontent := hcontent hle
    simp only [Option.elim_some]
    exact ⟨by omega, by omega, hcount⟩

/-- An accepted result is within the cap of its stored text. -/
theorem Accepted.len_resultText_le (floats : FloatText) :
    Text.len (resultText floats result) ≤ MAX_SERIALIZED_RESULT_BYTES := by
  have hlen := Storage.len_resultText_le floats result
  have hsegments := h.count
  obtain ⟨hcontent, hreferences, hreadable⟩ := h.content
  simp only [MAX_TRANSCRIPT_BYTES, Speech.Application.MAX_READABLE_REFERENCES, Speech.Application.MAX_SEGMENTS,
    MAX_SERIALIZED_RESULT_BYTES] at *
  omega

/-- The ledger accepts an accepted result when it accepts its speakers. -/
theorem Accepted.validateResult_iff : validateResult result = .ok () ↔
    ∀ segment ∈ result.segments, ∀ speaker ∈ segment.speaker, validSpeaker speaker = true := by
  have hprojection : ∃ references, validateProjection result = .ok references ∧
      references ≤ MAX_READABLE_REFERENCES := by
    unfold validateProjection
    cases hreadable : result.readableSegments with
    | none => exact ⟨0, rfl, Nat.zero_le _⟩
    | some segments =>
      obtain ⟨hcount, hvalid⟩ := h.readable segments hreadable
      obtain ⟨hok, hreferences, _⟩ := validateReadable_of_valid hvalid
      exact ⟨_, (if_neg (not_lt.mpr hcount)).trans hok, hreferences (Nat.zero_le _)⟩
  rw [validateResult_eq_ok, validateSegments_of_valid h.segments]
  constructor
  · rintro ⟨_, _, hspeakers, _⟩
    exact hspeakers
  · intro hspeakers
    exact ⟨h.text, h.count, hspeakers, hprojection⟩

end Accepted

end Inclusion

section Outcomes

/-- A snapshot with another state and the fields which go with it. -/
def settle (snapshot : BatchJobSnapshot) (state : BatchJobState) (providerReference : Option ProviderReference)
    (retryAfterMillis : Option UInt64) (result : Option BatchRecognitionResult) : BatchJobSnapshot :=
  { snapshot with job := { snapshot.job with state }, providerReference, retryAfterMillis, result }

/-- What the ledger asks of an outcome beyond what the application checks. -/
def Recordable (snapshot : BatchJobSnapshot) (projection : BatchResultProjection) : Recognition → Prop
  | .ok result => validateReference result.providerReference = .ok () ∧
      (validResult snapshot result = true → (projection.validate snapshot.id result).isOk = true →
        ∀ segment ∈ result.segments, ∀ speaker ∈ segment.speaker, validSpeaker speaker = true)
  | .error (.knownNotAccepted retryable _ reference retryAfterMillis) =>
    validateReference reference = .ok () ∧
      (retryable = true → ∀ delay ∈ retryAfterMillis, delay ≤ MAX_RETRY_AFTER_MILLIS)
  | .error (.knownAcceptedTerminal _ reference) => validateReference reference = .ok ()
  | .error (.unknownAfterSend _ reference) => validateReference reference = .ok ()

variable {codec : UuidCodec} {floats : FloatText} {snapshot : BatchJobSnapshot} {n : NonZeroU32}

/-- A storable snapshot stays storable when the fields which change pass their own checks. -/
theorem storable_settle (h : Storable codec floats snapshot) {state : BatchJobState}
    {reference : Option ProviderReference} {delay : Option UInt64} {result : Option BatchRecognitionResult} :
    Storable codec floats (settle snapshot state reference delay result) ↔
      validateReference reference = .ok () ∧ validateRetryAfter state delay = .ok () ∧
        validateResultPresence state result.isSome = .ok () ∧
          ∀ value ∈ result, ∃ text,
            serializeResult floats (settle snapshot state reference delay result) value = .ok text := by
  constructor
  · intro hsettled
    exact ⟨hsettled.reference, hsettled.retryAfter, hsettled.presence, hsettled.result⟩
  · rintro ⟨hreference, hdelay, hpresence, hresult⟩
    exact { h with reference := hreference, retryAfter := hdelay, presence := hpresence, result := hresult }

/-- A state without a result or a delay is stored when its reference is. -/
theorem storable_settle_failed (h : Storable codec floats snapshot) {state : BatchJobState}
    {reference : Option ProviderReference} (hstate : state.status ≠ .completed) :
    Storable codec floats (settle snapshot state reference none none) ↔ validateReference reference = .ok () := by
  rw [storable_settle h]
  simp [validateRetryAfter, validateResultPresence, hstate]

/-- A retryable state is stored when its reference and its delay are. -/
theorem storable_settle_retryable (h : Storable codec floats snapshot) {failure : BatchFailure}
    {reference : Option ProviderReference} {delay : Option UInt64} :
    Storable codec floats (settle snapshot (.retryable n failure) reference delay none) ↔
      validateReference reference = .ok () ∧ ∀ value ∈ delay, value ≤ MAX_RETRY_AFTER_MILLIS := by
  rw [storable_settle h]
  cases delay <;> simp [validateRetryAfter, validateResultPresence, BatchJobState.status]

/-- A completed state is stored when its reference and the speakers of its result are. -/
theorem storable_settle_completed (h : Storable codec floats snapshot) {result : BatchRecognitionResult}
    (hvalid : validResult snapshot result = true) :
    Storable codec floats (settle snapshot (.completed n) result.providerReference none (some result)) ↔
      validateReference result.providerReference = .ok () ∧
        ∀ segment ∈ result.segments, ∀ speaker ∈ segment.speaker, validSpeaker speaker = true := by
  obtain ⟨textBytes, haccepted⟩ := accepted_of_validResult hvalid
  have hlen := haccepted.len_resultText_le floats
  rw [storable_settle h, ← haccepted.validateResult_iff]
  simp only [validateRetryAfter, validateResultPresence, BatchJobState.status, Option.any_none, Option.mem_def,
    Option.some.injEq, forall_eq', serializeResult_eq_ok]
  constructor
  · rintro ⟨hreference, _, _, _, _, hresult, _⟩
    exact ⟨hreference, hresult⟩
  · rintro ⟨hreference, hresult⟩
    exact ⟨hreference, rfl, rfl, _, ⟨haccepted.profile, haccepted.duration, rfl⟩, hresult, hlen, rfl⟩

/-- A valid result which the projection accepts completes its claim. -/
theorem applyRecognitionOutcome_completed (hstate : snapshot.job.state = .submitting n)
    {result : BatchRecognitionResult} {projection : BatchResultProjection} (hvalid : validResult snapshot result = true)
    (hprojection : (projection.validate snapshot.id result).isOk = true) :
    applyRecognitionOutcome snapshot (.ok result) projection =
      .ok (settle snapshot (.completed n) result.providerReference none (some result)) := by
  have hsubmission := BatchJob.submissionAttempt_of_submitting hstate
  have hsame : validResult { snapshot with retryAfterMillis := none } result = validResult snapshot result := rfl
  simp [applyRecognitionOutcome, hsame, hvalid, hprojection, BatchJob.complete, hsubmission, Except.map, settle]

/-- A storable claim settles into a snapshot which is storable when its outcome is recordable. -/
theorem applyRecognitionOutcome_settle (hstate : snapshot.job.state = .submitting n)
    (hresult : snapshot.result = none) (recognition : Recognition) (projection : BatchResultProjection) :
    ∃ replacement, applyRecognitionOutcome snapshot recognition projection = .ok replacement ∧
      (Storable codec floats snapshot →
        (Storable codec floats replacement ↔ Recordable snapshot projection recognition)) := by
  have hsubmission := BatchJob.submissionAttempt_of_submitting hstate
  cases recognition with
  | ok result =>
    have hsame : validResult { snapshot with retryAfterMillis := none } result = validResult snapshot result := rfl
    by_cases hprojectable : (validResult snapshot result &&
        (projection.validate snapshot.id result).isOk) = true
    · obtain ⟨hvalid, hprojection⟩ := Bool.and_eq_true_iff.mp hprojectable
      refine ⟨_, applyRecognitionOutcome_completed hstate hvalid hprojection, fun hstorable => ?_⟩
      rw [storable_settle_completed hstorable hvalid]
      simp [Recordable, hvalid, hprojection]
    · refine ⟨settle snapshot (.failed n (batchFailure (if validResult snapshot result then
        "PROVIDER_RESULT_PROJECTION_FAILED" else "INVALID_RECOGNITION_RESULT"))) result.providerReference none none,
        ?_, fun hstorable => ?_⟩
      · simp [applyRecognitionOutcome, hsame, hprojectable, BatchJob.fail, hsubmission, Except.map, settle]
      · rw [storable_settle_failed hstorable (by simp [BatchJobState.status])]
        have hnot : validResult snapshot result = true → ¬ (projection.validate snapshot.id result).isOk = true :=
          fun hvalid hprojection => hprojectable (Bool.and_eq_true_iff.mpr ⟨hvalid, hprojection⟩)
        exact ⟨fun h => ⟨h, fun hvalid hprojection => absurd hprojection (hnot hvalid)⟩, fun h => h.1⟩
  | error failure =>
    cases failure with
    | knownNotAccepted retryable code reference delay =>
      cases retryable with
      | true =>
        refine ⟨settle snapshot (.retryable n (batchFailure code)) reference delay none, ?_, fun hstorable => ?_⟩
        · simp [applyRecognitionOutcome, BatchJob.recordRetryableFailure, hsubmission, Except.map, settle, hresult]
        · rw [storable_settle_retryable hstorable]
          simp [Recordable]
      | false =>
        refine ⟨settle snapshot (.failed n (batchFailure code)) reference none none, ?_, fun hstorable => ?_⟩
        · simp [applyRecognitionOutcome, BatchJob.fail, hsubmission, Except.map, settle, hresult]
        · rw [storable_settle_failed hstorable (by simp [BatchJobState.status])]
          simp [Recordable]
    | knownAcceptedTerminal code reference =>
      refine ⟨settle snapshot (.failed n (batchFailure code)) reference none none, ?_, fun hstorable => ?_⟩
      · simp [applyRecognitionOutcome, BatchJob.fail, hsubmission, Except.map, settle, hresult]
      · exact storable_settle_failed hstorable (by simp [BatchJobState.status])
    | unknownAfterSend code reference =>
      refine ⟨settle snapshot (.outcomeUnknown n (.submission (batchFailure code))) reference none none, ?_,
        fun hstorable => ?_⟩
      · simp [applyRecognitionOutcome, BatchJob.recordUnknownOutcome, hsubmission, Except.map, settle, hresult]
      · exact storable_settle_failed hstorable (by simp [BatchJobState.status])

/-- A storable claim has no result yet. -/
theorem result_of_submitting (h : Storable codec floats snapshot) (hstate : snapshot.job.state = .submitting n) :
    snapshot.result = none := by
  have hpresence := h.presence
  rw [validateResultPresence, ite_error_eq_ok, hstate] at hpresence
  simpa [BatchJobState.status] using hpresence

/-- The claim of a first attempt. -/
def plainClaim : BatchJobSnapshot :=
  { plainSnapshot 1 with job := { (plainSnapshot 1).job with state := .submitting .MIN }, result := none }

/-- A result whose speaker has an empty name. -/
def namelessSpeaker : BatchRecognitionResult where
  profile := plainProfile
  text := "a"
  durationMillis := 8
  providerDurationMillis := none
  segments := [⟨0, 8, "a", none, some ""⟩]
  readableSegments := none
  providerReference := none

theorem storable_plainClaim (floats : FloatText) : Storable .canonicalForms floats plainClaim where
  id := ⟨⟨"00000000-0000-0000-0000-000000000000", by decide⟩, by decide⟩
  handle := by decide
  profile := by decide
  keyterms := by decide
  reference := rfl
  retryAfter := by decide
  presence := by decide
  result := by simp [plainClaim]
  version := by decide
  duration := by decide
  revision := by decide

/-- A paid result which the application and the gateway's projection accept, and the ledger refuses. -/
theorem namelessSpeaker_notStored :
    (∃ record, WritableRecord.tryFrom .canonicalForms .bits plainClaim = .ok record) ∧
      ∃ replacement, applyRecognitionOutcome plainClaim (.ok namelessSpeaker)
          (Contracts.gatewayBatchResultProjection .canonicalForms .bits) = .ok replacement ∧
        replacement.job.state = .completed .MIN ∧
          ∀ record, WritableRecord.tryFrom .canonicalForms .bits replacement ≠ .ok record := by
  have hvalid : validResult plainClaim namelessSpeaker = true := by decide +kernel
  have hprojection : ((Contracts.gatewayBatchResultProjection .canonicalForms .bits).validate plainClaim.id
      namelessSpeaker).isOk = true := by decide +kernel
  refine ⟨storable_iff.mp (storable_plainClaim _), _, applyRecognitionOutcome_completed rfl hvalid hprojection, rfl,
    fun record hrecord => ?_⟩
  have hstorable := storable_iff.mpr ⟨record, hrecord⟩
  have hspeakers := ((storable_settle_completed (storable_plainClaim _) hvalid).mp hstorable).2
  have hspeaker := hspeakers _ List.mem_cons_self "" rfl
  exact absurd hspeaker (by decide)

/-- The outcome of a storable claim is recorded in a snapshot, which is storable if and only if its reference, its
retry delay and the speakers of a completed result are within the bounds of the ledger. -/
theorem paidOutcome_storable_iff {record : WritableRecord codec}
    (hclaimed : WritableRecord.tryFrom codec floats snapshot = .ok record)
    (hstate : snapshot.job.state = .submitting n) (recognition : Recognition) (projection : BatchResultProjection) :
    ∃ replacement, applyRecognitionOutcome snapshot recognition projection = .ok replacement ∧
      ((∃ record, WritableRecord.tryFrom codec floats replacement = .ok record) ↔
        Recordable snapshot projection recognition) := by
  have hstorable : Storable codec floats snapshot := storable_iff.mpr ⟨record, hclaimed⟩
  obtain ⟨replacement, happlied, hiff⟩ := applyRecognitionOutcome_settle hstate
    (result_of_submitting hstorable hstate) recognition projection
  exact ⟨replacement, happlied, storable_iff.symm.trans (hiff hstorable)⟩

/-- An unknown outcome without a reference is stored. -/
theorem paidOutcome_storable_iff_unknown :
    ∃ replacement, applyRecognitionOutcome plainClaim (.error (.unknownAfterSend "NETWORK_ERROR" none))
        (Contracts.gatewayBatchResultProjection .canonicalForms .bits) = .ok replacement ∧
      ∃ record, WritableRecord.tryFrom .canonicalForms .bits replacement = .ok record := by
  obtain ⟨record, hrecord⟩ := storable_iff.mp (storable_plainClaim .bits)
  obtain ⟨replacement, happlied, hiff⟩ := paidOutcome_storable_iff hrecord (n := .MIN) rfl
    (.error (.unknownAfterSend "NETWORK_ERROR" none)) (Contracts.gatewayBatchResultProjection .canonicalForms .bits)
  exact ⟨replacement, happlied, hiff.mpr rfl⟩

/-- A result the application accepts is within the cap of its stored text: the cap never refuses it, so it is
serialized whenever it belongs to the snapshot and is valid. -/
theorem validResult_bounded {result : BatchRecognitionResult} (h : validResult snapshot result = true)
    (floats : FloatText) :
    Text.len (resultText floats result) ≤ MAX_SERIALIZED_RESULT_BYTES ∧
      boundedJson (resultText floats result) = .ok () ∧
        ∀ stored : BatchJobSnapshot, serializeResult floats stored result = .ok (resultText floats result) ↔
          (result.profile = stored.job.profile ∧ result.durationMillis = stored.authoritativeDurationMillis ∧
            result.providerReference = stored.providerReference) ∧ validateResult result = .ok () := by
  obtain ⟨textBytes, haccepted⟩ := accepted_of_validResult h
  have hlen := haccepted.len_resultText_le floats
  refine ⟨hlen, if_neg (not_lt.mpr hlen), fun stored => ?_⟩
  rw [serializeResult_eq_ok]
  constructor
  · rintro ⟨hown, hvalid, _, _⟩
    exact ⟨hown, hvalid⟩
  · rintro ⟨hown, hvalid⟩
    exact ⟨hown, hvalid, hlen, rfl⟩

/-- A short result is within the cap. -/
theorem validResult_bounded_short :
    Text.len (resultText .bits namelessSpeaker) ≤ MAX_SERIALIZED_RESULT_BYTES := by
  have hvalid : validResult plainClaim namelessSpeaker = true := by decide +kernel
  exact (validResult_bounded hvalid .bits).1

end Outcomes

end Voicetext.Gateway.Storage
