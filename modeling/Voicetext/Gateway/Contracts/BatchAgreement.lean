import Voicetext.Common.Fallible
import Voicetext.Gateway.Contracts.BatchOutbound

/-!
# Encoder and decoder of batch responses agree

What the server writes its consumer reads: every bound the encoder enforces implies the decoder's check,
and every field is found again in the value of the text, with milliseconds read as seconds.
-/

namespace Voicetext.Gateway.Contracts

open Voicetext.Common Voicetext.Common.Json Voicetext.Gateway.Contracts.BatchOutbound
open Voicetext.Gateway.Storage (UuidCodec)

/-- The utterance a segment is read as. -/
def OutboundSegment.received (segment : OutboundSegment) : Utterance :=
  ⟨BatchResponse.millisecondsToSeconds segment.startMillis,
    BatchResponse.millisecondsToSeconds segment.endMillis, segment.text, segment.confidence⟩

def OutboundReadableSegment.received (segment : OutboundReadableSegment) : ReadableSegment :=
  ⟨BatchResponse.millisecondsToSeconds segment.startMillis,
    BatchResponse.millisecondsToSeconds segment.endMillis, segment.text, segment.sourceSegmentIndices⟩

def OutboundTranscription.received (result : OutboundTranscription) : BatchTranscription :=
  ⟨BatchResponse.millisecondsToSeconds result.durationMillis, result.segments.map (·.received),
    result.readableSegments.map (·.received), result.providerRequestId⟩

/-- The response a consumer is to read: the same data, with times in seconds. -/
def OutboundBatchResponse.received {codec : UuidCodec} : OutboundBatchResponse codec → BatchTaskResult codec
  | .pending jobId nextAction retryAfterMs => .pending jobId nextAction retryAfterMs
  | .failed jobId errorCode => .failed jobId errorCode
  | .completed jobId result => .completed jobId result.received

section Readings

variable {codec : UuidCodec} (numbers : WireNumbers)

theorem reads_seconds (milliseconds : UInt64) :
    Reads numbers.toFloatText asSeconds (seconds milliseconds)
      (BatchResponse.millisecondsToSeconds milliseconds) := by
  obtain ⟨literal, hliteral, hvalue⟩ := numbers.canonical_ofThousandths milliseconds.toNat
  refine ⟨.number literal, by simp [seconds, toValue, hliteral], ?_⟩
  rw [asSeconds, hvalue, NumberLiteral.toRat_ofThousandths]
  rfl

theorem reads_utteranceV2 {segment : OutboundSegment} (h : ∀ x ∈ segment.confidence, x.isFinite = true) :
    Reads numbers.toFloatText (Utterance.ofJson numbers) (utteranceV2 numbers segment) segment.received := by
  obtain ⟨start, hstart, hreadStart⟩ := reads_seconds numbers segment.startMillis
  obtain ⟨stop, hstop, hreadStop⟩ := reads_seconds numbers segment.endMillis
  unfold utteranceV2
  cases hconfidence : segment.confidence with
  | none =>
    have hvalues : HaveValues numbers.toFloatText
        [("start", seconds segment.startMillis), ("end", seconds segment.endMillis),
          ("transcript", .string segment.text)]
        [("start", start), ("end", stop), ("transcript", .string segment.text)] := by
      simp [hstart, hstop]
    refine reads_object (by simp) hvalues ?_
    intro object hperm
    have hfields : fieldsOr ["start", "end", "transcript", "confidence"] 3
        (unalias [("start_ms", "start"), ("end_ms", "end"), ("text", "transcript")] (.object object)) =
          some [some start, some stop, some (.string segment.text), none] :=
      (fields_perm (hperm.map _) (by simp [List.lookup_cons]) _).trans (by simp [fields, List.lookup_cons])
    rw [Utterance.ofJson, hfields]
    simp [required, hreadStart, hreadStop, asString, Json.optional, OutboundSegment.received, hconfidence]
  | some x =>
    obtain ⟨confidence, hvalue, hread⟩ := reads_confidence numbers (h x hconfidence)
    have hvalues : HaveValues numbers.toFloatText
        [("start", seconds segment.startMillis), ("end", seconds segment.endMillis),
          ("transcript", .string segment.text), ("confidence", .ofF64 numbers.toFloatText x)]
        [("start", start), ("end", stop), ("transcript", .string segment.text), ("confidence", confidence)] := by
      simp [hstart, hstop, hvalue]
    refine reads_object (by simp) hvalues ?_
    intro object hperm
    have hfields : fieldsOr ["start", "end", "transcript", "confidence"] 3
        (unalias [("start_ms", "start"), ("end_ms", "end"), ("text", "transcript")] (.object object)) =
          some [some start, some stop, some (.string segment.text), some confidence] :=
      (fields_perm (hperm.map _) (by simp [List.lookup_cons]) _).trans (by simp [fields, List.lookup_cons])
    have hoptional : Json.optional (asF64 numbers) (some confidence) = some (some x) := optional_some rfl hread
    rw [Utterance.ofJson, hfields]
    simp [required, hreadStart, hreadStop, asString, hoptional, OutboundSegment.received, hconfidence]

theorem reads_readableV2 (segment : OutboundReadableSegment) :
    Reads numbers.toFloatText ReadableSegment.ofJson (readableV2 segment) segment.received := by
  obtain ⟨start, hstart, hreadStart⟩ := reads_seconds numbers segment.startMillis
  obtain ⟨stop, hstop, hreadStop⟩ := reads_seconds numbers segment.endMillis
  obtain ⟨indices, hindices, hreadIndices⟩ : Reads numbers.toFloatText (asArray asU64)
      (.array (segment.sourceSegmentIndices.map .ofU64)) (segment.sourceSegmentIndices.map id) :=
    reads_array fun n _ => .of_self (toValue_ofU64 n) (asU64_ofU64 n)
  rw [List.map_id] at hreadIndices
  have hvalues : HaveValues numbers.toFloatText
      [("start", seconds segment.startMillis), ("end", seconds segment.endMillis),
        ("transcript", .string segment.text),
        ("source_utterance_indices", .array (segment.sourceSegmentIndices.map .ofU64))]
      [("start", start), ("end", stop), ("transcript", .string segment.text),
        ("source_utterance_indices", indices)] := by
    simp [hstart, hstop, hindices]
  refine reads_record ["start", "end", "transcript", "source_utterance_indices"] (by simp) hvalues ?_
  intro object hfields
  rw [ReadableSegment.ofJson, hfields]
  simp [fields, required, hreadStart, hreadStop, asString, hreadIndices, OutboundReadableSegment.received]

/-- The result of the second contract as it is read. -/
def OutboundTranscription.receivedV2 (result : OutboundTranscription) : ResultV2 where
  provider := BatchIdentity.deepgramNova3MultiV2.provider
  model := BatchIdentity.deepgramNova3MultiV2.model
  language := BatchIdentity.deepgramNova3MultiV2.language
  text := result.text
  durationSeconds := BatchResponse.millisecondsToSeconds result.durationMillis
  utterances := result.segments.map (·.received)
  readableSegments := result.readableSegments.map (·.received)

theorem reads_resultV2 {result : OutboundTranscription}
    (h : ∀ segment ∈ result.segments, ∀ x ∈ segment.confidence, x.isFinite = true) :
    Reads numbers.toFloatText (ResultV2.ofJson numbers) (resultV2 numbers result) result.receivedV2 := by
  obtain ⟨duration, hduration, hreadDuration⟩ := reads_seconds numbers result.durationMillis
  obtain ⟨utterances, hutterances, hreadUtterances⟩ :=
    reads_array fun segment hsegment => reads_utteranceV2 numbers (h segment hsegment)
  obtain ⟨readable, hreadable, hreadReadable⟩ : Reads numbers.toFloatText (asArray ReadableSegment.ofJson)
      (.array (result.readableSegments.map readableV2)) (result.readableSegments.map (·.received)) :=
    reads_array fun segment _ => reads_readableV2 numbers segment
  have hvalues : HaveValues numbers.toFloatText
      [("provider", .string BatchIdentity.deepgramNova3MultiV2.provider),
        ("model", .string BatchIdentity.deepgramNova3MultiV2.model),
        ("language", .string BatchIdentity.deepgramNova3MultiV2.language), ("text", .string result.text),
        ("duration_seconds", seconds result.durationMillis),
        ("utterances", .array (result.segments.map (utteranceV2 numbers))),
        ("readable_segments", .array (result.readableSegments.map readableV2))]
      [("provider", .string BatchIdentity.deepgramNova3MultiV2.provider),
        ("model", .string BatchIdentity.deepgramNova3MultiV2.model),
        ("language", .string BatchIdentity.deepgramNova3MultiV2.language), ("text", .string result.text),
        ("duration_seconds", duration), ("utterances", utterances), ("readable_segments", readable)] := by
    simp [hduration, hutterances, hreadable]
  refine reads_record ["provider", "model", "language", "text", "duration_seconds", "utterances",
    "readable_segments"] (by simp) hvalues ?_
  intro object hfields
  rw [ResultV2.ofJson, fieldsOr, hfields]
  · simp [fields, required, defaulted, asString, hreadDuration, hreadUtterances, hreadReadable,
      OutboundTranscription.receivedV2]
  · simp

/-- The segment of the third contract as it is read. -/
def OutboundSegment.receivedV3 (item : OutboundSegment × ℕ) : SegmentV3 :=
  ⟨UInt64.ofNat item.2, item.1.startMillis, item.1.endMillis, item.1.text, item.1.confidence⟩

theorem reads_segmentV3 {item : OutboundSegment × ℕ} (h : ∀ x ∈ item.1.confidence, x.isFinite = true) :
    Reads numbers.toFloatText (SegmentV3.ofJson numbers) (segmentV3 numbers item)
      (OutboundSegment.receivedV3 item) := by
  obtain ⟨confidence, hvalue, hread⟩ : Reads numbers.toFloatText (fun doc => Json.optional (asF64 numbers) (some doc))
      (.ofOption (.ofF64 numbers.toFloatText) item.1.confidence) item.1.confidence := by
    cases hconfidence : item.1.confidence with
    | none => exact ⟨.null, rfl, rfl⟩
    | some x =>
      obtain ⟨value, hvalue, hread⟩ := reads_confidence numbers (h x hconfidence)
      exact ⟨value, hvalue, optional_some rfl hread⟩
  have hvalues : HaveValues numbers.toFloatText
      [("index", .ofU64 (UInt64.ofNat item.2)), ("start_ms", .ofU64 item.1.startMillis),
        ("end_ms", .ofU64 item.1.endMillis), ("text", .string item.1.text),
        ("confidence", .ofOption (.ofF64 numbers.toFloatText) item.1.confidence)]
      [("index", .ofU64 (UInt64.ofNat item.2)), ("start_ms", .ofU64 item.1.startMillis),
        ("end_ms", .ofU64 item.1.endMillis), ("text", .string item.1.text), ("confidence", confidence)] := by
    simp [hvalue]
  refine reads_record ["index", "start_ms", "end_ms", "text", "confidence"] (by simp) hvalues ?_
  intro object hfields
  rw [SegmentV3.ofJson, fieldsOr, hfields]
  · simp [fields, required, asString, hread, OutboundSegment.receivedV3]
  · simp

/-- The result of the third contract as it is read. -/
def OutboundTranscription.receivedV3 (identity : BatchIdentity) (jobId : codec.Uuid)
    (result : OutboundTranscription) : ResultV3 codec where
  resultId := jobId
  provider := identity.provider
  model := identity.model
  language := identity.language
  text := result.text
  durationMs := result.durationMillis
  segments := result.segments.zipIdx.map OutboundSegment.receivedV3
  providerRequest := result.providerRequestId.map .mk

theorem reads_resultV3 (hform : ∀ uuid, UuidCodec.isHyphenated (codec.hyphenated uuid).toList = true)
    (identity : BatchIdentity) (jobId : codec.Uuid) {result : OutboundTranscription}
    (h : ∀ segment ∈ result.segments, ∀ x ∈ segment.confidence, x.isFinite = true) :
    Reads numbers.toFloatText (ResultV3.ofJson codec numbers) (resultV3 numbers identity jobId result)
      (result.receivedV3 identity jobId) := by
  have hjob := asJobId_hyphenated hform jobId
  obtain ⟨segments, hsegments, hreadSegments⟩ : Reads numbers.toFloatText (asArray (SegmentV3.ofJson numbers))
      (.array (result.segments.zipIdx.map (segmentV3 numbers)))
      (result.segments.zipIdx.map OutboundSegment.receivedV3) :=
    reads_array fun item hitem => reads_segmentV3 numbers (h item.1 (List.fst_mem_of_mem_zipIdx hitem))
  have hnames (members : List (String × Json)) : fieldsOr ["result_id", "provider", "model", "language", "text",
      "duration_ms", "segments", "provider_request"] 7 (.object members) = fields ["result_id", "provider",
        "model", "language", "text", "duration_ms", "segments", "provider_request"] (.object members) := rfl
  unfold resultV3
  cases hrequest : result.providerRequestId with
  | none =>
    have hvalues : HaveValues numbers.toFloatText
        [("result_id", .string (codec.hyphenated jobId)), ("provider", .string identity.provider),
          ("model", .string identity.model), ("language", .string identity.language),
          ("text", .string result.text), ("duration_ms", .ofU64 result.durationMillis),
          ("segments", .array (result.segments.zipIdx.map (segmentV3 numbers)))]
        [("result_id", .string (codec.hyphenated jobId)), ("provider", .string identity.provider),
          ("model", .string identity.model), ("language", .string identity.language),
          ("text", .string result.text), ("duration_ms", .ofU64 result.durationMillis),
          ("segments", segments)] := by
      simp [hsegments]
    refine reads_record ["result_id", "provider", "model", "language", "text", "duration_ms", "segments",
      "provider_request"] (by simp) hvalues ?_
    intro object hfields
    rw [ResultV3.ofJson, hnames, hfields]
    simp [fields, required, hjob, asString, Json.optional, hreadSegments, OutboundTranscription.receivedV3, hrequest]
  | some id =>
    have hid : toValue numbers.toFloatText (.object [("id", .string id)]) = some (.object [("id", .string id)]) := rfl
    have hread : Json.optional ProviderRequest.ofJson (some (.object [("id", .string id)])) = some (some ⟨id⟩) := by
      refine optional_some rfl ?_
      simp [ProviderRequest.ofJson, fields, required, asString]
    have hvalues : HaveValues numbers.toFloatText
        [("result_id", .string (codec.hyphenated jobId)), ("provider", .string identity.provider),
          ("model", .string identity.model), ("language", .string identity.language),
          ("text", .string result.text), ("duration_ms", .ofU64 result.durationMillis),
          ("segments", .array (result.segments.zipIdx.map (segmentV3 numbers))),
          ("provider_request", .object [("id", .string id)])]
        [("result_id", .string (codec.hyphenated jobId)), ("provider", .string identity.provider),
          ("model", .string identity.model), ("language", .string identity.language),
          ("text", .string result.text), ("duration_ms", .ofU64 result.durationMillis),
          ("segments", segments), ("provider_request", .object [("id", .string id)])] := by
      simp [hsegments, hid]
    refine reads_record ["result_id", "provider", "model", "language", "text", "duration_ms", "segments",
      "provider_request"] (by simp) hvalues ?_
    intro object hfields
    rw [ResultV3.ofJson, hnames, hfields]
    simp [fields, required, hjob, asString, hread, hreadSegments, OutboundTranscription.receivedV3, hrequest]

theorem reads_nextAction (nextAction : NextAction) :
    toValue numbers.toFloatText (nextActionJson nextAction) = some (nextActionJson nextAction) ∧
      NextAction.ofJson (nextActionJson nextAction) = some nextAction := by
  cases nextAction <;> exact ⟨rfl, rfl⟩

section Responses

variable (hform : ∀ uuid, UuidCodec.isHyphenated (codec.hyphenated uuid).toList = true)

include hform

theorem reads_pendingV2 (jobId : codec.Uuid) (nextAction : NextAction) (retryAfterMs : UInt64) :
    Reads numbers.toFloatText (PendingV2.ofJson codec) (.object (pendingMembers jobId nextAction retryAfterMs))
      ⟨true, "running", jobId, nextAction, retryAfterMs⟩ := by
  obtain ⟨haction, hread⟩ := reads_nextAction numbers nextAction
  have hjob := asJobId_hyphenated hform jobId
  have hvalues : HaveValues numbers.toFloatText (pendingMembers jobId nextAction retryAfterMs)
      (pendingMembers jobId nextAction retryAfterMs) := by
    simp [pendingMembers, haction]
  refine reads_record ["success", "status", "job_id", "next_action", "retry_after_ms"]
    (by simp [pendingMembers]) hvalues ?_
  intro object hfields
  rw [PendingV2.ofJson, hfields]
  simp [fields, pendingMembers, required, asBool, asString, hjob, hread]

theorem reads_failedV2 (jobId : codec.Uuid) (errorCode : String) :
    Reads numbers.toFloatText (FinalV2.ofJson codec numbers) (.object (failedMembers jobId errorCode))
      ⟨false, "failed", jobId, some false, some errorCode, none⟩ := by
  have hjob := asJobId_hyphenated hform jobId
  have hvalues : HaveValues numbers.toFloatText (failedMembers jobId errorCode)
      (failedMembers jobId errorCode) := by
    simp [failedMembers]
  refine reads_record ["success", "status", "job_id", "retryable", "error_code", "result"]
    (by simp [failedMembers]) hvalues ?_
  intro object hfields
  rw [FinalV2.ofJson, fieldsOr, hfields]
  · simp [fields, failedMembers, required, Json.optional, asBool, asString, hjob]
  · simp

theorem reads_completedV2 (jobId : codec.Uuid) {result : OutboundTranscription}
    (h : ∀ segment ∈ result.segments, ∀ x ∈ segment.confidence, x.isFinite = true) :
    Reads numbers.toFloatText (FinalV2.ofJson codec numbers)
      (.object (completedMembers jobId (resultV2 numbers result)))
      ⟨true, "completed", jobId, none, none, some result.receivedV2⟩ := by
  have hjob := asJobId_hyphenated hform jobId
  obtain ⟨value, hvalue, hread⟩ := reads_resultV2 numbers h
  have hresult : Json.optional (ResultV2.ofJson numbers) (some value) = some (some result.receivedV2) :=
    optional_some rfl hread
  have hvalues : HaveValues numbers.toFloatText (completedMembers jobId (resultV2 numbers result))
      (completedMembers jobId value) := by
    simp [completedMembers, hvalue]
  refine reads_record ["success", "status", "job_id", "retryable", "error_code", "result"]
    (by simp [completedMembers]) hvalues ?_
  intro object hfields
  rw [FinalV2.ofJson, fieldsOr, hfields]
  · simp [fields, completedMembers, required, Json.optional.eq_1, asBool, asString, hjob, hresult]
  · simp

/-- The names of the fields of a response of the third contract. -/
def envelopeNames : List String :=
  ["contract_version", "provider", "model", "language", "success", "status", "job_id", "next_action",
    "retry_after_ms", "retryable", "error_code", "result"]

omit hform in
/-- A response of the third contract is read from its identity and the members of its state. -/
theorem reads_envelopeV3 {contractVersion : UInt8} {identity : BatchIdentity} {state values : List (String × Json)}
    {response : EnvelopeV3 codec}
    (hkeys : (["contract_version", "provider", "model", "language"] ++ state.map Prod.fst).Nodup)
    (hstate : HaveValues numbers.toFloatText state values)
    (hdecode : ∀ object, fieldsOr envelopeNames 7 (.object object) =
        fields envelopeNames (envelopeV3 contractVersion identity values) →
      EnvelopeV3.ofJson codec numbers (.object object) = some response) :
    Reads numbers.toFloatText (EnvelopeV3.ofJson codec numbers) (envelopeV3 contractVersion identity state)
      response := by
  let front : List (String × Json) :=
    [("contract_version", .ofU64 contractVersion.toUInt64), ("provider", .string identity.provider),
      ("model", .string identity.model), ("language", .string identity.language)]
  have hfront : HaveValues numbers.toFloatText front front := by simp [front]
  exact reads_record envelopeNames (by simpa [front] using hkeys) (List.rel_append hfront hstate) hdecode

theorem reads_pendingV3 (identity : BatchIdentity) (jobId : codec.Uuid) (nextAction : NextAction)
    (retryAfterMs : UInt64) :
    Reads numbers.toFloatText (EnvelopeV3.ofJson codec numbers)
      (envelopeV3 3 identity (pendingMembers jobId nextAction retryAfterMs))
      ⟨3, identity.provider, identity.model, identity.language, true, "running", jobId, some nextAction,
        some retryAfterMs, none, none, none⟩ := by
  obtain ⟨haction, hread⟩ := reads_nextAction numbers nextAction
  have hjob := asJobId_hyphenated hform jobId
  have hoptional : Json.optional NextAction.ofJson (some (nextActionJson nextAction)) = some (some nextAction) :=
    optional_some rfl hread
  have hversion : asU8 (.ofU64 3) = some 3 := asU8_ofU64 3
  have hdelay : Json.optional asU64 (some (.ofU64 retryAfterMs)) = some (some retryAfterMs) :=
    optional_some rfl (asU64_ofU64 retryAfterMs)
  have hstate : HaveValues numbers.toFloatText (pendingMembers jobId nextAction retryAfterMs)
      (pendingMembers jobId nextAction retryAfterMs) := by
    simp [pendingMembers, haction]
  refine reads_envelopeV3 numbers (by simp [pendingMembers]) hstate ?_
  intro object hfields
  unfold envelopeNames at hfields
  rw [EnvelopeV3.ofJson, hfields]
  simp [fields, envelopeV3, pendingMembers, required, hversion, asBool, asString, hjob, hoptional, hdelay,
    Json.optional.eq_1]

theorem reads_failedV3 (identity : BatchIdentity) (jobId : codec.Uuid) (errorCode : String) :
    Reads numbers.toFloatText (EnvelopeV3.ofJson codec numbers)
      (envelopeV3 3 identity (failedMembers jobId errorCode))
      ⟨3, identity.provider, identity.model, identity.language, false, "failed", jobId, none, none, some false,
        some errorCode, none⟩ := by
  have hjob := asJobId_hyphenated hform jobId
  have hversion : asU8 (.ofU64 3) = some 3 := asU8_ofU64 3
  have hstate : HaveValues numbers.toFloatText (failedMembers jobId errorCode)
      (failedMembers jobId errorCode) := by
    simp [failedMembers]
  refine reads_envelopeV3 numbers (by simp [failedMembers]) hstate ?_
  intro object hfields
  unfold envelopeNames at hfields
  rw [EnvelopeV3.ofJson, hfields]
  simp [fields, envelopeV3, failedMembers, required, hversion, asBool, asString, hjob, Json.optional]

theorem reads_completedV3 (identity : BatchIdentity) (jobId : codec.Uuid) {result : OutboundTranscription}
    (h : ∀ segment ∈ result.segments, ∀ x ∈ segment.confidence, x.isFinite = true) :
    Reads numbers.toFloatText (EnvelopeV3.ofJson codec numbers)
      (envelopeV3 identity.contractVersion identity
        (completedMembers jobId (resultV3 numbers identity jobId result)))
      ⟨identity.contractVersion, identity.provider, identity.model, identity.language, true, "completed", jobId,
        none, none, none, none, some (result.receivedV3 identity jobId)⟩ := by
  have hjob := asJobId_hyphenated hform jobId
  obtain ⟨value, hvalue, hread⟩ := reads_resultV3 numbers hform identity jobId h
  have hresult : Json.optional (ResultV3.ofJson codec numbers) (some value) =
      some (some (result.receivedV3 identity jobId)) := optional_some rfl hread
  have hstate : HaveValues numbers.toFloatText
      (completedMembers jobId (resultV3 numbers identity jobId result)) (completedMembers jobId value) := by
    simp [completedMembers, hvalue]
  refine reads_envelopeV3 numbers (by simp [completedMembers]) hstate ?_
  intro object hfields
  unfold envelopeNames at hfields
  rw [EnvelopeV3.ofJson, hfields]
  simp [fields, envelopeV3, completedMembers, required, asU8_ofU64, asBool, asString, hjob, hresult,
    Json.optional.eq_1]

end Responses

end Readings

section Checks

/-- Milliseconds compare as seconds do. -/
theorem millisecondsToSeconds_le {a b : UInt64} :
    BatchResponse.millisecondsToSeconds a ≤ BatchResponse.millisecondsToSeconds b ↔ a ≤ b := by
  rw [BatchResponse.millisecondsToSeconds, BatchResponse.millisecondsToSeconds,
    div_le_div_iff_of_pos_right (by norm_num), Nat.cast_le, UInt64.le_iff_toNat_le]

theorem millisecondsToSeconds_lt {a b : UInt64} :
    BatchResponse.millisecondsToSeconds a < BatchResponse.millisecondsToSeconds b ↔ a < b := by
  rw [BatchResponse.millisecondsToSeconds, BatchResponse.millisecondsToSeconds,
    div_lt_div_iff_of_pos_right (by norm_num), Nat.cast_lt, UInt64.lt_iff_toNat_lt]

theorem millisecondsToSeconds_nonneg (a : UInt64) : 0 ≤ BatchResponse.millisecondsToSeconds a := by
  unfold BatchResponse.millisecondsToSeconds
  positivity

/-- What the encoder checked of one segment. -/
structure SegmentChecked (duration : UInt64) (segment : OutboundSegment) : Prop where
  timeline : segment.endMillis > segment.startMillis ∧ segment.endMillis ≤ duration
  text : Text.trim segment.text ≠ "" ∧ Text.utf16Len segment.text ≤ MAX_TRANSCRIPT_CHARS
  confidence : requireConfidence segment.confidence = .ok ()

theorem validateSegments_cons {duration previousEnd : UInt64} {segment : OutboundSegment}
    {rest : List OutboundSegment} (h : validateSegments duration previousEnd (segment :: rest) = .ok ()) :
    segment.startMillis ≥ previousEnd ∧ SegmentChecked duration segment ∧
      validateSegments duration segment.endMillis rest = .ok () := by
  unfold validateSegments at h
  obtain ⟨⟨hstart, htimeline⟩, h⟩ := require_bind_eq_ok.mp h
  obtain ⟨htext, h⟩ := require_bind_eq_ok.mp h
  obtain ⟨_, hconfidence, h⟩ := bind_eq_ok.mp h
  exact ⟨hstart, ⟨htimeline, htext, hconfidence⟩, h⟩

theorem checked_of_validateSegments {duration previousEnd : UInt64} {segments : List OutboundSegment}
    (h : validateSegments duration previousEnd segments = .ok ()) :
    ∀ segment ∈ segments, SegmentChecked duration segment := by
  induction segments generalizing previousEnd with
  | nil => simp
  | cons segment rest ih =>
    obtain ⟨_, hchecked, hrest⟩ := validateSegments_cons h
    exact List.forall_mem_cons.mpr ⟨hchecked, ih hrest⟩

/-- A checked confidence is finite. -/
theorem SegmentChecked.isFinite {duration : UInt64} {segment : OutboundSegment}
    (h : SegmentChecked duration segment) : ∀ x ∈ segment.confidence, x.isFinite = true := by
  intro x hx
  have hconfidence := require_eq_ok.mp h.confidence
  rw [Option.mem_def.mp hx, Option.all_some, Bool.and_eq_true] at hconfidence
  exact hconfidence.1

/-- Checked segments pass the decoder's check of utterances. -/
theorem validateUtterances_received {duration : UInt64} {segments : List OutboundSegment}
    (h : ∀ segment ∈ segments, SegmentChecked duration segment) :
    BatchResponse.validateUtterances (segments.map (·.received)) = .ok () := by
  induction segments with
  | nil => rfl
  | cons segment rest ih =>
    obtain ⟨hchecked, hrest⟩ := List.forall_mem_cons.mp h
    have htimeline : segment.received.startSeconds ≥ 0 ∧
        segment.received.endSeconds ≥ segment.received.startSeconds :=
      ⟨millisecondsToSeconds_nonneg _, millisecondsToSeconds_le.mpr (UInt64.le_of_lt hchecked.timeline.1)⟩
    have htext : BatchResponse.validateText segment.text true = .ok () :=
      require_eq_ok.mpr ⟨hchecked.text.2, .inl rfl⟩
    have hutterance : BatchResponse.validateUtterance segment.received = .ok () :=
      require_bind_eq_ok.mpr ⟨htimeline, bind_eq_ok.mpr ⟨(), htext, hchecked.confidence⟩⟩
    exact bind_eq_ok.mpr ⟨(), hutterance, ih hrest⟩

/-- Checked segments are read as they were written, with their indices in order. -/
theorem validateSegments_receivedV3 {duration previousEnd : UInt64} {segments : List OutboundSegment} {first : ℕ}
    (hcount : first + segments.length < 2 ^ 64)
    (h : validateSegments duration previousEnd segments = .ok ()) :
    BatchResponse.validateSegments duration first previousEnd
        ((segments.zipIdx first).map OutboundSegment.receivedV3) = .ok (segments.map (·.received)) := by
  induction segments generalizing first previousEnd with
  | nil => rfl
  | cons segment rest ih =>
    obtain ⟨hstart, hchecked, hrest⟩ := validateSegments_cons h
    rw [List.length_cons] at hcount
    have hindex : (UInt64.ofNat first).toNat = first :=
      UInt64.toNat_ofNat_of_lt' (by simp only [UInt64.size]; omega)
    have htext : BatchResponse.validateText segment.text false = .ok () :=
      require_eq_ok.mpr ⟨hchecked.text.2, .inr hchecked.text.1⟩
    have hread : BatchResponse.validateSegments duration (first + 1) segment.endMillis
        ((rest.zipIdx (first + 1)).map OutboundSegment.receivedV3) = .ok (rest.map (·.received)) :=
      ih (by omega) hrest
    refine require_bind_eq_ok.mpr ⟨hindex, require_bind_eq_ok.mpr ⟨⟨hstart, hchecked.timeline⟩, ?_⟩⟩
    refine bind_eq_ok.mpr ⟨(), htext, bind_eq_ok.mpr ⟨(), hchecked.confidence, ?_⟩⟩
    exact bind_eq_ok.mpr ⟨_, hread, rfl⟩

theorem checkedAdd_eq_some {a b c : ℕ} (h : Speech.Application.checkedAdd a b = some c) : c = a + b := by
  unfold Speech.Application.checkedAdd at h
  split at h
  · exact (Option.some.inj h).symm
  · cases h

/-- Sources the encoder accepts are accepted by the decoder, and there is one when one is returned. -/
theorem validateSources_received {count : ℕ} {previous last : Option UInt64} {indices : List UInt64}
    (h : validateSources count previous indices = .ok last) :
    BatchResponse.validateSources count previous indices = .ok () ∧
      (last.isSome = true → previous.isSome = true ∨ indices ≠ []) := by
  induction indices generalizing previous with
  | nil =>
    obtain rfl := Except.ok.inj h
    exact ⟨rfl, .inl⟩
  | cons index rest ih =>
    obtain ⟨hindex, hrest⟩ := require_bind_eq_ok.mp h
    exact ⟨require_bind_eq_ok.mpr ⟨hindex, (ih hrest).1⟩, fun _ => .inr (List.cons_ne_nil _ _)⟩

/-- Readable segments within the bound of characters pass the decoder's checks with the same totals. -/
theorem validateReadable_received {result : OutboundTranscription} {segments : List OutboundReadableSegment}
    {references characters : ℕ} {totals : ℕ × ℕ}
    (h : validateReadableSegments result references characters segments = .ok totals)
    (hbound : totals.2 ≤ MAX_TRANSCRIPT_CHARS) :
    characters ≤ totals.2 ∧
      BatchResponse.validateReadable (BatchResponse.millisecondsToSeconds result.durationMillis)
        result.segments.length references characters (segments.map (·.received)) = .ok totals := by
  induction segments generalizing references characters with
  | nil =>
    obtain rfl := Except.ok.inj h
    exact ⟨le_rfl, rfl⟩
  | cons segment rest ih =>
    unfold validateReadableSegments at h
    obtain ⟨⟨hstart, hend⟩, h⟩ := require_bind_eq_ok.mp h
    obtain ⟨htext, h⟩ := require_bind_eq_ok.mp h
    obtain ⟨last, hsources, h⟩ := bind_eq_ok.mp h
    obtain ⟨hlast, h⟩ := require_bind_eq_ok.mp h
    obtain ⟨references', hreferences, h⟩ := bind_eq_ok.mp h
    obtain ⟨characters', hcharacters, h⟩ := bind_eq_ok.mp h
    obtain ⟨hgrows, hrest⟩ := ih h
    have hsum := checkedAdd_eq_some (okOr_eq_ok.mp hcharacters)
    obtain ⟨hsources, hne⟩ := validateSources_received hsources
    refine ⟨by omega, ?_⟩
    have hvalid : BatchResponse.validateText segment.received.transcript false = .ok () :=
      require_eq_ok.mpr ⟨by change Text.utf16Len segment.text ≤ 1000000; unfold MAX_TRANSCRIPT_CHARS at hbound; omega,
        .inr htext⟩
    have htimeline : segment.received.startSeconds ≥ 0 ∧
        segment.received.endSeconds > segment.received.startSeconds ∧
        segment.received.endSeconds ≤ BatchResponse.millisecondsToSeconds result.durationMillis :=
      ⟨millisecondsToSeconds_nonneg _, millisecondsToSeconds_lt.mpr hstart, millisecondsToSeconds_le.mpr hend⟩
    have hsource : segment.received.sourceUtteranceIndices ≠ [] := (hne hlast).resolve_left (by simp)
    refine bind_eq_ok.mpr ⟨(), hvalid, require_bind_eq_ok.mpr ⟨htimeline, require_bind_eq_ok.mpr ⟨hsource, ?_⟩⟩⟩
    refine bind_eq_ok.mpr ⟨(), hsources, bind_eq_ok.mpr ⟨references', ?_, bind_eq_ok.mpr ⟨characters', ?_, hrest⟩⟩⟩
    · exact okOr_eq_ok.mpr (okOr_eq_ok.mp hreferences)
    · exact okOr_eq_ok.mpr (okOr_eq_ok.mp hcharacters)

/-- A readable projection the encoder accepts is read as it was written. -/
theorem validateReadableSegments_received {result : OutboundTranscription} (h : validateReadable result = .ok ()) :
    BatchResponse.validateReadableSegments (result.readableSegments.map (·.received))
      (BatchResponse.millisecondsToSeconds result.durationMillis) result.segments.length =
        .ok (result.readableSegments.map (·.received)) := by
  obtain ⟨hcount, h⟩ := require_bind_eq_ok.mp h
  obtain ⟨totals, htotals, h⟩ := bind_eq_ok.mp h
  have hbounds := require_eq_ok.mp h
  obtain ⟨_, hread⟩ := validateReadable_received htotals hbounds.2
  refine require_bind_eq_ok.mpr ⟨by rw [List.length_map]; exact hcount, bind_eq_ok.mpr ⟨totals, hread, ?_⟩⟩
  exact require_bind_eq_ok.mpr ⟨hbounds, rfl⟩

/-- What the encoder checked of a result. -/
structure ResultChecked (result : OutboundTranscription) : Prop where
  duration : result.durationMillis ≤ MAX_SAFE_INTEGER
  text : Text.utf16Len result.text ≤ MAX_TRANSCRIPT_CHARS
  count : result.segments.length ≤ MAX_SEGMENTS
  segments : validateSegments result.durationMillis 0 result.segments = .ok ()
  providerRequest : validateProviderRequest result.providerRequestId = .ok ()
  readable : validateReadable result = .ok ()

theorem resultChecked_v2 {result : OutboundTranscription}
    (h : validateResult .deepgramNova3MultiV2 result = .ok ()) :
    ResultChecked result ∧ result.providerRequestId = none := by
  unfold validateResult at h
  obtain ⟨hduration, h⟩ := require_bind_eq_ok.mp h
  obtain ⟨htext, h⟩ := require_bind_eq_ok.mp h
  obtain ⟨hcount, h⟩ := require_bind_eq_ok.mp h
  obtain ⟨hrequest, h⟩ := require_bind_eq_ok.mp h
  obtain ⟨_, hsegments, h⟩ := bind_eq_ok.mp h
  obtain ⟨_, hprovider, hreadable⟩ := bind_eq_ok.mp h
  exact ⟨⟨hduration, htext, hcount, hsegments, hprovider, hreadable⟩, hrequest⟩

theorem resultChecked_v3 {result : OutboundTranscription}
    (h : validateResult .elevenlabsScribeV2MultiV3 result = .ok ()) :
    ResultChecked result ∧ (result.text = "" ↔ result.segments = []) ∧
      (result.text = "" ∨ Text.trim result.text ≠ "") ∧ result.readableSegments = [] := by
  unfold validateResult at h
  obtain ⟨hduration, h⟩ := require_bind_eq_ok.mp h
  obtain ⟨htext, h⟩ := require_bind_eq_ok.mp h
  obtain ⟨hcount, h⟩ := require_bind_eq_ok.mp h
  obtain ⟨hagree, h⟩ := require_bind_eq_ok.mp h
  obtain ⟨hblank, h⟩ := require_bind_eq_ok.mp h
  obtain ⟨hnone, h⟩ := require_bind_eq_ok.mp h
  obtain ⟨_, hsegments, h⟩ := bind_eq_ok.mp h
  obtain ⟨_, hprovider, hreadable⟩ := bind_eq_ok.mp h
  exact ⟨⟨hduration, htext, hcount, hsegments, hprovider, hreadable⟩, hagree, hblank, hnone⟩

theorem ResultChecked.finite {result : OutboundTranscription} (h : ResultChecked result) :
    ∀ segment ∈ result.segments, ∀ x ∈ segment.confidence, x.isFinite = true := fun segment hsegment =>
  (checked_of_validateSegments h.segments segment hsegment).isFinite

/-- A result of the second contract is read with the same data. -/
theorem validateV2Result_received {result : OutboundTranscription} (h : ResultChecked result)
    (hrequest : result.providerRequestId = none) :
    BatchResponse.validateV2Result result.receivedV2 = .ok result.received := by
  have hutterances := validateUtterances_received (checked_of_validateSegments h.segments)
  have hreadable := validateReadableSegments_received h.readable
  have hcount : (result.segments.map (·.received)).length ≤ BatchResponse.MAX_SEGMENTS := by
    rw [List.length_map]
    exact h.count
  refine require_bind_eq_ok.mpr ⟨millisecondsToSeconds_nonneg _, require_bind_eq_ok.mpr ⟨hcount, ?_⟩⟩
  refine bind_eq_ok.mpr ⟨(), hutterances, bind_eq_ok.mpr ⟨result.readableSegments.map (·.received), ?_, ?_⟩⟩
  · simpa [OutboundTranscription.receivedV2] using hreadable
  · rw [OutboundTranscription.received, hrequest]
    rfl

/-- A result of the third contract is read with the same data. -/
theorem validateV3Result_received {codec : UuidCodec} {result : OutboundTranscription} (h : ResultChecked result)
    (hagree : result.text = "" ↔ result.segments = []) (hblank : result.text = "" ∨ Text.trim result.text ≠ "")
    (hreadable : result.readableSegments = []) (identity : BatchIdentity) (jobId : codec.Uuid) :
    BatchResponse.validateV3Result (result.receivedV3 identity jobId) = .ok result.received := by
  have hlength : (result.receivedV3 identity jobId).segments.length = result.segments.length := by
    simp [OutboundTranscription.receivedV3]
  have hcount : (result.receivedV3 identity jobId).segments.length ≤ BatchResponse.MAX_SEGMENTS := by
    rw [hlength]
    exact h.count
  have hempty : result.text = "" ↔ (result.receivedV3 identity jobId).segments = [] := by
    rw [hagree, ← List.length_eq_zero_iff, ← List.length_eq_zero_iff, hlength]
  have hfits : 0 + result.segments.length < 2 ^ 64 :=
    lt_of_le_of_lt (le_of_eq_of_le (Nat.zero_add _) h.count) (by decide)
  have hsegments := validateSegments_receivedV3 hfits h.segments
  have htext : BatchResponse.validateText (result.receivedV3 identity jobId).text true = .ok () :=
    require_eq_ok.mpr ⟨h.text, .inl rfl⟩
  have hid : ((result.receivedV3 identity jobId).providerRequest.map (·.id)) = result.providerRequestId := by
    cases hrequest : result.providerRequestId <;> simp [OutboundTranscription.receivedV3, hrequest]
  refine bind_eq_ok.mpr ⟨(), htext, require_bind_eq_ok.mpr ⟨hblank, require_bind_eq_ok.mpr ⟨h.duration, ?_⟩⟩⟩
  refine require_bind_eq_ok.mpr ⟨hcount, require_bind_eq_ok.mpr ⟨hempty, bind_eq_ok.mpr ⟨_, hsegments, ?_⟩⟩⟩
  rw [hid]
  refine bind_eq_ok.mpr ⟨(), h.providerRequest, ?_⟩
  rw [OutboundTranscription.received, hreadable]
  rfl

end Checks

section Depth

variable {codec : UuidCodec} (numbers : WireNumbers)

theorem depth_ofF64 (x : Float) : (Json.ofF64 numbers.toFloatText x).depth = 0 := by
  unfold Json.ofF64
  split <;> simp [Json.depth]

theorem depth_utteranceV2_le (segment : OutboundSegment) : (utteranceV2 numbers segment).depth ≤ 1 := by
  cases hconfidence : segment.confidence <;>
    simp [utteranceV2, hconfidence, seconds, Json.depth, membersDepth, depth_ofF64]

theorem depth_readableV2_le (segment : OutboundReadableSegment) : (readableV2 segment).depth ≤ 2 := by
  have hindices : itemsDepth (segment.sourceSegmentIndices.map .ofU64) ≤ 0 :=
    itemsDepth_map_le fun n _ => by simp [Json.ofU64, Json.depth]
  simp only [readableV2, seconds, Json.depth, membersDepth]
  omega

theorem depth_resultV2_le (result : OutboundTranscription) : (resultV2 numbers result).depth ≤ 4 := by
  have hutterances : itemsDepth (result.segments.map (utteranceV2 numbers)) ≤ 1 :=
    itemsDepth_map_le fun segment _ => depth_utteranceV2_le numbers segment
  have hreadable : itemsDepth (result.readableSegments.map readableV2) ≤ 2 :=
    itemsDepth_map_le fun segment _ => depth_readableV2_le segment
  simp only [resultV2, seconds, Json.depth, membersDepth]
  omega

theorem depth_segmentV3_le (item : OutboundSegment × ℕ) : (segmentV3 numbers item).depth ≤ 1 := by
  cases hconfidence : item.1.confidence <;>
    simp [segmentV3, hconfidence, Json.ofU64, ofOption, Json.depth, membersDepth, depth_ofF64]

theorem depth_resultV3_le (identity : BatchIdentity) (jobId : codec.Uuid) (result : OutboundTranscription) :
    (resultV3 numbers identity jobId result).depth ≤ 4 := by
  have hsegments : itemsDepth (result.segments.zipIdx.map (segmentV3 numbers)) ≤ 1 :=
    itemsDepth_map_le fun item _ => depth_segmentV3_le numbers item
  cases hrequest : result.providerRequestId <;>
    simp only [resultV3, hrequest, Option.elim_none, Option.elim_some, List.append_nil, List.cons_append,
      List.nil_append, Json.ofU64, Json.depth, membersDepth] <;> omega

/-- No document nests deeper than an index inside a readable segment. -/
theorem depth_document_le {identity : BatchIdentity} {response : OutboundBatchResponse codec}
    {status : BatchResponseStatus} {doc : Json} (h : document numbers identity response = .ok (status, doc)) :
    doc.depth ≤ 5 := by
  have hpending (jobId : codec.Uuid) (nextAction : NextAction) (retryAfterMs : UInt64) :
      membersDepth (pendingMembers jobId nextAction retryAfterMs) = 0 := by
    cases nextAction <;> simp [pendingMembers, nextActionJson, Json.ofU64, Json.depth, membersDepth]
  have hfailed (jobId : codec.Uuid) (errorCode : String) : membersDepth (failedMembers jobId errorCode) = 0 := by
    simp [failedMembers, Json.depth, membersDepth]
  have hcompleted (jobId : codec.Uuid) (result : Json) :
      membersDepth (completedMembers jobId result) = result.depth := by
    simp [completedMembers, Json.depth, membersDepth]
  have henvelope (version : UInt8) (state : List (String × Json)) :
      (envelopeV3 version identity state).depth = membersDepth state + 1 := by
    simp [envelopeV3, Json.ofU64, Json.depth, membersDepth]
  cases response with
  | pending jobId nextAction retryAfterMs =>
    obtain ⟨_, h⟩ := require_bind_eq_ok.mp h
    cases identity with
    | deepgramNova3MultiV2 =>
      obtain ⟨rfl, rfl⟩ := Prod.mk.inj (Except.ok.inj h)
      simp [Json.depth, hpending]
    | elevenlabsScribeV2MultiV3 =>
      obtain ⟨rfl, rfl⟩ := Prod.mk.inj (Except.ok.inj h)
      simp [henvelope, hpending]
  | failed jobId errorCode =>
    obtain ⟨_, _, h⟩ := bind_eq_ok.mp h
    cases identity with
    | deepgramNova3MultiV2 =>
      obtain ⟨rfl, rfl⟩ := Prod.mk.inj (Except.ok.inj h)
      simp [Json.depth, hfailed]
    | elevenlabsScribeV2MultiV3 =>
      obtain ⟨rfl, rfl⟩ := Prod.mk.inj (Except.ok.inj h)
      simp [henvelope, hfailed]
  | completed jobId result =>
    obtain ⟨_, _, h⟩ := bind_eq_ok.mp h
    cases identity with
    | deepgramNova3MultiV2 =>
      obtain ⟨rfl, rfl⟩ := Prod.mk.inj (Except.ok.inj h)
      have hresult := depth_resultV2_le numbers result
      simp only [Json.depth, hcompleted]
      omega
    | elevenlabsScribeV2MultiV3 =>
      obtain ⟨rfl, rfl⟩ := Prod.mk.inj (Except.ok.inj h)
      have hresult := depth_resultV3_le numbers .elevenlabsScribeV2MultiV3 jobId result
      rw [henvelope, hcompleted]
      omega

end Depth

section Agreement

variable {codec : UuidCodec} [DecidableEq codec.Uuid] (numbers : WireNumbers)
  (hform : ∀ uuid, UuidCodec.isHyphenated (codec.hyphenated uuid).toList = true)

include hform

omit [DecidableEq codec.Uuid] in
/-- The value of a document of the second contract is read as the response. -/
theorem parseV2_received {response : OutboundBatchResponse codec} {status : BatchResponseStatus} {doc : Json}
    (h : document numbers .deepgramNova3MultiV2 response = .ok (status, doc)) :
    ∃ value, toValue numbers.toFloatText doc = some value ∧
      BatchResponse.parseV2 codec numbers value status .deepgramNova3MultiV2 = .ok response.received := by
  cases response with
  | pending jobId nextAction retryAfterMs =>
    obtain ⟨hdelay, h⟩ := require_bind_eq_ok.mp h
    obtain ⟨rfl, rfl⟩ := Prod.mk.inj (Except.ok.inj h)
    obtain ⟨value, hvalue, hread⟩ := reads_pendingV2 numbers hform jobId nextAction retryAfterMs
    refine ⟨value, hvalue, ?_⟩
    rw [BatchResponse.parseV2, if_pos rfl]
    refine bind_eq_ok.mpr ⟨_, okOr_eq_ok.mpr hread, require_bind_eq_ok.mpr ⟨⟨rfl, rfl⟩, ?_⟩⟩
    exact require_bind_eq_ok.mpr ⟨hdelay, rfl⟩
  | failed jobId errorCode =>
    obtain ⟨_, hcode, h⟩ := bind_eq_ok.mp h
    obtain ⟨rfl, rfl⟩ := Prod.mk.inj (Except.ok.inj h)
    obtain ⟨value, hvalue, hread⟩ := reads_failedV2 numbers hform jobId errorCode
    refine ⟨value, hvalue, ?_⟩
    rw [BatchResponse.parseV2, if_neg (by decide)]
    refine bind_eq_ok.mpr ⟨_, okOr_eq_ok.mpr hread, ?_⟩
    rw [if_pos ⟨rfl, rfl, rfl⟩]
    refine bind_eq_ok.mpr ⟨errorCode, rfl, require_bind_eq_ok.mpr ⟨rfl, ?_⟩⟩
    exact bind_eq_ok.mpr ⟨(), hcode, rfl⟩
  | completed jobId result =>
    obtain ⟨_, hresult, h⟩ := bind_eq_ok.mp h
    obtain ⟨rfl, rfl⟩ := Prod.mk.inj (Except.ok.inj h)
    obtain ⟨hchecked, hrequest⟩ := resultChecked_v2 hresult
    obtain ⟨value, hvalue, hread⟩ := reads_completedV2 numbers hform jobId hchecked.finite
    refine ⟨value, hvalue, ?_⟩
    rw [BatchResponse.parseV2, if_neg (by decide)]
    refine bind_eq_ok.mpr ⟨_, okOr_eq_ok.mpr hread, ?_⟩
    rw [if_neg (by simp)]
    refine require_bind_eq_ok.mpr ⟨⟨rfl, rfl, rfl, rfl⟩, bind_eq_ok.mpr ⟨_, rfl, ?_⟩⟩
    refine require_bind_eq_ok.mpr ⟨⟨rfl, rfl, rfl⟩, bind_eq_ok.mpr ⟨(), ?_, ?_⟩⟩
    · exact require_eq_ok.mpr ⟨hchecked.text, .inl rfl⟩
    · exact bind_eq_ok.mpr ⟨_, validateV2Result_received hchecked hrequest, rfl⟩

/-- The value of a document of the third contract is read as the response. -/
theorem parseV3_received {response : OutboundBatchResponse codec} {status : BatchResponseStatus} {doc : Json}
    (h : document numbers .elevenlabsScribeV2MultiV3 response = .ok (status, doc)) :
    ∃ value, toValue numbers.toFloatText doc = some value ∧
      BatchResponse.parseV3 codec numbers value status .elevenlabsScribeV2MultiV3 = .ok response.received := by
  cases response with
  | pending jobId nextAction retryAfterMs =>
    obtain ⟨hdelay, h⟩ := require_bind_eq_ok.mp h
    obtain ⟨rfl, rfl⟩ := Prod.mk.inj (Except.ok.inj h)
    obtain ⟨value, hvalue, hread⟩ :=
      reads_pendingV3 numbers hform .elevenlabsScribeV2MultiV3 jobId nextAction retryAfterMs
    refine ⟨value, hvalue, ?_⟩
    refine bind_eq_ok.mpr ⟨_, okOr_eq_ok.mpr hread, require_bind_eq_ok.mpr ⟨rfl, ?_⟩⟩
    refine require_bind_eq_ok.mpr ⟨⟨rfl, rfl, rfl⟩, ?_⟩
    rw [if_pos rfl]
    refine require_bind_eq_ok.mpr ⟨⟨rfl, rfl⟩, require_bind_eq_ok.mpr ⟨⟨rfl, rfl, rfl⟩, ?_⟩⟩
    refine bind_eq_ok.mpr ⟨retryAfterMs, rfl, require_bind_eq_ok.mpr ⟨hdelay, ?_⟩⟩
    exact bind_eq_ok.mpr ⟨nextAction, rfl, rfl⟩
  | failed jobId errorCode =>
    obtain ⟨_, hcode, h⟩ := bind_eq_ok.mp h
    obtain ⟨rfl, rfl⟩ := Prod.mk.inj (Except.ok.inj h)
    obtain ⟨value, hvalue, hread⟩ := reads_failedV3 numbers hform .elevenlabsScribeV2MultiV3 jobId errorCode
    refine ⟨value, hvalue, ?_⟩
    refine bind_eq_ok.mpr ⟨_, okOr_eq_ok.mpr hread, require_bind_eq_ok.mpr ⟨rfl, ?_⟩⟩
    refine require_bind_eq_ok.mpr ⟨⟨rfl, rfl, rfl⟩, ?_⟩
    rw [if_neg (by decide)]
    refine require_bind_eq_ok.mpr ⟨⟨rfl, rfl⟩, ?_⟩
    rw [if_pos ⟨rfl, rfl, rfl⟩]
    refine require_bind_eq_ok.mpr ⟨rfl, bind_eq_ok.mpr ⟨errorCode, rfl, ?_⟩⟩
    exact bind_eq_ok.mpr ⟨(), hcode, rfl⟩
  | completed jobId result =>
    obtain ⟨_, hresult, h⟩ := bind_eq_ok.mp h
    obtain ⟨rfl, rfl⟩ := Prod.mk.inj (Except.ok.inj h)
    obtain ⟨hchecked, hagree, hblank, hreadable⟩ := resultChecked_v3 hresult
    obtain ⟨value, hvalue, hread⟩ :=
      reads_completedV3 numbers hform .elevenlabsScribeV2MultiV3 jobId hchecked.finite
    have hreceived := validateV3Result_received hchecked hagree hblank hreadable .elevenlabsScribeV2MultiV3 jobId
    refine ⟨value, hvalue, ?_⟩
    refine bind_eq_ok.mpr ⟨_, okOr_eq_ok.mpr hread, require_bind_eq_ok.mpr ⟨rfl, ?_⟩⟩
    refine require_bind_eq_ok.mpr ⟨⟨rfl, rfl, rfl⟩, ?_⟩
    rw [if_neg (by decide)]
    refine require_bind_eq_ok.mpr ⟨⟨rfl, rfl⟩, ?_⟩
    rw [if_neg (by simp)]
    refine require_bind_eq_ok.mpr ⟨⟨rfl, rfl, rfl, rfl⟩, bind_eq_ok.mpr ⟨_, rfl, ?_⟩⟩
    refine require_bind_eq_ok.mpr ⟨rfl, require_bind_eq_ok.mpr ⟨⟨rfl, rfl, rfl⟩, ?_⟩⟩
    exact bind_eq_ok.mpr ⟨_, hreceived, rfl⟩

/-- What the server writes for an identity its consumer reads for that identity: the same job, action, delay,
error code or transcription, with milliseconds as seconds. -/
theorem parseResponse_serializeResponse (identity : BatchIdentity) (response : OutboundBatchResponse codec)
    {serialized : SerializedBatchResponse}
    (h : serializeResponse numbers identity response = .ok serialized) :
    BatchResponse.parseResponse codec numbers serialized.body serialized.status identity =
      .ok response.received := by
  obtain ⟨⟨status, doc⟩, hdocument, h⟩ := bind_eq_ok.mp h
  obtain ⟨hbytes, h⟩ := require_bind_eq_ok.mp h
  obtain rfl := Except.ok.inj h
  have hdepth : doc.depth < RECURSION_LIMIT :=
    lt_of_le_of_lt (depth_document_le numbers hdocument) (by decide)
  have hread {value} (hvalue : toValue numbers.toFloatText doc = some value) :
      Json.parseValue numbers.toFloatText doc.toText = some value := by
    rw [Json.parseValue, Json.parse_toText hdepth, Option.bind_some, hvalue]
  have hsmall : ¬Text.len doc.toText > BatchResponse.MAX_RESPONSE_BYTES := not_lt.mpr hbytes
  rw [BatchResponse.parseResponse, if_neg hsmall]
  cases identity with
  | deepgramNova3MultiV2 =>
    obtain ⟨value, hvalue, hparsed⟩ := parseV2_received numbers hform hdocument
    exact bind_eq_ok.mpr ⟨value, okOr_eq_ok.mpr (hread hvalue), hparsed⟩
  | elevenlabsScribeV2MultiV3 =>
    obtain ⟨value, hvalue, hparsed⟩ := parseV3_received numbers hform hdocument
    exact bind_eq_ok.mpr ⟨value, okOr_eq_ok.mpr (hread hvalue), hparsed⟩

end Agreement

/-- A transcription with one segment and a readable segment from it is read back from its text. -/
theorem parseResponse_sampleTranscription :
    let jobId : UuidCodec.canonicalForms.Uuid := ⟨"123e4567-e89b-42d3-a456-426614174000", by decide⟩
    let result : OutboundTranscription :=
      ⟨"hello", 1500, [⟨0, 1500, "hello", none⟩], [⟨250, 1500, "Hello.", [0]⟩], none⟩
    ∃ serialized, serializeResponse .bits .deepgramNova3MultiV2 (.completed jobId result) = .ok serialized ∧
      BatchResponse.parseResponse .canonicalForms .bits serialized.body serialized.status .deepgramNova3MultiV2 =
        .ok (.completed jobId ⟨3 / 2, [⟨0, 3 / 2, "hello", none⟩], [⟨1 / 4, 3 / 2, "Hello.", [0]⟩], none⟩) := by
  intro jobId result
  have hrun : (document .bits .deepgramNova3MultiV2 (.completed jobId result)).toOption.any
      (fun written => Text.bytes written.2.write ≤ MAX_RESPONSE_BYTES) = true := by decide +kernel
  cases hdocument : document .bits .deepgramNova3MultiV2 (.completed jobId result) with
  | error violation => simp [hdocument, Except.toOption] at hrun
  | ok written =>
    have hbytes : Text.len written.2.toText ≤ MAX_RESPONSE_BYTES := by
      rw [Json.toText, Text.len_ofList]
      simpa [hdocument, Except.toOption] using hrun
    have hserialized : serializeResponse .bits .deepgramNova3MultiV2 (.completed jobId result) =
        .ok ⟨written.1, written.2.toText⟩ :=
      bind_eq_ok.mpr ⟨written, hdocument, require_bind_eq_ok.mpr ⟨hbytes, rfl⟩⟩
    have hread := parseResponse_serializeResponse .bits Subtype.property .deepgramNova3MultiV2
      (.completed jobId result) hserialized
    refine ⟨_, hserialized, hread.trans ?_⟩
    have hduration : BatchResponse.millisecondsToSeconds 1500 = 3 / 2 := by
      norm_num [BatchResponse.millisecondsToSeconds, show (1500 : UInt64).toNat = 1500 from rfl]
    have hstart : BatchResponse.millisecondsToSeconds 250 = 1 / 4 := by
      norm_num [BatchResponse.millisecondsToSeconds, show (250 : UInt64).toNat = 250 from rfl]
    have hzero : BatchResponse.millisecondsToSeconds 0 = 0 := by simp [BatchResponse.millisecondsToSeconds]
    simp [OutboundBatchResponse.received, OutboundTranscription.received, OutboundSegment.received,
      OutboundReadableSegment.received, result, hduration, hstart, hzero]

end Voicetext.Gateway.Contracts
