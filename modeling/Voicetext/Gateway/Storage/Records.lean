import Mathlib.Algebra.Group.Int.Defs
import Mathlib.Data.List.Basic
import Voicetext.Common.JsonValue
import Voicetext.Gateway.Storage.ResultValidation

/-!
# Mapping between ledger records and application snapshots

The columns of one row, and the two conversions between them and a snapshot. Both directions fail
closed: every bound is checked when a record is written and again when it is read. A result is kept
twice, as the exact text and as the value of that text.
-/

namespace Voicetext.Gateway.Storage

open Voicetext.Common Voicetext.Speech.Domain Voicetext.Speech.Application

def MAX_KEYTERMS : ℕ := 100

def MAX_KEYTERM_BYTES : ℕ := 256

def MAX_KEYTERMS_BYTES : ℕ := 16384

def MAX_PROFILE_FIELD_BYTES : ℕ := 256

def MAX_RETRY_AFTER_MILLIS : UInt64 := 3600000

/-- The cap on the exact compact representation of a result. -/
def MAX_SERIALIZED_RESULT_BYTES : ℕ := 32 * 1024 * 1024

/-- The columns of one row, as they are read. -/
structure JobRecord (codec : UuidCodec) where
  jobId : codec.Uuid
  contractVersion : Int16
  provider : String
  model : String
  language : String
  fingerprint : List UInt8
  audioHandle : String
  authoritativeDurationMillis : Int64
  keyterms : Json
  state : String
  attempt : Option Int64
  failureCode : Option String
  unknownReason : Option String
  providerReference : Option String
  retryAfterMillis : Option Int64
  resultJson : Option Json
  resultText : Option String
  revision : Int64

/-- The columns of one row, as they are written. -/
structure WritableRecord (codec : UuidCodec) extends JobRecord codec

structure SegmentRecord where
  startMillis : UInt64
  endMillis : UInt64
  text : String
  confidence : Option Float32
  speaker : Option String

structure ReadableRecord where
  startMillis : UInt64
  endMillis : UInt64
  text : String
  sourceSegmentIndices : List UInt64

/-- The stored representation of a result. -/
structure ResultRecord where
  text : String
  durationMillis : UInt64
  providerDurationMillis : Option UInt64
  segments : List SegmentRecord
  readableSegments : Option (List ReadableRecord)

section Serialization

variable (floats : FloatText)

def SegmentRecord.toJson (record : SegmentRecord) : Json :=
  .object [("start_millis", .ofU64 record.startMillis), ("end_millis", .ofU64 record.endMillis),
    ("text", .string record.text), ("confidence", .ofOption (.ofF32 floats) record.confidence),
    ("speaker", .ofOption .string record.speaker)]

def SegmentRecord.ofJson (doc : Json) : Option SegmentRecord :=
  match Json.fields ["start_millis", "end_millis", "text", "confidence", "speaker"] doc with
  | some [startMillis, endMillis, text, confidence, speaker] => do
    return ⟨← Json.required Json.asU64 startMillis, ← Json.required Json.asU64 endMillis,
      ← Json.required Json.asString text, ← Json.optional (Json.asF32 floats) confidence,
      ← Json.optional Json.asString speaker⟩
  | _ => none

def ReadableRecord.toJson (record : ReadableRecord) : Json :=
  .object [("start_millis", .ofU64 record.startMillis), ("end_millis", .ofU64 record.endMillis),
    ("text", .string record.text),
    ("source_segment_indices", .array (record.sourceSegmentIndices.map .ofU64))]

def ReadableRecord.ofJson (doc : Json) : Option ReadableRecord :=
  match Json.fields ["start_millis", "end_millis", "text", "source_segment_indices"] doc with
  | some [startMillis, endMillis, text, indices] => do
    return ⟨← Json.required Json.asU64 startMillis, ← Json.required Json.asU64 endMillis,
      ← Json.required Json.asString text, ← Json.required (Json.asArray Json.asU64) indices⟩
  | _ => none

def ResultRecord.toJson (record : ResultRecord) : Json :=
  .object [("text", .string record.text), ("duration_millis", .ofU64 record.durationMillis),
    ("provider_duration_millis", .ofOption .ofU64 record.providerDurationMillis),
    ("segments", .array (record.segments.map (·.toJson floats))),
    ("readable_segments",
      .ofOption (fun segments => .array (segments.map (·.toJson))) record.readableSegments)]

def ResultRecord.ofJson (doc : Json) : Option ResultRecord :=
  match Json.fields
      ["text", "duration_millis", "provider_duration_millis", "segments", "readable_segments"] doc with
  | some [text, durationMillis, providerDurationMillis, segments, readableSegments] => do
    return ⟨← Json.required Json.asString text, ← Json.required Json.asU64 durationMillis,
      ← Json.optional Json.asU64 providerDurationMillis,
      ← Json.required (Json.asArray (SegmentRecord.ofJson floats)) segments,
      ← Json.optional (Json.asArray ReadableRecord.ofJson) readableSegments⟩
  | _ => none

end Serialization

def SegmentRecord.ofSegment (segment : BatchSegment) : SegmentRecord :=
  ⟨segment.startMillis, segment.endMillis, segment.text, segment.confidence, segment.speaker⟩

def SegmentRecord.toSegment (record : SegmentRecord) : BatchSegment :=
  ⟨record.startMillis, record.endMillis, record.text, record.confidence, record.speaker⟩

def ReadableRecord.ofSegment (segment : BatchReadableSegment) : ReadableRecord :=
  ⟨segment.startMillis, segment.endMillis, segment.text, segment.sourceSegmentIndices⟩

def ReadableRecord.toSegment (record : ReadableRecord) : BatchReadableSegment :=
  ⟨record.startMillis, record.endMillis, record.text, record.sourceSegmentIndices⟩

def ResultRecord.ofResult (result : BatchRecognitionResult) : ResultRecord where
  text := result.text
  durationMillis := result.durationMillis
  providerDurationMillis := result.providerDurationMillis
  segments := result.segments.map .ofSegment
  readableSegments := result.readableSegments.map (·.map .ofSegment)

def ResultRecord.toResult (record : ResultRecord) (profile : BatchProfile)
    (providerReference : Option ProviderReference) : BatchRecognitionResult where
  profile
  text := record.text
  durationMillis := record.durationMillis
  providerDurationMillis := record.providerDurationMillis
  segments := record.segments.map (·.toSegment)
  readableSegments := record.readableSegments.map (·.map (·.toSegment))
  providerReference

/-- `i16::try_from` of a 16-bit unsigned integer. -/
def i16OfU16 (n : UInt16) : Option Int16 :=
  if n.toNat < 2 ^ 15 then some (Int16.ofNat n.toNat) else none

/-- `u16::try_from` of a 16-bit signed integer. -/
def u16OfI16 (n : Int16) : Option UInt16 :=
  if 0 ≤ n.toInt then some (UInt16.ofNat n.toInt.toNat) else none

/-- `i64::try_from` of a 64-bit unsigned integer. -/
def i64OfU64 (n : UInt64) : Option Int64 :=
  if n.toNat < 2 ^ 63 then some (Int64.ofNat n.toNat) else none

/-- `u64::try_from` of a 64-bit signed integer. -/
def u64OfI64 (n : Int64) : Option UInt64 :=
  if 0 ≤ n.toInt then some (UInt64.ofNat n.toInt.toNat) else none

/-- `u32::try_from` of a 64-bit signed integer. -/
def u32OfI64 (n : Int64) : Option UInt32 :=
  if 0 ≤ n.toInt ∧ n.toInt < 2 ^ 32 then some (UInt32.ofNat n.toInt.toNat) else none

/-- `Option::ok_or` with a stable code. -/
def okOr {α : Type} (code : String) : Option α → Except RecordError α
  | some value => .ok value
  | none => .error ⟨code⟩

/-- `Option::map` of a fallible function and `Option::transpose`. -/
def mapTranspose {α β : Type} (f : α → Except RecordError β) :
    Option α → Except RecordError (Option β)
  | none => .ok none
  | some value => (f value).map some

/-- A handle names its job and a lower-case hexadecimal digest. -/
def validateHandle (handle jobId : String) : Except RecordError Unit :=
  match ((jobId.toList ++ ['-']).isPrefixOf? handle.toList).bind ('.' :: ['o', 'g', 'g']).isSuffixOf? with
  | none => .error ⟨"INVALID_AUDIO_HANDLE"⟩
  | some digest =>
    if Text.bytes digest ≠ 64 ∨ ¬ digest.all isLowerHex then .error ⟨"INVALID_AUDIO_HANDLE"⟩ else .ok ()

/-- Check each keyterm and add its bytes to the running total. -/
def keytermsBytes : ℕ → List String → Option ℕ
  | total, [] => some total
  | total, keyterm :: rest =>
    if keyterm = "" ∨ Text.len keyterm > MAX_KEYTERM_BYTES ∨ Text.trim keyterm ≠ keyterm ∨
        Text.hasControl keyterm then none
    else (checkedAdd total (Text.len keyterm)).bind fun total => keytermsBytes total rest

def validateKeyterms (keyterms : List String) : Except RecordError Unit :=
  if keyterms.length > MAX_KEYTERMS then .error ⟨"INVALID_KEYTERMS"⟩
  else
    match keytermsBytes 0 keyterms with
    | none => .error ⟨"INVALID_KEYTERMS"⟩
    | some total => if total > MAX_KEYTERMS_BYTES then .error ⟨"INVALID_KEYTERMS"⟩ else .ok ()

def validateProfile (profile : BatchProfile) : Except RecordError Unit :=
  if [profile.provider, profile.model, profile.language].any
      fun value => Text.len value > MAX_PROFILE_FIELD_BYTES then .error ⟨"INVALID_PROFILE"⟩
  else .ok ()

/-- A nonempty bounded text of printable ASCII. -/
def isReference (value : String) : Bool :=
  value ≠ "" && Text.len value ≤ MAX_PROVIDER_REFERENCE_BYTES &&
    value.toList.all fun c => 0x20 ≤ c.toNat && c.toNat ≤ 0x7e

def validateReference (value : Option ProviderReference) : Except RecordError Unit :=
  if value.any fun reference => !isReference reference.id then .error ⟨"INVALID_PROVIDER_REFERENCE"⟩
  else .ok ()

/-- Read a reference column. -/
def reference (value : Option String) : Except RecordError (Option ProviderReference) := do
  let reference := value.map ProviderReference.new
  validateReference reference
  return reference

/-- The state, attempt, failure and reason columns of a lifecycle state. -/
def flattenState : BatchJobState → String × Option Int64 × Option String × Option String
  | .accepted => ("accepted", none, none, none)
  | .submitting attempt => ("submitting", some (Int64.ofNat attempt.get), none, none)
  | .retryable attempt failure =>
    ("retryable", some (Int64.ofNat attempt.get), some failure.code, none)
  | .completed attempt => ("completed", some (Int64.ofNat attempt.get), none, none)
  | .failed attempt failure => ("failed", some (Int64.ofNat attempt.get), some failure.code, none)
  | .outcomeUnknown attempt (.submission failure) =>
    ("outcome_unknown", some (Int64.ofNat attempt.get), some failure.code, some "submission")
  | .outcomeUnknown attempt .interruptedSubmission =>
    ("outcome_unknown", some (Int64.ofNat attempt.get), none, some "interrupted_submission")

/-- Read an attempt. -/
def restoreAttempt (value : Int64) : Except RecordError NonZeroU32 :=
  okOr "INVALID_ATTEMPT" ((u32OfI64 value).bind NonZeroU32.new)

/-- Read a failure code. -/
def restoreFailure (code : String) : Except RecordError BatchFailure :=
  okOr "INVALID_FAILURE_CODE" (BatchFailure.new code).toOption

/-- The lifecycle state of four columns; every other combination is refused. -/
def restoreState (state : String) (attempt : Option Int64) (failureCode unknownReason : Option String) :
    Except RecordError BatchJobState := do
  let attempt ← mapTranspose restoreAttempt attempt
  let failure ← mapTranspose restoreFailure failureCode
  match state, attempt, failure, unknownReason with
  | "accepted", none, none, none => return .accepted
  | "submitting", some attempt, none, none => return .submitting attempt
  | "retryable", some attempt, some failure, none => return .retryable attempt failure
  | "completed", some attempt, none, none => return .completed attempt
  | "failed", some attempt, some failure, none => return .failed attempt failure
  | "outcome_unknown", some attempt, some failure, some "submission" =>
    return .outcomeUnknown attempt (.submission failure)
  | "outcome_unknown", some attempt, none, some "interrupted_submission" =>
    return .outcomeUnknown attempt .interruptedSubmission
  | _, _, _, _ => .error ⟨"INVALID_STATE_SNAPSHOT"⟩

def boundedJson (value : String) : Except RecordError Unit :=
  if Text.len value > MAX_SERIALIZED_RESULT_BYTES then .error ⟨"RESULT_TOO_LARGE"⟩ else .ok ()

def validateResultPresence (state : BatchJobState) (hasResult : Bool) : Except RecordError Unit :=
  if decide (state.status = .completed) ≠ hasResult then .error ⟨"INVALID_RESULT_STATE"⟩ else .ok ()

def validateRetryAfter (state : BatchJobState) (retryAfterMillis : Option UInt64) :
    Except RecordError Unit :=
  if retryAfterMillis.any (· > MAX_RETRY_AFTER_MILLIS) ∨
      (state.status ≠ .retryable ∧ retryAfterMillis.isSome) then .error ⟨"INVALID_RETRY_AFTER"⟩
  else .ok ()

/-- Read a retry delay column. -/
def restoreRetryAfter (state : BatchJobState) (value : Option Int64) :
    Except RecordError (Option UInt64) := do
  let value ← mapTranspose (fun value => okOr "INVALID_RETRY_AFTER" (u64OfI64 value)) value
  validateRetryAfter state value
  return value

section Conversions

variable (codec : UuidCodec) (floats : FloatText)

/-- The exact text of a result which belongs to its snapshot and is within every bound. -/
def serializeResult (snapshot : BatchJobSnapshot) (result : BatchRecognitionResult) :
    Except RecordError String :=
  if result.profile ≠ snapshot.job.profile ∨
      result.durationMillis ≠ snapshot.authoritativeDurationMillis ∨
      result.providerReference ≠ snapshot.providerReference then .error ⟨"INVALID_RESULT_IDENTITY"⟩
  else do
    validateResult result
    let value := ((ResultRecord.ofResult result).toJson floats).toText
    boundedJson value
    return value

/-- The text a result is restored from: the exact text while the value agrees with it. -/
def compatibleResultText (legacy : Option Json) (exact : Option String) :
    Except RecordError (Option String) :=
  match legacy, exact with
  | none, none => .ok none
  | some legacy, none => .ok (some legacy.toText)
  | some legacy, some exact => do
    let exactValue ← okOr "INVALID_RESULT_JSON" (Json.parseValue floats exact)
    -- a rolled-back binary updates only the legacy column
    if Json.valueEq exactValue legacy then return some exact else return some legacy.toText
  | none, some _ => .error ⟨"INVALID_RESULT_REPRESENTATION"⟩

/-- The result a text spells, for the profile, duration and reference of its row. -/
def restoreResult (value : Option String) (profile : BatchProfile) (duration : UInt64)
    (providerReference : Option ProviderReference) :
    Except RecordError (Option BatchRecognitionResult) :=
  match value with
  | none => .ok none
  | some value => do
    boundedJson value
    let record ← okOr "INVALID_RESULT_JSON" ((Json.parse value).bind (ResultRecord.ofJson floats))
    let result := record.toResult profile providerReference
    if result.durationMillis ≠ duration then .error ⟨"INVALID_RESULT_IDENTITY"⟩
    else do
      validateResult result
      return some result

/-- The columns a snapshot is written to (`WritableRecord::try_from`). -/
def WritableRecord.tryFrom (snapshot : BatchJobSnapshot) : Except RecordError (WritableRecord codec) := do
  let jobId ← codec.canonicalUuid snapshot.id.asStr
  validateHandle snapshot.audio.asStr snapshot.id.asStr
  validateProfile snapshot.job.profile
  validateKeyterms snapshot.keyterms
  validateReference snapshot.providerReference
  validateRetryAfter snapshot.job.state snapshot.retryAfterMillis
  let (state, attempt, failureCode, unknownReason) := flattenState snapshot.job.state
  let resultText ← mapTranspose (serializeResult floats snapshot) snapshot.result
  validateResultPresence snapshot.job.state resultText.isSome
  let resultJson ← mapTranspose (fun value => okOr "INVALID_RESULT_JSON" (Json.parseValue floats value))
    resultText
  return {
    jobId
    contractVersion := ← okOr "INVALID_CONTRACT_VERSION" (i16OfU16 snapshot.job.profile.contractVersion)
    provider := snapshot.job.profile.provider
    model := snapshot.job.profile.model
    language := snapshot.job.profile.language
    fingerprint := snapshot.job.fingerprint.bytes
    audioHandle := snapshot.audio.asStr
    authoritativeDurationMillis :=
      ← okOr "INVALID_DURATION" (i64OfU64 snapshot.authoritativeDurationMillis)
    keyterms := .array (snapshot.keyterms.map .string)
    state, attempt, failureCode, unknownReason
    providerReference := snapshot.providerReference.map (·.id)
    retryAfterMillis := ← mapTranspose (fun value => okOr "INVALID_RETRY_AFTER" (i64OfU64 value))
      snapshot.retryAfterMillis
    resultJson, resultText
    revision := ← okOr "INVALID_REVISION" (i64OfU64 snapshot.revision) }

/-- The snapshot of one row (`BatchJobSnapshot::try_from`). -/
def BatchJobSnapshot.tryFrom (record : JobRecord codec) : Except RecordError BatchJobSnapshot := do
  let id := codec.hyphenated record.jobId
  let contractVersion ← okOr "INVALID_CONTRACT_VERSION" (u16OfI16 record.contractVersion)
  let profile ← okOr "INVALID_PROFILE"
    (BatchProfile.new contractVersion record.provider record.model record.language).toOption
  validateProfile profile
  let fingerprint ← okOr "INVALID_FINGERPRINT"
    (if h : record.fingerprint.length = 32 then some ⟨record.fingerprint, h⟩ else none)
  validateHandle record.audioHandle id
  let duration ← okOr "INVALID_DURATION" (u64OfI64 record.authoritativeDurationMillis)
  let keyterms ← okOr "INVALID_KEYTERMS" (Json.asArray Json.asString record.keyterms)
  validateKeyterms keyterms
  let providerReference ← reference record.providerReference
  let state ← restoreState record.state record.attempt record.failureCode record.unknownReason
  let result ← restoreResult floats (← compatibleResultText floats record.resultJson record.resultText)
    profile duration providerReference
  let providerReference := result.elim providerReference (·.providerReference)
  validateResultPresence state result.isSome
  let retryAfterMillis ← restoreRetryAfter state record.retryAfterMillis
  let revision ← okOr "INVALID_REVISION" (u64OfI64 record.revision)
  return {
    id := ⟨id⟩
    job := .restore profile fingerprint state
    audio := ⟨record.audioHandle⟩
    authoritativeDurationMillis := duration
    keyterms, providerReference, retryAfterMillis, result, revision }

end Conversions

end Voicetext.Gateway.Storage
