import Mathlib.Data.Rat.Defs
import Voicetext.Common.Decimal
import Voicetext.Common.Fallible
import Voicetext.Common.JsonFields
import Voicetext.Gateway.Contracts.Batch
import Voicetext.Gateway.Storage.Identifiers
import Voicetext.Speech.Application.BatchModels

/-!
# Batch responses as their consumer reads them

A response is decoded from the value of its text, for the identity it is expected under and the status it
came with. Shapes, identities, timelines and bounds are all checked again on this side. Seconds are exact.
-/

namespace Voicetext.Gateway.Contracts

open Voicetext.Common
open Voicetext.Gateway.Storage (UuidCodec)
open Voicetext.Speech.Application (checkedAdd)

/-- A wire payload violated the published compatibility contract. -/
structure ContractViolation where
  message : String
deriving DecidableEq

def require (condition : Prop) [Decidable condition] (message : String) : Except ContractViolation Unit :=
  if condition then .ok () else .error ⟨message⟩

@[simp] theorem require_eq_ok {condition : Prop} [Decidable condition] {message : String} :
    require condition message = .ok () ↔ condition := by
  simp [require]

/-- A sequence of a check and the rest succeeds when both do. -/
theorem require_bind_eq_ok {α : Type} {condition : Prop} [Decidable condition] {message : String}
    {rest : Except ContractViolation α} {a : α} :
    (do require condition message; rest) = .ok a ↔ condition ∧ rest = .ok a := by
  by_cases h : condition <;> simp [require, h, bind, Except.bind]

/-- `Option::ok_or`. -/
def okOr {α : Type} (message : String) (value : Option α) : Except ContractViolation α :=
  value.elim (.error ⟨message⟩) .ok

theorem okOr_eq_ok {α : Type} {message : String} {value : Option α} {a : α} :
    okOr message value = .ok a ↔ value = some a := elim_eq_ok

/-- How the JSON library spells and reads the numbers of a response: floating-point numbers and the exact
decimals of thousandths are kept by values. -/
structure WireNumbers extends FloatText where
  readF64 : NumberLiteral → Option Float
  canonical_printF64 : ∀ x : Float, x.isFinite = true →
    ∃ literal, canonical (printF64 x) = some literal ∧ readF64 literal = some x
  canonical_ofThousandths : ∀ n, ∃ literal, canonical (.ofThousandths n) = some literal ∧
    literal.toRat = (NumberLiteral.ofThousandths n).toRat

/-- A bit pattern of a double can be checked. -/
instance decidableValid (pattern : BitVec 64) : Decidable (Float.Model.Format.binary64.Valid pattern) :=
  decidable_of_iff
    (@Float.Model.UnpackedFloat.unpackExponent .binary64 pattern = -1#_ →
      @Float.Model.UnpackedFloat.unpackMantissa .binary64 pattern ≠ 0#_ →
        pattern = Float.Model.UnpackedFloat.packedNaN .binary64)
    ⟨fun h => ⟨h⟩, fun h => h.eq_packedNaN⟩

/-- The laws can be met: a double is spelled by its bits. -/
def WireNumbers.bits : WireNumbers where
  toFloatText := .bits
  readF64 literal := literal.asU64.bind fun n =>
    if h : Float.Model.Format.binary64.Valid n.toBitVec then some ⟨⟨n, h⟩⟩ else none
  canonical_printF64 x _ := ⟨.ofU64 x.toModel.toBits, rfl, by
    rw [NumberLiteral.asU64_ofU64, Option.bind_some, dif_pos x.toModel.valid]⟩
  canonical_ofThousandths n := ⟨.ofThousandths n, rfl, rfl⟩

/-- A confidence, if any, is a finite value of the closed unit interval. -/
def requireConfidence (value : Option Float) : Except ContractViolation Unit :=
  require (value.all (fun confidence => confidence.isFinite && (0.0 ≤ confidence && confidence ≤ 1.0)) = true)
    "invalid confidence"

/-- An error code consists of upper-case letters, digits and underscores, up to a bound. -/
def requireErrorCode (maximum : ℕ) (value : String) : Except ContractViolation Unit :=
  require (value ≠ "" ∧ Text.utf16Len value ≤ maximum ∧
      (Text.asBytes value).all (fun byte =>
        (0x41 ≤ byte && byte ≤ 0x5a) || (0x30 ≤ byte && byte ≤ 0x39) || byte = 0x5f) = true)
    "invalid error code"

/-- A provider request, if any, is named by printable ASCII, up to a bound. -/
def requireProviderRequest (maximum : ℕ) (value : Option String) : Except ContractViolation Unit :=
  require (∀ id ∈ value, id ≠ "" ∧ Text.utf16Len id ≤ maximum ∧
    (Text.asBytes id).all (fun byte => 0x20 ≤ byte && byte ≤ 0x7e) = true) "invalid provider request id"

namespace BatchResponse

def MAX_ERROR_CODE_CHARS : ℕ := 128

def MAX_PROVIDER_REQUEST_ID_CHARS : ℕ := 256

def MAX_READABLE_REFERENCES : ℕ := 100000

def MAX_SEGMENTS : ℕ := 10000

def MAX_TRANSCRIPT_CHARS : ℕ := 1000000

def MAX_RETRY_AFTER_MS : UInt64 := 3600000

def MAX_SAFE_INTEGER : UInt64 := 9007199254740991

/-- The cap on the text of a response, in bytes. -/
def MAX_RESPONSE_BYTES : ℕ := 2 * 1024 * 1024

end BatchResponse

/-- HTTP status accompanying a decoded batch payload. -/
inductive BatchResponseStatus
  | accepted
  | ok
deriving DecidableEq

inductive NextAction
  | poll
  | retry
deriving DecidableEq

/-- One utterance; its times are seconds. -/
structure Utterance where
  startSeconds : ℚ
  endSeconds : ℚ
  transcript : String
  confidence : Option Float

/-- One readable segment; its times are seconds. -/
structure ReadableSegment where
  startSeconds : ℚ
  endSeconds : ℚ
  transcript : String
  sourceUtteranceIndices : List UInt64

structure BatchTranscription where
  durationSeconds : ℚ
  utterances : List Utterance
  readableSegments : List ReadableSegment
  providerRequestId : Option String

/-- Validated projection shared by the consumer profiles. -/
inductive BatchTaskResult (codec : UuidCodec)
  | pending (jobId : codec.Uuid) (nextAction : NextAction) (retryAfterMs : UInt64)
  | failed (jobId : codec.Uuid) (errorCode : String)
  | completed (jobId : codec.Uuid) (result : BatchTranscription)

section Decoding

variable (codec : UuidCodec) (numbers : WireNumbers)

/-- `u8::is_ascii_hexdigit`. -/
def isHexDigit (c : Char) : Bool := c.isDigit || ('a' ≤ c && c ≤ 'f') || ('A' ≤ c && c ≤ 'F')

/-- `deserialize_job_id`: hexadecimal digits with hyphens at their places, and an identity. -/
def asJobId (doc : Json) : Option codec.Uuid :=
  (Json.asString doc).bind fun value =>
    let chars := value.toList
    if chars.length = 36 ∧ chars.zipIdx.all (fun (c, i) =>
        if i = 8 ∨ i = 13 ∨ i = 18 ∨ i = 23 then c = '-' else isHexDigit c) = true then codec.parseStr value
    else none

/-- A variant without data, by its name or as the only key of an object. -/
def NextAction.ofJson : Json → Option NextAction
  | .string "poll" | .object [("poll", .null)] => some .poll
  | .string "retry" | .object [("retry", .null)] => some .retry
  | _ => none

def asU8 (doc : Json) : Option UInt8 :=
  (Json.asU64 doc).bind fun n => if n.toNat < 2 ^ 8 then some n.toUInt8 else none

def asF64 : Json → Option Float
  | .number literal => numbers.readF64 literal
  | _ => none

/-- A number of seconds, read exactly. -/
def asSeconds : Json → Option ℚ
  | .number literal => some literal.toRat
  | _ => none

def Utterance.ofJson (doc : Json) : Option Utterance :=
  match Json.fieldsOr ["start", "end", "transcript", "confidence"] 3
      (Json.unalias [("start_ms", "start"), ("end_ms", "end"), ("text", "transcript")] doc) with
  | some [start, stop, transcript, confidence] => do
    return ⟨← Json.required asSeconds start, ← Json.required asSeconds stop,
      ← Json.required Json.asString transcript, ← Json.optional (asF64 numbers) confidence⟩
  | _ => none

def ReadableSegment.ofJson (doc : Json) : Option ReadableSegment :=
  match Json.fields ["start", "end", "transcript", "source_utterance_indices"] doc with
  | some [start, stop, transcript, indices] => do
    return ⟨← Json.required asSeconds start, ← Json.required asSeconds stop,
      ← Json.required Json.asString transcript, ← Json.required (Json.asArray Json.asU64) indices⟩
  | _ => none

structure PendingV2 where
  success : Bool
  status : String
  jobId : codec.Uuid
  nextAction : NextAction
  retryAfterMs : UInt64

def PendingV2.ofJson (doc : Json) : Option (PendingV2 codec) :=
  match Json.fields ["success", "status", "job_id", "next_action", "retry_after_ms"] doc with
  | some [success, status, jobId, nextAction, retryAfterMs] => do
    return ⟨← Json.required Json.asBool success, ← Json.required Json.asString status,
      ← Json.required (asJobId codec) jobId, ← Json.required NextAction.ofJson nextAction,
      ← Json.required Json.asU64 retryAfterMs⟩
  | _ => none

structure ResultV2 where
  provider : String
  model : String
  language : String
  text : String
  durationSeconds : ℚ
  utterances : List Utterance
  readableSegments : List ReadableSegment

def ResultV2.ofJson (doc : Json) : Option ResultV2 :=
  match Json.fieldsOr
      ["provider", "model", "language", "text", "duration_seconds", "utterances", "readable_segments"] 6
      doc with
  | some [provider, model, language, text, durationSeconds, utterances, readableSegments] => do
    return ⟨← Json.required Json.asString provider, ← Json.required Json.asString model,
      ← Json.required Json.asString language, ← Json.required Json.asString text,
      ← Json.required asSeconds durationSeconds,
      ← Json.required (Json.asArray (Utterance.ofJson numbers)) utterances,
      ← Json.defaulted (Json.asArray ReadableSegment.ofJson) [] readableSegments⟩
  | _ => none

structure FinalV2 where
  success : Bool
  status : String
  jobId : codec.Uuid
  retryable : Option Bool
  errorCode : Option String
  result : Option ResultV2

def FinalV2.ofJson (doc : Json) : Option (FinalV2 codec) :=
  match Json.fieldsOr ["success", "status", "job_id", "retryable", "error_code", "result"] 3 doc with
  | some [success, status, jobId, retryable, errorCode, result] => do
    return ⟨← Json.required Json.asBool success, ← Json.required Json.asString status,
      ← Json.required (asJobId codec) jobId, ← Json.optional Json.asBool retryable,
      ← Json.optional Json.asString errorCode, ← Json.optional (ResultV2.ofJson numbers) result⟩
  | _ => none

structure SegmentV3 where
  index : UInt64
  startMs : UInt64
  endMs : UInt64
  text : String
  confidence : Option Float

def SegmentV3.ofJson (doc : Json) : Option SegmentV3 :=
  match Json.fieldsOr ["index", "start_ms", "end_ms", "text", "confidence"] 4 doc with
  | some [index, startMs, endMs, text, confidence] => do
    return ⟨← Json.required Json.asU64 index, ← Json.required Json.asU64 startMs,
      ← Json.required Json.asU64 endMs, ← Json.required Json.asString text,
      ← Json.optional (asF64 numbers) confidence⟩
  | _ => none

structure ProviderRequest where
  id : String

def ProviderRequest.ofJson (doc : Json) : Option ProviderRequest :=
  match Json.fields ["id"] doc with
  | some [id] => do return ⟨← Json.required Json.asString id⟩
  | _ => none

structure ResultV3 where
  resultId : codec.Uuid
  provider : String
  model : String
  language : String
  text : String
  durationMs : UInt64
  segments : List SegmentV3
  providerRequest : Option ProviderRequest

def ResultV3.ofJson (doc : Json) : Option (ResultV3 codec) :=
  match Json.fieldsOr ["result_id", "provider", "model", "language", "text", "duration_ms", "segments",
      "provider_request"] 7 doc with
  | some [resultId, provider, model, language, text, durationMs, segments, providerRequest] => do
    return ⟨← Json.required (asJobId codec) resultId, ← Json.required Json.asString provider,
      ← Json.required Json.asString model, ← Json.required Json.asString language,
      ← Json.required Json.asString text, ← Json.required Json.asU64 durationMs,
      ← Json.required (Json.asArray (SegmentV3.ofJson numbers)) segments,
      ← Json.optional ProviderRequest.ofJson providerRequest⟩
  | _ => none

structure EnvelopeV3 where
  contractVersion : UInt8
  provider : String
  model : String
  language : String
  success : Bool
  status : String
  jobId : codec.Uuid
  nextAction : Option NextAction
  retryAfterMs : Option UInt64
  retryable : Option Bool
  errorCode : Option String
  result : Option (ResultV3 codec)

def EnvelopeV3.ofJson (doc : Json) : Option (EnvelopeV3 codec) :=
  match Json.fieldsOr ["contract_version", "provider", "model", "language", "success", "status", "job_id",
      "next_action", "retry_after_ms", "retryable", "error_code", "result"] 7 doc with
  | some [contractVersion, provider, model, language, success, status, jobId, nextAction, retryAfterMs,
      retryable, errorCode, result] => do
    return ⟨← Json.required asU8 contractVersion, ← Json.required Json.asString provider,
      ← Json.required Json.asString model, ← Json.required Json.asString language,
      ← Json.required Json.asBool success, ← Json.required Json.asString status,
      ← Json.required (asJobId codec) jobId, ← Json.optional NextAction.ofJson nextAction,
      ← Json.optional Json.asU64 retryAfterMs, ← Json.optional Json.asBool retryable,
      ← Json.optional Json.asString errorCode, ← Json.optional (ResultV3.ofJson codec numbers) result⟩
  | _ => none

section Readings

open Voicetext.Common.Json

variable {codec : UuidCodec} (numbers : WireNumbers)

theorem reads_confidence {x : Float} (h : x.isFinite = true) :
    Reads numbers.toFloatText (asF64 numbers) (.ofF64 numbers.toFloatText x) x := by
  obtain ⟨literal, hliteral, hread⟩ := numbers.canonical_printF64 x h
  exact ⟨.number literal, by simp [ofF64, h, toValue, hliteral], hread⟩

/-- A canonical spelling is the spelling of a job identity. -/
theorem asJobId_hyphenated (hform : ∀ uuid, UuidCodec.isHyphenated (codec.hyphenated uuid).toList = true)
    (jobId : codec.Uuid) : asJobId codec (.string (codec.hyphenated jobId)) = some jobId := by
  have hchars := hform jobId
  simp only [UuidCodec.isHyphenated, Bool.and_eq_true, decide_eq_true_eq, List.all_eq_true] at hchars
  simp only [asJobId, asString, Option.bind_some]
  rw [if_pos, codec.parse_hyphenated]
  refine ⟨hchars.1, List.all_eq_true.mpr fun item hitem => ?_⟩
  have hitem := hchars.2 item hitem
  split_ifs at hitem ⊢ with hhyphen
  · exact hitem
  · rw [isHexDigit]
    exact Bool.or_eq_true_iff.mpr (.inl hitem)

theorem asU8_ofU64 (n : UInt8) : asU8 (.ofU64 n.toUInt64) = some n := by
  have hlt : n.toUInt64.toNat < 2 ^ 8 := by simpa using n.toNat_lt
  simp only [asU8, asU64_ofU64, Option.bind_some]
  rw [if_pos hlt]
  simp

end Readings

end Decoding

namespace BatchResponse

def validateConfidence (value : Option Float) : Except ContractViolation Unit := requireConfidence value

def requireIdentity (provider model language : String) (expected : BatchIdentity) :
    Except ContractViolation Unit :=
  require (provider = expected.provider ∧ model = expected.model ∧ language = expected.language)
    "batch identity mismatch"

def validateErrorCode (value : String) : Except ContractViolation Unit :=
  requireErrorCode MAX_ERROR_CODE_CHARS value

def validateText (value : String) (allowEmpty : Bool) : Except ContractViolation Unit :=
  require (Text.utf16Len value ≤ MAX_TRANSCRIPT_CHARS ∧ (allowEmpty = true ∨ Text.trim value ≠ ""))
    "invalid transcript text"

def validateUtterance (utterance : Utterance) : Except ContractViolation Unit := do
  require (utterance.startSeconds ≥ 0 ∧ utterance.endSeconds ≥ utterance.startSeconds)
    "invalid utterance timeline"
  validateText utterance.transcript true
  validateConfidence utterance.confidence

/-- Source indices address utterances and increase. -/
def validateSources (utteranceCount : ℕ) : Option UInt64 → List UInt64 → Except ContractViolation Unit
  | _, [] => .ok ()
  | previous, index :: rest => do
    require (index.toNat < utteranceCount ∧ previous.all (fun value => index > value) = true)
      "invalid readable segment source"
    validateSources utteranceCount (some index) rest

/-- Check readable segments with the running totals of references and characters. -/
def validateReadable (duration : ℚ) (utteranceCount : ℕ) :
    ℕ → ℕ → List ReadableSegment → Except ContractViolation (ℕ × ℕ)
  | references, characters, [] => .ok (references, characters)
  | references, characters, segment :: rest => do
    validateText segment.transcript false
    require (segment.startSeconds ≥ 0 ∧ segment.endSeconds > segment.startSeconds ∧
      segment.endSeconds ≤ duration) "invalid readable segment timeline"
    require (segment.sourceUtteranceIndices ≠ []) "readable segment has no sources"
    validateSources utteranceCount none segment.sourceUtteranceIndices
    let references ← okOr "too many readable references"
      (checkedAdd references segment.sourceUtteranceIndices.length)
    let characters ← okOr "too much readable text" (checkedAdd characters (Text.utf16Len segment.transcript))
    validateReadable duration utteranceCount references characters rest

def validateReadableSegments (segments : List ReadableSegment) (duration : ℚ) (utteranceCount : ℕ) :
    Except ContractViolation (List ReadableSegment) := do
  require (segments.length ≤ MAX_SEGMENTS) "too many readable segments"
  let (references, characters) ← validateReadable duration utteranceCount 0 0 segments
  require (references ≤ MAX_READABLE_REFERENCES ∧ characters ≤ MAX_TRANSCRIPT_CHARS)
    "readable projection exceeds bounds"
  return segments

/-- Check utterances one by one. -/
def validateUtterances : List Utterance → Except ContractViolation Unit
  | [] => .ok ()
  | utterance :: rest => do
    validateUtterance utterance
    validateUtterances rest

def validateV2Result (result : ResultV2) : Except ContractViolation BatchTranscription := do
  require (result.durationSeconds ≥ 0) "invalid duration"
  require (result.utterances.length ≤ MAX_SEGMENTS) "too many utterances"
  validateUtterances result.utterances
  let readableSegments ←
    validateReadableSegments result.readableSegments result.durationSeconds result.utterances.length
  return ⟨result.durationSeconds, result.utterances, readableSegments, none⟩

/-- `milliseconds_to_seconds`. -/
def millisecondsToSeconds (milliseconds : UInt64) : ℚ := milliseconds.toNat / 1000

/-- Check segments with the expected index and the running end time, and project them. -/
def validateSegments (duration : UInt64) :
    ℕ → UInt64 → List SegmentV3 → Except ContractViolation (List Utterance)
  | _, _, [] => .ok []
  | expectedIndex, previousEnd, segment :: rest => do
    require (segment.index.toNat = expectedIndex) "non-contiguous segment index"
    require (segment.startMs ≥ previousEnd ∧ segment.endMs > segment.startMs ∧ segment.endMs ≤ duration)
      "invalid segment timeline"
    validateText segment.text false
    validateConfidence segment.confidence
    let utterances ← validateSegments duration (expectedIndex + 1) segment.endMs rest
    return ⟨millisecondsToSeconds segment.startMs, millisecondsToSeconds segment.endMs, segment.text,
      segment.confidence⟩ :: utterances

def validateV3Result {codec : UuidCodec} (result : ResultV3 codec) :
    Except ContractViolation BatchTranscription := do
  validateText result.text true
  require (result.text = "" ∨ Text.trim result.text ≠ "") "batch text cannot contain only whitespace"
  require (result.durationMs ≤ MAX_SAFE_INTEGER) "duration exceeds safe integer"
  require (result.segments.length ≤ MAX_SEGMENTS) "too many segments"
  require (result.text = "" ↔ result.segments = []) "text and segments disagree"
  let utterances ← validateSegments result.durationMs 0 0 result.segments
  let providerRequestId := result.providerRequest.map (·.id)
  requireProviderRequest MAX_PROVIDER_REQUEST_ID_CHARS providerRequestId
  return ⟨millisecondsToSeconds result.durationMs, utterances, [], providerRequestId⟩

section Parsing

variable (codec : UuidCodec) [DecidableEq codec.Uuid] (numbers : WireNumbers)

/-- `parse_v2`. -/
def parseV2 (value : Json) (status : BatchResponseStatus) (expected : BatchIdentity) :
    Except ContractViolation (BatchTaskResult codec) :=
  if status = .accepted then do
    let response ← okOr "invalid batch v2 pending response" (PendingV2.ofJson codec value)
    require (response.success = true ∧ response.status = "running") "invalid batch v2 state"
    require (response.retryAfterMs ≤ MAX_RETRY_AFTER_MS) "retry delay exceeds limit"
    return .pending response.jobId response.nextAction response.retryAfterMs
  else do
    let response ← okOr "invalid batch v2 final response" (FinalV2.ofJson codec numbers value)
    if response.success = false ∧ response.status = "failed" ∧ response.retryable = some false then
      let errorCode ← okOr "missing error code" response.errorCode
      require (response.result.isNone = true) "failed response contains result"
      validateErrorCode errorCode
      return .failed response.jobId errorCode
    else
      require (response.success = true ∧ response.status = "completed" ∧ response.retryable = none ∧
        response.errorCode = none) "invalid batch v2 completed state"
      let result ← okOr "missing batch result" response.result
      requireIdentity result.provider result.model result.language expected
      validateText result.text true
      let transcription ← validateV2Result result
      return .completed response.jobId transcription

/-- `parse_v3`. -/
def parseV3 (value : Json) (httpStatus : BatchResponseStatus) (expected : BatchIdentity) :
    Except ContractViolation (BatchTaskResult codec) := do
  let response ← okOr "invalid batch v3 response" (EnvelopeV3.ofJson codec numbers value)
  require (response.contractVersion = expected.contractVersion) "contract version mismatch"
  requireIdentity response.provider response.model response.language expected
  if httpStatus = .accepted then
    require (response.success = true ∧ response.status = "running") "invalid batch v3 pending state"
    require (response.retryable = none ∧ response.errorCode = none ∧ response.result.isNone = true)
      "pending response contains terminal fields"
    let retryAfterMs ← okOr "missing retry delay" response.retryAfterMs
    require (retryAfterMs ≤ MAX_RETRY_AFTER_MS) "retry delay exceeds limit"
    let nextAction ← okOr "missing next action" response.nextAction
    return .pending response.jobId nextAction retryAfterMs
  else
    require (response.nextAction = none ∧ response.retryAfterMs = none)
      "terminal response contains polling fields"
    if response.success = false ∧ response.status = "failed" ∧ response.retryable = some false then
      require (response.result.isNone = true) "failed response contains result"
      let errorCode ← okOr "missing error code" response.errorCode
      validateErrorCode errorCode
      return .failed response.jobId errorCode
    else
      require (response.success = true ∧ response.status = "completed" ∧ response.retryable = none ∧
        response.errorCode = none) "invalid batch v3 completed state"
      let result ← okOr "missing batch result" response.result
      require (result.resultId = response.jobId) "batch result identity mismatch"
      requireIdentity result.provider result.model result.language expected
      let transcription ← validateV3Result result
      return .completed response.jobId transcription

/-- `parse_response`. -/
def parseResponse (json : String) (status : BatchResponseStatus) (expected : BatchIdentity) :
    Except ContractViolation (BatchTaskResult codec) :=
  if Text.len json > MAX_RESPONSE_BYTES then .error ⟨"batch response exceeds byte limit"⟩
  else do
    let value ← okOr "invalid batch JSON" (Json.parseValue numbers.toFloatText json)
    match expected with
    | .deepgramNova3MultiV2 => parseV2 codec numbers value status expected
    | .elevenlabsScribeV2MultiV3 => parseV3 codec numbers value status expected

end Parsing

end BatchResponse

end Voicetext.Gateway.Contracts
