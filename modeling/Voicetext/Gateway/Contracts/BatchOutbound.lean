import Voicetext.Gateway.Contracts.BatchResponse

/-!
# Validated server projection of batch responses

A response is checked against the bounds of its contract and written as the compact text of one document:
flat in the second contract, with the identity in front in the third. Absent values are left out, except a
segment's confidence in the third contract.
-/

namespace Voicetext.Gateway.Contracts

open Voicetext.Common
open Voicetext.Gateway.Storage (UuidCodec)
open Voicetext.Speech.Application (checkedAdd)

/-- One provider-neutral segment ready for contract-specific projection. -/
structure OutboundSegment where
  startMillis : UInt64
  endMillis : UInt64
  text : String
  confidence : Option Float

/-- Optional readable projection linked to source segments. -/
structure OutboundReadableSegment where
  startMillis : UInt64
  endMillis : UInt64
  text : String
  sourceSegmentIndices : List UInt64

/-- Complete data needed to emit a batch result in either contract. -/
structure OutboundTranscription where
  text : String
  durationMillis : UInt64
  segments : List OutboundSegment
  readableSegments : List OutboundReadableSegment
  providerRequestId : Option String

/-- Server-owned batch state; retryability is fixed by the published contract. -/
inductive OutboundBatchResponse (codec : UuidCodec)
  | pending (jobId : codec.Uuid) (nextAction : NextAction) (retryAfterMs : UInt64)
  | failed (jobId : codec.Uuid) (errorCode : String)
  | completed (jobId : codec.Uuid) (result : OutboundTranscription)

/-- The text of a response with the only status valid for its state. -/
structure SerializedBatchResponse where
  status : BatchResponseStatus
  body : String

namespace BatchOutbound

def MAX_ERROR_CODE_CHARS : ℕ := 128

def MAX_PROVIDER_REQUEST_ID_CHARS : ℕ := 256

def MAX_READABLE_REFERENCES : ℕ := 100000

def MAX_SEGMENTS : ℕ := 10000

def MAX_TRANSCRIPT_CHARS : ℕ := 1000000

def MAX_RETRY_AFTER_MS : UInt64 := 3600000

def MAX_SAFE_INTEGER : UInt64 := 9007199254740991

/-- The cap on the text of a response, in bytes. -/
def MAX_RESPONSE_BYTES : ℕ := 2 * 1024 * 1024

section Documents

variable {codec : UuidCodec} (numbers : WireNumbers)

def nextActionJson : NextAction → Json
  | .poll => .string "poll"
  | .retry => .string "retry"

/-- A number of milliseconds in seconds. -/
def seconds (milliseconds : UInt64) : Json := .number (.ofThousandths milliseconds.toNat)

def pendingMembers (jobId : codec.Uuid) (nextAction : NextAction) (retryAfterMs : UInt64) :
    List (String × Json) :=
  [("success", .bool true), ("status", .string "running"), ("job_id", .string (codec.hyphenated jobId)),
    ("next_action", nextActionJson nextAction), ("retry_after_ms", .ofU64 retryAfterMs)]

def failedMembers (jobId : codec.Uuid) (errorCode : String) : List (String × Json) :=
  [("success", .bool false), ("status", .string "failed"), ("job_id", .string (codec.hyphenated jobId)),
    ("retryable", .bool false), ("error_code", .string errorCode)]

def completedMembers (jobId : codec.Uuid) (result : Json) : List (String × Json) :=
  [("success", .bool true), ("status", .string "completed"), ("job_id", .string (codec.hyphenated jobId)),
    ("result", result)]

def utteranceV2 (segment : OutboundSegment) : Json :=
  .object ([("start", seconds segment.startMillis), ("end", seconds segment.endMillis),
    ("transcript", .string segment.text)] ++
      segment.confidence.elim [] fun confidence => [("confidence", .ofF64 numbers.toFloatText confidence)])

def readableV2 (segment : OutboundReadableSegment) : Json :=
  .object [("start", seconds segment.startMillis), ("end", seconds segment.endMillis),
    ("transcript", .string segment.text),
    ("source_utterance_indices", .array (segment.sourceSegmentIndices.map .ofU64))]

/-- The result of `serialize_completed_v2`. -/
def resultV2 (result : OutboundTranscription) : Json :=
  .object [("provider", .string BatchIdentity.deepgramNova3MultiV2.provider),
    ("model", .string BatchIdentity.deepgramNova3MultiV2.model),
    ("language", .string BatchIdentity.deepgramNova3MultiV2.language), ("text", .string result.text),
    ("duration_seconds", seconds result.durationMillis),
    ("utterances", .array (result.segments.map (utteranceV2 numbers))),
    ("readable_segments", .array (result.readableSegments.map readableV2))]

/-- The identity of the third contract in front of the members of a state. -/
def envelopeV3 (contractVersion : UInt8) (identity : BatchIdentity) (state : List (String × Json)) : Json :=
  .object ([("contract_version", .ofU64 contractVersion.toUInt64), ("provider", .string identity.provider),
    ("model", .string identity.model), ("language", .string identity.language)] ++ state)

def segmentV3 (item : OutboundSegment × ℕ) : Json :=
  .object [("index", .ofU64 (UInt64.ofNat item.2)), ("start_ms", .ofU64 item.1.startMillis),
    ("end_ms", .ofU64 item.1.endMillis), ("text", .string item.1.text),
    ("confidence", .ofOption (.ofF64 numbers.toFloatText) item.1.confidence)]

/-- The result of `serialize_completed_v3`. -/
def resultV3 (identity : BatchIdentity) (jobId : codec.Uuid) (result : OutboundTranscription) : Json :=
  .object ([("result_id", .string (codec.hyphenated jobId)), ("provider", .string identity.provider),
    ("model", .string identity.model), ("language", .string identity.language),
    ("text", .string result.text), ("duration_ms", .ofU64 result.durationMillis),
    ("segments", .array (result.segments.zipIdx.map (segmentV3 numbers)))] ++
      result.providerRequestId.elim [] fun id => [("provider_request", .object [("id", .string id)])])

end Documents

def validateConfidence (value : Option Float) : Except ContractViolation Unit := requireConfidence value

def validateErrorCode (value : String) : Except ContractViolation Unit :=
  requireErrorCode MAX_ERROR_CODE_CHARS value

def validateProviderRequest (value : Option String) : Except ContractViolation Unit :=
  requireProviderRequest MAX_PROVIDER_REQUEST_ID_CHARS value

/-- Source indices address segments and increase; the last one is returned. -/
def validateSources (segmentCount : ℕ) :
    Option UInt64 → List UInt64 → Except ContractViolation (Option UInt64)
  | previous, [] => .ok previous
  | previous, index :: rest => do
    require (index.toNat < segmentCount ∧ previous.all (fun value => index > value) = true)
      "invalid readable source index"
    validateSources segmentCount (some index) rest

/-- Check readable segments with the running totals of references and characters. -/
def validateReadableSegments (result : OutboundTranscription) :
    ℕ → ℕ → List OutboundReadableSegment → Except ContractViolation (ℕ × ℕ)
  | references, characters, [] => .ok (references, characters)
  | references, characters, segment :: rest => do
    require (segment.endMillis > segment.startMillis ∧ segment.endMillis ≤ result.durationMillis)
      "invalid readable segment timeline"
    require (Text.trim segment.text ≠ "") "invalid readable segment text"
    let previous ← validateSources result.segments.length none segment.sourceSegmentIndices
    require (previous.isSome = true) "readable segment has no source"
    let references ← okOr "too many readable references"
      (checkedAdd references segment.sourceSegmentIndices.length)
    let characters ← okOr "too much readable text" (checkedAdd characters (Text.utf16Len segment.text))
    validateReadableSegments result references characters rest

def validateReadable (result : OutboundTranscription) : Except ContractViolation Unit := do
  require (result.readableSegments.length ≤ MAX_SEGMENTS) "too many readable segments"
  let (references, characters) ← validateReadableSegments result 0 0 result.readableSegments
  require (references ≤ MAX_READABLE_REFERENCES ∧ characters ≤ MAX_TRANSCRIPT_CHARS)
    "readable projection exceeds bounds"

/-- Check segments with the running end time. -/
def validateSegments (duration : UInt64) : UInt64 → List OutboundSegment → Except ContractViolation Unit
  | _, [] => .ok ()
  | previousEnd, segment :: rest => do
    require (segment.startMillis ≥ previousEnd ∧ segment.endMillis > segment.startMillis ∧
      segment.endMillis ≤ duration) "invalid segment timeline"
    require (Text.trim segment.text ≠ "" ∧ Text.utf16Len segment.text ≤ MAX_TRANSCRIPT_CHARS)
      "invalid segment text"
    validateConfidence segment.confidence
    validateSegments duration segment.endMillis rest

def validateResult (identity : BatchIdentity) (result : OutboundTranscription) :
    Except ContractViolation Unit := do
  require (result.durationMillis ≤ MAX_SAFE_INTEGER) "duration exceeds safe integer"
  require (Text.utf16Len result.text ≤ MAX_TRANSCRIPT_CHARS) "batch text exceeds bound"
  require (result.segments.length ≤ MAX_SEGMENTS) "too many segments"
  match identity with
  | .elevenlabsScribeV2MultiV3 => do
    require (result.text = "" ↔ result.segments = []) "text and segments disagree"
    require (result.text = "" ∨ Text.trim result.text ≠ "") "batch text cannot contain only whitespace"
    require (result.readableSegments = []) "v3 cannot represent readable segments"
  | .deepgramNova3MultiV2 => require (result.providerRequestId = none) "v2 cannot represent provider request id"
  validateSegments result.durationMillis 0 result.segments
  validateProviderRequest result.providerRequestId
  validateReadable result

section Serialization

variable {codec : UuidCodec} (numbers : WireNumbers) (identity : BatchIdentity)

/-- Status and document of a response which is within its bounds. -/
def document : OutboundBatchResponse codec → Except ContractViolation (BatchResponseStatus × Json)
  | .pending jobId nextAction retryAfterMs => do
    require (retryAfterMs ≤ MAX_RETRY_AFTER_MS) "retry delay exceeds limit"
    match identity with
    | .deepgramNova3MultiV2 => return (.accepted, .object (pendingMembers jobId nextAction retryAfterMs))
    | .elevenlabsScribeV2MultiV3 =>
      return (.accepted, envelopeV3 3 identity (pendingMembers jobId nextAction retryAfterMs))
  | .failed jobId errorCode => do
    validateErrorCode errorCode
    match identity with
    | .deepgramNova3MultiV2 => return (.ok, .object (failedMembers jobId errorCode))
    | .elevenlabsScribeV2MultiV3 => return (.ok, envelopeV3 3 identity (failedMembers jobId errorCode))
  | .completed jobId result => do
    validateResult identity result
    match identity with
    | .deepgramNova3MultiV2 => return (.ok, .object (completedMembers jobId (resultV2 numbers result)))
    | .elevenlabsScribeV2MultiV3 =>
      return (.ok, envelopeV3 identity.contractVersion identity
        (completedMembers jobId (resultV3 numbers identity jobId result)))

/-- `serialize_response`. -/
def serializeResponse (response : OutboundBatchResponse codec) :
    Except ContractViolation SerializedBatchResponse := do
  let (status, doc) ← document numbers identity response
  let body := doc.toText
  require (Text.len body ≤ MAX_RESPONSE_BYTES) "batch response exceeds byte limit"
  return ⟨status, body⟩

end Serialization

end BatchOutbound

end Voicetext.Gateway.Contracts
