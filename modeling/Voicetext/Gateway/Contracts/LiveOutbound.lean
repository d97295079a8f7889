import Voicetext.Gateway.Contracts.Live

/-!
# Validated server projection of live messages

A message is checked against the bounds of the protocol and written as the compact text of one flat document
with its type in front. A partial segment and a final one share a type, and only the final one carries a flag.
-/

namespace Voicetext.Gateway.Contracts

open Voicetext.Common
open Voicetext.Speech.Application (checkedAdd)

/-- The messages the live adapter emits. -/
inductive OutboundServerMessage (ids : SessionIds)
  | ready (sessionId : ids.Uuid) (identity : LiveIdentity)
  | ack (seq : UInt64)
  | partialSegment (segment : TranscriptSegment)
  | final (segment : TranscriptSegment)
  | segmentFinal (segment : TranscriptSegment)
  | finalizeComplete (status : FinalizeStatus) (sawResult : Bool)
  | error (code message : String)

namespace LiveOutbound

def MAX_ERROR_CODE_CHARS : ℕ := 128

def MAX_ERROR_MESSAGE_CHARS : ℕ := 2048

def MAX_SAFE_INTEGER : UInt64 := 9007199254740991

def MAX_TRANSCRIPT_CHARS : ℕ := 65536

section Documents

variable (ids : SessionIds) (numbers : WireNumbers)

def readyMembers (sessionId : ids.Uuid) (identity : LiveIdentity) : List (String × Json) :=
  [("type", .string "ready"), ("session_id", .string (ids.hyphenated sessionId)),
    ("provider", .string (identityWire identity).1.name), ("model", .string (identityWire identity).2.name)]

def ackMembers (seq : UInt64) : List (String × Json) := [("type", .string "ack"), ("seq", .ofU64 seq)]

/-- `serialize_segment`, before its document is written. -/
def segmentMembers (messageType : String) (segment : TranscriptSegment) (isSegmentFinal : Option Bool) :
    List (String × Json) :=
  [("type", .string messageType), ("text", .string segment.text), ("start_ms", .ofU64 segment.startMs),
      ("duration_ms", .ofU64 segment.durationMs)] ++
    (segment.confidence.elim [] fun confidence => [("confidence", .ofF64 numbers.toFloatText confidence)]) ++
    isSegmentFinal.elim [] fun flag => [("is_segment_final", .bool flag)]

def finalizeMembers (status : FinalizeStatus) (sawResult : Bool) : List (String × Json) :=
  [("type", .string "finalize_complete"), ("status", .string status.name), ("saw_result", .bool sawResult)]

def errorMembers (code message : String) : List (String × Json) :=
  [("type", .string "error"), ("code", .string code), ("message", .string message)]

end Documents

def validateSegment (segment : TranscriptSegment) : Except ContractViolation Unit := do
  require (Text.utf16Len segment.text ≤ MAX_TRANSCRIPT_CHARS) "live transcript exceeds bound"
  require (segment.startMs ≤ MAX_SAFE_INTEGER ∧ segment.durationMs ≤ MAX_SAFE_INTEGER)
    "live segment time exceeds safe integer"
  require ((checkedAdd segment.startMs.toNat segment.durationMs.toNat).isSome = true)
    "live segment timing overflow"
  require (segment.confidence.all (fun value => value.isFinite && (0.0 ≤ value && value ≤ 1.0)) = true)
    "invalid live confidence"

def validateFinalize (status : FinalizeStatus) (sawResult : Bool) : Except ContractViolation Unit :=
  require (¬ ((status = .flushed ∧ sawResult = false) ∨ (status = .noProvider ∧ sawResult = true)))
    "inconsistent finalize evidence"

section Serialization

variable {ids : SessionIds} (numbers : WireNumbers)

def validateSessionId (sessionId : ids.Uuid) : Except ContractViolation Unit :=
  require (ids.getVariant sessionId = .rfc4122 ∧ 1 ≤ ids.getVersionNum sessionId ∧
    ids.getVersionNum sessionId ≤ 8) "invalid live session UUID"

/-- The members of a message which is within its bounds. -/
def members : OutboundServerMessage ids → Except ContractViolation (List (String × Json))
  | .ready sessionId identity => do
    validateSessionId sessionId
    return readyMembers ids sessionId identity
  | .ack seq => do
    require (1 ≤ seq ∧ seq ≤ MAX_SAFE_INTEGER) "invalid audio acknowledgement"
    return ackMembers seq
  | .partialSegment segment => do
    validateSegment segment
    return segmentMembers numbers "partial" segment none
  | .final segment => do
    validateSegment segment
    return segmentMembers numbers "final" segment none
  | .segmentFinal segment => do
    validateSegment segment
    return segmentMembers numbers "partial" segment (some true)
  | .finalizeComplete status sawResult => do
    validateFinalize status sawResult
    return finalizeMembers status sawResult
  | .error code message => do
    require (code ≠ "" ∧ Text.utf16Len code ≤ MAX_ERROR_CODE_CHARS) "invalid live error code"
    require (Text.utf16Len message ≤ MAX_ERROR_MESSAGE_CHARS) "live error message exceeds bound"
    return errorMembers code message

/-- `serialize_server_message`. -/
def serializeServerMessage (message : OutboundServerMessage ids) : Except ContractViolation String := do
  let members ← members numbers message
  return (Json.object members).toText

end Serialization

end LiveOutbound

end Voicetext.Gateway.Contracts
