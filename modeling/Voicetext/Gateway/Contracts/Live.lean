import Voicetext.Common.JsonPointer
import Voicetext.Gateway.Contracts.BatchResponse

/-!
# Live protocol frames as their receiver reads them

A session opens with one configuration frame, and the server answers with frames told apart by their type,
where a flag of a partial transcript decides whether its segment is final. Identities, audio formats and
bounds are checked when a frame is read. Raw audio is no part of the text protocol.
-/

namespace Voicetext.Gateway.Contracts

open Voicetext.Common
open Voicetext.Gateway.Storage (UuidCodec)
open Voicetext.Speech.Application (checkedAdd)

/-- `uuid::Variant`. -/
inductive Variant
  | ncs
  | rfc4122
  | microsoft
  | future
deriving DecidableEq

/-- What the UUID library tells of a session identity, and that it spells one canonically. -/
structure SessionIds extends UuidCodec where
  getVariant : Uuid → Variant
  getVersionNum : Uuid → ℕ
  hyphenated_form : ∀ uuid, UuidCodec.isHyphenated (hyphenated uuid).toList = true

/-- The variant with these leading bits, where a hexadecimal digit holds four of them. -/
def Variant.ofNibble (nibble : ℕ) : Variant :=
  if nibble < 8 then .ncs else if nibble < 12 then .rfc4122 else if nibble < 14 then .microsoft else .future

/-- Identities by their canonical spelling, with the digits of version and variant. -/
def SessionIds.canonicalForms : SessionIds where
  toUuidCodec := .canonicalForms
  getVariant uuid := .ofNibble ((uuid.val.toList[19]?.bind Json.hexValue).getD 0)
  getVersionNum uuid := (uuid.val.toList[14]?.bind Json.hexValue).getD 0
  hyphenated_form := UuidCodec.isHyphenated_hyphenated

/-- The only supported live provider and model identities. -/
inductive LiveIdentity
  | deepgramNova3
  | elevenlabsScribeV2Realtime
deriving DecidableEq

inductive Provider
  | deepgram
  | elevenlabs
deriving DecidableEq

inductive Model
  | nova3
  | scribeV2Realtime
deriving DecidableEq

inductive AudioFormat
  | opus48Khz
  | pcmS16le16Khz
deriving DecidableEq

inductive Capability
  | finalizeAck
deriving DecidableEq

inductive Encoding
  | opus
  | pcmS16le
deriving DecidableEq

inductive FinalizeStatus
  | flushed
  | noProvider
  | timeout
deriving DecidableEq

/-- `identity_wire`. -/
def identityWire : LiveIdentity → Provider × Model
  | .deepgramNova3 => (.deepgram, .nova3)
  | .elevenlabsScribeV2Realtime => (.elevenlabs, .scribeV2Realtime)

/-- A validated client configuration; no binary audio is represented here. -/
structure ClientConfig (ids : SessionIds) where
  identity : LiveIdentity
  language : String
  clientSessionId : ids.Uuid
  audioFormat : AudioFormat
  keyterms : List String

/-- Exact text commands accepted after the configuration frame. -/
inductive ClientCommand
  | finalize
  | close
deriving DecidableEq

structure TranscriptSegment where
  text : String
  startMs : UInt64
  durationMs : UInt64
  confidence : Option Float

/-- A validated message of the server. -/
inductive ServerMessage (ids : SessionIds)
  | ready (sessionId : ids.Uuid) (identity : LiveIdentity)
  | ack (seq : UInt64)
  | partialSegment (segment : TranscriptSegment)
  | final (segment : TranscriptSegment)
  | segmentFinal (segment : TranscriptSegment)
  | error (code message : String)
  | finalizeComplete (status : FinalizeStatus) (sawResult : Bool)
  | usageUpdate
  | resumed

/-- Names of variants on the wire. -/
def Provider.name : Provider → String
  | .deepgram => "deepgram"
  | .elevenlabs => "elevenlabs"

def Model.name : Model → String
  | .nova3 => "nova-3"
  | .scribeV2Realtime => "scribe_v2_realtime"

def Capability.name : Capability → String
  | .finalizeAck => "finalize_ack"

def Encoding.name : Encoding → String
  | .opus => "opus"
  | .pcmS16le => "pcm_s16le"

def FinalizeStatus.name : FinalizeStatus → String
  | .flushed => "flushed"
  | .noProvider => "no_provider"
  | .timeout => "timeout"

def Provider.ofJson : Json → Option Provider := Json.asVariant name [.deepgram, .elevenlabs]

def Model.ofJson : Json → Option Model := Json.asVariant name [.nova3, .scribeV2Realtime]

def Capability.ofJson : Json → Option Capability := Json.asVariant name [.finalizeAck]

def Encoding.ofJson : Json → Option Encoding := Json.asVariant name [.opus, .pcmS16le]

def FinalizeStatus.ofJson : Json → Option FinalizeStatus := Json.asVariant name [.flushed, .noProvider, .timeout]

namespace Live

def MAX_COMMAND_BYTES : ℕ := 1024

def MAX_ERROR_CODE_CHARS : ℕ := 128

def MAX_ERROR_MESSAGE_CHARS : ℕ := 2048

def MAX_KEYTERM_CHARS : ℕ := 256

def MAX_KEYTERM_COUNT : ℕ := 100

def MAX_KEYTERM_TOTAL_CHARS : ℕ := 8192

def MAX_LANGUAGE_CHARS : ℕ := 64

def MAX_SAFE_INTEGER : UInt64 := 9007199254740991

def MAX_TRANSCRIPT_LIMIT : ℕ := 65536

section Decoding

variable (ids : SessionIds) (numbers : WireNumbers)

/-- A field which holds one name and nothing else. -/
def asMessageType (name : String) : Option Json → Option Unit :=
  Json.required (Json.asVariant (fun _ => name) [()])

/-- `deserialize_session_id`: a canonically spelled identity of the current variant and a known version. -/
def asSessionId (doc : Json) : Option ids.Uuid :=
  (asJobId ids.toUuidCodec doc).bind fun uuid =>
    if ids.getVariant uuid = .rfc4122 ∧ 1 ≤ ids.getVersionNum uuid ∧ ids.getVersionNum uuid ≤ 8 then some uuid
    else none

def asU32 (doc : Json) : Option UInt32 :=
  (Json.asU64 doc).bind fun n => if n.toNat < 2 ^ 32 then some n.toUInt32 else none

structure ConfigWire where
  provider : Provider
  model : Model
  language : String
  capabilities : List Capability
  channels : UInt8
  protocolV : UInt8
  clientSessionId : ids.Uuid
  encoding : Encoding
  sampleRate : UInt32
  keyterms : List String

/-- The names of the fields of a configuration. -/
def configNames : List String :=
  ["type", "provider", "model", "language", "capabilities", "channels", "protocol_v", "client_session_id",
    "encoding", "sample_rate", "keyterms"]

def ConfigWire.ofJson (doc : Json) : Option (ConfigWire ids) :=
  match Json.fieldsOr configNames 10 doc with
  | some [type, provider, model, language, capabilities, channels, protocolV, clientSessionId, encoding,
      sampleRate, keyterms] => do
    asMessageType "config" type
    return ⟨← Json.required Provider.ofJson provider,
      ← Json.required Model.ofJson model, ← Json.required Json.asString language,
      ← Json.required (Json.asArray Capability.ofJson) capabilities,
      ← Json.required asU8 channels, ← Json.required asU8 protocolV,
      ← Json.required (asSessionId ids) clientSessionId,
      ← Json.required Encoding.ofJson encoding, ← Json.required asU32 sampleRate,
      ← Json.defaulted (Json.asArray Json.asString) [] keyterms⟩
  | _ => none

def ConfigWire.members (wire : ConfigWire ids) : List (String × Json) :=
  [("type", .string "config"), ("provider", .string wire.provider.name), ("model", .string wire.model.name),
    ("language", .string wire.language),
    ("capabilities", .array (wire.capabilities.map fun capability => .string capability.name)),
    ("channels", .ofU64 wire.channels.toUInt64), ("protocol_v", .ofU64 wire.protocolV.toUInt64),
    ("client_session_id", .string (ids.hyphenated wire.clientSessionId)),
    ("encoding", .string wire.encoding.name), ("sample_rate", .ofU64 wire.sampleRate.toUInt64)] ++
    if wire.keyterms = [] then [] else [("keyterms", .array (wire.keyterms.map .string))]

structure ReadyWire where
  sessionId : ids.Uuid
  provider : Provider
  model : Model

def ReadyWire.ofJson (doc : Json) : Option (ReadyWire ids) :=
  match Json.fields ["type", "session_id", "provider", "model"] doc with
  | some [type, sessionId, provider, model] => do
    asMessageType "ready" type
    return ⟨← Json.required (asSessionId ids) sessionId,
      ← Json.required Provider.ofJson provider,
      ← Json.required Model.ofJson model⟩
  | _ => none

structure AckWire where
  seq : UInt64

def AckWire.ofJson (doc : Json) : Option AckWire :=
  match Json.fields ["type", "seq"] doc with
  | some [type, seq] => do
    asMessageType "ack" type
    return ⟨← Json.required Json.asU64 seq⟩
  | _ => none

structure SegmentWire where
  text : String
  startMs : UInt64
  durationMs : UInt64
  confidence : Option Float
  isSegmentFinal : Bool

def SegmentWire.ofJson (doc : Json) : Option SegmentWire :=
  match Json.fieldsOr ["type", "text", "start_ms", "duration_ms", "confidence", "is_segment_final"] 4 doc with
  | some [type, text, startMs, durationMs, confidence, isSegmentFinal] => do
    asMessageType "partial" type
    return ⟨← Json.required Json.asString text, ← Json.required Json.asU64 startMs,
      ← Json.required Json.asU64 durationMs, ← Json.optional (asF64 numbers) confidence,
      ← Json.defaulted Json.asBool false isSegmentFinal⟩
  | _ => none

structure FinalWire where
  text : String
  startMs : UInt64
  durationMs : UInt64
  confidence : Option Float

def FinalWire.ofJson (doc : Json) : Option FinalWire :=
  match Json.fieldsOr ["type", "text", "start_ms", "duration_ms", "confidence"] 4 doc with
  | some [type, text, startMs, durationMs, confidence] => do
    asMessageType "final" type
    return ⟨← Json.required Json.asString text, ← Json.required Json.asU64 startMs,
      ← Json.required Json.asU64 durationMs, ← Json.optional (asF64 numbers) confidence⟩
  | _ => none

structure ErrorWire where
  code : String
  message : String

def ErrorWire.ofJson (doc : Json) : Option ErrorWire :=
  match Json.fields ["type", "code", "message"] doc with
  | some [type, code, message] => do
    asMessageType "error" type
    return ⟨← Json.required Json.asString code, ← Json.required Json.asString message⟩
  | _ => none

structure FinalizeWire where
  status : FinalizeStatus
  sawResult : Bool

def FinalizeWire.ofJson (doc : Json) : Option FinalizeWire :=
  match Json.fields ["type", "status", "saw_result"] doc with
  | some [type, status, sawResult] => do
    asMessageType "finalize_complete" type
    return ⟨← Json.required FinalizeStatus.ofJson status,
      ← Json.required Json.asBool sawResult⟩
  | _ => none

end Decoding

def validateSegment (text : String) (startMs durationMs : UInt64) (confidence : Option Float) (maximum : ℕ) :
    Except ContractViolation TranscriptSegment := do
  require (Text.utf16Len text ≤ maximum) "live transcript exceeds bound"
  require (startMs ≤ MAX_SAFE_INTEGER ∧ durationMs ≤ MAX_SAFE_INTEGER) "live segment time exceeds safe integer"
  require (confidence.all (fun value => value.isFinite && (0.0 ≤ value && value ≤ 1.0)) = true)
    "invalid live confidence"
  return ⟨text, startMs, durationMs, confidence⟩

def validateLanguage (language : String) : Except ContractViolation Unit :=
  require (Text.trim language ≠ "" ∧ Text.trim language = language ∧
    Text.utf16Len language ≤ MAX_LANGUAGE_CHARS ∧ Text.hasControl language = false) "invalid live language"

/-- Check keyterms with the running total of characters. -/
def validateEachKeyterm : ℕ → List String → Except ContractViolation ℕ
  | total, [] => .ok total
  | total, keyterm :: rest => do
    let length := Text.utf16Len keyterm
    require (Text.trim keyterm ≠ "" ∧ Text.trim keyterm = keyterm ∧ length ≤ MAX_KEYTERM_CHARS ∧
      Text.hasControl keyterm = false) "invalid live keyterm"
    let total ← okOr "live keyterms exceed total bound" (checkedAdd total length)
    validateEachKeyterm total rest

def validateKeyterms (keyterms : List String) : Except ContractViolation Unit := do
  require (keyterms.length ≤ MAX_KEYTERM_COUNT) "too many live keyterms"
  let total ← validateEachKeyterm 0 keyterms
  require (total ≤ MAX_KEYTERM_TOTAL_CHARS) "live keyterms exceed total bound"

section Configuration

variable (ids : SessionIds)

/-- `parse_client_config`. -/
def parseClientConfig (json : String) : Except ContractViolation (ClientConfig ids) := do
  let wire ← okOr "invalid live config JSON" ((Json.parse json).bind (ConfigWire.ofJson ids))
  require (wire.protocolV = 2) "unsupported live protocol version"
  require (wire.channels = 1) "live audio must be mono"
  require (wire.capabilities = [.finalizeAck]) "invalid live capabilities"
  let identity ← (match wire.provider, wire.model with
    | .deepgram, .nova3 => .ok .deepgramNova3
    | .elevenlabs, .scribeV2Realtime => .ok .elevenlabsScribeV2Realtime
    | _, _ => .error ⟨"live provider/model identity mismatch"⟩)
  let audioFormat ← (match wire.encoding, wire.sampleRate.toNat with
    | .opus, 48000 => .ok .opus48Khz
    | .pcmS16le, 16000 => .ok .pcmS16le16Khz
    | _, _ => .error ⟨"incompatible live audio format"⟩)
  validateLanguage wire.language
  validateKeyterms wire.keyterms
  return ⟨identity, wire.language, wire.clientSessionId, audioFormat, wire.keyterms⟩

/-- `serialize_client_config`, before its document is written. -/
def configDocument (config : ClientConfig ids) : Except ContractViolation Json := do
  validateLanguage config.language
  validateKeyterms config.keyterms
  let (encoding, sampleRate) := match config.audioFormat with
    | .opus48Khz => (Encoding.opus, (48000 : UInt32))
    | .pcmS16le16Khz => (Encoding.pcmS16le, (16000 : UInt32))
  return .object (ConfigWire.members ids ⟨(identityWire config.identity).1, (identityWire config.identity).2,
    config.language, [.finalizeAck], 1, 2, config.clientSessionId, encoding, sampleRate, config.keyterms⟩)

/-- `serialize_client_config`. -/
def serializeClientConfig (config : ClientConfig ids) : Except ContractViolation String := do
  let document ← configDocument ids config
  return document.toText

end Configuration

/-- `parse_client_command`. -/
def parseClientCommand (numbers : WireNumbers) (json : String) : Except ContractViolation ClientCommand := do
  require (Text.len json ≤ MAX_COMMAND_BYTES) "live command exceeds byte limit"
  let value ← okOr "invalid live client command" (Json.parseValue numbers.toFloatText json)
  let object ← okOr "invalid live client command" (Json.asObject value)
  require (object.length = 1) "live client command has extra fields"
  match (Json.lookup object "type").bind Json.asString with
  | some "finalize" => return .finalize
  | some "close" => return .close
  | _ => .error ⟨"unsupported live client command"⟩

section Messages

variable (ids : SessionIds) (numbers : WireNumbers)

def parseReady (value : Json) (expected : LiveIdentity) : Except ContractViolation (ServerMessage ids) := do
  let wire ← okOr "invalid ready message" (ReadyWire.ofJson ids value)
  require ((wire.provider, wire.model) = identityWire expected) "ready identity mismatch"
  return .ready wire.sessionId expected

def parseAck (value : Json) : Except ContractViolation (ServerMessage ids) := do
  let wire ← okOr "invalid ack message" (AckWire.ofJson value)
  require (1 ≤ wire.seq ∧ wire.seq ≤ MAX_SAFE_INTEGER) "invalid audio acknowledgement"
  return .ack wire.seq

def parsePartial (value : Json) (maximum : ℕ) : Except ContractViolation (ServerMessage ids) := do
  let wire ← okOr "invalid partial message" (SegmentWire.ofJson numbers value)
  let segment ← validateSegment wire.text wire.startMs wire.durationMs wire.confidence maximum
  return if wire.isSegmentFinal then .segmentFinal segment else .partialSegment segment

def parseFinal (value : Json) (maximum : ℕ) : Except ContractViolation (ServerMessage ids) := do
  let wire ← okOr "invalid final message" (FinalWire.ofJson numbers value)
  let segment ← validateSegment wire.text wire.startMs wire.durationMs wire.confidence maximum
  return .final segment

def parseError (value : Json) : Except ContractViolation (ServerMessage ids) := do
  let wire ← okOr "invalid error message" (ErrorWire.ofJson value)
  require (wire.code ≠ "" ∧ Text.utf16Len wire.code ≤ MAX_ERROR_CODE_CHARS) "invalid live error code"
  require (Text.utf16Len wire.message ≤ MAX_ERROR_MESSAGE_CHARS) "live error message exceeds bound"
  return .error wire.code wire.message

def parseFinalize (value : Json) : Except ContractViolation (ServerMessage ids) := do
  let wire ← okOr "invalid finalize acknowledgement" (FinalizeWire.ofJson value)
  require (¬ ((wire.status = .flushed ∧ wire.sawResult = false) ∨
    (wire.status = .noProvider ∧ wire.sawResult = true))) "inconsistent finalize evidence"
  return .finalizeComplete wire.status wire.sawResult

def parseEmpty (value : Json) (expected : String) (result : ServerMessage ids) :
    Except ContractViolation (ServerMessage ids) := do
  let object ← okOr "server message is not an object" (Json.asObject value)
  require (object.length = 1 ∧ (Json.lookup object "type").bind Json.asString = some expected)
    "unexpected fields in empty server message"
  return result

/-- `parse_server_message`. -/
def parseServerMessage (json : String) (expected : LiveIdentity) (maxTranscriptChars : ℕ) :
    Except ContractViolation (ServerMessage ids) := do
  require (1 ≤ maxTranscriptChars ∧ maxTranscriptChars ≤ MAX_TRANSCRIPT_LIMIT) "invalid transcript bound"
  let value ← okOr "invalid live server JSON" (Json.parseValue numbers.toFloatText json)
  let messageType ← okOr "live server message has no type" ((Json.member "type" value).bind Json.asString)
  match messageType with
  | "ready" => parseReady ids value expected
  | "ack" => parseAck ids value
  | "partial" => parsePartial ids numbers value maxTranscriptChars
  | "final" => parseFinal ids numbers value maxTranscriptChars
  | "error" => parseError ids value
  | "finalize_complete" => parseFinalize ids value
  | "usage_update" => parseEmpty ids value "usage_update" .usageUpdate
  | "resumed" => parseEmpty ids value "resumed" .resumed
  | _ => .error ⟨"unsupported live server message type"⟩

end Messages

end Live

end Voicetext.Gateway.Contracts
