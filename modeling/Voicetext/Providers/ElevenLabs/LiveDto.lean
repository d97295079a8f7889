import Voicetext.Providers.Fields
import Voicetext.Speech.Application.LivePorts

/-!
# Messages of the realtime transcription socket

Provider timing is not read at all. A message is a session start, a transcript, a terminal error or
something to ignore, and a transcript without text matters only when it is committed.
-/

namespace Voicetext.Providers.ElevenLabs

open Voicetext.Common

def MAX_PROVIDER_MESSAGE_BYTES : ℕ := 1024 * 1024

def MAX_TRANSCRIPT_BYTES : ℕ := 64 * 1024

def MALFORMED_RESPONSE : String := "ELEVENLABS_LIVE_MALFORMED_RESPONSE"

inductive TranscriptKind
  | partial_
  | segmentFinal
  | utteranceFinal
deriving DecidableEq

inductive ParsedLiveMessage
  | sessionStarted (reference : Option String)
  | transcript (kind : TranscriptKind) (text : String) (confidence : Option Float32)
  | terminalError (code : String)
  | ignore

structure ParseFailure where
  code : String
deriving DecidableEq

def malformed : ParseFailure := ⟨MALFORMED_RESPONSE⟩

def parseConfidence (readF32 : NumberLiteral → Option Float32) :
    Option Json → Except ParseFailure (Option Float32) :=
  confidenceField malformed readF32

def safeReference (value : String) : Option String := printableReference value

def parseTranscript (readF32 : NumberLiteral → Option Float32) (object : List (String × Json))
    (kind : TranscriptKind) : Except ParseFailure ParsedLiveMessage := do
  let text ← textField malformed object "text" MAX_TRANSCRIPT_BYTES
  let confidence ← parseConfidence readF32 (get object "confidence")
  if Text.trim text = "" ∧ kind ≠ .utteranceFinal then return .ignore
  else return .transcript kind text confidence

def terminalErrorCode (kind : String) : Option String :=
  match kind with
  | "auth_error" => some "ELEVENLABS_LIVE_AUTH_ERROR"
  | "quota_exceeded" => some "ELEVENLABS_LIVE_QUOTA_EXCEEDED"
  | "transcriber_error" => some "ELEVENLABS_LIVE_TRANSCRIBER_ERROR"
  | "input_error" => some "ELEVENLABS_LIVE_INPUT_ERROR"
  | "invalid_request" => some "ELEVENLABS_LIVE_INVALID_REQUEST"
  | "error" => some "ELEVENLABS_LIVE_PROVIDER_ERROR"
  | "commit_throttled" | "scribe_throttled_error" => some "ELEVENLABS_LIVE_COMMIT_THROTTLED"
  | "unaccepted_terms" => some "ELEVENLABS_LIVE_UNACCEPTED_TERMS"
  | "rate_limited" | "scribe_rate_limited_error" => some "ELEVENLABS_LIVE_RATE_LIMITED"
  | "queue_overflow" | "scribe_queue_overflow_error" => some "ELEVENLABS_LIVE_QUEUE_OVERFLOW"
  | "resource_exhausted" => some "ELEVENLABS_LIVE_RESOURCE_EXHAUSTED"
  | "session_time_limit_exceeded" => some "ELEVENLABS_LIVE_SESSION_TIME_LIMIT_EXCEEDED"
  | "chunk_size_exceeded" => some "ELEVENLABS_LIVE_CHUNK_SIZE_EXCEEDED"
  | "insufficient_audio_activity" => some "ELEVENLABS_LIVE_INSUFFICIENT_AUDIO_ACTIVITY"
  | other =>
    if "error".toList <:+: other.toList then some "ELEVENLABS_LIVE_PROVIDER_ERROR" else none

def parseText (floats : FloatText) (payload : String) : Except ParseFailure ParsedLiveMessage :=
  if Text.len payload > MAX_PROVIDER_MESSAGE_BYTES then .error malformed
  else
    match Json.parseValue floats payload with
    | some (.object object) =>
      match get object "message_type" with
      | some (.string "session_started") =>
        .ok (.sessionStarted (match get object "session_id" with
          | some (.string reference) => safeReference reference
          | _ => none))
      | some (.string "partial_transcript") => parseTranscript floats.readF32 object .partial_
      | some (.string "final_transcript") | some (.string "final_transcript_with_timestamps") =>
        parseTranscript floats.readF32 object .segmentFinal
      | some (.string "committed_transcript")
      | some (.string "committed_transcript_with_timestamps") =>
        parseTranscript floats.readF32 object .utteranceFinal
      | some (.string kind) =>
        .ok (match terminalErrorCode kind with
          | some code => .terminalError code
          | none => .ignore)
      | _ => .error malformed
    | _ => .error malformed

end Voicetext.Providers.ElevenLabs
