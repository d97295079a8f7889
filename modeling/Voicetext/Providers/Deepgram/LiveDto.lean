import Voicetext.Common.Decimal
import Voicetext.Providers.Fields
import Voicetext.Speech.Application.LivePorts

/-!
# Messages of the live transcription socket

A `Results` message is accepted only when all of its fields are valid; its times are rounded to
milliseconds one by one. Numbers are read as the exact rationals they spell, except confidences, whose
floating-point reading is a parameter.
-/

namespace Voicetext.Providers.Deepgram

open Voicetext.Common Voicetext.Speech.Application

def MAX_PROVIDER_TEXT_BYTES : ℕ := 256 * 1024

def MAX_TRANSCRIPT_BYTES : ℕ := 64 * 1024

def MALFORMED_RESPONSE : String := "DEEPGRAM_LIVE_MALFORMED_RESPONSE"

inductive ParsedLiveMessage
  | events (primary : LiveRecognitionEvent) (followUp : Option LiveRecognitionEvent)
  | metadata (requestId : Option String)
  | terminalError
  | ignore

structure ParseFailure where
  code : String
deriving DecidableEq

def malformed : ParseFailure := ⟨MALFORMED_RESPONSE⟩

/-- Nanoseconds in a second. -/
def NANOS_PER_SEC : ℕ := 1000000000

/-- `Duration::try_from_secs_f64`: the nearest number of nanoseconds, ties to even. -/
def durationFromSecs (seconds : ℚ) : Option ℕ :=
  let nanos := seconds * NANOS_PER_SEC
  let whole := nanos.floor
  let fraction := nanos - whole
  let rounded := if fraction < 1 / 2 ∨ (fraction = 1 / 2 ∧ whole % 2 = 0) then whole else whole + 1
  if seconds < 0 ∨ rounded ≥ 2 ^ 64 * NANOS_PER_SEC then none else some rounded.toNat

/-- `Duration::checked_add`. -/
def durationAdd (a b : ℕ) : Option ℕ := if a + b < 2 ^ 64 * NANOS_PER_SEC then some (a + b) else none

/-- Round to milliseconds; nothing when they do not fit. -/
def secondsToMillis (seconds : ℚ) : Option ℕ :=
  (durationFromSecs seconds).bind fun duration =>
    (durationAdd duration 500000).bind fun rounded =>
      if rounded / 1000000 ≤ U64.MAX then some (rounded / 1000000) else none

def requiredNonNegative : Option Json → Except ParseFailure ℚ
  | some (.number literal) => if 0 ≤ literal.toRat then .ok literal.toRat else .error malformed
  | _ => .error malformed

def optionalBool : Option Json → Except ParseFailure Bool
  | none => .ok false
  | some (.bool value) => .ok value
  | some _ => .error malformed

def parseConfidence (readF32 : NumberLiteral → Option Float32) :
    Option Json → Except ParseFailure (Option Float32) :=
  confidenceField malformed readF32

/-- A time field in milliseconds. -/
def millisField (object : List (String × Json)) (key : String) : Except ParseFailure ℕ := do
  let seconds ← requiredNonNegative (get object key)
  (secondsToMillis seconds).elim (.error malformed) .ok

/-- The first alternative of the channel. -/
def firstAlternative (object : List (String × Json)) : Except ParseFailure (List (String × Json)) :=
  match get object "channel" with
  | some (.object channel) =>
    match get channel "alternatives" with
    | some (.array (.object alternative :: _)) => .ok alternative
    | _ => .error malformed
  | _ => .error malformed

def parseResults (readF32 : NumberLiteral → Option Float32) (object : List (String × Json)) :
    Except ParseFailure ParsedLiveMessage := do
  let start ← requiredNonNegative (get object "start")
  let duration ← requiredNonNegative (get object "duration")
  let startMillis ← (secondsToMillis start).elim (.error malformed) .ok
  let durationMillis ← (secondsToMillis duration).elim (.error malformed) .ok
  let isFinal ← optionalBool (get object "is_final")
  let speechFinal ← optionalBool (get object "speech_final")
  let fromFinalize ← optionalBool (get object "from_finalize")
  let alternative ← firstAlternative object
  let text ← textField malformed alternative "transcript" MAX_TRANSCRIPT_BYTES
  let confidence ← parseConfidence readF32 (get alternative "confidence")
  -- a textless finalize acknowledgement is control evidence, not a transcript
  if text = "" ∧ fromFinalize then return .events .finalizeResultObserved none
  else if text = "" ∧ ¬ isFinal ∧ ¬ speechFinal ∧ ¬ fromFinalize then return .ignore
  else
    let stability := if speechFinal then .utteranceFinal else if isFinal then .segmentFinal else .partial_
    return .events (.transcript ⟨text, startMillis, durationMillis, confidence, stability⟩)
      (if fromFinalize then some .finalizeResultObserved else none)

def parseUtteranceEnd (object : List (String × Json)) : Except ParseFailure ParsedLiveMessage := do
  let lastWordEndMillis ← millisField object "last_word_end"
  return .events (.utteranceEnd lastWordEndMillis) none

def safeRequestId (value : String) : Option String := printableReference value

def parseText (floats : FloatText) (payload : String) : Except ParseFailure ParsedLiveMessage :=
  if Text.len payload > MAX_PROVIDER_TEXT_BYTES then .error malformed
  else
    match Json.parseValue floats payload with
    | some (.object object) =>
      match get object "type" with
      | some (.string "Results") => parseResults floats.readF32 object
      | some (.string "UtteranceEnd") => parseUtteranceEnd object
      | some (.string "Metadata") =>
        .ok (.metadata (match get object "request_id" with
          | some (.string requestId) => safeRequestId requestId
          | _ => none))
      | some (.string "Error") => .ok .terminalError
      | some (.string _) => .ok .ignore
      | _ => .error malformed
    | _ => .error malformed

end Voicetext.Providers.Deepgram
