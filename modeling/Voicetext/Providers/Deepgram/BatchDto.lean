import Voicetext.Common.JsonPointer
import Voicetext.Common.Words
import Voicetext.Providers.Deepgram.LiveDto

/-!
# Responses of the batch transcription service

A response is accepted only when its metadata, its transcript and all of its utterances are valid. The sentences
of its paragraphs are a second, optional projection of the same speech, which is dropped as a whole when any part
of it is not usable. Numbers are read by parameters, with finite floating-point numbers as the rationals they are.
-/

namespace Voicetext.Providers.Deepgram.Batch

open Voicetext.Common Voicetext.Speech.Application

def MALFORMED_RESPONSE : String := "DEEPGRAM_MALFORMED_RESPONSE"

def MAX_READABLE_SEGMENTS : ℕ := 10000

def MAX_READABLE_SEGMENT_TEXT_BYTES : ℕ := 64 * 1024

def MAX_SOURCE_SEGMENTS : ℕ := 4096

def MAX_SOURCE_REFERENCES : ℕ := 100000

structure ParsedSegment where
  startMs : ℕ
  endMs : ℕ
  text : String
  confidence : Option Float32
  speaker : Option String
  startSeconds : ℚ
  endSeconds : ℚ

structure ParsedReadableSegment where
  startMs : ℕ
  endMs : ℕ
  text : String
  sourceSegmentIndices : List ℕ
deriving DecidableEq

structure ParsedBatchResult where
  text : String
  providerDurationMs : ℕ
  segments : List ParsedSegment
  readableSegments : List ParsedReadableSegment
  providerRequestId : Option String

structure ParseFailure where
  code : String
  providerRequestId : Option String
deriving DecidableEq

def malformed (providerRequestId : Option String) : ParseFailure := ⟨MALFORMED_RESPONSE, providerRequestId⟩

/-- How the JSON library reads the numbers of a value. -/
structure NumberReaders where
  readF64 : NumberLiteral → Option ℚ
  readF32 : NumberLiteral → Option Float32

/-- `Value::as_i64`: an integer without fraction or exponent, within the range. -/
def asI64 : Json → Option ℤ
  | .number literal =>
    match literal.chars with
    | '-' :: digits =>
      let magnitude := Nat.ofDigitChars 10 digits 0
      if digits.all Char.isDigit ∧ 0 < magnitude ∧ magnitude ≤ 2 ^ 63 then some (-magnitude) else none
    | digits =>
      let magnitude := Nat.ofDigitChars 10 digits 0
      if digits.all Char.isDigit ∧ magnitude < 2 ^ 63 then some magnitude else none
  | _ => none

/-- The path of the first alternative. -/
def alternativePath : List String := ["results", "channels", "0", "alternatives", "0"]

section Parsing

variable (readers : NumberReaders)

def finiteNonNegative : Option Json → Option ℚ
  | some (.number literal) => (readers.readF64 literal).filter fun value => 0 ≤ value
  | _ => none

def normalizeText (value : String) : String := Text.joinWords (Text.splitWhitespace value)

def parseUtterance (providerRequestId : Option String) (value : Json) : Except ParseFailure ParsedSegment := do
  let object ← value.asObject.elim (.error (malformed providerRequestId)) .ok
  let start ← (finiteNonNegative readers (Json.lookup object "start")).elim
    (.error (malformed providerRequestId)) .ok
  let stop ← ((finiteNonNegative readers (Json.lookup object "end")).filter fun stop => start ≤ stop).elim
    (.error (malformed providerRequestId)) .ok
  let startMs ← (secondsToMillis start).elim (.error (malformed providerRequestId)) .ok
  let endMs ← (secondsToMillis stop).elim (.error (malformed providerRequestId)) .ok
  let text ← ((Json.lookup object "transcript").bind Json.asString).elim
    (.error (malformed providerRequestId)) .ok
  let confidence := ((Json.lookup object "confidence").bind fun value =>
    match value with
    | .number literal => readers.readF32 literal
    | _ => none).filter validConfidence
  let speaker := ((Json.lookup object "speaker").bind asI64).map toString
  return ⟨startMs, endMs, text, confidence, speaker, start, stop⟩

/-- The variables of the walk over the sentences. -/
structure ReadableState where
  result : List ParsedReadableSegment
  referenceCount : ℕ
  previousEndSeconds : Option ℚ

/-- The segments a sentence overlaps. -/
def sourceIndices (sourceSegments : List ParsedSegment) (start stop : ℚ) : List ℕ :=
  (sourceSegments.zipIdx.filter fun source =>
    source.1.startSeconds < stop ∧ start < source.1.endSeconds).map Prod.snd

def readSentence (durationSeconds : ℚ) (sourceSegments : List ParsedSegment) (state : ReadableState)
    (sentence : Json) : Option ReadableState := do
  let object ← sentence.asObject
  let start ← finiteNonNegative readers (Json.lookup object "start")
  let stop ← (finiteNonNegative readers (Json.lookup object "end")).filter fun stop =>
    start < stop ∧ stop ≤ durationSeconds
  if state.previousEndSeconds.any fun previous => start < previous then none
  else
    let text ← (Json.lookup object "text").bind Json.asString
    if text = "" ∨ Text.len text > MAX_READABLE_SEGMENT_TEXT_BYTES then none
    else
      let startMs ← secondsToMillis start
      let endMs ← secondsToMillis stop
      let indices := sourceIndices sourceSegments start stop
      if indices = [] then none
      else
        let referenceCount ← U64.checkedAdd state.referenceCount indices.length
        if referenceCount > MAX_SOURCE_REFERENCES then none
        else some ⟨state.result ++ [⟨startMs, endMs, text, indices⟩], referenceCount, some stop⟩

/-- The sentences of the paragraphs, when all of them are usable and say the transcript. -/
def parseReadableSegments (payload : Json) (transcript : String) (durationSeconds : ℚ)
    (sourceSegments : List ParsedSegment) : Option (List ParsedReadableSegment) := do
  let paragraphs ← (payload.pointer (alternativePath ++ ["paragraphs", "paragraphs"])).bind Json.asItems
  let sentenceGroups ← paragraphs.mapM fun paragraph => (paragraph.member "sentences").bind Json.asItems
  if (sentenceGroups.map List.length).sum > MAX_READABLE_SEGMENTS ∨
      sourceSegments.length > MAX_SOURCE_SEGMENTS then none
  else
    let state ← sentenceGroups.flatten.foldlM (readSentence readers durationSeconds sourceSegments) ⟨[], 0, none⟩
    let coveredText := " ".intercalate (state.result.map ParsedReadableSegment.text)
    if normalizeText coveredText = normalizeText transcript then some state.result else none

/-- A response but for its readable segments, with its duration in seconds. -/
def parseShared (payload : Json) (headerRequestId : Option String) :
    Except ParseFailure (ParsedBatchResult × ℚ) := do
  let metadata ← ((payload.member "metadata").bind Json.asObject).elim (.error (malformed headerRequestId)) .ok
  let providerRequestId :=
    (((Json.lookup metadata "request_id").bind Json.asString).bind safeRequestId).or headerRequestId
  let durationSeconds ← (finiteNonNegative readers (Json.lookup metadata "duration")).elim
    (.error (malformed providerRequestId)) .ok
  let providerDurationMs ← (secondsToMillis durationSeconds).elim (.error (malformed providerRequestId)) .ok
  let alternative ← ((payload.pointer alternativePath).bind Json.asObject).elim
    (.error (malformed providerRequestId)) .ok
  let text ← ((Json.lookup alternative "transcript").bind Json.asString).elim
    (.error (malformed providerRequestId)) .ok
  let utterances ← ((payload.pointer ["results", "utterances"]).bind Json.asItems).elim
    (.error (malformed providerRequestId)) .ok
  let segments ← utterances.mapM (parseUtterance readers providerRequestId)
  return (⟨text, providerDurationMs, segments, [], providerRequestId⟩, durationSeconds)

/-- Parse what the JSON library reads of a response, which is nothing when it is not JSON. -/
def parseResponse (payload : Option Json) (headerRequestId : Option String) :
    Except ParseFailure ParsedBatchResult := do
  let payload ← payload.elim (.error (malformed headerRequestId)) .ok
  let (shared, durationSeconds) ← parseShared readers payload headerRequestId
  let readableSegments :=
    (parseReadableSegments readers payload shared.text durationSeconds shared.segments).getD []
  return { shared with readableSegments }

end Parsing

end Voicetext.Providers.Deepgram.Batch
