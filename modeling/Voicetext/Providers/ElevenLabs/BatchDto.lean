import Mathlib.Data.Rat.Floor
import Voicetext.Common.JsonFields
import Voicetext.Common.Words
import Voicetext.Providers.Deepgram.LiveDto
import Voicetext.Providers.Fields

/-!
# Responses of the batch word service

One walk over the tokens of a response rebuilds its text and cuts the words into segments, and the rebuilt text
must say what the response says. Times are exact rationals and are clamped to the authoritative duration. Reading
of numbers, the exponential and the narrowing of an average are parameters.
-/

namespace Voicetext.Providers.ElevenLabs.Batch

open Voicetext.Common

def MALFORMED_RESPONSE : String := "ELEVENLABS_MALFORMED_RESPONSE"

def MAX_TRANSCRIPT_BYTES : ℕ := 4 * 1024 * 1024

def MAX_WORDS : ℕ := 100000

def MAX_SEGMENTS : ℕ := 10000

def MAX_TOKEN_BYTES : ℕ := 64 * 1024

def PAUSE_SPLIT_SECONDS : ℚ := 4 / 5

def PUNCTUATION_SPLIT_SECONDS : ℚ := 12

def HARD_SPLIT_SECONDS : ℚ := 20

def TIMESTAMP_TOLERANCE_SECONDS : ℚ := 1 / 4

def TIMESTAMP_RELATIVE_TOLERANCE : ℚ := 1 / 200

inductive ProviderIdentity
  | requestId (value : String)
  | transcriptionId (value : String)
deriving DecidableEq

structure ParsedSegment where
  startMillis : ℕ
  endMillis : ℕ
  text : String
  confidence : Option Float32

structure ParsedBatchResult where
  text : String
  providerDurationMillis : Option ℕ
  segments : List ParsedSegment
  providerIdentity : Option ProviderIdentity

structure ParseFailure where
  code : String
  providerIdentity : Option ProviderIdentity
deriving DecidableEq

def malformed (providerIdentity : Option ProviderIdentity) : ParseFailure := ⟨MALFORMED_RESPONSE, providerIdentity⟩

/-- How finite double-precision numbers are read, exponentiated and narrowed. -/
structure Doubles where
  readF64 : NumberLiteral → Option ℚ
  exp : ℚ → ℚ
  /-- `serde_json::from_value` of a number. -/
  toF32 : ℚ → Option Float32
  exp_unit : ∀ x ≤ 0, 0 ≤ exp x ∧ exp x ≤ 1
  toF32_unit : ∀ x, 0 ≤ x → x ≤ 1 → (toF32 x).isSome = true

structure WordDto where
  kind : String
  text : String
  start : Option ℚ
  stop : Option ℚ
  logprob : Option ℚ
deriving DecidableEq

structure ResponseDto where
  languageCode : String
  languageProbability : ℚ
  text : String
  words : List WordDto
  audioDurationSecs : Option ℚ
  transcriptionId : Option String

section Decoding

variable (doubles : Doubles)

def asF64 : Json → Option ℚ
  | .number literal => doubles.readF64 literal
  | _ => none

/-- The members a record knows; it ignores all others. -/
def knownMembers (names : List String) : Json → Json
  | .object members => .object (members.filter fun member => names.contains member.1)
  | doc => doc

def WordDto.ofJson (doc : Json) : Option WordDto :=
  let names := ["type", "text", "start", "end", "logprob"]
  match Json.fieldsOr names 2 (knownMembers names doc) with
  | some [kind, text, start, stop, logprob] => do
    return ⟨← Json.required Json.asString kind, ← Json.required Json.asString text,
      ← Json.optional (asF64 doubles) start, ← Json.optional (asF64 doubles) stop,
      ← Json.optional (asF64 doubles) logprob⟩
  | _ => none

def ResponseDto.ofJson (doc : Json) : Option ResponseDto :=
  let names := ["language_code", "language_probability", "text", "words", "audio_duration_secs",
    "transcription_id"]
  match Json.fieldsOr names 4 (knownMembers names doc) with
  | some [languageCode, languageProbability, text, words, audioDurationSecs, transcriptionId] => do
    return ⟨← Json.required Json.asString languageCode, ← Json.required (asF64 doubles) languageProbability,
      ← Json.required Json.asString text, ← Json.required (Json.asArray (WordDto.ofJson doubles)) words,
      ← Json.optional (asF64 doubles) audioDurationSecs, ← Json.optional Json.asString transcriptionId⟩
  | _ => none

end Decoding

def secondsToMillis (seconds : ℚ) : Option ℕ := Deepgram.secondsToMillis seconds

def normalizeText (value : String) : String := Text.joinWords (Text.splitWhitespace value)

def endsSentencePunctuation (value : String) : Bool :=
  (value.toList.rdropWhile Text.isWhitespace).getLast?.any fun c =>
    ['.', '!', '?', '。', '！', '？'].contains c

def safeRequestId (value : String) : Option String := printableReference value

structure SegmentBuilder where
  text : String
  startSeconds : ℚ
  endSeconds : ℚ
  confidenceSum : ℚ
  confidenceCount : ℕ
  wordCount : ℕ

namespace SegmentBuilder

def new (startSeconds endSeconds : ℚ) (text : String) (confidence : Option ℚ) : SegmentBuilder where
  text := text
  startSeconds := startSeconds
  endSeconds := endSeconds
  confidenceSum := confidence.getD 0
  confidenceCount := if confidence.isSome then 1 else 0
  wordCount := 1

def pushWord (segment : SegmentBuilder) (text : String) (endSeconds : ℚ) (confidence : Option ℚ) :
    SegmentBuilder :=
  { segment with
    text := segment.text ++ text
    endSeconds := endSeconds
    wordCount := segment.wordCount + 1
    confidenceSum := segment.confidenceSum + confidence.getD 0
    confidenceCount := segment.confidenceCount + if confidence.isSome then 1 else 0 }

def pushSpacing (segment : SegmentBuilder) (text : String) : SegmentBuilder :=
  { segment with text := segment.text ++ text }

def finish (doubles : Doubles) (segment : SegmentBuilder) : Option ParsedSegment := do
  let confidence :=
    if segment.confidenceCount = segment.wordCount ∧ segment.wordCount < 2 ^ 32 then
      doubles.toF32 (segment.confidenceSum / segment.wordCount)
    else none
  return ⟨← secondsToMillis segment.startSeconds, ← secondsToMillis segment.endSeconds, segment.text, confidence⟩

end SegmentBuilder

/-- The variables of the walk over the tokens. -/
structure WalkState where
  reconstructed : String := ""
  segments : List ParsedSegment := []
  current : Option SegmentBuilder := none
  previousWordEnd : Option ℚ := none

section Parsing

variable (doubles : Doubles) (providerIdentity : Option ProviderIdentity)

def validateEnvelope (payload : ResponseDto) : Except ParseFailure Unit :=
  if payload.words.length > MAX_WORDS ∨ Text.trim payload.languageCode = "" ∨
      ¬ (0 ≤ payload.languageProbability ∧ payload.languageProbability ≤ 1) then
    .error (malformed providerIdentity)
  else .ok ()

def boundedTimestamp (value : Option ℚ) (authoritativeSeconds : ℚ) : Except ParseFailure ℚ := do
  let value ← value.elim (.error (malformed providerIdentity)) .ok
  let tolerance := max TIMESTAMP_TOLERANCE_SECONDS (authoritativeSeconds * TIMESTAMP_RELATIVE_TOLERANCE)
  if value < 0 ∨ value > authoritativeSeconds + tolerance then .error (malformed providerIdentity)
  else .ok (min value authoritativeSeconds)

def logProbability (value : ℚ) : Except ParseFailure ℚ :=
  if value > 0 then .error (malformed providerIdentity) else .ok (doubles.exp value)

/-- The confidence of a word, which may have none. -/
def wordConfidence : Option ℚ → Except ParseFailure (Option ℚ)
  | none => .ok none
  | some value => (logProbability doubles providerIdentity value).map some

def pushSegment (segments : List ParsedSegment) : Option SegmentBuilder → Except ParseFailure (List ParsedSegment)
  | none => .ok segments
  | some segment =>
    if Text.trim segment.text = "" ∨ segments.length = MAX_SEGMENTS then .error (malformed providerIdentity)
    else do
      let segment ← (segment.finish doubles).elim (.error (malformed providerIdentity)) .ok
      if segment.endMillis ≤ segment.startMillis ∨
          segments.getLast?.any (fun previous => segment.startMillis < previous.endMillis) then
        .error (malformed providerIdentity)
      else .ok (segments ++ [segment])

/-- Whether a word with its times begins a segment behind another. -/
def shouldSplit (previousWordEnd : Option ℚ) (segment : SegmentBuilder) (start stop : ℚ) : Bool :=
  previousWordEnd.any (fun previous => start - previous ≥ PAUSE_SPLIT_SECONDS) ||
    decide (stop - segment.startSeconds > HARD_SPLIT_SECONDS) ||
    (decide (start - segment.startSeconds ≥ PUNCTUATION_SPLIT_SECONDS) && endsSentencePunctuation segment.text)

/-- The current segment is closed when a word with its times begins another. -/
def splitAtWord (state : WalkState) (start stop : ℚ) : Except ParseFailure WalkState :=
  if state.current.any fun segment => shouldSplit state.previousWordEnd segment start stop then
    (pushSegment doubles providerIdentity state.segments state.current).map fun segments =>
      { state with segments := segments, current := none }
  else .ok state

def readWord (authoritativeSeconds : ℚ) (state : WalkState) (word : WordDto) :
    Except ParseFailure WalkState :=
  if word.text = "" then .error (malformed providerIdentity)
  else do
    let start ← boundedTimestamp providerIdentity word.start authoritativeSeconds
    let stop ← boundedTimestamp providerIdentity word.stop authoritativeSeconds
    if stop ≤ start ∨ state.previousWordEnd.any (fun previous => start < previous) then
      .error (malformed providerIdentity)
    else
      let confidence ← wordConfidence doubles providerIdentity word.logprob
      let state ← splitAtWord doubles providerIdentity state start stop
      let current := match state.current with
        | some segment => segment.pushWord word.text stop confidence
        | none => SegmentBuilder.new start stop word.text confidence
      return { state with
        current := some current
        previousWordEnd := some stop
        reconstructed := state.reconstructed ++ word.text }

def readSpacing (state : WalkState) (word : WordDto) : WalkState :=
  { state with
    reconstructed := state.reconstructed ++ word.text
    current := state.current.map fun segment => segment.pushSpacing word.text }

/-- The size of the rebuilt text is checked behind each token which adds to it. -/
def boundedText (state : WalkState) : Except ParseFailure WalkState :=
  if Text.len state.reconstructed > MAX_TRANSCRIPT_BYTES then .error (malformed providerIdentity) else .ok state

def readToken (authoritativeSeconds : ℚ) (state : WalkState) (word : WordDto) :
    Except ParseFailure WalkState :=
  if Text.len word.text > MAX_TOKEN_BYTES then .error (malformed providerIdentity)
  else
    match word.kind with
    | "audio_event" => .ok state
    | "spacing" => boundedText providerIdentity (readSpacing state word)
    | "word" => do
      let state ← readWord doubles providerIdentity authoritativeSeconds state word
      boundedText providerIdentity state
    | _ => .error (malformed providerIdentity)

/-- The duration a response tells, which is optional. -/
def providerDuration : Option ℚ → Except ParseFailure (Option ℕ)
  | none => .ok none
  | some seconds =>
    (secondsToMillis seconds).elim (.error (malformed providerIdentity)) fun millis => .ok (some millis)

/-- A decoded response. -/
def parsePayload (payload : ResponseDto) (authoritativeDurationMillis : ℕ) :
    Except ParseFailure ParsedBatchResult := do
  validateEnvelope providerIdentity payload
  let authoritativeSeconds : ℚ := authoritativeDurationMillis / 1000
  let state ← payload.words.foldlM (readToken doubles providerIdentity authoritativeSeconds) {}
  let segments ← pushSegment doubles providerIdentity state.segments state.current
  if normalizeText state.reconstructed ≠ normalizeText payload.text ∨
      Text.len payload.text > MAX_TRANSCRIPT_BYTES ∨ decide (Text.trim payload.text = "") ≠ segments.isEmpty then
    .error (malformed providerIdentity)
  else
    let providerDurationMillis ← providerDuration providerIdentity payload.audioDurationSecs
    return ⟨payload.text, providerDurationMillis, segments, providerIdentity⟩

end Parsing

/-- Parse the document of a response, which is nothing when it is not JSON. -/
def parseResponse (floats : FloatText) (doubles : Doubles) (document : Option Json)
    (authoritativeDurationMillis : ℕ) (headerRequestId : Option String) :
    Except ParseFailure ParsedBatchResult := do
  let headerIdentity := headerRequestId.map .requestId
  -- the identity is taken from the value, so that it survives a response of another shape
  let payload ← (document.bind (Json.toValue floats)).elim (.error (malformed headerIdentity)) .ok
  let transcriptionId := ((payload.member "transcription_id").bind Json.asString).bind safeRequestId
  let providerIdentity := (transcriptionId.map .transcriptionId).or headerIdentity
  let payload ← (document.bind (ResponseDto.ofJson doubles)).elim (.error (malformed providerIdentity)) .ok
  parsePayload doubles providerIdentity payload authoritativeDurationMillis

end Voicetext.Providers.ElevenLabs.Batch
