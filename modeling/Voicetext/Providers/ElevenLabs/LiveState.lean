import Voicetext.Common.U64
import Voicetext.Providers.ElevenLabs.LiveDto

/-!
# Transcripts on a timeline synthesized from accepted audio

The provider's own timing is not authoritative, so every transcript is placed between the end of the
evidence already returned and the end of the audio written so far. A committed utterance is reconciled
with the segment finals returned before it, and repetitions at one audio boundary are suppressed.
-/

namespace Voicetext.Providers.ElevenLabs

open Voicetext.Common Voicetext.Speech.Application

def BYTES_PER_SAMPLE : ℕ := 2

def MAX_RECENT_TEXTS : ℕ := 8

def MAX_PENDING_EVENTS : ℕ := 4

/-- The Unicode tables behind `char::is_alphanumeric` and `char::to_lowercase`. -/
structure UnicodeTables where
  isAlphanumeric : Char → Bool
  toLowercase : Char → List Char

/-- Texts with the audio boundary at which they were returned, oldest first. -/
abbrev RecentTexts := List (ℕ × String)

structure LiveState where
  sampleRateHz : UInt32
  userAudioBytes : ℕ
  acceptedAudioBoundary : ℕ
  segmentEndMillis : ℕ
  committedEndMillis : ℕ
  finalizing : Bool
  stableText : String
  recentStable : RecentTexts
  recentCommitted : RecentTexts
  pending : List LiveRecognitionEvent
  providerReference : Option ProviderReference

def transcriptEvent (text : String) (startMillis endMillis : ℕ) (confidence : Option Float32)
    (stability : LiveTranscriptStability) : LiveRecognitionEvent :=
  .transcript ⟨text, startMillis, U64.saturatingSub endMillis startMillis, confidence, stability⟩

/-- The letters and digits of a text in lower case. -/
def normalize (tables : UnicodeTables) (text : String) : String :=
  .ofList (((Text.splitWhitespace text).flatten.filter tables.isAlphanumeric).flatMap tables.toLowercase)

/-- Walk a text from a position with the token being read and where it starts. -/
def lexicalTokensFrom (tables : UnicodeTables) (index : ℕ) (current : List Char) (start : ℕ) :
    List Char → List (String × ℕ)
  | [] => if current = [] then [] else [(.ofList current, start)]
  | character :: rest =>
    if tables.isAlphanumeric character then
      lexicalTokensFrom tables (index + 1) (current ++ tables.toLowercase character)
        (if current = [] then index else start) rest
    else if current = [] then lexicalTokensFrom tables (index + 1) current start rest
    else (.ofList current, start) :: lexicalTokensFrom tables (index + 1) [] start rest

/-- The lower-case alphanumeric tokens of a text with the positions of their first characters. -/
def lexicalTokens (tables : UnicodeTables) (text : String) : List (String × ℕ) :=
  lexicalTokensFrom tables 0 [] 0 text.toList

/-- What a committed text adds to the stable text it starts with; nothing when it does not. -/
def committedSuffixAfterStablePrefix (tables : UnicodeTables) (committed stable : String) :
    Option String :=
  let stableTokens := lexicalTokens tables stable
  let committedTokens := lexicalTokens tables committed
  if stableTokens = [] then none
  else if stableTokens.length > committedTokens.length ∨
      ¬ (stableTokens.zip committedTokens).all fun (stable, committed) => stable.1 = committed.1 then
    none
  else
    match committedTokens[stableTokens.length]? with
    | none => some ""
    | some (_, start) => some (Text.trim (.ofList (committed.toList.drop start)))

def containsAtBoundary (queue : RecentTexts) (boundary : ℕ) (normalized : String) : Bool :=
  queue.any fun (seenBoundary, value) => seenBoundary = boundary && value = normalized

def remember (queue : RecentTexts) (boundary : ℕ) (value : String) : RecentTexts :=
  (if queue.length = MAX_RECENT_TEXTS then queue.tail else queue) ++ [(boundary, value)]

def appendStable (accumulator text : String) : String :=
  (if accumulator = "" then accumulator else accumulator ++ " ") ++ Text.trim text

def pushPending (queue : List LiveRecognitionEvent) (event : LiveRecognitionEvent) :
    List LiveRecognitionEvent :=
  (if queue.length = MAX_PENDING_EVENTS then queue.tail else queue) ++ [event]

namespace LiveState

def new (sampleRateHz : UInt32) (providerReference : Option ProviderReference) : LiveState :=
  { sampleRateHz
    userAudioBytes := 0
    acceptedAudioBoundary := 0
    segmentEndMillis := 0
    committedEndMillis := 0
    finalizing := false
    stableText := ""
    recentStable := []
    recentCommitted := []
    pending := []
    providerReference }

variable (state : LiveState)

def recordAudio (bytes : ℕ) : LiveState :=
  { state with
    userAudioBytes := U64.saturatingAdd state.userAudioBytes (min bytes U64.MAX)
    acceptedAudioBoundary := U64.saturatingAdd state.acceptedAudioBoundary 1 }

def hasUserAudio : Bool := state.userAudioBytes ≠ 0

def beginFinalize : LiveState := { state with finalizing := state.hasUserAudio }

def cancelFinalize : LiveState := { state with finalizing := false }

def popPending : LiveState × Option LiveRecognitionEvent :=
  ({ state with pending := state.pending.tail }, state.pending.head?)

def currentSegmentStart : ℕ := max state.segmentEndMillis state.committedEndMillis

def userAudioMillis : ℕ :=
  (U64.checkedDiv (U64.saturatingMul state.userAudioBytes 1000)
    (state.sampleRateHz.toNat * BYTES_PER_SAMPLE)).getD 0

/-- A partial is placed after the last segment and changes nothing. -/
def partialTranscript (tables : UnicodeTables) (text : String) (confidence : Option Float32) :
    LiveState × Option LiveRecognitionEvent :=
  (state, if normalize tables text = "" then none
    else some (transcriptEvent text state.currentSegmentStart state.userAudioMillis confidence .partial_))

/-- A segment final is returned once at an audio boundary and extends the stable text. -/
def segmentFinal (tables : UnicodeTables) (text : String) (confidence : Option Float32) :
    LiveState × Option LiveRecognitionEvent :=
  let normalized := normalize tables text
  if normalized = "" ∨ containsAtBoundary state.recentStable state.acceptedAudioBoundary normalized then
    (state, none)
  else
    let start := state.currentSegmentStart
    let segmentEndMillis := max state.userAudioMillis start
    ({ state with
        segmentEndMillis
        recentStable := remember state.recentStable state.acceptedAudioBoundary normalized
        stableText := appendStable state.stableText text },
      some (transcriptEvent text start segmentEndMillis confidence .segmentFinal))

/-- What an utterance final adds to the stable text, unless it repeats what was returned before. -/
def committedEvent (tables : UnicodeTables) (text : String) (confidence : Option Float32)
    (endMillis : ℕ) : Option LiveRecognitionEvent :=
  let normalized := normalize tables text
  let commitStart := state.committedEndMillis
  let stableBoundary := max commitStart (min state.segmentEndMillis endMillis)
  let reconciliation := committedSuffixAfterStablePrefix tables text state.stableText
  let hadStable := Text.trim state.stableText ≠ ""
  let duplicate := normalized = "" ∨
    containsAtBoundary state.recentCommitted state.acceptedAudioBoundary normalized ∨
    reconciliation = some "" ∨ (hadStable ∧ reconciliation = none)
  let (resultText, start) := match reconciliation with
    | some suffix => if suffix = "" then (text, commitStart) else (suffix, stableBoundary)
    | none => (text, commitStart)
  if duplicate then none
  else some (transcriptEvent resultText start endMillis confidence .utteranceFinal)

/-- An utterance final closes the utterance; the first one of a finalize is its observed result. -/
def utteranceFinal (tables : UnicodeTables) (text : String) (confidence : Option Float32) :
    LiveState × Option LiveRecognitionEvent :=
  let normalized := normalize tables text
  let endMillis := max state.userAudioMillis state.committedEndMillis
  let event := state.committedEvent tables text confidence endMillis
  let committed := { state with
    committedEndMillis := endMillis
    segmentEndMillis := endMillis
    recentCommitted :=
      if normalized = "" then state.recentCommitted
      else remember state.recentCommitted state.acceptedAudioBoundary normalized
    stableText := ""
    finalizing := false }
  if state.finalizing then
    match event with
    | some event =>
      ({ committed with pending := pushPending committed.pending .finalizeResultObserved }, some event)
    | none => (committed, some .finalizeResultObserved)
  else (committed, event)

def transcript (tables : UnicodeTables) (kind : TranscriptKind) (text : String)
    (confidence : Option Float32) : LiveState × Option LiveRecognitionEvent :=
  match kind with
  | .partial_ => state.partialTranscript tables text confidence
  | .segmentFinal => state.segmentFinal tables text confidence
  | .utteranceFinal => state.utteranceFinal tables text confidence

def apply (tables : UnicodeTables) : ParsedLiveMessage → LiveState × Option LiveRecognitionEvent
  | .sessionStarted (some reference) =>
    ({ state with providerReference := some ⟨reference, some .sessionId⟩ }, none)
  | .sessionStarted none => (state, none)
  | .transcript kind text confidence => state.transcript tables kind text confidence
  | .ignore | .terminalError _ => (state, none)

end LiveState

end Voicetext.Providers.ElevenLabs
