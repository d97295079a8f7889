import Voicetext.Speech.Application.Ports
import Voicetext.Speech.Domain.Live

/-!
# Consumer-owned models of the live application

The configuration of a live recognizer session, the audio written to it and the normalized events it
emits. Times are milliseconds held in unsigned 64-bit integers.
-/

namespace Voicetext.Speech.Application

open Voicetext.Speech.Domain

/-- Immutable live provider/model identity selected before opening a session. -/
structure LiveProfile where
  protocolVersion : UInt16
  provider : String
  model : String
  language : String
deriving DecidableEq

/-- Provider-neutral configuration for one live recognizer session. -/
structure LiveRecognitionRequest where
  profile : LiveProfile
  sampleRateHz : UInt32
  channels : UInt8
  keyterms : List String
deriving DecidableEq

/-- One normalized PCM S16LE write correlated to the gateway's raw-audio sequence. -/
structure LiveAudioFrame where
  sequence : RawAudioSequence
  pcmS16le : List UInt8
deriving DecidableEq

/-- Stability of one normalized provider transcript event. -/
inductive LiveTranscriptStability
  | partial_
  | segmentFinal
  | utteranceFinal
deriving DecidableEq

/-- Provider-neutral live transcript timing and text. -/
structure LiveTranscript where
  text : String
  startMillis : ℕ
  durationMillis : ℕ
  confidence : Option Float32
  stability : LiveTranscriptStability
deriving DecidableEq

/-- Where a transcript ends. -/
def LiveTranscript.endMillis (transcript : LiveTranscript) : ℕ :=
  transcript.startMillis + transcript.durationMillis

/-- Whether a transcript may no longer be revised. -/
def LiveTranscript.isFinal (transcript : LiveTranscript) : Bool := transcript.stability ≠ .partial_

/-- Normalized event stream emitted by a live recognizer. -/
inductive LiveRecognitionEvent
  | transcript (transcript : LiveTranscript)
  | utteranceEnd (lastWordEndMillis : ℕ)
  | finalizeResultObserved
deriving DecidableEq

end Voicetext.Speech.Application
