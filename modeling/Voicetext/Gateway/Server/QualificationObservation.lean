import Voicetext.Common.Framing
import Voicetext.Gateway.Storage.Spool
import Voicetext.Speech.Application.LivePorts

/-!
# Bounded observations of qualification runs

A live tracker counts what a session accepts, writes and acknowledges, and feeds two hashers: the raw frames
it acknowledges and the events its provider returns. A batch result is hashed in one piece. A hasher is the
bytes fed to it so far, and only what is in memory is fed, so every length fits 64 bits.
-/

namespace Voicetext.Gateway.Server

open Voicetext.Common Voicetext.Speech.Application
open Voicetext.Gateway.Storage (Sha256Digest hexEncode)

def FRAME_DIGEST_PREFIX : List UInt8 := Text.asBytes "voicetext-acked-frames-v1\n"

def RESULT_DIGEST_PREFIX : List UInt8 := Text.asBytes "voicetext-normalized-result-v1\n"

structure ObservationProfile where
  contractVersion : UInt16
  provider : String
  model : String
  language : String
deriving DecidableEq

/-- A provider-native operation identity. -/
structure ProviderOperation where
  kind : ProviderOperationKind
  id : String
deriving DecidableEq

structure OperationObservation where
  kind : String
  id : String
deriving DecidableEq

/-- `OperationObservation::from`. -/
def OperationObservation.ofOperation (value : ProviderOperation) : OperationObservation where
  kind :=
    match value.kind with
    | .requestId => "request_id"
    | .transcriptionId => "transcription_id"
    | .sessionId => "session_id"
  id := value.id

structure SequenceObservation where
  count : UInt64
  first : Option UInt64
  last : Option UInt64
  contiguous : Bool
deriving DecidableEq

/-- `u64::saturating_add(1)`. -/
def saturatingSucc (n : UInt64) : UInt64 := if n = 0xFFFFFFFFFFFFFFFF then n else n + 1

/-- The sequence numbers pushed so far. -/
structure SequenceTracker where
  count : UInt64
  first : Option UInt64
  last : Option UInt64
  contiguous : Bool
deriving DecidableEq

namespace SequenceTracker

/-- `SequenceTracker::default`. -/
def initial : SequenceTracker := ⟨0, none, none, false⟩

def push (tracker : SequenceTracker) (value : UInt64) : SequenceTracker where
  count := saturatingSucc tracker.count
  first := some (tracker.first.getD value)
  last := some value
  contiguous := tracker.count == 0 ||
    tracker.contiguous && tracker.last.any fun last => last != 0xFFFFFFFFFFFFFFFF && last + 1 == value

def finish (tracker : SequenceTracker) : SequenceObservation :=
  ⟨tracker.count, tracker.first, tracker.last, tracker.count == 0 || tracker.contiguous⟩

end SequenceTracker

/-- `u64::try_from(len).unwrap_or(u64::MAX)`. -/
def lengthOrMax (n : ℕ) : ℕ := if n < 2 ^ 64 then n else 2 ^ 64 - 1

/-- Feed a value after its length. -/
def digestBytes (digest value : List UInt8) : List UInt8 := digest ++ Bytes.toBe 8 (lengthOrMax value.length) ++ value

/-- `map_or(u32::MAX, f32::to_bits)`. -/
def confidenceBits (confidence : Option Float32) : UInt32 := confidence.elim 0xFFFFFFFF Float32.toBits

/-- `stability as u8`. -/
def stabilityByte : LiveTranscriptStability → UInt8
  | .partial_ => 0
  | .segmentFinal => 1
  | .utteranceFinal => 2

/-- The tracker of one live session; a hasher is what was fed to it. -/
structure LiveObservationTracker (Uuid : Type) where
  effectId : Uuid
  clientSessionId : Uuid
  gatewaySessionId : Uuid
  profile : ObservationProfile
  startedAtUnixMs : UInt64
  acceptedFrameCount : UInt64
  written : SequenceTracker
  acked : SequenceTracker
  frameDigest : List UInt8
  resultDigest : List UInt8
  finalizeResultObserved : Bool

/-- The record of a finished session. -/
structure LiveObservation (Uuid : Type) where
  schema : String
  effectId : Uuid
  clientSessionId : Uuid
  gatewaySessionId : Uuid
  profile : ObservationProfile
  providerOperation : Option OperationObservation
  acceptedFrameCount : UInt64
  writtenSequences : SequenceObservation
  ackedSequences : SequenceObservation
  ackedRawInputDigest : String
  resultDigest : String
  finalizeResultObserved : Bool
  terminalStatus : String
  startedAtUnixMs : UInt64
  finishedAtUnixMs : UInt64

namespace LiveObservationTracker

variable {Uuid : Type}

/-- `LiveObservationTracker::new`, with the identity it draws and the time it reads. -/
def new (effectId clientSessionId gatewaySessionId : Uuid) (profile : ObservationProfile) (now : UInt64) :
    LiveObservationTracker Uuid where
  effectId
  clientSessionId
  gatewaySessionId
  profile
  startedAtUnixMs := now
  acceptedFrameCount := 0
  written := .initial
  acked := .initial
  frameDigest := FRAME_DIGEST_PREFIX
  resultDigest := RESULT_DIGEST_PREFIX
  finalizeResultObserved := false

variable (tracker : LiveObservationTracker Uuid)

def acceptFrame : LiveObservationTracker Uuid :=
  { tracker with acceptedFrameCount := saturatingSucc tracker.acceptedFrameCount }

def providerWritten (sequence : UInt64) : LiveObservationTracker Uuid :=
  { tracker with written := tracker.written.push sequence }

def ackSent (sequence : UInt64) (raw : List UInt8) : LiveObservationTracker Uuid :=
  { tracker with
    acked := tracker.acked.push sequence
    frameDigest := tracker.frameDigest ++ Bytes.toBe 8 sequence.toNat ++
      Bytes.toBe 8 (lengthOrMax raw.length) ++ raw }

def providerEvent : LiveRecognitionEvent → LiveObservationTracker Uuid
  | .transcript value =>
    { tracker with
      resultDigest := digestBytes (tracker.resultDigest ++ Text.asBytes "transcript\x00") (Text.asBytes value.text) ++
        Bytes.toBe 8 value.startMillis ++ Bytes.toBe 8 value.durationMillis ++
        Bytes.toBe 4 (confidenceBits value.confidence).toNat ++ [stabilityByte value.stability] }
  | .utteranceEnd lastWordEndMillis =>
    { tracker with
      resultDigest := tracker.resultDigest ++ Text.asBytes "utterance_end\x00" ++ Bytes.toBe 8 lastWordEndMillis }
  | .finalizeResultObserved =>
    { tracker with
      resultDigest := tracker.resultDigest ++ Text.asBytes "finalize_result\x00"
      finalizeResultObserved := true }

def finish (sha256 : List UInt8 → Sha256Digest) (providerOperation : Option ProviderOperation)
    (terminalStatus : String) (now : UInt64) : LiveObservation Uuid where
  schema := "voicetext-qualification-observation-v1"
  effectId := tracker.effectId
  clientSessionId := tracker.clientSessionId
  gatewaySessionId := tracker.gatewaySessionId
  profile := tracker.profile
  providerOperation := providerOperation.map OperationObservation.ofOperation
  acceptedFrameCount := tracker.acceptedFrameCount
  writtenSequences := tracker.written.finish
  ackedSequences := tracker.acked.finish
  ackedRawInputDigest := hexEncode (sha256 tracker.frameDigest).bytes
  resultDigest := hexEncode (sha256 tracker.resultDigest).bytes
  finalizeResultObserved := tracker.finalizeResultObserved
  terminalStatus
  startedAtUnixMs := tracker.startedAtUnixMs
  finishedAtUnixMs := now

end LiveObservationTracker

/-! ## Runs of a tracker -/

/-- A raw frame in memory. -/
abbrev RawFrame := {raw : List UInt8 // Framable raw}

/-- An event in memory: its times are 64-bit numbers, and so is the length of its text. -/
def InMemory : LiveRecognitionEvent → Prop
  | .transcript value =>
    Framable (Text.asBytes value.text) ∧ value.startMillis < 2 ^ 64 ∧ value.durationMillis < 2 ^ 64
  | .utteranceEnd lastWordEndMillis => lastWordEndMillis < 2 ^ 64
  | .finalizeResultObserved => True

/-- A call of a tracker. -/
inductive TrackerCall
  | acceptFrame
  | providerWritten (sequence : UInt64)
  | ackSent (sequence : UInt64) (raw : RawFrame)
  | providerEvent (event : {event : LiveRecognitionEvent // InMemory event})

namespace LiveObservationTracker

variable {Uuid : Type}

def apply (tracker : LiveObservationTracker Uuid) : TrackerCall → LiveObservationTracker Uuid
  | .acceptFrame => tracker.acceptFrame
  | .providerWritten sequence => tracker.providerWritten sequence
  | .ackSent sequence raw => tracker.ackSent sequence raw.1
  | .providerEvent event => tracker.providerEvent event.1

/-- A tracker after the calls of a session. -/
def run (tracker : LiveObservationTracker Uuid) (calls : List TrackerCall) : LiveObservationTracker Uuid :=
  calls.foldl apply tracker

end LiveObservationTracker

/-- The acknowledgements of a run, in order. -/
def acknowledgements (calls : List TrackerCall) : List (UInt64 × List UInt8) :=
  calls.filterMap fun call =>
    match call with
    | .ackSent sequence raw => some (sequence, raw.1)
    | _ => none

/-- The provider events of a run, in order. -/
def providerEvents (calls : List TrackerCall) : List LiveRecognitionEvent :=
  calls.filterMap fun call =>
    match call with
    | .providerEvent event => some event.1
    | _ => none

/-! ## Batch results -/

/-- The hasher of `batch_result_digest`, before it is finished. -/
def batchResultHasher (result : BatchRecognitionResult) : List UInt8 :=
  let identities := [result.profile.provider, result.profile.model, result.profile.language, result.text]
  let digest := identities.foldl (fun digest value => digestBytes digest (Text.asBytes value)) RESULT_DIGEST_PREFIX
  let digest := digest ++ Bytes.toBe 2 result.profile.contractVersion.toNat ++
    Bytes.toBe 8 result.durationMillis.toNat ++
    Bytes.toBe 8 (result.providerDurationMillis.getD 0xFFFFFFFFFFFFFFFF).toNat ++
    Bytes.toBe 8 (lengthOrMax result.segments.length)
  result.segments.foldl (fun digest segment =>
    digestBytes (digestBytes (digest ++ Bytes.toBe 8 segment.startMillis.toNat ++
      Bytes.toBe 8 segment.endMillis.toNat) (Text.asBytes segment.text) ++
      Bytes.toBe 4 (confidenceBits segment.confidence).toNat) (Text.asBytes (segment.speaker.getD ""))) digest

def batchResultDigest (sha256 : List UInt8 → Sha256Digest) (result : BatchRecognitionResult) : String :=
  hexEncode (sha256 (batchResultHasher result)).bytes

end Voicetext.Gateway.Server
