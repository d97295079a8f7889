import Voicetext.Speech.Application.BatchModels
import Voicetext.Speech.Application.LiveTimeline

/-!
# Orchestration of one provider-bound live recognition session

The coordinator pairs the deterministic session state with the timeline of one open provider session.
A call which awaits the provider is split at that await: it starts, the provider answers or the
transport drops the call, and only an answer is finished.
-/

namespace Voicetext.Speech.Application

open Voicetext.Common Voicetext.Speech.Domain

def MAX_PCM_FRAME_BYTES : ℕ := 64 * 1024

def MAX_TRANSCRIPT_CHARS : ℕ := 65536

/-- Why a normalized provider event was rejected defensively. -/
inductive InvalidProviderEvent
  | transcriptTooLong
  | transcriptTimingOverflow
  | timestampBeyondAcceptedAudio
  | finalTimestampRegressionOrOverlap
  | invalidConfidence
deriving DecidableEq

/-- Failure from live-session orchestration without erasing provider retry evidence. -/
inductive LiveCoordinatorError
  | domain (error : LiveSessionError)
  | recognition (failure : RecognitionFailure)
  | invalidAudioFrame
  | invalidProviderEvent (error : InvalidProviderEvent)
deriving DecidableEq

/-- Provider-neutral events that transport may project to its own wire protocol. -/
inductive LiveCoordinatorEvent
  | transcript (transcript : LiveTranscript)
  | utteranceEnd (lastWordEndMillis : ℕ)

/-- What the provider answers to a write, a finalize or a close. -/
abbrev ProviderAnswer := Except RecognitionFailure Unit

def mapTimelineError : LiveTimelineError → InvalidProviderEvent
  | .timingOverflow => .transcriptTimingOverflow
  | .beyondAcceptedAudio => .timestampBeyondAcceptedAudio
  | .finalRegressionOrOverlap => .finalTimestampRegressionOrOverlap

/-- The bounds of a transcript apart from its place on the timeline. -/
def validateTranscript (transcript : LiveTranscript) : Except InvalidProviderEvent Unit :=
  if transcript.text.length > MAX_TRANSCRIPT_CHARS then .error .transcriptTooLong
  else if U64.checkedAdd transcript.startMillis transcript.durationMillis = none then
    .error .transcriptTimingOverflow
  else if transcript.confidence.any fun value => !validConfidence value then
    .error .invalidConfidence
  else .ok ()

/-- Deterministic session state with the timeline of one already-bound provider session. -/
structure LiveCoordinator where
  domain : LiveSession
  timeline : LiveTimeline

namespace LiveCoordinator

/-- Opens the exact requested provider session before making the domain session ready. -/
def openSession (request : LiveRecognitionRequest) (provider : ProviderAnswer) :
    Except LiveCoordinatorError LiveCoordinator :=
  match LiveTimeline.new request.sampleRateHz request.channels with
  | .error _ => .error .invalidAudioFrame
  | .ok timeline =>
    match provider with
    | .error failure => .error (.recognition failure)
    | .ok () =>
      match LiveSession.new.markReady with
      | (_, .error error) => .error (.domain error)
      | (domain, .ok ()) => .ok ⟨domain, timeline⟩

variable (coordinator : LiveCoordinator)

def failAfterProviderError : LiveCoordinator := { coordinator with domain := coordinator.domain.fail.1 }

/-- Checks a PCM write and assigns its sequence; the frame is then handed to the provider. -/
def startProviderWrite (pcmS16le : List UInt8) :
    LiveCoordinator × Except LiveCoordinatorError (PendingAudioAcceptance × LiveAudioFrame) :=
  if pcmS16le.length > MAX_PCM_FRAME_BYTES then (coordinator, .error .invalidAudioFrame)
  else
    match coordinator.timeline.prepareAudioWrite pcmS16le.length with
    | .error _ => (coordinator, .error .invalidAudioFrame)
    | .ok pending =>
      match coordinator.domain.acceptAudio with
      | (domain, .error error) => ({ coordinator with domain }, .error (.domain error))
      | (domain, .ok sequence) => ({ coordinator with domain }, .ok (pending, ⟨sequence, pcmS16le⟩))

/-- Commits a write the provider has answered and returns its sequence. -/
def finishProviderWrite (pending : PendingAudioAcceptance) (sequence : RawAudioSequence)
    (provider : ProviderAnswer) : LiveCoordinator × Except LiveCoordinatorError RawAudioSequence :=
  match provider with
  | .error failure => (coordinator.failAfterProviderError, .error (.recognition failure))
  | .ok () =>
    let timeline := coordinator.timeline.commitAudioWrite pending
    match coordinator.domain.markProviderWriteSucceeded sequence with
    | (domain, .error error) => (⟨domain, timeline⟩, .error (.domain error))
    | (domain, .ok ()) => (⟨domain, timeline⟩, .ok sequence)

/-- Confirms that transport successfully sent an ACK for a provider-written frame. -/
def ackSent (sequence : RawAudioSequence) : LiveCoordinator × Except LiveCoordinatorError Unit :=
  let (domain, result) := coordinator.domain.markAckSent sequence
  ({ coordinator with domain }, result.mapError .domain)

/-- An event the coordinator rejects makes the session terminal. -/
def rejectEvent (error : InvalidProviderEvent) :
    LiveCoordinator × Except LiveCoordinatorError (Option LiveCoordinatorEvent) :=
  (coordinator.failAfterProviderError, .error (.invalidProviderEvent error))

/-- Validates and applies one result of a provider read. -/
def applyProviderEvent (received : Except RecognitionFailure (Option LiveRecognitionEvent)) :
    LiveCoordinator × Except LiveCoordinatorError (Option LiveCoordinatorEvent) :=
  match received with
  | .error failure => (coordinator.failAfterProviderError, .error (.recognition failure))
  | .ok none => (coordinator, .ok none)
  | .ok (some (.transcript transcript)) =>
    match validateTranscript transcript with
    | .error error => coordinator.rejectEvent error
    | .ok () =>
      match coordinator.timeline.validateTranscript transcript with
      | (timeline, .error error) =>
        { coordinator with timeline }.rejectEvent (mapTimelineError error)
      | (timeline, .ok ()) => ({ coordinator with timeline }, .ok (some (.transcript transcript)))
  | .ok (some (.utteranceEnd lastWordEndMillis)) =>
    match coordinator.timeline.validateUtteranceEnd lastWordEndMillis with
    | .error error => coordinator.rejectEvent (mapTimelineError error)
    | .ok () => (coordinator, .ok (some (.utteranceEnd lastWordEndMillis)))
  | .ok (some .finalizeResultObserved) =>
    match coordinator.domain.markFinalizeResultObserved with
    | (domain, .error error) =>
      ({ coordinator with domain }.failAfterProviderError, .error (.domain error))
    | (domain, .ok ()) => ({ coordinator with domain }, .ok none)

/-- Starts finalization once every provider-written frame has its ACK; the provider is asked next. -/
def startFinalize : LiveCoordinator × Except LiveCoordinatorError Unit :=
  let (domain, result) := coordinator.domain.beginFinalize
  ({ coordinator with domain }, result.mapError .domain)

/-- A provider which refuses to finalize makes the session terminal. -/
def finishFinalize (provider : ProviderAnswer) :
    LiveCoordinator × Except LiveCoordinatorError Unit :=
  match provider with
  | .error failure => (coordinator.failAfterProviderError, .error (.recognition failure))
  | .ok () => (coordinator, .ok ())

/-- Completes the externally bounded drain with truthful observed-result evidence. -/
def completeFinalize (status : FinalizeStatus) :
    LiveCoordinator × Except LiveCoordinatorError FinalizeOutcome :=
  let (domain, result) := coordinator.domain.completeFinalize status
  ({ coordinator with domain }, result.mapError .domain)

/-- Closes deterministic state after the provider's close; a provider failure is reported first. -/
def finishClose (provider : ProviderAnswer) : LiveCoordinator × Except LiveCoordinatorError Unit :=
  let (domain, result) := coordinator.domain.close
  ({ coordinator with domain },
    match provider with
    | .error failure => .error (.recognition failure)
    | .ok () => result.mapError .domain)

end LiveCoordinator

/-- A coordinator call with what the provider answers while it waits; nothing is a dropped call. -/
inductive LiveCoordinatorCall
  | providerWrite (pcmS16le : List UInt8) (provider : Option ProviderAnswer)
  | ackSent (sequence : RawAudioSequence)
  | applyProviderEvent (received : Except RecognitionFailure (Option LiveRecognitionEvent))
  | beginFinalize (provider : Option ProviderAnswer)
  | completeFinalize (status : FinalizeStatus)
  | close (provider : Option ProviderAnswer)

/-- What a coordinator call comes to. -/
inductive LiveCoordinatorReply
  | dropped
  | done
  | sequence (sequence : RawAudioSequence)
  | event (event : Option LiveCoordinatorEvent)
  | outcome (outcome : FinalizeOutcome)

namespace LiveCoordinator

/-- Report the result of an operation as the reply of a call. -/
def answer {α : Type} (reply : α → LiveCoordinatorReply)
    (result : LiveCoordinator × Except LiveCoordinatorError α) :
    LiveCoordinator × Except LiveCoordinatorError LiveCoordinatorReply :=
  (result.1, result.2.map reply)

/-- Assigns a sequence and returns it only after the provider write succeeds. -/
def providerWrite (coordinator : LiveCoordinator) (pcmS16le : List UInt8)
    (provider : Option ProviderAnswer) :
    LiveCoordinator × Except LiveCoordinatorError LiveCoordinatorReply :=
  match coordinator.startProviderWrite pcmS16le, provider with
  | (coordinator, .error error), _ => (coordinator, .error error)
  | (coordinator, .ok _), none => (coordinator, .ok .dropped)
  | (coordinator, .ok (pending, frame)), some provider =>
    answer .sequence (coordinator.finishProviderWrite pending frame.sequence provider)

/-- Starts provider finalization only after all provider-written frames have transport ACKs. -/
def beginFinalize (coordinator : LiveCoordinator) (provider : Option ProviderAnswer) :
    LiveCoordinator × Except LiveCoordinatorError LiveCoordinatorReply :=
  match coordinator.startFinalize, provider with
  | (coordinator, .error error), _ => (coordinator, .error error)
  | (coordinator, .ok ()), none => (coordinator, .ok .dropped)
  | (coordinator, .ok ()), some provider =>
    answer (fun _ => .done) (coordinator.finishFinalize provider)

/-- Closes provider resources and deterministic state. -/
def close (coordinator : LiveCoordinator) (provider : Option ProviderAnswer) :
    LiveCoordinator × Except LiveCoordinatorError LiveCoordinatorReply :=
  match provider with
  | none => (coordinator, .ok .dropped)
  | some provider => answer (fun _ => .done) (coordinator.finishClose provider)

/-- Answer one call. -/
def step (coordinator : LiveCoordinator) : LiveCoordinatorCall →
    LiveCoordinator × Except LiveCoordinatorError LiveCoordinatorReply
  | .providerWrite pcmS16le provider => coordinator.providerWrite pcmS16le provider
  | .ackSent sequence => answer (fun _ => .done) (coordinator.ackSent sequence)
  | .applyProviderEvent received => answer .event (coordinator.applyProviderEvent received)
  | .beginFinalize provider => coordinator.beginFinalize provider
  | .completeFinalize status => answer .outcome (coordinator.completeFinalize status)
  | .close provider => coordinator.close provider

end LiveCoordinator

end Voicetext.Speech.Application
