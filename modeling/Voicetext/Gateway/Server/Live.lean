import Voicetext.Common.CrashLogic
import Voicetext.Gateway.Server.AdmittedRequests

/-!
# The live WebSocket transport

A session reads its configuration, opens a coordinator, and then races its client against its provider until
it ends. Every `select!` is one operation whose reply is the branch which was ready first, and the calls of the
coordinator are operations, as one coordinator serves the whole session. A timer may fire at any time, metrics
are left out, and the observation of a session for qualification is a single operation at its end.
-/

namespace Voicetext.Gateway.Server.LiveTransport

open Voicetext.Common Voicetext.Speech.Application Voicetext.Gateway.Contracts
open Voicetext.Speech.Domain (RawAudioSequence FinalizeOutcome)

abbrev DomainFinalizeStatus := Speech.Domain.FinalizeStatus

/-- A message of the client. -/
inductive Message
  | text (text : String)
  | binary (frame : List UInt8)
  | ping (payload : List UInt8)
  | pong (payload : List UInt8)
  | close

/-- What a read of the socket yields: nothing at its end, a message or a failure. -/
abbrev Received := Option (Except Unit Message)

/-- What a read of the provider yields. -/
abbrev ProviderEvent := Except RecognitionFailure (Option LiveRecognitionEvent)

/-- The branch of the main loop which was ready first. -/
inductive Raced
  | client (received : Received)
  | provider (received : ProviderEvent)
  | idleTimeout
  | sessionTimeout

/-- A future raced against the client and a deadline. -/
inductive Contest (α : Type)
  | client (received : Received)
  | ready (value : α)
  | elapsed

inductive LoopControl
  | continue_
  | finalize
  | close
deriving DecidableEq

/-- The limits and profiles a session is served under. -/
structure LiveGateway where
  registry : ProfileRegistry
  decoderAvailable : Bool
  liveFrameBytes : ℕ

/-- An open session: the identity it was asked for, and whether its audio is decoded. -/
structure OpenedSession where
  identity : LiveIdentity
  decoder : Bool

/-- What a session awaits. -/
inductive LiveOp (ids : SessionIds)
  | recvConfig
  | openCoordinator (request : LiveRecognitionRequest)
  | newSessionId
  | sendText (message : OutboundServerMessage ids) (json : String)
  | sendPong (payload : List UInt8)
  | sendClose (normal : Bool)
  | race
  | decode (frame : List UInt8)
  | raceWrite (pcm : List UInt8)
  | ackSent (sequence : RawAudioSequence)
  | applyProviderEvent (received : ProviderEvent)
  | pendingAudioCount
  | raceFinalize
  | raceDrain (sawResult : Bool)
  | deadlinePassed
  | completeFinalize (status : DomainFinalizeStatus)
  | observe (terminalStatus : String)
  | closeCoordinator
  | cut

/-- What each operation replies; nothing where a timeout ends it. -/
@[reducible] def LiveOp.Reply {ids : SessionIds} : LiveOp ids → Type
  | recvConfig => Option Received
  | openCoordinator _ => Option (Except LiveCoordinatorError Unit)
  | newSessionId => ids.Uuid
  | sendText .. | sendPong _ | deadlinePassed => Bool
  | race => Raced
  | decode _ => Option (List UInt8)
  | raceWrite _ => Contest (Except LiveCoordinatorError RawAudioSequence)
  | ackSent _ => Except LiveCoordinatorError Unit
  | applyProviderEvent _ => Except LiveCoordinatorError (Option LiveCoordinatorEvent)
  | pendingAudioCount => ℕ
  | raceFinalize => Contest (Except LiveCoordinatorError Unit)
  | raceDrain _ => Contest ProviderEvent
  | completeFinalize _ => Except LiveCoordinatorError FinalizeOutcome
  | sendClose _ | observe _ | closeCoordinator => Unit
  | cut => Empty

instance {ids : SessionIds} : IsEmpty (LiveOp.Reply (.cut : LiveOp ids)) := inferInstanceAs (IsEmpty Empty)

abbrev LiveTask (ids : SessionIds) (α : Type) := Task (LiveOp ids) LiveOp.Reply α

/-- Await one operation. -/
abbrev perform (ids : SessionIds) (op : LiveOp ids) : LiveTask ids op.Reply := Task.call op

section Sending

variable {ids : SessionIds} (numbers : WireNumbers)

/-- Write a message within its timeout. -/
def sendMessage (message : OutboundServerMessage ids) : LiveTask ids (Except SafeLiveError Unit) :=
  match LiveOutbound.serializeServerMessage numbers message with
  | .error _ => .done (.error .invalidProviderEvent)
  | .ok json => (perform ids (.sendText message json)).bind fun sent =>
    .done (Server.sendMessage numbers (fun _ => sent) message)

def sendCoordinatorEvent : LiveCoordinatorEvent → LiveTask ids (Except SafeLiveError Unit)
  | .transcript transcript => sendMessage numbers (transcriptMessage transcript)
  | .utteranceEnd _ => .done (.ok ())

/-- Tell the client of a failure, if it still listens. -/
def failSocket (error : SafeLiveError) : LiveTask ids Unit :=
  (sendMessage numbers (failureMessage error)).bind fun _ => .done ()

/-- Answer a ping within its timeout. -/
def sendPong (payload : List UInt8) : LiveTask ids (Except SafeLiveError Unit) :=
  (perform ids (.sendPong payload)).bind fun sent => .done (if sent then .ok () else .error .transportClosed)

def closeSocket (successful : Bool) : LiveTask ids Unit := perform ids (.sendClose successful)

end Sending

section Opening

variable {ids : SessionIds}

def receiveConfig (maximum : ℕ) : LiveTask ids (Except SafeLiveError (ClientConfig ids)) :=
  (perform ids .recvConfig).bind fun
    | none => .done (.error .configTimeout)
    | some none | some (some (.error _)) => .done (.error .transportClosed)
    | some (some (.ok (.text text))) =>
      if Text.len text > maximum then .done (.error .frameTooLarge)
      else .done ((Contracts.Live.parseClientConfig ids text).mapError fun _ => .invalidConfig)
    | some (some (.ok _)) => .done (.error .invalidConfig)

def prepareSession (gateway : LiveGateway) : LiveTask ids (Except SafeLiveError OpenedSession) :=
  (receiveConfig gateway.liveFrameBytes).andThen fun config =>
    match gateway.registry.live config.identity with
    | none => .done (.error .profileNotConfigured)
    | some factory =>
      if config.audioFormat = .opus48Khz ∧ gateway.decoderAvailable = false then
        .done (.error .audioRuntimeUnavailable)
      else
        match factory.capabilities.validate (sessionCapabilityRequest config) with
        | .error _ => .done (.error .invalidConfig)
        | .ok _ =>
          (perform ids (.openCoordinator (recognitionRequest config))).bind fun
            | none => .done (.error .providerOperationTimeout)
            | some (.error error) => .done (.error (.fromCoordinator error))
            | some (.ok ()) => .done (.ok ⟨config.identity, config.audioFormat = .opus48Khz⟩)

end Opening

section Streaming

variable {ids : SessionIds} (numbers : WireNumbers)

/-- Decode an Opus frame, or take an aligned PCM frame as it is. -/
def decodeAudio (decoder : Bool) (frame : List UInt8) : LiveTask ids (Except SafeLiveError (List UInt8)) :=
  if decoder then
    (perform ids (.decode frame)).bind fun
      | some pcm => .done (.ok pcm)
      | none => .done (.error .invalidAudio)
  else if frame ≠ [] ∧ frame.length % 2 = 0 then .done (.ok frame)
  else .done (.error .invalidAudio)

/-- One round of `write_audio_or_cancel`, which only a ping or a pong lets go on. -/
def writeRound (pcm : List UInt8) : LiveTask ids (Unit ⊕ Except SafeLiveError RawAudioSequence) :=
  (perform ids (.raceWrite pcm)).bind fun
    | .client none | .client (some (.error _)) | .client (some (.ok .close)) =>
      .done (.inr (.error .transportClosed))
    | .client (some (.ok (.ping payload))) => (sendPong payload).bind fun
      | .ok () => .done (.inl ())
      | .error error => .done (.inr (.error error))
    | .client (some (.ok (.pong _))) => .done (.inl ())
    | .client (some (.ok (.text _))) | .client (some (.ok (.binary _))) => .done (.inr (.error .invalidCommand))
    | .ready (.ok sequence) => .done (.inr (.ok sequence))
    | .ready (.error error) => .done (.inr (.error (.fromCoordinator error)))
    | .elapsed => .done (.inr (.error .providerOperationTimeout))

def writeAudioOrCancel (fuel : ℕ) (pcm : List UInt8) : LiveTask ids (Except SafeLiveError RawAudioSequence) :=
  Task.repeatUntil .cut (fun _ => writeRound pcm) fuel ()

/-- Serve one message of the client; what is returned with the control is whether audio has been accepted. -/
def handleClientFrame (fuel maximum : ℕ) (decoder acceptedAudio : Bool) :
    Received → LiveTask ids (Except SafeLiveError (LoopControl × Bool))
  | none | some (.error _) => .done (.error .transportClosed)
  | some (.ok (.binary frame)) =>
    if frame = [] ∨ frame.length > maximum then
      .done (.error (if frame.length > maximum then .frameTooLarge else .invalidAudio))
    else (decodeAudio decoder frame).andThen fun pcm =>
      (writeAudioOrCancel fuel pcm).andThen fun sequence =>
        (sendMessage numbers (.ack (.ofNat sequence.get))).andThen fun _ =>
          (perform ids (.ackSent sequence)).bind fun
            | .error error => .done (.error (.fromCoordinator error))
            | .ok () => .done (.ok (.continue_, true))
  | some (.ok (.text text)) =>
    match Contracts.Live.parseClientCommand numbers text with
    | .ok .finalize => .done (.ok (.finalize, acceptedAudio))
    | .ok .close => .done (.ok (.close, acceptedAudio))
    | .error _ => .done (.error .invalidCommand)
  | some (.ok (.ping payload)) => (sendPong payload).andThen fun _ => .done (.ok (.continue_, acceptedAudio))
  | some (.ok (.pong _)) => .done (.ok (.continue_, acceptedAudio))
  | some (.ok .close) => .done (.ok (.close, acceptedAudio))

/-- Apply one read of the provider and send what it comes to; the end of its events is told. -/
def applyAndSend (received : ProviderEvent) : LiveTask ids (Except SafeLiveError Unit) :=
  (perform ids (.applyProviderEvent received)).bind fun
    | .error error => .done (.error (.fromCoordinator error))
    | .ok none => .done (.ok ())
    | .ok (some event) => sendCoordinatorEvent numbers event

/-- Whether the provider has no more events. -/
def ended : ProviderEvent → Bool
  | .ok none => true
  | _ => false

/-- Whether a read is the evidence of a finalize result. -/
def observed : ProviderEvent → Bool
  | .ok (some .finalizeResultObserved) => true
  | _ => false

def handleProviderEvent (received : ProviderEvent) : LiveTask ids (Except SafeLiveError LoopControl) :=
  (applyAndSend numbers received).andThen fun _ =>
    .done (if ended received then .error .providerClosed else .ok .continue_)

end Streaming

section Finalizing

variable {ids : SessionIds} (numbers : WireNumbers)

def beginFinalizeOrCancel : LiveTask ids (Except SafeLiveError Unit) :=
  (perform ids .raceFinalize).bind fun
    | .client none | .client (some (.error _)) | .client (some (.ok .close)) => .done (.error .transportClosed)
    | .client (some (.ok _)) => .done (.error .invalidCommand)
    | .ready (.ok ()) => .done (.ok ())
    | .ready (.error error) => .done (.error (.fromCoordinator error))
    | .elapsed => .done (.error .providerOperationTimeout)

/-- One round of the drain, with whether a result has been seen. -/
def drainRound (sawResult : Bool) : LiveTask ids (Bool ⊕ Except SafeLiveError Bool) :=
  (perform ids (.raceDrain sawResult)).bind fun
    | .client none | .client (some (.error _)) | .client (some (.ok .close)) =>
      .done (.inr (.error .transportClosed))
    | .client (some (.ok _)) => .done (.inr (.error .invalidCommand))
    | .elapsed => .done (.inr (.ok sawResult))
    | .ready received => (applyAndSend numbers received).bind fun
      | .error error => .done (.inr (.error error))
      | .ok () =>
        if ended received then .done (.inr (.ok (sawResult || observed received)))
        else (perform ids .deadlinePassed).bind fun passed =>
          .done (if passed then .inr (.ok (sawResult || observed received)) else .inl (sawResult || observed received))

/-- The status a drain asks for. -/
def requestedStatus (sawResult acceptedAudio : Bool) : DomainFinalizeStatus :=
  if sawResult then .flushed else if acceptedAudio then .timeout else .noProvider

/-- The status of an outcome on the wire. -/
def wireStatus : DomainFinalizeStatus → FinalizeStatus
  | .flushed => .flushed
  | .noProvider => .noProvider
  | .timeout => .timeout

def finalize (fuel : ℕ) (acceptedAudio : Bool) : LiveTask ids (Except SafeLiveError FinalizeStatus) :=
  (perform ids .pendingAudioCount).bind fun pending =>
    if pending ≠ 0 then .done (.error .pendingAcknowledgements)
    else beginFinalizeOrCancel.andThen fun _ =>
      (Task.repeatUntil .cut (drainRound numbers) fuel false).andThen fun sawResult =>
        (perform ids (.completeFinalize (requestedStatus sawResult acceptedAudio))).bind fun
          | .error error => .done (.error (.fromCoordinator error))
          | .ok outcome =>
            (sendMessage numbers (.finalizeComplete (wireStatus outcome.status) outcome.sawResult)).andThen fun _ =>
              .done (.ok (wireStatus outcome.status))

end Finalizing

section Sessions

variable {ids : SessionIds} (numbers : WireNumbers)

/-- A status of an ended session, as observations name it. -/
def finalizedLabel : FinalizeStatus → String
  | .flushed => "finalize_flushed"
  | .noProvider => "finalize_noprovider"
  | .timeout => "finalize_timeout"

/-- Tell the client of the failure a session ends with. -/
def failed (error : SafeLiveError) : LiveTask ids (Bool ⊕ String × Bool) :=
  (failSocket numbers error).bind fun _ => .done (.inr (error.code, false))

/-- Serve the branch of the main loop which was ready first. -/
def control (fuel maximum : ℕ) (decoder acceptedAudio : Bool) :
    Raced → LiveTask ids (Except SafeLiveError (LoopControl × Bool))
  | .client received => handleClientFrame numbers fuel maximum decoder acceptedAudio received
  | .provider received => (handleProviderEvent numbers received).andThen fun control =>
    .done (.ok (control, acceptedAudio))
  | .idleTimeout | .sessionTimeout => .done (.error .sessionTimeout)

/-- One round of the main loop, with whether audio has been accepted. -/
def streamRound (fuel maximum : ℕ) (decoder acceptedAudio : Bool) : LiveTask ids (Bool ⊕ String × Bool) :=
  (perform ids .race).bind fun raced =>
    (control numbers fuel maximum decoder acceptedAudio raced).bind fun
      | .ok (.continue_, acceptedAudio) => .done (.inl acceptedAudio)
      | .ok (.close, _) => .done (.inr ("client_close", false))
      | .ok (.finalize, acceptedAudio) => (finalize numbers fuel acceptedAudio).bind fun
        | .ok status =>
          .done (.inr (finalizedLabel status, decide (status = .flushed ∨ status = .noProvider)))
        | .error error => failed numbers error
      | .error error => failed numbers error

/-- The status a session ended with, and whether it has earned a normal closure. -/
def stream (fuel maximum : ℕ) (decoder : Bool) : LiveTask ids (String × Bool) :=
  Task.repeatUntil .cut (streamRound numbers fuel maximum decoder) fuel false

/-- What is left to do when a session has ended. -/
def conclude (terminal : String × Bool) : LiveTask ids Unit :=
  (perform ids (.observe terminal.1)).bind fun _ => (perform ids .closeCoordinator).bind fun _ => closeSocket terminal.2

/-- A whole session; the fuel bounds the rounds of each of its loops. -/
def run (gateway : LiveGateway) (fuel : ℕ) : LiveTask ids Unit :=
  (prepareSession gateway).bind fun
    | .error error => (failSocket numbers error).bind fun _ => closeSocket false
    | .ok opened => (perform ids .newSessionId).bind fun sessionId =>
      (sendMessage numbers (.ready sessionId opened.identity)).bind fun
        | .error _ => conclude ("ready_delivery_failed", false)
        | .ok () => (stream numbers fuel gateway.liveFrameBytes opened.decoder).bind conclude

end Sessions

end Voicetext.Gateway.Server.LiveTransport
