import Voicetext.Common.FloatWidening
import Voicetext.Gateway.Contracts.LiveAgreement
import Voicetext.Speech.Application.TranscriptBounds

/-!
# Frames a live session sends

A session sends what its coordinator returns and, when it fails, an error without secrets. The coordinator
counts the characters of a transcript and the protocol its UTF-16 code units, so a transcript the coordinator
let through is sent exactly when it is short in both. Every other bound of the protocol follows.
-/

namespace Voicetext.Gateway.Server

open Voicetext.Common Voicetext.Gateway.Contracts Voicetext.Gateway.Contracts.LiveOutbound
open Voicetext.Speech.Application

/-- Failures of the live transport which say no secret. -/
inductive SafeLiveError
  | configTimeout
  | invalidConfig
  | invalidCommand
  | invalidAudio
  | frameTooLarge
  | profileNotConfigured
  | audioRuntimeUnavailable
  | pendingAcknowledgements
  | providerUnavailable
  | providerTerminal
  | providerOutcomeUnknown
  | providerClosed
  | invalidProviderEvent
  | transportClosed
  | providerOperationTimeout
  | sessionTimeout
deriving DecidableEq

namespace SafeLiveError

def fromCoordinator : LiveCoordinatorError → SafeLiveError
  | .recognition (.knownNotAccepted ..) => .providerUnavailable
  | .recognition (.knownAcceptedTerminal ..) => .providerTerminal
  | .recognition (.unknownAfterSend ..) => .providerOutcomeUnknown
  | .invalidAudioFrame => .invalidAudio
  | .invalidProviderEvent _ => .invalidProviderEvent
  | .domain _ => .invalidCommand

def code : SafeLiveError → String
  | configTimeout => "CONFIG_TIMEOUT"
  | invalidConfig => "INVALID_CONFIG"
  | invalidCommand => "INVALID_COMMAND"
  | invalidAudio => "INVALID_AUDIO"
  | frameTooLarge => "FRAME_TOO_LARGE"
  | profileNotConfigured => "PROFILE_NOT_CONFIGURED"
  | audioRuntimeUnavailable => "AUDIO_RUNTIME_UNAVAILABLE"
  | pendingAcknowledgements => "PENDING_ACKNOWLEDGEMENTS"
  | providerUnavailable => "PROVIDER_UNAVAILABLE"
  | providerTerminal => "PROVIDER_TERMINAL"
  | providerOutcomeUnknown => "PROVIDER_OUTCOME_UNKNOWN"
  | providerClosed => "PROVIDER_CLOSED"
  | invalidProviderEvent => "INVALID_PROVIDER_EVENT"
  | transportClosed => "TRANSPORT_CLOSED"
  | providerOperationTimeout => "PROVIDER_TIMEOUT"
  | sessionTimeout => "TIMEOUT"

def message : SafeLiveError → String
  | configTimeout => "Live configuration timed out"
  | invalidConfig => "Live configuration is invalid"
  | invalidCommand => "Live command is invalid"
  | invalidAudio => "Live audio frame is invalid"
  | frameTooLarge => "Live frame exceeds the configured limit"
  | profileNotConfigured => "Requested live profile is not configured"
  | audioRuntimeUnavailable => "Live audio decoder is unavailable"
  | pendingAcknowledgements => "Audio acknowledgements are still pending"
  | providerUnavailable => "Live provider is temporarily unavailable"
  | providerTerminal => "Live provider rejected the session"
  | providerOutcomeUnknown => "Live provider outcome is unknown"
  | providerClosed => "Live provider closed unexpectedly"
  | invalidProviderEvent => "Live provider returned an invalid event"
  | transportClosed => "Live transport closed"
  | providerOperationTimeout => "Live provider operation timed out"
  | sessionTimeout => "Live session timed out"

end SafeLiveError

section Frames

variable {ids : SessionIds} (numbers : WireNumbers)

/-- `transcript_message`. -/
def transcriptMessage (transcript : LiveTranscript) : OutboundServerMessage ids :=
  let segment : TranscriptSegment :=
    ⟨transcript.text, .ofNat transcript.startMillis, .ofNat transcript.durationMillis,
      transcript.confidence.map f64From⟩
  match transcript.stability with
  | .partial_ => .partialSegment segment
  | .segmentFinal => .segmentFinal segment
  | .utteranceFinal => .final segment

/-- The message of `fail_socket`. -/
def failureMessage (error : SafeLiveError) : OutboundServerMessage ids := .error error.code error.message

/-- `send_message`; whether the client takes a frame in time is up to the transport. -/
def sendMessage (send : String → Bool) (message : OutboundServerMessage ids) : Except SafeLiveError Unit := do
  let json ← (serializeServerMessage numbers message).mapError fun _ => .invalidProviderEvent
  if send json then .ok () else .error .transportClosed

variable (ids)

/-- `send_coordinator_event`. -/
def sendCoordinatorEvent (send : String → Bool) : LiveCoordinatorEvent → Except SafeLiveError Unit
  | .transcript transcript => sendMessage numbers send (transcriptMessage transcript : OutboundServerMessage ids)
  | .utteranceEnd _ => .ok ()

variable {ids}

/-- Only a message which cannot be written is reported as the provider's. -/
theorem sendMessage_eq_invalidProviderEvent {send : String → Bool} {message : OutboundServerMessage ids} :
    sendMessage numbers send message = .error .invalidProviderEvent ↔
      ¬ ∃ json, serializeServerMessage numbers message = .ok json := by
  unfold sendMessage
  cases serializeServerMessage numbers message with
  | error violation => simp [Except.mapError, bind, Except.bind]
  | ok json =>
    simp only [Except.mapError, bind, Except.bind, Except.ok.injEq, exists_eq', not_true, iff_false]
    split <;> simp

/-- Every failure can be told to the client. -/
theorem failureMessage_serializes (error : SafeLiveError) :
    ∃ json, serializeServerMessage numbers (failureMessage error : OutboundServerMessage ids) = .ok json := by
  have hcode : error.code ≠ "" ∧ Text.utf16Len error.code ≤ LiveOutbound.MAX_ERROR_CODE_CHARS := by
    cases error <;> decide +kernel
  have hmessage : Text.utf16Len error.message ≤ LiveOutbound.MAX_ERROR_MESSAGE_CHARS := by
    cases error <;> decide +kernel
  exact ⟨_, bind_eq_ok.mpr ⟨_, require_bind_eq_ok.mpr ⟨hcode, require_bind_eq_ok.mpr ⟨hmessage, rfl⟩⟩, rfl⟩⟩

/-- A transcript is written when its segment is within the bounds of the protocol. -/
theorem transcriptMessage_serializes_iff {transcript : LiveTranscript} :
    (∃ json, serializeServerMessage numbers (transcriptMessage transcript : OutboundServerMessage ids) = .ok json) ↔
      LiveOutbound.validateSegment ⟨transcript.text, .ofNat transcript.startMillis,
        .ofNat transcript.durationMillis, transcript.confidence.map f64From⟩ = .ok () := by
  generalize hsegment : (⟨transcript.text, .ofNat transcript.startMillis, .ofNat transcript.durationMillis,
    transcript.confidence.map f64From⟩ : TranscriptSegment) = segment
  have hwritten (fields : List (String × Json)) :
      (∃ json, (do
        let members ← (do LiveOutbound.validateSegment segment; return fields)
        return (Json.object members).toText) = Except.ok json) ↔
          LiveOutbound.validateSegment segment = .ok () := by
    cases LiveOutbound.validateSegment segment with
    | error violation => simp [bind, Except.bind]
    | ok _ => simp [bind, Except.bind, pure, Except.pure]
  simp only [transcriptMessage, hsegment]
  cases transcript.stability with
  | partial_ => exact hwritten _
  | segmentFinal => exact hwritten _
  | utteranceFinal => exact hwritten _

/-- A confidence the coordinator accepts is one of the protocol. -/
theorem confidence_of_validateTranscript {transcript : LiveTranscript} (h : validateTranscript transcript = .ok ()) :
    (transcript.confidence.map f64From).all
      (fun value => value.isFinite && (0.0 ≤ value && value ≤ 1.0)) = true := by
  unfold validateTranscript at h
  split_ifs at h with _ _ hconfidence
  cases hvalue : transcript.confidence with
  | none => rfl
  | some value =>
    obtain ⟨hfinite, hlow, hhigh⟩ : value.isFinite = true ∧ 0.0 ≤ value ∧ value ≤ 1.0 := by
      simpa [hvalue, validConfidence] using hconfidence
    obtain ⟨hfinite, hlow, hhigh⟩ := unitInterval_f64From hfinite hlow hhigh
    simp [hfinite, hlow, hhigh]

/-- A transcript the coordinator accepts, which ends before the largest safe integer, is written exactly when
its text is short in UTF-16. -/
theorem transcriptMessage_serializes {transcript : LiveTranscript} (h : validateTranscript transcript = .ok ())
    (hend : transcript.endMillis ≤ 9007199254740991) :
    (∃ json, serializeServerMessage numbers (transcriptMessage transcript : OutboundServerMessage ids) = .ok json) ↔
      Text.utf16Len transcript.text ≤ LiveOutbound.MAX_TRANSCRIPT_CHARS := by
  have hsum : transcript.startMillis + transcript.durationMillis ≤ 9007199254740991 := hend
  have hstart : (UInt64.ofNat transcript.startMillis).toNat = transcript.startMillis :=
    UInt64.toNat_ofNat_of_lt' (by simp only [UInt64.size]; omega)
  have hduration : (UInt64.ofNat transcript.durationMillis).toNat = transcript.durationMillis :=
    UInt64.toNat_ofNat_of_lt' (by simp only [UInt64.size]; omega)
  have hsafe : LiveOutbound.MAX_SAFE_INTEGER.toNat = 9007199254740991 := rfl
  have htimes : UInt64.ofNat transcript.startMillis ≤ LiveOutbound.MAX_SAFE_INTEGER ∧
      UInt64.ofNat transcript.durationMillis ≤ LiveOutbound.MAX_SAFE_INTEGER := by
    rw [UInt64.le_iff_toNat_le, UInt64.le_iff_toNat_le, hstart, hduration, hsafe]
    omega
  have hadded : (checkedAdd (UInt64.ofNat transcript.startMillis).toNat
      (UInt64.ofNat transcript.durationMillis).toNat).isSome = true := by
    rw [hstart, hduration, checkedAdd, if_pos (by omega)]
    rfl
  rw [transcriptMessage_serializes_iff]
  constructor
  · intro hvalid
    exact (require_bind_eq_ok.mp hvalid).1
  · intro htext
    refine require_bind_eq_ok.mpr ⟨htext, require_bind_eq_ok.mpr ⟨htimes, require_bind_eq_ok.mpr ⟨hadded, ?_⟩⟩⟩
    exact require_eq_ok.mpr (confidence_of_validateTranscript h)

end Frames

section Sessions

open Voicetext.Speech.Application.LiveCoordinator

variable {request : LiveRecognitionRequest} {provider : ProviderAnswer} {start coordinator : LiveCoordinator}
  {history : List LiveCoordinatorExchange}

/-- What a coordinator of a live session returns is written for the client exactly when its text fits the
protocol's count of UTF-16 code units, and is reported as an invalid provider event exactly when it does not. -/
theorem transcripts_sendable_iff (ids : SessionIds) (numbers : WireNumbers) (send : String → Bool)
    (hrate : request.sampleRateHz = 16000 ∨ request.sampleRateHz = 48000)
    (hopen : openSession request provider = .ok start)
    (hrun : Runs LiveCoordinator.step start history coordinator) (transcript : LiveTranscript)
    (hreturned : .transcript transcript ∈ returnedEvents history) :
    ((∃ json, serializeServerMessage numbers (transcriptMessage transcript : OutboundServerMessage ids) = .ok json) ↔
        Text.utf16Len transcript.text ≤ 65536) ∧
      (sendCoordinatorEvent ids numbers send (.transcript transcript) = .error .invalidProviderEvent ↔
        65536 < Text.utf16Len transcript.text) := by
  have hrate : 16000 ≤ request.sampleRateHz.toNat := by
    rcases hrate with hrate | hrate <;> rw [hrate] <;> decide
  obtain ⟨hvalid, hend⟩ := checked_of_returned hopen hrate hrun hreturned
  have hwritten : (∃ json, serializeServerMessage numbers
      (transcriptMessage transcript : OutboundServerMessage ids) = .ok json) ↔
        Text.utf16Len transcript.text ≤ 65536 := transcriptMessage_serializes numbers hvalid hend
  refine ⟨hwritten, ?_⟩
  rw [sendCoordinatorEvent, sendMessage_eq_invalidProviderEvent, hwritten, not_le]

/-- A short transcript after a millisecond of audio is written for the client. -/
theorem transcripts_sendable_iff_short :
    let request : LiveRecognitionRequest := ⟨⟨2, "deepgram", "nova-3", "en"⟩, 16000, 1, []⟩
    let start : LiveCoordinator :=
      ⟨⟨.streaming, ∅, ∅, 0, false, false⟩, ⟨16000, 2, 0, 0, none, by decide, by decide⟩⟩
    let transcript : LiveTranscript := ⟨"one", 0, 1, some 0.5, .segmentFinal⟩
    let calls : List LiveCoordinatorCall :=
      [.providerWrite (List.replicate 32 0) (some (.ok ())), .ackSent ⟨1⟩,
        .applyProviderEvent (.ok (some (.transcript transcript)))]
    openSession request (.ok ()) = .ok start ∧
      .transcript transcript ∈ returnedEvents (feed LiveCoordinator.step start calls).1 ∧
      ∃ json, serializeServerMessage .bits
        (transcriptMessage transcript : OutboundServerMessage .canonicalForms) = .ok json := by
  intro request start transcript calls
  have hopen : openSession request (.ok ()) = .ok start := rfl
  have hreturned : .transcript transcript ∈ returnedEvents (feed LiveCoordinator.step start calls).1 := by
    have hevents : (returnedEvents (feed LiveCoordinator.step start calls).1).any (fun
        | .transcript spoken => spoken = transcript
        | .utteranceEnd _ => false) = true := by decide +kernel
    obtain ⟨event, hmem, hevent⟩ := List.any_eq_true.mp hevents
    cases event with
    | utteranceEnd lastWordEndMillis => cases hevent
    | transcript spoken =>
      obtain rfl : spoken = transcript := of_decide_eq_true hevent
      exact hmem
  have hsendable := (transcripts_sendable_iff .canonicalForms .bits (fun _ => true) (.inl rfl) hopen
    (runs_feed _ _ _) transcript hreturned).1
  exact ⟨hopen, hreturned, hsendable.mpr (by decide)⟩

/-- A text between the two counts is let through by the coordinator and is not written for the client. -/
theorem unsendable_between_counts (ids : SessionIds) (numbers : WireNumbers) (send : String → Bool) {text : String}
    (hlength : text.length ≤ 65536) (hunits : 65536 < Text.utf16Len text) (coordinator : LiveCoordinator) :
    let transcript : LiveTranscript := ⟨text, 0, 0, none, .partial_⟩
    (coordinator.applyProviderEvent (.ok (some (.transcript transcript)))).2 = .ok (some (.transcript transcript)) ∧
      sendCoordinatorEvent ids numbers send (.transcript transcript) = .error .invalidProviderEvent := by
  intro transcript
  have hvalid : validateTranscript transcript = .ok () := by
    have hshort : ¬ transcript.text.length > Speech.Application.MAX_TRANSCRIPT_CHARS := not_lt.mpr hlength
    rw [validateTranscript, if_neg hshort]
    rfl
  have hadmits : coordinator.timeline.validateTranscript transcript = (coordinator.timeline, .ok ()) := by
    have hwithin : coordinator.timeline.Admits transcript :=
      ⟨Nat.zero_le _, Nat.zero_le _, fun hfinal => by cases hfinal⟩
    rcases coordinator.timeline.validateTranscript_cases transcript with ⟨hrefused, -⟩ | ⟨-, haccepted⟩
    · exact absurd hwithin hrefused
    · exact haccepted
  refine ⟨by simp only [applyProviderEvent, hvalid, hadmits], ?_⟩
  rw [sendCoordinatorEvent, sendMessage_eq_invalidProviderEvent,
    transcriptMessage_serializes numbers hvalid (Nat.zero_le _)]
  exact not_le.mpr hunits

/-- Half the bound and one more characters outside the basic plane: the coordinator returns the transcript, and
the session ends in an invalid provider event. -/
theorem astralTranscript_unsendable :
    let request : LiveRecognitionRequest := ⟨⟨2, "deepgram", "nova-3", "en"⟩, 16000, 1, []⟩
    let start : LiveCoordinator :=
      ⟨⟨.streaming, ∅, ∅, 0, false, false⟩, ⟨16000, 2, 0, 0, none, by decide, by decide⟩⟩
    let transcript : LiveTranscript := ⟨String.ofList (List.replicate 32769 '😀'), 0, 0, none, .partial_⟩
    openSession request (.ok ()) = .ok start ∧
      (start.applyProviderEvent (.ok (some (.transcript transcript)))).2 = .ok (some (.transcript transcript)) ∧
      ¬ (∃ json, serializeServerMessage .bits
        (transcriptMessage transcript : OutboundServerMessage .canonicalForms) = .ok json) ∧
      sendCoordinatorEvent .canonicalForms .bits (fun _ => true) (.transcript transcript) =
        .error .invalidProviderEvent := by
  have hlength : (String.ofList (List.replicate 32769 '😀')).length ≤ 65536 := by
    rw [String.length_ofList, List.length_replicate]
    decide
  have hunits : 65536 < Text.utf16Len (String.ofList (List.replicate 32769 '😀')) := by
    rw [Text.utf16Len, String.toList_ofList, List.map_replicate, List.sum_replicate]
    decide
  generalize String.ofList (List.replicate 32769 '😀') = text at *
  intro request start transcript
  obtain ⟨hreturned, hfailed⟩ :=
    unsendable_between_counts .canonicalForms .bits (fun _ => true) hlength hunits start
  exact ⟨rfl, hreturned, (sendMessage_eq_invalidProviderEvent .bits).mp hfailed, hfailed⟩

end Sessions

end Voicetext.Gateway.Server
