import Mathlib.Data.Finset.Card
import Voicetext.Common.U64

/-!
# Deterministic live-transcription session state

A session numbers the audio frames it accepts and remembers which of them await an acknowledgement
and which of those the provider has taken. Every operation mutates the session in place, so it yields
the session it leaves behind together with its result, also when it reports an error.
-/

namespace Voicetext.Speech.Domain

open Voicetext.Common

/-- Maximum number of accepted audio frames that may await a client ACK. -/
def MAX_PENDING_AUDIO_SEQUENCES : ℕ := 256

/-- One server-assigned raw-audio sequence. -/
structure RawAudioSequence where
  get : ℕ
deriving DecidableEq

/-- Observable lifecycle phase of a live transcription session. -/
inductive LiveSessionPhase
  | awaitingReady
  | streaming
  | finalizing
  | finalized
  | closed
  | failed
deriving DecidableEq

/-- Requested terminal status for a bounded finalize operation. -/
inductive FinalizeStatus
  | flushed
  | noProvider
  | timeout
deriving DecidableEq

/-- A finalize result whose status and evidence have been validated by the session. -/
structure FinalizeOutcome where
  status : FinalizeStatus
  sawResult : Bool
deriving DecidableEq

/-- Operation attempted during an invalid lifecycle phase. -/
inductive LiveSessionOperation
  | becomeReady
  | acceptAudio
  | confirmProviderWrite
  | confirmAcknowledgement
  | beginFinalize
  | observeFinalizeResult
  | completeFinalize
  | close
  | fail
deriving DecidableEq

/-- Deterministic rejection from a live-session state transition. -/
inductive LiveSessionError
  | invalidTransition (phase : LiveSessionPhase) (operation : LiveSessionOperation)
  | pendingAudioLimitReached
  | audioSequenceExhausted
  | unknownAudioSequence (sequence : RawAudioSequence)
  | providerWriteAlreadyConfirmed (sequence : RawAudioSequence)
  | providerWriteNotConfirmed (sequence : RawAudioSequence)
  | finalizeHasPendingAudio
  | flushedWithoutResult
  | noProviderAfterAudio
  | noProviderAfterResult
deriving DecidableEq

/-- Provider-neutral state of one bounded live transcription session. -/
structure LiveSession where
  phase : LiveSessionPhase
  pendingAudio : Finset RawAudioSequence
  providerWrittenAudio : Finset RawAudioSequence
  lastSequence : ℕ
  acceptedAudio : Bool
  finalizeResultObserved : Bool
deriving DecidableEq

namespace LiveSession

/-- A session that cannot accept audio until readiness is confirmed. -/
def new : LiveSession := ⟨.awaitingReady, ∅, ∅, 0, false, false⟩

variable (session : LiveSession)

def pendingAudioCount : ℕ := session.pendingAudio.card

def invalidTransition (operation : LiveSessionOperation) : LiveSessionError :=
  .invalidTransition session.phase operation

/-- Run an operation in the one phase it is allowed in. -/
def requirePhase {α : Type} (expected : LiveSessionPhase) (operation : LiveSessionOperation)
    (next : LiveSession × Except LiveSessionError α) : LiveSession × Except LiveSessionError α :=
  if session.phase = expected then next else (session, .error (session.invalidTransition operation))

/-- Moves an awaiting session into streaming after its provider is ready. -/
def markReady : LiveSession × Except LiveSessionError Unit :=
  session.requirePhase .awaitingReady .becomeReady ({ session with phase := .streaming }, .ok ())

/-- Accepts one raw-audio frame and assigns its positive sequence number. -/
def acceptAudio : LiveSession × Except LiveSessionError RawAudioSequence :=
  session.requirePhase .streaming .acceptAudio <|
    if session.pendingAudio.card = MAX_PENDING_AUDIO_SEQUENCES then
      (session, .error .pendingAudioLimitReached)
    else
      match U64.checkedAdd session.lastSequence 1 with
      | none => (session, .error .audioSequenceExhausted)
      | some value =>
        ({ session with
            pendingAudio := insert ⟨value⟩ session.pendingAudio
            lastSequence := value
            acceptedAudio := true }, .ok ⟨value⟩)

/-- Records successful provider egress for one pending frame. -/
def markProviderWriteSucceeded (sequence : RawAudioSequence) :
    LiveSession × Except LiveSessionError Unit :=
  session.requirePhase .streaming .confirmProviderWrite <|
    if sequence ∉ session.pendingAudio then (session, .error (.unknownAudioSequence sequence))
    else
      let written := { session with
        providerWrittenAudio := insert sequence session.providerWrittenAudio }
      -- the insertion reports whether the sequence is new
      if sequence ∈ session.providerWrittenAudio then
        (written, .error (.providerWriteAlreadyConfirmed sequence))
      else (written, .ok ())

/-- Records that the client ACK was sent for a provider-written frame. -/
def markAckSent (sequence : RawAudioSequence) : LiveSession × Except LiveSessionError Unit :=
  session.requirePhase .streaming .confirmAcknowledgement <|
    if sequence ∉ session.pendingAudio then (session, .error (.unknownAudioSequence sequence))
    else
      let removed := { session with
        providerWrittenAudio := session.providerWrittenAudio.erase sequence }
      -- the removal reports whether the sequence was there
      if sequence ∉ session.providerWrittenAudio then
        (removed, .error (.providerWriteNotConfirmed sequence))
      else ({ removed with pendingAudio := removed.pendingAudio.erase sequence }, .ok ())

/-- Begins the bounded finalize drain after every accepted frame has been acknowledged. -/
def beginFinalize : LiveSession × Except LiveSessionError Unit :=
  session.requirePhase .streaming .beginFinalize <|
    if session.pendingAudio ≠ ∅ then (session, .error .finalizeHasPendingAudio)
    else ({ session with finalizeResultObserved := false, phase := .finalizing }, .ok ())

/-- Records one result observed during the bounded finalize drain. -/
def markFinalizeResultObserved : LiveSession × Except LiveSessionError Unit :=
  session.requirePhase .finalizing .observeFinalizeResult
    ({ session with finalizeResultObserved := true }, .ok ())

/-- Completes finalization and derives a truthful wire outcome from observed session evidence. -/
def completeFinalize (status : FinalizeStatus) :
    LiveSession × Except LiveSessionError FinalizeOutcome :=
  session.requirePhase .finalizing .completeFinalize <|
    if status = .flushed ∧ session.finalizeResultObserved = false then
      (session, .error .flushedWithoutResult)
    else if status = .noProvider ∧ session.acceptedAudio = true then
      (session, .error .noProviderAfterAudio)
    else if status = .noProvider ∧ session.finalizeResultObserved = true then
      (session, .error .noProviderAfterResult)
    else ({ session with phase := .finalized }, .ok ⟨status, session.finalizeResultObserved⟩)

/-- Closes any non-terminal session without rewriting an existing failure. -/
def close : LiveSession × Except LiveSessionError Unit :=
  if session.phase = .closed ∨ session.phase = .failed then
    (session, .error (session.invalidTransition .close))
  else ({ session with phase := .closed }, .ok ())

/-- Marks any non-terminal session as failed. -/
def fail : LiveSession × Except LiveSessionError Unit :=
  if session.phase = .closed ∨ session.phase = .failed then
    (session, .error (session.invalidTransition .fail))
  else ({ session with phase := .failed }, .ok ())

end LiveSession

/-- A call of one session operation with its argument. -/
inductive LiveSessionCall
  | markReady
  | acceptAudio
  | markProviderWriteSucceeded (sequence : RawAudioSequence)
  | markAckSent (sequence : RawAudioSequence)
  | beginFinalize
  | markFinalizeResultObserved
  | completeFinalize (status : FinalizeStatus)
  | close
  | fail
deriving DecidableEq

/-- What a successful call returns. -/
inductive LiveSessionReply
  | done
  | sequence (sequence : RawAudioSequence)
  | outcome (outcome : FinalizeOutcome)
deriving DecidableEq

namespace LiveSession

/-- Report the result of an operation as the reply of a call. -/
def answer {α : Type} (reply : α → LiveSessionReply) (result : LiveSession × Except LiveSessionError α) :
    LiveSession × Except LiveSessionError LiveSessionReply := (result.1, result.2.map reply)

/-- Answer one call. -/
def step (session : LiveSession) : LiveSessionCall →
    LiveSession × Except LiveSessionError LiveSessionReply
  | .markReady => answer (fun _ => .done) session.markReady
  | .acceptAudio => answer .sequence session.acceptAudio
  | .markProviderWriteSucceeded sequence =>
    answer (fun _ => .done) (session.markProviderWriteSucceeded sequence)
  | .markAckSent sequence => answer (fun _ => .done) (session.markAckSent sequence)
  | .beginFinalize => answer (fun _ => .done) session.beginFinalize
  | .markFinalizeResultObserved => answer (fun _ => .done) session.markFinalizeResultObserved
  | .completeFinalize status => answer .outcome (session.completeFinalize status)
  | .close => answer (fun _ => .done) session.close
  | .fail => answer (fun _ => .done) session.fail

end LiveSession

/-- What a successful call does to a session, with the guards it passed. -/
inductive LiveSession.Advances (session : LiveSession) :
    LiveSessionCall → LiveSession → LiveSessionReply → Prop
  | markReady (hphase : session.phase = .awaitingReady) :
      session.Advances .markReady { session with phase := .streaming } .done
  | acceptAudio (hphase : session.phase = .streaming)
      (hroom : session.pendingAudio.card ≠ MAX_PENDING_AUDIO_SEQUENCES) :
      session.Advances .acceptAudio
        { session with
          pendingAudio := insert ⟨session.lastSequence + 1⟩ session.pendingAudio
          lastSequence := session.lastSequence + 1
          acceptedAudio := true } (.sequence ⟨session.lastSequence + 1⟩)
  | providerWrite {sequence : RawAudioSequence} (hphase : session.phase = .streaming)
      (hpending : sequence ∈ session.pendingAudio)
      (hnew : sequence ∉ session.providerWrittenAudio) :
      session.Advances (.markProviderWriteSucceeded sequence)
        { session with providerWrittenAudio := insert sequence session.providerWrittenAudio } .done
  | ackSent {sequence : RawAudioSequence} (hphase : session.phase = .streaming)
      (hpending : sequence ∈ session.pendingAudio)
      (hwritten : sequence ∈ session.providerWrittenAudio) :
      session.Advances (.markAckSent sequence)
        { session with
          providerWrittenAudio := session.providerWrittenAudio.erase sequence
          pendingAudio := session.pendingAudio.erase sequence } .done
  | beginFinalize (hphase : session.phase = .streaming) (hdrained : session.pendingAudio = ∅) :
      session.Advances .beginFinalize
        { session with finalizeResultObserved := false, phase := .finalizing } .done
  | observeResult (hphase : session.phase = .finalizing) :
      session.Advances .markFinalizeResultObserved
        { session with finalizeResultObserved := true } .done
  | completeFinalize {status : FinalizeStatus} (hphase : session.phase = .finalizing)
      (hflushed : status = .flushed → session.finalizeResultObserved = true)
      (hnone : status = .noProvider →
        session.acceptedAudio = false ∧ session.finalizeResultObserved = false) :
      session.Advances (.completeFinalize status) { session with phase := .finalized }
        (.outcome ⟨status, session.finalizeResultObserved⟩)
  | close (hphase : session.phase ≠ .closed ∧ session.phase ≠ .failed) :
      session.Advances .close { session with phase := .closed } .done
  | fail (hphase : session.phase ≠ .closed ∧ session.phase ≠ .failed) :
      session.Advances .fail { session with phase := .failed } .done

namespace LiveSession

section Cases

variable (session : LiveSession)

/-- Outside its phase an operation is refused and changes nothing. -/
theorem requirePhase_cases {α : Type} (expected : LiveSessionPhase) (operation : LiveSessionOperation)
    (next : LiveSession × Except LiveSessionError α) :
    (∃ error, session.requirePhase expected operation next = (session, .error error)) ∨
      session.phase = expected ∧ session.requirePhase expected operation next = next := by
  by_cases hphase : session.phase = expected
  · exact .inr ⟨hphase, by simp [requirePhase, hphase]⟩
  · exact .inl ⟨session.invalidTransition operation, by simp [requirePhase, hphase]⟩

theorem acceptAudio_cases :
    (∃ error, session.acceptAudio = (session, .error error)) ∨
      ∃ session', session.acceptAudio = (session', .ok ⟨session.lastSequence + 1⟩) ∧
        session.Advances .acceptAudio session' (.sequence ⟨session.lastSequence + 1⟩) := by
  unfold acceptAudio
  rcases session.requirePhase_cases .streaming .acceptAudio _ with herror | ⟨hphase, hnext⟩
  · exact .inl herror
  · rw [hnext]
    split
    · exact .inl ⟨_, rfl⟩
    · rename_i hroom
      cases hvalue : U64.checkedAdd session.lastSequence 1 with
      | none => exact .inl ⟨_, rfl⟩
      | some value =>
        obtain ⟨_, rfl⟩ := U64.checkedAdd_eq_some.mp hvalue
        exact .inr ⟨_, rfl, .acceptAudio hphase hroom⟩

theorem markProviderWriteSucceeded_cases (sequence : RawAudioSequence) :
    (∃ error, session.markProviderWriteSucceeded sequence = (session, .error error)) ∨
      ∃ session', session.markProviderWriteSucceeded sequence = (session', .ok ()) ∧
        session.Advances (.markProviderWriteSucceeded sequence) session' .done := by
  unfold markProviderWriteSucceeded
  rcases session.requirePhase_cases .streaming .confirmProviderWrite _ with herror | ⟨hphase, hnext⟩
  · exact .inl herror
  · rw [hnext]
    by_cases hpending : sequence ∈ session.pendingAudio
    · by_cases hwritten : sequence ∈ session.providerWrittenAudio
      · exact .inl ⟨_, by simp [hpending, hwritten]; rfl⟩
      · exact .inr ⟨_, by simp [hpending, hwritten], .providerWrite hphase hpending hwritten⟩
    · exact .inl ⟨_, by simp [hpending]; rfl⟩

theorem markAckSent_cases (sequence : RawAudioSequence) :
    (∃ error, session.markAckSent sequence = (session, .error error)) ∨
      ∃ session', session.markAckSent sequence = (session', .ok ()) ∧
        session.Advances (.markAckSent sequence) session' .done := by
  unfold markAckSent
  rcases session.requirePhase_cases .streaming .confirmAcknowledgement _ with herror | ⟨hphase, hnext⟩
  · exact .inl herror
  · rw [hnext]
    by_cases hpending : sequence ∈ session.pendingAudio
    · by_cases hwritten : sequence ∈ session.providerWrittenAudio
      · exact .inr ⟨_, by simp [hpending, hwritten], .ackSent hphase hpending hwritten⟩
      · exact .inl ⟨_, by simp [hpending, hwritten]; rfl⟩
    · exact .inl ⟨_, by simp [hpending]; rfl⟩

theorem beginFinalize_cases :
    (∃ error, session.beginFinalize = (session, .error error)) ∨
      ∃ session', session.beginFinalize = (session', .ok ()) ∧
        session.Advances .beginFinalize session' .done := by
  unfold beginFinalize
  rcases session.requirePhase_cases .streaming .beginFinalize _ with herror | ⟨hphase, hnext⟩
  · exact .inl herror
  · rw [hnext]
    split
    · exact .inl ⟨_, rfl⟩
    · rename_i hdrained
      exact .inr ⟨_, rfl, .beginFinalize hphase (not_not.mp hdrained)⟩

theorem markFinalizeResultObserved_cases :
    (∃ error, session.markFinalizeResultObserved = (session, .error error)) ∨
      ∃ session', session.markFinalizeResultObserved = (session', .ok ()) ∧
        session.Advances .markFinalizeResultObserved session' .done := by
  unfold markFinalizeResultObserved
  rcases session.requirePhase_cases .finalizing .observeFinalizeResult _ with
    herror | ⟨hphase, hnext⟩
  · exact .inl herror
  · exact .inr ⟨_, hnext, .observeResult hphase⟩

theorem completeFinalize_cases (status : FinalizeStatus) :
    (∃ error, session.completeFinalize status = (session, .error error)) ∨
      ∃ session', session.completeFinalize status =
          (session', .ok ⟨status, session.finalizeResultObserved⟩) ∧
        session.Advances (.completeFinalize status) session'
          (.outcome ⟨status, session.finalizeResultObserved⟩) := by
  unfold completeFinalize
  rcases session.requirePhase_cases .finalizing .completeFinalize _ with herror | ⟨hphase, hnext⟩
  · exact .inl herror
  · rw [hnext]
    split
    · exact .inl ⟨_, rfl⟩
    · rename_i hflushed
      split
      · exact .inl ⟨_, rfl⟩
      · rename_i haudio
        split
        · exact .inl ⟨_, rfl⟩
        · rename_i hresult
          exact .inr ⟨_, rfl, .completeFinalize hphase
            (fun hstatus => by simpa [hstatus] using hflushed)
            (fun hstatus => by simpa [hstatus] using And.intro haudio hresult)⟩

theorem close_cases :
    (∃ error, session.close = (session, .error error)) ∨
      ∃ session', session.close = (session', .ok ()) ∧ session.Advances .close session' .done := by
  unfold close
  split
  · exact .inl ⟨_, rfl⟩
  · rename_i hphase
    exact .inr ⟨_, rfl, .close (not_or.mp hphase)⟩

theorem fail_cases :
    (∃ error, session.fail = (session, .error error)) ∨
      ∃ session', session.fail = (session', .ok ()) ∧ session.Advances .fail session' .done := by
  unfold fail
  split
  · exact .inl ⟨_, rfl⟩
  · rename_i hphase
    exact .inr ⟨_, rfl, .fail (not_or.mp hphase)⟩

theorem markReady_cases :
    (∃ error, session.markReady = (session, .error error)) ∨
      ∃ session', session.markReady = (session', .ok ()) ∧
        session.Advances .markReady session' .done := by
  unfold markReady
  rcases session.requirePhase_cases .awaitingReady .becomeReady _ with herror | ⟨hphase, hnext⟩
  · exact .inl herror
  · exact .inr ⟨_, hnext, .markReady hphase⟩

/-- Every call either advances the session or reports an error and changes nothing. -/
theorem step_cases (call : LiveSessionCall) :
    (∃ error, session.step call = (session, .error error)) ∨
      ∃ session' reply, session.step call = (session', .ok reply) ∧
        session.Advances call session' reply := by
  have hanswer {α : Type} {reply : α → LiveSessionReply} {result : LiveSession × Except LiveSessionError α}
      (h : (∃ error, result = (session, .error error)) ∨ ∃ session' value,
        result = (session', .ok value) ∧ session.Advances call session' (reply value)) :
      (∃ error, answer reply result = (session, .error error)) ∨
        ∃ session' value, answer reply result = (session', .ok value) ∧
          session.Advances call session' value := by
    rcases h with ⟨error, rfl⟩ | ⟨session', value, rfl, hadvances⟩
    · exact .inl ⟨error, rfl⟩
    · exact .inr ⟨session', reply value, rfl, hadvances⟩
  cases call with
  | markReady => exact hanswer (session.markReady_cases.imp_right fun ⟨s, h⟩ => ⟨s, (), h⟩)
  | acceptAudio => exact hanswer (session.acceptAudio_cases.imp_right fun ⟨s, h⟩ => ⟨s, _, h⟩)
  | markProviderWriteSucceeded sequence =>
    exact hanswer ((session.markProviderWriteSucceeded_cases sequence).imp_right
      fun ⟨s, h⟩ => ⟨s, (), h⟩)
  | markAckSent sequence =>
    exact hanswer ((session.markAckSent_cases sequence).imp_right fun ⟨s, h⟩ => ⟨s, (), h⟩)
  | beginFinalize => exact hanswer (session.beginFinalize_cases.imp_right fun ⟨s, h⟩ => ⟨s, (), h⟩)
  | markFinalizeResultObserved =>
    exact hanswer (session.markFinalizeResultObserved_cases.imp_right fun ⟨s, h⟩ => ⟨s, (), h⟩)
  | completeFinalize status =>
    exact hanswer ((session.completeFinalize_cases status).imp_right fun ⟨s, h⟩ => ⟨s, _, h⟩)
  | close => exact hanswer (session.close_cases.imp_right fun ⟨s, h⟩ => ⟨s, (), h⟩)
  | fail => exact hanswer (session.fail_cases.imp_right fun ⟨s, h⟩ => ⟨s, (), h⟩)

end Cases

end LiveSession

end Voicetext.Speech.Domain
