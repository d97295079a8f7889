import Voicetext.Speech.Application.CoordinatorTimeline

/-!
# Coordinators whose session is terminal

A failed or closed session stays so, and refuses audio and finalization. Applying a provider event
consults the phase only for finalize evidence: a transcript or an utterance end within its bounds is
returned in a terminal session too.
-/

namespace Voicetext.Speech.Application

open Voicetext.Common Voicetext.Speech.Domain

/-- What one provider read gives. -/
abbrev ProviderRead := Except RecognitionFailure (Option LiveRecognitionEvent)

/-- A call of the coordinator, or a wait for its next event with the reads it is given. -/
inductive LiveCoordinatorUse
  | call (call : LiveCoordinatorCall)
  | nextEvent (reads : List ProviderRead)

namespace LiveCoordinator

/-- Receives and validates the next provider-neutral event; a wait whose reads run out is dropped. -/
def nextEvent (coordinator : LiveCoordinator) :
    List ProviderRead → LiveCoordinator × Except LiveCoordinatorError LiveCoordinatorReply
  | [] => (coordinator, .ok .dropped)
  | received :: rest =>
    match coordinator.applyProviderEvent received, received with
    | (coordinator, .error error), _ => (coordinator, .error error)
    | (coordinator, .ok (some event)), _ => (coordinator, .ok (.event (some event)))
    | (coordinator, .ok none), .ok none => (coordinator, .ok (.event none))
    | (coordinator, .ok none), _ => nextEvent coordinator rest

/-- Answer one use. -/
def use (coordinator : LiveCoordinator) : LiveCoordinatorUse →
    LiveCoordinator × Except LiveCoordinatorError LiveCoordinatorReply
  | .call call => coordinator.step call
  | .nextEvent reads => coordinator.nextEvent reads

/-- The session has failed or is closed. -/
def Terminal (coordinator : LiveCoordinator) : Prop :=
  coordinator.domain.phase = .closed ∨ coordinator.domain.phase = .failed

/-- An event the coordinator returns wherever it is applied. -/
def Admits (coordinator : LiveCoordinator) : LiveRecognitionEvent → Prop
  | .transcript transcript =>
    validateTranscript transcript = .ok () ∧ (coordinator.timeline.validateTranscript transcript).2 = .ok ()
  | .utteranceEnd lastWordEndMillis => coordinator.timeline.validateUtteranceEnd lastWordEndMillis = .ok ()
  | .finalizeResultObserved => False

/-- The use hands over an event that is within its bounds and on the timeline. -/
def IsHanded (coordinator : LiveCoordinator) : LiveCoordinatorUse → Prop
  | .call (.applyProviderEvent (.ok (some event))) => coordinator.Admits event
  | .nextEvent (.ok (some event) :: _) => coordinator.Admits event
  | _ => False

end LiveCoordinator

/-- An event, a sequence or a finalize outcome. -/
def Speaks : Except LiveCoordinatorError LiveCoordinatorReply → Prop
  | .ok (.event (some _)) | .ok (.sequence _) | .ok (.outcome _) => True
  | _ => False

namespace LiveCoordinator

variable {coordinator : LiveCoordinator}

section Session

variable {session : LiveSession}

/-- A terminal session refuses every operation which needs another phase. -/
theorem requirePhase_of_terminal (h : session.phase = .closed ∨ session.phase = .failed) {α : Type}
    {expected : LiveSessionPhase} (hexpected : expected ≠ .closed ∧ expected ≠ .failed)
    (operation : LiveSessionOperation) (next : LiveSession × Except LiveSessionError α) :
    session.requirePhase expected operation next = (session, .error (session.invalidTransition operation)) := by
  have hphase : session.phase ≠ expected := by
    rintro rfl
    exact h.elim hexpected.1 hexpected.2
  exact if_neg hphase

theorem close_of_terminal (h : session.phase = .closed ∨ session.phase = .failed) :
    session.close.1 = session := by
  rw [LiveSession.close, if_pos h]

theorem fail_of_terminal (h : session.phase = .closed ∨ session.phase = .failed) : session.fail.1 = session := by
  rw [LiveSession.fail, if_pos h]

end Session

section Terminal

variable (h : coordinator.Terminal)

include h

theorem Terminal.failAfterProviderError : coordinator.failAfterProviderError.Terminal := by
  rw [LiveCoordinator.failAfterProviderError, fail_of_terminal h]
  exact h

/-- A terminal coordinator refuses audio. -/
theorem Terminal.providerWrite (pcmS16le : List UInt8) (provider : Option ProviderAnswer) :
    ∃ error, coordinator.providerWrite pcmS16le provider = (coordinator, .error error) := by
  have hstart : ∃ error, coordinator.startProviderWrite pcmS16le = (coordinator, .error error) := by
    unfold startProviderWrite
    split
    · exact ⟨_, rfl⟩
    · split
      · exact ⟨_, rfl⟩
      · rw [LiveSession.acceptAudio, requirePhase_of_terminal h (by decide)]
        exact ⟨_, rfl⟩
  obtain ⟨error, hstart⟩ := hstart
  exact ⟨error, by simp only [LiveCoordinator.providerWrite, hstart]⟩

/-- A terminal coordinator returns the events it admits, and leaves its session as it is. -/
theorem Terminal.applyProviderEvent (received : ProviderRead) :
    (coordinator.applyProviderEvent received).1.Terminal ∧
      match received with
      | .ok (some event) =>
        (coordinator.Admits event ∧ ∃ returned, (coordinator.applyProviderEvent received).2 = .ok (some returned)) ∨
          ¬ coordinator.Admits event ∧ ∃ error, (coordinator.applyProviderEvent received).2 = .error error
      | .ok none => coordinator.applyProviderEvent received = (coordinator, .ok none)
      | .error failure => (coordinator.applyProviderEvent received).2 = .error (.recognition failure) := by
  match received with
  | .error failure =>
    exact ⟨h.failAfterProviderError, rfl⟩
  | .ok none => exact ⟨h, rfl⟩
  | .ok (some (.transcript transcript)) =>
    simp only [LiveCoordinator.applyProviderEvent, Admits]
    cases hbounds : validateTranscript transcript with
    | error error =>
      exact ⟨h.failAfterProviderError, .inr ⟨by simp, _, rfl⟩⟩
    | ok _ =>
      rcases htimeline : coordinator.timeline.validateTranscript transcript with ⟨timeline, error | _⟩
      · have hterminal : ({ coordinator with timeline } : LiveCoordinator).Terminal := h
        exact ⟨hterminal.failAfterProviderError, .inr ⟨by simp, _, rfl⟩⟩
      · exact ⟨h, .inl ⟨⟨rfl, rfl⟩, _, rfl⟩⟩
  | .ok (some (.utteranceEnd lastWordEndMillis)) =>
    simp only [LiveCoordinator.applyProviderEvent, Admits]
    cases htimeline : coordinator.timeline.validateUtteranceEnd lastWordEndMillis with
    | error error =>
      exact ⟨h.failAfterProviderError, .inr ⟨by simp, _, rfl⟩⟩
    | ok _ => exact ⟨h, .inl ⟨rfl, _, rfl⟩⟩
  | .ok (some .finalizeResultObserved) =>
    have hobserve := requirePhase_of_terminal h (by decide : LiveSessionPhase.finalizing ≠ .closed ∧ _)
      .observeFinalizeResult ({ coordinator.domain with finalizeResultObserved := true }, .ok ())
    simp only [LiveCoordinator.applyProviderEvent, LiveSession.markFinalizeResultObserved, hobserve]
    exact ⟨h.failAfterProviderError, .inr ⟨id, _, rfl⟩⟩

/-- A wait in a terminal session ends with its first read. -/
theorem Terminal.nextEvent (received : ProviderRead) (rest : List ProviderRead) :
    coordinator.nextEvent (received :: rest) =
      ((coordinator.applyProviderEvent received).1, (coordinator.applyProviderEvent received).2.map .event) := by
  obtain ⟨_, happlied⟩ := h.applyProviderEvent received
  rcases hresult : coordinator.applyProviderEvent received with ⟨after, error | (_ | event)⟩
  · simp [LiveCoordinator.nextEvent, hresult, Except.map]
  · match received with
    | .error failure => simp [hresult] at happlied
    | .ok none => simp [LiveCoordinator.nextEvent, hresult, Except.map]
    | .ok (some event) => simp [hresult] at happlied
  · simp [LiveCoordinator.nextEvent, hresult, Except.map]

/-- Applying a read in a terminal session speaks when it hands over an event the coordinator admits. -/
theorem Terminal.speaks_applyProviderEvent (received : ProviderRead) :
    Speaks ((coordinator.applyProviderEvent received).2.map .event) ↔
      ∃ event, received = .ok (some event) ∧ coordinator.Admits event := by
  obtain ⟨_, happlied⟩ := h.applyProviderEvent received
  match received with
  | .error failure => simp [happlied, Except.map, Speaks]
  | .ok none => simp [happlied, Except.map, Speaks]
  | .ok (some event) =>
    rcases happlied with ⟨hadmits, returned, hreturned⟩ | ⟨hadmits, error, herror⟩
    · simp [hreturned, Except.map, Speaks, hadmits]
    · simp [herror, Except.map, Speaks, hadmits]

/-- A terminal session stays terminal, whatever is done with it. -/
theorem Terminal.use (request : LiveCoordinatorUse) : (coordinator.use request).1.Terminal := by
  match request with
  | .nextEvent [] => exact h
  | .nextEvent (received :: rest) =>
    rw [LiveCoordinator.use, h.nextEvent]
    exact (h.applyProviderEvent received).1
  | .call (.providerWrite pcmS16le provider) =>
    obtain ⟨error, hrefused⟩ := h.providerWrite pcmS16le provider
    simp only [LiveCoordinator.use, LiveCoordinator.step, hrefused]
    exact h
  | .call (.applyProviderEvent received) => exact (h.applyProviderEvent received).1
  | .call (.ackSent sequence) =>
    simp only [LiveCoordinator.use, LiveCoordinator.step, LiveCoordinator.ackSent, LiveSession.markAckSent, answer]
    rw [requirePhase_of_terminal h (by decide)]
    exact h
  | .call (.beginFinalize provider) =>
    simp only [LiveCoordinator.use, LiveCoordinator.step, LiveCoordinator.beginFinalize, startFinalize,
      LiveSession.beginFinalize]
    rw [requirePhase_of_terminal h (by decide)]
    exact h
  | .call (.completeFinalize status) =>
    simp only [LiveCoordinator.use, LiveCoordinator.step, LiveCoordinator.completeFinalize,
      LiveSession.completeFinalize, answer]
    rw [requirePhase_of_terminal h (by decide)]
    exact h
  | .call (.close none) => exact h
  | .call (.close (some provider)) =>
    have hclosed : (coordinator.finishClose provider).1 = coordinator := by
      simp only [finishClose, close_of_terminal h]
    simp only [LiveCoordinator.use, LiveCoordinator.step, LiveCoordinator.close, answer, hclosed]
    exact h

/-- In a terminal session nothing speaks but an event which is handed over and admitted. -/
theorem Terminal.speaks_use (request : LiveCoordinatorUse) :
    Speaks (coordinator.use request).2 ↔ coordinator.IsHanded request := by
  cases request with
  | nextEvent reads =>
    cases reads with
    | nil => exact Iff.rfl
    | cons received rest =>
      rw [LiveCoordinator.use, h.nextEvent, h.speaks_applyProviderEvent]
      rcases received with failure | _ | event <;> simp [IsHanded]
  | call call =>
    cases call with
    | providerWrite pcmS16le provider =>
      obtain ⟨error, hrefused⟩ := h.providerWrite pcmS16le provider
      simp only [LiveCoordinator.use, LiveCoordinator.step, hrefused]
      exact Iff.rfl
    | applyProviderEvent received =>
      refine (h.speaks_applyProviderEvent received).trans ?_
      rcases received with failure | _ | event <;> simp [IsHanded]
    | ackSent sequence =>
      simp only [LiveCoordinator.use, LiveCoordinator.step, LiveCoordinator.ackSent, LiveSession.markAckSent, answer]
      rw [requirePhase_of_terminal h (by decide)]
      exact Iff.rfl
    | beginFinalize provider =>
      simp only [LiveCoordinator.use, LiveCoordinator.step, LiveCoordinator.beginFinalize, startFinalize,
        LiveSession.beginFinalize]
      rw [requirePhase_of_terminal h (by decide)]
      exact Iff.rfl
    | completeFinalize status =>
      simp only [LiveCoordinator.use, LiveCoordinator.step, LiveCoordinator.completeFinalize,
        LiveSession.completeFinalize, answer]
      rw [requirePhase_of_terminal h (by decide)]
      exact Iff.rfl
    | close provider =>
      cases provider with
      | none => exact Iff.rfl
      | some provider =>
        simp only [LiveCoordinator.use, LiveCoordinator.step, LiveCoordinator.close, answer, finishClose]
        cases provider with
        | error failure => exact Iff.rfl
        | ok _ => cases coordinator.domain.close.2 <;> exact Iff.rfl

/-- A run from a terminal session stays terminal. -/
theorem Terminal.feed (uses : List LiveCoordinatorUse) : (feed LiveCoordinator.use coordinator uses).2.Terminal := by
  induction uses generalizing coordinator with
  | nil => exact h
  | cons request rest ih => exact ih (h.use request)

end Terminal

/-- Once the session is terminal, no use returns an event, a sequence or a finalize outcome. -/
def SilentOnceTerminal (start : LiveCoordinator) (uses : List LiveCoordinatorUse) : Prop :=
  ∀ before after, uses = before ++ after → (feed LiveCoordinator.use start before).2.Terminal →
    ∀ exchange ∈ (feed LiveCoordinator.use (feed LiveCoordinator.use start before).2 after).1, ¬ Speaks exchange.2

/-- A run is silent once terminal if and only if no terminal session in it is handed an event within its bounds. -/
theorem silentOnceTerminal_iff (start : LiveCoordinator) (uses : List LiveCoordinatorUse) :
    start.SilentOnceTerminal uses ↔ ∀ before request after, uses = before ++ request :: after →
      (feed LiveCoordinator.use start before).2.Terminal →
        ¬ (feed LiveCoordinator.use start before).2.IsHanded request := by
  constructor
  · intro hsilent before request after huses hterminal hhanded
    exact hsilent before (request :: after) huses hterminal _ List.mem_cons_self
      ((hterminal.speaks_use request).mpr hhanded)
  · rintro hunhanded before after rfl hterminal exchange hexchange hspeaks
    obtain ⟨front, request, back, rfl, rfl⟩ := mem_feed hexchange
    have hfront := hterminal.feed front
    have hstate : (feed LiveCoordinator.use start (before ++ front)).2 =
        (feed LiveCoordinator.use (feed LiveCoordinator.use start before).2 front).2 := by
      rw [feed_append]
    have hhanded := (hfront.speaks_use request).mp hspeaks
    rw [← hstate] at hfront hhanded
    exact hunhanded (before ++ front) request back (by simp) hfront hhanded

/-- An opened session whose provider fails returns a transcript it is handed afterwards. -/
theorem failedSession_speaks :
    ∃ start, openSession ⟨⟨2, "deepgram", "nova-3", "multi"⟩, 16000, 1, []⟩ (.ok ()) = .ok start ∧
      ¬ start.SilentOnceTerminal
        [.call (.applyProviderEvent (.error (.unknownAfterSend "NETWORK_ERROR" none))),
          .call (.applyProviderEvent (.ok (some (.transcript ⟨"late", 0, 100, none, .utteranceFinal⟩))))] := by
  refine ⟨⟨⟨.streaming, ∅, ∅, 0, false, false⟩, ⟨16000, 2, 0, 0, none, by decide, by decide⟩⟩, rfl, fun hsilent => ?_⟩
  exact hsilent [_] [_] rfl (.inr rfl) _ List.mem_cons_self trivial

end LiveCoordinator

end Voicetext.Speech.Application
