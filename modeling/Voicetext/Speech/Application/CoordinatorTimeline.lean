import Voicetext.Speech.Application.LiveCoordinator
import Voicetext.Speech.Domain.LiveAccounting

/-!
# The timeline over whole coordinator runs

The history of a coordinator says which PCM the provider took and which events were returned. The
accepted horizon is the time covered by that PCM, every returned event ends close to it, and the final
transcripts follow each other without overlap.
-/

namespace Voicetext.Speech.Application

open Voicetext.Common Voicetext.Speech.Domain

/-- A call with its result. -/
abbrev LiveCoordinatorExchange :=
  LiveCoordinatorCall × Except LiveCoordinatorError LiveCoordinatorReply

namespace LiveCoordinatorExchange

/-- The PCM of a write which returned its sequence. -/
def writtenPcm : LiveCoordinatorExchange → List UInt8
  | (.providerWrite pcmS16le _, .ok (.sequence _)) => pcmS16le
  | _ => []

/-- The event an exchange returned. -/
def returnedEvent : LiveCoordinatorExchange → Option LiveCoordinatorEvent
  | (_, .ok (.event event)) => event
  | _ => none

end LiveCoordinatorExchange

namespace LiveCoordinatorEvent

/-- Where an event ends. -/
def endMillis : LiveCoordinatorEvent → ℕ
  | .transcript spoken => spoken.endMillis
  | .utteranceEnd lastWordEndMillis => lastWordEndMillis

/-- The transcript of a final event. -/
def final? : LiveCoordinatorEvent → Option LiveTranscript
  | .transcript spoken => if spoken.isFinal then some spoken else none
  | .utteranceEnd _ => none

end LiveCoordinatorEvent

/-- The sample frames of the PCM a history has successfully written. -/
def writtenFrames (channels : ℕ) (history : List LiveCoordinatorExchange) : ℕ :=
  (history.flatMap LiveCoordinatorExchange.writtenPcm).length / (2 * channels)

/-- The events a history returned, in order. -/
def returnedEvents (history : List LiveCoordinatorExchange) : List LiveCoordinatorEvent :=
  history.filterMap LiveCoordinatorExchange.returnedEvent

/-- The final transcripts a history returned, in order. -/
def returnedFinals (history : List LiveCoordinatorExchange) : List LiveTranscript :=
  (returnedEvents history).filterMap LiveCoordinatorEvent.final?

/-- An exchange adds the final transcript it returned, if it did. -/
theorem returnedFinals_snoc (history : List LiveCoordinatorExchange) (exchange : LiveCoordinatorExchange) :
    returnedFinals (history ++ [exchange]) =
      returnedFinals history ++ (exchange.returnedEvent.bind LiveCoordinatorEvent.final?).toList := by
  rw [returnedFinals, returnedEvents, List.filterMap_append, List.filterMap_append]
  congr 1
  cases hevent : exchange.returnedEvent with
  | none => simp [hevent]
  | some event => cases hfinal : event.final? <;> simp [hevent, hfinal]

/-- What an exchange does to the timeline, with the checks it passed. -/
inductive TimelineMove (timeline : LiveTimeline) : LiveCoordinatorExchange → LiveTimeline → Prop
  | kept {exchange : LiveCoordinatorExchange} (hpcm : exchange.writtenPcm = [])
      (hevent : exchange.returnedEvent = none) : TimelineMove timeline exchange timeline
  | written {pcmS16le : List UInt8} {pending : PendingAudioAcceptance} {sequence : RawAudioSequence}
      (hprepared : timeline.prepareAudioWrite pcmS16le.length = .ok pending) :
      TimelineMove timeline (.providerWrite pcmS16le (some (.ok ())), .ok (.sequence sequence))
        (timeline.commitAudioWrite pending)
  | transcript {transcript : LiveTranscript} (hadmits : timeline.Admits transcript) :
      TimelineMove timeline
        (.applyProviderEvent (.ok (some (.transcript transcript))),
          .ok (.event (some (.transcript transcript))))
        (timeline.accept transcript)
  | utteranceEnd {lastWordEndMillis : ℕ}
      (hwithin : lastWordEndMillis ≤ timeline.acceptedHorizonMillis + 250) :
      TimelineMove timeline
        (.applyProviderEvent (.ok (some (.utteranceEnd lastWordEndMillis))),
          .ok (.event (some (.utteranceEnd lastWordEndMillis))))
        timeline

namespace LiveCoordinator

variable {coordinator : LiveCoordinator}

/-- A coordinator whose session has an account. -/
def Accountable (coordinator : LiveCoordinator) : Prop := coordinator.domain.Accountable

theorem Accountable.failAfterProviderError (h : coordinator.Accountable) :
    coordinator.failAfterProviderError.Accountable := LiveSession.Accountable.step h .fail

/-- A started write keeps the timeline it was prepared on, and its sequence is just handed out. -/
theorem startProviderWrite_cases (coordinator : LiveCoordinator) (pcmS16le : List UInt8) :
    (∃ domain error, coordinator.startProviderWrite pcmS16le = (⟨domain, coordinator.timeline⟩, .error error) ∧
        (coordinator.Accountable → domain.Accountable)) ∨
      ∃ domain pending sequence,
        coordinator.startProviderWrite pcmS16le =
          (⟨domain, coordinator.timeline⟩, .ok (pending, ⟨sequence, pcmS16le⟩)) ∧
        coordinator.timeline.prepareAudioWrite pcmS16le.length = .ok pending ∧
        coordinator.domain.acceptAudio = (domain, .ok sequence) := by
  unfold startProviderWrite
  split
  · exact .inl ⟨_, _, rfl, id⟩
  · split
    · exact .inl ⟨_, _, rfl, id⟩
    · rename_i pending hpending
      split
      · rename_i domain error haccept
        refine .inl ⟨_, _, rfl, fun h => ?_⟩
        have hstep : coordinator.domain.acceptAudio.1.Accountable := .step h .acceptAudio
        rwa [haccept] at hstep
      · rename_i domain sequence haccept
        exact .inr ⟨_, _, _, rfl, hpending, haccept⟩

/-- A provider answer to a write whose sequence was just handed out commits it or fails the session. -/
theorem finishProviderWrite_cases {domain : LiveSession} {sequence : RawAudioSequence}
    (h : coordinator.Accountable) (haccept : coordinator.domain.acceptAudio = (domain, .ok sequence))
    (pending : PendingAudioAcceptance) (provider : ProviderAnswer) :
    ((∃ failure, provider = .error failure ∧
        (finishProviderWrite ⟨domain, coordinator.timeline⟩ pending sequence provider).2 =
          .error (.recognition failure) ∧
        (finishProviderWrite ⟨domain, coordinator.timeline⟩ pending sequence provider).1.timeline =
          coordinator.timeline) ∨
      provider = .ok () ∧
        (finishProviderWrite ⟨domain, coordinator.timeline⟩ pending sequence provider).2 =
          .ok sequence ∧
        (finishProviderWrite ⟨domain, coordinator.timeline⟩ pending sequence provider).1.timeline =
          coordinator.timeline.commitAudioWrite pending) ∧
      (finishProviderWrite ⟨domain, coordinator.timeline⟩ pending sequence provider).1.Accountable := by
  have haccepted : domain.Accountable := by
    have hstep : coordinator.domain.acceptAudio.1.Accountable := .step h .acceptAudio
    rwa [haccept] at hstep
  cases provider with
  | error failure =>
    have hfailed : domain.fail.1.Accountable := .step haccepted .fail
    exact ⟨.inl ⟨failure, rfl, rfl, rfl⟩, hfailed⟩
  | ok _ =>
    have hconfirmed : (domain.markProviderWriteSucceeded sequence).1.Accountable :=
      .step haccepted (.markProviderWriteSucceeded sequence)
    have hok := LiveSession.Accountable.confirm_next h haccept
    rcases hmark : domain.markProviderWriteSucceeded sequence with ⟨written, error | _⟩
    · rw [hmark] at hok
      cases hok
    · have hfinish : finishProviderWrite ⟨domain, coordinator.timeline⟩ pending sequence (.ok ()) =
          (⟨written, coordinator.timeline.commitAudioWrite pending⟩, .ok sequence) := by
        simp [finishProviderWrite, hmark]
      rw [hfinish]
      rw [hmark] at hconfirmed
      exact ⟨.inr ⟨rfl, rfl, rfl⟩, hconfirmed⟩

/-- A write moves the timeline only when the provider has taken it. -/
theorem providerWrite_move (h : coordinator.Accountable) (pcmS16le : List UInt8)
    (provider : Option ProviderAnswer) :
    TimelineMove coordinator.timeline
        (.providerWrite pcmS16le provider, (coordinator.providerWrite pcmS16le provider).2)
        (coordinator.providerWrite pcmS16le provider).1.timeline ∧
      (coordinator.providerWrite pcmS16le provider).1.Accountable := by
  rcases coordinator.startProviderWrite_cases pcmS16le with
    ⟨domain, error, hstart, hdomain⟩ | ⟨domain, pending, sequence, hstart, hprepared, haccept⟩
  · simp only [providerWrite, hstart]
    exact ⟨.kept rfl rfl, hdomain h⟩
  · cases provider with
    | none =>
      have hstep : coordinator.domain.acceptAudio.1.Accountable := .step h .acceptAudio
      rw [haccept] at hstep
      simp only [providerWrite, hstart]
      exact ⟨.kept rfl rfl, hstep⟩
    | some provider =>
      obtain ⟨hcases, haccountable⟩ := finishProviderWrite_cases h haccept pending provider
      simp only [providerWrite, hstart, answer]
      refine ⟨?_, haccountable⟩
      rcases hcases with ⟨failure, rfl, hreply, htimeline⟩ | ⟨rfl, hreply, htimeline⟩
      · rw [hreply, htimeline]
        exact .kept rfl rfl
      · rw [hreply, htimeline]
        exact .written hprepared

/-- An applied event is returned only when the timeline admits it. -/
theorem applyProviderEvent_move (h : coordinator.Accountable)
    (received : Except RecognitionFailure (Option LiveRecognitionEvent)) :
    TimelineMove coordinator.timeline
        (.applyProviderEvent received, (coordinator.applyProviderEvent received).2.map .event)
        (coordinator.applyProviderEvent received).1.timeline ∧
      (coordinator.applyProviderEvent received).1.Accountable := by
  match received with
  | .error failure => exact ⟨.kept rfl rfl, h.failAfterProviderError⟩
  | .ok none => exact ⟨.kept rfl rfl, h⟩
  | .ok (some (.transcript transcript)) =>
    simp only [applyProviderEvent]
    split
    · exact ⟨.kept rfl rfl, h.failAfterProviderError⟩
    · rcases coordinator.timeline.validateTranscript_cases transcript with
        ⟨-, error, hvalidate⟩ | ⟨hadmits, hvalidate⟩
      · rw [hvalidate]
        exact ⟨.kept rfl rfl, h.failAfterProviderError⟩
      · rw [hvalidate]
        exact ⟨.transcript hadmits, h⟩
  | .ok (some (.utteranceEnd lastWordEndMillis)) =>
    simp only [applyProviderEvent]
    split
    · exact ⟨.kept rfl rfl, h.failAfterProviderError⟩
    · rename_i hwithin
      exact ⟨.utteranceEnd (LiveTimeline.validateHorizon_eq_ok.mp hwithin), h⟩
  | .ok (some .finalizeResultObserved) =>
    have hstep : coordinator.domain.markFinalizeResultObserved.1.Accountable :=
      .step h .markFinalizeResultObserved
    simp only [applyProviderEvent]
    split
    · rename_i domain error hobserve
      rw [hobserve] at hstep
      exact ⟨.kept rfl rfl, .step hstep .fail⟩
    · rename_i domain hobserve
      rw [hobserve] at hstep
      exact ⟨.kept rfl rfl, hstep⟩

/-- What one call does to the timeline. -/
theorem step_move (h : coordinator.Accountable) (call : LiveCoordinatorCall) :
    TimelineMove coordinator.timeline (call, (coordinator.step call).2)
        (coordinator.step call).1.timeline ∧ (coordinator.step call).1.Accountable := by
  -- a result reported through `answer` other than by a sequence or an event moves nothing
  cases call with
  | providerWrite pcmS16le provider => exact providerWrite_move h pcmS16le provider
  | applyProviderEvent received => exact applyProviderEvent_move h received
  | ackSent sequence =>
    refine ⟨.kept rfl ?_, .step h (.markAckSent sequence)⟩
    simp only [step, answer, ackSent]
    cases (coordinator.domain.markAckSent sequence).2 <;> rfl
  | completeFinalize status =>
    refine ⟨.kept rfl ?_, .step h (.completeFinalize status)⟩
    simp only [step, answer, completeFinalize]
    cases (coordinator.domain.completeFinalize status).2 <;> rfl
  | beginFinalize provider =>
    have hstep : coordinator.domain.beginFinalize.1.Accountable := .step h .beginFinalize
    simp only [step, beginFinalize, startFinalize]
    rcases hbegin : coordinator.domain.beginFinalize with ⟨domain, error | _⟩
    · rw [hbegin] at hstep
      exact ⟨.kept rfl rfl, hstep⟩
    · rw [hbegin] at hstep
      match provider with
      | none => exact ⟨.kept rfl rfl, hstep⟩
      | some (.error failure) => exact ⟨.kept rfl rfl, .step hstep .fail⟩
      | some (.ok ()) => exact ⟨.kept rfl rfl, hstep⟩
  | close provider =>
    have hstep : coordinator.domain.close.1.Accountable := .step h .close
    match provider with
    | none => exact ⟨.kept rfl rfl, h⟩
    | some (.error failure) => exact ⟨.kept rfl rfl, hstep⟩
    | some (.ok ()) =>
      refine ⟨.kept rfl ?_, hstep⟩
      simp only [step, close, answer, finishClose]
      cases coordinator.domain.close.2 <;> rfl

/-- What a history says about the timeline it leads to. -/
structure Timed (request : LiveRecognitionRequest) (history : List LiveCoordinatorExchange)
    (timeline : LiveTimeline) : Prop where
  rate_eq : timeline.sampleRateHz = request.sampleRateHz.toNat
  frame_eq : timeline.bytesPerSampleFrame = 2 * request.channels.toNat
  pcm_eq : (history.flatMap LiveCoordinatorExchange.writtenPcm).length =
    timeline.acceptedSampleFrames * timeline.bytesPerSampleFrame
  horizon_eq : timeline.acceptedHorizonMillis =
    1000 * timeline.acceptedSampleFrames / timeline.sampleRateHz
  finals : timeline.Accepted (returnedFinals history)

section Timed

variable {request : LiveRecognitionRequest} {history : List LiveCoordinatorExchange}
  {timeline timeline' : LiveTimeline}

/-- The accepted frames are those of the PCM the provider took. -/
theorem Timed.frames_eq (h : Timed request history timeline) :
    writtenFrames request.channels.toNat history = timeline.acceptedSampleFrames := by
  rw [writtenFrames, h.pcm_eq, ← h.frame_eq, Nat.mul_div_cancel _ timeline.frame_pos]

theorem Timed.initial (hnew : LiveTimeline.new request.sampleRateHz request.channels = .ok timeline) :
    Timed request [] timeline := by
  obtain ⟨hrate, hframe, haccepted, hhorizon, hlast⟩ := LiveTimeline.new_eq_ok hnew
  exact
    { rate_eq := hrate
      frame_eq := hframe
      pcm_eq := by simp [haccepted]
      horizon_eq := by simp [haccepted, hhorizon]
      finals := ⟨hlast, by simp [returnedFinals, returnedEvents], .nil⟩ }

/-- An exchange without PCM that leaves the finals alone keeps the account. -/
theorem Timed.pass (h : Timed request history timeline) {exchange : LiveCoordinatorExchange}
    (hpcm : exchange.writtenPcm = [])
    (hfinal : exchange.returnedEvent.bind LiveCoordinatorEvent.final? = none) :
    Timed request (history ++ [exchange]) timeline := by
  have hfinals : returnedFinals (history ++ [exchange]) = returnedFinals history := by
    rw [returnedFinals_snoc, hfinal, Option.toList_none, List.append_nil]
  exact
    { h with
      pcm_eq := by simpa [hpcm] using h.pcm_eq
      finals := hfinals ▸ h.finals }

/-- A committed write adds its frames. -/
theorem Timed.write (h : Timed request history timeline) {pcmS16le : List UInt8}
    {pending : PendingAudioAcceptance} {provider : Option ProviderAnswer} {sequence : RawAudioSequence}
    (hprepared : timeline.prepareAudioWrite pcmS16le.length = .ok pending) :
    Timed request (history ++ [(.providerWrite pcmS16le provider, .ok (.sequence sequence))])
      (timeline.commitAudioWrite pending) := by
  obtain ⟨haligned, htotal, -, hhorizon⟩ := LiveTimeline.prepareAudioWrite_eq_ok hprepared
  have hbytes : pcmS16le.length =
      pcmS16le.length / timeline.bytesPerSampleFrame * timeline.bytesPerSampleFrame :=
    (Nat.div_mul_cancel (Nat.dvd_of_mod_eq_zero haligned)).symm
  have hfinals : returnedFinals
      (history ++ [(.providerWrite pcmS16le provider, .ok (.sequence sequence))]) =
        returnedFinals history := by
    rw [returnedFinals_snoc]
    exact List.append_nil _
  exact
    { rate_eq := h.rate_eq
      frame_eq := h.frame_eq
      pcm_eq := by
        rw [List.flatMap_append, List.length_append, h.pcm_eq]
        simp only [LiveTimeline.commitAudioWrite, htotal, Nat.add_mul, ← hbytes]
        simp [LiveCoordinatorExchange.writtenPcm]
      horizon_eq := hhorizon
      finals := hfinals ▸ ⟨h.finals.last_eq, h.finals.bounded, h.finals.ordered⟩ }

/-- An admitted transcript is accepted. -/
theorem Timed.accept (h : Timed request history timeline) {transcript : LiveTranscript}
    (hadmits : timeline.Admits transcript) {call : LiveCoordinatorCall}
    (hpcm : ∀ reply, LiveCoordinatorExchange.writtenPcm (call, reply) = []) :
    Timed request (history ++ [(call, .ok (.event (some (.transcript transcript))))])
      (timeline.accept transcript) := by
  have hfinals : returnedFinals
      (history ++ [(call, .ok (.event (some (.transcript transcript))))]) =
        returnedFinals history ++ if transcript.isFinal then [transcript] else [] := by
    rw [returnedFinals_snoc]
    cases hfinal : transcript.isFinal <;>
      simp [LiveCoordinatorExchange.returnedEvent, LiveCoordinatorEvent.final?, hfinal]
  exact
    { rate_eq := by simpa using h.rate_eq
      frame_eq := by simpa using h.frame_eq
      pcm_eq := by simpa [hpcm] using h.pcm_eq
      horizon_eq := by simpa using h.horizon_eq
      finals := hfinals ▸ h.finals.accept hadmits }

/-- Every exchange keeps the account of the timeline. -/
theorem Timed.step (h : Timed request history timeline) {exchange : LiveCoordinatorExchange}
    (hmove : TimelineMove timeline exchange timeline') :
    Timed request (history ++ [exchange]) timeline' := by
  cases hmove with
  | kept hpcm hevent => exact h.pass hpcm (by simp [hevent])
  | written hprepared => exact h.write hprepared
  | transcript hadmits => exact h.accept hadmits fun _ => rfl
  | utteranceEnd hwithin => exact h.pass rfl rfl

/-- The account of a run is kept in its coordinator. -/
theorem timed_of_runs {start coordinator : LiveCoordinator} {provider : ProviderAnswer}
    (hopen : openSession request provider = .ok start)
    (hrun : Runs LiveCoordinator.step start history coordinator) :
    Timed request history coordinator.timeline ∧ coordinator.Accountable := by
  refine hrun.invariant
    (fun history coordinator => Timed request history coordinator.timeline ∧ coordinator.Accountable)
    ?_ ?_
  · unfold openSession at hopen
    split at hopen
    · cases hopen
    · rename_i timeline hnew
      split at hopen
      · cases hopen
      · cases hopen
        exact ⟨.initial hnew, .step .initial .markReady⟩
  · intro history coordinator call h
    obtain ⟨hmove, haccountable⟩ := step_move h.2 call
    exact ⟨h.1.step hmove, haccountable⟩

end Timed

/-- The rules of the timeline at the end of a run. -/
structure TimelineKept (request : LiveRecognitionRequest) (history : List LiveCoordinatorExchange)
    (coordinator : LiveCoordinator) : Prop where
  horizon_eq : coordinator.timeline.acceptedHorizonMillis =
    1000 * writtenFrames request.channels.toNat history / request.sampleRateHz.toNat
  /-- Only a write which returned its sequence moves the horizon. -/
  horizon_unmoved : ∀ call, LiveCoordinatorExchange.writtenPcm (call, (coordinator.step call).2) = [] →
    (coordinator.step call).1.timeline.acceptedHorizonMillis =
      coordinator.timeline.acceptedHorizonMillis
  /-- A frame the provider took is counted: its write returns its sequence. -/
  taken_returned : ∀ pcmS16le pending frame,
    (coordinator.startProviderWrite pcmS16le).2 = .ok (pending, frame) →
      (coordinator.step (.providerWrite pcmS16le (some (.ok ())))).2 = .ok (.sequence frame.sequence)
  events_within : ∀ before after call event,
    history = before ++ (call, .ok (.event (some event))) :: after →
      event.endMillis ≤
        1000 * writtenFrames request.channels.toNat before / request.sampleRateHz.toNat + 250
  finals_bounded : ∀ final ∈ returnedFinals history,
    final.startMillis + final.durationMillis ≤ U64.MAX
  finals_ordered : (returnedFinals history).IsChain fun previous next =>
    previous.startMillis + previous.durationMillis ≤ next.startMillis

/-- Every run of a coordinator keeps the rules of its timeline. -/
theorem timelineKept_of_runs {request : LiveRecognitionRequest} {provider : ProviderAnswer}
    {start coordinator : LiveCoordinator} {history : List LiveCoordinatorExchange}
    (hopen : openSession request provider = .ok start)
    (hrun : Runs LiveCoordinator.step start history coordinator) :
    TimelineKept request history coordinator := by
  have horizon_of_runs {history : List LiveCoordinatorExchange} {coordinator : LiveCoordinator}
      (hrun : Runs LiveCoordinator.step start history coordinator) :
      coordinator.timeline.acceptedHorizonMillis =
        1000 * writtenFrames request.channels.toNat history / request.sampleRateHz.toNat := by
    obtain ⟨htimed, -⟩ := timed_of_runs hopen hrun
    rw [htimed.horizon_eq, htimed.frames_eq, htimed.rate_eq]
  obtain ⟨htimed, haccountable⟩ := timed_of_runs hopen hrun
  refine ⟨horizon_of_runs hrun, ?_, ?_, ?_, htimed.finals.bounded, htimed.finals.ordered⟩
  · intro call hunwritten
    -- both horizons are the time of the same PCM
    have hnext := horizon_of_runs (hrun.snoc call)
    rw [hnext, horizon_of_runs hrun]
    simp [writtenFrames, hunwritten]
  · intro pcmS16le pending frame hstart
    rcases coordinator.startProviderWrite_cases pcmS16le with
      ⟨domain, error, hcases, -⟩ | ⟨domain, acceptance, sequence, hcases, -, haccept⟩
    · simp [hcases] at hstart
    · obtain ⟨rfl, rfl⟩ : _ ∧ _ := by simpa [hcases] using hstart
      obtain ⟨⟨failure, hprovider, -⟩ | ⟨-, hreply, -⟩, -⟩ :=
        finishProviderWrite_cases haccountable haccept acceptance (.ok ())
      · cases hprovider
      · simp only [step, providerWrite, hcases, answer, hreply]
        rfl
  · rintro before after call event rfl
    obtain ⟨middle, hbefore, hreply⟩ := hrun.exchange
    obtain ⟨hmove, -⟩ := step_move (timed_of_runs hopen hbefore).2 call
    rw [← horizon_of_runs hbefore]
    rw [← hreply] at hmove
    generalize (middle.step call).1.timeline = moved at hmove
    cases hmove with
    | kept hpcm hevent => cases hevent
    | transcript hadmits => exact hadmits.2.1
    | utteranceEnd hwithin => exact hwithin

/-- A millisecond of audio, a failed write, a final transcript and an overlapping one. -/
theorem timelineKept_overlapping :
    let request : LiveRecognitionRequest := ⟨⟨3, "elevenlabs", "scribe_v2_realtime", "en"⟩, 16000, 1, []⟩
    let start : LiveCoordinator :=
      ⟨⟨.streaming, ∅, ∅, 0, false, false⟩, ⟨16000, 2, 0, 0, none, by decide, by decide⟩⟩
    let calls : List LiveCoordinatorCall :=
      [.providerWrite (List.replicate 32 0) (some (.ok ())), .ackSent ⟨1⟩,
        .applyProviderEvent (.ok (some (.transcript ⟨"one", 0, 1, none, .segmentFinal⟩))),
        .applyProviderEvent (.ok (some (.transcript ⟨"two", 0, 2, none, .utteranceFinal⟩))),
        .providerWrite [0, 0] (some (.error (.unknownAfterSend "CLOSED" none)))]
    TimelineKept request (feed LiveCoordinator.step start calls).1
      (feed LiveCoordinator.step start calls).2 := by
  intro request start calls
  have hopen : openSession request (.ok ()) = .ok start := rfl
  exact timelineKept_of_runs hopen (runs_feed _ _ _)

end LiveCoordinator

end Voicetext.Speech.Application
