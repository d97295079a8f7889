import Voicetext.Speech.Application.CoordinatorTimeline

/-!
# Bounds of the transcripts a coordinator lets through

A returned transcript has passed the coordinator's own checks. Its end is near the horizon, and the horizon
is the time of sample frames whose thousandfold fits 64 bits, so a high sample rate keeps every time small.
-/

namespace Voicetext.Speech.Application

open Voicetext.Common Voicetext.Speech.Domain

namespace LiveCoordinator

variable {coordinator : LiveCoordinator}

/-- A transcript which is returned was received, validated and admitted. -/
theorem transcript_of_step {call : LiveCoordinatorCall} {transcript : LiveTranscript} (h : coordinator.Accountable)
    (hreply : (coordinator.step call).2 = .ok (.event (some (.transcript transcript)))) :
    call = .applyProviderEvent (.ok (some (.transcript transcript))) ∧ validateTranscript transcript = .ok () ∧
      coordinator.timeline.Admits transcript := by
  obtain ⟨hmove, -⟩ := step_move h call
  generalize hstep : coordinator.step call = result at hmove hreply
  obtain ⟨moved, reply⟩ := result
  obtain rfl : reply = _ := hreply
  generalize moved.timeline = timeline at hmove
  cases hmove with
  | kept hpcm hevent => cases hevent
  | transcript hadmits =>
    refine ⟨rfl, ?_, hadmits⟩
    simp only [step, answer, applyProviderEvent] at hstep
    split at hstep
    · cases hstep
    · assumption

/-- The thousandfold of the accepted frames fits 64 bits. -/
theorem acceptedSampleFrames_le_of_move {timeline timeline' : LiveTimeline} {exchange : LiveCoordinatorExchange}
    (h : 1000 * timeline.acceptedSampleFrames ≤ U64.MAX) (hmove : TimelineMove timeline exchange timeline') :
    1000 * timeline'.acceptedSampleFrames ≤ U64.MAX := by
  cases hmove with
  | kept hpcm hevent => exact h
  | written hprepared => exact (LiveTimeline.prepareAudioWrite_eq_ok hprepared).2.2.1
  | transcript hadmits => rwa [LiveTimeline.accept_acceptedSampleFrames]
  | utteranceEnd hwithin => exact h

variable {request : LiveRecognitionRequest} {provider : ProviderAnswer} {start : LiveCoordinator}
  {history : List LiveCoordinatorExchange}

theorem acceptedSampleFrames_le_of_runs (hopen : openSession request provider = .ok start)
    (hrun : Runs LiveCoordinator.step start history coordinator) :
    1000 * coordinator.timeline.acceptedSampleFrames ≤ U64.MAX := by
  have hinvariant : 1000 * coordinator.timeline.acceptedSampleFrames ≤ U64.MAX ∧ coordinator.Accountable := by
    refine hrun.invariant
      (fun _ coordinator => 1000 * coordinator.timeline.acceptedSampleFrames ≤ U64.MAX ∧ coordinator.Accountable)
      ?_ ?_
    · obtain ⟨htimed, haccountable⟩ := timed_of_runs hopen .nil
      have hframes := htimed.frames_eq
      refine ⟨?_, haccountable⟩
      rw [← hframes]
      simp [writtenFrames]
    · intro history coordinator call h
      obtain ⟨hmove, haccountable⟩ := step_move h.2 call
      exact ⟨acceptedSampleFrames_le_of_move h.1 hmove, haccountable⟩
  exact hinvariant.1

/-- At a sample rate of a live session, what a coordinator returns ends before the largest safe integer. -/
theorem endMillis_le_of_runs (hopen : openSession request provider = .ok start)
    (hrate : 16000 ≤ request.sampleRateHz.toNat)
    (hrun : Runs LiveCoordinator.step start history coordinator) {transcript : LiveTranscript}
    (hadmits : coordinator.timeline.Admits transcript) : transcript.endMillis ≤ 9007199254740991 := by
  obtain ⟨htimed, -⟩ := timed_of_runs hopen hrun
  have hframes := acceptedSampleFrames_le_of_runs hopen hrun
  have hhorizon : coordinator.timeline.acceptedHorizonMillis ≤ U64.MAX / 16000 := by
    rw [htimed.horizon_eq, htimed.rate_eq]
    exact Nat.div_le_div hframes hrate (by decide)
  calc transcript.endMillis ≤ coordinator.timeline.acceptedHorizonMillis + 250 := hadmits.2.1
    _ ≤ U64.MAX / 16000 + 250 := Nat.add_le_add_right hhorizon _
    _ ≤ 9007199254740991 := by decide

/-- Every transcript of a run has passed the coordinator's checks and ends before the largest safe integer. -/
theorem checked_of_returned (hopen : openSession request provider = .ok start)
    (hrate : 16000 ≤ request.sampleRateHz.toNat)
    (hrun : Runs LiveCoordinator.step start history coordinator) {transcript : LiveTranscript}
    (hreturned : .transcript transcript ∈ returnedEvents history) :
    validateTranscript transcript = .ok () ∧ transcript.endMillis ≤ 9007199254740991 := by
  obtain ⟨⟨call, reply⟩, hexchange, hevent⟩ := List.mem_filterMap.mp hreturned
  obtain ⟨before, after, rfl⟩ := List.append_of_mem hexchange
  obtain ⟨middle, hbefore, hreply⟩ := hrun.exchange
  obtain rfl : reply = .ok (.event (some (.transcript transcript))) := by
    unfold LiveCoordinatorExchange.returnedEvent at hevent
    split at hevent
    · rename_i heq
      obtain ⟨-, rfl⟩ := Prod.mk.inj heq
      rw [hevent]
    · cases hevent
  obtain ⟨-, haccountable⟩ := timed_of_runs hopen hbefore
  obtain ⟨-, hvalid, hadmits⟩ := transcript_of_step haccountable hreply.symm
  exact ⟨hvalid, endMillis_le_of_runs hopen hrate hbefore hadmits⟩

end LiveCoordinator

end Voicetext.Speech.Application
