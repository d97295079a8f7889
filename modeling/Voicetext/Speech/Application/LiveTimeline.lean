import Mathlib.Data.List.Chain
import Voicetext.Common.U64
import Voicetext.Speech.Application.LivePorts

/-!
# Validation of live timing against successfully written audio

The timeline counts the sample frames the provider has taken, derives the accepted horizon from them
and remembers where the last final transcript ended. An audio write is prepared first and committed
only after the provider has taken it.
-/

namespace Voicetext.Speech.Application

open Voicetext.Common

/-- Maximum normalized timestamp lead over successfully provider-written audio. -/
def PROVIDER_LEAD_TOLERANCE_MILLIS : ℕ := 250

def PCM_S16LE_BYTES_PER_SAMPLE : ℕ := 2

inductive AcceptedAudioError
  | invalidConfiguration
  | emptyFrame
  | misalignedFrame
  | arithmeticOverflow
deriving DecidableEq

inductive LiveTimelineError
  | timingOverflow
  | beyondAcceptedAudio
  | finalRegressionOrOverlap
deriving DecidableEq

structure PendingAudioAcceptance where
  totalSampleFrames : ℕ
  horizonMillis : ℕ
deriving DecidableEq

/-- Provider-neutral timing policy for one live recognition session. -/
structure LiveTimeline where
  sampleRateHz : ℕ
  bytesPerSampleFrame : ℕ
  acceptedSampleFrames : ℕ
  acceptedHorizonMillis : ℕ
  lastFinalEndMillis : Option ℕ
  rate_pos : 0 < sampleRateHz
  frame_pos : 0 < bytesPerSampleFrame

/-- The time covered by a number of sample frames, rounded down. -/
def checkedHorizonMillis (totalSampleFrames sampleRateHz : ℕ) : Except AcceptedAudioError ℕ :=
  match U64.checkedMul totalSampleFrames 1000 with
  | none => .error .arithmeticOverflow
  | some product => (U64.checkedDiv product sampleRateHz).elim (.error .invalidConfiguration) .ok

namespace LiveTimeline

/-- A timeline without accepted audio. -/
def new (sampleRateHz : UInt32) (channels : UInt8) : Except AcceptedAudioError LiveTimeline :=
  if hconfiguration : sampleRateHz.toNat = 0 ∨ channels.toNat = 0 then .error .invalidConfiguration
  else
    match hbytes : U64.checkedMul channels.toNat PCM_S16LE_BYTES_PER_SAMPLE with
    | none => .error .arithmeticOverflow
    | some bytesPerSampleFrame =>
      .ok
        { sampleRateHz := sampleRateHz.toNat
          bytesPerSampleFrame
          acceptedSampleFrames := 0
          acceptedHorizonMillis := 0
          lastFinalEndMillis := none
          rate_pos := by omega
          frame_pos := by
            obtain ⟨-, rfl⟩ := U64.checkedMul_eq_some.mp hbytes
            exact Nat.mul_pos (by omega) (by decide) }

variable (timeline : LiveTimeline)

/-- Validates a PCM write and computes its prospective horizon without accepting it. -/
def prepareAudioWrite (byteLen : ℕ) : Except AcceptedAudioError PendingAudioAcceptance :=
  if byteLen = 0 then .error .emptyFrame
  else if byteLen > U64.MAX then .error .arithmeticOverflow
  else if byteLen % timeline.bytesPerSampleFrame ≠ 0 then .error .misalignedFrame
  else
    match U64.checkedAdd timeline.acceptedSampleFrames (byteLen / timeline.bytesPerSampleFrame) with
    | none => .error .arithmeticOverflow
    | some totalSampleFrames =>
      (checkedHorizonMillis totalSampleFrames timeline.sampleRateHz).map fun horizonMillis =>
        ⟨totalSampleFrames, horizonMillis⟩

/-- Advances the horizon only after the corresponding provider write succeeds. -/
def commitAudioWrite (acceptance : PendingAudioAcceptance) : LiveTimeline :=
  { timeline with
    acceptedSampleFrames := acceptance.totalSampleFrames
    acceptedHorizonMillis := acceptance.horizonMillis }

def validateHorizon (endMillis : ℕ) : Except LiveTimelineError Unit :=
  if U64.saturatingSub endMillis timeline.acceptedHorizonMillis > PROVIDER_LEAD_TOLERANCE_MILLIS then
    .error .beyondAcceptedAudio
  else .ok ()

/-- Accepts a transcript within the horizon; a final one may not start before the last final end. -/
def validateTranscript (transcript : LiveTranscript) : LiveTimeline × Except LiveTimelineError Unit :=
  match U64.checkedAdd transcript.startMillis transcript.durationMillis with
  | none => (timeline, .error .timingOverflow)
  | some endMillis =>
    match timeline.validateHorizon endMillis with
    | .error error => (timeline, .error error)
    | .ok () =>
      if transcript.stability ≠ .partial_ then
        if timeline.lastFinalEndMillis.any fun previousEnd => transcript.startMillis < previousEnd then
          (timeline, .error .finalRegressionOrOverlap)
        else ({ timeline with lastFinalEndMillis := some endMillis }, .ok ())
      else (timeline, .ok ())

def validateUtteranceEnd (lastWordEndMillis : ℕ) : Except LiveTimelineError Unit :=
  timeline.validateHorizon lastWordEndMillis

section Lemmas

variable {timeline}

/-- A new timeline has the frame size of its channels and no audio. -/
theorem new_eq_ok {sampleRateHz : UInt32} {channels : UInt8}
    (h : new sampleRateHz channels = .ok timeline) :
    timeline.sampleRateHz = sampleRateHz.toNat ∧
      timeline.bytesPerSampleFrame = 2 * channels.toNat ∧ timeline.acceptedSampleFrames = 0 ∧
        timeline.acceptedHorizonMillis = 0 ∧ timeline.lastFinalEndMillis = none := by
  unfold new at h
  split at h
  · cases h
  · split at h
    · cases h
    · rename_i bytes hbytes
      obtain ⟨-, rfl⟩ := U64.checkedMul_eq_some.mp hbytes
      cases h
      exact ⟨rfl, Nat.mul_comm _ _, rfl, rfl, rfl⟩

/-- A prepared write counts the whole frames of its bytes on top of the accepted ones. -/
theorem prepareAudioWrite_eq_ok {byteLen : ℕ} {acceptance : PendingAudioAcceptance}
    (h : timeline.prepareAudioWrite byteLen = .ok acceptance) :
    byteLen % timeline.bytesPerSampleFrame = 0 ∧
      acceptance.totalSampleFrames =
        timeline.acceptedSampleFrames + byteLen / timeline.bytesPerSampleFrame ∧
      1000 * acceptance.totalSampleFrames ≤ U64.MAX ∧
      acceptance.horizonMillis = 1000 * acceptance.totalSampleFrames / timeline.sampleRateHz := by
  unfold prepareAudioWrite at h
  split_ifs at h with _ _ haligned
  split at h
  · cases h
  · rename_i total htotal
    obtain ⟨-, rfl⟩ := U64.checkedAdd_eq_some.mp htotal
    unfold checkedHorizonMillis at h
    split at h
    · cases h
    · rename_i product hproduct
      obtain ⟨hfits, rfl⟩ := U64.checkedMul_eq_some.mp hproduct
      rw [U64.checkedDiv, if_neg timeline.rate_pos.ne'] at h
      cases h
      exact ⟨by omega, rfl, by rwa [Nat.mul_comm], by simp [Nat.mul_comm]⟩

/-- A write of whole frames is prepared while the horizon fits 64 bits. -/
theorem prepareAudioWrite_of_fits {byteLen : ℕ} (hpos : byteLen ≠ 0)
    (haligned : byteLen % timeline.bytesPerSampleFrame = 0)
    (hfits : (timeline.acceptedSampleFrames * timeline.bytesPerSampleFrame + byteLen) * 1000 ≤ U64.MAX) :
    ∃ acceptance, timeline.prepareAudioWrite byteLen = .ok acceptance := by
  have hlen : ¬ byteLen > U64.MAX := by omega
  have hframes : timeline.acceptedSampleFrames + byteLen / timeline.bytesPerSampleFrame ≤
      timeline.acceptedSampleFrames * timeline.bytesPerSampleFrame + byteLen :=
    Nat.add_le_add (Nat.le_mul_of_pos_right _ timeline.frame_pos) (Nat.div_le_self _ _)
  have hadd : U64.checkedAdd timeline.acceptedSampleFrames (byteLen / timeline.bytesPerSampleFrame) =
      some (timeline.acceptedSampleFrames + byteLen / timeline.bytesPerSampleFrame) :=
    U64.checkedAdd_eq_some.mpr ⟨by omega, rfl⟩
  have hmul : U64.checkedMul (timeline.acceptedSampleFrames + byteLen / timeline.bytesPerSampleFrame)
      1000 = some ((timeline.acceptedSampleFrames + byteLen / timeline.bytesPerSampleFrame) * 1000) :=
    U64.checkedMul_eq_some.mpr ⟨(Nat.mul_le_mul_right 1000 hframes).trans hfits, rfl⟩
  simp [prepareAudioWrite, checkedHorizonMillis, hpos, hlen, haligned, hadd, hmul, U64.checkedDiv,
    timeline.rate_pos.ne', Except.map]

/-- The horizon admits what ends at most the tolerance beyond it. -/
theorem validateHorizon_eq_ok {endMillis : ℕ} :
    timeline.validateHorizon endMillis = .ok () ↔
      endMillis ≤ timeline.acceptedHorizonMillis + 250 := by
  have hlead : U64.saturatingSub endMillis timeline.acceptedHorizonMillis >
      PROVIDER_LEAD_TOLERANCE_MILLIS ↔ ¬ endMillis ≤ timeline.acceptedHorizonMillis + 250 := by
    simp only [U64.saturatingSub, PROVIDER_LEAD_TOLERANCE_MILLIS]
    omega
  by_cases hend : endMillis ≤ timeline.acceptedHorizonMillis + 250
  · simp [validateHorizon, hlead, hend]
  · simp [validateHorizon, hlead, hend]

/-- Whether a transcript may follow the finals a timeline has accepted. -/
def Admits (timeline : LiveTimeline) (transcript : LiveTranscript) : Prop :=
  transcript.endMillis ≤ U64.MAX ∧ transcript.endMillis ≤ timeline.acceptedHorizonMillis + 250 ∧
    (transcript.isFinal → ∀ previousEnd, timeline.lastFinalEndMillis = some previousEnd →
      previousEnd ≤ transcript.startMillis)

/-- The timeline after an accepted transcript. -/
def accept (timeline : LiveTimeline) (transcript : LiveTranscript) : LiveTimeline :=
  if transcript.isFinal then { timeline with lastFinalEndMillis := some transcript.endMillis }
  else timeline

@[simp] theorem accept_sampleRateHz (transcript : LiveTranscript) :
    (timeline.accept transcript).sampleRateHz = timeline.sampleRateHz := by
  unfold accept
  split <;> rfl

@[simp] theorem accept_bytesPerSampleFrame (transcript : LiveTranscript) :
    (timeline.accept transcript).bytesPerSampleFrame = timeline.bytesPerSampleFrame := by
  unfold accept
  split <;> rfl

@[simp] theorem accept_acceptedSampleFrames (transcript : LiveTranscript) :
    (timeline.accept transcript).acceptedSampleFrames = timeline.acceptedSampleFrames := by
  unfold accept
  split <;> rfl

@[simp] theorem accept_acceptedHorizonMillis (transcript : LiveTranscript) :
    (timeline.accept transcript).acceptedHorizonMillis = timeline.acceptedHorizonMillis := by
  unfold accept
  split <;> rfl

/-- Validation accepts exactly the admitted transcripts and leaves a rejecting timeline alone. -/
theorem validateTranscript_cases (transcript : LiveTranscript) :
    (¬ timeline.Admits transcript ∧
        ∃ error, timeline.validateTranscript transcript = (timeline, .error error)) ∨
      timeline.Admits transcript ∧
        timeline.validateTranscript transcript = (timeline.accept transcript, .ok ()) := by
  unfold validateTranscript
  split
  · rename_i hoverflow
    have hbound := U64.checkedAdd_eq_none.mp hoverflow
    exact .inl ⟨fun h => absurd h.1 (Nat.not_le.mpr hbound), _, rfl⟩
  · rename_i endMillis hend
    obtain ⟨hbound, rfl⟩ := U64.checkedAdd_eq_some.mp hend
    split
    · rename_i error herror
      refine .inl ⟨fun h => ?_, _, rfl⟩
      cases herror.symm.trans (validateHorizon_eq_ok.mpr h.2.1)
    · rename_i hhorizon
      have hwithin := validateHorizon_eq_ok.mp hhorizon
      by_cases hpartial : transcript.stability = .partial_
      · refine .inr ⟨⟨hbound, hwithin, by simp [LiveTranscript.isFinal, hpartial]⟩, ?_⟩
        simp [accept, LiveTranscript.isFinal, hpartial]
      · have hfinal : transcript.isFinal = true := by simp [LiveTranscript.isFinal, hpartial]
        rw [if_pos hpartial]
        split
        · rename_i hoverlap
          obtain ⟨previousEnd, hlast, hbefore⟩ : ∃ previousEnd,
              timeline.lastFinalEndMillis = some previousEnd ∧
                transcript.startMillis < previousEnd := by
            simpa [Option.any_eq_true] using hoverlap
          exact .inl ⟨fun h => absurd (h.2.2 hfinal _ hlast) (Nat.not_le.mpr hbefore), _, rfl⟩
        · rename_i hoverlap
          refine .inr ⟨⟨hbound, hwithin, fun _ previousEnd hlast => ?_⟩, ?_⟩
          · simpa [hlast] using hoverlap
          · simp [accept, hfinal, LiveTranscript.endMillis]

/-- Final transcripts a timeline has accepted one after the other. -/
structure Accepted (timeline : LiveTimeline) (finals : List LiveTranscript) : Prop where
  last_eq : timeline.lastFinalEndMillis = finals.getLast?.map LiveTranscript.endMillis
  bounded : ∀ final ∈ finals, final.endMillis ≤ U64.MAX
  ordered : finals.IsChain fun previous next => previous.endMillis ≤ next.startMillis

/-- An admitted transcript joins the finals when it is one. -/
theorem Accepted.accept {finals : List LiveTranscript} (h : timeline.Accepted finals)
    {transcript : LiveTranscript} (hadmits : timeline.Admits transcript) :
    (timeline.accept transcript).Accepted
      (finals ++ if transcript.isFinal then [transcript] else []) := by
  by_cases hfinal : transcript.isFinal = true
  · rw [LiveTimeline.accept, if_pos hfinal, if_pos hfinal]
    refine ⟨by simp, fun final hmem => ?_, ?_⟩
    · rcases List.mem_append.mp hmem with hmem | hmem
      · exact h.bounded final hmem
      · rw [List.mem_singleton.mp hmem]
        exact hadmits.1
    · rw [List.isChain_append]
      refine ⟨h.ordered, .singleton _, fun previous hprevious next hnext => ?_⟩
      obtain rfl : next = transcript := by simpa using hnext.symm
      apply hadmits.2.2 hfinal
      rw [h.last_eq, Option.mem_def.mp hprevious]
      rfl
  · rw [LiveTimeline.accept, if_neg hfinal, if_neg hfinal, List.append_nil]
    exact h

end Lemmas

end LiveTimeline

end Voicetext.Speech.Application
