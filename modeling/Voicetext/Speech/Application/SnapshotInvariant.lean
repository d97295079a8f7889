import Voicetext.Speech.Application.BatchCoordinator

/-!
# What every snapshot handed to the ledger satisfies

Result, retry delay and provider reference live outside the lifecycle state, so their agreement
with the state is an invariant of the transitions rather than of a type. The three transitions of
the coordinator, claiming, recording an outcome and recovering an interrupted submission, are
inverted once here; each keeps the invariant, the identity and the revision.
-/

namespace Voicetext.Speech.Application

open Voicetext.Common Voicetext.Speech.Domain

/-- The state-specific fields of a snapshot agree with its lifecycle state. -/
structure WellFormed (snapshot : BatchJobSnapshot) : Prop where
  /-- A result is present exactly when the job completed. -/
  result_iff : snapshot.result.isSome = true ↔ ∃ n, snapshot.job.state = .completed n
  /-- A retry delay is present only while the job may be retried. -/
  retryAfter : snapshot.retryAfterMillis.isSome = true →
    ∃ n failure, snapshot.job.state = .retryable n failure
  /-- No provider reference survives into a state without an outcome. -/
  reference : (snapshot.job.state = .accepted ∨ ∃ n, snapshot.job.state = .submitting n) →
    snapshot.providerReference = none
  /-- The result of a completed job is the result of this very job. -/
  result_identity : ∀ result, snapshot.result = some result →
    result.profile = snapshot.job.profile ∧
      result.durationMillis = snapshot.authoritativeDurationMillis ∧
      result.providerReference = snapshot.providerReference

/-- Two snapshots of one job: same key, same admission columns, same revision. -/
structure SameJob (s t : BatchJobSnapshot) : Prop where
  id : t.id = s.id
  profile : t.job.profile = s.job.profile
  fingerprint : t.job.fingerprint = s.job.fingerprint
  audio : t.audio = s.audio
  duration : t.authoritativeDurationMillis = s.authoritativeDurationMillis
  keyterms : t.keyterms = s.keyterms

theorem SameJob.refl (s : BatchJobSnapshot) : SameJob s s := ⟨rfl, rfl, rfl, rfl, rfl, rfl⟩

theorem SameJob.trans {r s t : BatchJobSnapshot} (h : SameJob r s) (h' : SameJob s t) : SameJob r t :=
  ⟨h'.id.trans h.id, h'.profile.trans h.profile, h'.fingerprint.trans h.fingerprint,
    h'.audio.trans h.audio, h'.duration.trans h.duration, h'.keyterms.trans h.keyterms⟩

theorem SameJob.symm {s t : BatchJobSnapshot} (h : SameJob s t) : SameJob t s :=
  ⟨h.id.symm, h.profile.symm, h.fingerprint.symm, h.audio.symm, h.duration.symm, h.keyterms.symm⟩

variable {snapshot replacement : BatchJobSnapshot} {n : NonZeroU32}

/-- A claim starts the next attempt of an actionable job and leaves no outcome behind. -/
theorem claim_ok (h : claim snapshot = .ok replacement) :
    ∃ n : NonZeroU32, snapshot.job.state.isActionable = true ∧
      n.get = snapshot.job.state.attempts + 1 ∧
      replacement = { snapshot with
        job := { snapshot.job with state := .submitting n }, providerReference := none,
        retryAfterMillis := none, result := none } := by
  unfold claim at h
  cases hbegin : snapshot.job.beginSubmission with
  | error error => simp [hbegin, Except.map] at h
  | ok begun =>
    obtain ⟨n, job⟩ := begun
    simp only [hbegin, Except.map, Except.ok.injEq] at h
    obtain ⟨hactionable, rfl, hattempt⟩ := BatchJob.beginSubmission_ok hbegin
    exact ⟨n, hactionable, hattempt, h.symm⟩

/-- How an outcome settles the claim of one attempt. -/
inductive Settlement (snapshot : BatchJobSnapshot) (n : NonZeroU32) :
    Recognition → BatchJobSnapshot → Prop
  | completed (result : BatchRecognitionResult)
      (hprofile : result.profile = snapshot.job.profile)
      (hduration : result.durationMillis = snapshot.authoritativeDurationMillis) :
      Settlement snapshot n (.ok result) { snapshot with
        retryAfterMillis := none, providerReference := result.providerReference,
        result := some result, job := { snapshot.job with state := .completed n } }
  | refused (result : BatchRecognitionResult) (failure : BatchFailure) :
      Settlement snapshot n (.ok result) { snapshot with
        retryAfterMillis := none, providerReference := result.providerReference,
        result := none, job := { snapshot.job with state := .failed n failure } }
  | retryable (code : String) (reference : Option ProviderReference) (delay : Option UInt64) :
      Settlement snapshot n (.error (.knownNotAccepted true code reference delay)) { snapshot with
        retryAfterMillis := delay, providerReference := reference,
        job := { snapshot.job with state := .retryable n (batchFailure code) } }
  | failed (failure : RecognitionFailure) (code : String) (reference : Option ProviderReference) :
      Settlement snapshot n (.error failure) { snapshot with
        retryAfterMillis := none, providerReference := reference,
        job := { snapshot.job with state := .failed n (batchFailure code) } }
  | unknown (code : String) (reference : Option ProviderReference) :
      Settlement snapshot n (.error (.unknownAfterSend code reference)) { snapshot with
        retryAfterMillis := none, providerReference := reference,
        job := { snapshot.job with state := .outcomeUnknown n (.submission (batchFailure code)) } }

/-- A valid result belongs to the profile and duration it was claimed for. -/
theorem validResult_identity {result : BatchRecognitionResult}
    (h : validResult snapshot result = true) :
    result.profile = snapshot.job.profile ∧
      result.durationMillis = snapshot.authoritativeDurationMillis := by
  unfold validResult at h
  split at h
  · cases h
  · rename_i hidentity
    simp only [not_or, not_not] at hidentity
    exact ⟨hidentity.1, hidentity.2.1⟩

/-- Every outcome of a claimed attempt settles it; recording never fails. -/
theorem applyRecognitionOutcome_settlement (hstate : snapshot.job.state = .submitting n)
    (recognition : Recognition) (projection : BatchResultProjection) :
    ∃ replacement, applyRecognitionOutcome snapshot recognition projection = .ok replacement ∧
      Settlement snapshot n recognition replacement := by
  have hsubmission := BatchJob.submissionAttempt_of_submitting hstate
  cases recognition with
  | ok result =>
    by_cases hprojectable : (validResult { snapshot with retryAfterMillis := none } result &&
        (projection.validate snapshot.id result).isOk) = true
    · have hvalid := validResult_identity (Bool.and_eq_true_iff.mp hprojectable).1
      refine ⟨_, ?_, .completed result hvalid.1 hvalid.2⟩
      simp [applyRecognitionOutcome, hprojectable, BatchJob.complete, hsubmission, Except.map]
    · refine ⟨_, ?_, .refused result (batchFailure
        (if validResult { snapshot with retryAfterMillis := none } result then
          "PROVIDER_RESULT_PROJECTION_FAILED" else "INVALID_RECOGNITION_RESULT"))⟩
      simp [applyRecognitionOutcome, hprojectable, BatchJob.fail, hsubmission, Except.map]
  | error failure =>
    cases failure with
    | knownNotAccepted retryable code reference delay =>
      cases retryable with
      | true =>
        refine ⟨_, ?_, .retryable code reference delay⟩
        simp [applyRecognitionOutcome, BatchJob.recordRetryableFailure, hsubmission, Except.map]
      | false =>
        refine ⟨_, ?_, .failed _ code reference⟩
        simp [applyRecognitionOutcome, BatchJob.fail, hsubmission, Except.map]
    | knownAcceptedTerminal code reference =>
      refine ⟨_, ?_, .failed _ code reference⟩
      simp [applyRecognitionOutcome, BatchJob.fail, hsubmission, Except.map]
    | unknownAfterSend code reference =>
      refine ⟨_, ?_, .unknown code reference⟩
      simp [applyRecognitionOutcome, BatchJob.recordUnknownOutcome, hsubmission, Except.map]

/-- What a call may hand to the ledger to replace a row it has read. -/
inductive Replaces (prev : BatchJobSnapshot) : BatchJobSnapshot → Prop
  | claim {replacement : BatchJobSnapshot} (h : claim prev = .ok replacement) : Replaces prev replacement
  | outcome {replacement : BatchJobSnapshot} {n : NonZeroU32} {recognition : Recognition}
      (hstate : prev.job.state = .submitting n) (h : Settlement prev n recognition replacement) :
      Replaces prev replacement
  | interrupted {n : NonZeroU32} (hstate : prev.job.state = .submitting n) :
      Replaces prev (recovered prev)

/-- Recovery touches the lifecycle state alone. -/
theorem recovered_of_submitting (hstate : snapshot.job.state = .submitting n) :
    recovered snapshot =
      { snapshot with job := { snapshot.job with state := .outcomeUnknown n .interruptedSubmission } } := by
  simp [recovered, BatchJob.recoverInterruptedSubmission_of_submitting hstate]

/-- A settlement keeps the job and the revision it was claimed at. -/
theorem Settlement.sameJob {recognition : Recognition} (h : Settlement snapshot n recognition replacement) :
    SameJob snapshot replacement ∧ replacement.revision = snapshot.revision := by
  cases h <;> exact ⟨⟨rfl, rfl, rfl, rfl, rfl, rfl⟩, rfl⟩

/-- No replacement changes the job or the revision it is expected at. -/
theorem Replaces.sameJob (h : Replaces snapshot replacement) :
    SameJob snapshot replacement ∧ replacement.revision = snapshot.revision := by
  cases h with
  | claim h =>
    obtain ⟨n, _, _, rfl⟩ := claim_ok h
    exact ⟨⟨rfl, rfl, rfl, rfl, rfl, rfl⟩, rfl⟩
  | outcome hstate h => exact h.sameJob
  | interrupted hstate =>
    rw [recovered_of_submitting hstate]
    exact ⟨⟨rfl, rfl, rfl, rfl, rfl, rfl⟩, rfl⟩

/-- Attempts never decrease: a claim starts exactly one more, any other replacement none. -/
theorem Replaces.attempts (h : Replaces snapshot replacement) :
    (snapshot.job.state.isActionable = true ∧
        replacement.job.state.attempts = snapshot.job.state.attempts + 1 ∧
        ∃ n, replacement.job.state = .submitting n) ∨
      (∃ n, snapshot.job.state = .submitting n) ∧
        replacement.job.state.attempts = snapshot.job.state.attempts ∧
        ¬∃ n, replacement.job.state = .submitting n := by
  cases h with
  | claim h =>
    obtain ⟨n, hactionable, hattempt, rfl⟩ := claim_ok h
    exact .inl ⟨hactionable, hattempt, n, rfl⟩
  | @outcome _ n recognition hstate h =>
    refine .inr ⟨⟨n, hstate⟩, ?_, ?_⟩
    · cases h <;> simp [hstate, BatchJobState.attempts]
    · cases h <;> simp
  | @interrupted n hstate =>
    rw [recovered_of_submitting hstate]
    exact .inr ⟨⟨n, hstate⟩, by simp [hstate, BatchJobState.attempts], by simp⟩

/-- A well-formed submitting snapshot carries no outcome of an earlier attempt. -/
theorem WellFormed.of_submitting (h : WellFormed snapshot) (hstate : snapshot.job.state = .submitting n) :
    snapshot.result = none ∧ snapshot.retryAfterMillis = none ∧ snapshot.providerReference = none := by
  refine ⟨?_, ?_, h.reference (.inr ⟨n, hstate⟩)⟩
  · have hnot : ¬snapshot.result.isSome = true := fun hsome => by
      obtain ⟨m, hm⟩ := h.result_iff.mp hsome
      simp [hstate] at hm
    simpa using hnot
  · have hnot : ¬snapshot.retryAfterMillis.isSome = true := fun hsome => by
      obtain ⟨m, failure, hm⟩ := h.retryAfter hsome
      simp [hstate] at hm
    simpa using hnot

/-- Recording an outcome over a well-formed claim leaves no stale field behind. -/
theorem Settlement.wellFormed {recognition : Recognition}
    (h : Settlement snapshot n recognition replacement) (hwell : WellFormed snapshot)
    (hstate : snapshot.job.state = .submitting n) : WellFormed replacement := by
  obtain ⟨hresult, _, _⟩ := hwell.of_submitting hstate
  cases h with
  | completed result hprofile hduration =>
    exact ⟨by simp, by simp, by simp, fun r hr => by
      obtain rfl := Option.some.inj hr
      exact ⟨hprofile, hduration, rfl⟩⟩
  | refused result failure => exact ⟨by simp, by simp, by simp, by simp⟩
  | retryable code reference delay => exact ⟨by simp [hresult], by simp, by simp, by simp [hresult]⟩
  | failed failure code reference => exact ⟨by simp [hresult], by simp, by simp, by simp [hresult]⟩
  | unknown code reference => exact ⟨by simp [hresult], by simp, by simp, by simp [hresult]⟩

/-- Every replacement of a well-formed snapshot is well formed, whichever transition made it. -/
theorem Replaces.wellFormed (h : Replaces snapshot replacement) (hwell : WellFormed snapshot) :
    WellFormed replacement := by
  cases h with
  | claim h =>
    obtain ⟨n, _, _, rfl⟩ := claim_ok h
    exact ⟨by simp, by simp, by simp, by simp⟩
  | outcome hstate h => exact h.wellFormed hwell hstate
  | @interrupted n hstate =>
    obtain ⟨hresult, hdelay, _⟩ := hwell.of_submitting hstate
    rw [recovered_of_submitting hstate]
    exact ⟨by simp [hresult], by simp [hdelay], by simp, by simp [hresult]⟩

/-- The snapshot admission inserts is well formed. -/
theorem WellFormed.accepted {s : BatchJobSnapshot} (hstate : s.job.state = .accepted)
    (hreference : s.providerReference = none) (hdelay : s.retryAfterMillis = none)
    (hresult : s.result = none) : WellFormed s :=
  ⟨by simp [hresult, hstate], by simp [hdelay], fun _ => hreference, by simp [hresult]⟩

end Voicetext.Speech.Application
