import Voicetext.Common.Text

/-!
# Deterministic lifecycle of one provider-bound batch transcription job

Profiles, failure codes and attempt numbers carry their validity as fields, so only the smart
constructors of the domain can produce them. The lifecycle is the transition functions of
`BatchJob`; every transition keeps the admission identity and either moves along one edge of the
lifecycle or reports why the edge does not exist.
-/

namespace Voicetext.Speech.Domain

open Voicetext.Common

/-- A non-zero 32-bit counter. -/
structure NonZeroU32 where
  get : ℕ
  pos : 0 < get
  lt : get < 2 ^ 32
deriving DecidableEq

namespace NonZeroU32

/-- The least non-zero value. -/
def MIN : NonZeroU32 := ⟨1, by decide, by decide⟩

/-- A 32-bit value, unless it is zero. -/
def new (n : UInt32) : Option NonZeroU32 :=
  if h : 0 < n.toNat then some ⟨n.toNat, h, n.toNat_lt⟩ else none

/-- Addition of one, unless the counter would wrap. -/
def checkedSucc (n : NonZeroU32) : Option NonZeroU32 :=
  if h : n.get + 1 < 2 ^ 32 then some ⟨n.get + 1, Nat.succ_pos _, h⟩ else none

/-- A successor is one more than the counter it was computed from. -/
theorem get_of_checkedSucc {n m : NonZeroU32} (h : n.checkedSucc = some m) : m.get = n.get + 1 := by
  unfold checkedSucc at h
  split at h
  · obtain rfl := Option.some.inj h
    rfl
  · cases h

@[ext] theorem ext {n m : NonZeroU32} (h : n.get = m.get) : n = m := by
  cases n
  cases m
  cases h
  rfl

end NonZeroU32

/-- Profile field that failed provider-neutral identity validation. -/
inductive BatchProfileField
  | provider
  | model
  | language
deriving DecidableEq

/-- Invalid immutable profile supplied at admission. -/
inductive InvalidBatchProfile
  | zeroContractVersion
  | invalidIdentity (field : BatchProfileField)
deriving DecidableEq

/-- A non-empty identity without padding or control characters. -/
def isIdentity (value : String) : Bool :=
  value ≠ "" && Text.trim value = value && !Text.hasControl value

/-- Immutable provider/model identity selected before a batch job is accepted. -/
structure BatchProfile where
  contractVersion : UInt16
  provider : String
  model : String
  language : String
  version_ne_zero : contractVersion ≠ 0
  provider_valid : isIdentity provider = true
  model_valid : isIdentity model = true
  language_valid : isIdentity language = true
deriving DecidableEq

/-- Creates a profile without assigning provider-specific meaning to its fields. -/
def BatchProfile.new (contractVersion : UInt16) (provider model language : String) :
    Except InvalidBatchProfile BatchProfile :=
  if hversion : contractVersion = 0 then .error .zeroContractVersion
  else if hprovider : isIdentity provider = true then
    if hmodel : isIdentity model = true then
      if hlanguage : isIdentity language = true then
        .ok ⟨contractVersion, provider, model, language, hversion, hprovider, hmodel, hlanguage⟩
      else .error (.invalidIdentity .language)
    else .error (.invalidIdentity .model)
  else .error (.invalidIdentity .provider)

/-- Rebuilding a profile from its own fields gives the profile back. -/
@[simp] theorem BatchProfile.new_self (p : BatchProfile) :
    BatchProfile.new p.contractVersion p.provider p.model p.language = .ok p := by
  simp [BatchProfile.new, p.version_ne_zero, p.provider_valid, p.model_valid, p.language_valid]

/-- A constructed profile has exactly the fields it was constructed from. -/
theorem BatchProfile.eq_of_new {version : UInt16} {provider model language : String}
    {p : BatchProfile} (h : BatchProfile.new version provider model language = .ok p) :
    p.contractVersion = version ∧ p.provider = provider ∧ p.model = model ∧ p.language = language := by
  unfold BatchProfile.new at h
  split at h
  · cases h
  · split at h
    · split at h
      · split at h
        · obtain rfl := Except.ok.inj h
          exact ⟨rfl, rfl, rfl, rfl⟩
        · cases h
      · cases h
    · cases h

/-- The profile of Deepgram's multilingual model in its second contract version. -/
def BatchProfile.nova3Multi : BatchProfile :=
  ⟨2, "deepgram", "nova-3", "multi", by decide, by decide, by decide, by decide⟩

/-- SHA-256 request fingerprint bound to an accepted job. -/
structure BatchRequestFingerprint where
  bytes : List UInt8
  length_eq : bytes.length = 32
deriving DecidableEq

/-- Invalid failure evidence supplied to a transition. -/
inductive InvalidBatchFailure
  | invalidCode
  | codeTooLong
deriving DecidableEq

/-- The durable bound on a failure code, in bytes. -/
def MAX_CODE_BYTES : ℕ := 128

/-- Stable application failure code without provider response details. -/
structure BatchFailure where
  code : String
  nonempty : code ≠ ""
  trimmed : Text.trim code = code
  bounded : Text.len code ≤ MAX_CODE_BYTES
  noControl : Text.hasControl code = false
deriving DecidableEq

/-- Creates a bounded stable code suitable for durable job state. -/
def BatchFailure.new (code : String) : Except InvalidBatchFailure BatchFailure :=
  if hshape : code = "" ∨ Text.trim code ≠ code then .error .invalidCode
  else if hlen : Text.len code > MAX_CODE_BYTES then .error .codeTooLong
  else if hcontrol : Text.hasControl code = true then .error .invalidCode
  else .ok ⟨code, fun h => hshape (.inl h), not_not.mp fun h => hshape (.inr h), not_lt.mp hlen,
    Bool.eq_false_iff.mpr hcontrol⟩

/-- Rebuilding a failure from its own code gives the failure back. -/
@[simp] theorem BatchFailure.new_code (failure : BatchFailure) :
    BatchFailure.new failure.code = .ok failure := by
  simp [BatchFailure.new, failure.nonempty, failure.trimmed, failure.bounded.not_gt, failure.noControl]

/-- A constructed failure carries exactly the code it was constructed from. -/
theorem BatchFailure.code_of_new {code : String} {failure : BatchFailure}
    (h : BatchFailure.new code = .ok failure) : failure.code = code := by
  unfold BatchFailure.new at h
  split at h
  · cases h
  · split at h
    · cases h
    · split at h
      · cases h
      · obtain rfl := Except.ok.inj h
        rfl

/-- Why provider egress can no longer be classified as accepted or rejected. -/
inductive BatchUnknownOutcome
  | submission (failure : BatchFailure)
  | interruptedSubmission
deriving DecidableEq

/-- Durable lifecycle state for a batch job. -/
inductive BatchJobState
  | accepted
  | submitting (attempt : NonZeroU32)
  | retryable (attempt : NonZeroU32) (failure : BatchFailure)
  | completed (attempt : NonZeroU32)
  | failed (attempt : NonZeroU32) (failure : BatchFailure)
  | outcomeUnknown (attempt : NonZeroU32) (reason : BatchUnknownOutcome)
deriving DecidableEq

/-- Compact job status used in transition diagnostics. -/
inductive BatchJobStatus
  | accepted
  | submitting
  | retryable
  | completed
  | failed
  | outcomeUnknown
deriving DecidableEq

namespace BatchJobState

/-- Returns the compact status without discarding state-specific evidence. -/
def status : BatchJobState → BatchJobStatus
  | accepted => .accepted
  | submitting _ => .submitting
  | retryable _ _ => .retryable
  | completed _ => .completed
  | failed _ _ => .failed
  | outcomeUnknown _ _ => .outcomeUnknown

/-- Whether no legal transition can initiate another provider submission. -/
def isTerminal : BatchJobState → Bool
  | completed _ | failed _ _ | outcomeUnknown _ _ => true
  | accepted | submitting _ | retryable _ _ => false

/-- Whether a claim may begin a submission from this state. -/
def isActionable : BatchJobState → Bool
  | accepted | retryable _ _ => true
  | submitting _ | completed _ | failed _ _ | outcomeUnknown _ _ => false

/-- Number of submissions begun so far; an accepted job has begun none. -/
def attempts : BatchJobState → ℕ
  | accepted => 0
  | submitting n | retryable n _ | completed n | failed n _ | outcomeUnknown n _ => n.get

end BatchJobState

/-- Rejected deterministic state transition. -/
inductive BatchTransitionError
  | invalidTransition (source target : BatchJobStatus)
  | attemptOverflow (attempt : NonZeroU32)
deriving DecidableEq

/-- A provider-bound batch job with immutable admission identity. -/
structure BatchJob where
  profile : BatchProfile
  fingerprint : BatchRequestFingerprint
  state : BatchJobState
deriving DecidableEq

namespace BatchJob

/-- Accepts a new job without initiating provider egress. -/
def accept (profile : BatchProfile) (fingerprint : BatchRequestFingerprint) : BatchJob :=
  ⟨profile, fingerprint, .accepted⟩

/-- Restores already-validated durable state without changing its identity. -/
def restore (profile : BatchProfile) (fingerprint : BatchRequestFingerprint)
    (state : BatchJobState) : BatchJob :=
  ⟨profile, fingerprint, state⟩

/-- Begins the first submission or a retry proven safe by the preceding state. -/
def beginSubmission (job : BatchJob) : Except BatchTransitionError (NonZeroU32 × BatchJob) :=
  match job.state with
  | .accepted => .ok (.MIN, { job with state := .submitting .MIN })
  | .retryable attempt _ =>
    match attempt.checkedSucc with
    | some next => .ok (next, { job with state := .submitting next })
    | none => .error (.attemptOverflow attempt)
  | state => .error (.invalidTransition state.status .submitting)

/-- The attempt whose outcome may be recorded; only a submitting job has one. -/
def submissionAttempt (job : BatchJob) (target : BatchJobStatus) :
    Except BatchTransitionError NonZeroU32 :=
  match job.state with
  | .submitting attempt => .ok attempt
  | state => .error (.invalidTransition state.status target)

/-- Records a known-not-accepted failure for which another attempt is safe. -/
def recordRetryableFailure (job : BatchJob) (failure : BatchFailure) :
    Except BatchTransitionError BatchJob :=
  (job.submissionAttempt .retryable).map fun attempt =>
    { job with state := .retryable attempt failure }

/-- Records successful durable completion of the current submission. -/
def complete (job : BatchJob) : Except BatchTransitionError BatchJob :=
  (job.submissionAttempt .completed).map fun attempt => { job with state := .completed attempt }

/-- Records a known-not-accepted terminal failure. -/
def fail (job : BatchJob) (failure : BatchFailure) : Except BatchTransitionError BatchJob :=
  (job.submissionAttempt .failed).map fun attempt => { job with state := .failed attempt failure }

/-- Records an uncertain outcome after provider egress. -/
def recordUnknownOutcome (job : BatchJob) (failure : BatchFailure) :
    Except BatchTransitionError BatchJob :=
  (job.submissionAttempt .outcomeUnknown).map fun attempt =>
    { job with state := .outcomeUnknown attempt (.submission failure) }

/-- Converts an in-flight submission found during recovery into terminal uncertainty. -/
def recoverInterruptedSubmission (job : BatchJob) : Bool × BatchJob :=
  match job.state with
  | .submitting attempt => (true, { job with state := .outcomeUnknown attempt .interruptedSubmission })
  | _ => (false, job)

/-- A begun submission counts one more attempt from an actionable state and keeps the identity. -/
theorem beginSubmission_ok {job job' : BatchJob} {attempt : NonZeroU32}
    (h : job.beginSubmission = .ok (attempt, job')) :
    job.state.isActionable = true ∧ job' = { job with state := .submitting attempt } ∧
      attempt.get = job.state.attempts + 1 := by
  unfold beginSubmission at h
  cases hstate : job.state with
  | accepted =>
    simp only [hstate, Except.ok.injEq, Prod.mk.injEq] at h
    obtain ⟨rfl, rfl⟩ := h
    exact ⟨rfl, rfl, rfl⟩
  | retryable n failure =>
    simp only [hstate] at h
    split at h
    · rename_i next hnext
      simp only [Except.ok.injEq, Prod.mk.injEq] at h
      obtain ⟨rfl, rfl⟩ := h
      exact ⟨rfl, rfl, NonZeroU32.get_of_checkedSucc hnext⟩
    · cases h
  | submitting n => simp [hstate] at h
  | completed n => simp [hstate] at h
  | failed n failure => simp [hstate] at h
  | outcomeUnknown n reason => simp [hstate] at h

/-- An outcome can be recorded for the attempt of a submitting job. -/
theorem submissionAttempt_of_submitting {job : BatchJob} {attempt : NonZeroU32}
    (h : job.state = .submitting attempt) (target : BatchJobStatus) :
    job.submissionAttempt target = .ok attempt := by
  simp [submissionAttempt, h]

/-- Recovery moves exactly the submitting jobs, to an interrupted unknown outcome. -/
theorem recoverInterruptedSubmission_of_submitting {job : BatchJob} {attempt : NonZeroU32}
    (h : job.state = .submitting attempt) :
    job.recoverInterruptedSubmission =
      (true, { job with state := .outcomeUnknown attempt .interruptedSubmission }) := by
  simp [recoverInterruptedSubmission, h]

end BatchJob

end Voicetext.Speech.Domain
