import Mathlib.Data.List.Pairwise
import Voicetext.Speech.Application.Ports

/-!
# Coordinator-owned batch request, outcome and validation models

The pure core of execution: a claimed snapshot and the outcome of its paid provider call determine
the next durable snapshot. A provider result completes the job only when it is valid for the claim
and the consumer's projection accepts it; every other outcome becomes classified evidence.
-/

namespace Voicetext.Speech.Application

open Voicetext.Common Voicetext.Speech.Domain

/-- Complete immutable input accepted before any provider egress. -/
structure BatchAdmissionRequest where
  id : BatchJobId
  profile : BatchProfile
  fingerprint : BatchRequestFingerprint
  audio : List UInt8
  authoritativeDurationMillis : UInt64
  keyterms : List String
deriving DecidableEq

/-- Successful idempotent admission classification. -/
inductive BatchAdmissionOutcome
  | accepted (snapshot : BatchJobSnapshot)
  | replay (snapshot : BatchJobSnapshot)

/-- Result of trying to claim and execute one actionable job. -/
inductive BatchExecutionOutcome
  | persisted (snapshot : BatchJobSnapshot)
  | notClaimed (current : Option BatchJobSnapshot)
  | notActionable (snapshot : BatchJobSnapshot)

/-- Deterministic startup reconciliation report. -/
structure BatchStartupRecovery where
  actionable : List BatchJobSnapshot := []
  recoveredUnknown : List BatchJobSnapshot := []
  conflicts : List BatchJobSnapshot := []
  missing : List BatchJobId := []
  invalidCandidates : List BatchJobSnapshot := []
  nextCursor : Option BatchJobId := none

/-- Failure that preserves whether provider egress may already have happened. -/
inductive BatchCoordinatorFailure
  | admissionConflict (existing : BatchJobSnapshot)
  | spool (failure : BatchAudioSpoolFailure)
  | store (failure : BatchJobStoreFailure)
  | admissionStoreUncertain (insert verification : BatchJobStoreFailure)
  | admissionCleanup (store : Option BatchJobStoreFailure) (spool : BatchAudioSpoolFailure)
  | transition (error : BatchTransitionError)
  | postEgressStore (failure : BatchJobStoreFailure)
  | postEgressConflict

/-- A stored provider outcome and the independent result of terminal audio cleanup. -/
structure BatchExecutionReport where
  outcome : BatchExecutionOutcome
  postPersistenceCleanup : Option (Except BatchAudioSpoolFailure BatchAudioRemoveOutcome)

def MAX_SEGMENTS : ℕ := 10000

/-- Text budget across the transcript, segments, speakers and readable projection, in bytes. -/
def MAX_TRANSCRIPT_BYTES : ℕ := 4 * 1024 * 1024

def MAX_READABLE_REFERENCES : ℕ := 100000

/-- `usize::checked_add` on a 64-bit target. -/
def checkedAdd (a b : ℕ) : Option ℕ := if a + b < 2 ^ 64 then some (a + b) else none

/-- A confidence is a finite value of the closed unit interval. -/
def validConfidence (value : Float32) : Bool := value.isFinite && (0.0 ≤ value && value ≤ 1.0)

/-- Walk the segments with the running end time and text budget; `none` is an invalid timeline. -/
def validSegments (duration : UInt64) : UInt64 → ℕ → List BatchSegment → Option ℕ
  | _, textBytes, [] => some textBytes
  | previousEnd, textBytes, segment :: rest =>
    match (checkedAdd textBytes (Text.len segment.text)).bind fun next =>
        segment.speaker.elim (some next) fun speaker => checkedAdd next (Text.len speaker) with
    | none => none
    | some nextTextBytes =>
      if segment.startMillis < previousEnd ∨ segment.endMillis ≤ segment.startMillis ∨
          segment.endMillis > duration ∨ segment.text = "" ∨ nextTextBytes > MAX_TRANSCRIPT_BYTES ∨
          segment.confidence.any (fun value => !validConfidence value) then none
      else validSegments duration segment.endMillis nextTextBytes rest

/-- Source indices strictly increase and address existing raw segments. -/
def validSources (segmentCount : ℕ) (indices : List UInt64) : Bool :=
  indices ≠ [] && decide (indices.IsChain (· < ·)) &&
    indices.getLast?.any fun index => index.toNat < segmentCount

/-- Walk the readable segments with the running end time, reference count and text budget. -/
def validReadable (duration : UInt64) (segmentCount : ℕ) :
    UInt64 → ℕ → ℕ → List BatchReadableSegment → Bool
  | _, _, _, [] => true
  | previousEnd, references, textBytes, segment :: rest =>
    match checkedAdd references segment.sourceSegmentIndices.length,
        checkedAdd textBytes (Text.len segment.text) with
    | some nextReferences, some nextTextBytes =>
      segment.startMillis ≥ previousEnd && segment.endMillis > segment.startMillis &&
        segment.endMillis ≤ duration && segment.text ≠ "" &&
        nextReferences ≤ MAX_READABLE_REFERENCES && nextTextBytes ≤ MAX_TRANSCRIPT_BYTES &&
        validSources segmentCount segment.sourceSegmentIndices &&
        validReadable duration segmentCount segment.endMillis nextReferences nextTextBytes rest
    | _, _ => false

/-- Whether a provider result is valid evidence for this claimed snapshot. -/
def validResult (snapshot : BatchJobSnapshot) (result : BatchRecognitionResult) : Bool :=
  if result.profile ≠ snapshot.job.profile ∨
      result.durationMillis ≠ snapshot.authoritativeDurationMillis ∨
      Text.len result.text > MAX_TRANSCRIPT_BYTES ∨ result.segments.length > MAX_SEGMENTS then false
  else
    match validSegments result.durationMillis 0 (Text.len result.text) result.segments with
    | none => false
    | some textBytes =>
      result.readableSegments.all fun segments =>
        segments.length ≤ MAX_SEGMENTS &&
          validReadable result.durationMillis result.segments.length 0 0 textBytes segments

/-- The code which replaces failure evidence that is itself invalid. -/
def invalidRecognitionFailure : BatchFailure :=
  ⟨"INVALID_RECOGNITION_FAILURE", by decide, by decide, by decide, by decide⟩

/-- Durable failure evidence for an adapter code; an unusable code is replaced. -/
def batchFailure (code : String) : BatchFailure :=
  match BatchFailure.new code with
  | .ok failure => failure
  | .error _ => invalidRecognitionFailure

/-- The durable snapshot which records a provider outcome for a claimed snapshot. -/
def applyRecognitionOutcome (snapshot : BatchJobSnapshot) (recognition : Recognition)
    (projection : BatchResultProjection) : Except BatchTransitionError BatchJobSnapshot :=
  let snapshot := { snapshot with retryAfterMillis := none }
  match recognition with
  | .ok result =>
    let valid := validResult snapshot result
    let projectable := valid && (projection.validate snapshot.id result).isOk
    let snapshot := { snapshot with providerReference := result.providerReference }
    if projectable then
      snapshot.job.complete.map fun job => { snapshot with result := some result, job }
    else
      let code :=
        if valid then "PROVIDER_RESULT_PROJECTION_FAILED" else "INVALID_RECOGNITION_RESULT"
      (snapshot.job.fail (batchFailure code)).map fun job => { snapshot with result := none, job }
  | .error (.knownNotAccepted retryable code providerReference retryAfterMillis) =>
    let snapshot := { snapshot with providerReference }
    let evidence := batchFailure code
    if retryable then
      (snapshot.job.recordRetryableFailure evidence).map fun job =>
        { snapshot with retryAfterMillis, job }
    else (snapshot.job.fail evidence).map fun job => { snapshot with job }
  | .error (.knownAcceptedTerminal code providerReference) =>
    (snapshot.job.fail (batchFailure code)).map fun job => { snapshot with providerReference, job }
  | .error (.unknownAfterSend code providerReference) =>
    (snapshot.job.recordUnknownOutcome (batchFailure code)).map fun job =>
      { snapshot with providerReference, job }

end Voicetext.Speech.Application
