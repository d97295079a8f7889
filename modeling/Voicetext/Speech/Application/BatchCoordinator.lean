import Voicetext.Speech.Application.BatchModels

/-!
# Runtime-independent orchestration of durable batch recognition

Admission, one fenced provider call, and page-wise startup recovery, written over the ports. Every
await of the programs is an await of a port, and the local computation between two awaits is the
pure core of the application.
-/

namespace Voicetext.Speech.Application

open Voicetext.Common Voicetext.Speech.Domain

variable {Op : Type} {Reply : Op → Type}

/-- Most candidates one recovery page holds. -/
def RECOVERY_BATCH_LIMIT : ℕ := 100

/-- Coordinates admission, a single fenced provider call, and startup recovery. -/
structure BatchCoordinator (Op : Type) (Reply : Op → Type) where
  recognizer : BatchRecognizer Op Reply
  jobs : BatchJobStore Op Reply
  spool : BatchAudioSpool Op Reply

/-- A stored row answers an admission: the same profile and fingerprint replay, others conflict. -/
def classifyExisting (existing : BatchJobSnapshot) (request : BatchAdmissionRequest) :
    Except BatchCoordinatorFailure BatchAdmissionOutcome :=
  if existing.job.profile = request.profile ∧ existing.job.fingerprint = request.fingerprint then
    .ok (.replay existing)
  else .error (.admissionConflict existing)

/-- The claimed replacement of a loaded snapshot, with the outcome fields reset. -/
def claim (snapshot : BatchJobSnapshot) : Except BatchTransitionError BatchJobSnapshot :=
  snapshot.job.beginSubmission.map fun (_, job) =>
    { snapshot with job, providerReference := none, retryAfterMillis := none, result := none }

/-- The recovered replacement of a snapshot found submitting at startup. -/
def recovered (snapshot : BatchJobSnapshot) : BatchJobSnapshot :=
  { snapshot with job := snapshot.job.recoverInterruptedSubmission.2 }

namespace BatchCoordinator

variable (self : BatchCoordinator Op Reply)

/-- Remove the candidate artifact of a lost admission when it is this call's own, then classify. -/
def resolveRace (existing : BatchJobSnapshot) (request : BatchAdmissionRequest) (ownsAudio : Bool)
    (candidate : BatchAudioHandle) :
    Task Op Reply (Except BatchCoordinatorFailure BatchAdmissionOutcome) := do
  if ownsAudio && candidate ≠ existing.audio then
    match ← self.spool.remove candidate with
    | .error spool => return .error (.admissionCleanup none spool)
    | .ok _ => return classifyExisting existing request
  else return classifyExisting existing request

/-- After a failed insert: look whether a row exists all the same, and roll back when none does. -/
def verifyInsert (request : BatchAdmissionRequest) (ownsAudio : Bool) (audio : BatchAudioHandle)
    (insert : BatchJobStoreFailure) :
    Task Op Reply (Except BatchCoordinatorFailure BatchAdmissionOutcome) := do
  match ← self.jobs.load request.id with
  | .ok (some existing) => self.resolveRace existing request ownsAudio audio
  | .ok none =>
    if ownsAudio then
      match ← self.spool.remove audio with
      | .error spool => return .error (.admissionCleanup (some insert) spool)
      | .ok _ => return .error (.store insert)
    else return .error (.store insert)
  | .error verification => return .error (.admissionStoreUncertain insert verification)

/-- Insert the row of a request whose audio is in the spool. -/
def insertStored (request : BatchAdmissionRequest) (ownsAudio : Bool) (audio : BatchAudioHandle) :
    Task Op Reply (Except BatchCoordinatorFailure BatchAdmissionOutcome) := do
  match ← self.jobs.insert request.id (.accept request.profile request.fingerprint) audio
      request.authoritativeDurationMillis request.keyterms with
  | .ok (.inserted snapshot) => return .ok (.accepted snapshot)
  | .ok (.existing existing) => self.resolveRace existing request ownsAudio audio
  | .error insert => self.verifyInsert request ownsAudio audio insert

/-- Admit a request idempotently (`admit`): find its row, or store its audio and insert the row. -/
def admitBatch (request : BatchAdmissionRequest) :
    Task Op Reply (Except BatchCoordinatorFailure BatchAdmissionOutcome) := do
  match ← self.jobs.load request.id with
  | .error failure => return .error (.store failure)
  | .ok (some existing) => return classifyExisting existing request
  | .ok none =>
    match ← self.spool.store request.id request.audio with
    | .error failure => return .error (.spool failure)
    | .ok (.stored handle) => self.insertStored request true handle
    | .ok (.existing handle) => self.insertStored request false handle

/-- Persist a paid outcome over its claim, and clean up the audio of a terminal job. -/
def persistOutcome (claimed replacement : BatchJobSnapshot) :
    Task Op Reply (Except BatchCoordinatorFailure BatchExecutionReport) := do
  match ← self.jobs.compareAndSwap claimed.revision replacement with
  | .ok (.stored snapshot) =>
    if snapshot.job.state.isTerminal then
      let cleanup ← self.spool.remove snapshot.audio
      return .ok ⟨.persisted snapshot, some cleanup⟩
    else return .ok ⟨.persisted snapshot, none⟩
  | .ok (.revisionConflict _) | .ok .missing => return .error .postEgressConflict
  | .error failure => return .error (.postEgressStore failure)

/-- Execute once while reporting terminal spool cleanup separately from persistence. -/
def executeWithCleanupReport (id : BatchJobId) (projection : BatchResultProjection) :
    Task Op Reply (Except BatchCoordinatorFailure BatchExecutionReport) := do
  match ← self.jobs.load id with
  | .error failure => return .error (.store failure)
  | .ok none => return .ok ⟨.notClaimed none, none⟩
  | .ok (some snapshot) =>
    if !snapshot.job.state.isActionable then return .ok ⟨.notActionable snapshot, none⟩
    else
      match ← self.spool.read snapshot.audio with
      | .error failure => return .error (.spool failure)
      | .ok audio =>
        match claim snapshot with
        | .error error => return .error (.transition error)
        | .ok replacement =>
          match ← self.jobs.compareAndSwap snapshot.revision replacement with
          | .error failure => return .error (.store failure)
          | .ok (.revisionConflict current) => return .ok ⟨.notClaimed (some current), none⟩
          | .ok .missing => return .ok ⟨.notClaimed none, none⟩
          | .ok (.stored claimed) =>
            let recognition ← self.recognizer.recognize
              { profile := claimed.job.profile, audio,
                authoritativeDurationMillis := claimed.authoritativeDurationMillis,
                keyterms := claimed.keyterms }
            match applyRecognitionOutcome claimed recognition projection with
            | .error error => return .error (.transition error)
            | .ok replacement => self.persistOutcome claimed replacement

/-- Reconcile the remaining candidates of a page, extending the report in candidate order. -/
def reconcileRest (report : BatchStartupRecovery) :
    List BatchJobSnapshot → Task Op Reply (Except BatchCoordinatorFailure BatchStartupRecovery)
  | [] => return .ok report
  | snapshot :: rest =>
    match snapshot.job.state with
    | .accepted | .retryable _ _ =>
      reconcileRest { report with actionable := report.actionable ++ [snapshot] } rest
    | .submitting _ => do
      match ← self.jobs.compareAndSwap snapshot.revision (recovered snapshot) with
      | .error failure => return .error (.store failure)
      | .ok (.stored stored) =>
        match ← self.spool.remove stored.audio with
        | .error failure => return .error (.spool failure)
        | .ok _ =>
          reconcileRest { report with recoveredUnknown := report.recoveredUnknown ++ [stored] } rest
      | .ok (.revisionConflict current) =>
        reconcileRest { report with conflicts := report.conflicts ++ [current] } rest
      | .ok .missing => reconcileRest { report with missing := report.missing ++ [snapshot.id] } rest
    | .completed _ | .failed _ _ | .outcomeUnknown _ _ =>
      reconcileRest { report with invalidCandidates := report.invalidCandidates ++ [snapshot] } rest

/-- Reconcile one page; a full page is truncated and names the cursor of the next one. -/
def reconcileCandidates (candidates : List BatchJobSnapshot) :
    Task Op Reply (Except BatchCoordinatorFailure BatchStartupRecovery) :=
  if candidates.length ≥ RECOVERY_BATCH_LIMIT then
    let candidates := candidates.take RECOVERY_BATCH_LIMIT
    self.reconcileRest { nextCursor := candidates.getLast?.map (·.id) } candidates
  else self.reconcileRest {} candidates

/-- Reconcile one page without a frozen head. -/
def recoverStartup (after : Option BatchJobId) :
    Task Op Reply (Except BatchCoordinatorFailure BatchStartupRecovery) := do
  match ← self.jobs.listRecoveryCandidates after RECOVERY_BATCH_LIMIT with
  | .error failure => return .error (.store failure)
  | .ok candidates => self.reconcileCandidates candidates

/-- Make interrupted submissions terminally unknown through an inclusive frozen head. -/
def recoverStartupThrough (after : Option BatchJobId) (through : BatchJobId) :
    Task Op Reply (Except BatchCoordinatorFailure BatchStartupRecovery) := do
  match ← self.jobs.listRecoveryCandidatesThrough after through RECOVERY_BATCH_LIMIT with
  | .error failure => return .error (.store failure)
  | .ok candidates => self.reconcileCandidates candidates

end BatchCoordinator

end Voicetext.Speech.Application
