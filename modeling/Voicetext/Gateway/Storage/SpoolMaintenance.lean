import Voicetext.Gateway.Storage.SpoolCalls

/-!
# Startup maintenance of the spool directory

One pass goes through a listing of the directory, in whatever order it comes, and removes the audio of
terminal jobs and what a crash left behind long enough ago. Nothing but the check of an artifact against
its ledger row fails with the ledger failure.
-/

namespace Voicetext.Gateway.Storage

open Voicetext.Common Voicetext.Speech.Domain Voicetext.Speech.Application

/-- Fixed-cardinality evidence from one startup maintenance pass. -/
structure SpoolMaintenanceReport where
  terminalRemoved : ℕ
  orphanRemoved : ℕ
  temporaryRemoved : ℕ
  preserved : ℕ
  usedBytes : ℕ
  capacityBytes : ℕ
deriving DecidableEq

/-- Whether a file is at least as old as the retention; a time that is unknown or in the future is not. -/
def expired (modified : Option ℤ) (now : ℤ) (retention : ℕ) : Bool :=
  modified.any fun modified => modified ≤ now && (retention : ℤ) ≤ now - modified

namespace DurableFileSpool

def ioFailure (kind : ErrorKind) : BatchAudioSpoolFailure := .unavailable (kind.code "SPOOL_MAINTENANCE_")

def ledgerFailure : BatchAudioSpoolFailure := .unavailable "SPOOL_MAINTENANCE_LEDGER_UNAVAILABLE"

variable (config : SpoolConfig) (now : ℤ) (retention : ℕ)

/-- Whether the directory holds audio of a job; what is listed before a failure counts. -/
def matchingAudioExists (jobId : String) : SpoolTask config.codec (Except BatchAudioSpoolFailure Bool) :=
  (attempt ioFailure (Task.call SpoolOp.readDir)).andThen fun (names, failure) =>
    if names.any fun name => (audioFile config.codec name).any fun parsed => parsed.jobId = jobId then
      .done (.ok true)
    else
      match failure with
      | some kind => .done (.error (ioFailure kind))
      | none => .done (.ok false)

/-- Remove a temporary file that is old enough. -/
def visitTemporary (report : SpoolMaintenanceReport) (name : FileName) (modified : Option ℤ) :
    SpoolTask config.codec (Except BatchAudioSpoolFailure SpoolMaintenanceReport) :=
  if expired modified now retention then
    (attempt ioFailure (Task.call (SpoolOp.removeFile name))).andThen fun _ =>
      .done (.ok { report with temporaryRemoved := U64.saturatingAdd report.temporaryRemoved 1 })
  else .done (.ok report)

/-- Remove an identity claim that is old enough and has no audio. -/
def visitClaim (report : SpoolMaintenanceReport) (name : FileName) (jobId : String)
    (modified : Option ℤ) : SpoolTask config.codec (Except BatchAudioSpoolFailure SpoolMaintenanceReport) :=
  (matchingAudioExists config jobId).andThen fun found =>
    if found = false ∧ expired modified now retention = true then
      (attempt ioFailure (Task.call (SpoolOp.removeFile name))).andThen fun _ =>
        .done (.ok { report with orphanRemoved := U64.saturatingAdd report.orphanRemoved 1 })
    else .done (.ok report)

/-- Remove the audio of a terminal job, and audio without a job that is old enough. -/
def visitAudio (report : SpoolMaintenanceReport) (handle : BatchAudioHandle) (parsed : ParsedHandle)
    (modified : Option ℤ) : SpoolTask config.codec (Except BatchAudioSpoolFailure SpoolMaintenanceReport) :=
  .await (.loadRow ⟨parsed.jobId⟩) fun loaded : Except BatchJobStoreFailure (Option BatchJobSnapshot) =>
    match loaded with
    | .error _ => .done (.error ledgerFailure)
    | .ok (some snapshot) =>
      if snapshot.audio ≠ handle then .done (.error ledgerFailure)
      else if snapshot.job.state.isTerminal then
        (remove config handle).andThen fun outcome =>
          .done (.ok (if outcome = .removed then
            { report with terminalRemoved := U64.saturatingAdd report.terminalRemoved 1 } else report))
      else .done (.ok { report with preserved := U64.saturatingAdd report.preserved 1 })
    | .ok none =>
      if expired modified now retention then
        (remove config handle).andThen fun outcome =>
          .done (.ok (if outcome = .removed then
            { report with orphanRemoved := U64.saturatingAdd report.orphanRemoved 1 } else report))
      else .done (.ok { report with preserved := U64.saturatingAdd report.preserved 1 })

/-- Visit one listed entry. -/
def visit (report : SpoolMaintenanceReport) (name : FileName) :
    SpoolTask config.codec (Except BatchAudioSpoolFailure SpoolMaintenanceReport) :=
  .await (.symlinkMetadata name) fun reply : Except ErrorKind Metadata =>
    match reply with
    | .error kind => if kind = .notFound then .done (.ok report) else .done (.error (ioFailure kind))
    | .ok metadata =>
      match name.toStr with
      | none => .done (.ok report)
      | some text =>
        if isTemporary text then visitTemporary config now retention report name metadata.modified
        else
          match Text.stripSuffix text ".identity" with
          | some jobId => visitClaim config now retention report name jobId metadata.modified
          | none =>
            match parseHandle config.codec text with
            | .error _ => .done (.ok report)
            | .ok parsed => visitAudio config now retention report ⟨text⟩ parsed metadata.modified

/-- `reconcile`. -/
def reconcile : SpoolTask config.codec (Except BatchAudioSpoolFailure SpoolMaintenanceReport) :=
  (attempt ioFailure (Task.call SpoolOp.readDir)).andThen fun (names, failure) =>
    match failure with
    | some kind => .done (.error (ioFailure kind))
    | none =>
      (Task.forEach (visit config now retention) ⟨0, 0, 0, 0, 0, config.maximumTotalBytes⟩ names).andThen
        fun report => spoolAudioBytes.andThen fun usedBytes => .done (.ok { report with usedBytes })

section LedgerFailure

theorem toUpper_ne_underscore {c : Char} (h : c.isAlpha = true) : c.toUpper ≠ '_' := by
  delta Char.isAlpha Char.isUpper Char.isLower at h
  simp only [Bool.or_eq_true, Bool.and_eq_true, decide_eq_true_eq, ge_iff_le] at h
  unfold Char.toUpper
  intro heq
  split at heq
  · rename_i hlower
    have hval := congrArg (fun c : Char => c.val.toNat) heq
    simp [UInt32.le_iff_toNat_le] at hlower hval h
    omega
  · subst heq
    revert h
    decide

/-- No input or output failure is spelled like the ledger failure. -/
theorem ioFailure_ne_ledgerFailure (kind : ErrorKind) : ioFailure kind ≠ ledgerFailure := by
  intro heq
  have hcode := congrArg String.toList (BatchAudioSpoolFailure.unavailable.inj heq)
  simp only [ErrorKind.code, String.toList_ofList, String.toList_append, List.map_append] at hcode
  have hupper : kind.debug.toList.map Char.toUpper = "LEDGER_UNAVAILABLE".toList :=
    List.append_cancel_left (hcode.trans rfl)
  have hmem : '_' ∈ kind.debug.toList.map Char.toUpper := hupper ▸ by decide
  obtain ⟨c, hc, heq⟩ := List.mem_map.mp hmem
  exact toUpper_ne_underscore (List.all_eq_true.mp kind.letters c hc) heq

theorem unavailable_ne_ledgerFailure (kind : ErrorKind) : unavailable kind ≠ ledgerFailure := by
  intro heq
  have hcode := congrArg (fun code : String => code.toList[6]?) (BatchAudioSpoolFailure.unavailable.inj heq)
  simp [ErrorKind.code] at hcode

theorem invalidStorage_ne_ledgerFailure : Spool.invalidStorage ≠ ledgerFailure := by decide

theorem joinFailure_ne_ledgerFailure : joinFailure ≠ ledgerFailure := by decide

variable {codec : UuidCodec}

/-- A task that never fails with the ledger failure. -/
abbrev NoLedgerFailure {α : Type} (t : SpoolTask codec (Except BatchAudioSpoolFailure α)) : Prop :=
  Task.Fails (· ≠ ledgerFailure) t

theorem attempt_fails {α : Type} {failure : ErrorKind → BatchAudioSpoolFailure}
    (hfailure : ∀ kind, failure kind ≠ ledgerFailure) (t : SpoolTask codec (Except ErrorKind α)) :
    NoLedgerFailure (attempt failure t) := by
  induction t with
  | done reply =>
    intro e he
    cases reply with
    | error kind =>
      cases he
      exact hfailure kind
    | ok a => cases he
  | await op resume ih => exact fun reply => ih reply

theorem regularFileMetadata_fails (name : FileName) :
    NoLedgerFailure (regularFileMetadata name : SpoolTask codec _) := by
  intro reply
  cases reply with
  | error kind =>
    intro e he
    cases he
    split
    · decide
    · exact unavailable_ne_ledgerFailure kind
  | ok metadata =>
    dsimp only
    split <;> simp [Task.Fails, invalidStorage_ne_ledgerFailure]

theorem readSmallRegularFile_fails (name : FileName) (maximumBytes : ℕ) :
    NoLedgerFailure (readSmallRegularFile name maximumBytes : SpoolTask codec _) := by
  refine (regularFileMetadata_fails name).andThen ?_
  intro metadata
  split
  · simp [Task.Fails, ledgerFailure]
  split
  · simp [Task.Fails, invalidStorage_ne_ledgerFailure]
  refine (attempt_fails unavailable_ne_ledgerFailure _).andThen ?_
  intro bytes
  split <;> simp [Task.Fails, ledgerFailure]

theorem addAudioBytes_fails (total : ℕ) (name : FileName) :
    NoLedgerFailure (addAudioBytes total name : SpoolTask codec _) := by
  unfold addAudioBytes
  split
  · simp [NoLedgerFailure, Task.Fails]
  refine (attempt_fails unavailable_ne_ledgerFailure _).andThen ?_
  intro metadata
  split
  · simp [Task.Fails, invalidStorage_ne_ledgerFailure]
  split <;> simp [Task.Fails, ledgerFailure]

theorem spoolAudioBytes_fails : NoLedgerFailure (spoolAudioBytes : SpoolTask codec _) := by
  refine (attempt_fails unavailable_ne_ledgerFailure _).andThen ?_
  rintro ⟨names, failure⟩
  refine (Task.Fails.forEach addAudioBytes_fails 0 names).andThen ?_
  intro total
  cases failure with
  | some kind => simp [Task.Fails, unavailable_ne_ledgerFailure]
  | none => simp [Task.Fails]

variable {config : SpoolConfig} {now : ℤ} {retention : ℕ} {report : SpoolMaintenanceReport}

theorem unlinkArtifact_fails (name : FileName) : NoLedgerFailure (unlinkArtifact name : SpoolTask codec _) := by
  intro reply
  cases reply with
  | error kind =>
    dsimp only
    split <;> simp [Task.Fails, unavailable_ne_ledgerFailure]
  | ok metadata =>
    dsimp only
    split
    · simp [Task.Fails, invalidStorage_ne_ledgerFailure]
    intro reply
    cases reply with
    | error kind =>
      change NoLedgerFailure (if kind = .notFound then .done (.ok .alreadyMissing)
        else .done (.error (unavailable kind)) : SpoolTask codec (Except _ BatchAudioRemoveOutcome))
      split <;> simp [NoLedgerFailure, Task.Fails, unavailable_ne_ledgerFailure]
    | ok _ =>
      intro e he
      cases he

theorem releaseClaim_fails (parsed : ParsedHandle) : NoLedgerFailure (releaseClaim config parsed) := by
  refine (readSmallRegularFile_fails (claimName parsed.jobId) 64).bind ?_
  intro value hvalue
  cases value with
  | ok value =>
    dsimp only
    split
    · exact attempt_fails unavailable_ne_ledgerFailure _
    · simp [Task.Fails]
  | error failure =>
    cases failure with
    | missing => simp [Task.Fails]
    | _ => simpa [Task.Fails] using hvalue _ rfl

theorem removeBlocking_fails (handle : BatchAudioHandle) : NoLedgerFailure (removeBlocking config handle) := by
  intro locked
  dsimp only
  split
  · simp [Task.Fails, invalidStorage_ne_ledgerFailure]
  split
  · rename_i failure hparse
    rw [parseHandle_eq_error hparse]
    simp [Task.Fails, invalidStorage_ne_ledgerFailure]
  rename_i parsed _
  refine (unlinkArtifact_fails (artifactName handle)).andThen ?_
  intro outcome
  refine (releaseClaim_fails parsed).andThen ?_
  intro _
  refine (attempt_fails unavailable_ne_ledgerFailure _).andThen ?_
  simp [Task.Fails]

theorem remove_fails (handle : BatchAudioHandle) : NoLedgerFailure (remove config handle) := by
  intro joined
  dsimp only
  split
  · simp [Task.Fails, joinFailure_ne_ledgerFailure]
  · exact removeBlocking_fails handle

theorem visitTemporary_fails (name : FileName) (modified : Option ℤ) :
    NoLedgerFailure (visitTemporary config now retention report name modified) := by
  unfold visitTemporary
  split
  · refine (attempt_fails ioFailure_ne_ledgerFailure _).andThen ?_
    simp [Task.Fails]
  · simp [NoLedgerFailure, Task.Fails]

theorem visitClaim_fails (name : FileName) (jobId : String) (modified : Option ℤ) :
    NoLedgerFailure (visitClaim config now retention report name jobId modified) := by
  have hsearch : NoLedgerFailure (matchingAudioExists config jobId) := by
    refine (attempt_fails ioFailure_ne_ledgerFailure _).andThen ?_
    rintro ⟨names, failure⟩
    dsimp only
    split
    · simp [Task.Fails]
    cases failure with
    | some kind => simp [Task.Fails, ioFailure_ne_ledgerFailure]
    | none => simp [Task.Fails]
  refine hsearch.andThen ?_
  intro found
  split
  · refine (attempt_fails ioFailure_ne_ledgerFailure _).andThen ?_
    simp [Task.Fails]
  · simp [Task.Fails]

end LedgerFailure

end DurableFileSpool

end Voicetext.Gateway.Storage
