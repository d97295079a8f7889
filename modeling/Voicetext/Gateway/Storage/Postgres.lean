import Voicetext.Common.SortedTable
import Voicetext.Gateway.Storage.Identifiers
import Voicetext.Gateway.Storage.Operations

/-!
# The PostgreSQL ledger of batch jobs

The table holds one decoded row for each job in identity order. Each statement of the adapter is a
function of the table; the store's methods are the programs which issue those statements. PostgreSQL
compares UUIDs bytewise, which for canonical text is the order of the text.
-/

namespace Voicetext.Gateway.Storage

open Voicetext.Common Voicetext.Speech.Domain Voicetext.Speech.Application

/-- The table of batch jobs, keyed and ordered by job identity. -/
abbrev JobTable := SortedTable fun row : BatchJobSnapshot => row.id.asStr

theorem asStr_inj {id id' : BatchJobId} (h : id.asStr = id'.asStr) : id = id' := by
  cases id
  cases id'
  simp_all

/-- A reference read back from its column has lost its operation kind. -/
def untypedReference (reference : ProviderReference) : ProviderReference :=
  .new reference.id

/-- The snapshot a written row decodes to: operation kinds are not stored. -/
def untyped (snapshot : BatchJobSnapshot) : BatchJobSnapshot :=
  { snapshot with
    providerReference := snapshot.providerReference.map untypedReference
    result := snapshot.result.map fun result =>
      { result with providerReference := result.providerReference.map untypedReference } }

/-- The columns an update never changes. -/
def sameImmutable (left right : BatchJobSnapshot) : Bool :=
  left.id = right.id && left.job.profile = right.job.profile &&
    left.job.fingerprint = right.job.fingerprint && left.audio = right.audio &&
    left.authoritativeDurationMillis = right.authoritativeDurationMillis &&
    left.keyterms = right.keyterms

def unavailable (code : String) : BatchJobStoreFailure := .unavailable code

def invalidSnapshot (code : String) : BatchJobStoreFailure := .invalidSnapshot code

def snapshotFailure (error : RecordError) : BatchJobStoreFailure := invalidSnapshot error.code

/-- `state IN ('accepted', 'retryable', 'submitting')`. -/
def isRecoverable (row : BatchJobSnapshot) : Bool := !row.job.state.isTerminal

namespace JobTable

variable (storable : BatchJobSnapshot → Except RecordError Unit) (table : JobTable)

/-- The row an insert would write; nothing when the identity is already taken. -/
def insertRow (snapshot : BatchJobSnapshot) :
    Except BatchJobStoreFailure (Option BatchJobSnapshot) :=
  match storable snapshot with
  | .error error => .error (snapshotFailure error)
  | .ok _ =>
    match table.lookup snapshot.id.asStr with
    | some _ => .ok none
    | none => .ok (some (untyped snapshot))

/-- The row a guarded update would write; nothing when no row matches its condition. -/
def updateRow (expectedRevision : UInt64) (replacement : BatchJobSnapshot) :
    Except BatchJobStoreFailure (Option BatchJobSnapshot) :=
  if replacement.revision ≠ expectedRevision then
    .error (invalidSnapshot "REPLACEMENT_REVISION_MISMATCH")
  else
    match storable replacement with
    | .error error => .error (snapshotFailure error)
    | .ok _ =>
      match table.lookup replacement.id.asStr with
      | none => .ok none
      | some current =>
        if current.revision = expectedRevision ∧ sameImmutable current replacement = true then
          -- `revision+1` of a bigint column
          if expectedRevision.toNat + 1 < 2 ^ 63 then
            .ok (some { untyped replacement with revision := expectedRevision + 1 })
          else .error (unavailable "DATABASE_22003")
        else .ok none

/-- The greatest recoverable identity. -/
def recoveryHead : Option BatchJobId :=
  ((table.rows.filter isRecoverable).getLast?).map (·.id)

/-- The recoverable rows after an exclusive cursor, through an inclusive head, in identity order. -/
def recoveryPage (after through : Option BatchJobId) (limit : ℕ) : List BatchJobSnapshot :=
  (table.rows.filter fun row =>
    isRecoverable row && after.all (fun id => id.asStr < row.id.asStr) &&
      through.all fun id => row.id.asStr ≤ id.asStr).take limit

variable {storable table}

/-- An insert writes the decoded snapshot under an identity nobody has taken. -/
theorem insertRow_some {snapshot row : BatchJobSnapshot}
    (h : insertRow storable table snapshot = .ok (some row)) :
    table.lookup snapshot.id.asStr = none ∧ row = untyped snapshot := by
  unfold insertRow at h
  split at h
  · cases h
  · split at h
    · cases h
    · rename_i hnone
      obtain rfl := Option.some.inj (Except.ok.inj h)
      exact ⟨hnone, rfl⟩

/-- An insert affects no row only when the identity is taken. -/
theorem insertRow_none {snapshot : BatchJobSnapshot}
    (h : insertRow storable table snapshot = .ok none) :
    ∃ row, table.lookup snapshot.id.asStr = some row := by
  unfold insertRow at h
  split at h
  · cases h
  · split at h
    · exact ⟨_, ‹_›⟩
    · cases h

/-- An update writes the next revision of a row which is still at the expected one. -/
theorem updateRow_some {expected : UInt64} {replacement row : BatchJobSnapshot}
    (h : updateRow storable table expected replacement = .ok (some row)) :
    replacement.revision = expected ∧ expected.toNat + 1 < 2 ^ 63 ∧
      row = { untyped replacement with revision := expected + 1 } ∧
      ∃ current, table.lookup replacement.id.asStr = some current ∧ current.revision = expected := by
  unfold updateRow at h
  split at h
  · cases h
  · rename_i hrevision
    split at h
    · cases h
    · split at h
      · cases h
      · rename_i current hcurrent
        split at h
        · rename_i hmatch
          split at h
          · rename_i hbound
            obtain rfl := Option.some.inj (Except.ok.inj h)
            exact ⟨not_not.mp hrevision, hbound, rfl, current, hcurrent, hmatch.1⟩
          · cases h
        · cases h

/-- An update replaces a row with the same immutable columns. -/
theorem updateRow_keeps {expected : UInt64} {replacement row : BatchJobSnapshot}
    (h : updateRow storable table expected replacement = .ok (some row)) :
    ∃ current, table.lookup replacement.id.asStr = some current ∧ sameImmutable current replacement = true := by
  unfold updateRow at h
  split at h
  · cases h
  split at h
  · cases h
  split at h
  · cases h
  split at h
  · rename_i current hcurrent hmatch
    exact ⟨current, hcurrent, hmatch.2⟩
  · cases h

/-- An update affects no row only when the stored row is another version or another job. -/
theorem updateRow_none {expected : UInt64} {replacement current : BatchJobSnapshot}
    (h : updateRow storable table expected replacement = .ok none)
    (hcurrent : table.lookup replacement.id.asStr = some current) :
    ¬(current.revision = expected ∧ sameImmutable current replacement = true) := by
  unfold updateRow at h
  rw [hcurrent] at h
  split at h
  · cases h
  · split at h
    · cases h
    · intro hmatch
      dsimp only at h
      rw [if_pos hmatch] at h
      split at h <;> cases h

end JobTable

section Store

variable (codec : UuidCodec)

/-- Load one row by its key. -/
def loadUuid (id : BatchJobId) :
    GatewayTask (Except BatchJobStoreFailure (Option BatchJobSnapshot)) :=
  Task.call (GatewayOp.selectRow id)

/-- Insert the initial row, then read back whichever row owns the identity. -/
def insertInner (id : BatchJobId) (job : BatchJob) (audio : BatchAudioHandle)
    (authoritativeDurationMillis : UInt64) (keyterms : List String) :
    GatewayTask (Except BatchJobStoreFailure BatchJobInsertOutcome) := do
  let snapshot : BatchJobSnapshot :=
    { id, job, audio, authoritativeDurationMillis, keyterms, providerReference := none,
      retryAfterMillis := none, result := none, revision := 0 }
  let result : Except BatchJobStoreFailure Bool ← Task.call (GatewayOp.insertRow snapshot)
  match result with
  | .error failure => return .error failure
  | .ok rowsAffected =>
    match ← loadUuid id with
    | .error failure => return .error failure
    | .ok none => return .error (unavailable "INSERTED_ROW_MISSING")
    | .ok (some loaded) =>
      if rowsAffected then return .ok (.inserted loaded) else return .ok (.existing loaded)

/-- Update the row the expected revision still owns, or explain why it does not. -/
def compareAndSwapInner (expectedRevision : UInt64) (replacement : BatchJobSnapshot) :
    GatewayTask (Except BatchJobStoreFailure BatchJobUpdateOutcome) := do
  let updated : Except BatchJobStoreFailure (Option BatchJobSnapshot) ←
    Task.call (GatewayOp.updateRow expectedRevision replacement)
  match updated with
  | .error failure => return .error failure
  | .ok (some updated) => return .ok (.stored updated)
  | .ok none =>
    match ← loadUuid replacement.id with
    | .error failure => return .error failure
    | .ok none => return .ok .missing
    | .ok (some current) =>
      if current.revision = expectedRevision ∧ sameImmutable current replacement = false then
        return .error (invalidSnapshot "IMMUTABLE_IDENTITY_MISMATCH")
      else return .ok (.revisionConflict current)

/-- List one bounded page; a cursor or head which is not canonical is refused before any query. -/
def recoveryInner (after through : Option BatchJobId) (maximum : ℕ) :
    GatewayTask (Except BatchJobStoreFailure (List BatchJobSnapshot)) :=
  if ¬ maximum < 2 ^ 63 then .done (.error (invalidSnapshot "INVALID_RECOVERY_LIMIT"))
  else if after.any (fun id => !codec.isCanonical id.asStr) then
    .done (.error (invalidSnapshot "INVALID_JOB_ID"))
  else if through.any (fun id => !codec.isCanonical id.asStr) then
    .done (.error (invalidSnapshot "INVALID_JOB_ID"))
  else Task.call (GatewayOp.selectRecoveryPage after through maximum)

/-- A page is refused before any query, or is one query. -/
theorem recoveryInner_cases (after through : Option BatchJobId) (maximum : ℕ) :
    (∃ failure, recoveryInner codec after through maximum = .done (.error failure)) ∨
      recoveryInner codec after through maximum =
        Task.call (GatewayOp.selectRecoveryPage after through maximum) := by
  unfold recoveryInner
  by_cases hlimit : ¬maximum < 2 ^ 63
  · rw [if_pos hlimit]
    exact .inl ⟨_, rfl⟩
  · rw [if_neg hlimit]
    cases after.any fun id => !codec.isCanonical id.asStr with
    | true => exact .inl ⟨_, rfl⟩
    | false =>
      cases through.any fun id => !codec.isCanonical id.asStr with
      | true => exact .inl ⟨_, rfl⟩
      | false => exact .inr rfl

/-- PostgreSQL-backed durable batch ledger using optimistic revisions. -/
def postgresBatchJobStore : BatchJobStore GatewayOp GatewayOp.Reply where
  load id :=
    if codec.isCanonical id.asStr then loadUuid id
    else .done (.error (invalidSnapshot "INVALID_JOB_ID"))
  insert := insertInner
  compareAndSwap := compareAndSwapInner
  recoveryHead := Task.call GatewayOp.selectRecoveryHead
  listRecoveryCandidates after maximum := recoveryInner codec after none maximum
  listRecoveryCandidatesThrough after through maximum := recoveryInner codec after (some through) maximum

end Store

end Voicetext.Gateway.Storage
