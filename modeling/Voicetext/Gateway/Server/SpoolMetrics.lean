import Voicetext.Gateway.Server.BacklogRecovery

/-!
# The spool's metrics and who changes them

A post request adds the bytes of an accepted recording to the gauge of the spool, and whoever executes a job
subtracts them when it has removed the recording. Both are steps of their own, apart from the calls of the ledger
and the spool they belong to. Without these steps the programs are those of the batch gateway.
-/

namespace Voicetext.Gateway.Server

open Voicetext.Common Voicetext.Speech.Application Voicetext.Gateway.Storage Voicetext.Gateway.Contracts

section Metrics

/-- `u64::saturating_sub`. -/
def saturatingSub (a b : UInt64) : UInt64 := if b ≤ a then a - b else 0

theorem toNat_saturatingSub {a b : UInt64} (h : b ≤ a) : (saturatingSub a b).toNat = a.toNat - b.toNat := by
  rw [saturatingSub, if_pos h, UInt64.toNat_sub_of_le _ _ h]

/-- The counters and gauges of the spool. -/
structure SpoolMetrics where
  spoolTerminalRemoved : UInt64
  spoolOrphanRemoved : UInt64
  spoolUsedBytes : UInt64
  spoolCapacityBytes : UInt64
deriving DecidableEq

namespace SpoolMetrics

variable (metrics : SpoolMetrics)

/-- What maintenance found at startup. -/
def recordSpool (terminalRemoved orphanRemoved usedBytes capacityBytes : UInt64) : SpoolMetrics where
  spoolTerminalRemoved := metrics.spoolTerminalRemoved + terminalRemoved
  spoolOrphanRemoved := metrics.spoolOrphanRemoved + orphanRemoved
  spoolUsedBytes := usedBytes
  spoolCapacityBytes := capacityBytes

def spoolAdmitted (bytes : UInt64) : SpoolMetrics :=
  { metrics with spoolUsedBytes := metrics.spoolUsedBytes + bytes }

def spoolTerminalCleaned (bytes : UInt64) : SpoolMetrics :=
  { metrics with
    spoolTerminalRemoved := metrics.spoolTerminalRemoved + 1
    spoolUsedBytes := saturatingSub metrics.spoolUsedBytes bytes }

end SpoolMetrics

end Metrics

section Operations

/-- An interaction with the ledger, the spool or the provider, or a change of the metrics. -/
inductive MeteredOp
  | port (op : GatewayOp)
  | spoolAdmitted (bytes : UInt64)
  | spoolTerminalCleaned (bytes : UInt64)

def MeteredOp.Reply : MeteredOp → Type
  | port op => op.Reply
  | spoolAdmitted _ | spoolTerminalCleaned _ => Unit

abbrev MeteredTask (α : Type) := Task MeteredOp MeteredOp.Reply α

variable {α β : Type}

/-- A program which changes no metric. -/
def unmetered : GatewayTask α → MeteredTask α
  | .done value => .done value
  | .await op resume => .await (.port op) fun reply => unmetered (resume reply)

/-- A program without its changes of the metrics. -/
def ports : MeteredTask α → GatewayTask α
  | .done value => .done value
  | .await (.port op) resume => .await op fun reply => ports (resume reply)
  | .await (.spoolAdmitted _) resume | .await (.spoolTerminalCleaned _) resume => ports (resume ())

@[simp] theorem ports_done (value : α) : ports (.done value) = .done value := rfl

@[simp] theorem ports_unmetered (t : GatewayTask α) : ports (unmetered t) = t := by
  induction t with
  | done value => rfl
  | await op resume ih => exact congrArg (Task.await op) (funext ih)

@[simp] theorem ports_bind (t : MeteredTask α) (next : α → MeteredTask β) :
    ports (t.bind next) = (ports t).bind fun a => ports (next a) := by
  induction t with
  | done value => rfl
  | await op resume ih =>
    cases op with
    | port op => exact congrArg (Task.await op) (funext ih)
    | spoolAdmitted bytes => exact ih ()
    | spoolTerminalCleaned bytes => exact ih ()

/-- The ledger, the spool and the provider for programs which also change metrics. -/
def meteredCoordinator (codec : UuidCodec) : BatchCoordinator MeteredOp MeteredOp.Reply where
  recognizer := { recognize := fun request => unmetered (providerRecognizer.recognize request) }
  jobs :=
    { load := fun id => unmetered ((postgresBatchJobStore codec).load id)
      insert := fun id job audio duration keyterms =>
        unmetered ((postgresBatchJobStore codec).insert id job audio duration keyterms)
      compareAndSwap := fun expected replacement =>
        unmetered ((postgresBatchJobStore codec).compareAndSwap expected replacement)
      recoveryHead := unmetered (postgresBatchJobStore codec).recoveryHead
      listRecoveryCandidates := fun after maximum =>
        unmetered ((postgresBatchJobStore codec).listRecoveryCandidates after maximum)
      listRecoveryCandidatesThrough := fun after through maximum =>
        unmetered ((postgresBatchJobStore codec).listRecoveryCandidatesThrough after through maximum) }
  spool :=
    { store := fun id audio => unmetered (durableFileSpool.store id audio)
      read := fun handle => unmetered (durableFileSpool.read handle)
      remove := fun handle => unmetered (durableFileSpool.remove handle) }

end Operations

section Executions

/-- What became of the audio of a job which an execution has ended. -/
inductive TerminalCleanup
  | notRequired
  | removed
  | alreadyMissing
  | retained
deriving DecidableEq

/-- The cleanup a report tells of. -/
def terminalCleanup : Except BatchCoordinatorFailure BatchExecutionReport → TerminalCleanup
  | .ok ⟨.persisted snapshot, some cleanup⟩ =>
    if snapshot.job.state.isTerminal then
      match cleanup with
      | .ok .removed => .removed
      | .ok .alreadyMissing => .alreadyMissing
      | .error _ => .retained
    else .notRequired
  | _ => .notRequired

/-- An execution with its report and what became of the audio. -/
structure FencedExecution where
  report : Except BatchCoordinatorFailure BatchExecutionReport
  terminalCleanup : TerminalCleanup

def FencedExecution.terminalAudioRemoved (execution : FencedExecution) : Bool :=
  execution.terminalCleanup = .removed

variable (codec : UuidCodec) (numbers : WireNumbers)

/-- Execute a job whose recognizer the caller has found; what is observed of it beside the report changes neither
ledger nor spool. -/
def executeFenced (id : BatchJobId) : MeteredTask FencedExecution := do
  let report ← (meteredCoordinator codec).executeWithCleanupReport id (gatewayBatchResultProjection codec numbers)
  return ⟨report, terminalCleanup report⟩

/-- Subtract the bytes of a removed recording whose size is known. -/
def recordCleanup (execution : FencedExecution) (audioBytes : Option UInt64) : MeteredTask Unit :=
  match execution.report with
  | .ok ⟨.persisted _, _⟩ =>
    match execution.terminalAudioRemoved, audioBytes with
    | true, some bytes => Task.call (MeteredOp.spoolTerminalCleaned bytes)
    | _, _ => return ()
  | .ok ⟨.notClaimed _, _⟩ | .ok ⟨.notActionable _, _⟩ | .error _ => return ()

/-- The task a post request spawns. -/
def spawnExecution (id : BatchJobId) (audioBytes : UInt64) : MeteredTask Unit := do
  let execution ← executeFenced codec numbers id
  recordCleanup execution (some audioBytes)

end Executions

section Posts

/-- A form whose audio has been validated, and whether the gateway still takes its execution as a task. -/
structure PostedForm where
  request : BatchAdmissionRequest
  registers : Bool
  length_lt : request.audio.length < 2 ^ 64

/-- `u64::try_from(form.audio.len())`. -/
def PostedForm.audioBytes (form : PostedForm) : UInt64 := .ofNat form.request.audio.length

theorem PostedForm.toNat_audioBytes (form : PostedForm) :
    form.audioBytes.toNat = form.request.audio.length := UInt64.toNat_ofNat_of_lt' form.length_lt

variable (codec : UuidCodec) (numbers : WireNumbers)

/-- What follows an admission: an actionable job is executed, and the answer shows the snapshot. -/
def answer (form : PostedForm) (snapshot : BatchJobSnapshot) :
    MeteredTask (Except BatchCoordinatorFailure BatchJobSnapshot) := do
  if snapshot.job.state.isActionable && form.registers then
    spawnExecution codec numbers form.request.id form.audioBytes
    return .ok snapshot
  else return .ok snapshot

/-- A post request from its admission on, and the execution it spawns. -/
def post (form : PostedForm) : MeteredTask (Except BatchCoordinatorFailure BatchJobSnapshot) := do
  match ← (meteredCoordinator codec).admitBatch form.request with
  | .error failure => return .error failure
  | .ok (.accepted snapshot) =>
    let _ ← Task.call (MeteredOp.spoolAdmitted form.audioBytes)
    answer codec numbers form snapshot
  | .ok (.replay snapshot) => answer codec numbers form snapshot

end Posts

namespace Metered

variable (codec : UuidCodec) (state : BacklogGateway)

/-- Execute one candidate of the backlog as `Server.executeActionable` does, with the changes of the metrics. -/
def executeActionable (visited : ℕ) (snapshot : BatchJobSnapshot) : MeteredTask VisitOutcome :=
  match identityForProfile snapshot.job.profile with
  | none => return .unknownProfile
  | some identity =>
    if state.configured identity = false then return .unconfigured
    else if state.granted visited = false then return .noSlots
    else do
      let audio ← unmetered (durableFileSpool.read snapshot.audio)
      let audioBytes := audio.toOption.bind fun audio =>
        if audio.length < 2 ^ 64 then some (UInt64.ofNat audio.length) else none
      let execution ← executeFenced codec state.numbers snapshot.id
      recordCleanup execution audioBytes
      return .executed execution.report

def executePage (visits : List Visit) : List BatchJobSnapshot → MeteredTask (List Visit)
  | [] => return visits
  | snapshot :: rest => do
    let outcome ← executeActionable codec state visits.length snapshot
    executePage (visits ++ [⟨snapshot.id, outcome⟩]) rest

def drainPages (head : BatchJobId) : ℕ → List Visit → Option BatchJobId →
    MeteredTask (List Visit × Option (Except StartupRecoveryFailure Unit))
  | 0, visits, _ => return (visits, none)
  | fuel + 1, visits, cursor => do
    match ← unmetered
        ((postgresBatchJobStore codec).listRecoveryCandidatesThrough cursor head RESUME_PAGE_LIMIT) with
    | .error _ => return (visits, some (.error ⟨"RECOVERY_LEDGER_UNAVAILABLE"⟩))
    | .ok candidates =>
      let nextCursor := candidates.getLast?.map (·.id)
      let visits ← executePage codec state visits candidates
      if candidates.length < RESUME_PAGE_LIMIT then return (visits, some (.ok ()))
      else
        match nextCursor with
        | none => return (visits, some (.error ⟨"RECOVERY_CURSOR_MISSING"⟩))
        | some next =>
          match advanceCursor cursor next with
          | .error failure => return (visits, some (.error failure))
          | .ok _ => drainPages head fuel visits (some next)

def drainBacklog (fuel : ℕ) (head : BatchJobId) :
    MeteredTask (List Visit × Option (Except StartupRecoveryFailure Unit)) :=
  drainPages codec state head fuel [] none

end Metered

section Erasure

variable {α β : Type} {codec : UuidCodec}

theorem ports_unmetered_bind (t : GatewayTask α) {next : α → MeteredTask β} {next' : α → GatewayTask β}
    (h : ∀ a, ports (next a) = next' a) : ports ((unmetered t).bind next) = t.bind next' := by
  rw [ports_bind, ports_unmetered, funext h]

theorem ports_resolveRace (existing : BatchJobSnapshot) (request : BatchAdmissionRequest) (ownsAudio : Bool)
    (candidate : BatchAudioHandle) :
    ports ((meteredCoordinator codec).resolveRace existing request ownsAudio candidate) =
      (coordinator codec).resolveRace existing request ownsAudio candidate := by
  unfold BatchCoordinator.resolveRace
  split
  · refine ports_unmetered_bind _ fun reply => ?_
    cases reply <;> rfl
  · rfl

theorem ports_insertStored (request : BatchAdmissionRequest) (ownsAudio : Bool) (audio : BatchAudioHandle) :
    ports ((meteredCoordinator codec).insertStored request ownsAudio audio) =
      (coordinator codec).insertStored request ownsAudio audio := by
  refine ports_unmetered_bind _ fun reply => ?_
  match reply with
  | .ok (.inserted snapshot) => rfl
  | .ok (.existing existing) => exact ports_resolveRace existing request ownsAudio audio
  | .error insert =>
    refine ports_unmetered_bind _ fun reply => ?_
    match reply with
    | .ok (some existing) => exact ports_resolveRace existing request ownsAudio audio
    | .error verification => rfl
    | .ok none =>
      dsimp only
      split
      · refine ports_unmetered_bind _ fun reply => ?_
        cases reply <;> rfl
      · rfl

/-- Admissions change no metric. -/
theorem ports_admitBatch (request : BatchAdmissionRequest) :
    ports ((meteredCoordinator codec).admitBatch request) = (coordinator codec).admitBatch request := by
  refine ports_unmetered_bind _ fun reply => ?_
  match reply with
  | .error failure => rfl
  | .ok (some existing) => rfl
  | .ok none =>
    refine ports_unmetered_bind _ fun stored => ?_
    match (stored : Except BatchAudioSpoolFailure BatchAudioStoreOutcome) with
    | .error failure => rfl
    | .ok (.stored handle) => exact ports_insertStored request true handle
    | .ok (.existing handle) => exact ports_insertStored request false handle

theorem ports_persistOutcome (claimed replacement : BatchJobSnapshot) :
    ports ((meteredCoordinator codec).persistOutcome claimed replacement) =
      (coordinator codec).persistOutcome claimed replacement := by
  refine ports_unmetered_bind _ fun reply => ?_
  match reply with
  | .error failure => rfl
  | .ok (.revisionConflict current) => rfl
  | .ok .missing => rfl
  | .ok (.stored snapshot) =>
    dsimp only
    split
    · exact ports_unmetered_bind _ fun cleanup => rfl
    · rfl

/-- Executions change no metric. -/
theorem ports_executeWithCleanupReport (id : BatchJobId) (projection : BatchResultProjection) :
    ports ((meteredCoordinator codec).executeWithCleanupReport id projection) =
      (coordinator codec).executeWithCleanupReport id projection := by
  refine ports_unmetered_bind _ fun reply => ?_
  match reply with
  | .error failure => rfl
  | .ok none => rfl
  | .ok (some snapshot) =>
    dsimp only
    split
    · rfl
    refine ports_unmetered_bind _ fun audio => ?_
    cases audio with
    | error failure => rfl
    | ok audio =>
      dsimp only
      split
      · rfl
      refine ports_unmetered_bind _ fun reply => ?_
      match reply with
      | .error failure => rfl
      | .ok (.revisionConflict current) => rfl
      | .ok .missing => rfl
      | .ok (.stored claimed) =>
        refine ports_unmetered_bind _ fun recognition => ?_
        split
        · rfl
        · exact ports_persistOutcome claimed _

theorem ports_recordCleanup (execution : FencedExecution) (audioBytes : Option UInt64) :
    ports (recordCleanup execution audioBytes) = .done () := by
  unfold recordCleanup
  cases execution.terminalAudioRemoved <;> cases audioBytes <;> split <;> rfl

/-- A visit of the backlog is the one that is known, beside the metrics. -/
theorem ports_executeActionable (state : BacklogGateway) (visited : ℕ) (snapshot : BatchJobSnapshot) :
    ports (Metered.executeActionable codec state visited snapshot) =
      executeActionable codec state visited snapshot := by
  unfold Metered.executeActionable executeActionable
  cases identityForProfile snapshot.job.profile with
  | none => rfl
  | some identity =>
  cases hconfigured : state.configured identity with
  | false => simp [hconfigured]
  | true =>
  cases state.granted visited with
  | false => simp [hconfigured]
  | true =>
  simp only [hconfigured, Bool.true_eq_false, if_false]
  refine ports_unmetered_bind _ fun audio => ?_
  simp only [Task.bind_eq_bind, ports_bind, executeFenced, ports_executeWithCleanupReport, Task.bind_assoc]
  refine congrArg _ (funext fun report => ?_)
  simp only [Task.pure_eq_done, Task.bind_done, ports_recordCleanup]
  rfl

theorem ports_executePage (state : BacklogGateway) (visits : List Visit) (candidates : List BatchJobSnapshot) :
    ports (Metered.executePage codec state visits candidates) = executePage codec state visits candidates := by
  induction candidates generalizing visits with
  | nil => rfl
  | cons snapshot rest ih =>
    refine (ports_bind _ _).trans ?_
    rw [ports_executeActionable]
    exact congrArg _ (funext fun outcome => ih _)

theorem ports_drainPages (state : BacklogGateway) (head : BatchJobId) (fuel : ℕ) (visits : List Visit)
    (cursor : Option BatchJobId) :
    ports (Metered.drainPages codec state head fuel visits cursor) =
      drainPages codec state head fuel visits cursor := by
  induction fuel generalizing visits cursor with
  | zero => rfl
  | succ fuel ih =>
    refine ports_unmetered_bind _ fun reply => ?_
    cases reply with
    | error failure => rfl
    | ok candidates =>
      dsimp only
      refine (ports_bind _ _).trans ?_
      rw [ports_executePage]
      refine congrArg _ (funext fun visits => ?_)
      split
      · rfl
      cases candidates.getLast?.map (·.id) with
      | none => rfl
      | some next =>
        dsimp only
        cases advanceCursor cursor next with
        | error failure => rfl
        | ok _ => exact ih _ _

/-- The backlog worker is the one that is known, beside the metrics. -/
theorem ports_drainBacklog (state : BacklogGateway) (fuel : ℕ) (head : BatchJobId) :
    ports (Metered.drainBacklog codec state fuel head) = drainBacklog codec state fuel head :=
  ports_drainPages state head fuel [] none

/-- What follows an admission is an execution or nothing, beside the metrics. -/
theorem ports_answer (numbers : WireNumbers) (form : PostedForm) (snapshot : BatchJobSnapshot) :
    ports (answer codec numbers form snapshot) =
      if snapshot.job.state.isActionable && form.registers then
        ((coordinator codec).executeWithCleanupReport form.request.id
          (gatewayBatchResultProjection codec numbers)).bind fun _ => .done (.ok snapshot)
      else .done (.ok snapshot) := by
  unfold answer
  split
  · simp only [Task.bind_eq_bind, spawnExecution, executeFenced, ports_bind, ports_executeWithCleanupReport,
      Task.bind_assoc, Task.pure_eq_done, Task.bind_done, ports_recordCleanup, ports_done]
  · rfl

/-- A post request admits its job, beside the metrics, and then executes it or not. -/
theorem ports_post (numbers : WireNumbers) (form : PostedForm) :
    ports (post codec numbers form) = ((coordinator codec).admitBatch form.request).bind fun outcome =>
      match outcome with
      | .error failure => .done (.error failure)
      | .ok (.accepted snapshot) | .ok (.replay snapshot) => ports (answer codec numbers form snapshot) := by
  unfold post
  rw [Task.bind_eq_bind, ports_bind, ports_admitBatch]
  refine congrArg _ (funext fun outcome => ?_)
  match outcome with
  | .error failure => rfl
  | .ok (.accepted snapshot) => rfl
  | .ok (.replay snapshot) => rfl

end Erasure

end Voicetext.Gateway.Server
