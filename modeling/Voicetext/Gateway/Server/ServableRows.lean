import Voicetext.Common.TaskContracts
import Voicetext.Gateway.RowVersions
import Voicetext.Gateway.Server.ServedResponses

/-!
# Rows which can be shown

Whatever the gateway writes to its ledger can be shown to whoever asks for the job: the form of a job is posted
under a frozen profile, an execution completes a job only with a result whose response has been built before, and
all that is read back is what has been written.
-/

namespace Voicetext.Gateway.Server

open Voicetext.Common Voicetext.Speech.Domain Voicetext.Speech.Application Voicetext.Gateway.Contracts
open Voicetext.Gateway.Storage

section Rows

variable (codec : UuidCodec) (numbers : WireNumbers)

/-- A row which can be shown to whoever asks for its job. -/
def Servable (row : BatchJobSnapshot) : Prop :=
  ∃ jobId identity response, codec.canonicalUuid row.id.asStr = .ok jobId ∧
    identityForProfile row.job.profile = some identity ∧ responseForSnapshot numbers identity jobId row = .ok response

/-- A snapshot which may be handed to the ledger. -/
structure Presented (snapshot : BatchJobSnapshot) : Prop where
  profile : ∃ identity, identityForProfile snapshot.job.profile = some identity
  completed : snapshot.job.state.status = .completed → ∃ claimed recognition,
    applyRecognitionOutcome claimed recognition (gatewayBatchResultProjection codec numbers) = .ok snapshot

variable {codec numbers} {snapshot row : BatchJobSnapshot}

theorem Presented.of_profile {identity : BatchIdentity} (h : identityForProfile snapshot.job.profile = some identity)
    (hstate : snapshot.job.state.status ≠ .completed) : Presented codec numbers snapshot :=
  ⟨⟨identity, h⟩, fun hcompleted => absurd hcompleted hstate⟩

theorem Servable.profile (h : Servable codec numbers row) :
    ∃ identity, identityForProfile row.job.profile = some identity := by
  obtain ⟨_, identity, _, _, hidentity, _⟩ := h
  exact ⟨identity, hidentity⟩

/-- What is shown of a job without a result are its state and its delay. -/
theorem responseForSnapshot_congr {other : BatchJobSnapshot} {identity : BatchIdentity} {jobId : codec.Uuid}
    (hstate : other.job.state = snapshot.job.state) (hdelay : other.retryAfterMillis = snapshot.retryAfterMillis)
    (hcompleted : snapshot.job.state.status ≠ .completed) :
    responseForSnapshot numbers identity jobId other = responseForSnapshot numbers identity jobId snapshot := by
  have houtbound : outboundResponse identity jobId other = outboundResponse identity jobId snapshot := by
    unfold outboundResponse
    rw [hstate, hdelay]
    cases hjob : snapshot.job.state with
    | completed attempt =>
      rw [hjob] at hcompleted
      exact absurd rfl hcompleted
    | outcomeUnknown attempt reason => cases reason <;> rfl
    | accepted | submitting | retryable | failed => rfl
  rw [responseForSnapshot, responseForSnapshot, houtbound]

/-- The row of a snapshot which may be handed to the ledger, and can be encoded, can be shown. -/
theorem Presented.servable (h : Presented codec numbers snapshot)
    (hstorable : Storable codec numbers.toFloatText snapshot) (revision : UInt64) :
    Servable codec numbers { untyped snapshot with revision } := by
  obtain ⟨identity, hidentity⟩ := h.profile
  obtain ⟨jobId, hjobId⟩ := hstorable.id
  by_cases hstate : snapshot.job.state.status = .completed
  · obtain ⟨claimed, recognition, happlied⟩ := h.completed hstate
    obtain ⟨n, result, -, hvalid, hvalidated, rfl⟩ := completed_of_applyRecognitionOutcome happlied hstate
    obtain ⟨parsed, shown, response, hparse, hshown, hserialized⟩ := validate_eq_ok.mp hvalidated
    have hsame : parsed = jobId := by
      have hread := codec.parse_hyphenated jobId
      rw [codec.hyphenated_of_canonicalUuid hjobId] at hread
      exact Option.some.inj (hparse.symm.trans hread)
    have hprofile : shown = identity := by
      rw [identityForResult, (validResult_identity hvalid).1] at hshown
      exact Option.some.inj (hshown.symm.trans hidentity)
    subst hsame hprofile
    exact ⟨parsed, shown, _, hjobId, hidentity, responseForSnapshot_untyped rfl rfl hserialized⟩
  · have hserved : ∃ response, responseForSnapshot numbers identity jobId snapshot = .ok response :=
      responseForSnapshot_of_storable hstorable hstate identity jobId
    obtain ⟨response, hresponse⟩ := hserved
    refine ⟨jobId, identity, response, hjobId, hidentity, ?_⟩
    rw [← hresponse]
    exact responseForSnapshot_congr rfl rfl hstate

end Rows

section Contract

variable (codec : UuidCodec) (numbers : WireNumbers)

/-- What the calls hand to the ledger may be handed to it, and what they are told of can be shown. -/
def rowContract : TaskContract GatewayOp GatewayOp.Reply where
  asks
    | .insertRow snapshot | .updateRow _ snapshot => Presented codec numbers snapshot
    | _ => True
  told
    | .selectRow _, (reply : Except BatchJobStoreFailure (Option BatchJobSnapshot)) =>
      ∀ row, reply = .ok (some row) → Servable codec numbers row
    | .updateRow _ _, (reply : Except BatchJobStoreFailure (Option BatchJobSnapshot)) =>
      ∀ row, reply = .ok (some row) → Servable codec numbers row
    | .selectRecoveryPage _ _ _, (reply : Except BatchJobStoreFailure (List BatchJobSnapshot)) =>
      ∀ page, reply = .ok page → ∀ row ∈ page, Servable codec numbers row
    | _, _ => True

/-- The ledger encodes a snapshot as a record of its table. -/
def EncodesRecords (config : GatewayConfig) (numbers : WireNumbers) : Prop :=
  ∀ snapshot, config.storable snapshot = .ok () →
    ∃ record, WritableRecord.tryFrom config.codec numbers.toFloatText snapshot = .ok record

/-- Every row of the ledger can be shown. -/
def RowsServable {ι : Type*} (w : GatewayWorld ι) : Prop := ∀ row ∈ w.ledger.rows, Servable codec numbers row

variable {codec numbers} {ι : Type*} [DecidableEq ι] {config : GatewayConfig} {allowed : Environment ι}

/-- A row is inserted from a snapshot which can be encoded. -/
theorem storable_of_insertRow {table : JobTable} {snapshot row : BatchJobSnapshot}
    (h : JobTable.insertRow config.storable table snapshot = .ok (some row)) : config.storable snapshot = .ok () := by
  unfold JobTable.insertRow at h
  split at h
  · cases h
  · assumption

/-- A row is updated to a snapshot which can be encoded. -/
theorem storable_of_updateRow {table : JobTable} {expected : UInt64} {replacement row : BatchJobSnapshot}
    (h : JobTable.updateRow config.storable table expected replacement = .ok (some row)) :
    config.storable replacement = .ok () := by
  unfold JobTable.updateRow at h
  split at h
  · cases h
  split at h
  · cases h
  · assumption

/-- What a statement writes can be shown. -/
theorem servable_of_planned (hrecords : EncodesRecords config numbers) {op : GatewayOp} {table : JobTable}
    {row : BatchJobSnapshot} (hasks : (rowContract config.codec numbers).asks op)
    (h : (∃ snapshot, op = .insertRow snapshot ∧ JobTable.insertRow config.storable table snapshot = .ok (some row)) ∨
      ∃ expected replacement, op = .updateRow expected replacement ∧
        JobTable.updateRow config.storable table expected replacement = .ok (some row)) :
    Servable config.codec numbers row := by
  rcases h with ⟨snapshot, rfl, hplan⟩ | ⟨expected, replacement, rfl, hplan⟩
  · have hstorable := storable_iff.mpr (hrecords snapshot (storable_of_insertRow hplan))
    obtain ⟨-, rfl⟩ := JobTable.insertRow_some hplan
    exact Presented.servable hasks hstorable _
  · have hstorable := storable_iff.mpr (hrecords replacement (storable_of_updateRow hplan))
    obtain ⟨-, -, rfl, -⟩ := JobTable.updateRow_some hplan
    exact Presented.servable hasks hstorable _

/-- The ledger honours the contract. -/
theorem rowContract_honoured (hrecords : EncodesRecords config numbers) :
    (rowContract config.codec numbers).Honoured (gatewayService (ι := ι) config allowed)
      (RowsServable config.codec numbers) := by
  constructor
  · rintro i w op w' reply hinv hasks ⟨choice, -, hserve⟩
    rcases serve_rows hserve with ⟨hledger, -⟩ | ⟨row, rfl, hplanned⟩
    · rw [RowsServable, hledger]
      exact hinv
    · intro other hother
      rcases SortedTable.mem_putRow hother with rfl | hmem
      · exact servable_of_planned hrecords hasks hplanned
      · exact hinv other hmem
  · rintro i w op w' reply hinv hasks ⟨choice, -, hserve⟩
    cases op with
    | selectRow id =>
      intro row hrow
      obtain ⟨-, rfl | ⟨_, failure, rfl⟩⟩ := serveQuery_cases hserve
      · exact hinv row (SortedTable.mem_of_lookup (Except.ok.inj hrow))
      · cases hrow
    | selectRecoveryPage after through limit =>
      intro page hpage row hrow
      obtain ⟨-, rfl | ⟨_, failure, rfl⟩⟩ := serveQuery_cases hserve
      · obtain rfl := Except.ok.inj hpage
        exact hinv row (List.mem_filter.mp (List.mem_of_mem_take hrow)).1
      · cases hpage
    | updateRow expected replacement =>
      intro row hrow
      rcases serveStatement_cases hserve with ⟨written, hplan, -, rfl | ⟨failure, rfl⟩⟩ | ⟨-, ⟨-, rfl⟩ | ⟨failure, rfl⟩⟩
      · obtain rfl := Option.some.inj (Except.ok.inj hrow)
        exact servable_of_planned hrecords hasks (.inr ⟨expected, replacement, rfl, hplan⟩)
      · cases hrow
      · cases Except.ok.inj hrow
      · cases hrow
    | insertRow | selectRecoveryHead | storeAudio | readAudio | removeAudio | recognize => trivial

end Contract

section Calls

variable (codec : UuidCodec) (numbers : WireNumbers)

/-- A call as the handlers make it: an admission under a frozen profile, an execution with the projection of the
gateway, or a recovery. -/
def ServerCall : GatewayCall → Prop
  | .admitBatch request => ∃ identity, request.profile = profile identity
  | .execute _ projection => projection = gatewayBatchResultProjection codec numbers
  | .recoverStartup _ | .recoverStartupThrough _ _ => True

variable {codec numbers} {α : Type}

/-- A task which asks for what it may, whatever it ends with. -/
abbrev Honest (codec : UuidCodec) (numbers : WireNumbers) (t : GatewayTask α) : Prop :=
  (rowContract codec numbers).Obeys (fun _ => True) t

theorem identityForProfile_profile (identity : BatchIdentity) :
    identityForProfile (profile identity) = some identity := by
  cases identity <;> decide +kernel

theorem loadUuid_obeys (id : BatchJobId) :
    (rowContract codec numbers).Obeys (fun reply => ∀ row, reply = .ok (some row) → Servable codec numbers row)
      (loadUuid id) := .call trivial

theorem load_obeys (id : BatchJobId) :
    (rowContract codec numbers).Obeys (fun reply => ∀ row, reply = .ok (some row) → Servable codec numbers row)
      ((postgresBatchJobStore codec).load id) := by
  rw [postgresBatchJobStore]
  dsimp only
  split
  · exact loadUuid_obeys id
  · exact fun row hrow => nomatch hrow

/-- Whoever has replaced a row knows a row which can be shown. -/
theorem compareAndSwapInner_obeys {expected : UInt64} {replacement : BatchJobSnapshot}
    (h : Presented codec numbers replacement) :
    (rowContract codec numbers).Obeys (fun reply => ∀ row, reply = .ok (.stored row) → Servable codec numbers row)
      (compareAndSwapInner expected replacement) := by
  refine (TaskContract.Obeys.call h).bind fun updated hupdated => ?_
  match updated with
  | .error failure => exact fun row hrow => nomatch hrow
  | .ok (some row) =>
    intro stored hstored
    cases hstored
    exact hupdated row rfl
  | .ok none =>
    refine (loadUuid_obeys _).bind fun loaded _ => ?_
    match loaded with
    | .error failure => exact fun row hrow => nomatch hrow
    | .ok none => exact fun row hrow => nomatch hrow
    | .ok (some current) =>
      dsimp only
      split
      · exact fun row hrow => nomatch hrow
      · exact fun row hrow => nomatch hrow

theorem remove_honest (handle : BatchAudioHandle) : Honest codec numbers (durableFileSpool.remove handle) :=
  (TaskContract.Obeys.call trivial).mono fun _ _ => trivial

theorem resolveRace_honest (existing : BatchJobSnapshot) (request : BatchAdmissionRequest) (ownsAudio : Bool)
    (candidate : BatchAudioHandle) :
    Honest codec numbers ((coordinator codec).resolveRace existing request ownsAudio candidate) := by
  unfold BatchCoordinator.resolveRace
  split
  · refine (remove_honest candidate).bind fun reply _ => ?_
    cases reply <;> exact trivial
  · exact trivial

theorem verifyInsert_honest (request : BatchAdmissionRequest) (ownsAudio : Bool) (audio : BatchAudioHandle)
    (insert : BatchJobStoreFailure) :
    Honest codec numbers ((coordinator codec).verifyInsert request ownsAudio audio insert) := by
  refine (load_obeys request.id).bind fun reply _ => ?_
  match reply with
  | .ok (some existing) => exact resolveRace_honest existing request ownsAudio audio
  | .error verification => exact trivial
  | .ok none =>
    dsimp only
    split
    · refine (remove_honest audio).bind fun reply _ => ?_
      cases reply <;> exact trivial
    · exact trivial

/-- An admission inserts an accepted row under its frozen profile. -/
theorem insertStored_honest {request : BatchAdmissionRequest} {identity : BatchIdentity}
    (hprofile : request.profile = profile identity) (ownsAudio : Bool) (audio : BatchAudioHandle) :
    Honest codec numbers ((coordinator codec).insertStored request ownsAudio audio) := by
  have hpresented : Presented codec numbers (insertedSnapshot request audio) :=
    .of_profile (hprofile ▸ identityForProfile_profile identity) (by simp [insertedSnapshot, BatchJob.accept,
      BatchJobState.status])
  have hinsert : Honest codec numbers (insertInner request.id (.accept request.profile request.fingerprint) audio
      request.authoritativeDurationMillis request.keyterms) := by
    refine (TaskContract.Obeys.call hpresented).bind fun result _ => ?_
    cases result with
    | error failure => exact trivial
    | ok rowsAffected =>
      refine (loadUuid_obeys _).bind fun loaded _ => ?_
      rcases loaded with failure | _ | loaded
      · exact trivial
      · exact trivial
      · dsimp only
        split <;> exact trivial
  refine hinsert.bind fun reply _ => ?_
  rcases reply with insert | snapshot | existing
  · exact verifyInsert_honest request ownsAudio audio insert
  · exact trivial
  · exact resolveRace_honest existing request ownsAudio audio

theorem admitBatch_honest {request : BatchAdmissionRequest} {identity : BatchIdentity}
    (hprofile : request.profile = profile identity) : Honest codec numbers ((coordinator codec).admitBatch request) := by
  refine (load_obeys request.id).bind fun reply _ => ?_
  match reply with
  | .error failure => exact trivial
  | .ok (some existing) => exact trivial
  | .ok none =>
    refine TaskContract.Obeys.bind (TaskContract.Obeys.call trivial) fun stored _ => ?_
    match (stored : Except BatchAudioSpoolFailure BatchAudioStoreOutcome) with
    | .error failure => exact trivial
    | .ok (.stored handle) => exact insertStored_honest hprofile true handle
    | .ok (.existing handle) => exact insertStored_honest hprofile false handle

theorem persistOutcome_honest {claimed replacement : BatchJobSnapshot} (h : Presented codec numbers replacement) :
    Honest codec numbers ((coordinator codec).persistOutcome claimed replacement) := by
  refine (compareAndSwapInner_obeys h).bind fun reply _ => ?_
  match reply with
  | .error failure => exact trivial
  | .ok (.revisionConflict current) => exact trivial
  | .ok .missing => exact trivial
  | .ok (.stored snapshot) =>
    dsimp only
    split
    · exact (remove_honest snapshot.audio).bind fun _ _ => trivial
    · exact trivial

/-- What an outcome leaves of a claim may be handed to the ledger. -/
theorem presented_of_outcome {claimed replacement : BatchJobSnapshot} {recognition : Recognition}
    (h : Servable codec numbers claimed)
    (happlied : applyRecognitionOutcome claimed recognition (gatewayBatchResultProjection codec numbers) =
      .ok replacement) : Presented codec numbers replacement := by
  obtain ⟨n, hstate⟩ := submitting_of_applyRecognitionOutcome happlied
  obtain ⟨settled, hsettled, hsettlement⟩ :=
    applyRecognitionOutcome_settlement hstate recognition (gatewayBatchResultProjection codec numbers)
  obtain rfl := Except.ok.inj (happlied.symm.trans hsettled)
  obtain ⟨identity, hidentity⟩ := h.profile
  exact ⟨⟨identity, hsettlement.sameJob.1.profile ▸ hidentity⟩, fun _ => ⟨claimed, recognition, happlied⟩⟩

/-- An execution hands a claim to the ledger, and what an outcome leaves of it. -/
theorem execute_honest (id : BatchJobId) : Honest codec numbers
    ((coordinator codec).executeWithCleanupReport id (gatewayBatchResultProjection codec numbers)) := by
  refine (load_obeys id).bind fun reply hloaded => ?_
  rcases reply with failure | _ | snapshot
  · exact trivial
  · exact trivial
  · dsimp only
    split
    · exact trivial
    refine TaskContract.Obeys.bind (TaskContract.Obeys.call trivial) fun audio _ => ?_
    cases audio with
    | error failure => exact trivial
    | ok audio =>
      dsimp only
      cases hclaim : claim snapshot with
      | error error => exact trivial
      | ok replacement =>
        obtain ⟨identity, hidentity⟩ := (hloaded snapshot rfl).profile
        have hpresented : Presented codec numbers replacement := by
          obtain ⟨n, -, -, rfl⟩ := claim_ok hclaim
          exact .of_profile hidentity (by simp [BatchJobState.status])
        refine (compareAndSwapInner_obeys hpresented).bind fun reply hswapped => ?_
        rcases reply with failure | claimed | current | _
        · exact trivial
        · refine TaskContract.Obeys.bind (TaskContract.Obeys.call trivial) fun recognition _ => ?_
          split
          · exact trivial
          · rename_i outcome happlied
            exact persistOutcome_honest (presented_of_outcome (hswapped claimed rfl) happlied)
        · exact trivial
        · exact trivial

/-- Reconciling hands rows to the ledger which have lost nothing but their state. -/
theorem reconcileRest_honest (report : BatchStartupRecovery) (candidates : List BatchJobSnapshot)
    (h : ∀ row ∈ candidates, Servable codec numbers row) :
    Honest codec numbers ((coordinator codec).reconcileRest report candidates) := by
  induction candidates generalizing report with
  | nil => exact trivial
  | cons snapshot rest ih =>
    obtain ⟨hsnapshot, hrest⟩ := List.forall_mem_cons.mp h
    unfold BatchCoordinator.reconcileRest
    cases hstate : snapshot.job.state with
    | submitting n =>
      obtain ⟨identity, hidentity⟩ := hsnapshot.profile
      have hpresented : Presented codec numbers (recovered snapshot) := by
        rw [recovered_of_submitting hstate]
        exact .of_profile hidentity (by simp [BatchJobState.status])
      refine (compareAndSwapInner_obeys hpresented).bind fun reply _ => ?_
      rcases reply with failure | (stored | current | _)
      · exact trivial
      · refine (remove_honest stored.audio).bind fun reply _ => ?_
        cases reply with
        | error failure => exact trivial
        | ok outcome => exact ih _ hrest
      · exact ih _ hrest
      · exact ih _ hrest
    | _ => exact ih _ hrest

theorem recoverPage_honest (after through : Option BatchJobId) :
    Honest codec numbers ((recoveryInner codec after through RECOVERY_BATCH_LIMIT).bind fun page =>
      match page with
      | .error failure => .done (.error (.store failure))
      | .ok candidates => (coordinator codec).reconcileCandidates candidates) := by
  have hpage : (rowContract codec numbers).Obeys
      (fun reply => ∀ page, reply = .ok page → ∀ row ∈ page, Servable codec numbers row)
      (recoveryInner codec after through RECOVERY_BATCH_LIMIT) := by
    rcases recoveryInner_cases codec after through RECOVERY_BATCH_LIMIT with ⟨failure, heq⟩ | heq
    · rw [heq]
      exact fun page hpage => nomatch hpage
    · rw [heq]
      exact .call trivial
  refine hpage.bind fun reply hreply => ?_
  match reply with
  | .error failure => exact trivial
  | .ok candidates =>
    change Honest codec numbers ((coordinator codec).reconcileCandidates candidates)
    unfold BatchCoordinator.reconcileCandidates
    split
    · exact reconcileRest_honest _ _ fun row hrow => hreply candidates rfl row (List.mem_of_mem_take hrow)
    · exact reconcileRest_honest _ _ (hreply candidates rfl)

/-- Every call the handlers make hands to the ledger what may be handed to it. -/
theorem program_honest {call : GatewayCall} (h : ServerCall codec numbers call) :
    Honest codec numbers (call.program codec) := by
  cases call with
  | admitBatch request =>
    obtain ⟨identity, hprofile⟩ := h
    exact (admitBatch_honest hprofile).bind fun _ _ => trivial
  | execute id projection =>
    obtain rfl : projection = gatewayBatchResultProjection codec numbers := h
    exact (execute_honest id).bind fun _ _ => trivial
  | recoverStartup after => exact (recoverPage_honest after none).bind fun _ _ => trivial
  | recoverStartupThrough after through => exact (recoverPage_honest after (some through)).bind fun _ _ => trivial

variable {ι : Type*} [DecidableEq ι] {config : GatewayConfig} {allowed : Environment ι} {calls : ι → GatewayCall}
  {s : GatewayState ι}

/-- Every row of the ledger can be shown, in every interleaving of the calls the handlers make. -/
theorem rowsServable_of_reachable (hreach : Reachable config allowed calls s) (hrecords : EncodesRecords config numbers)
    (hcalls : ∀ i, ServerCall config.codec numbers (calls i)) : RowsServable config.codec numbers s.world := by
  have hkept : (rowContract config.codec numbers).Kept (RowsServable config.codec numbers) (fun _ _ => True)
      (initialState config.codec calls) := by
    refine ⟨fun row hrow => ?_, fun i => (program_honest (hcalls i)).mono fun _ _ _ _ => trivial⟩
    cases hrow
  exact (hkept.reaches (rowContract_honoured hrecords) hreach).inv

end Calls

end Voicetext.Gateway.Server
