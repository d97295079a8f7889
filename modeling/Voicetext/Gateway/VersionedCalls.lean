import Voicetext.Gateway.RowVersions

/-!
# What the calls of a gateway do to the versions of its rows

Whatever ledger a run started from, a call replaces only versions it has loaded or written itself. An execution
which ends without a failure of the ledger or the spool leaves no actionable version of its job which it could have
claimed: the version was claimed by the execution itself, or by whoever was faster.
-/

namespace Voicetext.Gateway

open Voicetext.Common Voicetext.Speech.Domain Voicetext.Speech.Application Voicetext.Gateway.Storage

variable {ι : Type*} [DecidableEq ι] {config : GatewayConfig} {allowed : Environment ι} {start : JobTable}
  {w : GatewayWorld ι} {i : ι}

section Ports

/-- What a call knows after a load: the newest version, which has taken the place of every other. -/
structure LoadedVersion (start : JobTable) (known : List (GatewayEvent ι)) (id : BatchJobId)
    (reply : Except BatchJobStoreFailure (Option BatchJobSnapshot)) (w : GatewayWorld ι) : Prop where
  version : ∀ snapshot, reply = .ok (some snapshot) → Version start w.history snapshot ∧ snapshot.id = id
  present : ∀ old, Version start known old → old.id = id → reply ≠ .ok none
  current : ∀ old snapshot, Version start known old → old.id = id → old.job.state.isActionable = true →
    reply = .ok (some snapshot) → old = snapshot ∨ ClaimWritten w.history old

omit [DecidableEq ι] in
theorem LoadedVersion.failed {known : List (GatewayEvent ι)} {id : BatchJobId} (failure : BatchJobStoreFailure) :
    LoadedVersion start known id (.error failure) w :=
  ⟨by simp, by simp, by simp⟩

/-- A load returns the newest version of the job's row. -/
theorem loadUuid_versioned (id : BatchJobId) :
    (versionProtocol config allowed start).Secured i (LoadedVersion start w.history id) (loadUuid id) w := by
  refine versioned_call (fun _ _ => trivial) ?_ ?_
  · intro w₁ w₂ reply choice hsub hinv _ hserve
    obtain ⟨rfl, rfl | ⟨_, failure, rfl⟩⟩ := serveQuery_cases hserve
    · refine ⟨fun snapshot hsnapshot => ?_, fun old hold hid hnone => ?_,
        fun old snapshot hold hid hactionable hsnapshot => ?_⟩
      · have hlookup := Except.ok.inj hsnapshot
        obtain ⟨-, hkey⟩ := SortedTable.lookup_eq_some_iff.mp hlookup
        exact ⟨hinv.version snapshot (SortedTable.mem_of_lookup hlookup), asStr_inj hkey⟩
      · obtain ⟨current, hcurrent, -⟩ := hinv.newest old (hold.mono hsub)
        rw [hid, Except.ok.inj hnone] at hcurrent
        cases hcurrent
      · refine (hinv.claimed old (hold.mono hsub) hactionable).imp_left fun hcurrent => ?_
        rw [hid, Except.ok.inj hsnapshot] at hcurrent
        exact (Option.some.inj hcurrent).symm
    · exact .failed failure
  · intro reply w₂ w₃ hsub h
    exact ⟨fun snapshot hsnapshot => (h.version snapshot hsnapshot).imp_left fun hversion => hversion.mono hsub,
      h.present, fun old snapshot hold hid hactionable hsnapshot =>
        (h.current old snapshot hold hid hactionable hsnapshot).imp_right fun hclaimed => hclaimed.mono hsub⟩

theorem load_versioned (id : BatchJobId) :
    (versionProtocol config allowed start).Secured i (LoadedVersion start w.history id)
      ((postgresBatchJobStore config.codec).load id) w := by
  rw [postgresBatchJobStore]
  dsimp only
  split
  · exact loadUuid_versioned id
  · exact .done fun _ _ _ => .failed _

/-- What a call knows after it proposed a replacement: a written row is the replacement, and an actionable version
is no longer current unless the ledger failed. -/
structure ReplacedVersion (start : JobTable) (prev replacement : BatchJobSnapshot)
    (written : Option BatchJobSnapshot) (failed : Prop) (w : GatewayWorld ι) : Prop where
  written : ∀ row, written = some row → Version start w.history row ∧ row.job = replacement.job
  claimed : prev.job.state.isActionable = true → ¬ failed → ClaimWritten w.history prev

omit [DecidableEq ι] in
theorem ReplacedVersion.mono {prev replacement : BatchJobSnapshot} {written : Option BatchJobSnapshot}
    {failed : Prop} {w' : GatewayWorld ι} (h : ReplacedVersion start prev replacement written failed w)
    (hsub : w.history ⊆ w'.history) : ReplacedVersion start prev replacement written failed w' :=
  ⟨fun row hrow => (h.written row hrow).imp_left fun hversion => hversion.mono hsub,
    fun hactionable hfailed => (h.claimed hactionable hfailed).mono hsub⟩

omit [DecidableEq ι] in
/-- A replacement has the immutable columns of what it replaces. -/
theorem sameImmutable_of_replaces {prev replacement : BatchJobSnapshot} (h : Replaces prev replacement) :
    sameImmutable prev replacement = true := by
  obtain ⟨hsame, -⟩ := h.sameJob
  simp [sameImmutable, hsame.id, hsame.profile, hsame.fingerprint, hsame.audio, hsame.duration, hsame.keyterms]

/-- The row a reply says was written. -/
def writtenRow (reply : Except BatchJobStoreFailure (Option BatchJobSnapshot)) : Option BatchJobSnapshot :=
  reply.toOption.join

/-- A proposed update writes the replacement over the version it replaces, which was claimed when it does not. -/
theorem updateRow_versioned {prev replacement : BatchJobSnapshot} (hprev : Version start w.history prev)
    (hreplaces : Replaces prev replacement) :
    (versionProtocol config allowed start).Secured i
      (fun reply => ReplacedVersion start prev replacement (writtenRow reply) (∃ failure, reply = .error failure))
      (Task.call (GatewayOp.updateRow prev.revision replacement)) w := by
  refine versioned_call (fun w' hsub => ⟨prev, hprev.mono hsub, rfl, hreplaces⟩) ?_ fun _ _ _ hsub h => h.mono hsub
  intro w₁ w₂ reply choice hsub hinv _ hserve
  have hprev₁ := hprev.mono hsub
  rcases serveStatement_cases hserve with ⟨row, hplan, rfl, hreply⟩ | ⟨rfl, ⟨hplan, rfl⟩ | ⟨failure, rfl⟩⟩
  · obtain ⟨-, hid, hrevision, hjob⟩ := hinv.current_of_update hprev₁ rfl hreplaces hplan
    refine ⟨fun written hwritten => ?_, fun hactionable _ => ?_⟩
    · rcases hreply with rfl | ⟨failure, rfl⟩
      · obtain rfl := Option.some.inj hwritten
        exact ⟨.inr ⟨i, List.mem_cons_self⟩, hjob⟩
      · cases hwritten
    · obtain ⟨n, hstate⟩ := claim_of_replaces hreplaces hactionable
      exact ⟨i, row, n, List.mem_cons_self, hid, hrevision, by rw [hjob, hstate]⟩
  · refine ⟨by simp [writtenRow, Except.toOption], fun hactionable _ => ?_⟩
    refine ClaimWritten.mono ?_ (List.subset_cons_self _ _)
    refine (hinv.claimed prev hprev₁ hactionable).resolve_left fun hcurrent => ?_
    rw [← hreplaces.sameJob.1.id] at hcurrent
    exact JobTable.updateRow_none hplan hcurrent ⟨rfl, sameImmutable_of_replaces hreplaces⟩
  · exact ⟨by simp [writtenRow, Except.toOption], fun _ hfailed => absurd ⟨failure, rfl⟩ hfailed⟩

/-- The row a compare-and-swap reports as stored. -/
def storedRow : Except BatchJobStoreFailure BatchJobUpdateOutcome → Option BatchJobSnapshot
  | .ok (.stored snapshot) => some snapshot
  | _ => none

/-- A compare-and-swap of a version the call knows. -/
theorem compareAndSwapInner_versioned (hinv : Versioned start w) {prev replacement : BatchJobSnapshot}
    (hprev : Version start w.history prev) (hreplaces : Replaces prev replacement) :
    (versionProtocol config allowed start).Secured i
      (fun reply => ReplacedVersion start prev replacement (storedRow reply) (∃ failure, reply = .error failure))
      (compareAndSwapInner prev.revision replacement) w := by
  refine versioned_bind (updateRow_versioned hprev hreplaces) hinv ?_
  intro result w₁ hinv₁ hreplaced hsub
  have hdone {reply : Except BatchJobStoreFailure BatchJobUpdateOutcome} {w₂ : GatewayWorld ι}
      (h : ReplacedVersion start prev replacement (storedRow reply) (∃ failure, reply = .error failure) w₂) :
      (versionProtocol config allowed start).Secured i
        (fun reply => ReplacedVersion start prev replacement (storedRow reply) (∃ failure, reply = .error failure))
        (.done reply) w₂ := .done fun _ hsub _ => h.mono hsub
  match result with
  | .error failure => exact hdone ⟨by simp [storedRow], fun _ hfailed => absurd ⟨failure, rfl⟩ hfailed⟩
  | .ok (some written) =>
    exact hdone ⟨hreplaced.written, fun hactionable _ => hreplaced.claimed hactionable (by simp)⟩
  | .ok none =>
    have hclaimed (w₂ : GatewayWorld ι) (hsub : w₁.history ⊆ w₂.history)
        (hactionable : prev.job.state.isActionable = true) : ClaimWritten w₂.history prev :=
      (hreplaced.claimed hactionable (by simp)).mono hsub
    refine versioned_bind (loadUuid_versioned _) hinv₁ fun loaded w₂ _ _ hsub₂ => ?_
    match loaded with
    | .error failure => exact hdone ⟨by simp [storedRow], fun hactionable _ => hclaimed w₂ hsub₂ hactionable⟩
    | .ok none => exact hdone ⟨by simp [storedRow], fun hactionable _ => hclaimed w₂ hsub₂ hactionable⟩
    | .ok (some current) =>
      dsimp only
      split
      · exact hdone ⟨by simp [storedRow], fun hactionable _ => hclaimed w₂ hsub₂ hactionable⟩
      · exact hdone ⟨by simp [storedRow], fun hactionable _ => hclaimed w₂ hsub₂ hactionable⟩

/-- A page lists the ledger as it was at some moment of the call. -/
theorem recoveryInner_versioned (after through : Option BatchJobId) (limit : ℕ) :
    (versionProtocol config allowed start).Secured i
      (fun reply w' => ∀ page, reply = .ok page → ∃ listed : GatewayWorld ι, Versioned start listed ∧
        w.history ⊆ listed.history ∧ listed.history ⊆ w'.history ∧
        page = JobTable.recoveryPage listed.ledger after through limit)
      (recoveryInner config.codec after through limit) w := by
  rcases recoveryInner_cases config.codec after through limit with ⟨failure, heq⟩ | heq
  · rw [heq]
    exact .done fun _ _ _ _ h => by cases h
  · rw [heq]
    refine versioned_call (fun _ _ => trivial) ?_ ?_
    · intro w₁ w₂ reply choice hsub hinv _ hserve page hpage
      obtain ⟨rfl, rfl | ⟨_, failure, rfl⟩⟩ := serveQuery_cases hserve
      · exact ⟨w₂, hinv, hsub, List.Subset.refl _, (Except.ok.inj hpage).symm⟩
      · cases hpage
    · intro reply w₂ w₃ hsub h page hpage
      obtain ⟨listed, hversioned, hafter, hbefore, heq⟩ := h page hpage
      exact ⟨listed, hversioned, hafter, List.Subset.trans hbefore hsub, heq⟩

theorem ReplacesNothing.read (handle : BatchAudioHandle) : ReplacesNothing (durableFileSpool.read handle) :=
  .call (by simp)

theorem ReplacesNothing.remove (handle : BatchAudioHandle) : ReplacesNothing (durableFileSpool.remove handle) :=
  .call (by simp)

theorem ReplacesNothing.loadUuid (id : BatchJobId) : ReplacesNothing (Storage.loadUuid id) := .call (by simp)

theorem ReplacesNothing.load (codec : UuidCodec) (id : BatchJobId) :
    ReplacesNothing ((postgresBatchJobStore codec).load id) := by
  rw [postgresBatchJobStore]
  dsimp only
  split
  · exact .loadUuid id
  · exact .done _

end Ports

section Admission

variable {codec : UuidCodec} {request : BatchAdmissionRequest} {ownsAudio : Bool} {audio : BatchAudioHandle}

theorem resolveRace_replacesNothing (existing : BatchJobSnapshot) :
    ReplacesNothing ((coordinator codec).resolveRace existing request ownsAudio audio) := by
  unfold BatchCoordinator.resolveRace
  split
  · refine .bind (.remove _) fun reply => ?_
    cases reply with
    | error failure => exact .done _
    | ok outcome => exact .done _
  · exact .done _

theorem verifyInsert_replacesNothing (insert : BatchJobStoreFailure) :
    ReplacesNothing ((coordinator codec).verifyInsert request ownsAudio audio insert) := by
  refine .bind (.load codec _) fun reply => ?_
  match reply with
  | .ok (some existing) => exact resolveRace_replacesNothing existing
  | .error verification => exact .done _
  | .ok none =>
    dsimp only
    split
    · refine .bind (.remove _) fun reply => ?_
      cases reply with
      | error failure => exact .done _
      | ok outcome => exact .done _
    · exact .done _

theorem insertStored_replacesNothing :
    ReplacesNothing ((coordinator codec).insertStored request ownsAudio audio) := by
  have hinsert : ReplacesNothing (insertInner request.id (.accept request.profile request.fingerprint) audio
      request.authoritativeDurationMillis request.keyterms) := by
    refine .bind (.call (by simp)) fun result => ?_
    match (result : Except BatchJobStoreFailure Bool) with
    | .error failure => exact .done _
    | .ok rowsAffected =>
      refine .bind (.loadUuid _) fun loaded => ?_
      match loaded with
      | .error failure => exact .done _
      | .ok none => exact .done _
      | .ok (some loaded) =>
        dsimp only
        split
        · exact .done _
        · exact .done _
  refine .bind hinsert fun reply => ?_
  match reply with
  | .ok (.inserted snapshot) => exact .done _
  | .ok (.existing existing) => exact resolveRace_replacesNothing existing
  | .error insert => exact verifyInsert_replacesNothing insert

/-- An admission replaces no row. -/
theorem admitBatch_replacesNothing : ReplacesNothing ((coordinator codec).admitBatch request) := by
  refine .bind (.load codec _) fun reply => ?_
  match reply with
  | .error failure => exact .done _
  | .ok (some existing) => exact .done _
  | .ok none =>
    refine .bind (.call (by simp)) fun stored => ?_
    match (stored : Except BatchAudioSpoolFailure BatchAudioStoreOutcome) with
    | .error failure => exact .done _
    | .ok (.stored handle) => exact insertStored_replacesNothing
    | .ok (.existing handle) => exact insertStored_replacesNothing

end Admission

section Execution

/-- Whether an execution ended with a failure of the ledger or the spool before it could claim. -/
def isPortFailure : Except BatchCoordinatorFailure BatchExecutionReport → Bool
  | .error (.store _) | .error (.spool _) => true
  | _ => false

/-- An accepted row, or a retryable one whose attempts can still be counted. -/
def Claimable (row : BatchJobSnapshot) : Prop :=
  row.job.state.isActionable = true ∧ row.job.state.attempts + 1 < 2 ^ 32

omit [DecidableEq ι] in
theorem Claimable.claim {row : BatchJobSnapshot} (h : Claimable row) :
    ∃ replacement, Speech.Application.claim row = .ok replacement := by
  obtain ⟨hactionable, hbound⟩ := h
  cases hstate : row.job.state with
  | accepted => exact ⟨_, by rw [Speech.Application.claim, BatchJob.beginSubmission, hstate]; rfl⟩
  | retryable attempt failure =>
    rw [hstate] at hbound
    have hnext : attempt.checkedSucc = some ⟨attempt.get + 1, Nat.succ_pos _, hbound⟩ := dif_pos hbound
    exact ⟨_, by rw [Speech.Application.claim, BatchJob.beginSubmission, hstate]; dsimp only; rw [hnext]; rfl⟩
  | submitting attempt => rw [hstate] at hactionable; cases hactionable
  | completed attempt => rw [hstate] at hactionable; cases hactionable
  | failed attempt failure => rw [hstate] at hactionable; cases hactionable
  | outcomeUnknown attempt reason => rw [hstate] at hactionable; cases hactionable

/-- Every claimable version of the job the call knew was claimed, unless the ledger or the spool failed. -/
def ClaimedBy (start : JobTable) (known : List (GatewayEvent ι)) (id : BatchJobId)
    (result : Except BatchCoordinatorFailure BatchExecutionReport) (w : GatewayWorld ι) : Prop :=
  isPortFailure result = false → ∀ old, Version start known old → old.id = id → Claimable old →
    ClaimWritten w.history old

omit [DecidableEq ι] in
theorem ClaimedBy.mono {known : List (GatewayEvent ι)} {id : BatchJobId} {w' : GatewayWorld ι}
    {result : Except BatchCoordinatorFailure BatchExecutionReport} (h : ClaimedBy start known id result w)
    (hsub : w.history ⊆ w'.history) : ClaimedBy start known id result w' :=
  fun hport old hold hid hclaimable => (h hport old hold hid hclaimable).mono hsub

/-- The outcome of a claim replaces the claim. -/
theorem persistOutcome_versioned (hinv : Versioned start w) {claimed replacement : BatchJobSnapshot}
    (hclaimed : Version start w.history claimed) (hreplaces : Replaces claimed replacement) :
    (versionProtocol config allowed start).Secured i (fun _ _ => True)
      ((coordinator config.codec).persistOutcome claimed replacement) w := by
  refine versioned_bind (compareAndSwapInner_versioned hinv hclaimed hreplaces) hinv ?_
  intro reply w₁ _ _ _
  match reply with
  | .error failure => exact .done fun _ _ _ => trivial
  | .ok (.revisionConflict current) => exact .done fun _ _ _ => trivial
  | .ok .missing => exact .done fun _ _ _ => trivial
  | .ok (.stored snapshot) =>
    dsimp only
    split
    · exact (ReplacesNothing.bind (.remove _) fun cleanup => .done _).secured
    · exact .done fun _ _ _ => trivial

/-- An execution claims what it can, and replaces only what it has loaded or claimed. -/
theorem execute_versioned (hinv : Versioned start w) (id : BatchJobId) (projection : BatchResultProjection) :
    (versionProtocol config allowed start).Secured i (ClaimedBy start w.history id)
      ((coordinator config.codec).executeWithCleanupReport id projection) w := by
  have hdone {result : Except BatchCoordinatorFailure BatchExecutionReport} {w' : GatewayWorld ι}
      (h : ClaimedBy start w.history id result w') :
      (versionProtocol config allowed start).Secured i (ClaimedBy start w.history id) (.done result) w' :=
    .done fun _ hsub _ => h.mono hsub
  refine versioned_bind (load_versioned id) hinv fun loaded w₁ hinv₁ hloaded _ => ?_
  match loaded with
  | .error failure => exact hdone fun hport => by cases hport
  | .ok none => exact hdone fun _ old hold hid _ => absurd rfl (hloaded.present old hold hid)
  | .ok (some snapshot) =>
    obtain ⟨hsnapshot, -⟩ := hloaded.version snapshot rfl
    have hcurrent {old : BatchJobSnapshot} (hold : Version start w.history old) (hid : old.id = id)
        (hclaimable : Claimable old) : old = snapshot ∨ ClaimWritten w₁.history old :=
      hloaded.current old snapshot hold hid hclaimable.1 rfl
    cases hactionable : snapshot.job.state.isActionable with
    | false =>
      simp only [hactionable, Bool.not_false, if_true]
      refine hdone fun _ old hold hid hclaimable => (hcurrent hold hid hclaimable).resolve_left ?_
      rintro rfl
      rw [hclaimable.1] at hactionable
      cases hactionable
    | true =>
      simp only [hactionable, Bool.not_true, Bool.false_eq_true, if_false]
      refine versioned_bind (ReplacesNothing.read snapshot.audio).secured hinv₁ fun reply w₂ hinv₂ _ hsub₂ => ?_
      match reply with
      | .error failure => exact hdone fun hport => by cases hport
      | .ok audio =>
        cases hclaim : claim snapshot with
        | error error =>
          refine hdone fun _ old hold hid hclaimable => ?_
          refine ((hcurrent hold hid hclaimable).resolve_left ?_).mono hsub₂
          rintro rfl
          obtain ⟨replacement, hreplacement⟩ := hclaimable.claim
          rw [hreplacement] at hclaim
          cases hclaim
        | ok replacement =>
          have hreplaces : Replaces snapshot replacement := .claim hclaim
          refine versioned_bind (compareAndSwapInner_versioned hinv₂ (hsnapshot.mono hsub₂) hreplaces) hinv₂ ?_
          intro reply w₃ hinv₃ hreplaced hsub₃
          have hclaimed (hreply : ∀ failure, reply ≠ .error failure) {old : BatchJobSnapshot}
              (hold : Version start w.history old) (hid : old.id = id) (hclaimable : Claimable old) :
              ClaimWritten w₃.history old := by
            rcases hcurrent hold hid hclaimable with rfl | hclaimed
            · exact hreplaced.claimed hactionable fun ⟨failure, hfailure⟩ => hreply failure hfailure
            · exact hclaimed.mono (List.Subset.trans hsub₂ hsub₃)
          match reply with
          | .error failure => exact hdone fun hport => by cases hport
          | .ok (.revisionConflict current) =>
            exact hdone fun _ old hold hid hclaimable => hclaimed (by simp) hold hid hclaimable
          | .ok .missing => exact hdone fun _ old hold hid hclaimable => hclaimed (by simp) hold hid hclaimable
          | .ok (.stored claimed) =>
            obtain ⟨hversion, hjob⟩ := hreplaced.written claimed rfl
            obtain ⟨n, -, -, rfl⟩ := claim_ok hclaim
            have hframed {t : GatewayTask (Except BatchCoordinatorFailure BatchExecutionReport)}
                (hrest : (versionProtocol config allowed start).Secured i (fun _ _ => True) t w₃) :
                (versionProtocol config allowed start).Secured i (ClaimedBy start w.history id) t w₃ := by
              refine (versioned_frame hrest).mono fun result w₄ _ hpost _ old hold hid hclaimable => ?_
              exact (hclaimed (by simp) hold hid hclaimable).mono hpost.2
            have hstate : claimed.job.state = .submitting n := by rw [hjob]
            refine hframed (versioned_bind (ReplacesNothing.call (by simp)).secured hinv₃ ?_)
            intro recognition w₄ hinv₄ _ hsub₄
            obtain ⟨outcome, happly, hsettlement⟩ :=
              applyRecognitionOutcome_settlement hstate recognition projection
            simp only [happly]
            exact persistOutcome_versioned hinv₄ (hversion.mono hsub₄) (.outcome hstate hsettlement)

end Execution

section Recovery

/-- Reconciling a page replaces listed versions which were found submitting. -/
theorem reconcileRest_versioned (hinv : Versioned start w) (report : BatchStartupRecovery)
    (candidates : List BatchJobSnapshot) (hcandidates : ∀ row ∈ candidates, Version start w.history row) :
    (versionProtocol config allowed start).Secured i (fun _ _ => True)
      ((coordinator config.codec).reconcileRest report candidates) w := by
  induction candidates generalizing report w with
  | nil => exact .done fun _ _ _ => trivial
  | cons snapshot rest ih =>
    obtain ⟨hsnapshot, hrest⟩ := List.forall_mem_cons.mp hcandidates
    have hlater {w' : GatewayWorld ι} (hsub : w.history ⊆ w'.history) :
        ∀ row ∈ rest, Version start w'.history row := fun row hrow => (hrest row hrow).mono hsub
    unfold BatchCoordinator.reconcileRest
    cases hstate : snapshot.job.state with
    | submitting n =>
      have hreplaces : Replaces snapshot (recovered snapshot) := .interrupted hstate
      refine versioned_bind (compareAndSwapInner_versioned hinv hsnapshot hreplaces) hinv ?_
      intro reply w₁ hinv₁ _ hsub
      rcases reply with failure | (stored | current | _)
      · exact .done fun _ _ _ => trivial
      · refine versioned_bind (ReplacesNothing.remove stored.audio).secured hinv₁ fun reply w₂ hinv₂ _ hsub' => ?_
        cases reply with
        | error failure => exact .done fun _ _ _ => trivial
        | ok outcome => exact ih hinv₂ _ (hlater (List.Subset.trans hsub hsub'))
      · exact ih hinv₁ _ (hlater hsub)
      · exact ih hinv₁ _ (hlater hsub)
    | _ => exact ih hinv _ hrest

theorem recoverPage_versioned (hinv : Versioned start w) (after through : Option BatchJobId) :
    (versionProtocol config allowed start).Secured i (fun _ _ => True)
      ((recoveryInner config.codec after through RECOVERY_BATCH_LIMIT).bind fun page =>
        match page with
        | .error failure => .done (.error (.store failure))
        | .ok candidates => (coordinator config.codec).reconcileCandidates candidates) w := by
  refine versioned_bind (recoveryInner_versioned after through _) hinv fun reply w₁ hinv₁ hlisted _ => ?_
  match reply with
  | .error failure => exact .done fun _ _ _ => trivial
  | .ok candidates =>
    obtain ⟨listed, hversioned, -, hsub, rfl⟩ := hlisted candidates rfl
    have hpage : ∀ row ∈ JobTable.recoveryPage listed.ledger after through RECOVERY_BATCH_LIMIT,
        Version start w₁.history row := fun row hrow =>
      (hversioned.version row (List.mem_filter.mp (List.mem_of_mem_take hrow)).1).mono hsub
    change (versionProtocol config allowed start).Secured i _ ((coordinator config.codec).reconcileCandidates _) w₁
    unfold BatchCoordinator.reconcileCandidates
    split
    · exact reconcileRest_versioned hinv₁ _ _ fun row hrow => hpage row (List.mem_of_mem_take hrow)
    · exact reconcileRest_versioned hinv₁ _ _ hpage

end Recovery

/-- Every call of the gateway replaces only versions it knows. -/
theorem program_versioned (hinv : Versioned start w) (call : GatewayCall) :
    (versionProtocol config allowed start).Secured i (fun _ _ => True) (call.program config.codec) w := by
  cases call with
  | admitBatch request => exact (admitBatch_replacesNothing.bind fun result => .done _).secured
  | execute id projection =>
    exact versioned_bind (execute_versioned hinv id projection) hinv fun _ _ _ _ _ => .done fun _ _ _ => trivial
  | recoverStartup after =>
    exact versioned_bind (recoverPage_versioned hinv after none) hinv fun _ _ _ _ _ => .done fun _ _ _ => trivial
  | recoverStartupThrough after through =>
    exact versioned_bind (recoverPage_versioned hinv after (some through)) hinv
      fun _ _ _ _ _ => .done fun _ _ _ => trivial

end Voicetext.Gateway
