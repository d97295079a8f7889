import Voicetext.Gateway.Server.MeteredPorts

/-!
# The metered calls against everything the others may do

Whatever the others do meanwhile, a call which is done has settled its part of the books: what it admitted was added
to the gauge, what it removed was subtracted, and the artifact it created was removed or is named by a row.
-/

namespace Voicetext.Gateway.Server

open Voicetext.Common Voicetext.Speech.Domain Voicetext.Speech.Application Voicetext.Gateway
  Voicetext.Gateway.Storage Voicetext.Gateway.Contracts

variable {ι : Type*} [DecidableEq ι] {config : GatewayConfig} {sizes : AudioSizes} {w w' : MeteredWorld ι} {i : ι}
  {created : List BatchAudioHandle}

/-- Some row names every artifact. -/
def AllNamed (handles : List BatchAudioHandle) (w : MeteredWorld ι) : Prop :=
  ∀ handle ∈ handles, w.named handle = true

/-- A call which owes nothing but artifacts that are accounted for. -/
def SettledBooks (i : ι) (w : MeteredWorld ι) : Prop := ∃ created, Owes i w created [] [] ∧ AllNamed created w

omit [DecidableEq ι] in
theorem AllNamed.grows {handles : List BatchAudioHandle} (h : AllNamed handles w) (hgrows : Grows config w w') :
    AllNamed handles w' := by
  intro handle hhandle
  obtain ⟨row, hrow, haudio⟩ := named_iff.mp (h handle hhandle)
  exact named_iff.mpr ⟨row, hgrows.recorded row hrow, haudio⟩

theorem SettledBooks.undisturbed (h : SettledBooks i w) (hrely : Undisturbed config i w w') : SettledBooks i w' := by
  obtain ⟨created, howes, hnamed⟩ := h
  exact ⟨created, howes.undisturbed hrely, hnamed.grows hrely.toGrows⟩

section Admission

/-- The row is the one of the request. -/
structure RowOf (request : BatchAdmissionRequest) (row : BatchJobSnapshot) (w : MeteredWorld ι) : Prop where
  recorded : Recorded w row
  id : row.id = request.id
  fingerprint : row.job.fingerprint = request.fingerprint

/-- What an admission leaves: the bytes of an accepted recording are to be added, otherwise nothing is owed. -/
def AdmissionPost (i : ι) (request : BatchAdmissionRequest) :
    Except BatchCoordinatorFailure BatchAdmissionOutcome → MeteredWorld ι → Prop
  | .ok (.accepted row), w =>
    RowOf request row w ∧ ∃ created, Owes i w created [request.audio.length] [] ∧ AllNamed created w
  | .ok (.replay row), w => RowOf request row w ∧ SettledBooks i w
  | .error _, w => SettledBooks i w

/-- A row which is found answers the admission. -/
theorem classifyExisting_metered {request : BatchAdmissionRequest} {existing : BatchJobSnapshot}
    (hexisting : Recorded w existing) (hid : existing.id = request.id) (hsettled : SettledBooks i w) :
    (meteredProtocol ι config sizes).Secured i (AdmissionPost i request)
      (.done (classifyExisting existing request)) w := by
  unfold classifyExisting
  split
  · rename_i hsame
    exact .done fun w' hrely _ =>
      ⟨⟨hrely.recorded existing hexisting, hid, hsame.2⟩, hsettled.undisturbed hrely⟩
  · exact .done fun w' hrely _ => hsettled.undisturbed hrely

/-- A lost admission removes its own artifact, unless the row names it. -/
theorem resolveRace_metered (hinv : MeteredInv config sizes w) {request : BatchAdmissionRequest}
    {existing : BatchJobSnapshot} {ownsAudio : Bool} {candidate : BatchAudioHandle}
    (howes : Owes i w (if ownsAudio then [candidate] else []) [] [])
    (hnew : ownsAudio = true → w.opening.holds candidate = false)
    (hnames : NamesJob config.codec candidate request.id) (hexisting : Recorded w existing)
    (hid : existing.id = request.id) :
    (meteredProtocol ι config sizes).Secured i (AdmissionPost i request)
      ((meteredCoordinator config.codec).resolveRace existing request ownsAudio candidate) w := by
  unfold BatchCoordinator.resolveRace
  cases ownsAudio with
  | false => exact classifyExisting_metered hexisting hid ⟨[], howes, by simp [AllNamed]⟩
  | true =>
    by_cases haudio : candidate = existing.audio
    · simp only [haudio, ne_eq, not_true_eq_false, decide_false, Bool.and_false, Bool.false_eq_true, if_false]
      refine classifyExisting_metered hexisting hid ⟨[candidate], howes, fun handle hhandle => ?_⟩
      rw [List.mem_singleton.mp hhandle, haudio]
      exact named_iff.mpr ⟨existing, hexisting, rfl⟩
    · simp only [ne_eq, haudio, not_false_eq_true, decide_true, Bool.and_true, if_true]
      refine metered_bind (removeCreated_metered howes (hnew rfl) hexisting (hid ▸ hnames) (Ne.symm haudio)) hinv ?_
      rintro reply w₁ _ ⟨outcome, rfl, howes₁⟩ hgrows
      exact classifyExisting_metered (hgrows.recorded existing hexisting) hid ⟨[], howes₁, by simp [AllNamed]⟩

/-- The row of a stored recording is inserted, or another one is found. -/
theorem insertStored_metered (hinv : MeteredInv config sizes w) {request : BatchAdmissionRequest}
    (hsized : (sizes.ofFingerprint request.fingerprint).toNat = request.audio.length) (ownsAudio : Bool)
    {handle : BatchAudioHandle} (howes : Owes i w (if ownsAudio then [handle] else []) [] [])
    (hnew : ownsAudio = true → w.opening.holds handle = false)
    (hholding : Holding config sizes w request.id handle request.audio.length) :
    (meteredProtocol ι config sizes).Secured i (AdmissionPost i request)
      ((meteredCoordinator config.codec).insertStored request ownsAudio handle) w := by
  refine metered_bind (insertInner_metered hinv howes hholding hsized) hinv ?_
  intro reply w₁ hinv₁ hpost hgrows
  match reply with
  | .error failure => exact hpost.elim
  | .ok (.inserted row) =>
    obtain ⟨howes₁, hrow, hid, haudio, hfingerprint⟩ := hpost
    have hnamed : AllNamed (if ownsAudio then [handle] else []) w₁ := by
      intro other hother
      have heq : other = handle := by
        cases ownsAudio with
        | true => simpa using hother
        | false => simp at hother
      exact named_iff.mpr ⟨row, hrow, heq ▸ haudio⟩
    exact .done fun w₂ hrely _ => ⟨⟨hrely.recorded row hrow, hid, hfingerprint⟩, _, howes₁.undisturbed hrely,
      hnamed.grows hrely.toGrows⟩
  | .ok (.existing row) =>
    obtain ⟨howes₁, hrow, hid⟩ := hpost
    refine resolveRace_metered hinv₁ howes₁ (fun howns => ?_) hholding.names hrow hid
    rw [hgrows.opening]
    exact hnew howns

/-- An admission which has done nothing yet. -/
theorem admitBatch_metered (hinv : MeteredInv config sizes w) {request : BatchAdmissionRequest}
    (hfingerprint : (sizes.ofFingerprint request.fingerprint).toNat = request.audio.length)
    (hdigest : (sizes.ofDigest (config.digest request.audio)).toNat = request.audio.length)
    (howes : Owes i w [] [] []) :
    (meteredProtocol ι config sizes).Secured i (AdmissionPost i request)
      ((meteredCoordinator config.codec).admitBatch request) w := by
  refine metered_bind (load_metered howes request.id) hinv ?_
  rintro reply w₁ hinv₁ ⟨howes₁, hfound⟩ -
  match reply with
  | .error failure => exact .done fun w₂ hrely _ => ⟨[], howes₁.undisturbed hrely, by simp [AllNamed]⟩
  | .ok (some existing) =>
    obtain ⟨hexisting, hid⟩ := hfound existing rfl
    exact classifyExisting_metered hexisting hid ⟨[], howes₁, by simp [AllNamed]⟩
  | .ok none =>
    refine metered_bind (store_metered howes₁ request.id hdigest) hinv₁ ?_
    intro stored w₂ hinv₂ hpost _
    match (stored : Except BatchAudioSpoolFailure BatchAudioStoreOutcome) with
    | .error failure => exact hpost.elim
    | .ok (.stored handle) =>
      exact insertStored_metered hinv₂ hfingerprint true hpost.1 (fun _ => hpost.2.1) hpost.2.2
    | .ok (.existing handle) =>
      exact insertStored_metered hinv₂ hfingerprint false hpost.1 (by simp) hpost.2

end Admission

section Execution

/-- A provider outcome does not change the audio of its job. -/
theorem audio_of_applyRecognitionOutcome {snapshot replacement : BatchJobSnapshot} {recognition : Recognition}
    {projection : BatchResultProjection}
    (h : applyRecognitionOutcome snapshot recognition projection = .ok replacement) :
    replacement.audio = snapshot.audio := by
  have hmap {α : Type} {x : Except BatchTransitionError α} {f : α → BatchJobSnapshot}
      (hx : x.map f = .ok replacement) (hf : ∀ a, (f a).audio = snapshot.audio) :
      replacement.audio = snapshot.audio := by
    cases x with
    | error error => cases hx
    | ok a =>
      rw [← Except.ok.inj hx]
      exact hf a
  match recognition with
  | .ok result =>
    simp only [applyRecognitionOutcome] at h
    split at h
    · exact hmap h fun _ => rfl
    · exact hmap h fun _ => rfl
  | .error (.knownNotAccepted retryable code providerReference retryAfterMillis) =>
    simp only [applyRecognitionOutcome] at h
    split at h
    · exact hmap h fun _ => rfl
    · exact hmap h fun _ => rfl
  | .error (.knownAcceptedTerminal code providerReference) => exact hmap h fun _ => rfl
  | .error (.unknownAfterSend code providerReference) => exact hmap h fun _ => rfl

/-- The ledger has a row of this job, with audio of this length. -/
def HasBytes (config : GatewayConfig) (sizes : AudioSizes) (w : MeteredWorld ι) (id : BatchJobId) (bytes : ℕ) :
    Prop :=
  ∃ row, Recorded w row ∧ row.id = id ∧ sizes.ofHandle config.codec row.audio = bytes

/-- The bytes a cleanup leaves to be subtracted. -/
def cleanedBytes (bytes : ℕ) (cleanup : TerminalCleanup) : List ℕ := if cleanup = .removed then [bytes] else []

/-- What an execution leaves: the bytes of a removed recording are to be subtracted, otherwise nothing is owed. -/
def ExecutionPost (i : ι) (created : List BatchAudioHandle) (bytes : ℕ)
    (report : Except BatchCoordinatorFailure BatchExecutionReport) (w : MeteredWorld ι) : Prop :=
  Owes i w created [] (cleanedBytes bytes (terminalCleanup report))

theorem ExecutionPost.done {bytes : ℕ} {report : Except BatchCoordinatorFailure BatchExecutionReport}
    (h : ExecutionPost i created bytes report w) :
    (meteredProtocol ι config sizes).Secured i (ExecutionPost i created bytes) (.done report) w :=
  .done fun _ hrely _ => Owes.undisturbed h hrely

theorem persistOutcome_metered (hinv : MeteredInv config sizes w) (howes : Owes i w created [] [])
    {claimed replacement : BatchJobSnapshot} {bytes : ℕ} (hintact : Intact config w replacement.audio)
    (hsize : sizes.ofHandle config.codec replacement.audio = bytes) :
    (meteredProtocol ι config sizes).Secured i (ExecutionPost i created bytes)
      ((meteredCoordinator config.codec).persistOutcome claimed replacement) w := by
  refine metered_bind (compareAndSwapInner_metered hinv howes _ _) hinv ?_
  rintro reply w₁ hinv₁ ⟨howes₁, hstored⟩ hgrows
  match reply with
  | .error failure => exact ExecutionPost.done howes₁
  | .ok (.revisionConflict current) => exact ExecutionPost.done howes₁
  | .ok .missing => exact ExecutionPost.done howes₁
  | .ok (.stored snapshot) =>
    obtain ⟨hrow, hsame⟩ := hstored snapshot rfl
    cases hterminal : snapshot.job.state.isTerminal with
    | false =>
      simp only [hterminal, Bool.false_eq_true, if_false]
      exact ExecutionPost.done howes₁
    | true =>
      simp only [hterminal, if_true]
      refine metered_bind (removeRecorded_metered howes₁ hrow ?_) hinv₁ ?_
      · rw [hsame.audio]
        exact hgrows.intact _ hintact
      · rintro cleanup w₂ _ ⟨outcome, rfl, howes₂⟩ -
        rw [hsame.audio, hsize] at howes₂
        refine ExecutionPost.done ?_
        cases outcome with
        | removed => simpa [ExecutionPost, terminalCleanup, hterminal, cleanedBytes] using howes₂
        | alreadyMissing => simpa [ExecutionPost, terminalCleanup, hterminal, cleanedBytes] using howes₂

/-- An execution of a job whose audio has a known length. -/
theorem execute_metered (hinv : MeteredInv config sizes w) (howes : Owes i w created [] []) {id : BatchJobId}
    {bytes : ℕ} (hbytes : HasBytes config sizes w id bytes) (projection : BatchResultProjection) :
    (meteredProtocol ι config sizes).Secured i (ExecutionPost i created bytes)
      ((meteredCoordinator config.codec).executeWithCleanupReport id projection) w := by
  obtain ⟨row, hrow, hid, hsize⟩ := hbytes
  refine metered_bind (load_metered howes id) hinv ?_
  rintro reply w₁ hinv₁ ⟨howes₁, hfound⟩ hgrows₁
  match reply with
  | .error failure => exact ExecutionPost.done howes₁
  | .ok none => exact ExecutionPost.done howes₁
  | .ok (some snapshot) =>
    obtain ⟨hsnapshot, hsnapshotId⟩ := hfound snapshot rfl
    have haudio := (hgrows₁.recorded row hrow).unique hsnapshot (hsnapshotId.trans hid.symm)
    cases hactionable : snapshot.job.state.isActionable with
    | false =>
      simp only [hactionable, Bool.not_false, if_true]
      exact ExecutionPost.done howes₁
    | true =>
      simp only [hactionable, Bool.not_true, Bool.false_eq_true, if_false]
      refine metered_bind (read_metered howes₁ snapshot.audio) hinv₁ ?_
      rintro reply w₂ hinv₂ ⟨howes₂, hintact, audio, rfl, -⟩ -
      dsimp only
      cases hclaim : claim snapshot with
      | error error => exact ExecutionPost.done howes₂
      | ok replacement =>
        obtain ⟨n, -, -, rfl⟩ := claim_ok hclaim
        refine metered_bind (compareAndSwapInner_metered hinv₂ howes₂ _ _) hinv₂ ?_
        rintro reply w₃ hinv₃ ⟨howes₃, hstored⟩ hgrows₃
        match reply with
        | .error failure => exact ExecutionPost.done howes₃
        | .ok (.revisionConflict current) => exact ExecutionPost.done howes₃
        | .ok .missing => exact ExecutionPost.done howes₃
        | .ok (.stored claimed) =>
          obtain ⟨-, hsame⟩ := hstored claimed rfl
          have hclaimed : claimed.audio = snapshot.audio := hsame.audio
          refine metered_bind (recognize_metered howes₃ _) hinv₃ ?_
          intro recognition w₄ hinv₄ howes₄ hgrows₄
          cases happly : applyRecognitionOutcome claimed recognition projection with
          | error error => exact ExecutionPost.done howes₄
          | ok outcome =>
            have houtcome : outcome.audio = snapshot.audio :=
              (audio_of_applyRecognitionOutcome happly).trans hclaimed
            refine persistOutcome_metered hinv₄ howes₄ ?_ ?_
            · rw [houtcome]
              exact hgrows₄.intact _ (hgrows₃.intact _ hintact)
            · rw [houtcome, haudio, hsize]

variable {numbers : WireNumbers}

/-- An execution with the step of the metrics that belongs to it settles what it owes. -/
theorem recordCleanup_metered {execution : FencedExecution} {bytes : ℕ} {audioBytes : UInt64}
    (hcleanup : execution.terminalCleanup = terminalCleanup execution.report) (hbytes : audioBytes.toNat = bytes)
    (howes : Owes i w created [] (cleanedBytes bytes execution.terminalCleanup)) :
    (meteredProtocol ι config sizes).Secured i (fun _ w' => Owes i w' created [] [])
      (recordCleanup execution (some audioBytes)) w := by
  have hdone (hother : execution.terminalCleanup ≠ .removed) :
      (meteredProtocol ι config sizes).Secured i (fun _ w' => Owes i w' created [] []) (.done ()) w := by
    rw [cleanedBytes, if_neg hother] at howes
    exact .done fun w' hrely _ => howes.undisturbed hrely
  unfold recordCleanup
  by_cases hremoved : execution.terminalCleanup = .removed
  · rw [cleanedBytes, if_pos hremoved, ← hbytes] at howes
    have hflag : execution.terminalAudioRemoved = true := decide_eq_true hremoved
    rw [hremoved] at hcleanup
    match hreport : execution.report with
    | .ok ⟨.persisted snapshot, cleanup⟩ =>
      simp only [hflag]
      exact spoolTerminalCleaned_metered howes
    | .ok ⟨.notClaimed current, cleanup⟩ => rw [hreport] at hcleanup; cases hcleanup
    | .ok ⟨.notActionable current, cleanup⟩ => rw [hreport] at hcleanup; cases hcleanup
    | .error failure => rw [hreport] at hcleanup; cases hcleanup
  · have hflag : execution.terminalAudioRemoved = false := decide_eq_false hremoved
    split
    · simp only [hflag]
      exact hdone hremoved
    all_goals exact hdone hremoved

theorem executeFenced_metered (hinv : MeteredInv config sizes w) (howes : Owes i w created [] []) {id : BatchJobId}
    {bytes : ℕ} (hbytes : HasBytes config sizes w id bytes) :
    (meteredProtocol ι config sizes).Secured i
      (fun execution w' => execution.terminalCleanup = terminalCleanup execution.report ∧
        Owes i w' created [] (cleanedBytes bytes execution.terminalCleanup))
      (executeFenced config.codec numbers id) w :=
  (execute_metered hinv howes hbytes _).map fun _ _ _ h => ⟨rfl, h⟩

theorem spawnExecution_metered (hinv : MeteredInv config sizes w) (howes : Owes i w created [] []) {id : BatchJobId}
    {audioBytes : UInt64} (hbytes : HasBytes config sizes w id audioBytes.toNat) :
    (meteredProtocol ι config sizes).Secured i (fun _ w' => Owes i w' created [] [])
      (spawnExecution config.codec numbers id audioBytes) w := by
  refine metered_bind (executeFenced_metered hinv howes hbytes) hinv ?_
  rintro execution w₁ hinv₁ ⟨hcleanup, howes₁⟩ -
  exact recordCleanup_metered hcleanup rfl howes₁

end Execution

section Post

variable {numbers : WireNumbers}

/-- What a post request does once its job has a row. -/
theorem answer_metered (hinv : MeteredInv config sizes w) {form : PostedForm}
    (hfingerprint : (sizes.ofFingerprint form.request.fingerprint).toNat = form.request.audio.length)
    {row : BatchJobSnapshot} (hrow : RowOf form.request row w) (hsettled : SettledBooks i w) :
    (meteredProtocol ι config sizes).Secured i (fun _ w' => SettledBooks i w')
      (answer config.codec numbers form row) w := by
  unfold answer
  split
  · obtain ⟨created, howes, hnamed⟩ := hsettled
    refine metered_bind (spawnExecution_metered hinv howes ⟨row, hrow.recorded, hrow.id, ?_⟩) hinv ?_
    · rw [hinv.sizedRows row hrow.recorded, hrow.fingerprint, hfingerprint, form.toNat_audioBytes]
    · intro _ w₁ _ howes₁ hgrows
      exact .done fun w₂ hrely _ =>
        ⟨created, howes₁.undisturbed hrely, (hnamed.grows hgrows).grows hrely.toGrows⟩
  · exact .done fun w₁ hrely _ => hsettled.undisturbed hrely

/-- A post request which has done nothing yet. -/
theorem post_metered (hinv : MeteredInv config sizes w) {form : PostedForm}
    (hfingerprint : (sizes.ofFingerprint form.request.fingerprint).toNat = form.request.audio.length)
    (hdigest : (sizes.ofDigest (config.digest form.request.audio)).toNat = form.request.audio.length)
    (howes : Owes i w [] [] []) :
    (meteredProtocol ι config sizes).Secured i (fun _ w' => SettledBooks i w') (post config.codec numbers form) w := by
  refine metered_bind (admitBatch_metered hinv hfingerprint hdigest howes) hinv ?_
  intro result w₁ hinv₁ hpost _
  match result with
  | .error failure => exact .done fun w₂ hrely _ => SettledBooks.undisturbed hpost hrely
  | .ok (.replay row) => exact answer_metered hinv₁ hfingerprint hpost.1 hpost.2
  | .ok (.accepted row) =>
    obtain ⟨hrow, created, howes₁, hnamed⟩ := hpost
    rw [← form.toNat_audioBytes] at howes₁
    refine metered_bind (spoolAdmitted_metered howes₁) hinv₁ ?_
    intro _ w₂ hinv₂ howes₂ hgrows
    exact answer_metered hinv₂ hfingerprint ⟨hgrows.recorded row hrow.recorded, hrow.id, hrow.fingerprint⟩
      ⟨created, howes₂, hnamed.grows hgrows⟩

end Post

section Worker

variable {state : BacklogGateway}

/-- A visit of a recorded row owes nothing afterwards. -/
theorem executeActionable_metered (hinv : MeteredInv config sizes w) (howes : Owes i w [] [] []) (visited : ℕ)
    {snapshot : BatchJobSnapshot} (hsnapshot : Recorded w snapshot) :
    (meteredProtocol ι config sizes).Secured i (fun _ w' => Owes i w' [] [] [])
      (Metered.executeActionable config.codec state visited snapshot) w := by
  have hdone (outcome : VisitOutcome) : (meteredProtocol ι config sizes).Secured i
      (fun _ w' => Owes i w' [] [] []) (.done outcome) w := .done fun w' hrely _ => howes.undisturbed hrely
  unfold Metered.executeActionable
  split
  · exact hdone _
  split
  · exact hdone _
  split
  · exact hdone _
  refine metered_bind (read_metered howes snapshot.audio) hinv ?_
  rintro reply w₁ hinv₁ ⟨howes₁, -, audio, rfl, hlength, hbound⟩ hgrows
  have hbytes : (UInt64.ofNat audio.length).toNat = audio.length := UInt64.toNat_ofNat_of_lt' hbound
  simp only [Except.toOption, Option.bind_some, hbound, if_true]
  refine metered_bind (executeFenced_metered hinv₁ howes₁
    ⟨snapshot, hgrows.recorded snapshot hsnapshot, rfl, hlength.symm⟩) hinv₁ ?_
  rintro execution w₂ hinv₂ ⟨hcleanup, howes₂⟩ -
  refine metered_bind (recordCleanup_metered hcleanup hbytes howes₂) hinv₂ ?_
  exact fun _ w₃ _ howes₃ _ => .done fun w₄ hrely _ => howes₃.undisturbed hrely

theorem executePage_metered (hinv : MeteredInv config sizes w) (howes : Owes i w [] [] [])
    {candidates : List BatchJobSnapshot} (hcandidates : ∀ row ∈ candidates, Recorded w row) (visits : List Visit) :
    (meteredProtocol ι config sizes).Secured i (fun _ w' => Owes i w' [] [] [])
      (Metered.executePage config.codec state visits candidates) w := by
  induction candidates generalizing visits w with
  | nil => exact .done fun w' hrely _ => howes.undisturbed hrely
  | cons snapshot rest ih =>
    obtain ⟨hsnapshot, hrest⟩ := List.forall_mem_cons.mp hcandidates
    refine metered_bind (executeActionable_metered hinv howes visits.length hsnapshot) hinv ?_
    exact fun _ w₁ hinv₁ howes₁ hgrows => ih hinv₁ howes₁ (fun row hrow => hgrows.recorded row (hrest row hrow)) _

/-- The page loop owes nothing between two pages, so it owes nothing at its end. -/
theorem drainPages_metered (hinv : MeteredInv config sizes w) (howes : Owes i w [] [] []) (head : BatchJobId)
    (fuel : ℕ) (visits : List Visit) (cursor : Option BatchJobId) :
    (meteredProtocol ι config sizes).Secured i (fun _ w' => Owes i w' [] [] [])
      (Metered.drainPages config.codec state head fuel visits cursor) w := by
  have hdone {w₁ : MeteredWorld ι} (howes₁ : Owes i w₁ [] [] [])
      (result : List Visit × Option (Except StartupRecoveryFailure Unit)) :
      (meteredProtocol ι config sizes).Secured i (fun _ w' => Owes i w' [] [] []) (.done result) w₁ :=
    .done fun w' hrely _ => howes₁.undisturbed hrely
  induction fuel generalizing visits cursor w with
  | zero => exact hdone howes _
  | succ fuel ih =>
    refine metered_bind (recoveryInner_metered howes cursor (some head) RESUME_PAGE_LIMIT) hinv ?_
    rintro reply w₁ hinv₁ ⟨howes₁, hpage⟩ -
    cases reply with
    | error failure => exact hdone howes₁ _
    | ok candidates =>
      refine metered_bind (executePage_metered hinv₁ howes₁ (hpage candidates rfl) visits) hinv₁ ?_
      intro visits' w₂ hinv₂ howes₂ _
      split
      · exact hdone howes₂ _
      split
      · exact hdone howes₂ _
      split
      · exact hdone howes₂ _
      · exact ih hinv₂ howes₂ _ _

end Worker

end Voicetext.Gateway.Server
