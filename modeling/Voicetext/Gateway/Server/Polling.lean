import Mathlib.Tactic.FinCases
import Voicetext.Gateway.LedgerSnapshots
import Voicetext.Gateway.Server.ServableRows

/-!
# Polling for a job

A job whose admission was acknowledged is shown to every authenticated poll of its identity for as long as the
ledger answers, and once it was shown as finished it is shown with the same document for ever, whatever executions
and recoveries come after and whoever is cut off.
-/

namespace Voicetext.Gateway.Server

open Voicetext.Common Voicetext.Speech.Domain Voicetext.Speech.Application Voicetext.Gateway.Contracts
open Voicetext.Gateway.Storage

section Handler

/-- Who asks, and what the gateway knows a machine token by. -/
structure HttpCaller where
  sha256 : List UInt8 → Sha256Digest
  expected : MachineSecret
  headers : HeaderMap

def HttpCaller.authenticated (caller : HttpCaller) : Except AuthenticationError Unit :=
  authenticate caller.sha256 caller.headers caller.expected

variable (codec : UuidCodec) (numbers : WireNumbers)

/-- What a loaded row is answered with. -/
def showLoaded (jobUuid : codec.Uuid) :
    Except BatchJobStoreFailure (Option BatchJobSnapshot) → Except GatewayHttpError HttpResponse
  | .error _ => .error (.unavailable "DATABASE_UNAVAILABLE")
  | .ok none => .error .notFound
  | .ok (some snapshot) =>
    match identityForProfile snapshot.job.profile with
    | none => .error (.unavailable "INVALID_JOB_SNAPSHOT")
    | some identity => responseForSnapshot numbers identity jobUuid snapshot

/-- Load a job by its public identity (`get`). -/
def getJob (caller : HttpCaller) (jobIdPath : String) : GatewayTask (Except GatewayHttpError HttpResponse) :=
  match caller.authenticated with
  | .error reason => .done (.error (.unauthorized reason))
  | .ok () =>
    match codec.parseStr jobIdPath with
    | none => .done (.error .notFound)
    | some jobUuid =>
      if codec.hyphenated jobUuid ≠ jobIdPath then .done (.error .notFound)
      else
        ((postgresBatchJobStore codec).load ⟨codec.hyphenated jobUuid⟩).bind fun loaded =>
          .done (showLoaded codec numbers jobUuid loaded)

end Handler

section Polls

variable {ι : Type*} [DecidableEq ι] {config : GatewayConfig} {numbers : WireNumbers} {caller : HttpCaller}
  {calls : ι → GatewayCall} {s s' : GatewayState ι} {id : BatchJobId}
  {answer : Except GatewayHttpError HttpResponse}

/-- A poll of a job in some state is answered. -/
def Polled (config : GatewayConfig) (numbers : WireNumbers) (caller : HttpCaller) (s : GatewayState ι) (id : BatchJobId)
    (answer : Except GatewayHttpError HttpResponse) : Prop :=
  ∃ i w', Task.Solo (gatewayService config unrestricted i) s.world (getJob config.codec numbers caller id.asStr) w' answer

/-- An admission of the job has returned, and not with a failure. -/
def Acknowledged (calls : ι → GatewayCall) (s : GatewayState ι) (id : BatchJobId) : Prop :=
  ∃ i request outcome, calls i = .admitBatch request ∧ request.id = id ∧
    s.pool i = .done (some (.admission (.ok outcome)))

/-- A poll shows the row of its job, or the ledger has failed. -/
theorem Polled.shows (h : Polled config numbers caller s id answer) (hcaller : caller.authenticated = .ok ())
    {jobId : config.codec.Uuid} (hid : config.codec.canonicalUuid id.asStr = .ok jobId) :
    answer = .error (.unavailable "DATABASE_UNAVAILABLE") ∨
      answer = showLoaded config.codec numbers jobId (.ok (s.world.ledger.lookup id.asStr)) := by
  obtain ⟨i, w', hrun⟩ := h
  have hhyphenated := config.codec.hyphenated_of_canonicalUuid hid
  have hparse : config.codec.parseStr id.asStr = some jobId :=
    hhyphenated ▸ config.codec.parse_hyphenated jobId
  have hcanonical : config.codec.isCanonical id.asStr = true := by
    rw [UuidCodec.isCanonical, hid]
    rfl
  have hsame : (⟨config.codec.hyphenated jobId⟩ : BatchJobId) = id := asStr_inj hhyphenated
  rw [getJob, hcaller] at hrun
  dsimp only at hrun
  rw [hparse] at hrun
  dsimp only at hrun
  rw [if_neg (not_not.mpr hhyphenated), hsame, postgresBatchJobStore] at hrun
  dsimp only at hrun
  rw [if_pos hcanonical, loadUuid] at hrun
  obtain ⟨w₁, loaded, hload, hdone⟩ := Task.solo_bind.mp hrun
  obtain ⟨choice, -, hserve⟩ := Task.solo_call.mp hload
  obtain ⟨-, rfl⟩ := Task.solo_done.mp hdone
  obtain ⟨-, rfl | ⟨-, failure, rfl⟩⟩ := serveQuery_cases hserve
  · exact .inr rfl
  · exact .inl rfl

/-- A pending job is answered with a status of its own. -/
theorem status_of_pending {codec : UuidCodec} {identity : BatchIdentity} {jobId : codec.Uuid}
    {nextAction : NextAction} {retryAfterMs : UInt64} {response : SerializedBatchResponse}
    (h : BatchOutbound.serializeResponse numbers identity (.pending jobId nextAction retryAfterMs) = .ok response) :
    response.status = .accepted := by
  obtain ⟨⟨status, doc⟩, hdocument, h⟩ := bind_eq_ok.mp h
  obtain ⟨_, h⟩ := require_bind_eq_ok.mp h
  obtain rfl := Except.ok.inj h
  cases identity with
  | deepgramNova3MultiV2 =>
    obtain ⟨_, hdocument⟩ := require_bind_eq_ok.mp hdocument
    exact (congrArg Prod.fst (Except.ok.inj hdocument)).symm
  | elevenlabsScribeV2MultiV3 =>
    obtain ⟨_, hdocument⟩ := require_bind_eq_ok.mp hdocument
    exact (congrArg Prod.fst (Except.ok.inj hdocument)).symm

/-- What is shown as finished is finished. -/
theorem isTerminal_of_shown {codec : UuidCodec} {identity : BatchIdentity} {jobId : codec.Uuid}
    {row : BatchJobSnapshot} {response : HttpResponse}
    (h : responseForSnapshot numbers identity jobId row = .ok response) (hstatus : response.status = 200) :
    row.job.state.isTerminal = true := by
  obtain ⟨outbound, houtbound, h⟩ := bind_eq_ok.mp h
  obtain ⟨serialized, hserialized, h⟩ := bind_eq_ok.mp h
  obtain rfl := Except.ok.inj h
  have hpending {nextAction : NextAction} {delay : UInt64} : outbound ≠ .pending jobId nextAction delay := by
    rintro rfl
    have haccepted := status_of_pending (mapErr_eq_ok.mp hserialized)
    rw [haccepted] at hstatus
    cases hstatus
  unfold outboundResponse at houtbound
  cases hstate : row.job.state with
  | accepted | submitting | retryable =>
    rw [hstate] at houtbound
    exact absurd (Except.ok.inj houtbound).symm hpending
  | completed | failed | outcomeUnknown => rfl

/-- A job which was acknowledged has a row from then on. -/
theorem Acknowledged.row (h : Acknowledged calls s id) (hreach : Reachable config unrestricted calls s)
    (hlater : PoolReaches (gatewayService config unrestricted) s s') :
    ∃ row, s'.world.ledger.lookup id.asStr = some row := by
  obtain ⟨i, request, outcome, hcall, rfl, hdone⟩ := h
  obtain ⟨answer, hanswer, hpost⟩ := (hreach.returned hdone).admission request hcall
  cases hanswer
  have hheld : ∃ snapshot, Held s.world.history snapshot ∧ snapshot.id = request.id := by
    cases outcome with
    | accepted snapshot => exact ⟨snapshot, (hpost.accepted snapshot rfl).2⟩
    | replay snapshot =>
      obtain ⟨hheld, hid, -⟩ := hpost.replay snapshot rfl
      exact ⟨snapshot, hheld, hid⟩
  obtain ⟨snapshot, hheld, hid⟩ := hheld
  obtain ⟨newer, hnewer⟩ := history_grows hlater
  have hinv' := (hreach.later hlater).inv
  obtain ⟨current, hcurrent, -⟩ := hinv'.justified.precedes (hheld.mono (hnewer ▸ List.subset_append_right _ _))
  exact ⟨current, by rw [hinv'.agrees, ← hid, hcurrent]⟩

/-- A finished row stays as it is. -/
theorem lookup_of_terminal (hreach : Reachable config unrestricted calls s)
    (hlater : PoolReaches (gatewayService config unrestricted) s s') {row : BatchJobSnapshot}
    (hrow : s.world.ledger.lookup id.asStr = some row) (hterminal : row.job.state.isTerminal = true) :
    s'.world.ledger.lookup id.asStr = some row := by
  have hinv' := (hreach.later hlater).inv
  rw [hreach.inv.agrees] at hrow
  obtain ⟨hheld, rfl⟩ := held_of_latest hrow
  obtain ⟨newer, hnewer⟩ := history_grows hlater
  obtain ⟨current, hcurrent, hprecedes⟩ :=
    hinv'.justified.precedes (hheld.mono (hnewer ▸ List.subset_append_right _ _))
  rw [hinv'.agrees, hcurrent, hprecedes.terminal hterminal]

/-- A row which can be shown is shown to a poll of its job. -/
theorem Servable.shown {codec : UuidCodec} {row : BatchJobSnapshot} (h : Servable codec numbers row)
    {jobId : codec.Uuid} (hid : codec.canonicalUuid row.id.asStr = .ok jobId) :
    ∃ identity response, responseForSnapshot numbers identity jobId row = .ok response ∧
      showLoaded codec numbers jobId (.ok (some row)) = .ok response := by
  obtain ⟨other, identity, response, hother, hidentity, hresponse⟩ := h
  obtain rfl := Except.ok.inj (hother.symm.trans hid)
  refine ⟨identity, response, hresponse, ?_⟩
  rw [showLoaded, hidentity]
  exact hresponse

/-- Once an admission of a job was acknowledged, a poll of it by whoever is authenticated is answered with a document
unless the ledger fails; and once it was answered with a finished job, every later poll is answered with the same
document. -/
theorem acknowledged_polled (hrecords : EncodesRecords config numbers)
    (hcalls : ∀ i, ServerCall config.codec numbers (calls i)) (hreach : Reachable config unrestricted calls s)
    (hacknowledged : Acknowledged calls s id) (hcaller : caller.authenticated = .ok ())
    (hlater : PoolReaches (gatewayService config unrestricted) s s')
    (hpolled : Polled config numbers caller s' id answer) :
    (answer = .error (.unavailable "DATABASE_UNAVAILABLE") ∨ ∃ response, answer = .ok response) ∧
      ∀ finished, Polled config numbers caller s id (.ok finished) → finished.status = 200 →
        answer = .error (.unavailable "DATABASE_UNAVAILABLE") ∨ answer = .ok finished := by
  obtain ⟨row', hrow'⟩ := hacknowledged.row hreach hlater
  have hservable := rowsServable_of_reachable (hreach.later hlater) hrecords hcalls row' (SortedTable.mem_of_lookup hrow')
  obtain ⟨-, hkey⟩ := SortedTable.lookup_eq_some_iff.mp hrow'
  have ⟨jobId, _, _, hjobId, _⟩ := hservable
  obtain ⟨_, response', -, hshown'⟩ := hservable.shown hjobId
  rw [hkey] at hjobId
  constructor
  · rcases hpolled.shows hcaller hjobId with hfailed | hanswer
    · exact .inl hfailed
    · rw [hrow', hshown'] at hanswer
      exact .inr ⟨response', hanswer⟩
  · intro finished hfinished hstatus
    obtain ⟨row, hrow⟩ := hacknowledged.row hreach .refl
    have hservable := rowsServable_of_reachable hreach hrecords hcalls row (SortedTable.mem_of_lookup hrow)
    obtain ⟨-, hkey⟩ := SortedTable.lookup_eq_some_iff.mp hrow
    obtain ⟨_, response, hresponse, hshown⟩ := hservable.shown (hkey ▸ hjobId)
    have hsame : response = finished := by
      rcases hfinished.shows hcaller hjobId with hfailed | hanswer
      · cases hfailed
      · rw [hrow, hshown] at hanswer
        exact (Except.ok.inj hanswer).symm
    subst hsame
    -- the row which was shown is still there
    have hstill := lookup_of_terminal hreach hlater hrow (isTerminal_of_shown hresponse hstatus)
    rcases hpolled.shows hcaller hjobId with hfailed | hanswer
    · exact .inl hfailed
    · rw [hstill, hshown] at hanswer
      exact .inr hanswer

end Polls

section Samples

/-- A gateway whose ledger keeps the records of its table. -/
def recordingGateway : GatewayConfig :=
  { sampleGateway with
    storable := fun snapshot => (WritableRecord.tryFrom .canonicalForms FloatText.bits snapshot).map fun _ => () }

theorem encodesRecords_recording : EncodesRecords recordingGateway .bits := by
  intro snapshot hstorable
  cases hrecord : WritableRecord.tryFrom .canonicalForms FloatText.bits snapshot with
  | ok record => exact ⟨record, hrecord⟩
  | error error => simp [recordingGateway, hrecord, Except.map] at hstorable

/-- The sample job is admitted and executed. -/
def polledCalls : Fin 2 → GatewayCall
  | 0 => .admitBatch sampleRequest
  | 1 => .execute sampleId (gatewayBatchResultProjection .canonicalForms .bits)

/-- Whoever asks for the sample job knows the token. -/
def sampleCaller : HttpCaller := ⟨fun _ => sampleDigest, ⟨sampleDigest⟩, [("authorization", BEARER_PREFIX ++ [0x61])]⟩

/-- An admission has returned, and not with a failure. -/
def hasAdmitted : GatewayTask (Option CallResult) → Bool
  | .done (some (.admission (.ok _))) => true
  | _ => false

/-- An admission has returned, and a poll is answered with a finished job. -/
def shownFinished (i : Fin 2) (s : GatewayState (Fin 2)) : Bool :=
  hasAdmitted (s.pool i) &&
    (Task.replay (serve recordingGateway i) [.served] s.world
      (getJob recordingGateway.codec .bits sampleCaller sampleId.asStr)).any fun run =>
        match run.2 with
        | .ok response => response.status = 200
        | .error _ => false

theorem acknowledged_of_hasAdmitted {ι : Type*} {calls : ι → GatewayCall} {s : GatewayState ι} {i : ι}
    {request : BatchAdmissionRequest} (hcall : calls i = .admitBatch request) (h : hasAdmitted (s.pool i) = true) :
    Acknowledged calls s request.id := by
  unfold hasAdmitted at h
  split at h
  · exact ⟨i, request, _, hcall, rfl, ‹_›⟩
  · cases h

theorem polled_of_replay {s : GatewayState (Fin 2)} {answer : Except GatewayHttpError HttpResponse} {i : Fin 2}
    {w' : GatewayWorld (Fin 2)} {choices : List ServerChoice}
    (h : Task.replay (serve recordingGateway i) choices s.world
      (getJob recordingGateway.codec .bits sampleCaller sampleId.asStr) = some (w', answer)) :
    Polled recordingGateway .bits sampleCaller s sampleId answer := by
  have hserves (w : GatewayWorld (Fin 2)) (op : GatewayOp) (w' : GatewayWorld (Fin 2)) (reply : op.Reply) :
      (∃ choice, serve recordingGateway i w op choice = some (w', reply)) →
        gatewayService recordingGateway unrestricted i w op w' reply :=
    fun ⟨choice, hserve⟩ => ⟨choice, trivial, hserve⟩
  exact ⟨i, w', (Task.solo_of_replay choices h).mono hserves⟩

/-- The sample job is executed, and shown as what has become of it by every later poll. -/
theorem acknowledged_polled_sample : ∃ (s : GatewayState (Fin 2)) (finished : HttpResponse),
    Reachable recordingGateway unrestricted polledCalls s ∧ finished.status = 200 ∧
      ∀ s' answer, PoolReaches (gatewayService recordingGateway unrestricted) s s' →
        Polled recordingGateway .bits sampleCaller s' sampleId answer →
          answer = .error (.unavailable "DATABASE_UNAVAILABLE") ∨ answer = .ok finished := by
  obtain ⟨s, hreach, hobserved⟩ := exists_reachable_of_schedule recordingGateway unrestricted polledCalls
    (fun _ _ _ _ => true)
    [(0, .served), (0, .served), (0, .served), (0, .served), (1, .served), (1, .served), (1, .served),
      (1, .answers sampleFailure), (1, .served), (1, .served)]
    (shownFinished 0) (fun _ _ _ _ _ => trivial) (by decide +kernel)
  obtain ⟨hreturned, hshown⟩ := (Bool.and_eq_true _ _).mp hobserved
  obtain ⟨⟨w', answer⟩, hreplay, hfinished⟩ := (Option.any_eq_true _ _).mp hshown
  have hpolled := polled_of_replay hreplay
  cases answer with
  | error error => cases hfinished
  | ok finished =>
    refine ⟨s, finished, hreach, of_decide_eq_true hfinished, fun s' answer hlater hshown => ?_⟩
    have hcalls : ∀ i, ServerCall recordingGateway.codec .bits (polledCalls i) := by
      intro i
      fin_cases i
      · exact ⟨.deepgramNova3MultiV2, rfl⟩
      · exact rfl
    exact (acknowledged_polled encodesRecords_recording hcalls hreach (acknowledged_of_hasAdmitted rfl hreturned) rfl
      hlater hshown).2 finished hpolled (of_decide_eq_true hfinished)

end Samples

end Voicetext.Gateway.Server
