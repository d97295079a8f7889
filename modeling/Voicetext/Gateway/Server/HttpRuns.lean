import Voicetext.Gateway.IdempotentAdmission
import Voicetext.Gateway.Server.Polling
import Voicetext.Gateway.Server.PostedRequests

/-!
# Runs of batch requests

Any number of batch requests are handled beside the calls the gateway makes on its own. Whatever they are told and
whoever is cut off, what happens is a run of coordinator calls: of the one admission each complete and validated
request stands for, and of the others.
-/

namespace Voicetext.Gateway.Server.Upload

open Voicetext.Common Voicetext.Speech.Domain Voicetext.Speech.Application Voicetext.Gateway.Contracts
open Voicetext.Gateway.Storage Voicetext.Audio.OggOpus

section Requests

/-- A batch request, or a call which the gateway makes on its own. -/
inductive HttpCall
  | post (fuel : ℕ) (headers : HeaderMap)
  | background (call : GatewayCall)

/-- What a request is answered, or a call ends with. -/
inductive HttpResult
  | answered (answer : Except GatewayHttpError HttpResponse)
  | ended (result : CallResult)

variable (config : PostConfig)

/-- The task of a request. -/
def HttpCall.task : HttpCall → UploadTask (Option HttpResult)
  | post fuel headers => (Upload.post config fuel headers).bind fun answer => .done (some (.answered answer))
  | background call => (delegate (call.program config.gateway.codec)).bind fun result => .done (result.map .ended)

variable {config}

/-- What an admission is answered with. -/
def answerOf (admission : Admission config.gateway.codec) :
    Except BatchCoordinatorFailure BatchAdmissionOutcome → Except GatewayHttpError HttpResponse
  | .error failure => .error (mapCoordinatorFailure failure)
  | .ok outcome => responseForSnapshot config.numbers admission.identity admission.jobUuid (snapshotOf outcome)

/-- The executions of an admission: one if its job waits for it. -/
def executionsOf (admission : Admission config.gateway.codec) :
    Except BatchCoordinatorFailure BatchAdmissionOutcome → List (BatchIdentity × BatchJobId)
  | .error _ => []
  | .ok outcome =>
    if (snapshotOf outcome).job.state.isActionable = true then [(admission.identity, admission.request.id)] else []

variable (config)

/-- What an admissible request does once its call has ended. -/
structure Concluded (headers : HeaderMap) (call : GatewayCall) (result : CallResult) (log : UploadLog)
    (admission : Admission config.gateway.codec) (outcome : Except BatchCoordinatorFailure BatchAdmissionOutcome) :
    Prop where
  call : call = .admitBatch admission.request
  result : result = .admission outcome
  admissible : Admissible config headers log admission
  spawned : spawns log = executionsOf admission outcome

end Requests

section Delegating

variable {config : PostConfig} {headers : HeaderMap} {fuel : ℕ} {log : UploadLog}
  {admission : Admission config.gateway.codec}

/-- An admissible request is one of its canonical job. -/
theorem Admissible.id (h : Admissible config headers log admission) :
    admission.request.id = ⟨config.gateway.codec.hyphenated admission.jobUuid⟩ := by
  obtain ⟨form, rawKeyterms, recognizer, validated, -, -, -, -, hrequest⟩ := h.form
  obtain ⟨keyterms, fingerprint, -, -, -, hsame⟩ := admissionRequest_eq_ok.mp hrequest
  exact hsame ▸ rfl

/-- An admissible request has the profile of its identity. -/
theorem Admissible.profile (h : Admissible config headers log admission) :
    admission.request.profile = Server.profile admission.identity := by
  obtain ⟨form, rawKeyterms, recognizer, validated, -, -, -, -, hrequest⟩ := h.form
  obtain ⟨keyterms, fingerprint, -, -, -, hsame⟩ := admissionRequest_eq_ok.mp hrequest
  exact hsame ▸ rfl

/-- A step which reads nothing leaves a request admissible. -/
theorem Admissible.snoc (h : Admissible config headers log admission) {step : (op : UploadOp) × op.Reply}
    (hstep : readStep (uploaded log) step = uploaded log) : Admissible config headers (log ++ [step]) admission := by
  have hparts : uploaded (log ++ [step]) = uploaded log := (uploaded_snoc log step).trans hstep
  have hmem {other : (op : UploadOp) × op.Reply} (hother : other ∈ log) : other ∈ log ++ [step] :=
    List.mem_append_left _ hother
  refine ⟨⟨h.opened.authenticated, hmem h.opened.globalSlot, hmem h.opened.batchSlot, h.opened.key⟩, hmem h.slot,
    hmem h.complete, h.key, ?_⟩
  rw [hparts]
  exact h.form

end Delegating

section Runs

variable {ι : Type*} [DecidableEq ι]

/-- The requests under way, the world they share and what each has been told. -/
abbrev HttpState (ι : Type*) :=
  PoolState ι (OuterWorld ι (GatewayWorld ι) UploadOp.Reply) (OuterOp GatewayOp UploadOp)
    (OuterOp.Reply GatewayOp.Reply UploadOp.Reply) HttpResult

variable (config : PostConfig)

/-- A post has called nobody: it is under way, was cut off or has been refused. -/
structure Unsent (call : GatewayCall) (t : GatewayTask (Option CallResult))
    (rest : UploadTask (Option HttpResult)) : Prop where
  waits : call = .recoverStartup none
  idle : t = call.program config.gateway.codec
  refused : ∀ value, rest = .done (some value) → ∃ error, value = .answered (.error error)

/-- A post has called the coordinator with what it stood for, and answers what that ends with. -/
structure Sent (headers : HeaderMap) (log : UploadLog) (call : GatewayCall) (t : GatewayTask (Option CallResult))
    (rest : UploadTask (Option HttpResult)) : Prop where
  admitted : ∃ made admission, made <+: log ∧ spawns made = [] ∧ Admissible config headers made admission ∧
    call = .admitBatch admission.request
  answered : ∀ value, rest = .done (some value) → ∃ admission outcome result,
    Concluded config headers call result log admission outcome ∧ t = .done (some result) ∧
      value = .answered (answerOf admission outcome)

/-- How far a request has come beside its call. -/
def HttpCall.Follows : HttpCall → UploadLog → GatewayCall → GatewayTask (Option CallResult) →
    UploadTask (Option HttpResult) → Prop
  | post _ headers, log, call, t, rest => Lawful (Asks config headers) log ∧
      (Unsent config call t rest ∨ Sent config headers log call t rest)
  | background own, log, call, t, rest => log = [] ∧ call = own ∧
      ∀ value, rest = .done (some value) → ∃ result, t = .done (some result) ∧ value = .ended result

variable {config} {requests : ι → HttpCall} {s : HttpState ι}

/-- The calls which a state of the requests stands for. -/
structure StandsFor (config : PostConfig) (requests : ι → HttpCall) (s : HttpState ι) (calls : ι → GatewayCall)
    (pool : ι → GatewayTask (Option CallResult)) : Prop where
  reachable : Reachable config.gateway unrestricted calls ⟨pool, s.world.inner⟩
  follows : ∀ i, (requests i).Follows config (s.world.logs i) (calls i) (pool i) (s.pool i)

end Runs

section Answers

variable {ι : Type*} [DecidableEq ι] {config : PostConfig} {requests : ι → HttpCall} {s : HttpState ι}
  {calls : ι → GatewayCall} {pool : ι → GatewayTask (Option CallResult)} {i j : ι} {fuel : ℕ} {headers : HeaderMap}
  {response : HttpResponse}

/-- A post which was answered with a document has admitted the request its form stands for. -/
theorem StandsFor.admitted (h : StandsFor config requests s calls pool) (hpost : requests i = .post fuel headers)
    (hanswered : s.pool i = .done (some (.answered (.ok response)))) :
    ∃ admission outcome, Admissible config headers (s.world.logs i) admission ∧
      calls i = .admitBatch admission.request ∧ pool i = .done (some (.admission (.ok outcome))) := by
  have hfollows := h.follows i
  rw [hpost] at hfollows
  rcases hfollows.2 with hunsent | hsent
  · obtain ⟨error, herror⟩ := hunsent.refused _ hanswered
    cases herror
  · obtain ⟨admission, outcome, result, hconcluded, hdone, hanswer⟩ := hsent.answered _ hanswered
    cases outcome with
    | error failure => cases hanswer
    | ok outcome =>
      exact ⟨admission, outcome, hconcluded.admissible, hconcluded.call, hconcluded.result ▸ hdone⟩

/-- The job of a post which was answered with a document is stored as it was asked for. -/
theorem StandsFor.stored (h : StandsFor config requests s calls pool) {request : BatchAdmissionRequest}
    {outcome : BatchAdmissionOutcome} (hcall : calls i = .admitBatch request)
    (hdone : pool i = .done (some (.admission (.ok outcome)))) :
    ∃ row, s.world.inner.ledger.lookup request.id.asStr = some row ∧ AgreesWith row request := by
  have hpost := Answered.post ⟨hcall, hdone⟩ h.reachable
  cases outcome with
  | accepted snapshot =>
    obtain ⟨row, hrow, -, hagrees⟩ := hpost.accepted_agrees h.reachable.inv
    exact ⟨row, hrow, hagrees⟩
  | replay snapshot =>
    obtain ⟨row, hrow, -, hagrees⟩ := hpost.replay_agrees h.reachable.inv
    exact ⟨row, hrow, hagrees⟩

end Answers

section Results

variable {ι : Type*} [DecidableEq ι] {config : PostConfig} {requests : ι → HttpCall} {s : HttpState ι} {i : ι}
  {fuel : ℕ} {headers : HeaderMap} {response : HttpResponse}

end Results

section Samples

variable {ι : Type*} [DecidableEq ι] {serves : Service ι (GatewayWorld ι) GatewayOp GatewayOp.Reply} {i : ι}
  {w : GatewayWorld ι}

end Samples

end Voicetext.Gateway.Server.Upload
