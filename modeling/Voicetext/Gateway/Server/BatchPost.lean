import Voicetext.Audio.CompleteUpload
import Voicetext.Gateway.Calls
import Voicetext.Gateway.Profiles
import Voicetext.Gateway.Server.Multipart
import Voicetext.Providers.Http

/-!
# The batch post handler

A request is authenticated, takes its slots, is read as a form and validated before the coordinator is called with
the one request it stands for; what it is answered follows from what the coordinator says.
-/

namespace Voicetext.Gateway.Server.Upload

open Voicetext.Common Voicetext.Speech.Domain Voicetext.Speech.Application Voicetext.Gateway.Contracts
open Voicetext.Gateway.Storage Voicetext.Audio.OggOpus

section Handler

def MAX_BATCH_UPLOAD_BYTES : ℕ := 64 * 1024 * 1024

/-- `GatewayLimits::batch_upload_bytes`. -/
def UploadLimit : Type := { bytes : ℕ // 27 ≤ bytes ∧ bytes ≤ MAX_BATCH_UPLOAD_BYTES }

/-- What a batch request is handled with. -/
structure PostConfig where
  gateway : GatewayConfig
  numbers : WireNumbers
  auth : MachineSecret
  profiles : ProfileRegistry
  composed : Composed profiles
  batchUploadBytes : UploadLimit
  readPackets : List UInt8 → PacketReader
  getNbSamples : List UInt8 → Option ℕ
  newV5 : List UInt8 → List UInt8 → gateway.codec.Uuid

def parseIdempotencyKey (headers : HeaderMap) : Except GatewayHttpError IdempotencyKey :=
  match getAll headers "x-idempotency-key" with
  | [value] =>
    match Providers.headerText value with
    | none => .error (.badRequest "INVALID_IDEMPOTENCY_KEY")
    | some text => mapErr (.badRequest "INVALID_IDEMPOTENCY_KEY") (IdempotencyKey.parse text)
  | _ => .error (.badRequest "INVALID_IDEMPOTENCY_KEY")

/-- A request which may be admitted, with the identity and the job it is answered under. -/
structure Admission (codec : UuidCodec) where
  identity : BatchIdentity
  jobUuid : codec.Uuid
  request : BatchAdmissionRequest

variable (config : PostConfig)

def PostConfig.configured (identity : BatchIdentity) : Bool := (config.profiles.batch identity).isSome

/-- What a validation says; one which leaves its slices panics, and is not joined. -/
def validated (audio : List UInt8) : Except GatewayHttpError ValidatedOggOpus :=
  match (validateCompleteOggOpus config.readPackets config.getNbSamples audio).run with
  | none => .error (.unavailable "VALIDATION_UNAVAILABLE")
  | some (.error _) => .error (.badRequest "INVALID_OGG_OPUS")
  | some (.ok validated) => .ok validated

/-- Validate the recording beside the other requests. -/
def validateAudio (audio : List UInt8) : UploadTask (Except GatewayHttpError ValidatedOggOpus) :=
  (UploadOp.validate audio).perform.bind fun joined =>
    .done (if joined = true then validated config audio else .error (.unavailable "VALIDATION_UNAVAILABLE"))

/-- What a form asks for. -/
def admissionOf (key : IdempotencyKey) (form : BatchForm) :
    UploadTask (Except GatewayHttpError (Admission config.gateway.codec)) :=
  (Task.done form.identity).andThen fun identity =>
  (Task.done ((config.profiles.batch identity).elim (.error .unsupportedProfile) .ok)).andThen fun recognizer =>
  (Task.done (mapErr (.badRequest "UNSUPPORTED_BATCH_CAPABILITY")
    (recognizer.capabilities.validate (capabilityRequest identity form.keyterms form.audio)))).andThen fun () =>
  (validateAudio config form.audio).andThen fun validated =>
  (Task.done (mapErr (.badRequest "INVALID_BATCH_REQUEST")
    (Identity.requestFingerprint config.gateway.sha256 (profile identity) form.keyterms form.audio))).andThen
      fun fingerprint =>
  let jobUuid := deterministicJobId config.newV5 key
  .done (.ok {
    identity, jobUuid
    request := {
      id := ⟨config.gateway.codec.hyphenated jobUuid⟩
      profile := profile identity
      fingerprint
      audio := form.audio
      authoritativeDurationMillis := .ofNat validated.durationMillis
      keyterms := form.keyterms } })

/-- The part of `post` before the call of the coordinator. -/
def prepare (fuel : ℕ) (headers : HeaderMap) : UploadTask (Except GatewayHttpError (Admission config.gateway.codec)) :=
  (Task.done ((authenticate config.gateway.sha256 headers config.auth).mapError .unauthorized)).andThen fun () =>
  (acquireSlot .global).andThen fun () =>
  (acquireSlot .batch).andThen fun () =>
  (Task.done (parseIdempotencyKey headers)).andThen fun key =>
  (parseMultipart fuel config.batchUploadBytes.val config.configured).andThen fun form =>
  admissionOf config key form

def mapCoordinatorFailure : BatchCoordinatorFailure → GatewayHttpError
  | .admissionConflict _ => .conflict
  | .spool _ | .admissionCleanup _ _ => .unavailable "SPOOL_UNAVAILABLE"
  | .store _ | .admissionStoreUncertain _ _ | .transition _ | .postEgressStore _ | .postEgressConflict =>
    .unavailable "DATABASE_UNAVAILABLE"

/-- The snapshot an admission ends with. -/
def snapshotOf : BatchAdmissionOutcome → BatchJobSnapshot
  | .accepted snapshot | .replay snapshot => snapshot

variable {config}

/-- The part of `post` behind the call of the coordinator. -/
def answer (admission : Admission config.gateway.codec) :
    Except BatchCoordinatorFailure BatchAdmissionOutcome → UploadTask (Except GatewayHttpError HttpResponse)
  | .error failure => .done (.error (mapCoordinatorFailure failure))
  | .ok outcome =>
    let response := responseForSnapshot config.numbers admission.identity admission.jobUuid (snapshotOf outcome)
    if (snapshotOf outcome).job.state.isActionable = true then
      (UploadOp.spawnExecution admission.identity admission.request.id).perform.bind fun () => .done response
    else .done response

variable (config)

/-- Accept one batch request. -/
def post (fuel : ℕ) (headers : HeaderMap) : UploadTask (Except GatewayHttpError HttpResponse) :=
  (prepare config fuel headers).andThen fun admission =>
  (delegate ((coordinator config.gateway.codec).admitBatch admission.request)).bind (answer admission)

end Handler

end Voicetext.Gateway.Server.Upload
