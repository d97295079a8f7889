import Voicetext.Gateway.Auth
import Voicetext.Gateway.Contracts.BatchProjection
import Voicetext.Gateway.Identity
import Voicetext.Gateway.Storage.Postgres
import Voicetext.Providers.BatchCapabilities

/-!
# The batch HTTP handlers

What a posted form becomes, and what a stored job is answered with. Authentication, concurrency permits and
the multipart framing come before the form; the audio has been validated and its duration is known.
-/

namespace Voicetext.Gateway.Server

open Voicetext.Common Voicetext.Speech.Domain Voicetext.Speech.Application Voicetext.Gateway.Contracts
open Voicetext.Gateway.Storage (UuidCodec Sha256Digest GatewayOp GatewayTask)

/-- Safe transport error whose body never includes parser, provider or secret details. -/
structure GatewayHttpError where
  status : ℕ
  code : String
  retryAfterSeconds : Option ℕ
deriving DecidableEq

namespace GatewayHttpError

def badRequest (code : String) : GatewayHttpError := ⟨400, code, none⟩

/-- No reason is exposed. -/
def unauthorized (_ : AuthenticationError) : GatewayHttpError := ⟨401, "UNAUTHORIZED", none⟩

def notFound : GatewayHttpError := ⟨404, "JOB_NOT_FOUND", none⟩

def conflict : GatewayHttpError := ⟨409, "IDEMPOTENCY_CONFLICT", none⟩

def unsupportedProfile : GatewayHttpError := ⟨422, "PROFILE_NOT_CONFIGURED", none⟩

def rateLimited : GatewayHttpError := ⟨429, "RATE_LIMIT_EXCEEDED", some 1⟩

def unavailable (code : String) : GatewayHttpError := ⟨503, code, some 1⟩

end GatewayHttpError

/-- `map_err` of a failure whose details are not exposed. -/
def mapErr {ε α : Type} (error : GatewayHttpError) : Except ε α → Except GatewayHttpError α
  | .ok a => .ok a
  | .error _ => .error error

@[simp] theorem mapErr_eq_ok {ε α : Type} {error : GatewayHttpError} {x : Except ε α} {a : α} :
    mapErr error x = .ok a ↔ x = .ok a := by
  cases x <;> simp [mapErr]

section Admission

def MAX_TEXT_FIELD_BYTES : ℕ := 24 * 1024

/-- The canonical keyterms of the keyterms field. -/
def readKeyterms (field : String) : Except GatewayHttpError (List String) :=
  if Text.len field > MAX_TEXT_FIELD_BYTES then .error (.badRequest "MULTIPART_FIELD_TOO_LARGE")
  else
    match (Json.parse field).bind (Json.asArray Json.asString) with
    | none => .error (.badRequest "INVALID_KEYTERMS")
    | some rawKeyterms => mapErr (.badRequest "INVALID_KEYTERMS") (Identity.canonicalizeKeyterms rawKeyterms)

/-- The descriptor of the recognizer bound to an identity. -/
def capabilities : BatchIdentity → BatchCapabilityDescriptor
  | .deepgramNova3MultiV2 => Providers.Deepgram.Batch.CAPABILITIES
  | .elevenlabsScribeV2MultiV3 => Providers.ElevenLabs.Batch.CAPABILITIES

/-- The profile of a frozen batch identity. -/
def profile : BatchIdentity → BatchProfile
  | .deepgramNova3MultiV2 =>
    ⟨2, "deepgram", "nova-3", "multi", BatchProfile.nova3Multi.version_ne_zero,
      BatchProfile.nova3Multi.provider_valid, BatchProfile.nova3Multi.model_valid,
      BatchProfile.nova3Multi.language_valid⟩
  | .elevenlabsScribeV2MultiV3 =>
    ⟨3, "elevenlabs", "scribe_v2", "multi", by decide, by decide, by decide, BatchProfile.nova3Multi.language_valid⟩

/-- A frozen profile has the values of its identity. -/
theorem profile_new (identity : BatchIdentity) : BatchProfile.new identity.contractVersion.toUInt16
    identity.provider identity.model identity.language = .ok (profile identity) := by
  cases identity <;> rfl

/-- The features a posted form asks its recognizer for. -/
def capabilityRequest (identity : BatchIdentity) (keyterms : List String) (audio : List UInt8) :
    BatchCapabilityRequest where
  timestamps := true
  finalizedEvents := true
  languageHint := some identity.language
  diarization := false
  keyTerms := keyterms
  inputFormat := .oggOpus
  inputBytes := audio.length

/-- The request a posted form admits (`post`). -/
def admissionRequest (sha256 : List UInt8 → Sha256Digest) (identity : BatchIdentity) (id : BatchJobId)
    (keytermsField : String) (audio : List UInt8) (durationMillis : UInt64) :
    Except GatewayHttpError BatchAdmissionRequest := do
  let keyterms ← readKeyterms keytermsField
  mapErr (.badRequest "UNSUPPORTED_BATCH_CAPABILITY")
    ((capabilities identity).validate (capabilityRequest identity keyterms audio))
  let fingerprint ← mapErr (.badRequest "INVALID_BATCH_REQUEST")
    (Identity.requestFingerprint sha256 (profile identity) keyterms audio)
  return { id, profile := profile identity, fingerprint, audio, authoritativeDurationMillis := durationMillis,
           keyterms }

/-- The initial row of an admitted request. -/
def insertedSnapshot (request : BatchAdmissionRequest) (audio : BatchAudioHandle) : BatchJobSnapshot where
  id := request.id
  job := .accept request.profile request.fingerprint
  audio
  authoritativeDurationMillis := request.authoritativeDurationMillis
  keyterms := request.keyterms
  providerReference := none
  retryAfterMillis := none
  result := none
  revision := 0

/-- The initial row is what an admission hands to the ledger first. -/
theorem insertInner_insertedSnapshot (request : BatchAdmissionRequest) (audio : BatchAudioHandle) :
    ∃ next, Storage.insertInner request.id (.accept request.profile request.fingerprint) audio
      request.authoritativeDurationMillis request.keyterms =
        Task.call (GatewayOp.insertRow (insertedSnapshot request audio)) >>= next := ⟨_, rfl⟩

end Admission

section Responses

def DEFAULT_POLL_MILLIS : UInt64 := 1000

def DEFAULT_RETRY_MILLIS : UInt64 := 1000

/-- A failure code which may be shown, or the one which stands for all others. -/
def safeFailureCode (code : String) : String :=
  if code ≠ "" ∧ Text.len code ≤ 128 ∧ (Text.asBytes code).all (fun byte =>
      (0x41 ≤ byte && byte ≤ 0x5a) || (0x30 ≤ byte && byte ≤ 0x39) || byte = 0x5f) = true then code
  else "TRANSCRIPTION_FAILED"

/-- A JSON answer. -/
structure HttpResponse where
  status : ℕ
  contentType : String
  body : String
deriving DecidableEq

variable {codec : UuidCodec} (numbers : WireNumbers)

/-- The response which shows a snapshot. -/
def outboundResponse (identity : BatchIdentity) (jobId : codec.Uuid) (snapshot : BatchJobSnapshot) :
    Except GatewayHttpError (OutboundBatchResponse codec) :=
  match snapshot.job.state with
  | .accepted | .submitting _ => .ok (.pending jobId .poll DEFAULT_POLL_MILLIS)
  | .retryable _ _ => .ok (.pending jobId .retry (snapshot.retryAfterMillis.getD DEFAULT_RETRY_MILLIS))
  | .failed _ failure => .ok (.failed jobId (safeFailureCode failure.code))
  | .outcomeUnknown _ .interruptedSubmission => .ok (.failed jobId "SUBMISSION_INTERRUPTED")
  | .outcomeUnknown _ (.submission _) => .ok (.failed jobId "PROVIDER_OUTCOME_UNKNOWN")
  | .completed _ =>
    match snapshot.result with
    | none => .error (.unavailable "INVALID_JOB_SNAPSHOT")
    | some result => .ok (completedResponse identity jobId result)

def httpStatus : BatchResponseStatus → ℕ
  | .accepted => 202
  | .ok => 200

/-- The answer which shows a snapshot. -/
def responseForSnapshot (identity : BatchIdentity) (jobId : codec.Uuid) (snapshot : BatchJobSnapshot) :
    Except GatewayHttpError HttpResponse := do
  let outbound ← outboundResponse identity jobId snapshot
  let serialized ← mapErr (.unavailable "RESPONSE_PROJECTION_FAILED")
    (BatchOutbound.serializeResponse numbers identity outbound)
  return ⟨httpStatus serialized.status, "application/json", serialized.body⟩

end Responses

end Voicetext.Gateway.Server
