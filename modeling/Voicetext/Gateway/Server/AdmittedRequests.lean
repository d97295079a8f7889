import Voicetext.Audio.PlayableDuration
import Voicetext.Gateway.Profiles
import Voicetext.Gateway.Server.LiveFrames
import Voicetext.Gateway.Server.StoredRequests

/-!
# Admitted requests pass the checks of their adapter

The gateway checks a request against the descriptor of the adapter it selected, and the adapter checks what it
is given once more before any paid egress. The second check refuses nothing the first let through.
-/

namespace Voicetext.Gateway.Server

open Voicetext.Common Voicetext.Speech.Domain Voicetext.Speech.Application Voicetext.Gateway.Contracts
open Voicetext.Gateway.Storage (Sha256Digest)

section Sessions

/-- The provider session a configuration asks for. -/
def recognitionRequest {ids : SessionIds} (config : ClientConfig ids) : LiveRecognitionRequest where
  profile := {
    protocolVersion := 2
    provider :=
      match config.identity with
      | .deepgramNova3 => "deepgram"
      | .elevenlabsScribeV2Realtime => "elevenlabs"
    model :=
      match config.identity with
      | .deepgramNova3 => "nova-3"
      | .elevenlabsScribeV2Realtime => "scribe_v2_realtime"
    language := config.language }
  sampleRateHz :=
    match config.audioFormat with
    | .opus48Khz => 48000
    | .pcmS16le16Khz => 16000
  channels := 1
  keyterms := config.keyterms

/-- The features a session asks its factory for. -/
def sessionCapabilityRequest {ids : SessionIds} (config : ClientConfig ids) : LiveCapabilityRequest where
  timestamps := true
  finalizedEvents := true
  languageHint := some config.language
  diarization := false
  keyTerms := config.keyterms
  inputFormat :=
    match config.audioFormat with
    | .opus48Khz => .opus48KhzMono
    | .pcmS16le16Khz => .pcmS16Le16KhzMono
  inputFrameBytes := 2

/-- The part of `prepare_session` from the text of its first frame to the request it opens a session with, for a
decoder which may be unavailable. -/
def prepareSession (ids : SessionIds) (registry : ProfileRegistry) (maximum : ℕ) (decoderAvailable : Bool)
    (text : String) : Except SafeLiveError (LiveAdapter × LiveRecognitionRequest) := do
  if Text.len text > maximum then .error .frameTooLarge
  else
    let config ← (Contracts.Live.parseClientConfig ids text).mapError fun _ => .invalidConfig
    let factory ← (registry.live config.identity).elim (.error .profileNotConfigured) .ok
    if config.audioFormat = .opus48Khz ∧ decoderAvailable = false then .error .audioRuntimeUnavailable
    else
      (factory.capabilities.validate (sessionCapabilityRequest config)).mapError fun _ => .invalidConfig
      return (factory, recognitionRequest config)

end Sessions

/-- The request an execution sends for a claimed job and its audio. -/
def batchRecognitionRequest (claimed : BatchJobSnapshot) (audio : List UInt8) : BatchRecognitionRequest where
  profile := claimed.job.profile
  audio
  authoritativeDurationMillis := claimed.authoritativeDurationMillis
  keyterms := claimed.keyterms

section Live

variable {ids : SessionIds}

/-- Whatever configuration a factory's descriptor lets through, the factory does not refuse. -/
theorem checkRequest_recognitionRequest {registry : ProfileRegistry} (hcomposed : Composed registry)
    {config : ClientConfig ids} {factory : LiveAdapter} (hbound : registry.live config.identity = some factory)
    (h : factory.capabilities.validate (sessionCapabilityRequest config) = .ok ()) :
    factory.checkRequest (recognitionRequest config) = .ok () := by
  have hrate : (recognitionRequest config).sampleRateHz = 16000 ∨ (recognitionRequest config).sampleRateHz = 48000 := by
    cases hformat : config.audioFormat <;> simp [recognitionRequest, hformat]
  -- the session asks for the language and the keyterms that the adapter will find in its request
  obtain ⟨accepted, hrequest⟩ : ∃ accepted, sessionCapabilityRequest config =
      Providers.liveCapabilityRequest (recognitionRequest config) accepted := ⟨_, rfl⟩
  rw [hrequest] at h
  obtain ⟨hidentity, rfl⟩ | ⟨hidentity, rfl⟩ := liveIdentity_eq_some.mp (hcomposed.bound.2 _ _ hbound)
  · exact Providers.Deepgram.Live.checkRequest_eq_ok (by simp [recognitionRequest, hidentity]) hrate rfl h
  · exact Providers.ElevenLabs.Live.validateProfile_eq_ok (by simp [recognitionRequest, hidentity]) hrate rfl h

/-- A session is prepared when its configuration is read and the factory bound to it lets it through. -/
theorem prepareSession_eq_ok {registry : ProfileRegistry} {maximum : ℕ} {decoderAvailable : Bool} {text : String}
    {factory : LiveAdapter} {request : LiveRecognitionRequest} :
    prepareSession ids registry maximum decoderAvailable text = .ok (factory, request) ↔
      Text.len text ≤ maximum ∧ ∃ config, Contracts.Live.parseClientConfig ids text = .ok config ∧
        registry.live config.identity = some factory ∧
        ¬ (config.audioFormat = .opus48Khz ∧ decoderAvailable = false) ∧
        factory.capabilities.validate (sessionCapabilityRequest config) = .ok () ∧
        recognitionRequest config = request := by
  unfold prepareSession
  simp only [ite_error_eq_ok, bind_eq_ok, elim_eq_ok, mapError_eq_ok, not_lt]
  refine and_congr_right fun _ => exists_congr fun config => and_congr_right fun _ => ?_
  constructor
  · rintro ⟨bound, hbound, hdecoder, ⟨_⟩, hvalidated, hrequest⟩
    obtain ⟨rfl, rfl⟩ := Prod.mk.inj (Except.ok.inj hrequest)
    exact ⟨hbound, hdecoder, hvalidated, rfl⟩
  · rintro ⟨hbound, hdecoder, hvalidated, rfl⟩
    exact ⟨factory, hbound, hdecoder, (), hvalidated, rfl⟩

/-- A prepared session opens with a request its factory does not refuse. -/
theorem checkRequest_of_prepareSession {registry : ProfileRegistry} (hcomposed : Composed registry) {maximum : ℕ}
    {decoderAvailable : Bool} {text : String} {factory : LiveAdapter} {request : LiveRecognitionRequest}
    (h : prepareSession ids registry maximum decoderAvailable text = .ok (factory, request)) :
    factory.checkRequest request = .ok () := by
  obtain ⟨_, config, _, hbound, _, hvalidated, rfl⟩ := prepareSession_eq_ok.mp h
  exact checkRequest_recognitionRequest hcomposed hbound hvalidated

end Live

section Batch

variable {getNbSamples : List UInt8 → Option ℕ} {sha256 : List UInt8 → Sha256Digest}

/-- Whatever a post admits, the recognizer of its identity does not refuse. -/
theorem checkRequest_of_admissionRequest {registry : ProfileRegistry} (hcomposed : Composed registry)
    {identity : BatchIdentity} {recognizer : BatchAdapter} (hbound : registry.batch identity = some recognizer)
    {preSkip finalGranule : ℕ} {packets : List Audio.OggOpus.Packet} {validated : Audio.OggOpus.ValidatedOggOpus}
    (haudio : Audio.OggOpus.timeAudio getNbSamples preSkip packets finalGranule = .ok validated)
    {id : BatchJobId} {field : String} {audio : List UInt8} {request : BatchAdmissionRequest}
    (hadmitted : admissionRequest sha256 identity id field audio (.ofNat validated.durationMillis) = .ok request)
    {claimed : BatchJobSnapshot} (hprofile : claimed.job.profile = request.profile)
    (hduration : claimed.authoritativeDurationMillis = request.authoritativeDurationMillis)
    (hkeyterms : claimed.keyterms = request.keyterms) :
    recognizer.checkRequest (batchRecognitionRequest claimed request.audio) = .ok () := by
  obtain ⟨keyterms, fingerprint, -, hcapable, -, rfl⟩ := admissionRequest_eq_ok.mp hadmitted
  have hpositive : UInt64.ofNat validated.durationMillis ≠ 0 := by
    unfold Audio.OggOpus.timeAudio at haudio
    obtain ⟨timing, -, hfinish⟩ := bind_eq_ok.mp haudio
    obtain ⟨hpos, hle⟩ := Audio.OggOpus.durationMillis_of_finish hfinish
    intro hzero
    have hmod := congrArg UInt64.toNat hzero
    rw [UInt64.toNat_ofNat', Nat.mod_eq_of_lt (Nat.lt_of_le_pred (by decide) hle)] at hmod
    exact absurd hmod (Nat.one_le_iff_ne_zero.mp hpos)
  -- the recognizer finds the language, the keyterms and the audio it was asked for
  have hrequest : Providers.batchCapabilityRequest (batchRecognitionRequest claimed audio) =
      capabilityRequest identity keyterms audio := by
    simp only [Providers.batchCapabilityRequest, batchRecognitionRequest, capabilityRequest, hprofile, hkeyterms]
    cases identity <;> rfl
  obtain ⟨rfl, rfl⟩ | ⟨rfl, rfl⟩ := batchIdentity_eq_some.mp (hcomposed.bound.1 _ _ hbound)
  · have hmatches : Providers.Deepgram.Batch.profileMatches (batchRecognitionRequest claimed audio) = true := by
      simp only [Providers.Deepgram.Batch.profileMatches, batchRecognitionRequest, hprofile]
      rfl
    have hcapabilities : Providers.Deepgram.Batch.capabilitiesMatch (batchRecognitionRequest claimed audio) = true := by
      rw [Providers.Deepgram.Batch.capabilitiesMatch, hrequest]
      exact isOk_iff.mpr ⟨(), hcapable⟩
    simp [BatchAdapter.checkRequest, Providers.Deepgram.Batch.checkRequest, hmatches, hcapabilities]
  · have hbytes := BatchCapabilityDescriptor.inputBytes_of_validate hcapable
    have hempty : audio ≠ [] := fun hempty => hbytes.1 (by rw [hempty]; rfl)
    have hbound : ¬ audio.length > Providers.ElevenLabs.Batch.MAX_AUDIO_BYTES := Nat.not_lt.mpr hbytes.2.2
    have hcapabilities :
        Providers.ElevenLabs.Batch.capabilitiesMatch (batchRecognitionRequest claimed audio) = true := by
      rw [Providers.ElevenLabs.Batch.capabilitiesMatch, hrequest]
      exact isOk_iff.mpr ⟨(), hcapable⟩
    simp only [BatchAdapter.checkRequest, Providers.ElevenLabs.Batch.validateRequest, hcapabilities]
    simp [batchRecognitionRequest, hprofile, profile, hempty, hbound, hduration, hpositive]

end Batch

/-- In every registry that composition can build, a prepared session opens with a request its factory does not
refuse, and whatever a post admits for audio whose duration was found its recognizer does not refuse. -/
theorem adapters_agree {registry : ProfileRegistry} (hcomposed : Composed registry) :
    (∀ (ids : SessionIds) maximum decoderAvailable text factory request,
      prepareSession ids registry maximum decoderAvailable text = .ok (factory, request) →
        factory.checkRequest request = .ok ()) ∧
      ∀ getNbSamples preSkip packets finalGranule validated sha256 identity recognizer id field audio request,
        Audio.OggOpus.timeAudio getNbSamples preSkip packets finalGranule = .ok validated →
        registry.batch identity = some recognizer →
        admissionRequest sha256 identity id field audio (.ofNat validated.durationMillis) = .ok request →
        ∀ claimed : BatchJobSnapshot, claimed.job.profile = request.profile →
          claimed.authoritativeDurationMillis = request.authoritativeDurationMillis →
          claimed.keyterms = request.keyterms →
          recognizer.checkRequest (batchRecognitionRequest claimed request.audio) = .ok () :=
  ⟨fun _ _ _ _ _ _ h => checkRequest_of_prepareSession hcomposed h,
    fun _ _ _ _ _ _ _ _ _ _ _ _ haudio hbound hadmitted _ hprofile hduration hkeyterms =>
      checkRequest_of_admissionRequest hcomposed hbound haudio hadmitted hprofile hduration hkeyterms⟩

/-- A session of the one provider and a post for the other. -/
theorem adapters_agree_sample :
    let registry : ProfileRegistry := ⟨some .deepgram, none, none, some .elevenlabs⟩
    let sessionId : SessionIds.canonicalForms.Uuid := ⟨"123e4567-e89b-42d3-a456-426614174000", by decide⟩
    let config : ClientConfig .canonicalForms := ⟨.elevenlabsScribeV2Realtime, "-en-", sessionId, .opus48Khz, ["a  b"]⟩
    (∃ maximum text,
        prepareSession .canonicalForms registry maximum true text = .ok (.elevenlabs, recognitionRequest config) ∧
      LiveAdapter.elevenlabs.checkRequest (recognitionRequest config) = .ok ()) ∧
    ∃ request, admissionRequest (fun _ => ⟨List.replicate 32 0, rfl⟩) .deepgramNova3MultiV2 ⟨"job"⟩ "[]" [0] 14 =
        .ok request ∧
      BatchAdapter.deepgram.checkRequest (batchRecognitionRequest (insertedSnapshot request ⟨"artifact"⟩) request.audio) =
        .ok () := by
  intro registry sessionId config
  have hcomposed : Composed registry := by
    have hbatch : Composed ⟨some .deepgram, none, none, none⟩ := @Composed.withBatch {} _ .deepgram .new rfl
    exact @Composed.withLive _ _ .elevenlabs hbatch rfl
  obtain ⟨hlive, hbatch⟩ := adapters_agree hcomposed
  constructor
  · have hconfig : (Contracts.Live.serializeClientConfig .canonicalForms config).isOk = true := by decide +kernel
    obtain ⟨text, htext⟩ := isOk_iff.mp hconfig
    have hparsed := parseClientConfig_serializeClientConfig htext
      ⟨by decide +kernel, by decide +kernel, by decide +kernel⟩
    have hvalidated : LiveAdapter.elevenlabs.capabilities.validate (sessionCapabilityRequest config) = .ok () := by
      decide +kernel
    have hprepared : prepareSession .canonicalForms registry (Text.len text) true text =
        .ok (.elevenlabs, recognitionRequest config) :=
      prepareSession_eq_ok.mpr ⟨le_rfl, config, hparsed, rfl, nofun, hvalidated, rfl⟩
    exact ⟨Text.len text, text, hprepared, hlive _ _ _ _ _ _ hprepared⟩
  · have hraw : (Json.parse "[]").bind (Json.asArray Json.asString) = some [] := by
      have htext : (Json.array []).toText = "[]" := by decide
      rw [← htext, Json.parse_toText (by decide)]
      rfl
    obtain ⟨request, hadmitted⟩ := admits_deepgram (fun _ => ⟨List.replicate 32 0, rfl⟩) ⟨"job"⟩ 14 (by decide) hraw
      (by decide) (by simp) (List.cons_ne_nil 0 []) (by decide)
    refine ⟨request, hadmitted, ?_⟩
    exact hbatch (fun _ => some 960) 312 [⟨[0], true, true, true, 960⟩] 960 ⟨312, 648, 14, 1⟩ _ _ _ _ _ _ _
      (by decide +kernel) rfl hadmitted _ rfl rfl rfl

end Voicetext.Gateway.Server
