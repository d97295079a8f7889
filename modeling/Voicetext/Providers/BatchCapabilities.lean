import Voicetext.Speech.Application.BatchCapabilities
import Voicetext.Speech.Application.Ports

/-!
# Descriptors and request checks of the batch adapters

Both adapters transcribe complete Ogg Opus files in any language and return segments. They differ in how
they bound a keyterm. Before they send anything they check that a request names their own profile and is
within their descriptor.
-/

namespace Voicetext.Providers

open Voicetext.Speech.Application

/-- The features a batch adapter asks its own descriptor for. -/
def batchCapabilityRequest (request : BatchRecognitionRequest) : BatchCapabilityRequest where
  timestamps := true
  finalizedEvents := true
  languageHint := some request.profile.language
  diarization := false
  keyTerms := request.keyterms
  inputFormat := .oggOpus
  inputBytes := request.audio.length

namespace Deepgram.Batch

def CAPABILITIES : BatchCapabilityDescriptor where
  contractVersion := 2
  provider := "deepgram"
  model := "nova-3"
  language := "multi"
  timestamps := .segment
  finalizedEvents := .terminalTranscript
  languageHints := .fixed "multi"
  diarization := false
  keyTerms := true
  inputFormats := [.oggOpus]
  providerLimits := {
    maximumPublicInputBytes := 64 * 1024 * 1024
    maximumInputBytes := 64 * 1024 * 1024
    maximumKeyTerms := 100
    maximumKeyTermBytes := 200
    maximumKeyTermCharacters := none
    keyTermCharacterUnit := none
    maximumKeyTermWords := none
    normalizeKeyTermWhitespace := false
    restrictedKeyTermPunctuation := false }

/-- `batch_capabilities::matches`. -/
def capabilitiesMatch (request : BatchRecognitionRequest) : Bool :=
  (CAPABILITIES.validate (batchCapabilityRequest request)).isOk

def profileMatches (request : BatchRecognitionRequest) : Bool :=
  request.profile.contractVersion = 2 && request.profile.provider = "deepgram" &&
    request.profile.model = "nova-3" && request.profile.language = "multi"

/-- What `recognize_inner` checks before it sends. -/
def checkRequest (request : BatchRecognitionRequest) : Except RecognitionFailure Unit :=
  if !profileMatches request || !capabilitiesMatch request then
    .error (.knownNotAccepted false "BATCH_PROFILE_MISMATCH" none none)
  else .ok ()

end Deepgram.Batch

namespace ElevenLabs.Batch

def MAX_AUDIO_BYTES : ℕ := 500 * 1024 * 1024

def MAX_KEYTERMS : ℕ := 100

def CAPABILITIES : BatchCapabilityDescriptor where
  contractVersion := 3
  provider := "elevenlabs"
  model := "scribe_v2"
  language := "multi"
  timestamps := .segment
  finalizedEvents := .terminalTranscript
  languageHints := .fixed "multi"
  diarization := false
  keyTerms := true
  inputFormats := [.oggOpus]
  providerLimits := {
    maximumPublicInputBytes := 64 * 1024 * 1024
    maximumInputBytes := MAX_AUDIO_BYTES
    maximumKeyTerms := MAX_KEYTERMS
    maximumKeyTermBytes := 200
    maximumKeyTermCharacters := some 49
    keyTermCharacterUnit := some .unicodeScalars
    maximumKeyTermWords := some 5
    normalizeKeyTermWhitespace := true
    restrictedKeyTermPunctuation := true }

/-- `batch_capabilities::matches`. -/
def capabilitiesMatch (request : BatchRecognitionRequest) : Bool :=
  (CAPABILITIES.validate (batchCapabilityRequest request)).isOk

def validateRequest (request : BatchRecognitionRequest) : Except RecognitionFailure Unit :=
  if request.profile.contractVersion ≠ 3 ∨ request.profile.provider ≠ "elevenlabs" ∨
      request.profile.model ≠ "scribe_v2" ∨ request.profile.language ≠ "multi" then
    .error (.knownNotAccepted false "BATCH_PROFILE_MISMATCH" none none)
  else if request.audio = [] ∨ request.audio.length > MAX_AUDIO_BYTES then
    .error (.knownNotAccepted false "ELEVENLABS_INVALID_AUDIO" none none)
  else if request.authoritativeDurationMillis = 0 then
    .error (.knownNotAccepted false "ELEVENLABS_INVALID_DURATION" none none)
  else if capabilitiesMatch request = false then
    .error (.knownNotAccepted false "ELEVENLABS_REQUEST_CAPABILITY_MISMATCH" none none)
  else .ok ()

end ElevenLabs.Batch

end Voicetext.Providers
