import Voicetext.Speech.Application.LiveCapabilities
import Voicetext.Speech.Application.LivePorts

/-!
# Descriptors and request checks of the live adapters

Before it connects, each adapter checks that a request names its own profile and is within its descriptor.
Both check the language once more in their own words.
-/

namespace Voicetext.Providers

open Voicetext.Common Voicetext.Speech.Application

/-- The features a live adapter asks its own descriptor for. -/
def liveCapabilityRequest (request : LiveRecognitionRequest) (inputFormat : LiveInputFormat) :
    LiveCapabilityRequest where
  timestamps := true
  finalizedEvents := true
  languageHint := some request.profile.language
  diarization := false
  keyTerms := request.keyterms
  inputFormat
  inputFrameBytes := 2

namespace Deepgram.Live

def CAPABILITIES : LiveCapabilityDescriptor where
  protocolVersion := 2
  provider := "deepgram"
  model := "nova-3"
  timestamps := .segment
  finalizedEvents := .segmentAndUtterance
  languageHints := .asciiCode 10 false
  diarization := false
  keyTerms := true
  inputFormats := [.opus48KhzMono, .pcmS16Le16KhzMono, .pcmS16Le48KhzMono]
  providerLimits := {
    maximumPublicInputFrameBytes := 64 * 1024
    maximumInputFrameBytes := 64 * 1024
    maximumKeyTerms := 100
    maximumKeyTermBytes := some 256
    maximumPublicKeyTermUtf16Units := 256
    maximumKeyTermCharacters := none
    keyTermCharacterUnit := none
    maximumPublicKeyTermTotalUtf16Units := 8192
    normalizeKeyTermWhitespace := false }

def languageIsSafe (language : String) : Bool :=
  1 ≤ Text.len language && Text.len language ≤ 10 && !startsWithHyphen language && !endsWithHyphen language &&
    (Text.asBytes language).all isLanguageByte

def profileMatches (request : LiveRecognitionRequest) : Bool :=
  request.profile.protocolVersion = 2 && request.profile.provider = "deepgram" &&
    request.profile.model = "nova-3" && languageIsSafe request.profile.language &&
    (request.sampleRateHz = 16000 || request.sampleRateHz = 48000) && request.channels = 1

def capabilitiesMatch (request : LiveRecognitionRequest) : Bool :=
  match request.sampleRateHz.toNat with
  | 16000 => (CAPABILITIES.validate (liveCapabilityRequest request .pcmS16Le16KhzMono)).isOk
  | 48000 => (CAPABILITIES.validate (liveCapabilityRequest request .pcmS16Le48KhzMono)).isOk
  | _ => false

/-- What `open_inner` checks before it connects. -/
def checkRequest (request : LiveRecognitionRequest) : Except RecognitionFailure Unit :=
  if !profileMatches request || !capabilitiesMatch request then
    .error (.knownNotAccepted false "DEEPGRAM_LIVE_PROFILE_MISMATCH" none none)
  else .ok ()

end Deepgram.Live

namespace ElevenLabs.Live

def CAPABILITIES : LiveCapabilityDescriptor where
  protocolVersion := 2
  provider := "elevenlabs"
  model := "scribe_v2_realtime"
  timestamps := .segment
  finalizedEvents := .segmentAndUtterance
  languageHints := .asciiCode 10 true
  diarization := false
  keyTerms := true
  inputFormats := [.opus48KhzMono, .pcmS16Le16KhzMono, .pcmS16Le48KhzMono]
  providerLimits := {
    maximumPublicInputFrameBytes := 64 * 1024
    maximumInputFrameBytes := 1024 * 1024
    maximumKeyTerms := 50
    maximumKeyTermBytes := none
    maximumPublicKeyTermUtf16Units := 256
    maximumKeyTermCharacters := some 20
    keyTermCharacterUnit := some .unicodeScalars
    maximumPublicKeyTermTotalUtf16Units := 8192
    normalizeKeyTermWhitespace := true }

def validLanguageCode (language : String) : Bool :=
  1 ≤ Text.len language && Text.len language ≤ 10 && (Text.asBytes language).all isLanguageByte

/-- The input format a sample rate stands for. -/
def inputFormat (sampleRateHz : UInt32) : LiveInputFormat :=
  match sampleRateHz.toNat with
  | 16000 => .pcmS16Le16KhzMono
  | 48000 => .pcmS16Le48KhzMono
  | _ => .opus48KhzMono

def validateProfile (request : LiveRecognitionRequest) : Except RecognitionFailure Unit :=
  if request.profile.protocolVersion ≠ 2 ∨ request.profile.provider ≠ "elevenlabs" ∨
      request.profile.model ≠ "scribe_v2_realtime" ∨ validLanguageCode request.profile.language = false ∨
      request.channels ≠ 1 ∨ ¬ (request.sampleRateHz = 16000 ∨ request.sampleRateHz = 48000) ∨
      (CAPABILITIES.validate (liveCapabilityRequest request (inputFormat request.sampleRateHz))).isOk = false then
    .error (.knownNotAccepted false "ELEVENLABS_LIVE_PROFILE_MISMATCH" none none)
  else .ok ()

end ElevenLabs.Live

section Languages

variable {language : String} {hyphenAtEdges : Bool}

theorem len_pos (h : language ≠ "") : 1 ≤ Text.len language :=
  Nat.one_le_iff_ne_zero.mpr fun hzero => h (String.utf8ByteSize_eq_zero_iff.mp hzero)

/-- Both adapters accept a language in their own words when their descriptors do. -/
theorem Deepgram.Live.languageIsSafe_of_validate
    (h : Live.validateLanguage language Deepgram.Live.CAPABILITIES.languageHints = .ok ()) :
    Deepgram.Live.languageIsSafe language = true := by
  obtain ⟨⟨hne, hlen, hbytes, hedges⟩, -⟩ := ite_ok_eq_ok.mp h
  obtain ⟨hstart, hend⟩ := hedges.resolve_left nofun
  simp [languageIsSafe, len_pos hne, hlen, hbytes, hstart, hend]

theorem ElevenLabs.Live.validLanguageCode_of_validate
    (h : Live.validateLanguage language ElevenLabs.Live.CAPABILITIES.languageHints = .ok ()) :
    ElevenLabs.Live.validLanguageCode language = true := by
  obtain ⟨⟨hne, hlen, hbytes, -⟩, -⟩ := ite_ok_eq_ok.mp h
  simp [validLanguageCode, len_pos hne, hlen, hbytes]

end Languages

/-- A request of Deepgram's own profile whose language and keyterms its descriptor accepts is not refused. -/
theorem Deepgram.Live.checkRequest_eq_ok {request : LiveRecognitionRequest} {accepted : LiveInputFormat}
    (hprofile : request.profile.protocolVersion = 2 ∧ request.profile.provider = "deepgram" ∧
      request.profile.model = "nova-3")
    (hrate : request.sampleRateHz = 16000 ∨ request.sampleRateHz = 48000) (hchannels : request.channels = 1)
    (h : CAPABILITIES.validate (liveCapabilityRequest request accepted) = .ok ()) : checkRequest request = .ok () := by
  have hlanguage := languageIsSafe_of_validate
    (LiveCapabilityDescriptor.validateLanguage_of_validate h (rfl : _ = some request.profile.language))
  have hmatches : profileMatches request = true := by
    simp [profileMatches, hprofile, hlanguage, hrate, hchannels]
  have hcapable (inputFormat : LiveInputFormat) (hformat : inputFormat ∈ CAPABILITIES.inputFormats) :
      CAPABILITIES.validate (liveCapabilityRequest request inputFormat) = .ok () :=
    LiveCapabilityDescriptor.validate_inputFormat h hformat
  have hcapabilities : capabilitiesMatch request = true := by
    obtain hrate | hrate := hrate
    · simp [capabilitiesMatch, hrate, hcapable .pcmS16Le16KhzMono (by decide), Except.isOk, Except.toBool]
    · simp [capabilitiesMatch, hrate, hcapable .pcmS16Le48KhzMono (by decide), Except.isOk, Except.toBool]
  simp [checkRequest, hmatches, hcapabilities]

/-- A request of the profile of ElevenLabs whose language and keyterms its descriptor accepts is not refused. -/
theorem ElevenLabs.Live.validateProfile_eq_ok {request : LiveRecognitionRequest} {accepted : LiveInputFormat}
    (hprofile : request.profile.protocolVersion = 2 ∧ request.profile.provider = "elevenlabs" ∧
      request.profile.model = "scribe_v2_realtime")
    (hrate : request.sampleRateHz = 16000 ∨ request.sampleRateHz = 48000) (hchannels : request.channels = 1)
    (h : CAPABILITIES.validate (liveCapabilityRequest request accepted) = .ok ()) :
    validateProfile request = .ok () := by
  have hlanguage := validLanguageCode_of_validate
    (LiveCapabilityDescriptor.validateLanguage_of_validate h (rfl : _ = some request.profile.language))
  have hformat : inputFormat request.sampleRateHz ∈ CAPABILITIES.inputFormats := by
    obtain hrate | hrate := hrate <;> rw [hrate] <;> decide
  have hcapable : CAPABILITIES.validate (liveCapabilityRequest request (inputFormat request.sampleRateHz)) = .ok () :=
    LiveCapabilityDescriptor.validate_inputFormat h hformat
  simp [validateProfile, hprofile, hlanguage, hrate, hchannels, hcapable, Except.isOk, Except.toBool]

end Voicetext.Providers
