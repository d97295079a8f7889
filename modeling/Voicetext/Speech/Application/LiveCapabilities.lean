import Voicetext.Speech.Application.BatchCapabilities
import Voicetext.Speech.Application.BatchModels

/-!
# Capabilities of live profiles

A descriptor states what one live profile supports, and a request is checked against it before a paid
session is opened. Keyterms are bounded one by one and in total, in bytes and in the units of the provider.
-/

namespace Voicetext.Speech.Application

open Voicetext.Common

/-- Timestamp evidence exposed by live transcript events. -/
inductive LiveTimestampCapability
  | none
  | segment
deriving DecidableEq

/-- Finalized transcript evidence exposed during a live session. -/
inductive LiveFinalizedCapability
  | none
  | segmentAndUtterance
deriving DecidableEq

/-- Language-hint syntax accepted by a live profile. -/
inductive LiveLanguageHints
  | unsupported
  | asciiCode (maximumBytes : ℕ) (hyphenAtEdges : Bool)
deriving DecidableEq

inductive LiveInputFormat
  | opus48KhzMono
  | pcmS16Le16KhzMono
  | pcmS16Le48KhzMono
deriving DecidableEq

/-- Exact public and provider bounds applied before live provider egress. -/
structure LiveProviderLimits where
  maximumPublicInputFrameBytes : ℕ
  maximumInputFrameBytes : ℕ
  maximumKeyTerms : ℕ
  maximumKeyTermBytes : Option ℕ
  maximumPublicKeyTermUtf16Units : ℕ
  maximumKeyTermCharacters : Option ℕ
  keyTermCharacterUnit : Option TextLengthUnit
  maximumPublicKeyTermTotalUtf16Units : ℕ
  normalizeKeyTermWhitespace : Bool

structure LiveCapabilityDescriptor where
  protocolVersion : UInt16
  provider : String
  model : String
  timestamps : LiveTimestampCapability
  finalizedEvents : LiveFinalizedCapability
  languageHints : LiveLanguageHints
  diarization : Bool
  keyTerms : Bool
  inputFormats : List LiveInputFormat
  providerLimits : LiveProviderLimits

/-- Features requested before opening a paid live provider session. -/
structure LiveCapabilityRequest where
  timestamps : Bool
  finalizedEvents : Bool
  languageHint : Option String
  diarization : Bool
  keyTerms : List String
  inputFormat : LiveInputFormat
  inputFrameBytes : ℕ

/-- Stable fail-closed reason for rejecting unsupported live features. -/
inductive LiveCapabilityError
  | unsupportedTimestamps
  | unsupportedFinalizedEvents
  | unsupportedLanguageHint
  | unsupportedDiarization
  | unsupportedKeyTerms
  | unsupportedInputFormat
  | inputLimitExceeded
  | keyTermLimitExceeded
  | invalidKeyTerm
deriving DecidableEq

/-- A byte of a language code: ASCII alphanumeric or a hyphen. -/
def isLanguageByte (byte : UInt8) : Bool :=
  (0x30 ≤ byte && byte ≤ 0x39) || (0x41 ≤ byte && byte ≤ 0x5a) || (0x61 ≤ byte && byte ≤ 0x7a) || byte = 0x2d

/-- `starts_with('-')`. -/
def startsWithHyphen (language : String) : Bool := language.toList.head? = some '-'

/-- `ends_with('-')`. -/
def endsWithHyphen (language : String) : Bool := language.toList.getLast? = some '-'

namespace Live

def validateLanguage (language : String) : LiveLanguageHints → Except LiveCapabilityError Unit
  | .unsupported => .error .unsupportedLanguageHint
  | .asciiCode maximumBytes hyphenAtEdges =>
    if language ≠ "" ∧ Text.len language ≤ maximumBytes ∧ (Text.asBytes language).all isLanguageByte = true ∧
      (hyphenAtEdges = true ∨ startsWithHyphen language = false ∧ endsWithHyphen language = false) then .ok ()
    else .error .unsupportedLanguageHint

def textLength (value : String) : Option TextLengthUnit → ℕ
  | some .unicodeScalars => value.toList.length
  | some .utf16CodeUnits | none => Text.utf16Len value

/-- Whether a keyterm is outside the limits of a profile. -/
def invalidKeyTerm (limits : LiveProviderLimits) (term : String) : Bool :=
  let providerCharacters :=
    textLength (if limits.normalizeKeyTermWhitespace then joinWords term else term) limits.keyTermCharacterUnit
  term = "" || Text.trim term ≠ term || Text.hasControl term ||
    Text.utf16Len term > limits.maximumPublicKeyTermUtf16Units ||
    limits.maximumKeyTermBytes.any (fun maximum => Text.len term > maximum) ||
    limits.maximumKeyTermCharacters.any (fun maximum => providerCharacters > maximum)

/-- Check keyterms with the running total of their UTF-16 units. -/
def validateEachKeyTerm (limits : LiveProviderLimits) : ℕ → List String → Except LiveCapabilityError ℕ
  | total, [] => .ok total
  | total, term :: rest =>
    match checkedAdd total (Text.utf16Len term) with
    | none => .error .keyTermLimitExceeded
    | some total =>
      if invalidKeyTerm limits term then .error .invalidKeyTerm else validateEachKeyTerm limits total rest

def validateKeyTerms (terms : List String) (limits : LiveProviderLimits) : Except LiveCapabilityError Unit := do
  if terms.length > limits.maximumKeyTerms then .error .keyTermLimitExceeded
  else
    let total ← validateEachKeyTerm limits 0 terms
    if total > limits.maximumPublicKeyTermTotalUtf16Units then .error .keyTermLimitExceeded else .ok ()

end Live

/-- Rejects unsupported or out-of-bound features before a provider can be called. -/
def LiveCapabilityDescriptor.validate (self : LiveCapabilityDescriptor) (request : LiveCapabilityRequest) :
    Except LiveCapabilityError Unit := do
  if request.timestamps = true ∧ self.timestamps = .none then .error .unsupportedTimestamps
  else if request.finalizedEvents = true ∧ self.finalizedEvents = .none then .error .unsupportedFinalizedEvents
  else
    request.languageHint.elim (.ok ()) fun language => Live.validateLanguage language self.languageHints
    if request.diarization = true ∧ self.diarization = false then .error .unsupportedDiarization
    else if request.keyTerms ≠ [] ∧ self.keyTerms = false then .error .unsupportedKeyTerms
    else if request.inputFormat ∉ self.inputFormats then .error .unsupportedInputFormat
    else if request.inputFrameBytes = 0 ∨
        request.inputFrameBytes > self.providerLimits.maximumPublicInputFrameBytes ∨
        request.inputFrameBytes > self.providerLimits.maximumInputFrameBytes then .error .inputLimitExceeded
    else Live.validateKeyTerms request.keyTerms self.providerLimits

/-- What a descriptor accepts in one input format it accepts in every format it supports. -/
theorem LiveCapabilityDescriptor.validate_inputFormat {self : LiveCapabilityDescriptor}
    {request : LiveCapabilityRequest} {inputFormat : LiveInputFormat} (h : self.validate request = .ok ())
    (hformat : inputFormat ∈ self.inputFormats) : self.validate { request with inputFormat } = .ok () := by
  unfold validate at h ⊢
  simp only [ite_error_eq_ok, bind_eq_ok] at h ⊢
  obtain ⟨htimestamps, hevents, ⟨_⟩, hlanguage, hdiarization, hterms, _, hbytes⟩ := h
  exact ⟨htimestamps, hevents, (), hlanguage, hdiarization, hterms, not_not.mpr hformat, hbytes⟩

/-- What a descriptor accepts has a language it accepts. -/
theorem LiveCapabilityDescriptor.validateLanguage_of_validate {self : LiveCapabilityDescriptor}
    {request : LiveCapabilityRequest} (h : self.validate request = .ok ()) {language : String}
    (hlanguage : request.languageHint = some language) : Live.validateLanguage language self.languageHints = .ok () := by
  unfold validate at h
  simp only [ite_error_eq_ok, bind_eq_ok, hlanguage, Option.elim_some] at h
  obtain ⟨_, _, ⟨_⟩, hvalid, _⟩ := h
  exact hvalid

end Voicetext.Speech.Application
