import Voicetext.Common.Fallible
import Voicetext.Common.Text

/-!
# Capabilities of batch profiles

A descriptor states what one authoritative batch profile supports, and a request is checked against it
before any paid egress. Keyterms are bounded one by one, in bytes and in the units of the provider.
-/

namespace Voicetext.Speech.Application

open Voicetext.Common

/-- Timestamp evidence exposed by an authoritative batch result. -/
inductive BatchTimestampCapability
  | none
  | segment
deriving DecidableEq

/-- Finalized transcript evidence exposed by a batch result. -/
inductive BatchFinalizedCapability
  | none
  | terminalTranscript
deriving DecidableEq

/-- Language-hint policy accepted by a batch profile. -/
inductive BatchLanguageHints
  | unsupported
  | fixed (language : String)
deriving DecidableEq

inductive BatchInputFormat
  | oggOpus
  | wavePcm
deriving DecidableEq

/-- Explicit unit used by a provider text limit. -/
inductive TextLengthUnit
  | unicodeScalars
  | utf16CodeUnits
deriving DecidableEq

/-- Exact public and provider bounds applied before paid batch egress. -/
structure BatchProviderLimits where
  maximumPublicInputBytes : ℕ
  maximumInputBytes : ℕ
  maximumKeyTerms : ℕ
  maximumKeyTermBytes : ℕ
  maximumKeyTermCharacters : Option ℕ
  keyTermCharacterUnit : Option TextLengthUnit
  maximumKeyTermWords : Option ℕ
  normalizeKeyTermWhitespace : Bool
  restrictedKeyTermPunctuation : Bool

structure BatchCapabilityDescriptor where
  contractVersion : UInt16
  provider : String
  model : String
  language : String
  timestamps : BatchTimestampCapability
  finalizedEvents : BatchFinalizedCapability
  languageHints : BatchLanguageHints
  diarization : Bool
  keyTerms : Bool
  inputFormats : List BatchInputFormat
  providerLimits : BatchProviderLimits

/-- Features requested by a caller before a batch job is admitted. -/
structure BatchCapabilityRequest where
  timestamps : Bool
  finalizedEvents : Bool
  languageHint : Option String
  diarization : Bool
  keyTerms : List String
  inputFormat : BatchInputFormat
  inputBytes : ℕ

/-- Stable fail-closed reason for rejecting unsupported batch features. -/
inductive BatchCapabilityError
  | unsupportedTimestamps
  | unsupportedFinalizedEvents
  | unsupportedLanguageHint
  | unsupportedDiarization
  | unsupportedKeyTerms
  | unsupportedInputFormat
  | inputLimitExceeded
  | keyTermLimitExceeded
  | invalidKeyTerm
deriving DecidableEq

/-- Whether a text exceeds a limit in its unit; a limit without a unit is always exceeded. -/
def exceedsTextLimit (value : String) : Option ℕ → Option TextLengthUnit → Bool
  | none, none => false
  | some maximum, some .unicodeScalars => value.toList.length > maximum
  | some maximum, some .utf16CodeUnits => Text.utf16Len value > maximum
  | _, _ => true

/-- `split_whitespace`, joined by single spaces. -/
def joinWords (term : String) : String := String.ofList ([' '].intercalate (Text.splitWhitespace term))

/-- Whether a keyterm is outside the limits of a profile. -/
def invalidKeyTerm (limits : BatchProviderLimits) (term : String) : Bool :=
  let providerTerm := if limits.normalizeKeyTermWhitespace then joinWords term else term
  term = "" || Text.trim term ≠ term || Text.len term > limits.maximumKeyTermBytes ||
    exceedsTextLimit providerTerm limits.maximumKeyTermCharacters limits.keyTermCharacterUnit ||
    limits.maximumKeyTermWords.any (fun maximum => (Text.splitWhitespace providerTerm).length > maximum) ||
    Text.hasControl term ||
    (limits.restrictedKeyTermPunctuation &&
      providerTerm.toList.any fun c => ['<', '>', '{', '}', '[', ']', '\\'].contains c)

def validateKeyTerms (terms : List String) (limits : BatchProviderLimits) : Except BatchCapabilityError Unit :=
  if terms.length > limits.maximumKeyTerms then .error .keyTermLimitExceeded
  else if terms.any (invalidKeyTerm limits) then .error .invalidKeyTerm
  else .ok ()

/-- Whether a hint differs from what the policy fixes, or is not supported at all. -/
def BatchLanguageHints.refuses (hints : BatchLanguageHints) (hint : Option String) : Bool :=
  hint.any fun requested =>
    match hints with
    | .unsupported => true
    | .fixed supported => requested ≠ supported

/-- Rejects unsupported or out-of-bound features before a provider can be called. -/
def BatchCapabilityDescriptor.validate (self : BatchCapabilityDescriptor) (request : BatchCapabilityRequest) :
    Except BatchCapabilityError Unit :=
  if request.timestamps = true ∧ self.timestamps = .none then .error .unsupportedTimestamps
  else if request.finalizedEvents = true ∧ self.finalizedEvents = .none then .error .unsupportedFinalizedEvents
  else if self.languageHints.refuses request.languageHint = true then .error .unsupportedLanguageHint
  else if request.diarization = true ∧ self.diarization = false then .error .unsupportedDiarization
  else if request.keyTerms ≠ [] ∧ self.keyTerms = false then .error .unsupportedKeyTerms
  else if request.inputFormat ∉ self.inputFormats then .error .unsupportedInputFormat
  else if request.inputBytes = 0 ∨ request.inputBytes > self.providerLimits.maximumPublicInputBytes ∨
      request.inputBytes > self.providerLimits.maximumInputBytes then .error .inputLimitExceeded
  else validateKeyTerms request.keyTerms self.providerLimits

/-- What a descriptor accepts has audio within its bounds. -/
theorem BatchCapabilityDescriptor.inputBytes_of_validate {self : BatchCapabilityDescriptor}
    {request : BatchCapabilityRequest} (h : self.validate request = .ok ()) :
    request.inputBytes ≠ 0 ∧ request.inputBytes ≤ self.providerLimits.maximumPublicInputBytes ∧
      request.inputBytes ≤ self.providerLimits.maximumInputBytes := by
  unfold validate at h
  simp only [ite_error_eq_ok] at h
  obtain ⟨_, _, _, _, _, _, hbytes, _⟩ := h
  omega

end Voicetext.Speech.Application
