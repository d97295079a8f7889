import Voicetext.Speech.Domain.Batch

/-!
# The supported batch contract identities

Two frozen contracts are served. Each fixes a version, provider, model and language, and a profile
is served when it carries exactly those four values.
-/

namespace Voicetext.Gateway.Contracts

open Voicetext.Speech.Domain

/-- The only supported batch contract identities. -/
inductive BatchIdentity
  | deepgramNova3MultiV2
  | elevenlabsScribeV2MultiV3
deriving DecidableEq

namespace BatchIdentity

def contractVersion : BatchIdentity → UInt8
  | deepgramNova3MultiV2 => 2
  | elevenlabsScribeV2MultiV3 => 3

def provider : BatchIdentity → String
  | deepgramNova3MultiV2 => "deepgram"
  | elevenlabsScribeV2MultiV3 => "elevenlabs"

def model : BatchIdentity → String
  | deepgramNova3MultiV2 => "nova-3"
  | elevenlabsScribeV2MultiV3 => "scribe_v2"

def language : BatchIdentity → String
  | _ => "multi"

end BatchIdentity

/-- The contract a profile is served under. -/
def identityForProfile (profile : BatchProfile) : Option BatchIdentity :=
  match profile.contractVersion, profile.provider, profile.model, profile.language with
  | 2, "deepgram", "nova-3", "multi" => some .deepgramNova3MultiV2
  | 3, "elevenlabs", "scribe_v2", "multi" => some .elevenlabsScribeV2MultiV3
  | _, _, _, _ => none

/-- A served profile carries the values of its identity. -/
theorem fields_of_identityForProfile {profile : BatchProfile} {identity : BatchIdentity}
    (h : identityForProfile profile = some identity) :
    profile.contractVersion.toNat = identity.contractVersion.toNat ∧ profile.provider = identity.provider ∧
      profile.model = identity.model ∧ profile.language = identity.language := by
  unfold identityForProfile at h
  split at h
  · rename_i hversion hprovider hmodel hlanguage
    cases h
    exact ⟨by rw [hversion]; rfl, hprovider, hmodel, hlanguage⟩
  · rename_i hversion hprovider hmodel hlanguage
    cases h
    exact ⟨by rw [hversion]; rfl, hprovider, hmodel, hlanguage⟩
  · cases h

end Voicetext.Gateway.Contracts
