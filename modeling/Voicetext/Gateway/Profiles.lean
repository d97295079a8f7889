import Voicetext.Gateway.Contracts.Live
import Voicetext.Providers.BatchCapabilities
import Voicetext.Providers.LiveCapabilities

/-!
# Provider-profile bindings

The registry has a slot for each compatibility profile, and composition binds an adapter to the slot its
descriptor names. A request can select only a populated slot, so the adapter it gets is that of its identity.
-/

namespace Voicetext.Gateway

open Voicetext.Common Voicetext.Speech.Application Voicetext.Gateway.Contracts Voicetext.Providers

/-- The batch recognizers. -/
inductive BatchAdapter
  | deepgram
  | elevenlabs
deriving DecidableEq

/-- The live recognizer factories. -/
inductive LiveAdapter
  | deepgram
  | elevenlabs
deriving DecidableEq

def BatchAdapter.capabilities : BatchAdapter → BatchCapabilityDescriptor
  | deepgram => Deepgram.Batch.CAPABILITIES
  | elevenlabs => ElevenLabs.Batch.CAPABILITIES

/-- What an adapter checks before it sends a request. -/
def BatchAdapter.checkRequest : BatchAdapter → BatchRecognitionRequest → Except RecognitionFailure Unit
  | deepgram => Deepgram.Batch.checkRequest
  | elevenlabs => ElevenLabs.Batch.validateRequest

def LiveAdapter.capabilities : LiveAdapter → LiveCapabilityDescriptor
  | deepgram => Deepgram.Live.CAPABILITIES
  | elevenlabs => ElevenLabs.Live.CAPABILITIES

/-- What an adapter checks before it connects. -/
def LiveAdapter.checkRequest : LiveAdapter → LiveRecognitionRequest → Except RecognitionFailure Unit
  | deepgram => Deepgram.Live.checkRequest
  | elevenlabs => ElevenLabs.Live.validateProfile

/-- Configured recognizers for the compatibility profiles. -/
structure ProfileRegistry where
  deepgramBatch : Option BatchAdapter := none
  elevenlabsBatch : Option BatchAdapter := none
  deepgramLive : Option LiveAdapter := none
  elevenlabsLive : Option LiveAdapter := none

def batchIdentity (descriptor : BatchCapabilityDescriptor) : Option BatchIdentity :=
  [.deepgramNova3MultiV2, .elevenlabsScribeV2MultiV3].find? fun identity =>
    descriptor.contractVersion = identity.contractVersion.toUInt16 && descriptor.provider = identity.provider &&
      descriptor.model = identity.model && descriptor.language = identity.language

def liveIdentity (descriptor : LiveCapabilityDescriptor) : Option LiveIdentity :=
  match descriptor.protocolVersion, descriptor.provider, descriptor.model with
  | 2, "deepgram", "nova-3" => some .deepgramNova3
  | 2, "elevenlabs", "scribe_v2_realtime" => some .elevenlabsScribeV2Realtime
  | _, _, _ => none

namespace ProfileRegistry

/-- Binds one batch profile, or panics. -/
def withBatch (registry : ProfileRegistry) (recognizer : BatchAdapter) : Option ProfileRegistry :=
  (batchIdentity recognizer.capabilities).map fun
    | .deepgramNova3MultiV2 => { registry with deepgramBatch := some recognizer }
    | .elevenlabsScribeV2MultiV3 => { registry with elevenlabsBatch := some recognizer }

/-- Binds one live profile, or panics. -/
def withLive (registry : ProfileRegistry) (recognizer : LiveAdapter) : Option ProfileRegistry :=
  (liveIdentity recognizer.capabilities).map fun
    | .deepgramNova3 => { registry with deepgramLive := some recognizer }
    | .elevenlabsScribeV2Realtime => { registry with elevenlabsLive := some recognizer }

/-- The configured batch profile, without fallback. -/
def batch (registry : ProfileRegistry) : BatchIdentity → Option BatchAdapter
  | .deepgramNova3MultiV2 => registry.deepgramBatch
  | .elevenlabsScribeV2MultiV3 => registry.elevenlabsBatch

/-- The configured live profile, without fallback. -/
def live (registry : ProfileRegistry) : LiveIdentity → Option LiveAdapter
  | .deepgramNova3 => registry.deepgramLive
  | .elevenlabsScribeV2Realtime => registry.elevenlabsLive

end ProfileRegistry

/-- The registries composition can build. -/
inductive Composed : ProfileRegistry → Prop
  | new : Composed {}
  | withBatch {registry registry' : ProfileRegistry} {recognizer : BatchAdapter} (h : Composed registry)
      (hbind : registry.withBatch recognizer = some registry') : Composed registry'
  | withLive {registry registry' : ProfileRegistry} {recognizer : LiveAdapter} (h : Composed registry)
      (hbind : registry.withLive recognizer = some registry') : Composed registry'

/-- Every bound adapter is in the slot of its own identity. -/
theorem Composed.bound {registry : ProfileRegistry} (h : Composed registry) :
    (∀ identity recognizer, registry.batch identity = some recognizer →
      batchIdentity recognizer.capabilities = some identity) ∧
    ∀ identity recognizer, registry.live identity = some recognizer →
      liveIdentity recognizer.capabilities = some identity := by
  induction h with
  | new => exact ⟨fun identity _ hbound => (by cases identity <;> cases hbound),
      fun identity _ hbound => (by cases identity <;> cases hbound)⟩
  | @withBatch registry registry' recognizer _ hbind ih =>
    obtain ⟨identity, hidentity, rfl⟩ := Option.map_eq_some_iff.mp hbind
    refine ⟨fun other bound hbound => ?_, fun other bound hbound => ih.2 other bound ?_⟩
    · cases identity <;> cases other <;>
        first
          | exact Option.some.inj hbound ▸ hidentity
          | exact ih.1 _ bound hbound
    · cases identity <;> cases other <;> exact hbound
  | @withLive registry registry' recognizer _ hbind ih =>
    obtain ⟨identity, hidentity, rfl⟩ := Option.map_eq_some_iff.mp hbind
    refine ⟨fun other bound hbound => ih.1 other bound ?_, fun other bound hbound => ?_⟩
    · cases identity <;> cases other <;> exact hbound
    · cases identity <;> cases other <;>
        first
          | exact Option.some.inj hbound ▸ hidentity
          | exact ih.2 _ bound hbound

/-- A batch identity is that of one adapter. -/
theorem batchIdentity_eq_some {recognizer : BatchAdapter} {identity : BatchIdentity} :
    batchIdentity recognizer.capabilities = some identity ↔
      identity = .deepgramNova3MultiV2 ∧ recognizer = .deepgram ∨
        identity = .elevenlabsScribeV2MultiV3 ∧ recognizer = .elevenlabs := by
  cases recognizer <;> cases identity <;> decide

/-- A live identity is that of one factory. -/
theorem liveIdentity_eq_some {recognizer : LiveAdapter} {identity : LiveIdentity} :
    liveIdentity recognizer.capabilities = some identity ↔
      identity = .deepgramNova3 ∧ recognizer = .deepgram ∨
        identity = .elevenlabsScribeV2Realtime ∧ recognizer = .elevenlabs := by
  cases recognizer <;> cases identity <;> decide

end Voicetext.Gateway
