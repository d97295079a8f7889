import Voicetext.Common.FloatWidening
import Voicetext.Gateway.Contracts.BatchOutbound

/-!
# From application results to the public batch response

A completed result is projected the same way before it becomes durable and when it is served. Confidences
are widened, an absent readable projection is an empty one, and a provider reference is shown by the third
contract only.
-/

namespace Voicetext.Gateway.Contracts

open Voicetext.Common Voicetext.Speech.Domain Voicetext.Speech.Application
open Voicetext.Gateway.Storage (UuidCodec)

def outboundSegment (segment : BatchSegment) : OutboundSegment :=
  ⟨segment.startMillis, segment.endMillis, segment.text, segment.confidence.map f64From⟩

def outboundReadable (segment : BatchReadableSegment) : OutboundReadableSegment :=
  ⟨segment.startMillis, segment.endMillis, segment.text, segment.sourceSegmentIndices⟩

/-- Builds the single completed projection shared by pre-persistence validation and serving. -/
def completedResponse {codec : UuidCodec} (identity : BatchIdentity) (jobId : codec.Uuid)
    (result : BatchRecognitionResult) : OutboundBatchResponse codec :=
  .completed jobId {
    text := result.text
    durationMillis := result.durationMillis
    segments := result.segments.map outboundSegment
    readableSegments := (result.readableSegments.getD []).map outboundReadable
    providerRequestId :=
      if identity = .elevenlabsScribeV2MultiV3 then result.providerReference.map (·.id) else none }

def identityForResult (result : BatchRecognitionResult) : Option BatchIdentity := identityForProfile result.profile

/-- Exact gateway contract validator injected at the application completion boundary. -/
def gatewayBatchResultProjection (codec : UuidCodec) (numbers : WireNumbers) : BatchResultProjection where
  validate id result :=
    match codec.parseStr id.asStr with
    | none => .error .mk
    | some jobId =>
      match identityForResult result with
      | none => .error .mk
      | some identity =>
        match BatchOutbound.serializeResponse numbers identity (completedResponse identity jobId result) with
        | .ok _ => .ok ()
        | .error _ => .error .mk

/-- The projection accepts a result whose response is serialized for its job under its identity. -/
theorem validate_eq_ok {codec : UuidCodec} {numbers : WireNumbers} {id : BatchJobId} {result : BatchRecognitionResult} :
    (gatewayBatchResultProjection codec numbers).validate id result = .ok () ↔
      ∃ jobId identity response, codec.parseStr id.asStr = some jobId ∧ identityForResult result = some identity ∧
        BatchOutbound.serializeResponse numbers identity (completedResponse identity jobId result) =
          .ok response := by
  unfold gatewayBatchResultProjection
  constructor
  · intro h
    dsimp only at h
    split at h
    · cases h
    · rename_i jobId hjobId
      split at h
      · cases h
      · rename_i identity hidentity
        split at h
        · rename_i response hresponse
          exact ⟨jobId, identity, response, hjobId, hidentity, hresponse⟩
        · cases h
  · rintro ⟨jobId, identity, response, hjobId, hidentity, hresponse⟩
    dsimp only
    rw [hjobId]
    dsimp only
    rw [hidentity]
    dsimp only
    rw [hresponse]

/-- A projection does not depend on the operation kind of a reference. -/
theorem completedResponse_untyped {codec : UuidCodec} (identity : BatchIdentity) (jobId : codec.Uuid)
    (result : BatchRecognitionResult) :
    completedResponse identity jobId { result with
      providerReference := result.providerReference.map fun reference => .new reference.id } =
        completedResponse identity jobId result := by
  have hids : (result.providerReference.map fun reference => ProviderReference.new reference.id).map (·.id) =
      result.providerReference.map (·.id) := by
    rw [Option.map_map]
    rfl
  simp only [completedResponse, hids]

end Voicetext.Gateway.Contracts
