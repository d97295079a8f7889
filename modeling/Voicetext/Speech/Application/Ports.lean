import Voicetext.Common.Task
import Voicetext.Speech.Domain.Batch

/-!
# Consumer-owned ports of the batch application

The models exchanged with the durable ledger, the audio spool and the paid recognizer, and those
ports themselves. A port is a record of tasks over an arbitrary family of operations, so the same
coordinator runs against any adapter.
-/

namespace Voicetext.Speech.Application

open Voicetext.Common Voicetext.Speech.Domain

/-- Opaque durable batch identity selected outside persistence adapters. -/
structure BatchJobId where
  asStr : String
deriving DecidableEq

/-- Provider-native identity category, without provider SDK or wire coupling. -/
inductive ProviderOperationKind
  | requestId
  | transcriptionId
  | sessionId
deriving DecidableEq

/-- Opaque provider reference safe to persist and expose diagnostically. -/
structure ProviderReference where
  id : String
  operationKind : Option ProviderOperationKind
deriving DecidableEq

/-- Wraps an adapter-normalized provider reference. -/
def ProviderReference.new (value : String) : ProviderReference := ⟨value, none⟩

/-- Provider-neutral failure evidence returned by recognition adapters. -/
inductive RecognitionFailure
  | knownNotAccepted (retryable : Bool) (code : String)
      (providerReference : Option ProviderReference) (retryAfterMillis : Option UInt64)
  | knownAcceptedTerminal (code : String) (providerReference : Option ProviderReference)
  | unknownAfterSend (code : String) (providerReference : Option ProviderReference)
deriving DecidableEq

/-- Provider-neutral batch recognition input. -/
structure BatchRecognitionRequest where
  profile : BatchProfile
  audio : List UInt8
  authoritativeDurationMillis : UInt64
  keyterms : List String
deriving DecidableEq

/-- One authoritative provider-neutral batch transcript segment. -/
structure BatchSegment where
  startMillis : UInt64
  endMillis : UInt64
  text : String
  confidence : Option Float32
  speaker : Option String

/-- Optional readable projection linked back to authoritative raw segments. -/
structure BatchReadableSegment where
  startMillis : UInt64
  endMillis : UInt64
  text : String
  sourceSegmentIndices : List UInt64
deriving DecidableEq

/-- Bounded provider-neutral batch recognition output. -/
structure BatchRecognitionResult where
  profile : BatchProfile
  text : String
  durationMillis : UInt64
  providerDurationMillis : Option UInt64
  segments : List BatchSegment
  readableSegments : Option (List BatchReadableSegment)
  providerReference : Option ProviderReference

/-- A provider call either yields a result or classified failure evidence. -/
abbrev Recognition := Except RecognitionFailure BatchRecognitionResult

/-- A completed provider result cannot be represented by the outbound contract. -/
inductive BatchResultProjectionFailure
  | mk
deriving DecidableEq

/-- Consumer-owned check performed before a provider result becomes durable completion. -/
structure BatchResultProjection where
  validate : BatchJobId → BatchRecognitionResult → Except BatchResultProjectionFailure Unit

/-- Opaque durable spool reference. -/
structure BatchAudioHandle where
  asStr : String
deriving DecidableEq

/-- Durable job snapshot returned by a job store. -/
structure BatchJobSnapshot where
  id : BatchJobId
  job : BatchJob
  audio : BatchAudioHandle
  authoritativeDurationMillis : UInt64
  keyterms : List String
  providerReference : Option ProviderReference
  retryAfterMillis : Option UInt64
  result : Option BatchRecognitionResult
  revision : UInt64

/-- Atomic insert outcome for an idempotent job identity. -/
inductive BatchJobInsertOutcome
  | inserted (snapshot : BatchJobSnapshot)
  | existing (snapshot : BatchJobSnapshot)

/-- Compare-and-swap outcome for durable lifecycle updates. -/
inductive BatchJobUpdateOutcome
  | stored (snapshot : BatchJobSnapshot)
  | revisionConflict (snapshot : BatchJobSnapshot)
  | missing

/-- Failure to access or decode durable batch job state. -/
inductive BatchJobStoreFailure
  | unavailable (code : String)
  | invalidSnapshot (code : String)
deriving DecidableEq

/-- Failure to access the durable bounded audio spool. -/
inductive BatchAudioSpoolFailure
  | unavailable (code : String)
  | missing
  | identityConflict
  | capacityExceeded
deriving DecidableEq

/-- Atomic spool outcome used to keep replay cleanup ownership explicit. -/
inductive BatchAudioStoreOutcome
  | stored (handle : BatchAudioHandle)
  | existing (handle : BatchAudioHandle)
deriving DecidableEq

/-- Idempotent outcome of removing one durable batch-audio artifact. -/
inductive BatchAudioRemoveOutcome
  | removed
  | alreadyMissing
deriving DecidableEq

/-- Durable job ledger capability with optimistic concurrency. -/
structure BatchJobStore (Op : Type) (Reply : Op → Type) where
  load : BatchJobId → Task Op Reply (Except BatchJobStoreFailure (Option BatchJobSnapshot))
  insert : BatchJobId → BatchJob → BatchAudioHandle → UInt64 → List String →
    Task Op Reply (Except BatchJobStoreFailure BatchJobInsertOutcome)
  compareAndSwap : UInt64 → BatchJobSnapshot →
    Task Op Reply (Except BatchJobStoreFailure BatchJobUpdateOutcome)
  recoveryHead : Task Op Reply (Except BatchJobStoreFailure (Option BatchJobId))
  listRecoveryCandidates : Option BatchJobId → ℕ →
    Task Op Reply (Except BatchJobStoreFailure (List BatchJobSnapshot))
  listRecoveryCandidatesThrough : Option BatchJobId → BatchJobId → ℕ →
    Task Op Reply (Except BatchJobStoreFailure (List BatchJobSnapshot))

/-- Durable atomic batch-audio storage capability. -/
structure BatchAudioSpool (Op : Type) (Reply : Op → Type) where
  store : BatchJobId → List UInt8 → Task Op Reply (Except BatchAudioSpoolFailure BatchAudioStoreOutcome)
  read : BatchAudioHandle → Task Op Reply (Except BatchAudioSpoolFailure (List UInt8))
  remove : BatchAudioHandle →
    Task Op Reply (Except BatchAudioSpoolFailure BatchAudioRemoveOutcome)

/-- Paid pre-recorded recognition capability. -/
structure BatchRecognizer (Op : Type) (Reply : Op → Type) where
  recognize : BatchRecognitionRequest → Task Op Reply Recognition

end Voicetext.Speech.Application
