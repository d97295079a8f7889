import Voicetext.Speech.Application.BatchCoordinator

/-!
# The operations the batch gateway awaits

One constructor for each SQL statement of the ledger adapter, each spool mutation, and the provider
call. A statement carries the application snapshot; encoding it into columns is part of executing
the statement.
-/

namespace Voicetext.Gateway.Storage

open Voicetext.Common Voicetext.Speech.Application

/-- One awaited interaction with the ledger, the spool or the provider. -/
inductive GatewayOp
  | selectRow (id : BatchJobId)
  | insertRow (snapshot : BatchJobSnapshot)
  | updateRow (expectedRevision : UInt64) (replacement : BatchJobSnapshot)
  | selectRecoveryHead
  | selectRecoveryPage (after through : Option BatchJobId) (limit : ℕ)
  | storeAudio (id : BatchJobId) (audio : List UInt8)
  | readAudio (handle : BatchAudioHandle)
  | removeAudio (handle : BatchAudioHandle)
  | recognize (request : BatchRecognitionRequest)

/-- What each operation replies; an insert reports whether it affected a row. -/
def GatewayOp.Reply : GatewayOp → Type
  | selectRow _ => Except BatchJobStoreFailure (Option BatchJobSnapshot)
  | insertRow _ => Except BatchJobStoreFailure Bool
  | updateRow _ _ => Except BatchJobStoreFailure (Option BatchJobSnapshot)
  | selectRecoveryHead => Except BatchJobStoreFailure (Option BatchJobId)
  | selectRecoveryPage _ _ _ => Except BatchJobStoreFailure (List BatchJobSnapshot)
  | storeAudio _ _ => Except BatchAudioSpoolFailure BatchAudioStoreOutcome
  | readAudio _ => Except BatchAudioSpoolFailure (List UInt8)
  | removeAudio _ => Except BatchAudioSpoolFailure BatchAudioRemoveOutcome
  | recognize _ => Recognition

/-- Tasks over the operations of the gateway. -/
abbrev GatewayTask (α : Type) := Task GatewayOp GatewayOp.Reply α

end Voicetext.Gateway.Storage
