import Voicetext.Common.TaskPool
import Voicetext.Gateway.Storage.Postgres
import Voicetext.Gateway.Storage.Spool

/-!
# The world shared by concurrent batch calls

The durable ledger and spool, together with a history of what has taken effect so far, newest
first. The history is ghost state: no call reads it. Serving an operation leaves open whether a
ledger or spool call fails, whether a failed call took effect before its reply was lost, and what
the provider answers; those are the server's choices.
-/

namespace Voicetext.Gateway

open Voicetext.Common Voicetext.Speech.Domain Voicetext.Speech.Application Voicetext.Gateway.Storage

variable {ι : Type*}

/-- One effect on the world, stamped with the call which caused it. -/
inductive GatewayEvent (ι : Type*)
  /-- A ledger row was durably written. -/
  | wrote (call : ι) (row : BatchJobSnapshot)
  /-- A ledger statement changed nothing. -/
  | declined (call : ι)
  /-- The provider was called, by a call which last wrote the claimed row. -/
  | recognized (call : ι) (claimed : Option BatchJobSnapshot) (request : BatchRecognitionRequest)
      (outcome : Recognition)
  /-- The spool reported the job's artifact as stored, created by this call or existing before. -/
  | stored (call : ι) (id : BatchJobId) (handle : BatchAudioHandle) (created : Bool)
  /-- The artifact was removed, or was found missing. -/
  | removed (call : ι) (handle : BatchAudioHandle)

/-- The call an event belongs to. -/
def GatewayEvent.call : GatewayEvent ι → ι
  | wrote call _ | declined call | recognized call _ _ _ | stored call _ _ _ | removed call _ => call

/-- The fixed libraries and bounds of one gateway, and what its ledger can encode. -/
structure GatewayConfig extends SpoolConfig where
  storable : BatchJobSnapshot → Except RecordError Unit

/-- Ledger, spool and the history of their effects. -/
structure GatewayWorld (ι : Type*) where
  ledger : JobTable
  spool : Spool
  history : List (GatewayEvent ι)

/-- What the server decides when it serves an operation. -/
inductive ServerChoice
  | served
  | ledgerFails (failure : BatchJobStoreFailure) (committed : Bool)
  | spoolFails (failure : BatchAudioSpoolFailure) (progress : SpoolConfig.Progress)
  | answers (outcome : Recognition)

/-- Whether the choice makes a ledger or spool call fail. -/
def ServerChoice.isFault : ServerChoice → Bool
  | ledgerFails _ _ | spoolFails _ _ => true
  | served | answers _ => false

namespace GatewayWorld

/-- Nothing stored and nothing done yet. -/
def initial : GatewayWorld ι := ⟨.empty, .empty, []⟩

def record (w : GatewayWorld ι) (event : GatewayEvent ι) : GatewayWorld ι :=
  { w with history := event :: w.history }

/-- Durably write one row. -/
def write (w : GatewayWorld ι) (call : ι) (row : BatchJobSnapshot) : GatewayWorld ι :=
  { w with ledger := w.ledger.put row, history := .wrote call row :: w.history }

end GatewayWorld

/-- The row a call wrote last, newest events first. -/
def lastWritten [DecidableEq ι] (call : ι) : List (GatewayEvent ι) → Option BatchJobSnapshot
  | [] => none
  | .wrote author row :: past => if author = call then some row else lastWritten call past
  | _ :: past => lastWritten call past

/-- Answer a query of the ledger. -/
def serveQuery {α : Type} (w : GatewayWorld ι) (answer : α) :
    ServerChoice → Option (GatewayWorld ι × Except BatchJobStoreFailure α)
  | .served => some (w, .ok answer)
  | .ledgerFails failure _ => some (w, .error failure)
  | .spoolFails _ _ | .answers _ => none

/-- Execute a writing statement, given the row it is about to write. -/
def serveStatement (call : ι) (w : GatewayWorld ι)
    (planned : Except BatchJobStoreFailure (Option BatchJobSnapshot)) :
    ServerChoice → Option (GatewayWorld ι × Except BatchJobStoreFailure (Option BatchJobSnapshot))
  | .served =>
    match planned with
    | .ok (some row) => some (w.write call row, .ok (some row))
    | .ok none => some (w.record (.declined call), .ok none)
    | .error failure => some (w.record (.declined call), .error failure)
  | .ledgerFails failure committed =>
    match planned, committed with
    | .ok (some row), true => some (w.write call row, .error failure)
    | _, _ => some (w.record (.declined call), .error failure)
  | .spoolFails _ _ | .answers _ => none

/-- Execute a spool store. -/
def serveStore (config : GatewayConfig) (call : ι) (w : GatewayWorld ι) (id : BatchJobId)
    (audio : List UInt8) :
    ServerChoice → Option (GatewayWorld ι × Except BatchAudioSpoolFailure BatchAudioStoreOutcome)
  | .served =>
    match config.storeBlocking w.spool id audio with
    | (spool, .ok (.stored handle)) =>
      some (({ w with spool } : GatewayWorld ι).record (.stored call id handle true), .ok (.stored handle))
    | (spool, .ok (.existing handle)) =>
      some (({ w with spool } : GatewayWorld ι).record (.stored call id handle false),
        .ok (.existing handle))
    | (spool, .error failure) => some ({ w with spool }, .error failure)
  | .spoolFails failure progress =>
    some ({ w with spool := config.storeInterrupted w.spool id audio progress }, .error failure)
  | .ledgerFails _ _ | .answers _ => none

/-- Execute a spool removal. -/
def serveRemove (config : GatewayConfig) (call : ι) (w : GatewayWorld ι) (handle : BatchAudioHandle) :
    ServerChoice → Option (GatewayWorld ι × Except BatchAudioSpoolFailure BatchAudioRemoveOutcome)
  | .served =>
    match config.removeBlocking w.spool handle with
    | (spool, .ok outcome) =>
      some (({ w with spool } : GatewayWorld ι).record (.removed call handle), .ok outcome)
    | (spool, .error failure) => some ({ w with spool }, .error failure)
  | .spoolFails failure progress =>
    some ({ w with spool := config.removeInterrupted w.spool handle progress }, .error failure)
  | .ledgerFails _ _ | .answers _ => none

/-- Execute a spool read. -/
def serveRead (config : GatewayConfig) (w : GatewayWorld ι) (handle : BatchAudioHandle) :
    ServerChoice → Option (GatewayWorld ι × Except BatchAudioSpoolFailure (List UInt8))
  | .served => some (w, config.readBlocking w.spool handle)
  | .spoolFails failure _ => some (w, .error failure)
  | .ledgerFails _ _ | .answers _ => none

/-- Serve one operation of one call with one choice. -/
def serve [DecidableEq ι] (config : GatewayConfig) (call : ι) (w : GatewayWorld ι) :
    (op : GatewayOp) → ServerChoice → Option (GatewayWorld ι × op.Reply)
  | .selectRow id, choice => serveQuery w (w.ledger.lookup id.asStr) choice
  | .insertRow snapshot, choice =>
    (serveStatement call w (JobTable.insertRow config.storable w.ledger snapshot) choice).map
      fun (w', reply) => (w', reply.map Option.isSome)
  | .updateRow expected replacement, choice =>
    serveStatement call w (JobTable.updateRow config.storable w.ledger expected replacement) choice
  | .selectRecoveryHead, choice => serveQuery w (JobTable.recoveryHead w.ledger) choice
  | .selectRecoveryPage after through limit, choice =>
    serveQuery w (JobTable.recoveryPage w.ledger after through limit) choice
  | .storeAudio id audio, choice => serveStore config call w id audio choice
  | .readAudio handle, choice => serveRead config w handle choice
  | .removeAudio handle, choice => serveRemove config call w handle choice
  | .recognize request, choice =>
    match choice with
    | .answers outcome =>
      some (w.record (.recognized call (lastWritten call w.history) request outcome), outcome)
    | _ => none

section Inversion

variable {call : ι} {w w' : GatewayWorld ι} {choice : ServerChoice}

/-- A query never changes the world, and a successful one answers from the current table. -/
theorem serveQuery_cases {α : Type} {answer : α} {reply : Except BatchJobStoreFailure α}
    (h : serveQuery w answer choice = some (w', reply)) :
    w' = w ∧ (reply = .ok answer ∨ choice.isFault = true ∧ ∃ failure, reply = .error failure) := by
  cases choice with
  | served =>
    simp only [serveQuery, Option.some.injEq, Prod.mk.injEq] at h
    exact ⟨h.1.symm, .inl h.2.symm⟩
  | ledgerFails failure committed =>
    simp only [serveQuery, Option.some.injEq, Prod.mk.injEq] at h
    exact ⟨h.1.symm, .inr ⟨rfl, failure, h.2.symm⟩⟩
  | spoolFails failure progress => simp [serveQuery] at h
  | answers outcome => simp [serveQuery] at h

/-- A statement either writes its planned row, whatever it replies, or changes nothing durable. -/
theorem serveStatement_cases {planned reply : Except BatchJobStoreFailure (Option BatchJobSnapshot)}
    (h : serveStatement call w planned choice = some (w', reply)) :
    (∃ row, planned = .ok (some row) ∧ w' = w.write call row ∧
        (reply = .ok (some row) ∨ ∃ failure, reply = .error failure)) ∨
      w' = w.record (.declined call) ∧
        (planned = .ok none ∧ reply = .ok none ∨ ∃ failure, reply = .error failure) := by
  cases choice with
  | served =>
    match planned with
    | .ok (some row) =>
      simp only [serveStatement, Option.some.injEq, Prod.mk.injEq] at h
      exact .inl ⟨row, rfl, h.1.symm, .inl h.2.symm⟩
    | .ok none =>
      simp only [serveStatement, Option.some.injEq, Prod.mk.injEq] at h
      exact .inr ⟨h.1.symm, .inl ⟨rfl, h.2.symm⟩⟩
    | .error failure =>
      simp only [serveStatement, Option.some.injEq, Prod.mk.injEq] at h
      exact .inr ⟨h.1.symm, .inr ⟨failure, h.2.symm⟩⟩
  | ledgerFails failure committed =>
    match planned, committed with
    | .ok (some row), true =>
      simp only [serveStatement, Option.some.injEq, Prod.mk.injEq] at h
      exact .inl ⟨row, rfl, h.1.symm, .inr ⟨failure, h.2.symm⟩⟩
    | .ok (some row), false | .ok none, _ | .error _, _ =>
      simp only [serveStatement, Option.some.injEq, Prod.mk.injEq] at h
      exact .inr ⟨h.1.symm, .inr ⟨failure, h.2.symm⟩⟩
  | spoolFails failure progress => simp [serveStatement] at h
  | answers outcome => simp [serveStatement] at h

end Inversion

end Voicetext.Gateway
