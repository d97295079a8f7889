import Voicetext.Gateway.Contracts.BatchProjection
import Voicetext.Gateway.Server.Recovery

/-!
# The bounded backlog worker

After reconciliation a worker goes through the frozen backlog page by page, and executes each candidate under the
slots of its contract. Each candidate which is handed on is reported with what became of it. The loop is unbounded
in the source, so it runs here on fuel, and reports its visits also when the fuel is used up.
-/

namespace Voicetext.Gateway.Server

open Voicetext.Common Voicetext.Speech.Application Voicetext.Gateway.Storage Voicetext.Gateway.Contracts

def RESUME_PAGE_LIMIT : ℕ := 100

/-- What became of a candidate. -/
inductive VisitOutcome
  | unknownProfile
  | unconfigured
  /-- Slots are refused once the gateway shuts down. -/
  | noSlots
  | executed (outcome : Except BatchCoordinatorFailure BatchExecutionReport)

/-- A candidate handed on, with what became of it. -/
structure Visit where
  id : BatchJobId
  outcome : VisitOutcome

/-- What the worker finds in the gateway: the contracts with a recognizer, and whether the slots of the next
candidate are granted after so many others. -/
structure BacklogGateway where
  numbers : WireNumbers
  configured : BatchIdentity → Bool
  granted : ℕ → Bool

section Worker

variable (codec : UuidCodec) (state : BacklogGateway)

/-- Execute one candidate, unless its contract is not served or its slots are refused. -/
def executeActionable (visited : ℕ) (snapshot : BatchJobSnapshot) : GatewayTask VisitOutcome :=
  match identityForProfile snapshot.job.profile with
  | none => return .unknownProfile
  | some identity =>
    if state.configured identity = false then return .unconfigured
    else if state.granted visited = false then return .noSlots
    else do
      -- the size of the audio is read for the metrics, and a failure to read it is ignored
      let _ ← durableFileSpool.read snapshot.audio
      let outcome ← (coordinator codec).executeWithCleanupReport snapshot.id
        (gatewayBatchResultProjection codec state.numbers)
      return .executed outcome

/-- Execute the candidates of a page in order. -/
def executePage (visits : List Visit) : List BatchJobSnapshot → GatewayTask (List Visit)
  | [] => return visits
  | snapshot :: rest => do
    let outcome ← executeActionable codec state visits.length snapshot
    executePage (visits ++ [⟨snapshot.id, outcome⟩]) rest

/-- The page loop, from the visits and the cursor so far. -/
def drainPages (head : BatchJobId) : ℕ → List Visit → Option BatchJobId →
    GatewayTask (List Visit × Option (Except StartupRecoveryFailure Unit))
  | 0, visits, _ => return (visits, none)
  | fuel + 1, visits, cursor => do
    match ← (postgresBatchJobStore codec).listRecoveryCandidatesThrough cursor head RESUME_PAGE_LIMIT with
    | .error _ => return (visits, some (.error ⟨"RECOVERY_LEDGER_UNAVAILABLE"⟩))
    | .ok candidates =>
      let nextCursor := candidates.getLast?.map (·.id)
      let visits ← executePage codec state visits candidates
      if candidates.length < RESUME_PAGE_LIMIT then return (visits, some (.ok ()))
      else
        match nextCursor with
        | none => return (visits, some (.error ⟨"RECOVERY_CURSOR_MISSING"⟩))
        | some next =>
          match advanceCursor cursor next with
          | .error failure => return (visits, some (.error failure))
          | .ok _ => drainPages head fuel visits (some next)

def drainBacklog (fuel : ℕ) (head : BatchJobId) :
    GatewayTask (List Visit × Option (Except StartupRecoveryFailure Unit)) :=
  drainPages codec state head fuel [] none

end Worker

end Voicetext.Gateway.Server
