import Voicetext.Gateway.World

/-!
# Concurrent calls of the batch coordinator

Any number of admissions, executions and startup recoveries share one ledger and one spool. A call
which has not taken its first step has not been made yet, so one pool covers concurrent and later
calls alike. The environment may further restrict which choices the server makes.
-/

namespace Voicetext.Gateway

open Voicetext.Common Voicetext.Speech.Application Voicetext.Gateway.Storage

/-- One call of the coordinator. -/
inductive GatewayCall
  | admitBatch (request : BatchAdmissionRequest)
  | execute (id : BatchJobId) (projection : BatchResultProjection)
  | recoverStartup (after : Option BatchJobId)
  | recoverStartupThrough (after : Option BatchJobId) (through : BatchJobId)

/-- What a call returns. -/
inductive CallResult
  | admission (result : Except BatchCoordinatorFailure BatchAdmissionOutcome)
  | execution (result : Except BatchCoordinatorFailure BatchExecutionReport)
  | recovery (result : Except BatchCoordinatorFailure BatchStartupRecovery)

def GatewayCall.isAdmission : GatewayCall → Bool
  | admitBatch _ => true
  | execute _ _ | recoverStartup _ | recoverStartupThrough _ _ => false

/-- The coordinator over the durable adapters. -/
def coordinator (codec : UuidCodec) : BatchCoordinator GatewayOp GatewayOp.Reply :=
  ⟨providerRecognizer, postgresBatchJobStore codec, durableFileSpool⟩

/-- The program a call runs. -/
def GatewayCall.program (codec : UuidCodec) : GatewayCall → GatewayTask (Option CallResult)
  | admitBatch request =>
    ((coordinator codec).admitBatch request).bind fun result => .done (some (.admission result))
  | execute id projection =>
    ((coordinator codec).executeWithCleanupReport id projection).bind fun result =>
      .done (some (.execution result))
  | recoverStartup after =>
    ((coordinator codec).recoverStartup after).bind fun result => .done (some (.recovery result))
  | recoverStartupThrough after through =>
    ((coordinator codec).recoverStartupThrough after through).bind fun result =>
      .done (some (.recovery result))

variable {ι : Type*} [DecidableEq ι]

/-- The tasks of all calls and the world they share. -/
abbrev GatewayState (ι : Type*) := PoolState ι (GatewayWorld ι) GatewayOp GatewayOp.Reply CallResult

/-- No call has started and nothing is stored. -/
def initialState (codec : UuidCodec) (calls : ι → GatewayCall) : GatewayState ι :=
  ⟨fun i => (calls i).program codec, .initial⟩

/-- What the environment lets the server choose when it serves a call's operation. -/
abbrev Environment (ι : Type*) := ι → GatewayWorld ι → GatewayOp → ServerChoice → Prop

/-- Serving within what the environment allows. -/
def gatewayService (config : GatewayConfig) (allowed : Environment ι) :
    Service ι (GatewayWorld ι) GatewayOp GatewayOp.Reply :=
  fun call w op w' reply =>
    ∃ choice, allowed call w op choice ∧ serve config call w op choice = some (w', reply)

/-- The states reachable by any interleaving of the calls within what the environment allows. -/
def Reachable (config : GatewayConfig) (allowed : Environment ι) (calls : ι → GatewayCall) :
    GatewayState ι → Prop :=
  PoolReaches (gatewayService config allowed) (initialState config.codec calls)

/-- Every failure, lost reply and provider answer is possible. -/
def unrestricted : Environment ι := fun _ _ _ _ => True

end Voicetext.Gateway
