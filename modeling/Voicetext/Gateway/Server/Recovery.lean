import Voicetext.Gateway.Calls
import Voicetext.Gateway.Contracts.Batch

/-!
# Exact-head startup reconciliation

Before the listener starts, every interrupted submission up to a frozen head is made terminally
unknown, page by page. The loop is unbounded in the source, so it runs here on fuel; how much fuel
is enough is a theorem about the backlog.
-/

namespace Voicetext.Gateway.Server

open Voicetext.Common Voicetext.Speech.Domain Voicetext.Speech.Application Voicetext.Gateway.Storage
  Voicetext.Gateway.Contracts

/-- `u64::saturating_add`. -/
def saturatingAdd (a b : UInt64) : UInt64 :=
  if a.toNat + b.toNat < 2 ^ 64 then a + b else .ofNat (2 ^ 64 - 1)

@[simp] theorem toNat_saturatingAdd (a b : UInt64) :
    (saturatingAdd a b).toNat = min (a.toNat + b.toNat) (2 ^ 64 - 1) := by
  unfold saturatingAdd
  split
  · rename_i hlt
    rw [UInt64.toNat_add, Nat.mod_eq_of_lt hlt, Nat.min_eq_left (by omega)]
  · rename_i hge
    rw [Nat.min_eq_right (by omega)]
    rfl

/-- Bounded evidence produced before the listener starts accepting requests. -/
structure StartupRecoverySummary where
  pages : UInt64 := 0
  recoveredUnknown : UInt64 := 0
  executed : UInt64 := 0
  notClaimed : UInt64 := 0
  skippedUnconfigured : UInt64 := 0
  conflicts : UInt64 := 0
  missing : UInt64 := 0
deriving DecidableEq

/-- One exact startup backlog, frozen before reconciliation begins. -/
structure StartupRecoveryPlan where
  summary : StartupRecoverySummary
  head : Option BatchJobId
deriving DecidableEq

/-- Safe startup recovery failure without provider or database response bodies. -/
structure StartupRecoveryFailure where
  code : String
deriving DecidableEq

/-- The parts of the server's state which reconciliation reads and writes. -/
structure GatewayServer where
  batch : BatchIdentity → Option (BatchRecognizer GatewayOp GatewayOp.Reply)
  startupReconciled : Bool

def GatewayServer.markStartupReconciled (state : GatewayServer) : GatewayServer :=
  { state with startupReconciled := true }

/-- Any configured recognizer serves as the seed of the recovery coordinator. -/
def firstBatchRecognizer (state : GatewayServer) : Option (BatchRecognizer GatewayOp GatewayOp.Reply) :=
  (state.batch .deepgramNova3MultiV2).or (state.batch .elevenlabsScribeV2MultiV3)

/-- A page which ends where it started would repeat for ever. -/
def advanceCursor (current : Option BatchJobId) (next : BatchJobId) :
    Except StartupRecoveryFailure Unit :=
  if current = some next then .error ⟨"RECOVERY_CURSOR_DID_NOT_ADVANCE"⟩ else .ok ()

def mapFailure : BatchCoordinatorFailure → StartupRecoveryFailure
  | .spool _ | .admissionCleanup _ _ => ⟨"RECOVERY_SPOOL_UNAVAILABLE"⟩
  | _ => ⟨"RECOVERY_LEDGER_UNAVAILABLE"⟩

/-- Count one reconciled page. -/
def StartupRecoverySummary.addPage (summary : StartupRecoverySummary) (page : BatchStartupRecovery) :
    StartupRecoverySummary :=
  { summary with
    pages := saturatingAdd summary.pages 1
    recoveredUnknown := saturatingAdd summary.recoveredUnknown (.ofNat page.recoveredUnknown.length)
    conflicts := saturatingAdd summary.conflicts (.ofNat page.conflicts.length)
    missing := saturatingAdd summary.missing (.ofNat page.missing.length) }

/-- The recovery coordinator over the gateway's ledger and spool. -/
def recoveryCoordinator (codec : UuidCodec) (seed : BatchRecognizer GatewayOp GatewayOp.Reply) :
    BatchCoordinator GatewayOp GatewayOp.Reply :=
  ⟨seed, postgresBatchJobStore codec, durableFileSpool⟩

/-- One round of the page loop: the counts so far and the cursor, or the final counts. -/
def reconcilePage (codec : UuidCodec) (seed : BatchRecognizer GatewayOp GatewayOp.Reply)
    (through : BatchJobId) (state : StartupRecoverySummary × Option BatchJobId) :
    GatewayTask ((StartupRecoverySummary × Option BatchJobId) ⊕
      Except StartupRecoveryFailure StartupRecoverySummary) := do
  match ← (recoveryCoordinator codec seed).recoverStartupThrough state.2 through with
  | .error failure => return .inr (.error (mapFailure failure))
  | .ok page =>
    let summary := state.1.addPage page
    match page.nextCursor with
    | none => return .inr (.ok summary)
    | some next =>
      match advanceCursor state.2 next with
      | .error failure => return .inr (.error failure)
      | .ok _ => return .inl (summary, some next)

/-- Reconcile the interrupted submissions through the head frozen at the start. -/
def reconcileStartup (codec : UuidCodec) (fuel : ℕ) (state : GatewayServer) :
    GatewayTask (Option (GatewayServer × Except StartupRecoveryFailure StartupRecoveryPlan)) := do
  match ← (postgresBatchJobStore codec).recoveryHead with
  | .error _ => return some (state, .error ⟨"RECOVERY_LEDGER_UNAVAILABLE"⟩)
  | .ok none => return some (state.markStartupReconciled, .ok ⟨{}, none⟩)
  | .ok (some through) =>
    match firstBatchRecognizer state with
    | none => return some (state, .error ⟨"NO_BATCH_PROFILE_CONFIGURED"⟩)
    | some seed =>
      match ← Task.loop (reconcilePage codec seed through) fuel ({}, none) with
      | none => return none
      | some (.error failure) => return some (state, .error failure)
      | some (.ok summary) =>
        return some (state.markStartupReconciled, .ok ⟨summary, some through⟩)

end Voicetext.Gateway.Server
