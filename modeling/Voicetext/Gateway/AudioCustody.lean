import Voicetext.Gateway.Runs

/-!
# Custody of the audio of live jobs

A live job keeps its audio in every run in which admissions roll back safely: whenever one removes
an artifact, no live row names it and no other admission is about to insert a row over it. Nothing
in an admission makes sure of that, and two admissions and one failing insert suffice to lose the
audio of an accepted job.
-/

namespace Voicetext.Gateway

open Voicetext.Common Voicetext.Speech.Domain Voicetext.Speech.Application Voicetext.Gateway.Storage

variable {ι : Type*} [DecidableEq ι] {config : GatewayConfig} {calls : ι → GatewayCall}
  {s : GatewayState ι}

/-- Everything may happen, but an admission removes only what nobody relies on. -/
def safeRollbacks (calls : ι → GatewayCall) : Environment ι := fun call w op _ =>
  ∀ handle, op = .removeAudio handle → (calls call).isAdmission = true → RollbackSafe w handle

/-- In every run with safe rollbacks the artifact of every live row is in the spool. -/
theorem safeRollbacks_liveAudioHeld (hreach : Reachable config (safeRollbacks calls) calls s) {id : BatchJobId}
    {row : BatchJobSnapshot} (hrow : s.world.ledger.lookup id.asStr = some row)
    (hlive : row.job.state.isTerminal = false) : s.world.spool.holds row.audio = true := by
  have hclean : CleanRollbacks (safeRollbacks calls) calls :=
    fun call w handle choice hadmission hallowed => hallowed handle rfl hadmission
  rw [hreach.inv.agrees] at hrow
  exact (hreach.inv.custody hclean).live id row hrow hlive

/-- Two equal admissions of the sample job. -/
def twinCalls : Fin 2 → GatewayCall := fun _ => .admitBatch sampleRequest

/-- An accepted sample job whose artifact is in the spool, or is not. -/
def acceptedWithAudio (held : Bool) (s : GatewayState (Fin 2)) : Bool :=
  (s.world.ledger.lookup sampleId.asStr).any fun row =>
    (row.job.state matches .accepted) && s.world.spool.holds row.audio = held

theorem exists_of_acceptedWithAudio {held : Bool} {s : GatewayState (Fin 2)}
    (h : acceptedWithAudio held s = true) :
    ∃ row, s.world.ledger.lookup sampleId.asStr = some row ∧ row.job.state = .accepted ∧
      s.world.spool.holds row.audio = held := by
  obtain ⟨row, hrow, hobserved⟩ := (Option.any_eq_true _ _).mp h
  rw [Bool.and_eq_true, decide_eq_true_eq] at hobserved
  obtain ⟨hstate, hheld⟩ := hobserved
  refine ⟨row, hrow, ?_, hheld⟩
  cases haccepted : row.job.state <;> simp_all

/-- When nobody has to roll back, the twins leave one accepted job with its audio. -/
theorem liveAudioHeld_twins :
    ∃ (s : GatewayState (Fin 2)) (row : BatchJobSnapshot),
      Reachable sampleGateway (safeRollbacks twinCalls) twinCalls s ∧
        s.world.ledger.lookup sampleId.asStr = some row ∧ row.job.state = .accepted ∧
        s.world.spool.holds row.audio = true := by
  obtain ⟨s, hreach, hobserved⟩ := exists_reachable_of_schedule sampleGateway (safeRollbacks twinCalls)
    twinCalls (fun _ _ op _ => !(op matches .removeAudio _))
    [(0, .served), (1, .served), (0, .served), (1, .served), (1, .served), (0, .served),
      (1, .served), (0, .served)]
    (acceptedWithAudio true) (fun i w op choice hpermits handle hop _ => by simp [hop] at hpermits)
    (by decide +kernel)
  obtain ⟨row, hrow, hstate, _⟩ := exists_of_acceptedWithAudio hobserved
  exact ⟨s, row, hreach, hrow, hstate, safeRollbacks_liveAudioHeld hreach hrow (by rw [hstate]; rfl)⟩

/-- Nothing fails but inserts, and those without committing. -/
def failsTransiently : GatewayOp → ServerChoice → Bool
  | .insertRow _, .ledgerFails _ committed => !committed
  | _, choice => !choice.isFault

/-- Every run in which only inserts fail, transiently. -/
def transientInserts : Environment ι := fun _ _ op choice => failsTransiently op choice = true

/-- The first twin stores the audio, fails to insert and sees no row; the second twin, who found the
audio there, then inserts the row; the first twin removes the audio. -/
theorem transientInserts_acceptedAudioLost :
    ∃ s : GatewayState (Fin 2), Reachable sampleGateway transientInserts twinCalls s ∧
      ∃ row, s.world.ledger.lookup sampleId.asStr = some row ∧ row.job.state = .accepted ∧
        s.world.spool.holds row.audio = false := by
  obtain ⟨s, hreach, hobserved⟩ := exists_reachable_of_schedule sampleGateway transientInserts
    twinCalls (fun _ _ => failsTransiently)
    [(0, .served), (1, .served), (0, .served), (1, .served),
      (0, .ledgerFails (.unavailable "DATABASE") false), (0, .served),
      (1, .served), (1, .served), (0, .served)]
    (acceptedWithAudio false) (fun _ _ _ _ hpermits => hpermits) (by decide +kernel)
  exact ⟨s, hreach, exists_of_acceptedWithAudio hobserved⟩

end Voicetext.Gateway
