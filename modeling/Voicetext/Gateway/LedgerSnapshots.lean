import Voicetext.Gateway.Runs

/-!
# Snapshots handed to the ledger

Every snapshot of an insert or a compare-and-swap is well formed, whatever the provider answered,
whatever the projection decided, and whether or not the ledger accepts it. Attempts are counted
against the version a replacement was computed from.
-/

namespace Voicetext.Gateway

open Voicetext.Common Voicetext.Speech.Domain Voicetext.Speech.Application Voicetext.Gateway.Storage

variable {ι : Type*} [DecidableEq ι] {config : GatewayConfig} {allowed : Environment ι}
  {calls : ι → GatewayCall} {s s' : GatewayState ι} {i : ι}

/-- How the attempt of a replacement continues the version it replaces. -/
def ContinuesAttempt (prev replacement : BatchJobSnapshot) : Prop :=
  ((∃ n, replacement.job.state = .submitting n) ∧ prev.job.state.isActionable = true ∧
      replacement.job.state.attempts = prev.job.state.attempts + 1) ∨
    (¬∃ n, replacement.job.state = .submitting n) ∧
      replacement.job.state.attempts = prev.job.state.attempts

/-- What holds of the snapshot an operation hands to the ledger. -/
def HandsOver (w : GatewayWorld ι) : GatewayOp → Prop
  | .insertRow snapshot => WellFormed snapshot ∧ snapshot.job.state = .accepted
  | .updateRow expected replacement => WellFormed replacement ∧
      ∃ prev, Held w.history prev ∧ prev.revision = expected ∧ SameJob prev replacement ∧
        ContinuesAttempt prev replacement
  | _ => True

/-- A call's entitlement to an operation includes the well-formedness of what it hands over. -/
theorem handsOver_of_pre {w : GatewayWorld ι} (hinv : Inv config allowed calls w) {op : GatewayOp}
    (hpre : Pre calls i op w) : HandsOver w op := by
  cases op with
  | insertRow snapshot =>
    obtain ⟨hrow, _⟩ := hpre
    exact ⟨.accepted hrow.state hrow.reference hrow.retryAfter hrow.result, hrow.state⟩
  | updateRow expected replacement =>
    obtain ⟨prev, hheld, hrevision, hproposes⟩ := hpre
    have hreplaces := hproposes.replaces
    refine ⟨hreplaces.wellFormed (hinv.justified.version hheld).1, prev, hheld, hrevision,
      hreplaces.sameJob.1, ?_⟩
    rcases hreplaces.attempts with ⟨hactionable, hattempts, hclaim⟩ | ⟨_, hattempts, hnot⟩
    · exact .inl ⟨hclaim, hactionable, hattempts⟩
    · exact .inr ⟨hnot, hattempts⟩
  | selectRow | selectRecoveryHead | selectRecoveryPage | storeAudio | readAudio | removeAudio
  | recognize => trivial

/-- Along a run the stored attempt of a job never decreases. -/
theorem Reachable.attempts_le (hreach : Reachable config allowed calls s)
    (hrun : PoolReaches (gatewayService config allowed) s s') {id : BatchJobId}
    {row row' : BatchJobSnapshot} (hrow : s.world.ledger.lookup id.asStr = some row)
    (hrow' : s'.world.ledger.lookup id.asStr = some row') :
    row.job.state.attempts ≤ row'.job.state.attempts := by
  have hinv' := (hreach.later hrun).inv
  rw [hreach.inv.agrees] at hrow
  obtain ⟨hheld, rfl⟩ := held_of_latest hrow
  obtain ⟨newer, hnewer⟩ := history_grows hrun
  have hheld' : Held s'.world.history row := hheld.mono (hnewer ▸ List.subset_append_right _ _)
  obtain ⟨current, hcurrent, hprecedes⟩ := hinv'.justified.precedes hheld'
  rw [hinv'.agrees, hcurrent] at hrow'
  obtain rfl := Option.some.inj hrow'
  exact hprecedes.attempts

/-- In every run, what is handed to the ledger is well formed and attempts only move forward. -/
theorem Reachable.handsOver (hreach : Reachable config unrestricted calls s) :
    (∀ i op resume, s.pool i = .await op resume → HandsOver s.world op) ∧
      ∀ s' (id : BatchJobId) row row', PoolReaches (gatewayService config unrestricted) s s' →
        s.world.ledger.lookup id.asStr = some row → s'.world.ledger.lookup id.asStr = some row' →
        row.job.state.attempts ≤ row'.job.state.attempts :=
  ⟨fun _ _ _ hawait => handsOver_of_pre hreach.inv (hreach.pending hawait),
    fun _ _ _ _ hrun hrow hrow' => hreach.attempts_le hrun hrow hrow'⟩

/-- One admission of the sample job and one execution of it. -/
def executedCalls : Fin 2 → GatewayCall
  | 0 => .admitBatch sampleRequest
  | 1 => .execute sampleId sampleProjection

/-- The update a call awaits. -/
def pendingUpdate (s : GatewayState (Fin 2)) (i : Fin 2) : Option (UInt64 × BatchJobSnapshot) :=
  match s.pool i with
  | .await (.updateRow expected replacement) _ => some (expected, replacement)
  | _ => none

/-- The failed outcome of the first attempt is handed over well formed. -/
theorem handsOver_recording :
    ∃ s : GatewayState (Fin 2), Reachable sampleGateway unrestricted executedCalls s ∧
      ∃ expected replacement, pendingUpdate s 1 = some (expected, replacement) ∧
        HandsOver s.world (.updateRow expected replacement) := by
  obtain ⟨s, hreach, hobserved⟩ := exists_reachable_of_schedule sampleGateway unrestricted
    executedCalls (fun _ _ _ _ => true)
    [(0, .served), (0, .served), (0, .served), (0, .served), (1, .served), (1, .served), (1, .served),
      (1, .answers sampleFailure)]
    (fun s => (pendingUpdate s 1).isSome)
    (fun _ _ _ _ _ => trivial) (by decide +kernel)
  obtain ⟨⟨expected, replacement⟩, hpending⟩ := Option.isSome_iff_exists.mp hobserved
  refine ⟨s, hreach, expected, replacement, hpending, ?_⟩
  unfold pendingUpdate at hpending
  split at hpending
  · rename_i hawait
    cases hpending
    exact hreach.handsOver.1 1 _ _ hawait
  · cases hpending

end Voicetext.Gateway
