import Voicetext.Gateway.ExecutionCall

/-!
# Startup recovery against everything the other calls may do

Reconciling a page is a loop over candidates which may be stale by the time their turn comes. The
loop keeps two facts: every remaining candidate is a version the ledger once held, and nothing is
left to clean up so far.
-/

namespace Voicetext.Gateway

open Voicetext.Common Voicetext.Speech.Domain Voicetext.Speech.Application Voicetext.Gateway.Storage

variable {ι : Type*} [DecidableEq ι] {config : GatewayConfig} {allowed : Environment ι}
  {calls : ι → GatewayCall} {w : GatewayWorld ι} {i : ι}

/-- The remaining candidates of a page are reconciled whatever became of them meanwhile. -/
theorem reconcileRest_secured (hinv : Inv config allowed calls w)
    (hclean : CleanedUp config allowed i w) (report : BatchStartupRecovery)
    (candidates : List BatchJobSnapshot) (hheld : ∀ row ∈ candidates, Held w.history row) :
    (gatewayProtocol config allowed calls).Secured i (fun _ w => CleanedUp config allowed i w)
      ((coordinator config.codec).reconcileRest report candidates) w := by
  -- induction on the page: every candidate leaves the loop's two facts to the rest
  induction candidates generalizing report w with
  | nil => exact hclean.done
  | cons snapshot rest ih =>
    have hsnapshot := hheld snapshot List.mem_cons_self
    have hrest {w' : GatewayWorld ι} (hsub : w.history ⊆ w'.history) :
        ∀ row ∈ rest, Held w'.history row := fun row hrow =>
      (hheld row (List.mem_cons_of_mem _ hrow)).mono hsub
    unfold BatchCoordinator.reconcileRest
    cases hstate : snapshot.job.state with
    | accepted => exact ih hinv hclean _ (hrest (List.Subset.refl _))
    | retryable n failure => exact ih hinv hclean _ (hrest (List.Subset.refl _))
    | completed n => exact ih hinv hclean _ (hrest (List.Subset.refl _))
    | failed n failure => exact ih hinv hclean _ (hrest (List.Subset.refl _))
    | outcomeUnknown n reason => exact ih hinv hclean _ (hrest (List.Subset.refl _))
    | submitting n =>
      refine secured_bind (compareAndSwapInner_secured rfl hinv hsnapshot rfl
        (.interrupted hstate)) hinv ?_
      intro reply w₁ hinv₁ hswapped hsub
      rcases reply with failure | (stored | current | _)
      · exact (hswapped.cleanedUp hclean (by simp)).done
      · obtain ⟨rfl, hown₁⟩ := hswapped.stored stored rfl
        have hterminal : (nextRow (recovered snapshot)).job.state.isTerminal = true := by
          rw [recovered_of_submitting hstate]
          rfl
        refine secured_bind (removeWritten_secured hinv₁ hown₁ hterminal) hinv₁ ?_
        intro reply w₂ hinv₂ hown₂ hsub'
        have hclean₂ := CleanedUp.of_removed hclean hown₂
        cases reply with
        | error failure => exact hclean₂.done
        | ok outcome => exact ih hinv₂ hclean₂ _ (hrest (List.Subset.trans hsub hsub'))
      · exact ih hinv₁ (hswapped.cleanedUp hclean (by simp)) _ (hrest hsub)
      · exact ih hinv₁ (hswapped.cleanedUp hclean (by simp)) _ (hrest hsub)

/-- A page, truncated or not, is reconciled whatever became of its candidates meanwhile. -/
theorem reconcileCandidates_secured (hinv : Inv config allowed calls w)
    (hclean : CleanedUp config allowed i w) (candidates : List BatchJobSnapshot)
    (hheld : ∀ row ∈ candidates, Held w.history row) :
    (gatewayProtocol config allowed calls).Secured i (fun _ w => CleanedUp config allowed i w)
      ((coordinator config.codec).reconcileCandidates candidates) w := by
  unfold BatchCoordinator.reconcileCandidates
  split
  · exact reconcileRest_secured hinv hclean _ _ fun row hrow => hheld row (List.mem_of_mem_take hrow)
  · exact reconcileRest_secured hinv hclean _ _ hheld

/-- Listing a page and reconciling it, for a call which has done nothing yet. -/
private theorem recoverPage_secured (hown : own i w.history = []) (hinv : Inv config allowed calls w)
    (after through : Option BatchJobId) :
    (gatewayProtocol config allowed calls).Secured i (fun _ w => CleanedUp config allowed i w)
      ((recoveryInner config.codec after through RECOVERY_BATCH_LIMIT).bind fun page =>
        match page with
        | .error failure => .done (.error (.store failure))
        | .ok candidates => (coordinator config.codec).reconcileCandidates candidates) w := by
  refine secured_bind (recoveryInner_secured hown after through _) hinv ?_
  rintro page w₁ hinv₁ ⟨hown₁, hheld⟩ -
  have hclean : CleanedUp config allowed i w₁ := fun _ => by rw [hown₁]; exact .nil
  match page with
  | .error failure => exact hclean.done
  | .ok candidates => exact reconcileCandidates_secured hinv₁ hclean candidates (hheld candidates rfl)

/-- Recovery without a frozen head is secured against every interleaving. -/
theorem recoverStartup_secured (hown : own i w.history = []) (hinv : Inv config allowed calls w)
    (after : Option BatchJobId) :
    (gatewayProtocol config allowed calls).Secured i (fun _ w => CleanedUp config allowed i w)
      ((coordinator config.codec).recoverStartup after) w :=
  recoverPage_secured hown hinv after none

/-- Recovery through a frozen head is secured against every interleaving. -/
theorem recoverStartupThrough_secured (hown : own i w.history = [])
    (hinv : Inv config allowed calls w) (after : Option BatchJobId) (through : BatchJobId) :
    (gatewayProtocol config allowed calls).Secured i (fun _ w => CleanedUp config allowed i w)
      ((coordinator config.codec).recoverStartupThrough after through) w :=
  recoverPage_secured hown hinv after (some through)

end Voicetext.Gateway
