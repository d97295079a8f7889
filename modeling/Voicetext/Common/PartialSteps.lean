import Mathlib.Logic.Relation

/-!
# Systems whose steps are not always possible

A step gives the next state when it can be taken. What a system reaches by allowed steps keeps every
invariant which those steps keep, and an explicit list of steps is evaluated to show what it reaches.
-/

namespace Voicetext.Common

variable {σ τ : Type*} {step : σ → τ → Option σ} {allowed allowed' : σ → τ → Prop} {s s' : σ}

/-- The states reached by allowed steps. -/
def StepReaches (step : σ → τ → Option σ) (allowed : σ → τ → Prop) : σ → σ → Prop :=
  Relation.ReflTransGen fun s s' => ∃ t, allowed s t ∧ step s t = some s'

/-- What allowed steps keep holds in every state they reach. -/
theorem StepReaches.invariant (hreach : StepReaches step allowed s s') (holds : σ → Prop) (hs : holds s)
    (hstep : ∀ s t s', holds s → allowed s t → step s t = some s' → holds s') : holds s' := by
  induction hreach with
  | refl => exact hs
  | tail _ hlast ih =>
    obtain ⟨t, hallowed, hnext⟩ := hlast
    exact hstep _ t _ ih hallowed hnext

/-- More is reached when more is allowed. -/
theorem StepReaches.mono (hreach : StepReaches step allowed s s') (hmono : ∀ s t, allowed s t → allowed' s t) :
    StepReaches step allowed' s s' :=
  Relation.ReflTransGen.mono (fun _ _ ⟨t, hallowed, hnext⟩ => ⟨t, hmono _ t hallowed, hnext⟩) _ _ hreach

/-- Take steps in order as long as they are allowed. -/
def runSteps (step : σ → τ → Option σ) (allowed : σ → τ → Prop) [∀ s t, Decidable (allowed s t)] (s : σ) :
    List τ → Option σ
  | [] => some s
  | t :: steps => if allowed s t then (step s t).bind fun next => runSteps step allowed next steps else none

/-- Steps taken in order reach a state. -/
theorem stepReaches_of_runSteps [∀ s t, Decidable (allowed s t)] {steps : List τ}
    (hrun : runSteps step allowed s steps = some s') : StepReaches step allowed s s' := by
  induction steps generalizing s with
  | nil =>
    obtain rfl := Option.some.inj hrun
    exact .refl
  | cons t steps ih =>
    unfold runSteps at hrun
    split at hrun
    · rename_i hallowed
      obtain ⟨next, hnext, hrest⟩ := Option.bind_eq_some_iff.mp hrun
      exact .head ⟨t, hallowed, hnext⟩ (ih hrest)
    · cases hrun

/-- What the state after a run is like is found by evaluating the run. -/
theorem exists_stepReaches [∀ s t, Decidable (allowed s t)] (steps : List τ) {p : σ → Prop} [DecidablePred p]
    (h : (runSteps step allowed s steps).any (fun s => p s) = true) : ∃ s', StepReaches step allowed s s' ∧ p s' := by
  match hrun : runSteps step allowed s steps with
  | none =>
    rw [hrun] at h
    cases h
  | some s' =>
    rw [hrun] at h
    exact ⟨s', stepReaches_of_runSteps hrun, of_decide_eq_true h⟩

end Voicetext.Common
