import Mathlib.Data.List.Basic

/-!
# Machines which answer inputs

A machine answers every input with an output and moves to its next state. A run keeps its exchanges,
oldest first, as a history beside the state, so a property of whole runs is an invariant of history
and state together, and what a history says about its past is read off the state at that point.
-/

namespace Voicetext.Common

variable {σ ι ο : Type*} {step : σ → ι → σ × ο} {start s s' : σ}

/-- The runs of a machine from a starting state, with their exchanges. -/
inductive Runs (step : σ → ι → σ × ο) (start : σ) : List (ι × ο) → σ → Prop
  | nil : Runs step start [] start
  | snoc {history : List (ι × ο)} {s : σ} (hrun : Runs step start history s) (i : ι) :
      Runs step start (history ++ [(i, (step s i).2)]) (step s i).1

/-- Feed inputs to a machine in order. -/
def feed (step : σ → ι → σ × ο) : σ → List ι → List (ι × ο) × σ
  | s, [] => ([], s)
  | s, i :: rest => ((i, (step s i).2) :: (feed step (step s i).1 rest).1, (feed step (step s i).1 rest).2)

/-- The exchanges of a feed are its inputs in order. -/
theorem feed_inputs (step : σ → ι → σ × ο) (s : σ) (inputs : List ι) :
    (feed step s inputs).1.map Prod.fst = inputs := by
  induction inputs generalizing s with
  | nil => rfl
  | cons i rest ih => simp [feed, ih]

/-- A feed is its inputs and outputs side by side. -/
theorem feed_eq_zip (step : σ → ι → σ × ο) (s : σ) (inputs : List ι) :
    (feed step s inputs).1 = inputs.zip ((feed step s inputs).1.map Prod.snd) := by
  calc (feed step s inputs).1
      = ((feed step s inputs).1.map Prod.fst).zip ((feed step s inputs).1.map Prod.snd) := by
        have hunzip := List.zip_unzip (feed step s inputs).1
        rw [List.unzip_eq_map] at hunzip
        exact hunzip.symm
    _ = inputs.zip ((feed step s inputs).1.map Prod.snd) := by rw [feed_inputs]

/-- Feeding more inputs continues from where a feed ends. -/
theorem feed_append (step : σ → ι → σ × ο) (s : σ) (inputs more : List ι) :
    feed step s (inputs ++ more) =
      ((feed step s inputs).1 ++ (feed step (feed step s inputs).2 more).1,
        (feed step (feed step s inputs).2 more).2) := by
  induction inputs generalizing s with
  | nil => rfl
  | cons i rest ih => simp [feed, ih]

/-- An exchange of a feed answers one of its inputs, in the state the inputs before lead to. -/
theorem mem_feed {s : σ} {inputs : List ι} {exchange : ι × ο} (h : exchange ∈ (feed step s inputs).1) :
    ∃ before i after, inputs = before ++ i :: after ∧ exchange = (i, (step (feed step s before).2 i).2) := by
  induction inputs generalizing s with
  | nil => cases h
  | cons first rest ih =>
    rcases List.mem_cons.mp h with rfl | h
    · exact ⟨[], first, rest, rfl, rfl⟩
    · obtain ⟨before, i, after, rfl, hexchange⟩ := ih h
      exact ⟨first :: before, i, after, rfl, hexchange⟩

/-- A run continued by a run is a run. -/
theorem Runs.append {before after : List (ι × ο)} (hbefore : Runs step start before s)
    (hafter : Runs step s after s') : Runs step start (before ++ after) s' := by
  induction hafter with
  | nil => simpa using hbefore
  | snoc _ i ih =>
    rw [← List.append_assoc]
    exact ih.snoc i

/-- Feeding inputs is a run. -/
theorem runs_feed (step : σ → ι → σ × ο) (s : σ) (inputs : List ι) :
    Runs step s (feed step s inputs).1 (feed step s inputs).2 := by
  induction inputs generalizing s with
  | nil => exact .nil
  | cons i rest ih => exact (Runs.nil.snoc i).append (ih (step s i).1)

/-- A run is the feed of its inputs. -/
theorem Runs.eq_feed {history : List (ι × ο)} (hrun : Runs step start history s) :
    feed step start (history.map Prod.fst) = (history, s) := by
  induction hrun with
  | nil => rfl
  | snoc _ i ih => simp [feed_append, ih, feed]

/-- Every run keeps what each exchange keeps. -/
theorem Runs.invariant (holds : List (ι × ο) → σ → Prop) (hstart : holds [] start)
    (hstep : ∀ history s i, holds history s → holds (history ++ [(i, (step s i).2)]) (step s i).1)
    {history : List (ι × ο)} (hrun : Runs step start history s) : holds history s := by
  induction hrun with
  | nil => exact hstart
  | snoc _ i ih => exact hstep _ _ i ih

/-- Each exchange of a run was answered in the state its past leads to. -/
theorem Runs.exchange {before after : List (ι × ο)} {i : ι} {o : ο}
    (hrun : Runs step start (before ++ (i, o) :: after) s) :
    ∃ middle, Runs step start before middle ∧ o = (step middle i).2 := by
  generalize hhistory : before ++ (i, o) :: after = history at hrun
  induction hrun generalizing after with
  | nil => simp at hhistory
  | @snoc history middle hrun j ih =>
    rcases List.eq_nil_or_concat after with rfl | ⟨after, last, rfl⟩
    · obtain ⟨rfl, hlast⟩ := List.append_inj' hhistory rfl
      obtain ⟨rfl, rfl⟩ : i = j ∧ o = (step middle j).2 := by simpa using hlast
      exact ⟨middle, hrun, rfl⟩
    · rw [List.concat_eq_append, ← List.cons_append, ← List.append_assoc] at hhistory
      exact ih (List.append_inj' hhistory rfl).1

end Voicetext.Common
