import Mathlib.Data.List.Induction

/-!
# Logs which a transition system accepts

A log is accepted from one state to another when its events can be taken one after another. Logs are extended
at their end, so what holds of a state and of the log which led to it is an invariant of single events, and
every event of an accepted log was allowed in the state which the log before it led to.
-/

namespace Voicetext.Common

variable {σ ε : Type*} {moves : σ → ε → σ → Prop} {s t : σ} {event : ε} {log before after : List ε}

/-- The events of a log can be taken in order. -/
inductive Accepts (moves : σ → ε → σ → Prop) : σ → List ε → σ → Prop
  | nil {s : σ} : Accepts moves s [] s
  | cons {s middle t : σ} {event : ε} {log : List ε} (hmove : moves s event middle)
      (hrest : Accepts moves middle log t) : Accepts moves s (event :: log) t

namespace Accepts

@[simp] theorem nil_iff : Accepts moves s [] t ↔ t = s := by
  constructor
  · rintro ⟨⟩
    rfl
  · rintro rfl
    exact .nil

theorem cons_iff : Accepts moves s (event :: log) t ↔ ∃ middle, moves s event middle ∧ Accepts moves middle log t := by
  constructor
  · rintro ⟨⟩
    exact ⟨_, ‹_›, ‹_›⟩
  · rintro ⟨middle, hmove, hrest⟩
    exact .cons hmove hrest

/-- A log is accepted in two parts. -/
theorem append_iff : Accepts moves s (before ++ after) t ↔
    ∃ middle, Accepts moves s before middle ∧ Accepts moves middle after t := by
  induction before generalizing s with
  | nil => simp
  | cons event rest ih =>
    simp only [List.cons_append, cons_iff, ih]
    constructor
    · rintro ⟨first, hmove, middle, hrest, hafter⟩
      exact ⟨middle, ⟨first, hmove, hrest⟩, hafter⟩
    · rintro ⟨middle, ⟨first, hmove, hrest⟩, hafter⟩
      exact ⟨first, hmove, middle, hrest, hafter⟩

theorem snoc_iff : Accepts moves s (log ++ [event]) t ↔
    ∃ middle, Accepts moves s log middle ∧ moves middle event t := by
  simp [append_iff, cons_iff]

/-- One more event is accepted. -/
theorem snoc {middle : σ} (h : Accepts moves s log middle) (hmove : moves middle event t) :
    Accepts moves s (log ++ [event]) t := snoc_iff.mpr ⟨middle, h, hmove⟩

/-- An event of an accepted log was allowed in the state before it. -/
theorem split (h : Accepts moves s (before ++ event :: after) t) :
    ∃ old new, Accepts moves s before old ∧ moves old event new ∧ Accepts moves new after t := by
  obtain ⟨old, hbefore, h⟩ := append_iff.mp h
  obtain ⟨new, hmove, hafter⟩ := cons_iff.mp h
  exact ⟨old, new, hbefore, hmove, hafter⟩

/-- What single events keep holds of every accepted log and the state it leads to. -/
theorem invariant (holds : σ → List ε → Prop) (hstart : holds s [])
    (hmove : ∀ log old event new, holds old log → moves old event new → holds new (log ++ [event]))
    (h : Accepts moves s log t) : holds t log := by
  induction log using List.reverseRecOn generalizing t with
  | nil =>
    obtain rfl := nil_iff.mp h
    exact hstart
  | append_singleton log event ih =>
    obtain ⟨middle, hlog, hlast⟩ := snoc_iff.mp h
    exact hmove log middle event t (ih hlog) hlast

end Accepts

end Voicetext.Common
