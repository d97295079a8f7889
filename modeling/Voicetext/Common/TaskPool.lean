import Mathlib.Logic.Function.Basic
import Mathlib.Logic.Relation
import Voicetext.Common.Task

/-!
# Interleaved runs of a pool of tasks

Any number of tasks share one world. A step serves the operation some task awaits and resumes that
task, or cuts a task off at its await: the cut-off task never resumes, but its pending operation
may still reach the world later. Schedules replay one interleaving and are sound for the relation.
-/

namespace Voicetext.Common

variable {ι World Op Choice α : Type*} {Reply : Op → Type*}

/-- The tasks of a system together with the world they share; a cut-off task ends with no value. -/
structure PoolState (ι World Op : Type*) (Reply : Op → Type*) (α : Type*) where
  pool : ι → Task Op Reply (Option α)
  world : World

/-- Which next worlds and replies a service may give to an operation of one task. -/
abbrev Service (ι World Op : Type*) (Reply : Op → Type*) :=
  ι → World → (op : Op) → World → Reply op → Prop

/-- Serve the operation one task awaits, or cut a task off at its await. -/
inductive PoolStep [DecidableEq ι] (serves : Service ι World Op Reply) :
    PoolState ι World Op Reply α → PoolState ι World Op Reply α → Prop
  | serve {s : PoolState ι World Op Reply α} {i : ι} {op : Op} {resume} {world' : World}
      {reply : Reply op} (hawait : s.pool i = .await op resume)
      (hserve : serves i s.world op world' reply) :
      PoolStep serves s ⟨Function.update s.pool i (resume reply), world'⟩
  | cutOff {s : PoolState ι World Op Reply α} {i : ι} {op : Op} {resume}
      (hawait : s.pool i = .await op resume) :
      PoolStep serves s ⟨Function.update s.pool i (.await op fun _ => .done none), s.world⟩

/-- The states any interleaving of the pool can reach from the given one. -/
def PoolReaches [DecidableEq ι] (serves : Service ι World Op Reply) :
    PoolState ι World Op Reply α → PoolState ι World Op Reply α → Prop :=
  Relation.ReflTransGen (PoolStep serves)

/-- Every state of every run keeps what each step keeps. -/
theorem PoolReaches.invariant [DecidableEq ι] {serves : Service ι World Op Reply}
    (holds : PoolState ι World Op Reply α → Prop)
    (hstep : ∀ s s', holds s → PoolStep serves s s' → holds s')
    {s s' : PoolState ι World Op Reply α} (hreach : PoolReaches serves s s') (hs : holds s) :
    holds s' := by
  induction hreach with
  | refl => exact hs
  | tail _ hlast ih => exact hstep _ _ ih hlast

/-- A run under a narrower service is a run under the wider one. -/
theorem PoolReaches.mono [DecidableEq ι] {serves serves' : Service ι World Op Reply}
    (hmono : ∀ i w op w' reply, serves i w op w' reply → serves' i w op w' reply)
    {s s' : PoolState ι World Op Reply α} (hreach : PoolReaches serves s s') :
    PoolReaches serves' s s' := by
  refine Relation.ReflTransGen.mono (fun a b hstep => ?_) _ _ hreach
  cases hstep with
  | serve hawait hserve => exact .serve hawait (hmono _ _ _ _ _ hserve)
  | cutOff hawait => exact .cutOff hawait

/-- The service relation of an executable server whose freedom is an explicit choice. -/
def Serves (serve : ι → World → (op : Op) → Choice → Option (World × Reply op)) :
    Service ι World Op Reply :=
  fun i w op w' reply => ∃ choice, serve i w op choice = some (w', reply)

/-- Serve one named task with one choice, if it awaits an operation that admits the choice. -/
def scheduleStep [DecidableEq ι]
    (serve : ι → World → (op : Op) → Choice → Option (World × Reply op))
    (s : PoolState ι World Op Reply α) (i : ι) (choice : Choice) :
    Option (PoolState ι World Op Reply α) :=
  match s.pool i with
  | .done _ => none
  | .await op resume =>
    match serve i s.world op choice with
    | none => none
    | some (world', reply) => some ⟨Function.update s.pool i (resume reply), world'⟩

/-- Replay an explicit interleaving, naming the task to serve and the choice at every step. -/
def runSchedule [DecidableEq ι]
    (serve : ι → World → (op : Op) → Choice → Option (World × Reply op)) :
    List (ι × Choice) → PoolState ι World Op Reply α → Option (PoolState ι World Op Reply α)
  | [], s => some s
  | (i, choice) :: rest, s => (scheduleStep serve s i choice).bind (runSchedule serve rest)

/-- A replayed step is a step of the pool. -/
theorem poolStep_of_scheduleStep [DecidableEq ι]
    {serve : ι → World → (op : Op) → Choice → Option (World × Reply op)}
    {s s' : PoolState ι World Op Reply α} {i : ι} {choice : Choice}
    (h : scheduleStep serve s i choice = some s') : PoolStep (Serves serve) s s' := by
  unfold scheduleStep at h
  split at h
  · cases h
  · rename_i op resume hawait
    split at h
    · cases h
    · rename_i world' reply hserve
      obtain rfl := Option.some.inj h
      exact .serve hawait ⟨choice, hserve⟩

/-- A replayed interleaving reaches its final state. -/
theorem poolReaches_of_runSchedule [DecidableEq ι]
    {serve : ι → World → (op : Op) → Choice → Option (World × Reply op)}
    (schedule : List (ι × Choice)) {s s' : PoolState ι World Op Reply α}
    (h : runSchedule serve schedule s = some s') : PoolReaches (Serves serve) s s' := by
  induction schedule generalizing s with
  | nil =>
    obtain rfl := Option.some.inj h
    exact .refl
  | cons entry rest ih =>
    obtain ⟨i, choice⟩ := entry
    obtain ⟨middle, hstep, hrest⟩ := Option.bind_eq_some_iff.mp h
    exact .head (poolStep_of_scheduleStep hstep) (ih hrest)

end Voicetext.Common
