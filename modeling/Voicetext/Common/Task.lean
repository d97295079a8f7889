import Mathlib.Data.Nat.Notation
import Mathlib.Logic.Basic

/-!
# Asynchronous tasks over a family of operations

A task is a finite tree: it has finished with a value, or it awaits one operation and resumes
with that operation's reply. Everything between two awaits is local computation, so only the
awaits are visible to other tasks. Running a task alone against a service gives the sequential
meaning used when no other writer is present.
-/

namespace Voicetext.Common

universe u v w

/-- A computation which performs operations one at a time and resumes with their replies. -/
inductive Task (Op : Type u) (Reply : Op → Type v) (α : Type w) : Type (max u v w)
  | done (value : α)
  | await (op : Op) (resume : Reply op → Task Op Reply α)

namespace Task

variable {Op : Type u} {Reply : Op → Type v}

/-- The task which awaits one operation and returns its reply. -/
def call (op : Op) : Task Op Reply (Reply op) := .await op .done

/-- Continue with the value of a finished task. -/
def bind {α β : Type*} : Task Op Reply α → (α → Task Op Reply β) → Task Op Reply β
  | .done a, next => next a
  | .await op resume, next => .await op fun reply => (resume reply).bind next

instance : Monad (Task Op Reply) where
  pure := .done
  bind := Task.bind

@[simp] theorem pure_eq_done {α : Type w} (a : α) : (pure a : Task Op Reply α) = .done a := rfl

@[simp] theorem bind_eq_bind {α β : Type w} (t : Task Op Reply α) (next : α → Task Op Reply β) :
    t >>= next = t.bind next := rfl

@[simp] theorem bind_done {α β : Type*} (a : α) (next : α → Task Op Reply β) :
    (Task.done a).bind next = next a := rfl

@[simp] theorem bind_await {α β : Type*} (op : Op) (resume : Reply op → Task Op Reply α)
    (next : α → Task Op Reply β) :
    (Task.await op resume).bind next = .await op fun reply => (resume reply).bind next := rfl

/-- Binding is associative, so a program may be split at any of its awaits. -/
theorem bind_assoc {α β γ : Type*} (t : Task Op Reply α) (f : α → Task Op Reply β)
    (g : β → Task Op Reply γ) : (t.bind f).bind g = t.bind fun a => (f a).bind g := by
  induction t with
  | done a => rfl
  | await op resume ih => exact congrArg (Task.await op) (funext fun reply => ih reply)

/-- Repeat a body until it yields a value, at most as often as the fuel allows. -/
def loop {σ α : Type*} (body : σ → Task Op Reply (σ ⊕ α)) : ℕ → σ → Task Op Reply (Option α)
  | 0, _ => .done none
  | fuel + 1, state => (body state).bind fun
    | .inl next => loop body fuel next
    | .inr value => .done (some value)

variable {World : Type*}

/-- A task run to its end with no other task in between: every await is served at once. -/
inductive Solo {α : Type*} (serves : World → (op : Op) → World → Reply op → Prop) :
    World → Task Op Reply α → World → α → Prop
  | done {world : World} {a : α} : Solo serves world (.done a) world a
  | await {world world' world'' : World} {op : Op} {resume : Reply op → Task Op Reply α}
      {reply : Reply op} {a : α} (hserve : serves world op world' reply)
      (hrest : Solo serves world' (resume reply) world'' a) :
      Solo serves world (.await op resume) world'' a

variable {α β : Type*} {serves : World → (op : Op) → World → Reply op → Prop}

@[simp] theorem solo_done {world world' : World} {a b : α} :
    Solo serves world (.done a) world' b ↔ world' = world ∧ b = a := by
  constructor
  · rintro ⟨⟩
    exact ⟨rfl, rfl⟩
  · rintro ⟨rfl, rfl⟩
    exact .done

/-- A solo run of an await is one service followed by a solo run of the resumed task. -/
theorem solo_await {world world'' : World} {op : Op} {resume : Reply op → Task Op Reply α} {a : α} :
    Solo serves world (.await op resume) world'' a ↔
      ∃ world' reply, serves world op world' reply ∧ Solo serves world' (resume reply) world'' a := by
  constructor
  · rintro ⟨⟩
    exact ⟨_, _, ‹_›, ‹_›⟩
  · rintro ⟨world', reply, hserve, hrest⟩
    exact .await hserve hrest

/-- A wider service runs alone what a narrower one does. -/
theorem Solo.mono {serves' : World → (op : Op) → World → Reply op → Prop} {world world' : World} {t : Task Op Reply α}
    {a : α} (h : Solo serves world t world' a)
    (hserves : ∀ w op w' reply, serves w op w' reply → serves' w op w' reply) : Solo serves' world t world' a := by
  induction h with
  | done => exact .done
  | await hserve _ ih => exact .await (hserves _ _ _ _ hserve) ih

/-- A single operation run alone is exactly one service. -/
@[simp] theorem solo_call {world world' : World} {op : Op} {reply : Reply op} :
    Solo serves world (call op) world' reply ↔ serves world op world' reply := by
  simp only [call, solo_await, solo_done]
  constructor
  · rintro ⟨_, _, hserve, rfl, rfl⟩
    exact hserve
  · exact fun hserve => ⟨_, _, hserve, rfl, rfl⟩

/-- A solo run of a sequence splits at the value of its first part. -/
theorem solo_bind {world world'' : World} {t : Task Op Reply α} {next : α → Task Op Reply β} {b : β} :
    Solo serves world (t.bind next) world'' b ↔
      ∃ world' a, Solo serves world t world' a ∧ Solo serves world' (next a) world'' b := by
  induction t generalizing world with
  | done a => simp [and_assoc]
  | await op resume ih =>
    simp only [bind_await, solo_await, ih]
    constructor
    · rintro ⟨world₁, reply, hserve, world', a, hfirst, hsecond⟩
      exact ⟨world', a, ⟨world₁, reply, hserve, hfirst⟩, hsecond⟩
    · rintro ⟨world', a, ⟨world₁, reply, hserve, hfirst⟩, hsecond⟩
      exact ⟨world₁, reply, hserve, world', a, hfirst, hsecond⟩

/-- A loop whose invariant promises at most `k` more rounds yields a value within `k` units of fuel. -/
theorem solo_loop {σ : Type*} {body : σ → Task Op Reply (σ ⊕ α)} (holds : ℕ → σ → World → Prop)
    (post : α → World → Prop) (hzero : ∀ state world, ¬holds 0 state world)
    (hround : ∀ k state world world' next, holds (k + 1) state world →
      Solo serves world (body state) world' next →
      (∃ state', next = .inl state' ∧ holds k state' world') ∨ ∃ a, next = .inr a ∧ post a world')
    {fuel k : ℕ} {state : σ} {world world' : World} {result : Option α} (hfuel : k ≤ fuel)
    (hholds : holds k state world) (hrun : Solo serves world (loop body fuel state) world' result) :
    ∃ a, result = some a ∧ post a world' := by
  induction fuel generalizing k state world with
  | zero =>
    obtain rfl : k = 0 := by omega
    exact absurd hholds (hzero state world)
  | succ fuel ih =>
    match k with
    | 0 => exact absurd hholds (hzero state world)
    | k + 1 =>
      obtain ⟨middle, next, hbody, hrest⟩ := solo_bind.mp hrun
      rcases hround k state world middle next hholds hbody with ⟨state', rfl, hnext⟩ | ⟨a, rfl, hpost⟩
      · exact ih (by omega) hnext hrest
      · obtain ⟨rfl, rfl⟩ := solo_done.mp hrest
        exact ⟨a, rfl, hpost⟩

/-- Run a task to its end against an executable server, with one choice for every await. -/
def replay {Choice : Type*} (serve : World → (op : Op) → Choice → Option (World × Reply op)) :
    List Choice → World → Task Op Reply α → Option (World × α)
  | _, world, .done a => some (world, a)
  | [], _, .await _ _ => none
  | choice :: rest, world, .await op resume =>
    (serve world op choice).bind fun (world', reply) => replay serve rest world' (resume reply)

/-- A replayed task is a solo run. -/
theorem solo_of_replay {Choice : Type*}
    {serve : World → (op : Op) → Choice → Option (World × Reply op)} (choices : List Choice)
    {world world' : World} {t : Task Op Reply α} {a : α}
    (h : replay serve choices world t = some (world', a)) :
    Solo (fun w op w' reply => ∃ choice, serve w op choice = some (w', reply)) world t world' a := by
  induction t generalizing world choices with
  | done value =>
    simp only [replay, Option.some.injEq, Prod.mk.injEq] at h
    obtain ⟨rfl, rfl⟩ := h
    exact .done
  | await op resume ih =>
    match choices with
    | [] => cases h
    | choice :: rest =>
      obtain ⟨⟨middle, reply⟩, hserve, hrest⟩ := Option.bind_eq_some_iff.mp h
      exact .await ⟨choice, hserve⟩ (ih reply rest hrest)

/-- Run a task against a service which decides every reply, as long as there is one. -/
def follow (serve : World → (op : Op) → Option (World × Reply op)) : World → Task Op Reply α → Option (World × α)
  | world, .done a => some (world, a)
  | world, .await op resume => (serve world op).bind fun (world', reply) => follow serve world' (resume reply)

/-- Sequences are followed one part after the other. -/
theorem follow_bind {serve : World → (op : Op) → Option (World × Reply op)} {world : World} {t : Task Op Reply α}
    {next : α → Task Op Reply β} :
    follow serve world (t.bind next) = (follow serve world t).bind fun (world', a) => follow serve world' (next a) := by
  induction t generalizing world with
  | done a => rfl
  | await op resume ih =>
    simp only [bind_await, follow, Option.bind_assoc]
    exact Option.bind_congr fun served _ => ih served.2

end Task

end Voicetext.Common
