import Mathlib.Data.List.Infix
import Voicetext.Common.CrashLogic
import Voicetext.Common.TaskPool

/-!
# Tasks which delegate

A task of an outer system takes steps of its own, and remembers what it was told, until it makes one call of an
inner system; after the call it takes steps of its own again. Which call that is depends on what it was told, so it
is known only once it is made. Every interleaving of such tasks, whoever is cut off, is an interleaving of the
calls they have made, over the same world.
-/

namespace Voicetext.Common

universe u v

/-- An operation of an inner system, or a step of the outer one. -/
inductive OuterOp (Op : Type u) (Own : Type u)
  | port (op : Op)
  | own (op : Own)

/-- A port is answered by the inner system. -/
@[reducible] def OuterOp.Reply {Op Own : Type u} (Reply : Op → Type v) (OwnReply : Own → Type v) :
    OuterOp Op Own → Type v
  | port op => Reply op
  | own op => OwnReply op

variable {Op Own : Type u} {Reply : Op → Type v} {OwnReply : Own → Type v} {α β γ Call ι World : Type*}

abbrev OuterTask (Reply : Op → Type v) (OwnReply : Own → Type v) (α : Type*) :=
  Task (OuterOp Op Own) (OuterOp.Reply Reply OwnReply) α

/-- The steps a task has taken on its own, each with what it was told. -/
abbrev OwnLog (OwnReply : Own → Type v) := List ((op : Own) × OwnReply op)

/-- A task of the inner system as a task of the outer one. -/
def delegate : Task Op Reply α → OuterTask Reply OwnReply α
  | .done a => .done a
  | .await op resume => .await (.port op) fun reply => delegate (resume reply)

@[simp] theorem delegate_done (a : α) : (delegate (.done a) : OuterTask Reply OwnReply α) = .done a := rfl

@[simp] theorem delegate_await (op : Op) (resume : Reply op → Task Op Reply α) :
    (delegate (.await op resume) : OuterTask Reply OwnReply α) =
      .await (.port op) fun reply => delegate (resume reply) := rfl

/-- A task which asks only for own steps it may ask for after those it has taken, and ends in `post`. -/
def Concludes (asks : OwnLog OwnReply → Own → Prop) (post : OwnLog OwnReply → α → Prop) :
    OwnLog OwnReply → OuterTask Reply OwnReply α → Prop
  | log, .done a => post log a
  | log, .await (.own op) resume => asks log op ∧ ∀ reply, Concludes asks post (log ++ [⟨op, reply⟩]) (resume reply)
  | _, .await (.port _) _ => False

section Rules

variable {asks : OwnLog OwnReply → Own → Prop} {post post' : OwnLog OwnReply → α → Prop} {log : OwnLog OwnReply}
  {t : OuterTask Reply OwnReply α}

/-- One own step. -/
theorem Concludes.own {op : Own} {next : OwnReply op → OuterTask Reply OwnReply α} (hasks : asks log op)
    (hnext : ∀ reply, Concludes asks post (log ++ [⟨op, reply⟩]) (next reply)) :
    Concludes asks post log ((Task.call (OuterOp.own op)).bind next) := ⟨hasks, hnext⟩

theorem Concludes.mono (h : Concludes asks post log t) (hpost : ∀ log a, post log a → post' log a) :
    Concludes asks post' log t := by
  induction t generalizing log with
  | done a => exact hpost log a h
  | await op resume ih =>
    cases op with
    | own op => exact ⟨h.1, fun reply => ih reply (h.2 reply)⟩
    | port op => exact h.elim

/-- Sequences compose through the value of their first part. -/
theorem Concludes.bind {next : α → OuterTask Reply OwnReply β} {post₂ : OwnLog OwnReply → β → Prop}
    (h : Concludes asks post log t) (hnext : ∀ log a, post log a → Concludes asks post₂ log (next a)) :
    Concludes asks post₂ log (t.bind next) := by
  induction t generalizing log with
  | done a => exact hnext log a h
  | await op resume ih =>
    cases op with
    | own op => exact ⟨h.1, fun reply => ih reply (h.2 reply)⟩
    | port op => exact h.elim

/-- A loop carries a fact from each round to the next. -/
theorem Concludes.repeatUntil {cut : Own} [IsEmpty (OuterOp.Reply Reply OwnReply (.own cut))] {σ : Type*}
    {body : σ → OuterTask Reply OwnReply (σ ⊕ α)} (carries : OwnLog OwnReply → σ → Prop)
    (hcut : ∀ log, asks log cut)
    (hbody : ∀ log state, carries log state →
      Concludes asks (fun log next => next.elim (carries log) (post log)) log (body state))
    (fuel : ℕ) {state : σ} (hstart : carries log state) :
    Concludes asks post log (Task.repeatUntil (OuterOp.own cut) body fuel state) := by
  induction fuel generalizing state log with
  | zero => exact ⟨hcut log, fun reply => isEmptyElim reply⟩
  | succ fuel ih =>
    refine (hbody log state hstart).bind fun log next hnext => ?_
    cases next with
    | inl next => exact ih hnext
    | inr value => exact hnext

/-- A task of own steps which meets `post` whenever it succeeds. -/
def Succeeds {ε : Type*} (asks : OwnLog OwnReply → Own → Prop) (post : OwnLog OwnReply → α → Prop)
    (log : OwnLog OwnReply) (t : OuterTask Reply OwnReply (Except ε α)) : Prop :=
  Concludes asks (fun log x => ∀ a, x = .ok a → post log a) log t

variable {ε : Type*}

theorem Succeeds.done {x : Except ε α} (h : ∀ a, x = .ok a → post log a) :
    Succeeds asks post log (.done x : OuterTask Reply OwnReply (Except ε α)) := h

theorem Succeeds.mono {t : OuterTask Reply OwnReply (Except ε α)} (h : Succeeds asks post log t)
    (hpost : ∀ log a, post log a → post' log a) : Succeeds asks post' log t :=
  Concludes.mono h fun log _ h a hx => hpost log a (h a hx)

/-- What follows a success may rely on it; a failure ends the task. -/
theorem Succeeds.andThen {t : OuterTask Reply OwnReply (Except ε α)}
    {next : α → OuterTask Reply OwnReply (Except ε β)} {post₂ : OwnLog OwnReply → β → Prop}
    (h : Succeeds asks post log t) (hnext : ∀ log a, post log a → Succeeds asks post₂ log (next a)) :
    Succeeds asks post₂ log (t.andThen next) := by
  refine Concludes.bind h fun log value hvalue => ?_
  cases value with
  | error e => exact fun b hb => nomatch hb
  | ok a => exact hnext log a (hvalue a rfl)

end Rules

/-- What a task may ask of its own after its own steps, which calls it may make, what it may end with instead, and
what after the call; a task which was cut off owes nothing. -/
structure Delegation (OwnReply : Own → Type v) (Call γ α : Type*) where
  asks : OwnLog OwnReply → Own → Prop
  admits : OwnLog OwnReply → Call → Prop
  declines : OwnLog OwnReply → α → Prop
  answers : Call → γ → OwnLog OwnReply → α → Prop

namespace Delegation

variable (D : Delegation OwnReply Call γ α) (program : Call → Task Op Reply (Option γ))

/-- What follows a call which has ended. -/
abbrev Answers (call : Call) (c : γ) (log : OwnLog OwnReply) (rest : OuterTask Reply OwnReply (Option α)) : Prop :=
  Concludes D.asks (fun log value => ∀ a, value = some a → D.answers call c log a) log rest

/-- After a call which was cut off nothing follows. -/
structure Continues (call : Call) (log : OwnLog OwnReply)
    (next : Option γ → OuterTask Reply OwnReply (Option α)) : Prop where
  cut : next none = .done none
  answers : ∀ c, D.Answers call c log (next (some c))

/-- A task which takes its own steps up to at most one call. -/
def Delegates : OwnLog OwnReply → OuterTask Reply OwnReply (Option α) → Prop
  | log, .done value => ∀ a, value = some a → D.declines log a
  | log, .await (.own op) resume => D.asks log op ∧ ∀ reply, Delegates (log ++ [⟨op, reply⟩]) (resume reply)
  | log, .await (.port op) resume => ∃ call next, D.admits log call ∧ D.Continues call log next ∧
      .await (.port op) resume = (delegate (program call)).bind next

/-- What is left of a task which has made its call, beside what is left of the call. -/
inductive Underway (log : OwnLog OwnReply) (call : Call) :
    Task Op Reply (Option γ) → OuterTask Reply OwnReply (Option α) → Prop
  | calling {t : Task Op Reply (Option γ)} {next : Option γ → OuterTask Reply OwnReply (Option α)}
      (hadmits : D.admits log call) (hnext : D.Continues call log next) :
      Underway log call t ((delegate t).bind next)
  | concluding {made : OwnLog OwnReply} {c : γ} {rest : OuterTask Reply OwnReply (Option α)}
      (hadmits : D.admits made call) (hmade : made <+: log) (hrest : D.Answers call c log rest) :
      Underway log call (.done (some c)) rest

variable {D program} {log : OwnLog OwnReply} {call : Call} {t : Task Op Reply (Option γ)}
  {rest : OuterTask Reply OwnReply (Option α)}

/-- Own steps which decide a task lead it to its end or its call. -/
theorem Delegates.bind {post : OwnLog OwnReply → β → Prop} {first : OuterTask Reply OwnReply β}
    {next : β → OuterTask Reply OwnReply (Option α)} (h : Concludes D.asks post log first)
    (hnext : ∀ log b, post log b → D.Delegates program log (next b)) :
    D.Delegates program log (first.bind next) := by
  induction first generalizing log with
  | done b => exact hnext log b h
  | await op resume ih =>
    cases op with
    | own op => exact ⟨h.1, fun reply => ih reply (h.2 reply)⟩
    | port op => exact h.elim

theorem Underway.admitted (h : D.Underway log call t rest) : ∃ made, made <+: log ∧ D.admits made call := by
  cases h with
  | calling hadmits _ => exact ⟨log, List.prefix_rfl, hadmits⟩
  | concluding hadmits hmade _ => exact ⟨_, hmade, hadmits⟩

/-- A task with its own step ahead has ended its call. -/
theorem Underway.own {op : Own} {resume : OwnReply op → OuterTask Reply OwnReply (Option α)}
    (h : D.Underway log call t (.await (.own op) resume)) :
    D.asks log op ∧ ∃ made c, made <+: log ∧ D.admits made call ∧ t = .done (some c) ∧
      ∀ reply, D.Answers call c (log ++ [⟨op, reply⟩]) (resume reply) := by
  generalize hrest : (Task.await (.own op) resume : OuterTask Reply OwnReply (Option α)) = rest at h
  cases h with
  | @calling t next hadmits hnext =>
    match t with
    | .await op' resume' => cases hrest
    | .done none =>
      rw [delegate_done, Task.bind_done, hnext.cut] at hrest
      cases hrest
    | .done (some c) =>
      have hanswers := hnext.answers c
      rw [delegate_done, Task.bind_done] at hrest
      rw [← hrest] at hanswers
      exact ⟨hanswers.1, log, c, List.prefix_rfl, hadmits, rfl, hanswers.2⟩
  | concluding hadmits hmade hanswers =>
    subst hrest
    exact ⟨hanswers.1, _, _, hmade, hadmits, rfl, hanswers.2⟩

/-- A task with an operation of the inner system ahead is in its call. -/
theorem Underway.port {op : Op} {resume : Reply op → OuterTask Reply OwnReply (Option α)}
    (h : D.Underway log call t (.await (.port op) resume)) :
    D.admits log call ∧ ∃ next, D.Continues call log next ∧ .await (.port op) resume = (delegate t).bind next := by
  generalize hrest : (Task.await (.port op) resume : OuterTask Reply OwnReply (Option α)) = rest at h
  cases h with
  | calling hadmits hnext => exact ⟨hadmits, _, hnext, rfl⟩
  | concluding hadmits hmade hanswers =>
    subst hrest
    exact hanswers.elim

/-- What a task which has made its call ends with is an answer to it. -/
theorem Underway.done {a : α} (h : D.Underway log call t (.done (some a))) :
    ∃ c, t = .done (some c) ∧ D.answers call c log a := by
  generalize hrest : (Task.done (some a) : OuterTask Reply OwnReply (Option α)) = rest at h
  cases h with
  | @calling t next hadmits hnext =>
    match t with
    | .await op resume => cases hrest
    | .done none =>
      rw [delegate_done, Task.bind_done, hnext.cut] at hrest
      cases hrest
    | .done (some c) =>
      have hanswers := hnext.answers c
      rw [delegate_done, Task.bind_done] at hrest
      rw [← hrest] at hanswers
      exact ⟨c, rfl, hanswers a rfl⟩
  | concluding hadmits hmade hanswers =>
    subst hrest
    exact ⟨_, rfl, hanswers a rfl⟩

/-- Where a call meets what follows it, the next operation is one of the call. -/
theorem Continues.await {next : Option γ → OuterTask Reply OwnReply (Option α)} {op : Op}
    {resume : Reply op → OuterTask Reply OwnReply (Option α)} (h : D.Continues call log next)
    (hrest : .await (.port op) resume = (delegate t).bind next) :
    ∃ resume', t = .await op resume' ∧ ∀ reply, resume reply = (delegate (resume' reply)).bind next := by
  match t with
  | .await op' resume' =>
    rw [delegate_await, Task.bind_await] at hrest
    injection hrest with hop hresume
    cases hop
    exact ⟨resume', rfl, fun reply => congrFun (eq_of_heq hresume) reply⟩
  | .done none =>
    rw [delegate_done, Task.bind_done, h.cut] at hrest
    cases hrest
  | .done (some c) =>
    have hanswers := h.answers c
    rw [delegate_done, Task.bind_done] at hrest
    rw [← hrest] at hanswers
    exact hanswers.elim

end Delegation

section Pool

/-- Whatever was asked for might be asked for after what had been asked before. -/
def Lawful (asks : OwnLog OwnReply → Own → Prop) (log : OwnLog OwnReply) : Prop :=
  ∀ before op reply after, log = before ++ ⟨op, reply⟩ :: after → asks before op

theorem Lawful.snoc {asks : OwnLog OwnReply → Own → Prop} {log : OwnLog OwnReply} {op : Own} (h : Lawful asks log)
    (hasks : asks log op) (reply : OwnReply op) : Lawful asks (log ++ [⟨op, reply⟩]) := by
  intro before op' reply' after hlog
  rcases List.eq_nil_or_concat after with rfl | ⟨after, last, rfl⟩
  · obtain ⟨rfl, hlast⟩ := List.append_inj' hlog rfl
    cases hlast
    exact hasks
  · rw [List.concat_eq_append, ← List.cons_append, ← List.append_assoc] at hlog
    exact h before op' reply' after (List.append_inj' hlog rfl).1

/-- The world of the inner system, and the own steps of every task. -/
structure OuterWorld (ι World : Type*) (OwnReply : Own → Type v) where
  inner : World
  logs : ι → OwnLog OwnReply

variable [DecidableEq ι]

/-- The inner system serves its operations; a task may be told anything at its own steps. -/
def outerService (serves : Service ι World Op Reply) :
    Service ι (OuterWorld ι World OwnReply) (OuterOp Op Own) (OuterOp.Reply Reply OwnReply)
  | i, w, .port op, w', reply => serves i w.inner op w'.inner reply ∧ w'.logs = w.logs
  | i, w, .own op, w', reply =>
    w'.inner = w.inner ∧ w'.logs = Function.update w.logs i (w.logs i ++ [⟨op, reply⟩])

/-- The calls made so far, with what is left of each; all others have not begun. -/
def residue (program : Call → Task Op Reply (Option γ)) (calls : ι → Call)
    (begun : ι → Option (Call × Task Op Reply (Option γ))) (i : ι) : Task Op Reply (Option γ) :=
  match begun i with
  | some (_, t) => t
  | none => program (calls i)

variable {program : Call → Task Op Reply (Option γ)} {D : ι → Delegation OwnReply Call γ α}
  {serves : Service ι World Op Reply} {w₀ : World}
  {s s' : PoolState ι (OuterWorld ι World OwnReply) (OuterOp Op Own) (OuterOp.Reply Reply OwnReply) α}
  {begun : ι → Option (Call × Task Op Reply (Option γ))}

/-- An interleaving of tasks which delegate is an interleaving of the calls made so far, whatever the others will
call. -/
structure Tracked (program : Call → Task Op Reply (Option γ)) (D : ι → Delegation OwnReply Call γ α)
    (serves : Service ι World Op Reply) (w₀ : World)
    (s : PoolState ι (OuterWorld ι World OwnReply) (OuterOp Op Own) (OuterOp.Reply Reply OwnReply) α)
    (begun : ι → Option (Call × Task Op Reply (Option γ))) : Prop where
  lawful : ∀ i, Lawful (D i).asks (s.world.logs i)
  waiting : ∀ i, begun i = none → (D i).Delegates program (s.world.logs i) (s.pool i)
  underway : ∀ i call t, begun i = some (call, t) → (D i).Underway (s.world.logs i) call t (s.pool i)
  runs : ∀ calls, (∀ i call t, begun i = some (call, t) → calls i = call) →
    PoolReaches serves ⟨fun i => program (calls i), w₀⟩ ⟨residue program calls begun, s.world.inner⟩

/-- A task goes on with its own steps. -/
theorem Tracked.own (h : Tracked program D serves w₀ s begun) {i : ι} {log : OwnLog OwnReply}
    {rest : OuterTask Reply OwnReply (Option α)} {w' : OuterWorld ι World OwnReply}
    (hinner : w'.inner = s.world.inner) (hlogs : w'.logs = Function.update s.world.logs i log)
    (hlawful : Lawful (D i).asks log)
    (hwaiting : begun i = none → (D i).Delegates program log rest)
    (hunderway : ∀ call t, begun i = some (call, t) → (D i).Underway log call t rest) :
    Tracked program D serves w₀ ⟨Function.update s.pool i rest, w'⟩ begun := by
  constructor
  · intro j
    by_cases hji : j = i
    · subst hji
      simpa [hlogs] using hlawful
    · simpa [hlogs, hji] using h.lawful j
  · intro j hj
    by_cases hji : j = i
    · subst hji
      simpa [hlogs] using hwaiting hj
    · simpa [hlogs, hji] using h.waiting j hj
  · intro j call t hj
    by_cases hji : j = i
    · subst hji
      simpa [hlogs] using hunderway call t hj
    · simpa [hlogs, hji] using h.underway j call t hj
  · intro calls hcalls
    rw [hinner]
    exact h.runs calls hcalls

/-- A call goes on, or is cut off, as it does in the inner system. -/
theorem Tracked.call (h : Tracked program D serves w₀ s begun) {i : ι} {call : Call}
    {t t' : Task Op Reply (Option γ)} {next : Option γ → OuterTask Reply OwnReply (Option α)}
    (hcurrent : begun i = some (call, t) ∨ begun i = none ∧ program call = t)
    (hadmits : (D i).admits (s.world.logs i) call) (hnext : (D i).Continues call (s.world.logs i) next)
    {w' : OuterWorld ι World OwnReply} (hlogs : w'.logs = s.world.logs)
    (hstep : ∀ pool : ι → Task Op Reply (Option γ), pool i = t →
      PoolStep serves ⟨pool, s.world.inner⟩ ⟨Function.update pool i t', w'.inner⟩) :
    Tracked program D serves w₀ ⟨Function.update s.pool i ((delegate t').bind next), w'⟩
      (Function.update begun i (some (call, t'))) := by
  constructor
  · intro j
    rw [hlogs]
    exact h.lawful j
  · intro j hj
    by_cases hji : j = i
    · subst hji
      simp at hj
    · simpa [hlogs, hji] using h.waiting j (by simpa [hji] using hj)
  · intro j call' u hj
    by_cases hji : j = i
    · subst hji
      simp only [Function.update_self, Option.some.injEq, Prod.mk.injEq] at hj
      obtain ⟨rfl, rfl⟩ := hj
      simpa [hlogs] using Delegation.Underway.calling hadmits hnext
    · simpa [hlogs, hji] using h.underway j call' u (by simpa [hji] using hj)
  · intro calls hcalls
    have hcall : calls i = call := hcalls i call t' (by simp)
    have hbefore : ∀ j call t, begun j = some (call, t) → calls j = call := by
      intro j call' u hj
      by_cases hji : j = i
      · subst hji
        rcases hcurrent with hcurrent | ⟨hcurrent, -⟩
        · rw [hcurrent] at hj
          cases hj
          exact hcall
        · rw [hcurrent] at hj
          cases hj
      · exact hcalls j call' u (by simpa [hji] using hj)
    have hleft : residue program calls begun i = t := by
      unfold residue
      rcases hcurrent with hcurrent | ⟨hcurrent, hprogram⟩
      · rw [hcurrent]
      · rw [hcurrent, hcall]
        exact hprogram
    have hafter : residue program calls (Function.update begun i (some (call, t'))) =
        Function.update (residue program calls begun) i t' := by
      funext j
      by_cases hji : j = i
      · subst hji
        simp [residue]
      · simp [residue, hji]
    rw [hafter]
    exact (h.runs calls hbefore).tail (hstep _ hleft)

/-- The call a task is in, or makes now. -/
theorem Tracked.current (h : Tracked program D serves w₀ s begun) {i : ι} {op : Op}
    {resume : Reply op → OuterTask Reply OwnReply (Option α)} (hawait : s.pool i = .await (.port op) resume) :
    ∃ call t next, (begun i = some (call, t) ∨ begun i = none ∧ program call = t) ∧
      (D i).admits (s.world.logs i) call ∧ (D i).Continues call (s.world.logs i) next ∧
        .await (.port op) resume = (delegate t).bind next := by
  cases hbegun : begun i with
  | none =>
    have hwaiting := h.waiting i hbegun
    rw [hawait] at hwaiting
    obtain ⟨call, next, hadmits, hnext, hrest⟩ := hwaiting
    exact ⟨call, _, next, .inr ⟨rfl, rfl⟩, hadmits, hnext, hrest⟩
  | some current =>
    obtain ⟨call, t⟩ := current
    have hunderway := h.underway i call t hbegun
    rw [hawait] at hunderway
    obtain ⟨hadmits, next, hnext, hrest⟩ := hunderway.port
    exact ⟨call, t, next, .inl rfl, hadmits, hnext, hrest⟩

/-- Whatever a task asks for on its own it may ask for. -/
theorem Tracked.asks (h : Tracked program D serves w₀ s begun) {i : ι} {op : Own}
    {resume : OwnReply op → OuterTask Reply OwnReply (Option α)} (hawait : s.pool i = .await (.own op) resume) :
    (D i).asks (s.world.logs i) op := by
  cases hbegun : begun i with
  | none =>
    have hwaiting := h.waiting i hbegun
    rw [hawait] at hwaiting
    exact hwaiting.1
  | some current =>
    have hunderway := h.underway i current.1 current.2 hbegun
    rw [hawait] at hunderway
    exact hunderway.own.1

/-- One step of any task, or one cut-off, is a step of the calls or none. -/
theorem Tracked.step (h : Tracked program D serves w₀ s begun) (hstep : PoolStep (outerService serves) s s') :
    ∃ begun', Tracked program D serves w₀ s' begun' := by
  cases hstep with
  | @serve i op resume w' reply hawait hserve =>
    cases op with
    | own op =>
      obtain ⟨hinner, hlogs⟩ := hserve
      have hlawful := (h.lawful i).snoc (h.asks hawait) reply
      refine ⟨begun, h.own hinner hlogs hlawful (fun hbegun => ?_) fun call t hbegun => ?_⟩
      · have hwaiting := h.waiting i hbegun
        rw [hawait] at hwaiting
        exact hwaiting.2 reply
      · have hunderway := h.underway i call t hbegun
        rw [hawait] at hunderway
        obtain ⟨-, made, c, hmade, hadmits, rfl, hrest⟩ := hunderway.own
        exact .concluding hadmits (hmade.trans (List.prefix_append _ _)) (hrest reply)
    | port op =>
      obtain ⟨hserve, hlogs⟩ := hserve
      obtain ⟨call, t, next, hcurrent, hadmits, hnext, hrest⟩ := h.current hawait
      obtain ⟨resume', rfl, hresume⟩ := hnext.await hrest
      rw [hresume reply]
      exact ⟨_, h.call hcurrent hadmits hnext hlogs fun pool hpool => .serve hpool hserve⟩
  | @cutOff i op resume hawait =>
    cases op with
    | own op =>
      have hasks := h.asks hawait
      refine ⟨begun, h.own rfl (Function.update_eq_self i s.world.logs).symm (h.lawful i) (fun hbegun => ?_)
        fun call t hbegun => ?_⟩
      · exact ⟨hasks, fun reply a ha => nomatch ha⟩
      · have hunderway := h.underway i call t hbegun
        rw [hawait] at hunderway
        obtain ⟨-, made, c, hmade, hadmits, rfl, hrest⟩ := hunderway.own
        exact .concluding hadmits hmade ⟨hasks, fun reply a ha => nomatch ha⟩
    | port op =>
      obtain ⟨call, t, next, hcurrent, hadmits, hnext, hrest⟩ := h.current hawait
      obtain ⟨resume', rfl, hresume⟩ := hnext.await hrest
      have hcut : (Task.await (.port op) fun _ => .done none : OuterTask Reply OwnReply (Option α)) =
          (delegate (Task.await op fun _ => .done none : Task Op Reply (Option γ))).bind next := by
        rw [delegate_await, Task.bind_await]
        simp only [delegate_done, Task.bind_done, hnext.cut]
      rw [hcut]
      exact ⟨_, h.call hcurrent hadmits hnext rfl fun pool hpool => .cutOff hpool⟩

section Alone

end Alone

end Pool

end Voicetext.Common
