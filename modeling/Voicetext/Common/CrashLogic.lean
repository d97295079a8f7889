import Mathlib.Logic.IsEmpty.Basic
import Voicetext.Common.Task

/-!
# Tasks that may stop between two operations

A task stops where a prefix of its operations has been served. What holds at every such point, and of
the value at the end, is found by walking the task once: each operation is checked against every reply
the service may give, and sequences compose through the value of their first part.
-/

namespace Voicetext.Common.Task

variable {Op : Type*} {Reply : Op → Type*} {World α β ε σ τ : Type*}
  {serves : World → (op : Op) → World → Reply op → Prop}

/-- A task stopped on its way: some of its operations have been served, in order. -/
inductive Stops {α : Type*} (serves : World → (op : Op) → World → Reply op → Prop) :
    World → Task Op Reply α → World → Prop
  | here {world : World} {t : Task Op Reply α} : Stops serves world t world
  | await {world world' world'' : World} {op : Op} {resume : Reply op → Task Op Reply α}
      {reply : Reply op} (hserve : serves world op world' reply)
      (hrest : Stops serves world' (resume reply) world'') :
      Stops serves world (.await op resume) world''

/-- A task that ran to its end stopped there. -/
theorem Solo.stops {world world' : World} {t : Task Op Reply α} {a : α}
    (h : Solo serves world t world' a) : Stops serves world t world' := by
  induction h with
  | done => exact .here
  | await hserve _ ih => exact .await hserve ih

theorem stops_done {world world' : World} {a : α} (h : Stops serves world (.done a) world') :
    world' = world := by
  cases h with
  | here => rfl

/-- Serve operations of a task, one for each choice, and stop. -/
def advance {Choice : Type*} (serve : World → (op : Op) → Choice → Option (World × Reply op)) :
    List Choice → World → Task Op Reply α → Option World
  | [], world, _ => some world
  | _ :: _, _, .done _ => none
  | choice :: rest, world, .await op resume =>
    (serve world op choice).bind fun (world', reply) => advance serve rest world' (resume reply)

/-- An advanced task stopped there. -/
theorem stops_of_advance {Choice : Type*}
    {serve : World → (op : Op) → Choice → Option (World × Reply op)} (choices : List Choice)
    {world world' : World} {t : Task Op Reply α} (h : advance serve choices world t = some world') :
    Stops (fun w op w' reply => ∃ choice, serve w op choice = some (w', reply)) world t world' := by
  induction t generalizing world choices with
  | done value =>
    cases choices with
    | nil =>
      obtain rfl := Option.some.inj h
      exact .here
    | cons choice rest => cases h
  | await op resume ih =>
    cases choices with
    | nil =>
      obtain rfl := Option.some.inj h
      exact .here
    | cons choice rest =>
      obtain ⟨⟨middle, reply⟩, hserve, hrest⟩ := Option.bind_eq_some_iff.mp h
      exact .await ⟨choice, hserve⟩ (ih reply rest hrest)

/-- Every world on the way meets `held`, and the last one `post` of the value. -/
def Keeps (serves : World → (op : Op) → World → Reply op → Prop) (held : World → Prop)
    (post : α → World → Prop) : Task Op Reply α → World → Prop
  | .done a, world => held world ∧ post a world
  | .await op resume, world =>
    held world ∧ ∀ world' reply, serves world op world' reply → Keeps serves held post (resume reply) world'

variable {held held' : World → Prop} {post post' : α → World → Prop} {world world' : World}
  {t : Task Op Reply α}

theorem Keeps.now (h : Keeps serves held post t world) : held world := by
  cases t with
  | done a => exact h.1
  | await op resume => exact h.1

/-- Wherever a task stops, what it keeps holds. -/
theorem Keeps.stops (h : Keeps serves held post t world) (hstops : Stops serves world t world') :
    held world' := by
  induction hstops with
  | here => exact h.now
  | await hserve _ ih => exact ih (h.2 _ _ hserve)

/-- A task that ran to its end meets its postcondition. -/
theorem Keeps.solo {a : α} (h : Keeps serves held post t world) (hsolo : Solo serves world t world' a) :
    post a world' := by
  induction hsolo with
  | done => exact h.2
  | await hserve _ ih => exact ih (h.2 _ _ hserve)

theorem Keeps.mono (h : Keeps serves held post t world) (hheld : ∀ w, held w → held' w)
    (hpost : ∀ a w, held w → post a w → post' a w) : Keeps serves held' post' t world := by
  induction t generalizing world with
  | done a => exact ⟨hheld _ h.1, hpost _ _ h.1 h.2⟩
  | await op resume ih =>
    refine ⟨hheld _ h.1, ?_⟩
    intro w reply hserve
    exact ih reply (h.2 w reply hserve)

/-- One operation is checked against every reply. -/
theorem Keeps.await {op : Op} {resume : Reply op → Task Op Reply α} (hheld : held world)
    (hrest : ∀ world' reply, serves world op world' reply →
      Keeps serves held post (resume reply) world') :
    Keeps serves held post (.await op resume) world := ⟨hheld, hrest⟩

/-- An operation followed by a continuation is checked like an await. -/
theorem Keeps.call {op : Op} {next : Reply op → Task Op Reply α} (hheld : held world)
    (hrest : ∀ world' reply, serves world op world' reply → Keeps serves held post (next reply) world') :
    Keeps serves held post ((Task.call op).bind next) world := ⟨hheld, hrest⟩

/-- Sequences compose through the value of their first part. -/
theorem Keeps.bind {next : α → Task Op Reply β} {post₂ : β → World → Prop}
    (h : Keeps serves held post t world)
    (hnext : ∀ a w, held w → post a w → Keeps serves held post₂ (next a) w) :
    Keeps serves held post₂ (t.bind next) world := by
  induction t generalizing world with
  | done a => exact hnext a world h.1 h.2
  | await op resume ih =>
    refine ⟨h.1, ?_⟩
    intro w reply hserve
    exact ih reply (h.2 w reply hserve)

/-- Continue with a successful value; a failure ends the task. -/
def andThen (t : Task Op Reply (Except ε α)) (next : α → Task Op Reply (Except ε β)) :
    Task Op Reply (Except ε β) :=
  t.bind fun
    | .error e => .done (.error e)
    | .ok a => next a

theorem Keeps.andThen {t : Task Op Reply (Except ε α)} {next : α → Task Op Reply (Except ε β)}
    {post : Except ε α → World → Prop} {post₂ : Except ε β → World → Prop}
    (h : Keeps serves held post t world)
    (herror : ∀ e w, held w → post (.error e) w → post₂ (.error e) w)
    (hnext : ∀ a w, held w → post (.ok a) w → Keeps serves held post₂ (next a) w) :
    Keeps serves held post₂ (t.andThen next) world := by
  refine h.bind ?_
  intro value w hheld hpost
  cases value with
  | error e => exact ⟨hheld, herror e w hheld hpost⟩
  | ok a => exact hnext a w hheld hpost

/-- Go through a list with an accumulator; the first failure ends the task. -/
def forEach (body : σ → τ → Task Op Reply (Except ε σ)) : σ → List τ → Task Op Reply (Except ε σ)
  | state, [] => .done (.ok state)
  | state, item :: rest => (body state item).andThen fun state => forEach body state rest

/-- A traversal keeps what its body carries from each item to the next. -/
theorem Keeps.forEach {body : σ → τ → Task Op Reply (Except ε σ)} {post : Except ε σ → World → Prop}
    (carries : List τ → σ → World → Prop) (items : List τ)
    (hbody : ∀ done item rest state w, items = done ++ item :: rest → held w → carries done state w →
      Keeps serves held (fun value w => match value with
        | .ok next => carries (done ++ [item]) next w
        | .error e => post (.error e) w) (body state item) w)
    (hend : ∀ state w, held w → carries items state w → post (.ok state) w)
    {state : σ} (hheld : held world) (hstart : carries [] state world) :
    Keeps serves held post (Task.forEach body state items) world := by
  have hfrom : ∀ rest done state w, items = done ++ rest → held w → carries done state w →
      Keeps serves held post (Task.forEach body state rest) w := by
    intro rest
    induction rest with
    | nil =>
      intro done state w hitems hheld hdone
      rw [List.append_nil] at hitems
      exact ⟨hheld, hend state w hheld (hitems ▸ hdone)⟩
    | cons item rest ih =>
      intro done state w hitems hheld hdone
      refine (hbody done item rest state w hitems hheld hdone).andThen ?_ ?_
      · exact fun e w _ hpost => hpost
      · intro next w hheld hnext
        exact ih (done ++ [item]) next w (by simpa using hitems) hheld hnext
  exact hfrom items [] state world rfl hheld hstart

/-- Repeat a body until it yields a value. A round beyond the fuel awaits an operation which is never served, so
a run with little fuel is a longer run stopped on its way. -/
def repeatUntil (cut : Op) [IsEmpty (Reply cut)] (body : σ → Task Op Reply (σ ⊕ α)) : ℕ → σ → Task Op Reply α
  | 0, _ => .await cut isEmptyElim
  | fuel + 1, state => (body state).bind fun
    | .inl next => repeatUntil cut body fuel next
    | .inr value => .done value

/-- A loop keeps what its body carries from each round to the next. -/
theorem Keeps.repeatUntil {cut : Op} [IsEmpty (Reply cut)] {body : σ → Task Op Reply (σ ⊕ α)}
    (carries : σ → World → Prop)
    (hbody : ∀ state w, held w → carries state w →
      Keeps serves held (fun next w => next.elim (carries · w) (post · w)) (body state) w)
    (fuel : ℕ) {state : σ} (hheld : held world) (hstart : carries state world) :
    Keeps serves held post (Task.repeatUntil cut body fuel state) world := by
  induction fuel generalizing state world with
  | zero => exact ⟨hheld, fun _ reply _ => isEmptyElim reply⟩
  | succ fuel ih =>
    refine (hbody state world hheld hstart).bind ?_
    intro next w hheld hnext
    cases next with
    | inl next => exact ih hheld hnext
    | inr value => exact ⟨hheld, hnext⟩

/-- Every failure a task may end with, whatever it is told, meets a predicate. -/
def Fails (p : ε → Prop) : Task Op Reply (Except ε α) → Prop
  | .done value => ∀ e, value = .error e → p e
  | .await _ resume => ∀ reply, Fails p (resume reply)

/-- A continuation that sees the failures of its first part may not fail otherwise. -/
theorem Fails.bind {p : ε → Prop} {t : Task Op Reply (Except ε α)}
    {next : Except ε α → Task Op Reply (Except ε β)} (h : Fails p t)
    (hnext : ∀ value, (∀ e, value = .error e → p e) → Fails p (next value)) : Fails p (t.bind next) := by
  induction t with
  | done value => exact hnext value h
  | await op resume ih => exact fun reply => ih reply (h reply)

theorem Fails.andThen {p : ε → Prop} {t : Task Op Reply (Except ε α)}
    {next : α → Task Op Reply (Except ε β)} (h : Fails p t) (hnext : ∀ a, Fails p (next a)) :
    Fails p (t.andThen next) := by
  refine h.bind ?_
  intro value hvalue
  cases value with
  | error e =>
    intro e' he
    cases he
    exact hvalue e rfl
  | ok a => exact hnext a

theorem Fails.forEach {p : ε → Prop} {body : σ → τ → Task Op Reply (Except ε σ)}
    (h : ∀ state item, Fails p (body state item)) (state : σ) (items : List τ) :
    Fails p (Task.forEach body state items) := by
  induction items generalizing state with
  | nil => simp [Task.forEach, Fails]
  | cons item rest ih => exact (h state item).andThen ih

/-- What a task keeps may be joined with what its failures meet. -/
theorem Keeps.fails {p : ε → Prop} {t : Task Op Reply (Except ε α)} {post : Except ε α → World → Prop}
    (h : Keeps serves held post t world) (hfails : Fails p t) :
    Keeps serves held (fun value w => post value w ∧ ∀ e, value = .error e → p e) t world := by
  induction t generalizing world with
  | done value => exact ⟨h.1, h.2, hfails⟩
  | await op resume ih =>
    refine ⟨h.1, ?_⟩
    intro w reply hserve
    exact ih reply (h.2 w reply hserve) (hfails reply)

end Voicetext.Common.Task
