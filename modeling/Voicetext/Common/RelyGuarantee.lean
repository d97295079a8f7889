import Voicetext.Common.TaskPool

/-!
# Rely–guarantee reasoning for task pools

A protocol fixes what always holds of the shared world, what a task must establish before each
operation, and what it may rely on between its own operations. A task secured on its own, against
everything the others may do, is then safe in every interleaving: the world invariant holds in
every reachable state, finished tasks satisfy their postconditions and pending operations satisfy
their preconditions.
-/

namespace Voicetext.Common

variable {ι World Op : Type*} {Reply : Op → Type*}

/-- What the tasks of a pool owe each other, with the proof that every served operation pays it. -/
structure Protocol (ι World Op : Type*) (Reply : Op → Type*) where
  /-- The service the tasks run against. -/
  serves : Service ι World Op Reply
  /-- What holds of the world at every step. -/
  inv : World → Prop
  /-- What a task owes before one of its operations is served. -/
  pre : ι → Op → World → Prop
  /-- How the world may have changed between two of a task's own operations. -/
  rely : ι → World → World → Prop
  rely_refl : ∀ i world, rely i world world
  rely_trans : ∀ {i world world' world''}, rely i world world' → rely i world' world'' →
    rely i world world''
  serves_inv : ∀ {i world op world' reply}, inv world → pre i op world →
    serves i world op world' reply → inv world'
  serves_rely : ∀ {i j world op world' reply}, inv world → pre i op world →
    serves i world op world' reply → j ≠ i → rely j world world'

namespace Protocol

variable (P : Protocol ι World Op Reply) {i : ι} {α β : Type*}

/-- A task meets its obligations from this world on, whatever the others do in between. -/
def Secured (i : ι) (post : α → World → Prop) : Task Op Reply α → World → Prop
  | .done a, world => ∀ world', P.rely i world world' → P.inv world' → post a world'
  | .await op resume, world => ∀ world', P.rely i world world' → P.inv world' →
      P.pre i op world' ∧ ∀ world'' reply, P.serves i world' op world'' reply → P.inv world'' →
        Secured i post (resume reply) world''

variable {P} {post post' : α → World → Prop} {world world' : World}

/-- Steps of the other tasks do not disturb a secured task. -/
theorem Secured.rely {t : Task Op Reply α} (h : P.Secured i post t world)
    (hrely : P.rely i world world') : P.Secured i post t world' := by
  cases t with
  | done a => exact fun w hw hinv => h w (P.rely_trans hrely hw) hinv
  | await op resume => exact fun w hw hinv => h w (P.rely_trans hrely hw) hinv

/-- A finished task is secured when its postcondition survives the other tasks. -/
theorem Secured.done {a : α}
    (h : ∀ w, P.rely i world w → P.inv w → post a w) : P.Secured i post (.done a) world := h

/-- One operation is secured by its precondition and by what every reply leaves to do. -/
theorem Secured.await {op : Op} {resume : Reply op → Task Op Reply α}
    (hpre : ∀ w, P.rely i world w → P.inv w → P.pre i op w)
    (hrest : ∀ w w' reply, P.rely i world w → P.inv w → P.serves i w op w' reply → P.inv w' →
      P.Secured i post (resume reply) w') :
    P.Secured i post (.await op resume) world :=
  fun w hw hinv => ⟨hpre w hw hinv, fun w' reply hserve hinv' => hrest w w' reply hw hinv hserve hinv'⟩

/-- A secured task also satisfies every weaker postcondition. -/
theorem Secured.mono {t : Task Op Reply α} (h : P.Secured i post t world)
    (hpost : ∀ a w, P.inv w → post a w → post' a w) : P.Secured i post' t world := by
  induction t generalizing world with
  | done a => exact fun w hw hinv => hpost a w hinv (h w hw hinv)
  | await op resume ih =>
    intro w hw hinv
    obtain ⟨hpre, hrest⟩ := h w hw hinv
    exact ⟨hpre, fun w' reply hserve hinv' => ih reply (hrest w' reply hserve hinv')⟩

/-- Sequencing: the first task's postcondition is what the continuation starts from. -/
theorem Secured.bind {t : Task Op Reply α} {next : α → Task Op Reply β} {post₂ : β → World → Prop}
    (h : P.Secured i post t world) (hinv : P.inv world)
    (hnext : ∀ a w, P.inv w → post a w → P.Secured i post₂ (next a) w) :
    P.Secured i post₂ (t.bind next) world := by
  induction t generalizing world with
  | done a => exact hnext a world hinv (h world (P.rely_refl i world) hinv)
  | await op resume ih =>
    intro w hw hinvw
    obtain ⟨hpre, hrest⟩ := h w hw hinvw
    exact ⟨hpre, fun w' reply hserve hinv' => ih reply (hrest w' reply hserve hinv') hinv'⟩

/-- Frame: what every step only ever extends is still extended when the task finishes. -/
theorem Secured.frame (grows : World → World → Prop) {start : World} {t : Task Op Reply α}
    (h : P.Secured i post t world) (hstart : grows start world)
    (hrely : ∀ w w', grows start w → P.rely i w w' → grows start w')
    (hserves : ∀ w op w' reply, grows start w → P.serves i w op w' reply → grows start w') :
    P.Secured i (fun a w => post a w ∧ grows start w) t world := by
  induction t generalizing world with
  | done a => exact fun w hw hinv => ⟨h w hw hinv, hrely world w hstart hw⟩
  | await op resume ih =>
    intro w hw hinv
    obtain ⟨hpre, hrest⟩ := h w hw hinv
    refine ⟨hpre, fun w' reply hserve hinv' => ih reply (hrest w' reply hserve hinv') ?_⟩
    exact hserves w op w' reply (hrely world w hstart hw) hserve

/-- Reporting a task's value under another type does not change what it owes. -/
theorem Secured.map {t : Task Op Reply α} {f : α → β} {post₂ : β → World → Prop}
    (h : P.Secured i post t world) (hpost : ∀ a w, P.inv w → post a w → post₂ (f a) w) :
    P.Secured i post₂ (t.bind fun a => .done (f a)) world := by
  induction t generalizing world with
  | done a => exact fun w hw hinv => hpost a w hinv (h w hw hinv)
  | await op resume ih =>
    intro w hw hinv
    obtain ⟨hpre, hrest⟩ := h w hw hinv
    exact ⟨hpre, fun w' reply hserve hinv' => ih reply (hrest w' reply hserve hinv')⟩

section Pool

variable {γ : Type*}

/-- Every task of the pool is secured, and a cut-off task owes nothing. -/
structure Safe (P : Protocol ι World Op Reply) (post : ι → Option γ → World → Prop)
    (s : PoolState ι World Op Reply γ) : Prop where
  inv : P.inv s.world
  secured : ∀ i, P.Secured i (post i) (s.pool i) s.world

variable {posts : ι → Option γ → World → Prop} {s s' : PoolState ι World Op Reply γ}

/-- One step of any task, or one cut-off, keeps the whole pool safe. -/
theorem Safe.step [DecidableEq ι] (hnone : ∀ i w, posts i none w) (h : P.Safe posts s)
    (hstep : PoolStep P.serves s s') : P.Safe posts s' := by
  cases hstep with
  | @serve i op resume world' reply hawait hserve =>
    have hi := h.secured i
    rw [hawait] at hi
    obtain ⟨hpre, hrest⟩ := hi s.world (P.rely_refl i s.world) h.inv
    have hinv' := P.serves_inv h.inv hpre hserve
    refine ⟨hinv', fun j => ?_⟩
    by_cases hj : j = i
    · subst hj
      simpa using hrest world' reply hserve hinv'
    · simpa [hj] using (h.secured j).rely (P.serves_rely h.inv hpre hserve hj)
  | @cutOff i op resume hawait =>
    have hi := h.secured i
    rw [hawait] at hi
    refine ⟨h.inv, fun j => ?_⟩
    by_cases hj : j = i
    · subst hj
      simp only [Function.update_self]
      exact fun w hw hinv => ⟨(hi w hw hinv).1, fun w' _ _ _ => .done fun w'' _ _ => hnone j w''⟩
    · simpa [hj] using h.secured j

/-- A pool whose tasks are all secured stays safe in every interleaving. -/
theorem Safe.reaches [DecidableEq ι] (hnone : ∀ i w, posts i none w) (h : P.Safe posts s)
    (hreach : PoolReaches P.serves s s') : P.Safe posts s' :=
  PoolReaches.invariant (P.Safe posts) (fun _ _ hsafe hstep => hsafe.step hnone hstep) hreach h

/-- A finished task of a safe pool satisfies its postcondition. -/
theorem Safe.post_of_done (h : P.Safe posts s) {value : Option γ} (hdone : s.pool i = .done value) :
    posts i value s.world := by
  have hi := h.secured i
  rw [hdone] at hi
  exact hi s.world (P.rely_refl i s.world) h.inv

/-- A pending operation of a safe pool satisfies its precondition. -/
theorem Safe.pre_of_await (h : P.Safe posts s) {op : Op} {resume}
    (hawait : s.pool i = .await op resume) : P.pre i op s.world := by
  have hi := h.secured i
  rw [hawait] at hi
  exact (hi s.world (P.rely_refl i s.world) h.inv).1

end Pool

end Protocol

end Voicetext.Common
