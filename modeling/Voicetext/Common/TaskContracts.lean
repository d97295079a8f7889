import Voicetext.Common.TaskPool

/-!
# Contracts of tasks

What a task asks for depends on nothing but what it has been told. When every reply tells the truth about whatever
world the tasks of a pool have left behind, a task need not be followed through the steps of the others: each is
walked once on its own, and what all of them keep holds in every interleaving.
-/

namespace Voicetext.Common

variable {ι World Op : Type*} {Reply : Op → Type*} {α β γ : Type*}

/-- What tasks may ask for, and what they are told. -/
structure TaskContract (Op : Type*) (Reply : Op → Type*) where
  asks : Op → Prop
  told : (op : Op) → Reply op → Prop

namespace TaskContract

/-- As long as it is told what it may be told, a task asks for what it may ask for, and ends in `post`. -/
def Obeys (C : TaskContract Op Reply) (post : α → Prop) : Task Op Reply α → Prop
  | .done a => post a
  | .await op resume => C.asks op ∧ ∀ reply, C.told op reply → Obeys C post (resume reply)

variable {C : TaskContract Op Reply} {post post' : α → Prop} {t : Task Op Reply α}

/-- One operation ends with what it is told. -/
theorem Obeys.call {op : Op} (hasks : C.asks op) : C.Obeys (C.told op) (Task.call op : Task Op Reply (Reply op)) :=
  ⟨hasks, fun _ htold => htold⟩

theorem Obeys.mono (h : C.Obeys post t) (hpost : ∀ a, post a → post' a) : C.Obeys post' t := by
  induction t with
  | done a => exact hpost a h
  | await op resume ih => exact ⟨h.1, fun reply htold => ih reply (h.2 reply htold)⟩

/-- Sequences compose through the value of their first part. -/
theorem Obeys.bind {next : α → Task Op Reply β} {post₂ : β → Prop} (h : C.Obeys post t)
    (hnext : ∀ a, post a → C.Obeys post₂ (next a)) : C.Obeys post₂ (t.bind next) := by
  induction t with
  | done a => exact hnext a h
  | await op resume ih => exact ⟨h.1, fun reply htold => ih reply (h.2 reply htold)⟩

/-- A service keeps an invariant of its world as long as it is asked for what it may be asked for, and tells what it
may tell. -/
structure Honoured (C : TaskContract Op Reply) (serves : Service ι World Op Reply) (inv : World → Prop) : Prop where
  keeps : ∀ i w op w' reply, inv w → C.asks op → serves i w op w' reply → inv w'
  tells : ∀ i w op w' reply, inv w → C.asks op → serves i w op w' reply → C.told op reply

/-- The invariant of the world holds, and every task of the pool obeys; one which was cut off owes nothing. -/
structure Kept (C : TaskContract Op Reply) (inv : World → Prop) (post : ι → γ → Prop)
    (s : PoolState ι World Op Reply γ) : Prop where
  inv : inv s.world
  obeys : ∀ i, C.Obeys (fun value => ∀ result, value = some result → post i result) (s.pool i)

variable {serves : Service ι World Op Reply} {inv : World → Prop} {posts : ι → γ → Prop}
  {s s' : PoolState ι World Op Reply γ}

/-- One step of any task, or one cut-off, keeps the invariant and leaves obedient tasks. -/
theorem Kept.step [DecidableEq ι] (hserves : C.Honoured serves inv) (h : C.Kept inv posts s)
    (hstep : PoolStep serves s s') : C.Kept inv posts s' := by
  cases hstep with
  | @serve i op resume world' reply hawait hserve =>
    have hi := h.obeys i
    rw [hawait] at hi
    refine ⟨hserves.keeps i _ _ _ _ h.inv hi.1 hserve, fun j => ?_⟩
    by_cases hj : j = i
    · subst hj
      simpa using hi.2 reply (hserves.tells j _ _ _ _ h.inv hi.1 hserve)
    · simpa [hj] using h.obeys j
  | @cutOff i op resume hawait =>
    have hi := h.obeys i
    rw [hawait] at hi
    refine ⟨h.inv, fun j => ?_⟩
    by_cases hj : j = i
    · subst hj
      simp only [Function.update_self]
      exact ⟨hi.1, fun _ _ => nofun⟩
    · simpa [hj] using h.obeys j

/-- A pool of obedient tasks keeps the invariant in every interleaving. -/
theorem Kept.reaches [DecidableEq ι] (hserves : C.Honoured serves inv) (h : C.Kept inv posts s)
    (hreach : PoolReaches serves s s') : C.Kept inv posts s' :=
  PoolReaches.invariant (C.Kept inv posts) (fun _ _ hkept hstep => hkept.step hserves hstep) hreach h

end TaskContract

end Voicetext.Common
