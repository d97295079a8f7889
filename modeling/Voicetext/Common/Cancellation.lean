import Voicetext.Common.Machine

/-!
# Calls that may be dropped where they await

A call is a value at each of its awaits. Polling it, once what it awaits is there, takes it to its
next await or to its result; between two polls it may be dropped, and the environment may act. What is
safe under cancellation is an invariant that starting, polling and dropping a call all keep.
-/

namespace Voicetext.Common

variable {σ π ε κ ρ : Type*}

/-- A call over a shared state: where it starts and what a poll with an answer does at an await. -/
structure AwaitingCall (σ π κ ρ : Type*) where
  start : π
  poll : σ → π → κ → σ × (π ⊕ ρ)

/-- What happens to a call: the environment acts, or its owner calls, polls or drops it. -/
inductive CallInput (ε κ : Type*)
  | environment (event : ε)
  | call
  | poll (answer : κ)
  | drop

/-- What the environment did. -/
def CallInput.event? : CallInput ε κ → Option ε
  | .environment event => some event
  | _ => none

/-- The shared state with the call in progress, at the await where it is suspended. -/
structure CallState (σ π : Type*) where
  state : σ
  suspended : Option π

namespace AwaitingCall

/-- One input; a poll that completes the call yields its result. -/
def step (call : AwaitingCall σ π κ ρ) (environment : σ → ε → σ) (s : CallState σ π) :
    CallInput ε κ → CallState σ π × Option ρ
  | .environment event => ({ s with state := environment s.state event }, none)
  | .call => ({ s with suspended := some (s.suspended.getD call.start) }, none)
  | .poll answer =>
    match s.suspended with
    | none => (s, none)
    | some point =>
      match call.poll s.state point answer with
      | (state, .inl next) => (⟨state, some next⟩, none)
      | (state, .inr result) => (⟨state, none⟩, some result)
  | .drop => ({ s with suspended := none }, none)

/-- The results of completed calls, in order. -/
def results (history : List (CallInput ε κ × Option ρ)) : List ρ := history.filterMap Prod.snd

/-- What the environment did, in order. -/
def environmentEvents (history : List (CallInput ε κ × Option ρ)) : List ε :=
  history.filterMap fun exchange => exchange.1.event?

theorem results_append (history : List (CallInput ε κ × Option ρ))
    (exchange : CallInput ε κ × Option ρ) :
    results (history ++ [exchange]) = results history ++ exchange.2.toList := by
  cases h : exchange.2 <;> simp [results, h]

theorem environmentEvents_append (history : List (CallInput ε κ × Option ρ))
    (exchange : CallInput ε κ × Option ρ) :
    environmentEvents (history ++ [exchange]) =
      environmentEvents history ++ exchange.1.event?.toList := by
  cases h : exchange.1.event? <;> simp [environmentEvents, h]

/-- Where the drops among inputs happen: the awaits at which a call was suspended then. -/
def droppedPoints (call : AwaitingCall σ π κ ρ) (environment : σ → ε → σ) :
    CallState σ π → List (CallInput ε κ) → List π
  | _, [] => []
  | s, .drop :: rest =>
    s.suspended.toList ++ droppedPoints call environment (call.step environment s .drop).1 rest
  | s, input :: rest => droppedPoints call environment (call.step environment s input).1 rest

variable {call : AwaitingCall σ π κ ρ} {environment : σ → ε → σ} {initial : σ}

/-- One more input drops a call where the inputs before it left one suspended. -/
theorem droppedPoints_append (s : CallState σ π) (inputs : List (CallInput ε κ)) (input : CallInput ε κ) :
    droppedPoints call environment s (inputs ++ [input]) =
      droppedPoints call environment s inputs ++
        droppedPoints call environment (feed (call.step environment) s inputs).2 [input] := by
  induction inputs generalizing s with
  | nil => rfl
  | cons head rest ih => cases head <;> simp [droppedPoints, feed, ih]

/-- The invariant rule: what the environment, a start, a poll and every drop at a harmless point keep
holds after every run without other drops. -/
theorem invariant (harmless : π → Prop)
    (holds : List ε → List ρ → CallState σ π → Prop)
    (hinitial : holds [] [] ⟨initial, none⟩)
    (henvironment : ∀ events results s event, holds events results s →
      holds (events ++ [event]) results { s with state := environment s.state event })
    (hcall : ∀ events results state, holds events results ⟨state, none⟩ →
      holds events results ⟨state, some call.start⟩)
    (hawait : ∀ events results state point answer state' next,
      holds events results ⟨state, some point⟩ → call.poll state point answer = (state', .inl next) →
        holds events results ⟨state', some next⟩)
    (hreturn : ∀ events results state point answer state' result,
      holds events results ⟨state, some point⟩ → call.poll state point answer = (state', .inr result) →
        holds events (results ++ [result]) ⟨state', none⟩)
    (hdrop : ∀ events results state point, harmless point →
      holds events results ⟨state, some point⟩ → holds events results ⟨state, none⟩)
    {history : List (CallInput ε κ × Option ρ)} {s : CallState σ π}
    (hrun : Runs (call.step environment) ⟨initial, none⟩ history s)
    (hdropped : ∀ point ∈ droppedPoints call environment ⟨initial, none⟩ (history.map Prod.fst),
      harmless point) :
    holds (environmentEvents history) (results history) s := by
  induction hrun with
  | nil => exact hinitial
  | @snoc history s hrun input ih =>
    rw [List.map_append, List.map_singleton, droppedPoints_append, hrun.eq_feed] at hdropped
    have hs := ih fun point h => hdropped point (List.mem_append_left _ h)
    rw [environmentEvents_append, results_append]
    cases input with
    | environment event =>
      simpa [step, CallInput.event?] using henvironment _ _ _ event hs
    | call =>
      rcases s with ⟨state, _ | point⟩
      · simpa [step, CallInput.event?] using hcall _ _ state hs
      · simpa [step, CallInput.event?] using hs
    | drop =>
      rcases s with ⟨state, _ | point⟩
      · simpa [step, CallInput.event?] using hs
      · have hharmless : harmless point := hdropped point (by simp [droppedPoints])
        simpa [step, CallInput.event?] using hdrop _ _ state point hharmless hs
    | poll answer =>
      rcases s with ⟨state, _ | point⟩
      · simpa [step, CallInput.event?] using hs
      · rcases hpoll : call.poll state point answer with ⟨state', next | result⟩
        · simpa [step, CallInput.event?, hpoll] using hawait _ _ _ _ _ _ _ hs hpoll
        · simpa [step, CallInput.event?, hpoll] using hreturn _ _ _ _ _ _ _ hs hpoll

end AwaitingCall

end Voicetext.Common
