import Voicetext.Gateway.AdmissionCall

/-!
# Execution against everything the other calls may do

An execution writes at most two rows: its claim, and the outcome of the one provider call the claim
pays for. It never stores audio. Whatever happens around it, when nothing fails it has removed the
audio of every job it finished.
-/

namespace Voicetext.Gateway

open Voicetext.Common Voicetext.Speech.Domain Voicetext.Speech.Application Voicetext.Gateway.Storage

variable {ι : Type*} [DecidableEq ι] {config : GatewayConfig} {allowed : Environment ι}
  {calls : ι → GatewayCall} {w : GatewayWorld ι} {i : ι} {events : List (GatewayEvent ι)}

omit [DecidableEq ι] in
/-- Effects of a call which stores nothing and cleans up after every job it finishes. -/
structure Tidy (i : ι) (events : List (GatewayEvent ι)) : Prop where
  terminal : ∀ row : BatchJobSnapshot, row.job.state.isTerminal = true →
    ¬Unanswered (.wrote i row) (.removed i row.audio) events
  stored : ∀ id handle created, .stored i id handle created ∉ events

omit [DecidableEq ι] in
theorem Tidy.nil : Tidy i [] := ⟨by simp, by simp⟩

omit [DecidableEq ι] in
/-- Effects other than a store or a terminal row leave nothing to clean up. -/
theorem Tidy.cons (h : Tidy i events) {event : GatewayEvent ι}
    (hstored : ∀ id handle created, event ≠ .stored i id handle created)
    (hterminal : ∀ row, event = .wrote i row → row.job.state.isTerminal = false) :
    Tidy i (event :: events) := by
  constructor
  · intro row hrow howes
    rcases unanswered_cons.mp howes with heq | ⟨_, hrest⟩
    · rw [hterminal row heq] at hrow
      cases hrow
    · exact h.terminal row hrow hrest
  · intro id handle created hmem
    rcases List.mem_cons.mp hmem with heq | hrest
    · exact hstored id handle created heq.symm
    · exact h.stored id handle created hrest

omit [DecidableEq ι] in
/-- A terminal row whose audio is removed next leaves nothing to clean up. -/
theorem Tidy.cleaned (h : Tidy i events) (row : BatchJobSnapshot) :
    Tidy i (.removed i row.audio :: .wrote i row :: events) := by
  constructor
  · intro version hversion howes
    simp only [unanswered_cons] at howes
    rcases howes with heq | ⟨hanswer, heq | ⟨_, hrest⟩⟩
    · cases heq
    · cases heq
      exact hanswer rfl
    · exact h.terminal version hversion hrest
  · intro id handle created hmem
    simp only [List.mem_cons, reduceCtorEq, false_or] at hmem
    exact h.stored id handle created hmem

/-- A tidy call owes no removal. -/
theorem Tidy.settled (h : Tidy i (own i w.history)) : Settled i w :=
  ⟨fun row hterminal => h.terminal row hterminal,
    fun id handle howes => absurd howes.mem (h.stored id handle true)⟩

/-- What an execution or a recovery has established when it returns. -/
def CleanedUp (config : GatewayConfig) (allowed : Environment ι) (i : ι) (w : GatewayWorld ι) : Prop :=
  Calm config allowed → Tidy i (own i w.history)

/-- A call which returns with tidy effects stays tidy, whatever the others do. -/
theorem CleanedUp.done {α : Type} {result : α} (h : CleanedUp config allowed i w) :
    (gatewayProtocol config allowed calls).Secured i (fun _ w => CleanedUp config allowed i w)
      (.done result) w := by
  refine .done fun w' hrely _ hcalm => ?_
  rw [Rely.own_eq hrely]
  exact h hcalm

/-- Removing the audio of a terminal row the call has just written cleans it up. -/
theorem CleanedUp.of_removed (h : Calm config allowed → Tidy i events) {row : BatchJobSnapshot}
    (hown : own i w.history = .removed i row.audio :: .wrote i row :: events ∨
      own i w.history = .wrote i row :: events ∧ ¬Calm config allowed) :
    CleanedUp config allowed i w := by
  intro hcalm
  rw [hown.resolve_right fun hfault => hfault.2 hcalm]
  exact (h hcalm).cleaned row

/-- What a compare-and-swap leaves when it reports anything but success. -/
theorem Swapped.cleanedUp {row : BatchJobSnapshot}
    {reply : Except BatchJobStoreFailure BatchJobUpdateOutcome}
    (h : Swapped config allowed i events row reply w) (htidy : Calm config allowed → Tidy i events)
    (hreply : ∀ stored, reply ≠ .ok (.stored stored)) : CleanedUp config allowed i w := by
  intro hcalm
  have hdeclined : own i w.history = .declined i :: events := by
    match reply with
    | .error failure => exact h.failed failure rfl hcalm
    | .ok (.revisionConflict current) => exact h.conflict current rfl
    | .ok .missing => exact h.missing rfl
    | .ok (.stored stored) => exact absurd rfl (hreply stored)
  rw [hdeclined]
  exact (htidy hcalm).cons (by simp) (by simp)

/-- Removing the audio of a terminal row the call wrote, in the midst of its other effects. -/
theorem removeWritten_secured {row : BatchJobSnapshot} (hinv : Inv config allowed calls w)
    (hown : own i w.history = .wrote i row :: events) (hterminal : row.job.state.isTerminal = true) :
    (gatewayProtocol config allowed calls).Secured i
      (fun _ w => own i w.history = .removed i row.audio :: .wrote i row :: events ∨
        own i w.history = .wrote i row :: events ∧ ¬Calm config allowed)
      (durableFileSpool.remove row.audio) w := by
  have hheld : Held w.history row := held_of_own (hown ▸ List.mem_cons_self)
  exact remove_secured hown (hinv.justified.version hheld).2 (.inr ⟨row, hheld, hterminal, rfl⟩)

/-- Persisting a paid outcome writes it over the claim, and cleans up when it is terminal. -/
theorem persistOutcome_secured {claimed replacement : BatchJobSnapshot} (htidy : Tidy i events)
    (hown : own i w.history = events) (hinv : Inv config allowed calls w) (hheld : Held w.history claimed)
    (hproposes : Proposes i w.history claimed replacement) :
    (gatewayProtocol config allowed calls).Secured i (fun _ w => CleanedUp config allowed i w)
      ((coordinator config.codec).persistOutcome claimed replacement) w := by
  refine secured_bind (compareAndSwapInner_secured hown hinv hheld rfl hproposes) hinv ?_
  intro reply w₁ hinv₁ hswapped _
  match reply with
  | .error failure => exact (hswapped.cleanedUp (fun _ => htidy) (by simp)).done
  | .ok (.revisionConflict current) => exact (hswapped.cleanedUp (fun _ => htidy) (by simp)).done
  | .ok .missing => exact (hswapped.cleanedUp (fun _ => htidy) (by simp)).done
  | .ok (.stored snapshot) =>
    obtain ⟨rfl, hown₁⟩ := hswapped.stored snapshot rfl
    cases hterminal : (nextRow replacement).job.state.isTerminal with
    | true =>
      simp only [hterminal, if_true]
      refine secured_bind (removeWritten_secured hinv₁ hown₁ hterminal) hinv₁ ?_
      intro cleanup w₂ _ hown₂ _
      exact (CleanedUp.of_removed (fun _ => htidy) hown₂).done
    | false =>
      simp only [hterminal, Bool.false_eq_true, if_false]
      refine CleanedUp.done fun _ => ?_
      rw [hown₁]
      refine htidy.cons (by simp) fun row heq => ?_
      cases heq
      exact hterminal

/-- The provider is called over the durable claim, and its outcome settles that claim. -/
theorem recognizeClaimed_secured {claimed : BatchJobSnapshot} {n : NonZeroU32}
    (hown : own i w.history = [.wrote i claimed]) (hinv : Inv config allowed calls w)
    (hstate : claimed.job.state = .submitting n)
    (hexecutes : ∃ projection, calls i = .execute claimed.id projection) (audio : List UInt8)
    (projection : BatchResultProjection) :
    (gatewayProtocol config allowed calls).Secured i (fun _ w => CleanedUp config allowed i w)
      (((coordinator config.codec).recognizer.recognize
          { profile := claimed.job.profile, audio,
            authoritativeDurationMillis := claimed.authoritativeDurationMillis,
            keyterms := claimed.keyterms }).bind fun recognition =>
        match applyRecognitionOutcome claimed recognition projection with
        | .error error => .done (.error (.transition error))
        | .ok replacement => (coordinator config.codec).persistOutcome claimed replacement) w := by
  refine secured_bind (recognize_secured hown hstate ⟨hexecutes, rfl, rfl, rfl⟩) hinv ?_
  intro recognition w₁ hinv₁ hown₁ _
  obtain ⟨replacement, happly, hsettlement⟩ :=
    applyRecognitionOutcome_settlement hstate recognition projection
  simp only [happly]
  have hactive : claimed.job.state.isTerminal = false := by rw [hstate]; rfl
  have htidy : Tidy i (own i w₁.history) := by
    rw [hown₁]
    refine (Tidy.nil.cons (by simp) fun row heq => ?_).cons (by simp) (by simp)
    cases heq
    exact hactive
  have hwrote : .wrote i claimed ∈ w₁.history := mem_of_mem_own (by rw [hown₁]; simp)
  have hrecognized := mem_of_mem_own (hown₁.symm ▸ List.mem_cons_self)
  exact persistOutcome_secured htidy rfl hinv₁ ⟨i, hwrote⟩
    (.outcome hstate hwrote hrecognized hsettlement)

/-- An execution which has done nothing yet is secured against every interleaving. -/
theorem execute_secured (hown : own i w.history = []) (hinv : Inv config allowed calls w)
    {id : BatchJobId} {projection : BatchResultProjection} (hcall : calls i = .execute id projection) :
    (gatewayProtocol config allowed calls).Secured i (fun _ w => CleanedUp config allowed i w)
      ((coordinator config.codec).executeWithCleanupReport id projection) w := by
  have hnothing {w' : GatewayWorld ι} (hown' : own i w'.history = []) :
      CleanedUp config allowed i w' := fun _ => by rw [hown']; exact .nil
  refine secured_bind (load_secured hown id) hinv ?_
  rintro loaded w₁ hinv₁ ⟨hown₁, hheld, _⟩ -
  match loaded with
  | .error failure => exact (hnothing hown₁).done
  | .ok none => exact (hnothing hown₁).done
  | .ok (some snapshot) =>
    obtain ⟨hsnapshot, rfl⟩ := hheld snapshot rfl
    cases hactionable : snapshot.job.state.isActionable with
    | false =>
      simp only [hactionable, Bool.not_false, if_true]
      exact (hnothing hown₁).done
    | true =>
      simp only [hactionable, Bool.not_true, Bool.false_eq_true, if_false]
      refine secured_bind (read_secured hown₁ snapshot.audio) hinv₁ ?_
      intro reply w₂ hinv₂ hown₂ hsub
      match reply with
      | .error failure => exact (hnothing hown₂).done
      | .ok audio =>
        cases hclaim : claim snapshot with
        | error error => exact (hnothing hown₂).done
        | ok replacement =>
          refine secured_bind (compareAndSwapInner_secured hown₂ hinv₂ (hsnapshot.mono hsub) rfl
            (.claim hclaim)) hinv₂ ?_
          intro reply w₃ hinv₃ hswapped _
          match reply with
          | .error failure => exact (hswapped.cleanedUp (fun _ => .nil) (by simp)).done
          | .ok (.revisionConflict current) => exact (hswapped.cleanedUp (fun _ => .nil) (by simp)).done
          | .ok .missing => exact (hswapped.cleanedUp (fun _ => .nil) (by simp)).done
          | .ok (.stored claimed) =>
            obtain ⟨rfl, hown₃⟩ := hswapped.stored claimed rfl
            obtain ⟨n, _, _, rfl⟩ := claim_ok hclaim
            exact recognizeClaimed_secured hown₃ hinv₃ rfl ⟨projection, hcall⟩ audio projection

end Voicetext.Gateway
