import Voicetext.Gateway.Runs
import Voicetext.Gateway.SubmissionFence

/-!
# The fence around paid submissions

Whatever calls run concurrently, however the ledger fails and whoever is cut off, every provider
call stands behind the durable claim of its own execution, and the next one behind the retryable
row which the previous one wrote from its own known-not-accepted outcome.
-/

namespace Voicetext.Gateway

open Voicetext.Common Voicetext.Speech.Domain Voicetext.Speech.Application Voicetext.Gateway.Storage

variable {ι : Type*} [DecidableEq ι] {config : GatewayConfig} {allowed : Environment ι}
  {calls : ι → GatewayCall} {s : GatewayState ι}

/-- The provider calls of one job, told apart by the claims they were made for. -/
structure SubmissionFence (calls : ι → GatewayCall) (id : BatchJobId) (w : GatewayWorld ι) : Prop where
  /-- The ledger holds the row which was durably written last. -/
  durable : w.ledger.lookup id.asStr = latest id w.history
  /-- A provider call is an execution's, after the execution durably wrote its own claim. -/
  claimed : ∀ newer older c claim request outcome,
    w.history = newer ++ .recognized c claim request outcome :: older →
    ∃ row n, claim = some row ∧ row.job.state = .submitting n ∧ .wrote c row ∈ older ∧
      Buys calls c row request
  /-- Of two provider calls the later one has the greater attempt number. -/
  increasing : ∀ newer between older c d s₁ s₂ r₁ r₂ o₁ o₂,
    w.history = newer ++ .recognized d (some s₂) r₂ o₂ ::
      (between ++ .recognized c (some s₁) r₁ o₁ :: older) →
    s₁.id = id → s₂.id = id → s₁.job.state.attempts < s₂.job.state.attempts
  /-- With no provider call in between, the later one is the very next attempt. -/
  consecutive : ∀ newer between older c d s₁ s₂ r₁ r₂ o₁ o₂,
    w.history = newer ++ .recognized d (some s₂) r₂ o₂ ::
      (between ++ .recognized c (some s₁) r₁ o₁ :: older) →
    s₁.id = id → s₂.id = id → (∀ e row r o, .recognized e (some row) r o ∈ between → row.id ≠ id) →
    s₂.job.state.attempts = s₁.job.state.attempts + 1
  /-- In between, the earlier call wrote a retryable row of its attempt from its own outcome. -/
  licensed : ∀ newer between older c d s₁ s₂ r₁ r₂ o₁ o₂,
    w.history = newer ++ .recognized d (some s₂) r₂ o₂ ::
      (between ++ .recognized c (some s₁) r₁ o₁ :: older) →
    s₁.id = id → s₂.id = id →
    (∃ code reference delay, o₁ = .error (.knownNotAccepted true code reference delay)) ∧
      ∃ row n failure, .wrote c row ∈ between ∧ row.id = id ∧ row.job.state = .retryable n failure ∧
        n.get = s₁.job.state.attempts
  /-- An outcome which is not retryable, or was not recorded so, is never followed by another call. -/
  final : ∀ newer older c s₁ r₁ o₁,
    w.history = newer ++ .recognized c (some s₁) r₁ o₁ :: older → s₁.id = id →
    ((∀ code reference delay, o₁ ≠ .error (.knownNotAccepted true code reference delay)) ∨
      ∀ row n failure, .wrote c row ∈ newer → row.job.state ≠ .retryable n failure) →
    ∀ d s₂ r₂ o₂, .recognized d (some s₂) r₂ o₂ ∈ newer → s₂.id ≠ id
  /-- After a terminal row no greater attempt is ever submitted. -/
  terminal : ∀ row, Held w.history row → row.id = id → row.job.state.isTerminal = true →
    ∀ d s₂ r₂ o₂, .recognized d (some s₂) r₂ o₂ ∈ w.history → s₂.id = id →
      s₂.job.state.attempts ≤ row.job.state.attempts

/-- Every reachable world keeps the fence around every job. -/
theorem Reachable.submissionFence (hreach : Reachable config unrestricted calls s) (id : BatchJobId) :
    SubmissionFence calls id s.world := by
  have hinv := hreach.inv
  have hjust := hinv.justified
  have hfence {newer between older : List (GatewayEvent ι)} {c d s₁ s₂ r₁ r₂ o₁ o₂}
      (hhistory : s.world.history = newer ++ .recognized d (some s₂) r₂ o₂ ::
        (between ++ .recognized c (some s₁) r₁ o₁ :: older)) :
      Justified config.codec
        (.recognized d (some s₂) r₂ o₂ :: (between ++ .recognized c (some s₁) r₁ o₁ :: older)) :=
    Justified.suffix newer (hhistory ▸ hjust)
  constructor
  case durable => exact hinv.agrees id
  case claimed =>
    intro newer older c claim request outcome hhistory
    have holder : Justified config.codec (.recognized c claim request outcome :: older) :=
      Justified.suffix newer (hhistory ▸ hjust)
    obtain ⟨_, ⟨row, n, rfl, hstate, hwrote⟩, _⟩ := holder
    refine ⟨row, n, rfl, hstate, hwrote, hinv.bought c row request outcome ?_⟩
    rw [hhistory]
    simp
  case increasing =>
    intro newer between older c d s₁ s₂ r₁ r₂ o₁ o₂ hhistory h₁ h₂
    obtain ⟨n, m, hn, hm, hlt, _⟩ := (hfence hhistory).recognized_fence (h₁.trans h₂.symm)
    rw [hn, hm]
    exact hlt
  case consecutive =>
    intro newer between older c d s₁ s₂ r₁ r₂ o₁ o₂ hhistory h₁ h₂ hnone
    obtain ⟨n, m, hn, hm, _⟩ := (hfence hhistory).recognized_fence (h₁.trans h₂.symm)
    rw [hn, hm]
    refine (hfence hhistory).recognized_consecutive (h₁.trans h₂.symm) hn hm fun e row r o hmem => ?_
    rw [h₁]
    exact hnone e row r o hmem
  case licensed =>
    intro newer between older c d s₁ s₂ r₁ r₂ o₁ o₂ hhistory h₁ h₂
    obtain ⟨n, m, hn, _, _, ⟨row, failure, hrow, hrowId, hstate⟩, hretryable⟩ :=
      (hfence hhistory).recognized_fence (h₁.trans h₂.symm)
    refine ⟨hretryable, row, n, failure, hrow, hrowId.trans h₁, hstate, ?_⟩
    rw [hn]
    rfl
  case final =>
    intro newer older c s₁ r₁ o₁ hhistory h₁ hfinal d s₂ r₂ o₂ hmem h₂
    obtain ⟨newest, between, rfl⟩ := List.append_of_mem hmem
    have hsplit : s.world.history = newest ++ .recognized d (some s₂) r₂ o₂ ::
        (between ++ .recognized c (some s₁) r₁ o₁ :: older) := by simpa using hhistory
    obtain ⟨n, _, _, _, _, ⟨row, failure, hrow, _, hstate⟩, code, reference, delay, houtcome⟩ :=
      (hfence hsplit).recognized_fence (h₁.trans h₂.symm)
    rcases hfinal with hnot | hnot
    · exact hnot code reference delay houtcome
    · exact hnot row n failure (by simp [hrow]) hstate
  case terminal =>
    intro row hheld hrow hterminal d s₂ r₂ o₂ hmem h₂
    exact hjust.attempts_le_terminal hheld hterminal (h₂.trans hrow.symm) hmem

/-- One admission of the sample job and two executions of it. -/
def retriedCalls : Fin 3 → GatewayCall
  | 0 => .admitBatch sampleRequest
  | 1 | 2 => .execute sampleId sampleProjection

/-- A retried job reaches the provider twice, both times behind the fence; the provider refuses the
first attempt, and the reply to recording that is lost. -/
theorem submissionFence_retried :
    ∃ s : GatewayState (Fin 3), Reachable sampleGateway unrestricted retriedCalls s ∧
      (s.world.history.filter fun event => event matches .recognized _ _ _ _).length = 2 ∧
      SubmissionFence retriedCalls sampleId s.world := by
  obtain ⟨s, hreach, hobserved⟩ := exists_reachable_of_schedule sampleGateway unrestricted
    retriedCalls (fun _ _ _ _ => true)
    [(0, .served), (0, .served), (0, .served), (0, .served), (1, .served), (1, .served), (1, .served),
      (1, .answers (.error (.knownNotAccepted true "PROVIDER_BUSY" none none))),
      (1, .ledgerFails (.unavailable "DATABASE") true),
      (2, .served), (2, .served), (2, .served), (2, .answers sampleFailure), (2, .served), (2, .served)]
    (fun s => (s.world.history.filter fun event => event matches .recognized _ _ _ _).length = 2)
    (fun _ _ _ _ _ => trivial) (by decide +kernel)
  exact ⟨s, hreach, by simpa using hobserved, hreach.submissionFence sampleId⟩

end Voicetext.Gateway
