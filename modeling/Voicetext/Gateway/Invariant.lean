import Voicetext.Gateway.Calls
import Voicetext.Gateway.History

/-!
# The invariant of the shared world

The history is justified and the ledger is its latest version of every job. Two further parts hold
under conditions on the environment. Custody, when rollbacks never take an artifact somebody still
relies on: a live row has its audio. Cleanup, when nothing fails and no finished job's audio is
stored anew: every superfluous artifact has a call which is about to remove it.
-/

namespace Voicetext.Gateway

open Voicetext.Common Voicetext.Speech.Domain Voicetext.Speech.Application Voicetext.Gateway.Storage

variable {ι : Type*}

/-- An effect which no later effect of a certain kind has answered yet. -/
inductive Unanswered (since answer : GatewayEvent ι) : List (GatewayEvent ι) → Prop
  | newest {past : List (GatewayEvent ι)} : Unanswered since answer (since :: past)
  | older {event : GatewayEvent ι} {past : List (GatewayEvent ι)} (hevent : event ≠ answer)
      (hpast : Unanswered since answer past) : Unanswered since answer (event :: past)

@[simp] theorem not_unanswered_nil {since answer : GatewayEvent ι} : ¬Unanswered since answer [] := by
  rintro ⟨⟩

/-- Adding an effect answers the older ones, or is itself the unanswered one. -/
@[simp] theorem unanswered_cons {since answer event : GatewayEvent ι} {past : List (GatewayEvent ι)} :
    Unanswered since answer (event :: past) ↔
      event = since ∨ event ≠ answer ∧ Unanswered since answer past := by
  constructor
  · rintro (_ | ⟨hevent, hpast⟩)
    · exact .inl rfl
    · exact .inr ⟨hevent, hpast⟩
  · rintro (rfl | ⟨hevent, hpast⟩)
    · exact .newest
    · exact .older hevent hpast

/-- An unanswered effect has happened. -/
theorem Unanswered.mem {since answer : GatewayEvent ι} {past : List (GatewayEvent ι)}
    (h : Unanswered since answer past) : since ∈ past := by
  induction h with
  | newest => exact List.mem_cons_self
  | older _ _ ih => exact List.mem_cons_of_mem _ ih

variable [DecidableEq ι]

/-- The effects of one call, newest first. -/
def own (call : ι) (history : List (GatewayEvent ι)) : List (GatewayEvent ι) :=
  history.filter fun event => event.call = call

@[simp] theorem own_cons_self {call : ι} {event : GatewayEvent ι} (h : event.call = call)
    (past : List (GatewayEvent ι)) : own call (event :: past) = event :: own call past := by
  simp [own, h]

@[simp] theorem own_cons_of_ne {call : ι} {event : GatewayEvent ι} (h : event.call ≠ call)
    (past : List (GatewayEvent ι)) : own call (event :: past) = own call past := by
  simp [own, h]

theorem mem_of_mem_own {call : ι} {event : GatewayEvent ι} {history : List (GatewayEvent ι)}
    (h : event ∈ own call history) : event ∈ history := (List.mem_filter.mp h).1

/-- A call has stored or found the artifact and has not tried its insert yet. -/
def HoldsArtifact (history : List (GatewayEvent ι)) (call : ι) (id : BatchJobId)
    (handle : BatchAudioHandle) : Prop :=
  ∃ created, (own call history).head? = some (.stored call id handle created)

/-- The call did something it has not followed by removing this artifact. -/
def OwesRemoval (history : List (GatewayEvent ι)) (call : ι) (since : GatewayEvent ι)
    (handle : BatchAudioHandle) : Prop :=
  Unanswered since (.removed call handle) (own call history)

/-- No live row names the artifact, and no admission which holds it can still insert a fresh row. -/
def RollbackSafe (w : GatewayWorld ι) (handle : BatchAudioHandle) : Prop :=
  (∀ row ∈ w.ledger.rows, row.audio = handle → row.job.state.isTerminal = true) ∧
    ∀ call id, HoldsArtifact w.history call id handle → (w.ledger.lookup id.asStr).isSome = true

/-- Storing this audio does not recreate the artifact of a job which is already terminal. -/
def StoreTimely (config : GatewayConfig) (w : GatewayWorld ι) (id : BatchJobId) (audio : List UInt8) :
    Prop :=
  ∀ row, w.ledger.lookup id.asStr = some row → row.job.state.isTerminal = true →
    row.audio = config.handle id audio → w.spool.holds row.audio = true

/-- Admissions remove an artifact only when nobody relies on it. -/
def CleanRollbacks (allowed : Environment ι) (calls : ι → GatewayCall) : Prop :=
  ∀ call w handle choice, (calls call).isAdmission = true →
    allowed call w (.removeAudio handle) choice → RollbackSafe w handle

/-- Nothing fails, and no admission recreates the artifact of a terminal job. -/
structure Calm (config : GatewayConfig) (allowed : Environment ι) : Prop where
  faultless : ∀ call w op choice, allowed call w op choice → choice.isFault = false
  timely : ∀ call w id audio choice, allowed call w (.storeAudio id audio) choice →
    StoreTimely config w id audio

/-- Audio is in custody while it is needed. -/
structure Custody (w : GatewayWorld ι) : Prop where
  live : ∀ id row, latest id w.history = some row → row.job.state.isTerminal = false →
    w.spool.holds row.audio = true
  pending : ∀ call id handle, HoldsArtifact w.history call id handle →
    w.spool.holds handle = true ∨ (latest id w.history).isSome = true

/-- Audio which is no longer needed has a call that is about to remove it. -/
structure Cleanup (codec : UuidCodec) (w : GatewayWorld ι) : Prop where
  terminal : ∀ id row, latest id w.history = some row → row.job.state.isTerminal = true →
    w.spool.holds row.audio = true → ∃ call, OwesRemoval w.history call (.wrote call row) row.audio
  orphan : ∀ id handle, NamesJob codec handle id → w.spool.holds handle = true →
    (∀ row, latest id w.history = some row → row.audio ≠ handle) →
    ∃ call, OwesRemoval w.history call (.stored call id handle true) handle

/-- A provider call belongs to an execution of the claimed job, and asks for what the claim says. -/
structure Buys (calls : ι → GatewayCall) (call : ι) (claimed : BatchJobSnapshot)
    (request : BatchRecognitionRequest) : Prop where
  executes : ∃ projection, calls call = .execute claimed.id projection
  profile : request.profile = claimed.job.profile
  duration : request.authoritativeDurationMillis = claimed.authoritativeDurationMillis
  keyterms : request.keyterms = claimed.keyterms

/-- What holds of the shared world at every step. -/
structure Inv (config : GatewayConfig) (allowed : Environment ι) (calls : ι → GatewayCall)
    (w : GatewayWorld ι) : Prop where
  justified : Justified config.codec w.history
  agrees : ∀ id, w.ledger.lookup id.asStr = latest id w.history
  bought : ∀ author claimed request outcome,
    .recognized author (some claimed) request outcome ∈ w.history → Buys calls author claimed request
  custody : CleanRollbacks allowed calls → Custody w
  cleanup : Calm config allowed → Cleanup config.codec w

section Events

variable {call : ι} {event : GatewayEvent ι} {past : List (GatewayEvent ι)} {id : BatchJobId}
  {handle : BatchAudioHandle}

/-- Only a store makes a call hold an artifact; any other effect of the call ends it. -/
theorem HoldsArtifact.of_cons (h : HoldsArtifact (event :: past) call id handle)
    (hevent : ∀ created, event ≠ .stored call id handle created) : HoldsArtifact past call id handle := by
  obtain ⟨created, hhead⟩ := h
  by_cases hcall : event.call = call
  · rw [own_cons_self hcall] at hhead
    exact absurd (Option.some.inj hhead) (hevent created)
  · rw [own_cons_of_ne hcall] at hhead
    exact ⟨created, hhead⟩

/-- A held artifact was reported for the job it is held for. -/
theorem HoldsArtifact.mem (h : HoldsArtifact past call id handle) :
    ∃ created, GatewayEvent.stored call id handle created ∈ past := by
  obtain ⟨created, hhead⟩ := h
  exact ⟨created, mem_of_mem_own (List.mem_of_head? hhead)⟩

/-- A removal stays owed until the call's own removal of that artifact. -/
theorem OwesRemoval.cons {since : GatewayEvent ι} (h : OwesRemoval past call since handle)
    (hevent : event ≠ .removed call handle) : OwesRemoval (event :: past) call since handle := by
  unfold OwesRemoval
  by_cases hcall : event.call = call
  · rw [own_cons_self hcall]
    exact .older hevent h
  · rwa [own_cons_of_ne hcall]

/-- The newest effect of a call is owed its removal at once. -/
theorem OwesRemoval.head (hcall : event.call = call) : OwesRemoval (event :: past) call event handle := by
  unfold OwesRemoval
  rw [own_cons_self hcall]
  exact .newest

end Events

end Voicetext.Gateway
