import Voicetext.Gateway.PortCalls

/-!
# Admission against everything the other calls may do

There are four ways out of an admission: a row found before anything is stored, the call's own
insert, a row found after a conflicting or failed insert, and the rollback. Each classifies the row
the same way, and each leaves the artifact the call created with a row that names it or removes it.
-/

namespace Voicetext.Gateway

open Voicetext.Common Voicetext.Speech.Domain Voicetext.Speech.Application Voicetext.Gateway.Storage

variable {ι : Type*} [DecidableEq ι] {config : GatewayConfig} {allowed : Environment ι}
  {calls : ι → GatewayCall} {w : GatewayWorld ι} {i : ι}

/-- A call which owes no removal: its finished jobs are clean, its artifacts are named by a row. -/
structure Settled (i : ι) (w : GatewayWorld ι) : Prop where
  terminal : ∀ row : BatchJobSnapshot, row.job.state.isTerminal = true →
    ¬OwesRemoval w.history i (.wrote i row) row.audio
  stored : ∀ id handle, OwesRemoval w.history i (.stored i id handle true) handle →
    ∃ row, Held w.history row ∧ row.id = id ∧ row.audio = handle

theorem Settled.stable {w' : GatewayWorld ι} (h : Settled i w) (hrely : Rely i w w') : Settled i w' := by
  constructor
  · intro row hterminal
    unfold OwesRemoval
    rw [hrely.own_eq]
    exact h.terminal row hterminal
  · intro id handle howes
    unfold OwesRemoval at howes
    rw [hrely.own_eq] at howes
    obtain ⟨row, hheld, hrow⟩ := h.stored id handle howes
    exact ⟨row, hheld.mono hrely.subset, hrow⟩

/-- A call without effects owes nothing. -/
theorem Settled.of_nil (hown : own i w.history = []) : Settled i w := by
  constructor
  · intro row _
    simp [OwesRemoval, hown]
  · intro id handle howes
    simp [OwesRemoval, hown] at howes

/-- What an admission has established when it returns. -/
structure AdmitPost (config : GatewayConfig) (allowed : Environment ι) (i : ι)
    (request : BatchAdmissionRequest) (result : Except BatchCoordinatorFailure BatchAdmissionOutcome)
    (w : GatewayWorld ι) : Prop where
  accepted : ∀ snapshot, result = .ok (.accepted snapshot) →
    (∃ row, .wrote i row ∈ w.history ∧ row.revision = 0 ∧ row.id = request.id ∧
      row.job.profile = request.profile ∧ row.job.fingerprint = request.fingerprint) ∧
    Held w.history snapshot ∧ snapshot.id = request.id
  replay : ∀ snapshot, result = .ok (.replay snapshot) →
    Held w.history snapshot ∧ snapshot.id = request.id ∧
      snapshot.job.profile = request.profile ∧ snapshot.job.fingerprint = request.fingerprint
  settled : Calm config allowed → Settled i w

variable {request : BatchAdmissionRequest}

/-- What an admission has established, the other calls cannot take back. -/
theorem AdmitPost.done {result : Except BatchCoordinatorFailure BatchAdmissionOutcome}
    (h : AdmitPost config allowed i request result w) :
    (gatewayProtocol config allowed calls).Secured i (AdmitPost config allowed i request)
      (.done result) w := by
  refine .done fun w' hrely _ => ?_
  have hrely' : Rely i w w' := hrely
  refine ⟨fun snapshot heq => ?_, fun snapshot heq => ?_, fun hcalm => (h.settled hcalm).stable hrely'⟩
  · obtain ⟨⟨row, hwrote, hrow⟩, hheld, hid⟩ := h.accepted snapshot heq
    exact ⟨⟨row, hrely'.subset hwrote, hrow⟩, hheld.mono hrely'.subset, hid⟩
  · exact (h.replay snapshot heq).imp_left fun hheld => hheld.mono hrely'.subset

/-- A failed admission owes at most its cleanup. -/
theorem AdmitPost.error {failure : BatchCoordinatorFailure} (h : Calm config allowed → Settled i w) :
    AdmitPost config allowed i request (.error failure) w :=
  ⟨by simp, by simp, h⟩

/-- Classifying a held row of the requested job. -/
theorem AdmitPost.classify {existing : BatchJobSnapshot} (hheld : Held w.history existing)
    (hid : existing.id = request.id) (h : Calm config allowed → Settled i w) :
    AdmitPost config allowed i request (classifyExisting existing request) w := by
  unfold classifyExisting
  split
  · rename_i hmatch
    refine ⟨by simp, fun snapshot heq => ?_, h⟩
    cases heq
    exact ⟨hheld, hid, hmatch⟩
  · exact .error h

/-- After an insert the call's effects are the store and whatever the insert did. -/
structure Raced (i : ι) (row : BatchJobSnapshot) (ownsAudio : Bool) (effect : GatewayEvent ι)
    (w : GatewayWorld ι) : Prop where
  own_eq : own i w.history = [effect, .stored i row.id row.audio ownsAudio]
  effect_eq : effect = .wrote i row ∨ effect = .declined i
  state : row.job.state = .accepted

variable {row : BatchJobSnapshot} {ownsAudio : Bool} {effect : GatewayEvent ι}

/-- The artifact of a raced admission needs no removal once a row names it. -/
theorem Raced.settled (h : Raced i row ownsAudio effect w)
    (hnamed : ownsAudio = true →
      ∃ existing, Held w.history existing ∧ existing.id = row.id ∧ existing.audio = row.audio) :
    Settled i w := by
  constructor
  · intro version hterminal
    unfold OwesRemoval
    rw [h.own_eq]
    rcases h.effect_eq with rfl | rfl
    · simp only [unanswered_cons, GatewayEvent.wrote.injEq, true_and]
      rintro (rfl | ⟨_, hrest⟩)
      · rw [h.state] at hterminal
        cases hterminal
      · simp at hrest
    · simp
  · intro id handle howes
    unfold OwesRemoval at howes
    rw [h.own_eq] at howes
    have hstored : id = row.id ∧ handle = row.audio ∧ ownsAudio = true := by
      rcases h.effect_eq with rfl | rfl
      · simp only [unanswered_cons, not_unanswered_nil] at howes
        simp at howes
        tauto
      · simp only [unanswered_cons, not_unanswered_nil] at howes
        simp at howes
        tauto
    obtain ⟨rfl, rfl, howns⟩ := hstored
    exact hnamed howns

/-- A raced admission has removed what it created. -/
theorem Raced.settled_of_removed {w' : GatewayWorld ι} (h : Raced i row ownsAudio effect w)
    (hown : own i w'.history = .removed i row.audio :: own i w.history) : Settled i w' := by
  constructor
  · intro version hterminal
    unfold OwesRemoval
    rw [hown, h.own_eq]
    rcases h.effect_eq with rfl | rfl
    · simp only [unanswered_cons, not_unanswered_nil]
      rintro (hhead | ⟨_, hhead | ⟨_, hhead | hnil⟩⟩)
      · cases hhead
      · cases hhead
        rw [h.state] at hterminal
        cases hterminal
      · cases hhead
      · exact hnil.2
    · simp
  · intro id handle howes
    unfold OwesRemoval at howes
    rw [hown, h.own_eq] at howes
    rcases h.effect_eq with rfl | rfl <;> simp at howes <;> tauto

/-- The store of a raced admission named its own job. -/
theorem Raced.names (h : Raced i row ownsAudio effect w) (hinv : Inv config allowed calls w) :
    NamesJob config.codec row.audio row.id :=
  hinv.justified.stored_names (mem_of_mem_own (by rw [h.own_eq]; simp) :
    .stored i row.id row.audio ownsAudio ∈ w.history)

/-- Losing a race removes a candidate the winning row does not name, and answers from that row. -/
theorem resolveRace_secured (h : Raced i row ownsAudio effect w) (hinv : Inv config allowed calls w)
    (hadmission : (calls i).isAdmission = true) (hid : row.id = request.id)
    {existing : BatchJobSnapshot} (hheld : Held w.history existing) (hexisting : existing.id = request.id) :
    (gatewayProtocol config allowed calls).Secured i (AdmitPost config allowed i request)
      ((coordinator config.codec).resolveRace existing request ownsAudio row.audio) w := by
  unfold BatchCoordinator.resolveRace
  split
  · refine secured_bind (remove_secured h.own_eq (h.names hinv) (.inl hadmission)) hinv ?_
    intro reply w₁ hinv₁ hown₁ hsub
    have hsettled : Calm config allowed → Settled i w₁ := fun hcalm =>
      h.settled_of_removed (by rw [h.own_eq]; exact hown₁.resolve_right fun hfault => hfault.2 hcalm)
    match reply with
    | .error failure => exact (AdmitPost.error hsettled).done
    | .ok outcome => exact (AdmitPost.classify (hheld.mono hsub) hexisting hsettled).done
  · rename_i hkept
    refine (AdmitPost.classify hheld hexisting fun _ => h.settled fun howns => ?_).done
    refine ⟨existing, hheld, hexisting.trans hid.symm, ?_⟩
    exact Eq.symm (by simpa [howns] using hkept)

/-- After a failed insert the artifact is named by a row, rolled back, or the ledger is failing. -/
theorem verifyInsert_secured (h : Raced i row ownsAudio effect w) (hinv : Inv config allowed calls w)
    (hadmission : (calls i).isAdmission = true) (hid : row.id = request.id)
    (hcanonical : config.codec.isCanonical request.id.asStr = true) (insert : BatchJobStoreFailure) :
    (gatewayProtocol config allowed calls).Secured i (AdmitPost config allowed i request)
      ((coordinator config.codec).verifyInsert request ownsAudio row.audio insert) w := by
  refine secured_bind (load_secured h.own_eq request.id) hinv ?_
  rintro loaded w₁ hinv₁ ⟨hown₁, hheld, hfailed⟩ -
  have h₁ : Raced i row ownsAudio effect w₁ := ⟨hown₁, h.effect_eq, h.state⟩
  match loaded with
  | .error verification =>
    exact (AdmitPost.error fun hcalm => absurd hcalm (hfailed verification rfl hcanonical)).done
  | .ok (some existing) =>
    obtain ⟨hexisting, hexistingId⟩ := hheld existing rfl
    exact resolveRace_secured h₁ hinv₁ hadmission hid hexisting hexistingId
  | .ok none =>
    dsimp only
    split
    · refine secured_bind (remove_secured h₁.own_eq (h₁.names hinv₁) (.inl hadmission)) hinv₁ ?_
      intro reply w₂ _ hown₂ _
      have hsettled : Calm config allowed → Settled i w₂ := fun hcalm =>
        h₁.settled_of_removed (by rw [hown₁]; exact hown₂.resolve_right fun hfault => hfault.2 hcalm)
      match reply with
      | .error failure => exact (AdmitPost.error hsettled).done
      | .ok outcome => exact (AdmitPost.error hsettled).done
    · rename_i hnot
      exact (AdmitPost.error fun _ => h₁.settled fun howns => absurd howns hnot).done

/-- An admission which owns, or found, its artifact inserts its row or resolves the race for it. -/
theorem insertStored_secured {handle : BatchAudioHandle}
    (hown : own i w.history = [.stored i request.id handle ownsAudio]) (hinv : Inv config allowed calls w)
    (hadmission : (calls i).isAdmission = true)
    (hcanonical : config.codec.isCanonical request.id.asStr = true) :
    (gatewayProtocol config allowed calls).Secured i (AdmitPost config allowed i request)
      ((coordinator config.codec).insertStored request ownsAudio handle) w := by
  refine secured_bind (insertInner_secured hown hinv request.profile request.fingerprint
    request.authoritativeDurationMillis request.keyterms) hinv ?_
  intro reply w₁ hinv₁ hinserted _
  have hstate : (initialRow request.id request.profile request.fingerprint handle
    request.authoritativeDurationMillis request.keyterms).job.state = .accepted := rfl
  match reply with
  | .ok (.inserted snapshot) =>
    obtain ⟨hown₁, hheld, hid⟩ := hinserted.inserted snapshot rfl
    have hraced := Raced.mk hown₁ (.inl rfl) hstate
    have hwrote := mem_of_mem_own (hown₁ ▸ List.mem_cons_self)
    refine AdmitPost.done ⟨fun accepted heq => ?_, by simp, fun _ =>
      hraced.settled fun _ => ⟨_, ⟨i, hwrote⟩, rfl, rfl⟩⟩
    cases heq
    exact ⟨⟨_, hwrote, rfl, rfl, rfl, rfl⟩, hheld, hid⟩
  | .ok (.existing existing) =>
    obtain ⟨hown₁, hheld, hid⟩ := hinserted.existing existing rfl
    exact resolveRace_secured (Raced.mk hown₁ (.inr rfl) hstate) hinv₁ hadmission rfl hheld hid
  | .error insert =>
    rcases hinserted.own_eq with hown₁ | hown₁
    · exact verifyInsert_secured (Raced.mk hown₁ (.inl rfl) hstate) hinv₁ hadmission rfl hcanonical insert
    · exact verifyInsert_secured (Raced.mk hown₁ (.inr rfl) hstate) hinv₁ hadmission rfl hcanonical insert

/-- An admission which has done nothing yet is secured against every interleaving. -/
theorem admit_secured (hown : own i w.history = []) (hinv : Inv config allowed calls w)
    (hadmission : (calls i).isAdmission = true) (request : BatchAdmissionRequest) :
    (gatewayProtocol config allowed calls).Secured i (AdmitPost config allowed i request)
      ((coordinator config.codec).admitBatch request) w := by
  refine secured_bind (load_secured hown request.id) hinv ?_
  rintro loaded w₁ hinv₁ ⟨hown₁, hheld, _⟩ -
  match loaded with
  | .error failure => exact (AdmitPost.error fun _ => .of_nil hown₁).done
  | .ok (some existing) =>
    obtain ⟨hexisting, hid⟩ := hheld existing rfl
    exact (AdmitPost.classify hexisting hid fun _ => .of_nil hown₁).done
  | .ok none =>
    refine secured_bind (store_secured hown₁ request.id request.audio) hinv₁ ?_
    intro reply w₂ hinv₂ hspooled _
    match reply with
    | .error failure => exact (AdmitPost.error fun _ => .of_nil hspooled).done
    | .ok (.stored handle) => exact insertStored_secured hspooled.1 hinv₂ hadmission hspooled.2
    | .ok (.existing handle) => exact insertStored_secured hspooled.1 hinv₂ hadmission hspooled.2

end Voicetext.Gateway
