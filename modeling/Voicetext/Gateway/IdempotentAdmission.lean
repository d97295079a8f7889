import Voicetext.Gateway.Runs

/-!
# Idempotent admission under races

One row answers every admission of a job. Whoever inserted it is the only caller told so, every
other caller with the same profile and fingerprint replays it, and no call ever changes the columns
the answer depends on.
-/

namespace Voicetext.Gateway

open Voicetext.Common Voicetext.Speech.Domain Voicetext.Speech.Application Voicetext.Gateway.Storage

variable {ι : Type*} [DecidableEq ι] {config : GatewayConfig} {allowed : Environment ι}
  {calls : ι → GatewayCall} {s s' : GatewayState ι} {i j : ι}

/-- The answer a finished admission of a job was given. -/
def Answered (calls : ι → GatewayCall) (s : GatewayState ι) (i : ι) (request : BatchAdmissionRequest)
    (answer : Except BatchCoordinatorFailure BatchAdmissionOutcome) : Prop :=
  calls i = .admitBatch request ∧ s.pool i = .done (some (.admission answer))

/-- The row agrees with the profile and fingerprint of a request. -/
def AgreesWith (row : BatchJobSnapshot) (request : BatchAdmissionRequest) : Prop :=
  row.job.profile = request.profile ∧ row.job.fingerprint = request.fingerprint

/-- What the admissions of one job have been told. -/
structure IdempotentAdmission (calls : ι → GatewayCall) (id : BatchJobId) (s : GatewayState ι) : Prop where
  /-- At most one call was accepted. -/
  acceptedOnce : ∀ i j request request' snapshot snapshot', request.id = id → request'.id = id →
    Answered calls s i request (.ok (.accepted snapshot)) →
    Answered calls s j request' (.ok (.accepted snapshot')) → i = j
  /-- An accepted call is told the stored job, which is the one it asked for. -/
  accepted : ∀ i request snapshot, request.id = id →
    Answered calls s i request (.ok (.accepted snapshot)) →
    ∃ row, s.world.ledger.lookup id.asStr = some row ∧ SameJob snapshot row ∧ AgreesWith row request
  /-- A replaying call is told the stored job, which is the one it asked for. -/
  replayed : ∀ i request snapshot, request.id = id →
    Answered calls s i request (.ok (.replay snapshot)) →
    ∃ row, s.world.ledger.lookup id.asStr = some row ∧ SameJob snapshot row ∧ AgreesWith row request
  /-- A call which disagrees with the stored row fails. -/
  refused : ∀ i request answer row, request.id = id → s.world.ledger.lookup id.asStr = some row →
    ¬AgreesWith row request → Answered calls s i request answer → ∃ failure, answer = .error failure

/-- A finished admission has established its postcondition. -/
theorem Answered.post {request : BatchAdmissionRequest}
    {answer : Except BatchCoordinatorFailure BatchAdmissionOutcome}
    (h : Answered calls s i request answer) (hreach : Reachable config allowed calls s) :
    AdmitPost config allowed i request answer s.world := by
  obtain ⟨hcall, hdone⟩ := h
  obtain ⟨answer', heq, hpost⟩ := (hreach.returned hdone).admission request hcall
  cases heq
  exact hpost

/-- A version once held shows which job the ledger still stores. -/
theorem Inv.stored_of_held {w : GatewayWorld ι} (h : Inv config allowed calls w)
    {version : BatchJobSnapshot} (hheld : Held w.history version) :
    ∃ row, w.ledger.lookup version.id.asStr = some row ∧ SameJob version row := by
  obtain ⟨row, hrow, hprecedes⟩ := h.justified.precedes hheld
  exact ⟨row, (h.agrees version.id).trans hrow, hprecedes.sameJob⟩

/-- Along a run the stored row of a job keeps the columns of its admission. -/
theorem Reachable.stored_sameJob (hreach : Reachable config allowed calls s)
    (hrun : PoolReaches (gatewayService config allowed) s s') {id : BatchJobId} {row : BatchJobSnapshot}
    (hrow : s.world.ledger.lookup id.asStr = some row) :
    ∃ row', s'.world.ledger.lookup id.asStr = some row' ∧ SameJob row row' := by
  rw [hreach.inv.agrees] at hrow
  obtain ⟨hheld, rfl⟩ := held_of_latest hrow
  obtain ⟨newer, hnewer⟩ := history_grows hrun
  have hheld' : Held s'.world.history row := hheld.mono (hnewer ▸ List.subset_append_right _ _)
  exact (hreach.later hrun).inv.stored_of_held hheld'

/-- The caller whose insert took effect asked for the job which is stored. -/
theorem AdmitPost.accepted_agrees {w : GatewayWorld ι} {request : BatchAdmissionRequest}
    {snapshot : BatchJobSnapshot} (h : AdmitPost config allowed i request (.ok (.accepted snapshot)) w)
    (hinv : Inv config allowed calls w) :
    ∃ row, w.ledger.lookup request.id.asStr = some row ∧ SameJob snapshot row ∧ AgreesWith row request := by
  obtain ⟨⟨inserted, hwrote, _, hid, hprofile, hfingerprint⟩, hheld, hsnapshot⟩ := h.accepted snapshot rfl
  obtain ⟨row, hrow, hsame⟩ := hinv.stored_of_held hheld
  obtain ⟨row', hrow', hsame'⟩ := hinv.stored_of_held ⟨i, hwrote⟩
  rw [hsnapshot] at hrow
  rw [hid, hrow] at hrow'
  obtain rfl := Option.some.inj hrow'
  exact ⟨row, hrow, hsame, hsame'.profile.trans hprofile, hsame'.fingerprint.trans hfingerprint⟩

/-- A replaying caller asked for the job which is stored. -/
theorem AdmitPost.replay_agrees {w : GatewayWorld ι} {request : BatchAdmissionRequest}
    {snapshot : BatchJobSnapshot} (h : AdmitPost config allowed i request (.ok (.replay snapshot)) w)
    (hinv : Inv config allowed calls w) :
    ∃ row, w.ledger.lookup request.id.asStr = some row ∧ SameJob snapshot row ∧ AgreesWith row request := by
  obtain ⟨hheld, hid, hprofile, hfingerprint⟩ := h.replay snapshot rfl
  obtain ⟨row, hrow, hsame⟩ := hinv.stored_of_held hheld
  rw [hid] at hrow
  exact ⟨row, hrow, hsame, hsame.profile.trans hprofile, hsame.fingerprint.trans hfingerprint⟩

/-- In every interleaving, whatever replies are lost, admissions of one job agree on its one row. -/
theorem Reachable.idempotentAdmission (hreach : Reachable config unrestricted calls s) (id : BatchJobId) :
    IdempotentAdmission calls id s ∧
      ∀ s' row, PoolReaches (gatewayService config unrestricted) s s' →
        s.world.ledger.lookup id.asStr = some row →
        ∃ row', s'.world.ledger.lookup id.asStr = some row' ∧ SameJob row row' := by
  have hinv := hreach.inv
  refine ⟨?_, fun s' row hrun hrow => hreach.stored_sameJob hrun hrow⟩
  constructor
  case acceptedOnce =>
    intro i j request request' snapshot snapshot' hid hid' h h'
    obtain ⟨⟨row, hwrote, hrevision, hrow, _⟩, _⟩ := (h.post hreach).accepted snapshot rfl
    obtain ⟨⟨row', hwrote', hrevision', hrow', _⟩, _⟩ := (h'.post hreach).accepted snapshot' rfl
    -- only one call writes the first revision of a row
    have hsame : row.id = row'.id := by rw [hrow, hrow', hid, hid']
    exact (hinv.justified.wrote_unique hwrote hwrote' hsame (hrevision.trans hrevision'.symm)).1
  case accepted =>
    rintro i request snapshot rfl h
    exact (h.post hreach).accepted_agrees hinv
  case replayed =>
    rintro i request snapshot rfl h
    exact (h.post hreach).replay_agrees hinv
  case refused =>
    rintro i request answer row rfl hrow hnot h
    have hpost := h.post hreach
    match answer with
    | .error failure => exact ⟨failure, rfl⟩
    | .ok (.accepted snapshot) =>
      obtain ⟨row', hrow', _, hagrees⟩ := hpost.accepted_agrees hinv
      rw [hrow] at hrow'
      obtain rfl := Option.some.inj hrow'
      exact absurd hagrees hnot
    | .ok (.replay snapshot) =>
      obtain ⟨row', hrow', _, hagrees⟩ := hpost.replay_agrees hinv
      rw [hrow] at hrow'
      obtain rfl := Option.some.inj hrow'
      exact absurd hagrees hnot

/-- Two equal admissions of the sample job and one with another fingerprint. -/
def racingCalls : Fin 3 → GatewayCall
  | 0 | 1 => .admitBatch sampleRequest
  | 2 => .admitBatch { sampleRequest with fingerprint := ⟨List.replicate 32 1, rfl⟩ }

/-- Whether a call returned an answer of the given kind. -/
def answers (s : GatewayState (Fin 3)) (i : Fin 3)
    (kind : Except BatchCoordinatorFailure BatchAdmissionOutcome → Bool) : Bool :=
  match s.pool i with
  | .done (some (.admission answer)) => kind answer
  | _ => false

/-- All three see no row, and the first insert commits although its reply is lost: two callers then
replay the row and the third is refused. -/
theorem idempotentAdmission_racing :
    ∃ s : GatewayState (Fin 3), Reachable sampleGateway unrestricted racingCalls s ∧
      (answers s 0 (fun answer => answer matches .ok (.replay _)) = true ∧
        answers s 1 (fun answer => answer matches .ok (.replay _)) = true ∧
        answers s 2 (fun answer => answer matches .error (.admissionConflict _)) = true) ∧
      IdempotentAdmission racingCalls sampleId s := by
  obtain ⟨s, hreach, hobserved⟩ := exists_reachable_of_schedule sampleGateway unrestricted
    racingCalls (fun _ _ _ _ => true)
    [(0, .served), (1, .served), (2, .served), (0, .served), (1, .served), (2, .served),
      (0, .ledgerFails (.unavailable "DATABASE") true), (1, .served), (2, .served),
      (0, .served), (1, .served), (2, .served)]
    (fun s => answers s 0 (fun answer => answer matches .ok (.replay _)) &&
      answers s 1 (fun answer => answer matches .ok (.replay _)) &&
      answers s 2 (fun answer => answer matches .error (.admissionConflict _)))
    (fun _ _ _ _ _ => trivial) (by decide +kernel)
  simp only [Bool.and_eq_true] at hobserved
  exact ⟨s, hreach, ⟨hobserved.1.1, hobserved.1.2, hobserved.2⟩, (hreach.idempotentAdmission sampleId).1⟩

end Voicetext.Gateway
