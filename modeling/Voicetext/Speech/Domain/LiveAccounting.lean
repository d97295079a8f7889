import Mathlib.Data.List.Nodup
import Voicetext.Common.Machine
import Voicetext.Speech.Domain.Live

/-!
# Accounting of accepted, written and acknowledged audio

The history of a session says which sequences it handed out, which provider writes it confirmed and
which acknowledgements it recorded. The two sets of a session are determined by that account, and the
lifecycle leaves streaming for the finalize drain only when both are empty.
-/

namespace Voicetext.Speech.Domain

open Voicetext.Common

/-- A call with its result. -/
abbrev LiveSessionExchange := LiveSessionCall × Except LiveSessionError LiveSessionReply

/-- The sequences a history handed out, confirmed as written and acknowledged, in order. -/
structure LiveSessionAccount where
  handedOut : List RawAudioSequence
  confirmed : List RawAudioSequence
  acknowledged : List RawAudioSequence

namespace LiveSessionAccount

/-- Enter one exchange into an account. -/
def record (account : LiveSessionAccount) : LiveSessionExchange → LiveSessionAccount
  | (.acceptAudio, .ok (.sequence sequence)) =>
    { account with handedOut := account.handedOut ++ [sequence] }
  | (.markProviderWriteSucceeded sequence, .ok _) =>
    { account with confirmed := account.confirmed ++ [sequence] }
  | (.markAckSent sequence, .ok _) =>
    { account with acknowledged := account.acknowledged ++ [sequence] }
  | _ => account

/-- The account of a whole history. -/
def ofHistory (history : List LiveSessionExchange) : LiveSessionAccount :=
  history.foldl record ⟨[], [], []⟩

@[simp] theorem ofHistory_append (history : List LiveSessionExchange) (exchange : LiveSessionExchange) :
    ofHistory (history ++ [exchange]) = (ofHistory history).record exchange := by
  simp [ofHistory]

/-- An error enters nothing. -/
@[simp] theorem record_error (account : LiveSessionAccount) (call : LiveSessionCall)
    (error : LiveSessionError) : account.record (call, .error error) = account := by
  cases call <;> rfl

end LiveSessionAccount

namespace LiveSession

/-- What the account of a history says about the session it leads to. -/
structure Accounted (account : LiveSessionAccount) (session : LiveSession) : Prop where
  handedOut_eq : account.handedOut = (List.range' 1 session.lastSequence).map RawAudioSequence.mk
  mem_pending : ∀ sequence, sequence ∈ session.pendingAudio ↔
    sequence ∈ account.handedOut ∧ sequence ∉ account.acknowledged
  mem_written : ∀ sequence, sequence ∈ session.providerWrittenAudio ↔
    sequence ∈ account.confirmed ∧ sequence ∉ account.acknowledged
  confirmed_handedOut : ∀ sequence ∈ account.confirmed, sequence ∈ account.handedOut
  acknowledged_confirmed : ∀ sequence ∈ account.acknowledged, sequence ∈ account.confirmed
  acknowledged_nodup : account.acknowledged.Nodup
  pending_bounded : session.pendingAudio.card ≤ MAX_PENDING_AUDIO_SEQUENCES
  accepted_iff : session.acceptedAudio = true ↔ 0 < session.lastSequence
  drained : session.phase = .finalizing ∨ session.phase = .finalized → session.pendingAudio = ∅

theorem Accounted.initial : Accounted ⟨[], [], []⟩ new where
  handedOut_eq := rfl
  mem_pending := by simp [new]
  mem_written := by simp [new]
  confirmed_handedOut := by simp
  acknowledged_confirmed := by simp
  acknowledged_nodup := .nil
  pending_bounded := by simp [new]
  accepted_iff := by simp [new]
  drained := by simp [new]

variable {account : LiveSessionAccount} {session session' : LiveSession}

/-- A handed-out sequence is a positive number up to the last one. -/
theorem Accounted.mem_handedOut (h : Accounted account session) {sequence : RawAudioSequence} :
    sequence ∈ account.handedOut ↔ 1 ≤ sequence.get ∧ sequence.get ≤ session.lastSequence := by
  rw [h.handedOut_eq, List.mem_map]
  constructor
  · rintro ⟨n, hn, rfl⟩
    obtain ⟨hpos, hle⟩ := List.mem_range'_1.mp hn
    exact ⟨hpos, by dsimp only; omega⟩
  · rintro ⟨hpos, hle⟩
    exact ⟨sequence.get, List.mem_range'_1.mpr ⟨hpos, by omega⟩, rfl⟩

/-- The next sequence has not been handed out yet. -/
theorem Accounted.next_not_mem (h : Accounted account session) :
    (⟨session.lastSequence + 1⟩ : RawAudioSequence) ∉ account.handedOut := by
  rw [h.mem_handedOut]
  dsimp only
  omega

/-- A change of phase or evidence alone keeps the account. -/
theorem Accounted.rephase (h : Accounted account session) (phase : LiveSessionPhase) (observed : Bool)
    (hdrained : phase = .finalizing ∨ phase = .finalized → session.pendingAudio = ∅) :
    Accounted account { session with phase := phase, finalizeResultObserved := observed } where
  handedOut_eq := h.handedOut_eq
  mem_pending := h.mem_pending
  mem_written := h.mem_written
  confirmed_handedOut := h.confirmed_handedOut
  acknowledged_confirmed := h.acknowledged_confirmed
  acknowledged_nodup := h.acknowledged_nodup
  pending_bounded := h.pending_bounded
  accepted_iff := h.accepted_iff
  drained := hdrained

/-- Handing out the next sequence makes it pending. -/
theorem Accounted.accept (h : Accounted account session) (hphase : session.phase = .streaming)
    (hroom : session.pendingAudio.card ≠ MAX_PENDING_AUDIO_SEQUENCES) :
    Accounted { account with handedOut := account.handedOut ++ [⟨session.lastSequence + 1⟩] }
      { session with
        pendingAudio := insert ⟨session.lastSequence + 1⟩ session.pendingAudio
        lastSequence := session.lastSequence + 1
        acceptedAudio := true } where
  handedOut_eq := by
    rw [List.range'_concat, List.map_append, ← h.handedOut_eq]
    simp [add_comm]
  mem_pending := by
    have hfresh : (⟨session.lastSequence + 1⟩ : RawAudioSequence) ∉ account.acknowledged := fun hmem =>
      h.next_not_mem (h.confirmed_handedOut _ (h.acknowledged_confirmed _ hmem))
    intro sequence
    by_cases heq : sequence = ⟨session.lastSequence + 1⟩
    · simp [heq, hfresh]
    · simp [heq, h.mem_pending]
  mem_written := h.mem_written
  confirmed_handedOut := fun sequence hmem =>
    List.mem_append_left _ (h.confirmed_handedOut sequence hmem)
  acknowledged_confirmed := h.acknowledged_confirmed
  acknowledged_nodup := h.acknowledged_nodup
  pending_bounded := by
    have hbound := h.pending_bounded
    have hinsert := Finset.card_insert_le (⟨session.lastSequence + 1⟩ : RawAudioSequence)
      session.pendingAudio
    dsimp only
    omega
  accepted_iff := by simp
  drained := by simp [hphase]

/-- Confirming the provider write of a pending sequence makes it written. -/
theorem Accounted.confirm (h : Accounted account session) {sequence : RawAudioSequence}
    (hpending : sequence ∈ session.pendingAudio) :
    Accounted { account with confirmed := account.confirmed ++ [sequence] }
      { session with providerWrittenAudio := insert sequence session.providerWrittenAudio } where
  handedOut_eq := h.handedOut_eq
  mem_pending := h.mem_pending
  mem_written := by
    intro other
    by_cases heq : other = sequence
    · simp [heq, ((h.mem_pending sequence).mp hpending).2]
    · simp [heq, h.mem_written]
  confirmed_handedOut := by
    intro other hmem
    rcases List.mem_append.mp hmem with hmem | hmem
    · exact h.confirmed_handedOut other hmem
    · rw [List.mem_singleton.mp hmem]
      exact ((h.mem_pending sequence).mp hpending).1
  acknowledged_confirmed := fun other hmem =>
    List.mem_append_left _ (h.acknowledged_confirmed other hmem)
  acknowledged_nodup := h.acknowledged_nodup
  pending_bounded := h.pending_bounded
  accepted_iff := h.accepted_iff
  drained := h.drained

/-- Acknowledging a written sequence takes it out of both sets. -/
theorem Accounted.acknowledge (h : Accounted account session) {sequence : RawAudioSequence}
    (hwritten : sequence ∈ session.providerWrittenAudio) :
    Accounted { account with acknowledged := account.acknowledged ++ [sequence] }
      { session with
        providerWrittenAudio := session.providerWrittenAudio.erase sequence
        pendingAudio := session.pendingAudio.erase sequence } where
  handedOut_eq := h.handedOut_eq
  mem_pending := by
    intro other
    simp only [Finset.mem_erase, h.mem_pending, List.mem_append, List.mem_singleton]
    tauto
  mem_written := by
    intro other
    simp only [Finset.mem_erase, h.mem_written, List.mem_append, List.mem_singleton]
    tauto
  confirmed_handedOut := h.confirmed_handedOut
  acknowledged_confirmed := by
    intro other hmem
    rcases List.mem_append.mp hmem with hmem | hmem
    · exact h.acknowledged_confirmed other hmem
    · rw [List.mem_singleton.mp hmem]
      exact ((h.mem_written sequence).mp hwritten).1
  acknowledged_nodup := by
    have hnew := ((h.mem_written sequence).mp hwritten).2
    simpa [List.nodup_append] using ⟨h.acknowledged_nodup, fun other hmem heq => hnew (heq ▸ hmem)⟩
  pending_bounded := (Finset.card_erase_le).trans h.pending_bounded
  accepted_iff := h.accepted_iff
  drained := fun hphase => by simp [h.drained hphase]

/-- A successful call keeps the account. -/
theorem Accounted.advance (h : Accounted account session) {call : LiveSessionCall}
    {reply : LiveSessionReply} (hadvances : session.Advances call session' reply) :
    Accounted (account.record (call, .ok reply)) session' := by
  cases hadvances with
  | markReady hphase => exact h.rephase _ _ (by simp)
  | acceptAudio hphase hroom => exact h.accept hphase hroom
  | providerWrite hphase hpending hnew => exact h.confirm hpending
  | ackSent hphase hpending hwritten => exact h.acknowledge hwritten
  | beginFinalize hphase hdrained => exact h.rephase _ _ fun _ => hdrained
  | observeResult hphase => exact h.rephase _ _ h.drained
  | completeFinalize hphase hflushed hnone => exact h.rephase _ _ fun _ => h.drained (.inl hphase)
  | close hphase => exact h.rephase _ _ (by simp)
  | fail hphase => exact h.rephase _ _ (by simp)

/-- Every call keeps the account. -/
theorem Accounted.step (h : Accounted account session) (call : LiveSessionCall) :
    Accounted (account.record (call, (session.step call).2)) (session.step call).1 := by
  rcases session.step_cases call with ⟨error, heq⟩ | ⟨session', reply, heq, hadvances⟩
  · rw [heq, LiveSessionAccount.record_error]
    exact h
  · rw [heq]
    exact h.advance hadvances

/-- The account of a run is kept in its session. -/
theorem accounted_of_runs {history : List LiveSessionExchange}
    (hrun : Runs LiveSession.step new history session) :
    Accounted (.ofHistory history) session := by
  refine hrun.invariant (fun history session => Accounted (.ofHistory history) session)
    Accounted.initial fun history session call h => ?_
  rw [LiveSessionAccount.ofHistory_append]
  exact h.step call

/-- A session some account describes. -/
def Accountable (session : LiveSession) : Prop := ∃ account, Accounted account session

theorem Accountable.initial : Accountable new := ⟨_, .initial⟩

theorem Accountable.step (h : Accountable session) (call : LiveSessionCall) :
    Accountable (session.step call).1 := by
  obtain ⟨account, haccount⟩ := h
  exact ⟨_, haccount.step call⟩

/-- The write of a sequence just handed out is confirmed. -/
theorem Accountable.confirm_next (h : Accountable session) {sequence : RawAudioSequence}
    (haccept : session.acceptAudio = (session', .ok sequence)) :
    (session'.markProviderWriteSucceeded sequence).2 = .ok () := by
  obtain ⟨account, haccount⟩ := h
  rcases session.acceptAudio_cases with ⟨error, herror⟩ | ⟨_, hnext, hadvances⟩
  · cases herror.symm.trans haccept
  · obtain ⟨rfl, rfl⟩ : _ ∧ _ := by simpa using hnext.symm.trans haccept
    cases hadvances with
    | acceptAudio hphase hroom =>
      have hunwritten : (⟨session.lastSequence + 1⟩ : RawAudioSequence) ∉ session.providerWrittenAudio :=
        fun hmem => haccount.next_not_mem
          (haccount.confirmed_handedOut _ ((haccount.mem_written _).mp hmem).1)
      simp [markProviderWriteSucceeded, requirePhase, hphase, hunwritten]

/-- An acknowledgement is recorded only for a sequence the session holds as written. -/
theorem written_of_markAckSent_ok {sequence : RawAudioSequence} {reply : LiveSessionReply}
    (h : (session.step (.markAckSent sequence)).2 = .ok reply) :
    sequence ∈ session.providerWrittenAudio := by
  rcases session.step_cases (.markAckSent sequence) with ⟨error, heq⟩ | ⟨session', _, heq, hadvances⟩
  · rw [heq] at h
    cases h
  · cases hadvances
    assumption

/-- The rules a session keeps over every sequence of its operations. -/
structure AccountingKept (history : List LiveSessionExchange) (session : LiveSession) : Prop where
  written_subset : session.providerWrittenAudio ⊆ session.pendingAudio
  pending_range : ∀ sequence ∈ session.pendingAudio,
    1 ≤ sequence.get ∧ sequence.get ≤ session.lastSequence
  pending_bounded : session.pendingAudio.card ≤ 256
  /-- Sequences are handed out as 1, 2, 3, … -/
  handedOut_consecutive : (LiveSessionAccount.ofHistory history).handedOut =
    (List.range' 1 session.lastSequence).map RawAudioSequence.mk
  acknowledged_once : (LiveSessionAccount.ofHistory history).acknowledged.Nodup
  acknowledged_after_write : ∀ before after sequence reply,
    history = before ++ (.markAckSent sequence, .ok reply) :: after →
      sequence ∈ (LiveSessionAccount.ofHistory before).confirmed
  finalize_acknowledged : session.phase = .finalizing ∨ session.phase = .finalized →
    ∀ sequence ∈ (LiveSessionAccount.ofHistory history).handedOut,
      sequence ∈ (LiveSessionAccount.ofHistory history).acknowledged
  accepted_iff : session.acceptedAudio = true ↔ 0 < session.lastSequence
  absorbing : session.phase = .closed ∨ session.phase = .failed →
    ∀ call, (session.step call).1.phase = session.phase
  error_unchanged : ∀ call error, (session.step call).2 = .error error → (session.step call).1 = session

/-- Every sequence of operations on a new session keeps the accounting rules. -/
theorem accountingKept_of_runs {history : List LiveSessionExchange}
    (hrun : Runs LiveSession.step new history session) : AccountingKept history session := by
  have haccount := accounted_of_runs hrun
  refine ⟨?_, ?_, haccount.pending_bounded, haccount.handedOut_eq, haccount.acknowledged_nodup,
    ?_, ?_, haccount.accepted_iff, ?_, ?_⟩
  · intro sequence hwritten
    obtain ⟨hconfirmed, hopen⟩ := (haccount.mem_written sequence).mp hwritten
    exact (haccount.mem_pending sequence).mpr ⟨haccount.confirmed_handedOut _ hconfirmed, hopen⟩
  · intro sequence hpending
    exact haccount.mem_handedOut.mp ((haccount.mem_pending sequence).mp hpending).1
  · rintro before after sequence reply rfl
    obtain ⟨middle, hbefore, hreply⟩ := hrun.exchange
    have hwritten := written_of_markAckSent_ok hreply.symm
    exact (((accounted_of_runs hbefore).mem_written sequence).mp hwritten).1
  · intro hphase sequence hhanded
    by_contra hopen
    have hpending := (haccount.mem_pending sequence).mpr ⟨hhanded, hopen⟩
    simp [haccount.drained hphase] at hpending
  · intro hphase call
    rcases session.step_cases call with ⟨error, heq⟩ | ⟨session', reply, heq, hadvances⟩
    · rw [heq]
    · cases hadvances <;> simp_all
  · intro call error herror
    rcases session.step_cases call with ⟨_, heq⟩ | ⟨session', reply, heq, _⟩
    · rw [heq]
    · rw [heq] at herror
      cases herror

/-- Two frames acknowledged in the other order, then a drain without audio left. -/
theorem accountingKept_drained :
    AccountingKept
      (feed LiveSession.step new [.markReady, .acceptAudio, .acceptAudio,
        .markProviderWriteSucceeded ⟨2⟩, .markAckSent ⟨2⟩, .markProviderWriteSucceeded ⟨1⟩,
        .markAckSent ⟨1⟩, .beginFinalize]).1
      (feed LiveSession.step new [.markReady, .acceptAudio, .acceptAudio,
        .markProviderWriteSucceeded ⟨2⟩, .markAckSent ⟨2⟩, .markProviderWriteSucceeded ⟨1⟩,
        .markAckSent ⟨1⟩, .beginFinalize]).2 :=
  accountingKept_of_runs (runs_feed _ _ _)

end LiveSession

end Voicetext.Speech.Domain
