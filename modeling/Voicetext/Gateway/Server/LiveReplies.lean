import Voicetext.Gateway.Server.LiveWorld
import Voicetext.Speech.Domain.LiveAccounting

/-!
# What the operations of a live session may reply

Between two operations the phase of the protocol, the state of the coordinator and the write in progress
determine each other. Each operation is inverted once, from the point it is called at: what it replies, and the
point it leads to. Whatever goes wrong leaves the session in a phase in which it may still fail and be closed.
-/

namespace Voicetext.Gateway.Server.LiveTransport

open Voicetext.Common Voicetext.Speech.Application Voicetext.Gateway.Contracts
open Voicetext.Speech.Domain (LiveSession RawAudioSequence FinalizeOutcome)

section Points

/-- The state of a coordinator which holds no frame. -/
def quietSession (acked : ℕ) : LiveSession := ⟨.streaming, ∅, ∅, acked, acked ≠ 0, false⟩

/-- The state of a coordinator which holds the next frame, and whether the provider has taken it. -/
def pendingSession (acked : ℕ) (written : Bool) : LiveSession :=
  ⟨.streaming, {⟨acked + 1⟩}, if written then {⟨acked + 1⟩} else ∅, acked + 1, true, false⟩

/-- The state of a coordinator which drains its provider. -/
def drainingSession (acked : ℕ) (seen : Bool) : LiveSession := ⟨.finalizing, ∅, ∅, acked, acked ≠ 0, seen⟩

variable {ids : SessionIds}

/-- The protocol accepts what a session has done. -/
def Conforms (world : LiveWorld ids) : Prop := ∃ phase, LivePhase.Of world.log phase

/-- A session which has been told ready and has not ended. -/
def Alive (world : LiveWorld ids) : Prop := ∃ phase : LivePhase, phase.Live ∧ phase.Of world.log

/-- A session which may be closed, as one that has or has not earned a normal closure. -/
def MayClose (earned : Bool) (world : LiveWorld ids) : Prop :=
  ∃ phase after : LivePhase, phase.Of world.log ∧ phase.Moves (.closed earned : LiveEvent ids) after

/-- A session between two operations, with no write in progress. -/
structure LiveWorld.At (phase : LivePhase) (session : LiveSession) (world : LiveWorld ids) : Prop where
  accepted : phase.Of world.log
  session_eq : ∃ timeline, world.coordinator = some ⟨session, timeline⟩
  idle : world.writing = none

/-- Every accepted frame has been acknowledged. -/
abbrev Quiet (acked : ℕ) : LiveWorld ids → Prop := LiveWorld.At (.streaming acked acked acked) (quietSession acked)

/-- The next frame has been handed to the provider, which has not answered. -/
structure Started (acked : ℕ) (world : LiveWorld ids) : Prop where
  accepted : (LivePhase.streaming (acked + 1) acked acked).Of world.log
  session_eq : ∃ timeline, world.coordinator = some ⟨pendingSession acked false, timeline⟩
  writing_eq : ∃ pending pcm, world.writing = some (pending, ⟨⟨acked + 1⟩, pcm⟩)
  bounded : acked + 1 ≤ U64.MAX

/-- The next frame is being written, if its write was polled. -/
def Writing (acked : ℕ) (world : LiveWorld ids) : Prop := Quiet acked world ∨ Started acked world

/-- The drain has begun, and a result may have been seen. -/
abbrev Draining (acked : ℕ) (seen : Bool) : LiveWorld ids → Prop :=
  LiveWorld.At (.draining acked seen) (drainingSession acked seen)

/-- The main loop between two rounds, with its note of whether audio has been accepted. -/
def Settled (acceptedAudio : Bool) (world : LiveWorld ids) : Prop :=
  ∃ acked, Quiet acked world ∧ acceptedAudio = decide (acked ≠ 0)

variable {world : LiveWorld ids} {phase after : LivePhase} {session : LiveSession} {acked : ℕ} {seen : Bool}

theorem Alive.conforms (h : Alive world) : Conforms world := h.imp fun _ => And.right

theorem MayClose.conforms {earned : Bool} (h : MayClose earned world) : Conforms world :=
  let ⟨phase, _, hphase, _⟩ := h
  ⟨phase, hphase⟩

theorem LiveWorld.At.conforms (h : world.At phase session) : Conforms world := ⟨phase, h.accepted⟩

theorem LiveWorld.At.alive (h : world.At phase session) (hlive : phase.Live) : Alive world := ⟨phase, hlive, h.accepted⟩

theorem Quiet.alive (h : Quiet acked world) : Alive world := LiveWorld.At.alive h .streaming

theorem Started.alive (h : Started acked world) : Alive world := ⟨_, .streaming, h.accepted⟩

theorem Writing.alive (h : Writing acked world) : Alive world := h.elim Quiet.alive Started.alive

theorem Settled.alive {acceptedAudio : Bool} (h : Settled acceptedAudio world) : Alive world :=
  let ⟨_, hquiet, _⟩ := h
  hquiet.alive

/-- A session which goes on may be closed abnormally. -/
theorem Alive.mayClose (h : Alive world) : MayClose false world :=
  let ⟨phase, hlive, hphase⟩ := h
  ⟨phase, .closed, hphase, .abandons (.inl hlive)⟩

/-- What a session records next is accepted when the protocol takes it. -/
theorem of_record (h : phase.Of world.log) {event : LiveEvent ids} (hmove : phase.Moves event after) :
    after.Of (world.record event).log := h.snoc hmove

end Points

section Operations

variable {ids : SessionIds} {world world' : LiveWorld ids}

/-- Operations which leave the session as it is. -/
def LiveOp.silent : LiveOp ids → Bool
  | recvConfig | newSessionId | race | decode _ | pendingAudioCount | raceDrain _ | deadlinePassed | observe _ => true
  | _ => false

theorem eq_of_silent {op : LiveOp ids} {reply : op.Reply} (h : Serves world op world' reply) (hsilent : op.silent = true) :
    world' = world := by
  obtain ⟨choice, h⟩ := h
  cases op <;> cases hsilent <;> cases choice <;>
    simp only [LiveWorld.serve, Option.some.injEq, Prod.mk.injEq, reduceCtorEq, Option.map_eq_some_iff] at h <;>
    first | exact h.1.symm | (obtain ⟨_, _, h, _⟩ := h; exact h.symm)

theorem serves_sendText {message : OutboundServerMessage ids} {json : String} {reply : Bool}
    (h : Serves world (.sendText message json) world' reply) :
    reply = true ∧ world' = world.record (.sent message json) ∨ reply = false ∧ world' = world := by
  obtain ⟨choice, h⟩ := h
  cases choice with
  | taken sent =>
    obtain ⟨hworld, rfl⟩ := Prod.mk.inj (Option.some.inj h)
    cases sent with
    | true => exact .inl ⟨rfl, hworld.symm⟩
    | false => exact .inr ⟨rfl, hworld.symm⟩
  | _ => cases h

theorem serves_sendPong {payload : List UInt8} {reply : Bool} (h : Serves world (.sendPong payload) world' reply) :
    reply = true ∧ world' = world.record .ponged ∨ reply = false ∧ world' = world := by
  obtain ⟨choice, h⟩ := h
  cases choice with
  | taken sent =>
    obtain ⟨hworld, rfl⟩ := Prod.mk.inj (Option.some.inj h)
    cases sent with
    | true => exact .inl ⟨rfl, hworld.symm⟩
    | false => exact .inr ⟨rfl, hworld.symm⟩
  | _ => cases h

theorem serves_sendClose {normal : Bool} {reply : Unit} (h : Serves world (.sendClose normal) world' reply) :
    world' = world.record (.closed normal) ∨ world' = world := by
  obtain ⟨choice, h⟩ := h
  cases choice with
  | taken sent =>
    obtain ⟨hworld, -⟩ := Prod.mk.inj (Option.some.inj h)
    cases sent with
    | true => exact .inl hworld.symm
    | false => exact .inr hworld.symm
  | _ => cases h

theorem serves_closeCoordinator {reply : Unit} (h : Serves world .closeCoordinator world' reply) :
    world'.log = world.log := by
  obtain ⟨choice, h⟩ := h
  cases choice with
  | answer provider =>
    obtain ⟨coordinator, -, h⟩ := Option.map_eq_some_iff.mp h
    obtain ⟨rfl, -⟩ := Prod.mk.inj h
    rfl
  | elapsed polled =>
    obtain ⟨rfl, -⟩ := Prod.mk.inj (Option.some.inj h)
    rfl
  | _ => cases h

/-- A session is opened with a coordinator which holds nothing, or is left as it is. -/
theorem serves_openCoordinator {request : LiveRecognitionRequest} {reply : Option (Except LiveCoordinatorError Unit)}
    (h : Serves world (.openCoordinator request) world' reply) :
    (∃ timeline, reply = some (.ok ()) ∧ world' = (world.record .opened).withCoordinator ⟨quietSession 0, timeline⟩) ∨
      reply ≠ some (.ok ()) ∧ world' = world := by
  obtain ⟨choice, h⟩ := h
  cases choice with
  | answer provider =>
    cases hopen : LiveCoordinator.openSession request provider with
    | error error =>
      obtain ⟨rfl, rfl⟩ : world = world' ∧ some (.error error) = reply := by simpa [LiveWorld.serve, hopen] using h
      exact .inr ⟨nofun, rfl⟩
    | ok coordinator =>
      obtain ⟨rfl, rfl⟩ : (world.record .opened).withCoordinator coordinator = world' ∧ some (.ok ()) = reply := by
        simpa [LiveWorld.serve, hopen] using h
      obtain ⟨timeline, rfl⟩ : ∃ timeline, coordinator = ⟨quietSession 0, timeline⟩ := by
        unfold LiveCoordinator.openSession at hopen
        split at hopen
        · cases hopen
        · cases provider with
          | error failure => cases hopen
          | ok _ => exact ⟨_, (Except.ok.inj hopen).symm⟩
      exact .inl ⟨timeline, rfl, rfl⟩
  | elapsed polled =>
    obtain ⟨rfl, rfl⟩ := Prod.mk.inj (Option.some.inj h)
    exact .inr ⟨nofun, rfl⟩
  | _ => cases h

end Operations

section Coordinators

variable {ids : SessionIds} {world world' : LiveWorld ids} {acked : ℕ} {seen : Bool} {timeline : LiveTimeline}

/-- A write starts with the next sequence, unless it is refused. -/
theorem startProviderWrite_quiet (acked : ℕ) (timeline : LiveTimeline) (pcm : List UInt8) :
    (∃ coordinator error, LiveCoordinator.startProviderWrite ⟨quietSession acked, timeline⟩ pcm =
        (coordinator, .error error)) ∨
      ∃ pending, LiveCoordinator.startProviderWrite ⟨quietSession acked, timeline⟩ pcm =
        (⟨pendingSession acked false, timeline⟩, .ok (pending, ⟨⟨acked + 1⟩, pcm⟩)) ∧ acked + 1 ≤ U64.MAX := by
  by_cases hlength : pcm.length > MAX_PCM_FRAME_BYTES
  · exact .inl ⟨_, .invalidAudioFrame, by rw [LiveCoordinator.startProviderWrite, if_pos hlength]⟩
  cases hprepared : timeline.prepareAudioWrite pcm.length with
  | error error =>
    exact .inl ⟨⟨quietSession acked, timeline⟩, .invalidAudioFrame,
      by simp [LiveCoordinator.startProviderWrite, hlength, hprepared]⟩
  | ok pending =>
    by_cases hbounded : acked + 1 ≤ U64.MAX
    · have haccept : (quietSession acked).acceptAudio = (pendingSession acked false, .ok ⟨acked + 1⟩) := by
        simp [LiveSession.acceptAudio, LiveSession.requirePhase, quietSession, pendingSession,
          Speech.Domain.MAX_PENDING_AUDIO_SEQUENCES, U64.checkedAdd_of_le hbounded]
      exact .inr ⟨pending, by simp [LiveCoordinator.startProviderWrite, hlength, hprepared, haccept], hbounded⟩
    · have haccept : (quietSession acked).acceptAudio = (quietSession acked, .error .audioSequenceExhausted) := by
        simp [LiveSession.acceptAudio, LiveSession.requirePhase, quietSession,
          Speech.Domain.MAX_PENDING_AUDIO_SEQUENCES, U64.checkedAdd, hbounded]
      exact .inl ⟨⟨quietSession acked, timeline⟩, .domain .audioSequenceExhausted,
        by simp [LiveCoordinator.startProviderWrite, hlength, hprepared, haccept]⟩

/-- Polling a write starts it, if it is not refused. -/
theorem pollWrite_cases (h : Writing acked world) {pcm : List UInt8} {result : Except LiveCoordinatorError Unit}
    (hpoll : world.pollWrite pcm = some (world', result)) :
    result = .ok () ∧ Started acked world' ∨ (∃ error, result = .error error) ∧ Alive world' := by
  rcases h with ⟨haccepted, ⟨timeline, hsession⟩, hidle⟩ | hstarted
  · simp only [LiveWorld.pollWrite, hidle, hsession, Option.map_some, Option.some.injEq] at hpoll
    rcases startProviderWrite_quiet acked timeline pcm with ⟨coordinator, error, hrefused⟩ | ⟨pending, hstart, hbounded⟩
    · rw [hrefused] at hpoll
      obtain ⟨rfl, rfl⟩ := Prod.mk.inj hpoll
      exact .inr ⟨⟨error, rfl⟩, _, .streaming, haccepted⟩
    · rw [hstart] at hpoll
      obtain ⟨rfl, rfl⟩ := Prod.mk.inj hpoll
      exact .inl ⟨rfl, of_record haccepted (.accepts rfl), ⟨timeline, rfl⟩, ⟨pending, pcm, rfl⟩, hbounded⟩
  · obtain ⟨pending, sent, hwriting⟩ := hstarted.writing_eq
    simp only [LiveWorld.pollWrite, hwriting, Option.some.injEq, Prod.mk.injEq] at hpoll
    obtain ⟨rfl, rfl⟩ := hpoll
    exact .inl ⟨rfl, hstarted⟩

/-- The provider has taken the next frame. -/
structure Written (acked : ℕ) (world : LiveWorld ids) : Prop where
  written_at : world.At (.streaming (acked + 1) (acked + 1) acked) (pendingSession acked true)
  bounded : acked + 1 ≤ U64.MAX

/-- A write which was started is finished with its own sequence, or fails. -/
theorem finishWrite_cases (h : Started acked world) {provider : ProviderAnswer}
    {result : Except LiveCoordinatorError RawAudioSequence} (hfinish : world.finishWrite provider = some (world', result)) :
    result = .ok ⟨acked + 1⟩ ∧ Written acked world' ∨ (∃ error, result = .error error) ∧ Alive world' := by
  obtain ⟨timeline, hsession⟩ := h.session_eq
  obtain ⟨pending, pcm, hwriting⟩ := h.writing_eq
  simp only [LiveWorld.finishWrite, hwriting, hsession, Option.some.injEq, Prod.mk.injEq] at hfinish
  obtain ⟨rfl, rfl⟩ := hfinish
  cases provider with
  | error failure => exact .inr ⟨⟨_, rfl⟩, _, .streaming, h.accepted⟩
  | ok _ =>
    have hconfirm : (pendingSession acked false).markProviderWriteSucceeded ⟨acked + 1⟩ =
        (pendingSession acked true, .ok ()) := by
      simp [LiveSession.markProviderWriteSucceeded, LiveSession.requirePhase, pendingSession]
    have hresult : LiveCoordinator.finishProviderWrite ⟨pendingSession acked false, timeline⟩ pending ⟨acked + 1⟩
        (.ok ()) = (⟨pendingSession acked true, timeline.commitAudioWrite pending⟩, .ok ⟨acked + 1⟩) := by
      simp only [LiveCoordinator.finishProviderWrite, hconfirm]
    rw [hresult]
    exact .inl ⟨rfl, ⟨of_record h.accepted (.writes rfl (Nat.lt_succ_self _)), ⟨_, rfl⟩, rfl⟩, h.bounded⟩

/-- What a race for a write comes to. -/
theorem serves_raceWrite (h : Writing acked world) {pcm : List UInt8}
    {reply : Contest (Except LiveCoordinatorError RawAudioSequence)} (hserve : Serves world (.raceWrite pcm) world' reply) :
    ((∃ received, reply = .client received) ∨ reply = .elapsed) ∧ Writing acked world' ∨
      reply = .ready (.ok ⟨acked + 1⟩) ∧ Written acked world' ∨
      (∃ error, reply = .ready (.error error)) ∧ Alive world' := by
  have hlose (polled : Bool) (lost : Contest (Except LiveCoordinatorError RawAudioSequence))
      (hlost : world.lose (world.pollWrite pcm) polled lost = some (world', reply)) :
      reply = lost ∧ Writing acked world' ∨ (∃ error, reply = .ready (.error error)) ∧ Alive world' := by
    cases polled with
    | false =>
      obtain ⟨rfl, rfl⟩ := Prod.mk.inj (Option.some.inj hlost)
      exact .inl ⟨rfl, h⟩
    | true =>
      obtain ⟨⟨polledWorld, result⟩, hpoll, hreply⟩ := Option.map_eq_some_iff.mp hlost
      rcases pollWrite_cases h hpoll with ⟨rfl, hstarted⟩ | ⟨⟨error, rfl⟩, halive⟩
      · obtain ⟨rfl, rfl⟩ := Prod.mk.inj hreply
        exact .inl ⟨rfl, .inr hstarted⟩
      · obtain ⟨rfl, rfl⟩ := Prod.mk.inj hreply
        exact .inr ⟨⟨error, rfl⟩, halive⟩
  obtain ⟨choice, hserve⟩ := hserve
  cases choice with
  | client received polled =>
    rcases hlose polled _ hserve with ⟨hreply, hwriting⟩ | hfailed
    · exact .inl ⟨.inl ⟨received, hreply⟩, hwriting⟩
    · exact .inr (.inr hfailed)
  | elapsed polled =>
    rcases hlose polled _ hserve with ⟨hreply, hwriting⟩ | hfailed
    · exact .inl ⟨.inr hreply, hwriting⟩
    · exact .inr (.inr hfailed)
  | answer provider =>
    obtain ⟨⟨polledWorld, result⟩, hpoll, hwin⟩ := Option.bind_eq_some_iff.mp hserve
    rcases pollWrite_cases h hpoll with ⟨rfl, hstarted⟩ | ⟨⟨error, rfl⟩, halive⟩
    · obtain ⟨⟨finished, value⟩, hfinish, hreply⟩ := Option.map_eq_some_iff.mp hwin
      obtain ⟨rfl, rfl⟩ := Prod.mk.inj hreply
      rcases finishWrite_cases hstarted hfinish with ⟨rfl, hwritten⟩ | ⟨⟨error, rfl⟩, halive⟩
      · exact .inr (.inl ⟨rfl, hwritten⟩)
      · exact .inr (.inr ⟨⟨error, rfl⟩, halive⟩)
    · obtain ⟨rfl, rfl⟩ := Prod.mk.inj (Option.some.inj hwin)
      exact .inr (.inr ⟨⟨error, rfl⟩, halive⟩)
  | _ => cases hserve

/-- An acknowledgement which was sent is confirmed, and the session holds no frame again. -/
theorem serves_ackSent {reply : Except LiveCoordinatorError Unit}
    (h : world.At (.streaming (acked + 1) (acked + 1) (acked + 1)) (pendingSession acked true))
    (hserve : Serves world (.ackSent ⟨acked + 1⟩) world' reply) : reply = .ok () ∧ Quiet (acked + 1) world' := by
  obtain ⟨haccepted, ⟨timeline, hsession⟩, hidle⟩ := h
  have hconfirm : (pendingSession acked true).markAckSent ⟨acked + 1⟩ = (quietSession (acked + 1), .ok ()) := by
    simp [LiveSession.markAckSent, LiveSession.requirePhase, pendingSession, quietSession]
  obtain ⟨choice, hserve⟩ := hserve
  cases choice with
  | now =>
    simp only [LiveWorld.serve, hsession, Option.map_some, Option.some.injEq, Prod.mk.injEq,
      LiveCoordinator.ackSent, hconfirm] at hserve
    obtain ⟨rfl, rfl⟩ := hserve
    exact ⟨rfl, haccepted, ⟨timeline, rfl⟩, hidle⟩
  | _ => cases hserve

/-- The state of a coordinator after an event: a result is noted, and only in a drain. -/
def observing (session : LiveSession) (received : ProviderEvent) : LiveSession :=
  { session with finalizeResultObserved := session.finalizeResultObserved || observed received }

/-- An event which is applied changes nothing but the evidence. -/
theorem applyProviderEvent_ok {coordinator coordinator' : LiveCoordinator} {received : ProviderEvent}
    {event : Option LiveCoordinatorEvent} (h : coordinator.applyProviderEvent received = (coordinator', .ok event)) :
    coordinator'.domain = observing coordinator.domain received ∧
      (observed received = true → coordinator.domain.phase = .finalizing) := by
  match received with
  | .error failure => cases h
  | .ok none =>
    obtain ⟨rfl, -⟩ := Prod.mk.inj h
    simp [observing, observed]
  | .ok (some (.transcript transcript)) =>
    simp only [LiveCoordinator.applyProviderEvent] at h
    split at h
    · cases h
    · split at h
      · cases h
      · obtain ⟨rfl, -⟩ := Prod.mk.inj h
        simp [observing, observed]
  | .ok (some (.utteranceEnd lastWordEndMillis)) =>
    simp only [LiveCoordinator.applyProviderEvent] at h
    split at h
    · cases h
    · obtain ⟨rfl, -⟩ := Prod.mk.inj h
      simp [observing, observed]
  | .ok (some .finalizeResultObserved) =>
    rcases coordinator.domain.markFinalizeResultObserved_cases with ⟨error, hrefused⟩ | ⟨session, hmarked, hadvances⟩
    · simp [LiveCoordinator.applyProviderEvent, hrefused] at h
    · simp only [LiveCoordinator.applyProviderEvent, hmarked, Prod.mk.injEq] at h
      obtain ⟨rfl, -⟩ := h
      cases hadvances with
      | observeResult hphase => exact ⟨by simp [observing, observed], fun _ => hphase⟩

/-- What applying an event comes to. -/
theorem serves_applyProviderEvent {phase after : LivePhase} {session : LiveSession} {received : ProviderEvent}
    {reply : Except LiveCoordinatorError (Option LiveCoordinatorEvent)} (h : world.At phase session) (hlive : phase.Live)
    (hmove : (observed received = true → session.phase = .finalizing) →
      phase.Moves (.applied received : LiveEvent ids) after)
    (hserve : Serves world (.applyProviderEvent received) world' reply) :
    ((∃ event, reply = .ok event) ∧ world'.At after (observing session received) ∧
        (observed received = true → session.phase = .finalizing)) ∨
      (∃ error, reply = .error error) ∧ Alive world' := by
  obtain ⟨haccepted, ⟨timeline, hsession⟩, hidle⟩ := h
  obtain ⟨choice, hserve⟩ := hserve
  cases choice with
  | now =>
    obtain ⟨coordinator, hcoordinator, hserve⟩ := Option.map_eq_some_iff.mp hserve
    obtain rfl : (⟨session, timeline⟩ : LiveCoordinator) = coordinator := Option.some.inj (hsession.symm.trans hcoordinator)
    generalize happly : LiveCoordinator.applyProviderEvent ⟨session, timeline⟩ received = applied at hserve
    obtain ⟨coordinator', result⟩ := applied
    cases result with
    | error error =>
      obtain ⟨rfl, rfl⟩ := Prod.mk.inj hserve
      exact .inr ⟨⟨error, rfl⟩, phase, hlive, haccepted⟩
    | ok event =>
      obtain ⟨rfl, rfl⟩ := Prod.mk.inj hserve
      obtain ⟨hdomain, hobserved⟩ := applyProviderEvent_ok happly
      exact .inl ⟨⟨event, rfl⟩, ⟨of_record haccepted (hmove hobserved), ⟨coordinator'.timeline, by rw [← hdomain]; rfl⟩,
        hidle⟩, hobserved⟩
  | _ => cases hserve

/-- A quiet session holds no frame. -/
theorem serves_pendingAudioCount {reply : ℕ} (h : Quiet acked world)
    (hserve : Serves world .pendingAudioCount world' reply) : reply = 0 := by
  obtain ⟨-, ⟨timeline, hsession⟩, -⟩ := h
  obtain ⟨choice, hserve⟩ := hserve
  cases choice with
  | now =>
    simp only [LiveWorld.serve, hsession, Option.map_some, Option.some.injEq, Prod.mk.injEq] at hserve
    exact hserve.2.symm
  | _ => cases hserve

/-- Polling a finalization moves the coordinator on, which the protocol does not see. -/
theorem pollFinalize_quiet (h : Quiet acked world) {result : Except LiveCoordinatorError Unit}
    (hpoll : world.pollFinalize = some (world', result)) :
    result = .ok () ∧ world'.At (.streaming acked acked acked) (drainingSession acked false) := by
  obtain ⟨haccepted, ⟨timeline, hsession⟩, hidle⟩ := h
  have hbegin : (quietSession acked).beginFinalize = (drainingSession acked false, .ok ()) := by
    simp [LiveSession.beginFinalize, LiveSession.requirePhase, quietSession, drainingSession]
  simp only [LiveWorld.pollFinalize, hsession, Option.map_some, Option.some.injEq, Prod.mk.injEq,
    LiveCoordinator.startFinalize, hbegin] at hpoll
  obtain ⟨rfl, rfl⟩ := hpoll
  exact ⟨rfl, haccepted, ⟨timeline, rfl⟩, hidle⟩

/-- What a race for the finalization comes to. -/
theorem serves_raceFinalize (h : Quiet acked world) {reply : Contest (Except LiveCoordinatorError Unit)}
    (hserve : Serves world .raceFinalize world' reply) :
    reply = .ready (.ok ()) ∧ Draining acked false world' ∨ reply ≠ .ready (.ok ()) ∧ Alive world' := by
  have hlose (polled : Bool) (lost : Contest (Except LiveCoordinatorError Unit))
      (hlost : world.lose world.pollFinalize polled lost = some (world', reply)) : reply = lost ∧ Alive world' := by
    cases polled with
    | false =>
      obtain ⟨rfl, rfl⟩ := Prod.mk.inj (Option.some.inj hlost)
      exact ⟨rfl, h.alive⟩
    | true =>
      obtain ⟨⟨polledWorld, result⟩, hpoll, hreply⟩ := Option.map_eq_some_iff.mp hlost
      obtain ⟨rfl, hpolled⟩ := pollFinalize_quiet h hpoll
      obtain ⟨rfl, rfl⟩ := Prod.mk.inj hreply
      exact ⟨rfl, hpolled.alive .streaming⟩
  obtain ⟨choice, hserve⟩ := hserve
  cases choice with
  | client received polled =>
    obtain ⟨rfl, halive⟩ := hlose polled _ hserve
    exact .inr ⟨nofun, halive⟩
  | elapsed polled =>
    obtain ⟨rfl, halive⟩ := hlose polled _ hserve
    exact .inr ⟨nofun, halive⟩
  | answer provider =>
    obtain ⟨⟨polledWorld, result⟩, hpoll, hwin⟩ := Option.bind_eq_some_iff.mp hserve
    obtain ⟨rfl, haccepted, ⟨timeline, hsession⟩, hidle⟩ := pollFinalize_quiet h hpoll
    obtain ⟨⟨finished, value⟩, hfinish, hreply⟩ := Option.map_eq_some_iff.mp hwin
    obtain ⟨rfl, rfl⟩ := Prod.mk.inj hreply
    simp only [LiveWorld.finishFinalize, hsession, Option.map_some, Option.some.injEq, Prod.mk.injEq] at hfinish
    obtain ⟨rfl, rfl⟩ := hfinish
    cases provider with
    | error failure => exact .inr ⟨nofun, _, .streaming, haccepted⟩
    | ok _ => exact .inl ⟨rfl, of_record haccepted .begins, ⟨timeline, rfl⟩, hidle⟩
  | _ => cases hserve

/-- A drain is completed with the one truthful outcome. -/
theorem serves_completeFinalize (h : Draining acked seen world) {reply : Except LiveCoordinatorError FinalizeOutcome}
    (hserve : Serves world (.completeFinalize (requestedStatus seen (acked ≠ 0))) world' reply) :
    reply = .ok (truthfulOutcome acked seen) ∧
      (LivePhase.concluded acked (truthfulOutcome acked seen)).Of world'.log := by
  obtain ⟨haccepted, ⟨timeline, hsession⟩, -⟩ := h
  obtain ⟨choice, hserve⟩ := hserve
  cases choice with
  | now =>
    have hcomplete : ((drainingSession acked seen).completeFinalize (requestedStatus seen (acked ≠ 0))).2 =
        .ok (truthfulOutcome acked seen) := by
      cases seen <;> by_cases hacked : acked = 0 <;>
        simp [LiveSession.completeFinalize, LiveSession.requirePhase, drainingSession, truthfulOutcome,
          requestedStatus, hacked]
    simp only [LiveWorld.serve, hsession, Option.map_some, Option.some.injEq, Prod.mk.injEq,
      LiveCoordinator.completeFinalize, hcomplete] at hserve
    obtain ⟨rfl, rfl⟩ := hserve
    exact ⟨rfl, of_record haccepted .concludes⟩
  | _ => cases hserve

end Coordinators

end Voicetext.Gateway.Server.LiveTransport
