import Voicetext.Gateway.Server.LiveReplies

/-!
# Whole live sessions follow the protocol

Wherever a session stops, the protocol accepts what it has done, so the order of its frames and the truth of
its finalize evidence hold of every session. The session is walked once, each loop with what it carries from
one round to the next.
-/

namespace Voicetext.Gateway.Server.LiveTransport

open Voicetext.Common Voicetext.Common.Task Voicetext.Speech.Application Voicetext.Gateway.Contracts
open Voicetext.Speech.Domain (LiveSession RawAudioSequence FinalizeOutcome)

section Sending

variable {ids : SessionIds} {numbers : WireNumbers} {world : LiveWorld ids} {phase after : LivePhase}

/-- A message the protocol takes is sent, or the session stays where it is. -/
theorem sendMessage_keeps {message : OutboundServerMessage ids} (post : Except SafeLiveError Unit → LiveWorld ids → Prop)
    (hphase : phase.Of world.log) (hmove : ∀ json, phase.Moves (.sent message json) after)
    (hsent : ∀ json, post (.ok ()) (world.record (.sent message json))) (hunsent : ∀ error, post (.error error) world) :
    Keeps Serves Conforms post (sendMessage numbers message) world := by
  unfold sendMessage
  cases hjson : LiveOutbound.serializeServerMessage numbers message with
  | error violation => exact ⟨⟨phase, hphase⟩, hunsent _⟩
  | ok json =>
    refine Keeps.call ⟨phase, hphase⟩ ?_
    intro world' sent hserve
    have hreply : Server.sendMessage numbers (fun _ => sent) message =
        if sent then .ok () else .error .transportClosed := by
      rw [Server.sendMessage, hjson]
      rfl
    rw [hreply]
    obtain ⟨rfl, rfl⟩ | ⟨rfl, rfl⟩ := serves_sendText hserve
    · exact ⟨⟨after, of_record hphase (hmove json)⟩, hsent json⟩
    · exact ⟨⟨phase, hphase⟩, hunsent _⟩

/-- A failure is told, after which the session may only be closed. -/
theorem failSocket_keeps {error : SafeLiveError} (hphase : phase.Of world.log)
    (hmove : ∀ json, phase.Moves (.sent (failureMessage error : OutboundServerMessage ids) json) (.finished false))
    (hopen : phase.Live ∨ phase = .preparing ∨ phase = .opened) :
    Keeps Serves Conforms (fun _ w => MayClose false w) (failSocket numbers error) world := by
  refine (sendMessage_keeps (fun _ w => MayClose false w) hphase hmove ?_ ?_).bind ?_
  · intro json
    exact ⟨.finished false, .closed, of_record hphase (hmove json), .closes nofun⟩
  · intro _
    exact ⟨phase, .closed, hphase, .abandons hopen⟩
  · intro _ w hheld hclose
    exact ⟨hheld, hclose⟩

theorem failed_keeps {error : SafeLiveError} (h : Alive world) :
    Keeps Serves Conforms (fun next w => ∃ label, next = .inr (label, false) ∧ MayClose false w)
      (failed numbers error) world := by
  obtain ⟨phase, hlive, hphase⟩ := h
  refine (failSocket_keeps hphase (fun _ => .fails hlive) (.inl hlive)).bind ?_
  intro _ w hheld hclose
  exact ⟨hheld, error.code, rfl, hclose⟩

/-- A ping is answered while the session streams. -/
theorem sendPong_keeps {payload : List UInt8} {accepted written acked : ℕ}
    (hphase : (LivePhase.streaming accepted written acked).Of world.log) {holds : LiveWorld ids → Prop}
    (hheld : holds world) (hponged : holds (world.record .ponged)) :
    Keeps Serves Conforms (fun _ w => holds w) (sendPong payload) world := by
  refine Keeps.call ⟨_, hphase⟩ ?_
  intro world' sent hserve
  obtain ⟨rfl, rfl⟩ | ⟨rfl, rfl⟩ := serves_sendPong hserve
  · exact ⟨⟨_, of_record hphase .pongs⟩, hponged⟩
  · exact ⟨⟨_, hphase⟩, hheld⟩

theorem closeSocket_keeps {earned : Bool} (h : MayClose earned world) :
    Keeps Serves Conforms (fun _ _ => True) (closeSocket earned) world := by
  obtain ⟨phase, after, hphase, hmove⟩ := h
  refine Keeps.await ⟨phase, hphase⟩ ?_
  intro world' reply hserve
  rcases serves_sendClose hserve with rfl | rfl
  · exact ⟨⟨after, of_record hphase hmove⟩, trivial⟩
  · exact ⟨⟨phase, hphase⟩, trivial⟩

end Sending

section Streaming

variable {ids : SessionIds} {numbers : WireNumbers} {world : LiveWorld ids} {acked : ℕ}

theorem Quiet.ponged (h : Quiet acked world) : Quiet acked (world.record .ponged) :=
  ⟨of_record h.accepted .pongs, h.session_eq, h.idle⟩

theorem Started.ponged (h : Started acked world) : Started acked (world.record .ponged) :=
  ⟨of_record h.accepted .pongs, h.session_eq, h.writing_eq, h.bounded⟩

/-- What the write of the next frame comes to. -/
def WroteNext (acked : ℕ) : Except SafeLiveError RawAudioSequence → LiveWorld ids → Prop
  | .ok sequence, world => sequence = ⟨acked + 1⟩ ∧ Written acked world
  | .error _, world => Alive world

/-- A part of a session ends with a value, or fails. -/
def Served {α : Type} (settles : α → LiveWorld ids → Prop) : Except SafeLiveError α → LiveWorld ids → Prop
  | .ok value, world => settles value world
  | .error _, world => Alive world

/-- The main loop may go on with its note of accepted audio, whatever control it is given. -/
abbrev Resumes (control : LoopControl × Bool) : LiveWorld ids → Prop := Settled control.2

/-- What a round comes to: another round, or the end of its loop. -/
abbrev Round {σ α : Type} (carries : σ → LiveWorld ids → Prop) (post : α → LiveWorld ids → Prop) (next : σ ⊕ α)
    (world : LiveWorld ids) : Prop := next.elim (carries · world) (post · world)

theorem writeRound_keeps {pcm : List UInt8} (h : Writing acked world) :
    Keeps Serves Conforms (Round (fun _ : Unit => Writing acked) (WroteNext acked)) (writeRound pcm) world := by
  refine Keeps.call h.alive.conforms ?_
  intro world' reply hserve
  obtain ⟨hlost, hwriting⟩ | ⟨rfl, hwritten⟩ | ⟨⟨error, rfl⟩, halive⟩ := serves_raceWrite h hserve
  · have hfail (error : SafeLiveError) :
        Keeps Serves Conforms (Round (fun _ : Unit => Writing acked) (WroteNext acked)) (.done (.inr (.error error))) world' := ⟨hwriting.alive.conforms, hwriting.alive⟩
    have hpong (payload : List UInt8) :
        Keeps Serves Conforms (fun _ w => Writing acked w) (sendPong payload) world' := by
      rcases hwriting with hquiet | hstarted
      · exact sendPong_keeps hquiet.accepted (.inl hquiet) (.inl hquiet.ponged)
      · exact sendPong_keeps hstarted.accepted (.inr hstarted) (.inr hstarted.ponged)
    obtain ⟨received, rfl⟩ | rfl := hlost
    · match received with
      | none | some (.error _) | some (.ok .close) | some (.ok (.text _)) | some (.ok (.binary _)) => exact hfail _
      | some (.ok (.pong _)) => exact ⟨hwriting.alive.conforms, hwriting⟩
      | some (.ok (.ping payload)) =>
        refine (hpong payload).bind ?_
        intro sent w hheld hkept
        cases sent with
        | error error => exact ⟨hheld, hkept.alive⟩
        | ok _ => exact ⟨hheld, hkept⟩
    · exact hfail _
  · exact ⟨hwritten.written_at.conforms, rfl, hwritten⟩
  · exact ⟨halive.conforms, halive⟩

theorem writeAudioOrCancel_keeps {fuel : ℕ} {pcm : List UInt8} (h : Quiet acked world) :
    Keeps Serves Conforms (WroteNext acked) (writeAudioOrCancel fuel pcm) world := by
  refine Keeps.repeatUntil (fun _ w => Writing acked w) ?_ fuel h.conforms (.inl h)
  intro _ w _ hwriting
  exact writeRound_keeps hwriting

theorem decodeAudio_keeps {decoder : Bool} {frame : List UInt8} (h : Quiet acked world) :
    Keeps Serves Conforms (fun _ w => Quiet acked w) (decodeAudio decoder frame) world := by
  unfold decodeAudio
  split
  · refine Keeps.call h.conforms ?_
    intro world' reply hserve
    obtain rfl := eq_of_silent hserve rfl
    cases reply with
    | none => exact ⟨h.conforms, h⟩
    | some pcm => exact ⟨h.conforms, h⟩
  · split
    · exact ⟨h.conforms, h⟩
    · exact ⟨h.conforms, h⟩

/-- An acknowledgement is sent with the number of the write it is for, and then confirmed. -/
theorem acknowledge_keeps (h : Written acked world)
    {next : Except LiveCoordinatorError Unit → LiveTask ids (Except SafeLiveError (LoopControl × Bool))}
    (hnext : next (.ok ()) = .done (.ok (.continue_, true))) :
    Keeps Serves Conforms (Served Resumes)
      ((sendMessage numbers (.ack (.ofNat (acked + 1)) : OutboundServerMessage ids)).andThen fun _ =>
        (perform ids (.ackSent ⟨acked + 1⟩)).bind next) world := by
  have hnumber : (UInt64.ofNat (acked + 1)).toNat = acked + 1 :=
    UInt64.toNat_ofNat_of_lt' (Nat.lt_of_le_pred (by decide) h.bounded)
  have hmove (json : String) : (LivePhase.streaming (acked + 1) (acked + 1) acked).Moves
      (.sent (.ack (.ofNat (acked + 1))) json : LiveEvent ids) (.streaming (acked + 1) (acked + 1) (acked + 1)) :=
    .acknowledges hnumber (Nat.lt_succ_self _)
  refine (sendMessage_keeps (Served fun _ w =>
    w.At (.streaming (acked + 1) (acked + 1) (acked + 1)) (pendingSession acked true)) h.written_at.accepted hmove
      ?_ ?_).andThen ?_ ?_
  · intro json
    exact ⟨of_record h.written_at.accepted (hmove json), h.written_at.session_eq, h.written_at.idle⟩
  · intro _
    exact h.written_at.alive .streaming
  · intro _ _ _ halive
    exact halive
  · intro _ w hheld hanswered
    refine Keeps.call hheld ?_
    intro world' reply hserve
    obtain ⟨rfl, hquiet⟩ := serves_ackSent hanswered hserve
    rw [hnext]
    exact ⟨hquiet.conforms, acked + 1, hquiet, by simp⟩

/-- Serving a message of the client comes back to the main loop or fails. -/
theorem handleClientFrame_keeps {fuel maximum : ℕ} {decoder acceptedAudio : Bool} (h : Settled acceptedAudio world)
    (received : Received) :
    Keeps Serves Conforms (Served Resumes)
      (handleClientFrame numbers fuel maximum decoder acceptedAudio received) world := by
  obtain ⟨acked, hquiet, hflag⟩ := h
  match received with
  | none | some (.error _) => exact ⟨hquiet.conforms, hquiet.alive⟩
  | some (.ok (.binary frame)) =>
    simp only [handleClientFrame]
    split
    · exact ⟨hquiet.conforms, hquiet.alive⟩
    · refine (decodeAudio_keeps hquiet).andThen ?_ ?_
      · intro _ _ _ hquiet
        exact hquiet.alive
      · intro pcm w _ hquiet
        refine (writeAudioOrCancel_keeps hquiet).andThen ?_ ?_
        · intro _ _ _ halive
          exact halive
        · intro sequence w _ hwrote
          obtain ⟨rfl, hwritten⟩ := hwrote
          exact acknowledge_keeps hwritten rfl
  | some (.ok (.text text)) =>
    simp only [handleClientFrame]
    split
    · exact ⟨hquiet.conforms, acked, hquiet, hflag⟩
    · exact ⟨hquiet.conforms, acked, hquiet, hflag⟩
    · exact ⟨hquiet.conforms, hquiet.alive⟩
  | some (.ok (.ping payload)) =>
    refine (sendPong_keeps hquiet.accepted hquiet hquiet.ponged).andThen ?_ ?_
    · intro _ _ _ hquiet
      exact hquiet.alive
    · intro _ w hheld hquiet
      exact ⟨hheld, acked, hquiet, hflag⟩
  | some (.ok (.pong _)) | some (.ok .close) => exact ⟨hquiet.conforms, acked, hquiet, hflag⟩

/-- An event is applied, and what it comes to is sent. -/
theorem applyAndSend_keeps {phase after : LivePhase} {session : LiveSession} {received : ProviderEvent}
    (h : world.At phase session) (hlive : phase.Live) (hafter : after.Live)
    (hmove : (observed received = true → session.phase = .finalizing) →
      phase.Moves (.applied received : LiveEvent ids) after) :
    Keeps Serves Conforms
      (Served fun _ w => w.At after (observing session received) ∧ (observed received = true → session.phase = .finalizing))
      (applyAndSend numbers received) world := by
  refine Keeps.call h.conforms ?_
  intro world' reply hserve
  obtain ⟨⟨event, rfl⟩, hworld, hobserved⟩ | ⟨⟨error, rfl⟩, halive⟩ :=
    serves_applyProviderEvent h hlive hmove hserve
  · match event with
    | none | some (.utteranceEnd _) => exact ⟨hworld.conforms, hworld, hobserved⟩
    | some (.transcript transcript) =>
      have htranscript : isTranscript (transcriptMessage transcript : OutboundServerMessage ids) = true := by
        unfold transcriptMessage
        cases transcript.stability <;> rfl
      refine sendMessage_keeps _ hworld.accepted (fun _ => .transcribes hafter htranscript) ?_ ?_
      · intro json
        exact ⟨⟨of_record hworld.accepted (.transcribes hafter htranscript), hworld.session_eq, hworld.idle⟩, hobserved⟩
      · intro _
        exact hworld.alive hafter
  · exact ⟨halive.conforms, halive⟩

theorem observing_eq {session : LiveSession} {received : ProviderEvent} (h : observed received = false) :
    observing session received = session := by
  rw [observing, h, Bool.or_false]

theorem handleProviderEvent_keeps (h : Quiet acked world) (received : ProviderEvent) :
    Keeps Serves Conforms (Served fun _ => Quiet acked) (handleProviderEvent numbers received) world := by
  refine (applyAndSend_keeps h .streaming .streaming fun _ => .applies).andThen ?_ ?_
  · intro _ _ _ halive
    exact halive
  · rintro _ w hheld ⟨hworld, hobserved⟩
    -- a session which streams observes no result
    have hunobserved : observed received = false := by
      cases hresult : observed received with
      | false => rfl
      | true => cases hobserved hresult
    rw [observing_eq hunobserved] at hworld
    refine ⟨hheld, ?_⟩
    cases ended received with
    | true => exact Quiet.alive hworld
    | false => exact hworld

theorem control_keeps {fuel maximum : ℕ} {decoder acceptedAudio : Bool} (h : Settled acceptedAudio world)
    (raced : Raced) :
    Keeps Serves Conforms (Served Resumes) (control numbers fuel maximum decoder acceptedAudio raced) world := by
  cases raced with
  | client received => exact handleClientFrame_keeps h received
  | provider received =>
    obtain ⟨acked, hquiet, hflag⟩ := h
    refine (handleProviderEvent_keeps hquiet received).andThen ?_ ?_
    · intro _ _ _ halive
      exact halive
    · intro _ w hheld hquiet
      exact ⟨hheld, acked, hquiet, hflag⟩
  | idleTimeout | sessionTimeout => exact ⟨h.alive.conforms, h.alive⟩

end Streaming

section Finalizing

variable {ids : SessionIds} {numbers : WireNumbers} {world : LiveWorld ids} {acked : ℕ} {seen : Bool}

theorem beginFinalizeOrCancel_keeps (h : Quiet acked world) :
    Keeps Serves Conforms (Served fun _ => Draining acked false) beginFinalizeOrCancel world := by
  refine Keeps.call h.conforms ?_
  intro world' reply hserve
  obtain ⟨rfl, hdraining⟩ | ⟨hreply, halive⟩ := serves_raceFinalize h hserve
  · exact ⟨hdraining.conforms, hdraining⟩
  · match reply with
    | .ready (.ok ()) => exact absurd rfl hreply
    | .client none | .client (some (.error _)) | .client (some (.ok .close)) | .client (some (.ok (.text _))) |
      .client (some (.ok (.binary _))) | .client (some (.ok (.ping _))) | .client (some (.ok (.pong _))) |
      .ready (.error _) | .elapsed => exact ⟨halive.conforms, halive⟩

/-- A round of the drain notes a result as the coordinator does. -/
theorem drainRound_keeps (h : Draining acked seen world) :
    Keeps Serves Conforms (Round (Draining acked) (Served (Draining acked))) (drainRound numbers seen) world := by
  have halive : Alive world := h.alive .draining
  refine Keeps.call h.conforms ?_
  intro world' reply hserve
  obtain rfl := eq_of_silent hserve rfl
  match reply with
  | .client none | .client (some (.error _)) | .client (some (.ok .close)) | .client (some (.ok (.text _))) |
    .client (some (.ok (.binary _))) | .client (some (.ok (.ping _))) | .client (some (.ok (.pong _))) =>
    exact ⟨halive.conforms, halive⟩
  | .elapsed => exact ⟨h.conforms, h⟩
  | .ready received =>
    refine (applyAndSend_keeps h .draining .draining fun _ => .drains).bind ?_
    intro result w hheld hresult
    cases result with
    | error error => exact ⟨hheld, hresult⟩
    | ok _ =>
      have hdraining : Draining acked (seen || observed received) w := hresult.1
      dsimp only
      split
      · exact ⟨hheld, hdraining⟩
      · refine Keeps.call hheld ?_
        intro w' passed hserve
        obtain rfl := eq_of_silent hserve rfl
        cases passed with
        | true => exact ⟨hheld, hdraining⟩
        | false => exact ⟨hheld, hdraining⟩

/-- Whether a status earns a normal closure. -/
abbrev earns (status : FinalizeStatus) : Bool := decide (status = .flushed ∨ status = .noProvider)

/-- A drain ends with its status told, or the session may still fail. -/
theorem finalize_keeps {fuel : ℕ} {acceptedAudio : Bool} (h : Settled acceptedAudio world) :
    Keeps Serves Conforms (Served fun status => MayClose (earns status)) (finalize numbers fuel acceptedAudio) world := by
  obtain ⟨acked, hquiet, rfl⟩ := h
  refine Keeps.call hquiet.conforms ?_
  intro world' pending hserve
  obtain rfl := serves_pendingAudioCount hquiet hserve
  obtain rfl := eq_of_silent hserve rfl
  refine (beginFinalizeOrCancel_keeps hquiet).andThen ?_ ?_
  · intro _ _ _ halive
    exact halive
  · intro _ w hheld hdraining
    refine (Keeps.repeatUntil (Draining acked) (fun seen w _ hdraining => drainRound_keeps hdraining) fuel hheld
      hdraining).andThen ?_ ?_
    · intro _ _ _ halive
      exact halive
    · intro seen w hheld hdraining
      refine Keeps.call hheld ?_
      intro w' reply hserve
      obtain ⟨rfl, hconcluded⟩ := serves_completeFinalize hdraining hserve
      generalize truthfulOutcome acked seen = outcome at *
      have hmove (json : String) : (LivePhase.concluded acked outcome).Moves
          (.sent (.finalizeComplete (wireStatus outcome.status) outcome.sawResult) json : LiveEvent ids)
          (.finished (wireStatus outcome.status ≠ .timeout)) := .finalizes
      refine (sendMessage_keeps (Served fun _ => MayClose (earns (wireStatus outcome.status))) hconcluded
        hmove ?_ ?_).andThen ?_ ?_
      · intro json
        refine ⟨_, .closed, of_record hconcluded (hmove json), .closes ?_⟩
        cases wireStatus outcome.status <;> decide
      · intro _
        exact ⟨_, .concluded, hconcluded⟩
      · intro _ _ _ halive
        exact halive
      · intro _ w hheld hclose
        exact ⟨hheld, hclose⟩

end Finalizing

section Sessions

variable {ids : SessionIds} {numbers : WireNumbers} {world : LiveWorld ids}

/-- How the main loop is left: with a label, and the closure it has earned. -/
abbrev Leaves (terminal : String × Bool) : LiveWorld ids → Prop := MayClose terminal.2

theorem failed_leaves {error : SafeLiveError} (h : Alive world) :
    Keeps Serves Conforms (Round Settled Leaves) (failed numbers error) world := by
  refine (failed_keeps h).mono (fun _ hheld => hheld) ?_
  rintro _ w _ ⟨label, rfl, hclose⟩
  exact hclose

/-- A round of the main loop leads to another one with an exact note of accepted audio, or ends the session. -/
theorem streamRound_keeps {fuel maximum : ℕ} {decoder acceptedAudio : Bool} (h : Settled acceptedAudio world) :
    Keeps Serves Conforms (Round Settled Leaves) (streamRound numbers fuel maximum decoder acceptedAudio) world := by
  refine Keeps.call h.alive.conforms ?_
  intro world' raced hserve
  obtain rfl := eq_of_silent hserve rfl
  refine (control_keeps h raced).bind ?_
  intro result w hheld hresult
  match result with
  | .error error => exact failed_leaves hresult
  | .ok (.continue_, acceptedAudio) => exact ⟨hheld, hresult⟩
  | .ok (.close, acceptedAudio) => exact ⟨hheld, hresult.alive.mayClose⟩
  | .ok (.finalize, acceptedAudio) =>
    refine (finalize_keeps hresult).bind ?_
    intro finalized w hheld hfinalized
    cases finalized with
    | error error => exact failed_leaves hfinalized
    | ok status => exact ⟨hheld, hfinalized⟩

theorem stream_keeps {fuel maximum : ℕ} {decoder : Bool} (h : Settled false world) :
    Keeps Serves Conforms Leaves (stream numbers fuel maximum decoder) world :=
  Keeps.repeatUntil Settled (fun _ _ _ hsettled => streamRound_keeps hsettled) fuel h.alive.conforms h

theorem conclude_keeps {terminal : String × Bool} (h : Leaves terminal world) :
    Keeps Serves Conforms (fun _ _ => True) (conclude terminal) world := by
  refine Keeps.call h.conforms ?_
  intro world' _ hserve
  obtain rfl := eq_of_silent hserve rfl
  refine Keeps.call h.conforms ?_
  intro world' _ hserve
  have hlog := serves_closeCoordinator hserve
  have hclose : MayClose terminal.2 world' := by
    obtain ⟨phase, after, hphase, hmove⟩ := h
    exact ⟨phase, after, hlog ▸ hphase, hmove⟩
  exact closeSocket_keeps hclose

/-- A session has not been opened, or its coordinator holds no frame. -/
def Opens : Except SafeLiveError OpenedSession → LiveWorld ids → Prop
  | .ok _, world => world.At .opened (quietSession 0)
  | .error _, world => LivePhase.preparing.Of world.log

theorem receiveConfig_keeps {maximum : ℕ} :
    Keeps Serves Conforms (fun _ w => w = .start) (receiveConfig maximum) (.start : LiveWorld ids) := by
  refine Keeps.call ⟨.preparing, .nil⟩ ?_
  intro world' reply hserve
  obtain rfl := eq_of_silent hserve rfl
  split
  · exact ⟨⟨.preparing, .nil⟩, rfl⟩
  · exact ⟨⟨.preparing, .nil⟩, rfl⟩
  · exact ⟨⟨.preparing, .nil⟩, rfl⟩
  · split
    · exact ⟨⟨.preparing, .nil⟩, rfl⟩
    · exact ⟨⟨.preparing, .nil⟩, rfl⟩
  · exact ⟨⟨.preparing, .nil⟩, rfl⟩

theorem prepareSession_keeps {gateway : LiveGateway} :
    Keeps Serves Conforms Opens (prepareSession gateway) (.start : LiveWorld ids) := by
  have hstart : Conforms (.start : LiveWorld ids) := ⟨.preparing, .nil⟩
  refine receiveConfig_keeps.andThen ?_ ?_
  · rintro _ _ _ rfl
    exact .nil
  · rintro config _ _ rfl
    split
    · exact ⟨hstart, .nil⟩
    · split
      · exact ⟨hstart, .nil⟩
      · split
        · exact ⟨hstart, .nil⟩
        · refine Keeps.call hstart ?_
          intro world' reply hserve
          obtain ⟨timeline, rfl, rfl⟩ | ⟨hreply, rfl⟩ := serves_openCoordinator hserve
          · have hopened : LivePhase.opened.Of [(.opened : LiveEvent ids)] := .cons .opens .nil
            exact ⟨⟨.opened, hopened⟩, hopened, ⟨timeline, rfl⟩, rfl⟩
          · match reply with
            | some (.ok ()) => exact absurd rfl hreply
            | none | some (.error _) => exact ⟨hstart, .nil⟩

/-- A whole session is accepted by the protocol at every point. -/
theorem run_keeps (gateway : LiveGateway) (fuel : ℕ) :
    Keeps Serves Conforms (fun _ _ => True) (run numbers gateway fuel) (.start : LiveWorld ids) := by
  refine prepareSession_keeps.bind ?_
  intro opened w hheld hopened
  cases opened with
  | error error =>
    refine (failSocket_keeps hopened (fun _ => .refuses) (.inr (.inl rfl))).bind ?_
    intro _ w _ hclose
    exact closeSocket_keeps hclose
  | ok session =>
    refine Keeps.call hheld ?_
    intro w' sessionId hserve
    obtain rfl := eq_of_silent hserve rfl
    have hmove (json : String) : LivePhase.opened.Moves (.sent (.ready sessionId session.identity) json : LiveEvent ids)
        (.streaming 0 0 0) := .readies
    refine (sendMessage_keeps (fun sent w => match sent with
      | .ok _ => Settled false w
      | .error _ => MayClose false w) hopened.accepted hmove ?_ ?_).bind ?_
    · intro json
      exact ⟨0, ⟨of_record hopened.accepted (hmove json), hopened.session_eq, hopened.idle⟩, rfl⟩
    · intro _
      exact ⟨.opened, .closed, hopened.accepted, .abandons (.inr (.inr rfl))⟩
    · intro sent w _ hsent
      cases sent with
      | error error => exact conclude_keeps hsent
      | ok _ =>
        refine (stream_keeps hsent).bind ?_
        intro terminal w _ hleaves
        exact conclude_keeps hleaves

/-- Wherever a session stops, the frames it has sent are in the order of the protocol. -/
theorem wireOrder_of_stops (numbers : WireNumbers) (gateway : LiveGateway) (fuel : ℕ)
    (h : Stops Serves .start (run numbers gateway fuel) world) : WireOrder world.log := by
  obtain ⟨phase, hphase⟩ := (run_keeps gateway fuel).stops h
  exact wireOrder_of hphase

/-- Wherever a session stops, completing its drain has not failed, and the status it has told is what happened. -/
theorem truthfulFinalize_of_stops (numbers : WireNumbers) (gateway : LiveGateway) (fuel : ℕ)
    (h : Stops Serves .start (run numbers gateway fuel) world) : TruthfulFinalize numbers world.log := by
  obtain ⟨phase, hphase⟩ := (run_keeps gateway fuel).stops h
  exact truthfulFinalize_of numbers hphase

section Sample

/-- A gateway which serves one live profile. -/
def sampleGateway : LiveGateway := ⟨⟨none, none, some .deepgram, none⟩, true, 4096⟩

def sampleId : SessionIds.canonicalForms.Uuid := ⟨"00000000-0000-4000-8000-000000000000", by decide⟩

/-- One frame is written and acknowledged, and a result is observed before the session is closed. -/
theorem stops_sample : ∃ world : LiveWorld .canonicalForms,
    Stops Serves .start (run .bits sampleGateway 2) world ∧ acks world.log = [1] ∧
      (messages world.log).map isTerminal = [false, false, true] ∧ world.log.length = 10 := by
  let config : ClientConfig .canonicalForms := ⟨.deepgramNova3, "en", sampleId, .pcmS16le16Khz, []⟩
  have hconfig : ((Contracts.Live.serializeClientConfig .canonicalForms config).toOption.map
      fun text => decide (Text.len text ≤ 4096)) = some true := by decide +kernel
  obtain ⟨text, htext, hshort⟩ := Option.map_eq_some_iff.mp hconfig
  cases hwritten : Contracts.Live.serializeClientConfig .canonicalForms config with
  | error violation => rw [hwritten] at htext; cases htext
  | ok written =>
    rw [hwritten] at htext
    obtain rfl : written = text := Option.some.inj htext
    have hparsed := parseClientConfig_serializeClientConfig hwritten ⟨by decide +kernel, by decide +kernel, by decide +kernel⟩
    have hlength : ¬ Text.len written > 4096 := Nat.not_lt.mpr (of_decide_eq_true hshort)
    let choices : List (LiveChoice .canonicalForms) :=
      [.answer (.ok ()), .identifier sampleId, .taken true,
        .raced (.client (some (.ok (.binary (List.replicate 32 0))))), .answer (.ok ()), .taken true, .now,
        .raced (.client (some (.ok (.text "\x7b\"type\":\"finalize\"\x7d")))), .now, .answer (.ok ()),
        .event (.ok (some .finalizeResultObserved)), .now, .passed false, .elapsed false, .now, .taken true,
        .now, .answer (.ok ()), .taken true]
    have hrun : ((advance LiveWorld.serve (.configuration (some (some (.ok (.text written)))) :: choices) .start
        (run .bits sampleGateway 2)).map fun world =>
          (acks world.log, (messages world.log).map isTerminal, world.log.length)) =
            some ([1], [false, false, true], 10) := by
      simp only [advance, run, LiveTransport.prepareSession, receiveConfig, perform, call, andThen, bind_await,
        bind_done, LiveWorld.serve, Option.bind_some, hparsed, hlength, sampleGateway, ↓reduceIte, Except.mapError]
      decide +kernel
    obtain ⟨world, hadvance, hlog⟩ := Option.map_eq_some_iff.mp hrun
    obtain ⟨hacks, hmessages, hcount⟩ : _ ∧ _ ∧ _ := by simpa using hlog
    exact ⟨world, stops_of_advance _ hadvance, hacks, hmessages, hcount⟩

theorem wireOrder_of_stops_sample :
    ∃ world : LiveWorld .canonicalForms, WireOrder world.log ∧ acks world.log = [1] := by
  obtain ⟨world, hstops, hacks, -⟩ := stops_sample
  exact ⟨world, wireOrder_of_stops .bits sampleGateway 2 hstops, hacks⟩

theorem truthfulFinalize_of_stops_sample : ∃ world : LiveWorld .canonicalForms,
    TruthfulFinalize .bits world.log ∧ (messages world.log).map isTerminal = [false, false, true] := by
  obtain ⟨world, hstops, -, hmessages, -⟩ := stops_sample
  exact ⟨world, truthfulFinalize_of_stops .bits sampleGateway 2 hstops, hmessages⟩

end Sample

end Sessions

end Voicetext.Gateway.Server.LiveTransport
