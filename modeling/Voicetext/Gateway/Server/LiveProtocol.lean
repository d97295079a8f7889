import Mathlib.Data.List.Range
import Voicetext.Common.Traces
import Voicetext.Gateway.Server.Live

/-!
# The protocol of a live session

What a session has done is a log of events, and the protocol is the machine which accepts a log: nothing is
sent before the session is open but one error, acknowledgements follow the provider writes they are for, and a
terminal frame is followed by the close alone. The frames of every accepted log are in the order the protocol
promises, and its finalize evidence is truthful.
-/

namespace Voicetext.Gateway.Server.LiveTransport

open Voicetext.Common Voicetext.Speech.Application Voicetext.Gateway.Contracts
open Voicetext.Speech.Domain (RawAudioSequence FinalizeOutcome)

/-- What a session has done: frames it has sent, and calls of its coordinator which have taken effect. -/
inductive LiveEvent (ids : SessionIds)
  | opened
  | sent (message : OutboundServerMessage ids) (json : String)
  | ponged
  | accepted (frame : LiveAudioFrame)
  | written (sequence : RawAudioSequence)
  | begun
  | applied (received : ProviderEvent)
  | completed (status : DomainFinalizeStatus) (result : Except LiveCoordinatorError FinalizeOutcome)
  | closed (normal : Bool)

/-- Where a session is in the protocol. -/
inductive LivePhase
  | preparing
  | opened
  | streaming (accepted written acked : ℕ)
  | draining (acked : ℕ) (observed : Bool)
  | concluded (acked : ℕ) (outcome : FinalizeOutcome)
  | finished (normal : Bool)
  | closed

section Messages

variable {ids : SessionIds}

def isTranscript : OutboundServerMessage ids → Bool
  | .partialSegment _ | .final _ | .segmentFinal _ => true
  | _ => false

def isAck : OutboundServerMessage ids → Bool
  | .ack _ => true
  | _ => false

/-- Whether a message is the last one of a session. -/
def isTerminal : OutboundServerMessage ids → Bool
  | .finalizeComplete .. | .error .. => true
  | _ => false

/-- The messages a log has sent. -/
def messages (log : List (LiveEvent ids)) : List (OutboundServerMessage ids) :=
  log.filterMap fun
    | .sent message _ => some message
    | _ => none

/-- The numbers of the acknowledgements a log has sent. -/
def acks (log : List (LiveEvent ids)) : List ℕ :=
  (messages log).filterMap fun
    | .ack seq => some seq.toNat
    | _ => none

/-- The audio frames which were accepted. -/
def acceptedFrames (log : List (LiveEvent ids)) : List LiveAudioFrame :=
  log.filterMap fun
    | .accepted frame => some frame
    | _ => none

/-- The frames the provider has taken. -/
def writtenFrames (log : List (LiveEvent ids)) : List RawAudioSequence :=
  log.filterMap fun
    | .written sequence => some sequence
    | _ => none

section Append

variable (log log' : List (LiveEvent ids))

theorem messages_append : messages (log ++ log') = messages log ++ messages log' := List.filterMap_append

theorem acks_append : acks (log ++ log') = acks log ++ acks log' := by
  simp only [acks, messages_append, List.filterMap_append]

theorem acceptedFrames_append : acceptedFrames (log ++ log') = acceptedFrames log ++ acceptedFrames log' :=
  List.filterMap_append

theorem writtenFrames_append : writtenFrames (log ++ log') = writtenFrames log ++ writtenFrames log' :=
  List.filterMap_append

end Append

/-- A finalize result was observed after the drain had begun. -/
def ResultObserved (log : List (LiveEvent ids)) : Prop :=
  ∃ start drain, log = start ++ .begun :: drain ∧ .applied (.ok (some .finalizeResultObserved)) ∈ drain

end Messages

section Moves

variable {ids : SessionIds}

/-- The one outcome a drain may conclude with. -/
def truthfulOutcome (acked : ℕ) (observed : Bool) : FinalizeOutcome :=
  ⟨requestedStatus observed (acked ≠ 0), observed⟩

/-- A session which has been told ready and has not ended. -/
inductive LivePhase.Live : LivePhase → Prop
  | streaming {accepted written acked : ℕ} : Live (.streaming accepted written acked)
  | draining {acked : ℕ} {observed : Bool} : Live (.draining acked observed)
  | concluded {acked : ℕ} {outcome : FinalizeOutcome} : Live (.concluded acked outcome)

/-- One event of the protocol. -/
inductive LivePhase.Moves : LivePhase → LiveEvent ids → LivePhase → Prop
  | opens : Moves .preparing .opened .opened
  | refuses {code message json : String} : Moves .preparing (.sent (.error code message) json) (.finished false)
  | readies {sessionId : ids.Uuid} {identity : LiveIdentity} {json : String} :
      Moves .opened (.sent (.ready sessionId identity) json) (.streaming 0 0 0)
  | accepts {accepted written acked : ℕ} {frame : LiveAudioFrame} (hnext : frame.sequence.get = accepted + 1) :
      Moves (.streaming accepted written acked) (.accepted frame) (.streaming (accepted + 1) written acked)
  | writes {accepted written acked : ℕ} {sequence : RawAudioSequence} (hnext : sequence.get = written + 1)
      (haccepted : written < accepted) :
      Moves (.streaming accepted written acked) (.written sequence) (.streaming accepted (written + 1) acked)
  | acknowledges {accepted written acked : ℕ} {seq : UInt64} {json : String} (hnext : seq.toNat = acked + 1)
      (hwritten : acked < written) :
      Moves (.streaming accepted written acked) (.sent (.ack seq) json) (.streaming accepted written (acked + 1))
  | pongs {accepted written acked : ℕ} :
      Moves (.streaming accepted written acked) .ponged (.streaming accepted written acked)
  | applies {accepted written acked : ℕ} {received : ProviderEvent} :
      Moves (.streaming accepted written acked) (.applied received) (.streaming accepted written acked)
  | transcribes {phase : LivePhase} {message : OutboundServerMessage ids} {json : String} (hlive : phase.Live)
      (htranscript : isTranscript message = true) : Moves phase (.sent message json) phase
  | begins {acked : ℕ} : Moves (.streaming acked acked acked) .begun (.draining acked false)
  | drains {acked : ℕ} {seen : Bool} {received : ProviderEvent} :
      Moves (.draining acked seen) (.applied received) (.draining acked (seen || observed received))
  | concludes {acked : ℕ} {seen : Bool} :
      Moves (.draining acked seen)
        (.completed (requestedStatus seen (acked ≠ 0)) (.ok (truthfulOutcome acked seen)))
        (.concluded acked (truthfulOutcome acked seen))
  | finalizes {acked : ℕ} {outcome : FinalizeOutcome} {json : String} :
      Moves (.concluded acked outcome) (.sent (.finalizeComplete (wireStatus outcome.status) outcome.sawResult) json)
        (.finished (wireStatus outcome.status ≠ .timeout))
  | fails {phase : LivePhase} {code message json : String} (hlive : phase.Live) :
      Moves phase (.sent (.error code message) json) (.finished false)
  | abandons {phase : LivePhase} (hopen : phase.Live ∨ phase = .preparing ∨ phase = .opened) :
      Moves phase (.closed false) .closed
  | closes {normal earned : Bool} (hearned : earned = true → normal = true) :
      Moves (.finished normal) (.closed earned) .closed

/-- The protocol accepts a log, which leads to a phase. -/
def LivePhase.Of (log : List (LiveEvent ids)) (phase : LivePhase) : Prop :=
  Accepts LivePhase.Moves .preparing log phase

end Moves

section Counts

variable {ids : SessionIds} {log : List (LiveEvent ids)} {phase : LivePhase}

/-- Frames are accepted, written and acknowledged in the order of their numbers, each after the other. -/
structure Counted (log : List (LiveEvent ids)) (accepted written acked : ℕ) : Prop where
  accepted_eq : (acceptedFrames log).map (·.sequence.get) = List.range' 1 accepted
  written_eq : (writtenFrames log).map (·.get) = List.range' 1 written
  acks_eq : acks log = List.range' 1 acked
  acked_le : acked ≤ written
  written_le : written ≤ accepted

/-- The counts a phase carries. -/
def LivePhase.Counts : LivePhase → ℕ → ℕ → ℕ → Prop
  | .preparing, accepted, written, acked | .opened, accepted, written, acked =>
    accepted = 0 ∧ written = 0 ∧ acked = 0
  | .streaming accepted' written' acked', accepted, written, acked =>
    accepted = accepted' ∧ written = written' ∧ acked = acked'
  | .draining acked' _, accepted, written, acked | .concluded acked' _, accepted, written, acked =>
    accepted = acked' ∧ written = acked' ∧ acked = acked'
  | .finished _, _, _, _ | .closed, _, _, _ => True

/-- An event which neither accepts, writes nor acknowledges a frame. -/
theorem Counted.of_silent {event : LiveEvent ids} {accepted written acked : ℕ} (h : Counted log accepted written acked)
    (haccepted : acceptedFrames [event] = []) (hwritten : writtenFrames [event] = []) (hacks : acks [event] = []) :
    Counted (log ++ [event]) accepted written acked where
  accepted_eq := by
    rw [acceptedFrames_append, haccepted, List.append_nil]
    exact h.accepted_eq
  written_eq := by
    rw [writtenFrames_append, hwritten, List.append_nil]
    exact h.written_eq
  acks_eq := by
    rw [acks_append, hacks, List.append_nil]
    exact h.acks_eq
  acked_le := h.acked_le
  written_le := h.written_le

/-- What an accepted log counts. -/
theorem counted_of (h : phase.Of log) :
    ∃ accepted written acked, Counted log accepted written acked ∧ phase.Counts accepted written acked := by
  refine Accepts.invariant (fun phase log => ∃ accepted written acked, Counted log accepted written acked ∧
    phase.Counts accepted written acked) ⟨0, 0, 0, ⟨rfl, rfl, rfl, le_rfl, le_rfl⟩, rfl, rfl, rfl⟩ ?_ h
  rintro log old event new ⟨accepted, written, acked, hcounted, hcounts⟩ hmove
  cases hmove with
  | opens | readies | pongs | applies | begins | drains | concludes =>
    exact ⟨accepted, written, acked, hcounted.of_silent rfl rfl rfl, hcounts⟩
  | refuses | finalizes | fails | abandons | closes =>
    exact ⟨accepted, written, acked, hcounted.of_silent rfl rfl rfl, trivial⟩
  | @transcribes _ message json _ htranscript =>
    refine ⟨accepted, written, acked, hcounted.of_silent rfl rfl ?_, hcounts⟩
    cases message <;> first | rfl | cases htranscript
  | @accepts _ _ _ frame hnext =>
    obtain ⟨rfl, rfl, rfl⟩ := hcounts
    refine ⟨accepted + 1, written, acked, ?_, rfl, rfl, rfl⟩
    have hframes : (acceptedFrames (log ++ [.accepted frame])).map (·.sequence.get) =
        List.range' 1 accepted ++ [accepted + 1] := by
      rw [acceptedFrames_append, List.map_append, hcounted.accepted_eq, ← hnext]
      rfl
    exact ⟨by rw [hframes, List.range'_1_concat, Nat.add_comm 1],
      by rw [writtenFrames_append]; simpa [writtenFrames] using hcounted.written_eq,
      by rw [acks_append]; simpa [acks, messages] using hcounted.acks_eq, hcounted.acked_le,
      hcounted.written_le.trans (Nat.le_succ _)⟩
  | @writes _ _ _ sequence hnext haccepted =>
    obtain ⟨rfl, rfl, rfl⟩ := hcounts
    refine ⟨accepted, written + 1, acked, ?_, rfl, rfl, rfl⟩
    have hframes : (writtenFrames (log ++ [.written sequence])).map (·.get) =
        List.range' 1 written ++ [written + 1] := by
      rw [writtenFrames_append, List.map_append, hcounted.written_eq, ← hnext]
      rfl
    exact ⟨by rw [acceptedFrames_append]; simpa [acceptedFrames] using hcounted.accepted_eq,
      by rw [hframes, List.range'_1_concat, Nat.add_comm 1],
      by rw [acks_append]; simpa [acks, messages] using hcounted.acks_eq,
      hcounted.acked_le.trans (Nat.le_succ _), haccepted⟩
  | @acknowledges _ _ _ seq json hnext hwritten =>
    obtain ⟨rfl, rfl, rfl⟩ := hcounts
    refine ⟨accepted, written, acked + 1, ?_, rfl, rfl, rfl⟩
    have hacks : acks (log ++ [.sent (.ack seq) json]) = List.range' 1 acked ++ [acked + 1] := by
      rw [acks_append, hcounted.acks_eq, ← hnext]
      rfl
    exact ⟨by rw [acceptedFrames_append]; simpa [acceptedFrames] using hcounted.accepted_eq,
      by rw [writtenFrames_append]; simpa [writtenFrames] using hcounted.written_eq,
      by rw [hacks, List.range'_1_concat, Nat.add_comm 1], hwritten, hcounted.written_le⟩

end Counts

section Order

variable {ids : SessionIds} {log before after : List (LiveEvent ids)} {phase : LivePhase}

/-- Ready comes first, then acknowledgements and transcripts, and then the given frames. -/
def Streamed (log : List (LiveEvent ids)) (last : List (OutboundServerMessage ids)) : Prop :=
  ∃ sessionId identity body, messages log = .ready sessionId identity :: (body ++ last) ∧
    ∀ message ∈ body, isAck message = true ∨ isTranscript message = true

/-- The error a session which was never opened may be refused with. -/
def Refused (log : List (LiveEvent ids)) : Prop :=
  ∃ code message, messages log = [.error code message] ∧ .opened ∉ log

/-- The frames of a log: none, one error before the session was opened, or those of a session which may have
ended with one terminal frame. -/
def Ordered (log : List (LiveEvent ids)) : Prop :=
  messages log = [] ∨ Refused log ∨ Streamed log [] ∨ ∃ last, isTerminal last = true ∧ Streamed log [last]

/-- The frames a phase has come with. -/
def LivePhase.Frames : LivePhase → List (LiveEvent ids) → Prop
  | .preparing, log => log = []
  | .opened, log => messages log = []
  | .streaming .., log | .draining .., log | .concluded .., log => Streamed log []
  | .finished true, log => ∃ status sawResult, Streamed log [.finalizeComplete status sawResult] ∧ status ≠ .timeout
  | .finished false, log => Refused log ∨ ∃ last, isTerminal last = true ∧ Streamed log [last]
  | .closed, log => Ordered log

theorem LivePhase.Live.streamed (hlive : phase.Live) (h : phase.Frames log) : Streamed log [] := by
  cases hlive <;> exact h

/-- A frame which may come before the terminal one. -/
theorem Streamed.snoc (h : Streamed log []) {message : OutboundServerMessage ids} {json : String}
    (hbody : isAck message = true ∨ isTranscript message = true) : Streamed (log ++ [.sent message json]) [] := by
  obtain ⟨sessionId, identity, body, hmessages, hall⟩ := h
  refine ⟨sessionId, identity, body ++ [message], ?_, ?_⟩
  · rw [messages_append, hmessages]
    simp [messages]
  · intro other hother
    rcases List.mem_append.mp hother with hother | hother
    · exact hall other hother
    · rw [List.mem_singleton.mp hother]
      exact hbody

theorem Streamed.last (h : Streamed log []) (message : OutboundServerMessage ids) (json : String) :
    Streamed (log ++ [.sent message json]) [message] := by
  obtain ⟨sessionId, identity, body, hmessages, hall⟩ := h
  refine ⟨sessionId, identity, body, ?_, hall⟩
  rw [messages_append, hmessages]
  simp [messages]

/-- An event which is no frame. -/
theorem Streamed.of_silent {last : List (OutboundServerMessage ids)} (h : Streamed log last) {event : LiveEvent ids}
    (hsilent : messages [event] = []) : Streamed (log ++ [event]) last := by
  obtain ⟨sessionId, identity, body, hmessages, hall⟩ := h
  refine ⟨sessionId, identity, body, ?_, hall⟩
  rw [messages_append, hsilent, List.append_nil, hmessages]

/-- The frames of an accepted log which the close has not ended are in order. -/
theorem LivePhase.Frames.ordered (h : phase.Frames log) : Ordered log := by
  match phase with
  | .preparing => exact .inl (by rw [show log = [] from h]; rfl)
  | .opened => exact .inl h
  | .streaming .. | .draining .. | .concluded .. => exact .inr (.inr (.inl h))
  | .finished true =>
    obtain ⟨status, sawResult, hstreamed, _⟩ := h
    exact .inr (.inr (.inr ⟨_, rfl, hstreamed⟩))
  | .finished false => exact .inr (h.imp id .inr)
  | .closed => exact h

theorem Ordered.closed (h : Ordered log) (earned : Bool) : Ordered (log ++ [.closed earned]) := by
  have hmessages : messages (log ++ [.closed earned]) = messages log := by
    rw [messages_append]
    exact List.append_nil _
  rcases h with h | ⟨code, message, h, hopened⟩ | h | ⟨last, hlast, h⟩
  · exact .inl (hmessages.trans h)
  · exact .inr (.inl ⟨code, message, hmessages.trans h, by simpa using hopened⟩)
  · exact .inr (.inr (.inl (h.of_silent rfl)))
  · exact .inr (.inr (.inr ⟨last, hlast, h.of_silent rfl⟩))

/-- The frames of an accepted log. -/
theorem frames_of (h : phase.Of log) : phase.Frames log := by
  refine Accepts.invariant LivePhase.Frames (show LivePhase.Frames .preparing [] from rfl) ?_ h
  intro log old event new hframes hmove
  cases hmove with
  | opens =>
    obtain rfl : log = [] := hframes
    rfl
  | @refuses code message json =>
    obtain rfl : log = [] := hframes
    exact .inl ⟨code, message, rfl, by simp⟩
  | @readies sessionId identity json =>
    refine ⟨sessionId, identity, [], ?_, by simp⟩
    rw [messages_append, show messages log = [] from hframes]
    rfl
  | accepts | writes | pongs | applies | begins | drains | concludes =>
    exact Streamed.of_silent hframes rfl
  | acknowledges => exact Streamed.snoc hframes (.inl rfl)
  | @transcribes _ message json hlive htranscript =>
    have hstreamed : Streamed (log ++ [.sent message json]) [] :=
      (hlive.streamed hframes).snoc (.inr htranscript)
    cases hlive <;> exact hstreamed
  | @finalizes acked outcome json =>
    have hstreamed := Streamed.last hframes (.finalizeComplete (wireStatus outcome.status) outcome.sawResult) json
    by_cases htimeout : wireStatus outcome.status = .timeout
    · rw [show decide (wireStatus outcome.status ≠ .timeout) = false by simpa using htimeout]
      exact .inr ⟨_, rfl, hstreamed⟩
    · rw [show decide (wireStatus outcome.status ≠ .timeout) = true by simpa using htimeout]
      exact ⟨_, _, hstreamed, htimeout⟩
  | @fails _ code message json hlive => exact .inr ⟨_, rfl, (hlive.streamed hframes).last _ json⟩
  | abandons | closes => exact (LivePhase.Frames.ordered hframes).closed _

/-- A finished session can only be closed. -/
theorem closed_of_finished {normal : Bool} {event : LiveEvent ids} (h : LivePhase.Moves (.finished normal) event phase) :
    ∃ earned, event = .closed earned ∧ phase = .closed ∧ (earned = true → normal = true) := by
  cases h with
  | transcribes hlive | fails hlive => cases hlive
  | abandons hopen => rcases hopen with hopen | hopen | hopen <;> cases hopen
  | closes hearned => exact ⟨_, rfl, rfl, hearned⟩

theorem not_moves_closed {event : LiveEvent ids} : ¬ LivePhase.Moves .closed event phase := by
  intro h
  cases h with
  | transcribes hlive | fails hlive => cases hlive
  | abandons hopen => rcases hopen with hopen | hopen | hopen <;> cases hopen

/-- Nothing but the close follows a terminal frame. -/
theorem close_of_finished {normal : Bool} (h : Accepts LivePhase.Moves (.finished normal) after phase) :
    after = [] ∨ ∃ earned, after = [.closed earned] := by
  cases h with
  | nil => exact .inl rfl
  | cons hmove hrest =>
    obtain ⟨earned, rfl, rfl, _⟩ := closed_of_finished hmove
    cases hrest with
    | nil => exact .inr ⟨earned, rfl⟩
    | cons hmove _ => exact absurd hmove not_moves_closed

/-- The order of the wire protocol: which frames there are, what each acknowledgement follows, that nothing but
the close follows a terminal frame, and what a normal closure is earned by. -/
structure WireOrder (log : List (LiveEvent ids)) : Prop where
  frames : Ordered log
  acks_eq : ∃ count, acks log = List.range' 1 count
  acknowledged : ∀ before seq json after, log = before ++ .sent (.ack seq) json :: after →
    .written ⟨seq.toNat⟩ ∈ before ∧
      ∃ frame, (acceptedFrames before)[seq.toNat - 1]? = some frame ∧ frame.sequence = ⟨seq.toNat⟩
  ending : ∀ before message json after, log = before ++ .sent message json :: after → isTerminal message = true →
    after = [] ∨ ∃ earned, after = [.closed earned]
  earned : ∀ before after, log = before ++ .closed true :: after →
    ∃ status sawResult json, .sent (.finalizeComplete status sawResult) json ∈ before ∧
      (status = .flushed ∨ status = .noProvider)

/-- A message is sent by an event of its log. -/
theorem exists_sent {message : OutboundServerMessage ids} (h : message ∈ messages log) :
    ∃ json, .sent message json ∈ log := by
  obtain ⟨event, hevent, hmessage⟩ := List.mem_filterMap.mp h
  cases event <;> cases hmessage
  exact ⟨_, hevent⟩

/-- What a phase in which frames are acknowledged has counted. -/
theorem Counted.acknowledged {accepted written acked : ℕ} (h : Counted log accepted written acked) {seq : ℕ}
    (hpos : 1 ≤ seq) (hle : seq ≤ written) :
    .written ⟨seq⟩ ∈ log ∧ ∃ frame, (acceptedFrames log)[seq - 1]? = some frame ∧ frame.sequence = ⟨seq⟩ := by
  constructor
  · have hmem : seq ∈ (writtenFrames log).map (·.get) := by
      rw [h.written_eq, List.mem_range'_1]
      omega
    obtain ⟨sequence, hsequence, rfl⟩ := List.mem_map.mp hmem
    obtain ⟨event, hevent, hwritten⟩ := List.mem_filterMap.mp hsequence
    cases event <;> cases hwritten
    exact hevent
  · have hget : ((acceptedFrames log).map (·.sequence.get))[seq - 1]? = some seq := by
      have hlt : seq - 1 < accepted := by have hbound := h.written_le; omega
      rw [h.accepted_eq, List.getElem?_range' hlt]
      congr 1
      omega
    rw [List.getElem?_map] at hget
    obtain ⟨frame, hframe, hseq⟩ := Option.map_eq_some_iff.mp hget
    exact ⟨frame, hframe, by rw [← hseq]⟩

/-- The protocol keeps its order. -/
theorem wireOrder_of (h : phase.Of log) : WireOrder log where
  frames := (frames_of h).ordered
  acks_eq := by
    obtain ⟨_, _, acked, hcounted, _⟩ := counted_of h
    exact ⟨acked, hcounted.acks_eq⟩
  acknowledged := by
    rintro before seq json after rfl
    obtain ⟨old, new, hold, hmove, _⟩ := Accepts.split h
    obtain ⟨accepted, written, acked, hcounted, hcounts⟩ := counted_of hold
    cases hmove with
    | acknowledges hnext hwritten =>
      obtain ⟨rfl, rfl, rfl⟩ := hcounts
      exact hcounted.acknowledged (by omega) (by omega)
    | transcribes _ htranscript => cases htranscript
  ending := by
    rintro before message json after rfl hterminal
    obtain ⟨old, new, _, hmove, hafter⟩ := Accepts.split h
    cases hmove with
    | refuses | finalizes | fails => exact close_of_finished hafter
    | readies | acknowledges => cases hterminal
    | transcribes _ htranscript => cases message <;> simp [isTerminal, isTranscript] at hterminal htranscript
  earned := by
    rintro before after rfl
    obtain ⟨old, new, hold, hmove, _⟩ := Accepts.split h
    cases hmove with
    | @closes normal _ hearned =>
      obtain rfl := hearned rfl
      obtain ⟨status, sawResult, ⟨sessionId, identity, body, hmessages, _⟩, hstatus⟩ := frames_of hold
      have hcomplete : .finalizeComplete status sawResult ∈ messages before := by simp [hmessages]
      obtain ⟨json, hsent⟩ := exists_sent hcomplete
      exact ⟨status, sawResult, json, hsent, by cases status <;> simp_all⟩

end Order

section Evidence

variable {ids : SessionIds} {log before after : List (LiveEvent ids)} {phase : LivePhase}

/-- A result is observed by applying its evidence after the drain has begun. -/
theorem resultObserved_snoc {event : LiveEvent ids} : ResultObserved (log ++ [event]) ↔
    ResultObserved log ∨ .begun ∈ log ∧ event = .applied (.ok (some .finalizeResultObserved)) := by
  constructor
  · rintro ⟨start, drain, hlog, hmem⟩
    rcases List.eq_nil_or_concat drain with rfl | ⟨rest, last, rfl⟩
    · cases hmem
    · rw [List.concat_eq_append, ← List.cons_append, ← List.append_assoc] at hlog
      obtain ⟨rfl, hlast⟩ := List.append_inj' hlog rfl
      obtain rfl := List.cons.inj hlast |>.1
      rw [List.concat_eq_append, List.mem_append, List.mem_singleton] at hmem
      rcases hmem with hmem | hmem
      · exact .inl ⟨start, rest, rfl, hmem⟩
      · exact .inr ⟨by simp, hmem.symm⟩
  · rintro (⟨start, drain, rfl, hmem⟩ | ⟨hbegun, rfl⟩)
    · exact ⟨start, drain ++ [event], by simp, List.mem_append_left _ hmem⟩
    · obtain ⟨start, drain, rfl⟩ := List.append_of_mem hbegun
      exact ⟨start, drain ++ [.applied (.ok (some .finalizeResultObserved))], by simp, by simp⟩

theorem observed_eq_true {received : ProviderEvent} :
    observed received = true ↔ received = .ok (some .finalizeResultObserved) := by
  match received with
  | .error _ | .ok none | .ok (some (.transcript _)) | .ok (some (.utteranceEnd _)) => simp [observed]
  | .ok (some .finalizeResultObserved) => simp [observed]

/-- What a phase knows of the evidence. -/
def LivePhase.Evidence : LivePhase → List (LiveEvent ids) → Prop
  | .preparing, log | .opened, log | .streaming .., log => .begun ∉ log
  | .draining _ seen, log => .begun ∈ log ∧ (seen = true ↔ ResultObserved log)
  | .concluded acked outcome, log => ∃ seen, outcome = truthfulOutcome acked seen ∧ (seen = true ↔ ResultObserved log)
  | .finished _, _ | .closed, _ => True

theorem evidence_of (h : phase.Of log) : phase.Evidence log := by
  refine Accepts.invariant LivePhase.Evidence
    (show LivePhase.Evidence .preparing [] from List.not_mem_nil) ?_ h
  intro log old event new hevidence hmove
  cases hmove with
  | refuses | finalizes | fails | abandons | closes => trivial
  | opens | readies | accepts | writes | acknowledges | pongs | applies =>
    have hbegun : .begun ∉ log := hevidence
    simpa [LivePhase.Evidence] using hbegun
  | transcribes hlive _ =>
    cases hlive with
    | streaming =>
      have hbegun : .begun ∉ log := hevidence
      simpa [LivePhase.Evidence] using hbegun
    | draining =>
      obtain ⟨hbegun, hseen⟩ := hevidence
      exact ⟨List.mem_append_left _ hbegun, hseen.trans (by simp [resultObserved_snoc])⟩
    | concluded =>
      obtain ⟨seen, houtcome, hseen⟩ := hevidence
      exact ⟨seen, houtcome, hseen.trans (by simp [resultObserved_snoc])⟩
  | begins =>
    have hbegun : .begun ∉ log := hevidence
    refine ⟨List.mem_append_right _ (List.mem_singleton_self _), by simp, fun hobserved => ?_⟩
    obtain ⟨start, drain, rfl, _⟩ | ⟨_, hevent⟩ := resultObserved_snoc.mp hobserved
    · exact absurd (by simp) hbegun
    · cases hevent
  | @drains acked seen received =>
    obtain ⟨hbegun, hseen⟩ := hevidence
    refine ⟨List.mem_append_left _ hbegun, ?_⟩
    rw [resultObserved_snoc, Bool.or_eq_true, hseen, observed_eq_true]
    simp [hbegun]
  | @concludes acked seen =>
    obtain ⟨_, hseen⟩ := hevidence
    exact ⟨seen, rfl, hseen.trans (by simp [resultObserved_snoc])⟩

/-- A finalize status which tells what has happened. -/
structure Truthful (log : List (LiveEvent ids)) (status : FinalizeStatus) (sawResult : Bool) : Prop where
  flushed : status = .flushed ↔ ResultObserved log
  timeout : status = .timeout ↔ ¬ ResultObserved log ∧ acceptedFrames log ≠ []
  noProvider : status = .noProvider ↔ ¬ ResultObserved log ∧ acceptedFrames log = []
  saw : sawResult = true ↔ status = .flushed

/-- The outcome of a drain is truthful. -/
theorem truthful_of_outcome {acked : ℕ} {seen : Bool} (hseen : seen = true ↔ ResultObserved log)
    (haccepted : acceptedFrames log = [] ↔ acked = 0) :
    Truthful log (wireStatus (truthfulOutcome acked seen).status) (truthfulOutcome acked seen).sawResult := by
  cases seen with
  | true =>
    have hobserved : ResultObserved log := hseen.mp rfl
    constructor <;> simp [truthfulOutcome, requestedStatus, wireStatus, hobserved]
  | false =>
    have hobserved : ¬ ResultObserved log := fun h => by simpa using hseen.mpr h
    by_cases hacked : acked = 0
    · constructor <;> simp [truthfulOutcome, requestedStatus, wireStatus, hobserved, haccepted, hacked]
    · constructor <;> simp [truthfulOutcome, requestedStatus, wireStatus, hobserved, haccepted, hacked]

/-- The evidence of a session's drain: completing it never fails, its status is truthful and can be written. -/
structure TruthfulFinalize (numbers : WireNumbers) (log : List (LiveEvent ids)) : Prop where
  completed : ∀ before requested result after, log = before ++ .completed requested result :: after →
    ∃ outcome, result = .ok outcome ∧ Truthful before (wireStatus outcome.status) outcome.sawResult ∧
      ∃ json, LiveOutbound.serializeServerMessage numbers
        (.finalizeComplete (wireStatus outcome.status) outcome.sawResult : OutboundServerMessage ids) = .ok json
  sent : ∀ before status sawResult json after,
    log = before ++ .sent (.finalizeComplete status sawResult) json :: after → Truthful before status sawResult

/-- A truthful status is never inconsistent with its evidence. -/
theorem serializes_finalizeComplete (numbers : WireNumbers) (acked : ℕ) (seen : Bool) :
    ∃ json, LiveOutbound.serializeServerMessage numbers
      (.finalizeComplete (wireStatus (truthfulOutcome acked seen).status) (truthfulOutcome acked seen).sawResult :
        OutboundServerMessage ids) = .ok json := by
  refine ⟨_, bind_eq_ok.mpr ⟨_, require_bind_eq_ok.mpr ⟨?_, rfl⟩, rfl⟩⟩
  cases seen with
  | true => simp [truthfulOutcome, requestedStatus, wireStatus]
  | false => by_cases hacked : acked = 0 <;> simp [truthfulOutcome, requestedStatus, wireStatus, hacked]

theorem Counted.acceptedFrames_eq_nil {accepted written acked : ℕ} (h : Counted log accepted written acked) :
    acceptedFrames log = [] ↔ accepted = 0 := by
  have hlength := congrArg List.length h.accepted_eq
  rw [List.length_map, List.length_range'] at hlength
  rw [← List.length_eq_zero_iff, hlength]

/-- The protocol concludes truthfully. -/
theorem truthfulFinalize_of (numbers : WireNumbers) (h : phase.Of log) : TruthfulFinalize numbers log where
  completed := by
    rintro before requested result after rfl
    obtain ⟨old, new, hold, hmove, _⟩ := Accepts.split h
    cases hmove with
    | @concludes acked seen =>
      obtain ⟨_, hseen⟩ := evidence_of hold
      obtain ⟨_, _, _, hcounted, rfl, _, _⟩ := counted_of hold
      exact ⟨_, rfl, truthful_of_outcome hseen hcounted.acceptedFrames_eq_nil, serializes_finalizeComplete _ _ _⟩
  sent := by
    rintro before status sawResult json after rfl
    obtain ⟨old, new, hold, hmove, _⟩ := Accepts.split h
    cases hmove with
    | @finalizes acked outcome =>
      obtain ⟨seen, rfl, hseen⟩ := evidence_of hold
      obtain ⟨_, _, _, hcounted, rfl, _, _⟩ := counted_of hold
      exact truthful_of_outcome hseen hcounted.acceptedFrames_eq_nil
    | transcribes _ htranscript => cases htranscript

end Evidence

end Voicetext.Gateway.Server.LiveTransport
