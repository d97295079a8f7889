import Voicetext.Common.Cancellation
import Voicetext.Providers.ElevenLabs.LiveState
import Voicetext.Providers.Socket

/-!
# Reading events from the realtime socket

The stream and the state have locks of their own. A text message is taken off the stream first and
the state is locked next, so a read dropped at that lock takes a message the state never sees. The
state keeps, beside itself, the operations it has performed.
-/

namespace Voicetext.Providers.ElevenLabs

open Voicetext.Common Voicetext.Speech.Application

/-- What the session's state performs: a write recorded, finalization begun or undone, a message. -/
inductive LiveOperation
  | recordAudio (bytes : ℕ)
  | beginFinalize
  | cancelFinalize
  | message (message : ParsedLiveMessage)

structure LiveSession where
  reader : List Incoming
  state : LiveState
  performed : List LiveOperation

/-- Where `next_event` awaits; the failures and the message are what it has in hand there. -/
inductive NextEventPoint
  | stateLockForPending
  | readerLock
  | nextMessage (ignored : ℕ)
  | stateLockForUnknown (code : String)
  | stateLockForTerminal (code : String)
  | stateLockForMessage (message : ParsedLiveMessage) (ignored : ℕ)
  | writerLock (payload : List UInt8) (ignored : ℕ)
  | sendPong (payload : List UInt8) (ignored : ℕ)
  | yieldNow

def unknown (code : String) (reference : Option ProviderReference) : RecognitionFailure :=
  .unknownAfterSend code reference

def knownTerminal (code : String) (reference : Option ProviderReference) : RecognitionFailure :=
  .knownAcceptedTerminal code reference

/-- Count a message without an event and go on reading, through the scheduler now and then. -/
def keepReading (ignored : ℕ) : NextEventPoint :=
  if ignored + 1 = MAX_IGNORED_MESSAGES_BEFORE_YIELD then .yieldNow else .nextMessage (ignored + 1)

/-- Where a read goes with an item it has taken off the stream. -/
def handleIncoming (floats : FloatText) (ignored : ℕ) : Incoming → NextEventPoint
  | some (.error .capacity) => .stateLockForUnknown "ELEVENLABS_LIVE_RESPONSE_TOO_LARGE"
  | none | some (.error _) => .stateLockForUnknown "ELEVENLABS_LIVE_READ_FAILED"
  | some (.ok (.text payload)) =>
    match parseText floats payload with
    | .error failure => .stateLockForUnknown failure.code
    | .ok (.terminalError code) => .stateLockForTerminal code
    | .ok message => .stateLockForMessage message ignored
  | some (.ok (.ping payload)) => .writerLock payload ignored
  | some (.ok (.pong _)) => keepReading ignored
  | some (.ok .close) => .stateLockForUnknown "ELEVENLABS_LIVE_CLOSED"
  | some (.ok (.binary _)) | some (.ok .frame) =>
    .stateLockForUnknown "ELEVENLABS_LIVE_MALFORMED_RESPONSE"

/-- `next_event_inner`, one await at a time; the answer says whether a pong could be sent. -/
def nextEvent (floats : FloatText) (tables : UnicodeTables) :
    AwaitingCall LiveSession NextEventPoint Bool NextEventResult where
  start := .stateLockForPending
  poll session point sent :=
    match point with
    | .stateLockForPending =>
      match session.state.popPending with
      | (state, some event) => ({ session with state }, .inr (.ok (some event)))
      | (state, none) => ({ session with state }, .inl .readerLock)
    | .readerLock => (session, .inl (.nextMessage 0))
    | .nextMessage ignored =>
      match takeNext session.reader with
      | none => (session, .inl (.nextMessage ignored))
      | some (item, rest) => ({ session with reader := rest }, .inl (handleIncoming floats ignored item))
    | .stateLockForUnknown code =>
      (session, .inr (.error (unknown code session.state.providerReference)))
    | .stateLockForTerminal code =>
      (session, .inr (.error (knownTerminal code session.state.providerReference)))
    | .stateLockForMessage message ignored =>
      let (state, event) := session.state.apply tables message
      let session := { session with state, performed := session.performed ++ [.message message] }
      match event with
      | some event => (session, .inr (.ok (some event)))
      | none => (session, .inl (keepReading ignored))
    | .writerLock payload ignored => (session, .inl (.sendPong payload ignored))
    | .sendPong _ ignored =>
      if sent then (session, .inl (keepReading ignored))
      else (session, .inr (.error (unknown "ELEVENLABS_LIVE_PONG_FAILED" none)))
    | .yieldNow => (session, .inl (.nextMessage 0))

/-- What else happens to a session: a message arrives, or another task locks the state. -/
inductive SessionEvent
  | arrive (item : Incoming)
  | recordAudio (bytes : ℕ)
  | beginFinalize
  | cancelFinalize

/-- The operation an event has the state perform. -/
def SessionEvent.operation : SessionEvent → Option LiveOperation
  | .arrive _ => none
  | .recordAudio bytes => some (.recordAudio bytes)
  | .beginFinalize => some .beginFinalize
  | .cancelFinalize => some .cancelFinalize

def LiveSession.occur (session : LiveSession) : SessionEvent → LiveSession
  | .arrive item => { session with reader := session.reader ++ [item] }
  | .recordAudio bytes =>
    { session with
      state := session.state.recordAudio bytes
      performed := session.performed ++ [.recordAudio bytes] }
  | .beginFinalize =>
    { session with
      state := session.state.beginFinalize
      performed := session.performed ++ [.beginFinalize] }
  | .cancelFinalize =>
    { session with
      state := session.state.cancelFinalize
      performed := session.performed ++ [.cancelFinalize] }

/-- A session just opened. -/
def LiveSession.new (sampleRateHz : UInt32) (providerReference : Option ProviderReference) : LiveSession :=
  ⟨[], .new sampleRateHz providerReference, []⟩

/-- A message unless it is one to ignore. -/
def ParsedLiveMessage.relevant : ParsedLiveMessage → Option ParsedLiveMessage
  | .ignore => none
  | parsed => some parsed

/-- The message of an item that matters to the state. -/
def messageOf (floats : FloatText) : Incoming → Option ParsedLiveMessage
  | some (.ok (.text payload)) =>
    match parseText floats payload with
    | .error _ | .ok (.terminalError _) => none
    | .ok parsed => parsed.relevant
  | _ => none

/-- The message an operation performs. -/
def LiveOperation.message? : LiveOperation → Option ParsedLiveMessage
  | .message parsed => parsed.relevant
  | _ => none

/-- An operation of another task. -/
def LiveOperation.other? : LiveOperation → Option LiveOperation
  | .message _ => none
  | operation => some operation

/-- The item an event brings. -/
def SessionEvent.item? : SessionEvent → Option Incoming
  | .arrive item => some item
  | _ => none

/-- The message a suspended read has taken off the stream but not given to the state. -/
def NextEventPoint.inHand : NextEventPoint → Option ParsedLiveMessage
  | .stateLockForMessage parsed _ => parsed.relevant
  | _ => none

/-- Perform one operation on a state without queued events; what it queues is due after what it returns. -/
def LiveState.perform (tables : UnicodeTables) (state : LiveState) :
    LiveOperation → LiveState × List LiveRecognitionEvent
  | .recordAudio bytes => (state.recordAudio bytes, [])
  | .beginFinalize => (state.beginFinalize, [])
  | .cancelFinalize => (state.cancelFinalize, [])
  | .message parsed =>
    let (state, event) := state.apply tables parsed
    ({ state with pending := [] }, event.toList ++ state.pending)

/-- The state after these operations and the events a reader which is never dropped returns for them. -/
def undisturbed (tables : UnicodeTables) (start : LiveState) (operations : List LiveOperation) :
    LiveState × List LiveRecognitionEvent :=
  operations.foldl (fun (state, events) operation =>
    let (state, due) := state.perform tables operation
    (state, events ++ due)) (start, [])

theorem undisturbed_append (tables : UnicodeTables) (start : LiveState) (operations : List LiveOperation)
    (operation : LiveOperation) :
    undisturbed tables start (operations ++ [operation]) =
      (((undisturbed tables start operations).1.perform tables operation).1,
        (undisturbed tables start operations).2 ++
          ((undisturbed tables start operations).1.perform tables operation).2) := by
  simp [undisturbed]

/-- A message that returns no event queues none. -/
theorem LiveState.apply_pending {tables : UnicodeTables} {state : LiveState} {parsed : ParsedLiveMessage}
    (h : (state.apply tables parsed).2 = none) :
    (state.apply tables parsed).1.pending = state.pending := by
  cases parsed with
  | sessionStarted reference => cases reference <;> rfl
  | terminalError code => rfl
  | ignore => rfl
  | transcript kind text confidence =>
    cases kind with
    | partial_ => rfl
    | segmentFinal =>
      simp only [apply, LiveState.transcript, segmentFinal] at h ⊢
      split <;> rfl
    | utteranceFinal =>
      simp only [apply, LiveState.transcript, utteranceFinal] at h ⊢
      split
      · split <;> simp_all
      · rfl

@[simp] theorem inHand_keepReading (ignored : ℕ) : (keepReading ignored).inHand = none := by
  unfold keepReading
  split <;> rfl

/-- A read leaves the stream with the message of the item it took. -/
theorem inHand_handleIncoming (floats : FloatText) (ignored : ℕ) (item : Incoming) :
    (handleIncoming floats ignored item).inHand = messageOf floats item := by
  rcases item with _ | error | received
  · rfl
  · cases error <;> rfl
  · cases received with
    | text payload =>
      cases hparse : parseText floats payload with
      | error failure => simp [handleIncoming, messageOf, hparse, NextEventPoint.inHand]
      | ok parsed => cases parsed <;> simp [handleIncoming, messageOf, hparse, NextEventPoint.inHand]
    | pong payload => exact inHand_keepReading ignored
    | ping payload => rfl
    | binary payload => rfl
    | close => rfl
    | frame => rfl

/-- The state is what the operations performed make of it, their events are returned or queued, and
every message that arrived was performed, is in hand or is still unread. -/
structure Lossless (floats : FloatText) (tables : UnicodeTables) (start : LiveState)
    (events : List SessionEvent) (results : List NextEventResult)
    (s : CallState LiveSession NextEventPoint) : Prop where
  state : { s.state.state with pending := [] } = (undisturbed tables start s.state.performed).1
  returned : returnedEvents results ++ s.state.state.pending =
    (undisturbed tables start s.state.performed).2
  messages : s.state.performed.filterMap LiveOperation.message? ++
      (s.suspended.bind NextEventPoint.inHand).toList ++ s.state.reader.filterMap (messageOf floats) =
    (events.filterMap SessionEvent.item?).filterMap (messageOf floats)
  others : s.state.performed.filterMap LiveOperation.other? = events.filterMap SessionEvent.operation
  pending : ∀ point, s.suspended = some point → point ≠ .stateLockForPending → s.state.state.pending = []

namespace Lossless

variable {floats : FloatText} {tables : UnicodeTables} {start : LiveState} {events : List SessionEvent}
  {results : List NextEventResult} {session : LiveSession} {point : NextEventPoint}

/-- An await passed with nothing new in hand changes nothing. -/
theorem pass {next : NextEventPoint} (h : Lossless floats tables start events results ⟨session, some point⟩)
    (hpoint : point ≠ .stateLockForPending) (hhand : next.inHand = point.inHand) :
    Lossless floats tables start events results ⟨session, some next⟩ :=
  { h with
    messages := by simpa [hhand] using h.messages
    pending := fun _ _ _ => h.pending _ rfl hpoint }

/-- A call that fails with nothing in hand changes nothing. -/
theorem fail {failure : RecognitionFailure}
    (h : Lossless floats tables start events results ⟨session, some point⟩) (hhand : point.inHand = none) :
    Lossless floats tables start events (results ++ [.error failure]) ⟨session, none⟩ :=
  { h with
    returned := by simpa using h.returned
    messages := by simpa [hhand] using h.messages
    pending := by simp }

/-- A message taken off the stream is in hand. -/
theorem take {ignored : ℕ} {item : Incoming} {rest : List Incoming}
    (h : Lossless floats tables start events results ⟨session, some (.nextMessage ignored)⟩)
    (htake : takeNext session.reader = some (item, rest)) :
    Lossless floats tables start events results
      ⟨{ session with reader := rest }, some (handleIncoming floats ignored item)⟩ := by
  have hreader : session.reader.filterMap (messageOf floats) =
      (messageOf floats item).toList ++ rest.filterMap (messageOf floats) := by
    rcases takeNext_cases htake with heq | ⟨rfl, heq⟩
    · rw [heq]
      cases hmessage : messageOf floats item <;> simp [hmessage]
    · rw [heq]
      rfl
  refine { h with messages := ?_, pending := fun _ _ _ => h.pending _ rfl (by simp) }
  have hnone : (NextEventPoint.nextMessage ignored).inHand = none := rfl
  simpa [hreader, inHand_handleIncoming, hnone] using h.messages

/-- The state gets the message in hand. -/
theorem performMessage {parsed : ParsedLiveMessage} {ignored : ℕ}
    (h : Lossless floats tables start events results ⟨session, some (.stateLockForMessage parsed ignored)⟩) :
    { (session.state.apply tables parsed).1 with pending := [] } =
        (undisturbed tables start (session.performed ++ [LiveOperation.message parsed])).1 ∧
      returnedEvents results ++ ((session.state.apply tables parsed).2.toList ++
          (session.state.apply tables parsed).1.pending) =
        (undisturbed tables start (session.performed ++ [LiveOperation.message parsed])).2 ∧
      (session.performed ++ [LiveOperation.message parsed]).filterMap LiveOperation.message? ++
          session.reader.filterMap (messageOf floats) =
        (events.filterMap SessionEvent.item?).filterMap (messageOf floats) ∧
      (session.performed ++ [LiveOperation.message parsed]).filterMap LiveOperation.other? =
        events.filterMap SessionEvent.operation := by
  have hempty : session.state.pending = [] := h.pending _ rfl (by simp)
  have hstate : session.state = (undisturbed tables start session.performed).1 := by
    rw [← h.state, ← hempty]
  have hreturned : returnedEvents results = (undisturbed tables start session.performed).2 := by
    simpa [hempty] using h.returned
  refine ⟨?_, ?_, ?_, ?_⟩
  · rw [undisturbed_append, ← hstate]
    rfl
  · rw [undisturbed_append, ← hstate, ← hreturned]
    rfl
  · have hmessages := h.messages
    cases hrelevant : parsed.relevant <;>
      simpa [NextEventPoint.inHand, LiveOperation.message?, List.filterMap_cons, hrelevant] using hmessages
  · simpa [LiveOperation.other?, List.filterMap_cons] using h.others

/-- Another task's operation has no events. -/
theorem occur {s : CallState LiveSession NextEventPoint} (h : Lossless floats tables start events results s)
    (event : SessionEvent) :
    Lossless floats tables start (events ++ [event]) results { s with state := s.state.occur event } := by
  cases event with
  | arrive item =>
    refine { h with messages := ?_, others := ?_ }
    · simp only [LiveSession.occur, List.filterMap_append]
      rw [← List.append_assoc, h.messages]
      rfl
    · simpa [LiveSession.occur, SessionEvent.operation, List.filterMap_cons] using h.others
  | recordAudio bytes | beginFinalize | cancelFinalize =>
    refine ⟨?_, ?_, ?_, ?_, h.pending⟩
    · simp only [LiveSession.occur, undisturbed_append, ← h.state]
      rfl
    · simpa [LiveSession.occur, undisturbed_append, LiveState.perform, LiveState.recordAudio,
        LiveState.beginFinalize, LiveState.cancelFinalize] using h.returned
    · simpa [LiveSession.occur, LiveOperation.message?, SessionEvent.item?, List.filterMap_cons] using h.messages
    · simp [LiveSession.occur, LiveOperation.other?, SessionEvent.operation, h.others]

/-- A poll that suspends again keeps the account. -/
theorem await {sent : Bool} {session' : LiveSession} {next : NextEventPoint}
    (h : Lossless floats tables start events results ⟨session, some point⟩)
    (hpoll : (nextEvent floats tables).poll session point sent = (session', .inl next)) :
    Lossless floats tables start events results ⟨session', some next⟩ := by
  cases point with
  | stateLockForPending =>
    simp only [nextEvent, LiveState.popPending] at hpoll
    split at hpoll
    · cases hpoll
    · rename_i state hpop
      obtain ⟨rfl, hempty⟩ := Prod.mk.injEq .. ▸ hpop
      cases hpoll
      have hnothing : session.state.pending = [] := by simpa using hempty
      exact { h with
        state := by simpa [hnothing] using h.state
        returned := by simpa [hnothing] using h.returned
        pending := by simp [hnothing] }
  | readerLock =>
    cases hpoll
    exact h.pass (by simp) rfl
  | nextMessage ignored =>
    simp only [nextEvent] at hpoll
    split at hpoll
    · cases hpoll
      exact h
    · cases hpoll
      exact h.take ‹_›
  | stateLockForUnknown code => cases hpoll
  | stateLockForTerminal code => cases hpoll
  | stateLockForMessage parsed ignored =>
    obtain ⟨hstate, hreturned, hmessages, hothers⟩ := h.performMessage
    simp only [nextEvent] at hpoll
    split at hpoll
    · cases hpoll
    · rename_i hevent
      cases hpoll
      have hempty : (session.state.apply tables parsed).1.pending = [] :=
        (LiveState.apply_pending hevent).trans (h.pending _ rfl (by simp))
      refine ⟨hstate, ?_, ?_, hothers, fun _ _ _ => hempty⟩
      · simpa [hevent] using hreturned
      · simpa using hmessages
  | writerLock payload ignored =>
    cases hpoll
    exact h.pass (by simp) rfl
  | sendPong payload ignored =>
    simp only [nextEvent] at hpoll
    split at hpoll
    · cases hpoll
      exact h.pass (by simp) (inHand_keepReading ignored)
    · cases hpoll
  | yieldNow =>
    cases hpoll
    exact h.pass (by simp) rfl

/-- A poll that completes the read keeps the account. -/
theorem complete {sent : Bool} {session' : LiveSession} {result : NextEventResult}
    (h : Lossless floats tables start events results ⟨session, some point⟩)
    (hpoll : (nextEvent floats tables).poll session point sent = (session', .inr result)) :
    Lossless floats tables start events (results ++ [result]) ⟨session', none⟩ := by
  cases point with
  | stateLockForPending =>
    simp only [nextEvent, LiveState.popPending] at hpoll
    split at hpoll
    · rename_i state event hpop
      obtain ⟨rfl, hhead⟩ := Prod.mk.injEq .. ▸ hpop
      cases hpoll
      obtain ⟨rest, hpending⟩ : ∃ rest, session.state.pending = event :: rest := by
        cases hqueue : session.state.pending <;> simp_all
      exact { h with
        returned := by simpa [hpending] using h.returned
        pending := by simp }
    · cases hpoll
  | readerLock => cases hpoll
  | nextMessage ignored =>
    simp only [nextEvent] at hpoll
    split at hpoll <;> cases hpoll
  | stateLockForUnknown code =>
    cases hpoll
    exact h.fail rfl
  | stateLockForTerminal code =>
    cases hpoll
    exact h.fail rfl
  | stateLockForMessage parsed ignored =>
    obtain ⟨hstate, hreturned, hmessages, hothers⟩ := h.performMessage
    simp only [nextEvent] at hpoll
    split at hpoll
    · rename_i event hevent
      cases hpoll
      refine ⟨hstate, ?_, ?_, hothers, by simp⟩
      · simpa [hevent] using hreturned
      · simpa using hmessages
    · cases hpoll
  | writerLock payload ignored => cases hpoll
  | sendPong payload ignored =>
    simp only [nextEvent] at hpoll
    split at hpoll
    · cases hpoll
    · cases hpoll
      exact h.fail rfl
  | yieldNow => cases hpoll

end Lossless

/-- Reads that are never dropped with a message in hand return exactly the events of the messages, in
order: a message is performed, in hand or still unread, and an event is returned or queued. -/
theorem nextEvent_lossless {floats : FloatText} {tables : UnicodeTables} {sampleRateHz : UInt32}
    {reference : Option ProviderReference}
    {history : List (CallInput SessionEvent Bool × Option NextEventResult)}
    {s : CallState LiveSession NextEventPoint}
    (hrun : Runs ((nextEvent floats tables).step LiveSession.occur) ⟨.new sampleRateHz reference, none⟩
      history s)
    (hdropped : ∀ point ∈ (nextEvent floats tables).droppedPoints LiveSession.occur
      ⟨.new sampleRateHz reference, none⟩ (history.map Prod.fst), point.inHand = none) :
    Lossless floats tables (.new sampleRateHz reference) (AwaitingCall.environmentEvents history)
      (AwaitingCall.results history) s := by
  refine AwaitingCall.invariant (fun point => point.inHand = none)
    (Lossless floats tables (.new sampleRateHz reference)) ?_ ?_ ?_ ?_ ?_ ?_ hrun hdropped
  · exact ⟨rfl, rfl, rfl, rfl, by simp⟩
  · intro events results s event h
    exact h.occur event
  · intro events results session h
    exact { h with pending := by simp [nextEvent] }
  · exact fun _ _ _ _ _ _ _ h hpoll => h.await hpoll
  · exact fun _ _ _ _ _ _ _ h hpoll => h.complete hpoll
  · intro events results session point hharmless h
    exact { h with
      messages := by simpa [hharmless] using h.messages
      pending := by simp }

end Voicetext.Providers.ElevenLabs
