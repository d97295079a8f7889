import Voicetext.Common.Cancellation
import Voicetext.Providers.Deepgram.LiveDto
import Voicetext.Providers.Socket

/-!
# Reading events from the transcription socket

One lock holds the stream, the queued follow-up and the provider reference, so nothing is awaited
between taking a message off the stream and returning or queueing its events.
-/

namespace Voicetext.Providers.Deepgram

open Voicetext.Common Voicetext.Speech.Application

structure ReadState where
  reader : List Incoming
  pending : List LiveRecognitionEvent
  providerReference : Option ProviderReference

/-- Where `next_event` awaits: the lock, the next message, or the scheduler. -/
inductive NextEventPoint
  | readerLock
  | nextMessage (ignored : ℕ)
  | yieldNow
deriving DecidableEq

def unknown (code : String) (reference : Option ProviderReference) : RecognitionFailure :=
  .unknownAfterSend code reference

def knownTerminal (code : String) (reference : Option ProviderReference) : RecognitionFailure :=
  .knownAcceptedTerminal code reference

/-- Count a message without an event and go on reading, through the scheduler now and then. -/
def keepReading (ignored : ℕ) : NextEventPoint :=
  if ignored + 1 = MAX_IGNORED_MESSAGES_BEFORE_YIELD then .yieldNow else .nextMessage (ignored + 1)

/-- Handle one item taken off the stream. -/
def handleIncoming (floats : FloatText) (state : ReadState) (ignored : ℕ) :
    Incoming → ReadState × (NextEventPoint ⊕ NextEventResult)
  | none | some (.error .connectionClosed) | some (.error .alreadyClosed) => (state, .inr (.ok none))
  | some (.error .capacity) =>
    (state, .inr (.error (unknown "DEEPGRAM_LIVE_RESPONSE_TOO_LARGE" state.providerReference)))
  | some (.error .other) =>
    (state, .inr (.error (unknown "DEEPGRAM_LIVE_READ_FAILED" state.providerReference)))
  | some (.ok (.text payload)) =>
    match parseText floats payload with
    | .ok (.events primary followUp) =>
      ({ state with pending := state.pending ++ followUp.toList }, .inr (.ok (some primary)))
    | .ok (.metadata (some requestId)) =>
      ({ state with providerReference := some ⟨requestId, some .requestId⟩ }, .inl (keepReading ignored))
    | .ok (.metadata none) | .ok .ignore => (state, .inl (keepReading ignored))
    | .ok .terminalError =>
      (state, .inr (.error (knownTerminal "DEEPGRAM_LIVE_PROVIDER_ERROR" state.providerReference)))
    | .error failure => (state, .inr (.error (unknown failure.code state.providerReference)))
  | some (.ok .close) => (state, .inr (.ok none))
  | some (.ok (.ping _)) | some (.ok (.pong _)) => (state, .inl (keepReading ignored))
  | some (.ok (.binary _)) | some (.ok .frame) =>
    (state, .inr (.error (unknown "DEEPGRAM_LIVE_MALFORMED_RESPONSE" state.providerReference)))

/-- `next_event_inner`, one await at a time. -/
def nextEvent (floats : FloatText) : AwaitingCall ReadState NextEventPoint Unit NextEventResult where
  start := .readerLock
  poll state point _ :=
    match point with
    | .readerLock =>
      match state.pending with
      | event :: rest => ({ state with pending := rest }, .inr (.ok (some event)))
      | [] => (state, .inl (.nextMessage 0))
    | .nextMessage ignored =>
      match takeNext state.reader with
      | none => (state, .inl (.nextMessage ignored))
      | some (item, rest) => handleIncoming floats { state with reader := rest } ignored item
    | .yieldNow => (state, .inl (.nextMessage 0))

/-- A message arrives on the stream. -/
def arrive (state : ReadState) (item : Incoming) : ReadState :=
  { state with reader := state.reader ++ [item] }

/-- A session just opened. -/
def ReadState.new (providerReference : Option ProviderReference) : ReadState := ⟨[], [], providerReference⟩

/-- The events of one item. -/
def eventsOf (floats : FloatText) : Incoming → List LiveRecognitionEvent
  | some (.ok (.text payload)) =>
    match parseText floats payload with
    | .ok (.events primary followUp) => primary :: followUp.toList
    | _ => []
  | _ => []

/-- The events a reader which is never dropped returns for a stream, in order. -/
def undisturbed (floats : FloatText) (items : List Incoming) : List LiveRecognitionEvent :=
  items.flatMap (eventsOf floats)

/-- What handling an item comes to: it has no events and is passed over, or its events are returned and
queued at once. -/
inductive Handled (floats : FloatText) (state : ReadState) (item : Incoming) :
    ReadState × (NextEventPoint ⊕ NextEventResult) → Prop
  | passedOver {reference : Option ProviderReference} {next : NextEventPoint}
      (hevents : eventsOf floats item = []) :
      Handled floats state item ({ state with providerReference := reference }, .inl next)
  | returned {queued : List LiveRecognitionEvent} {result : NextEventResult}
      (hevents : returnedEvents [result] ++ queued = eventsOf floats item) :
      Handled floats state item ({ state with pending := state.pending ++ queued }, .inr result)

/-- An item without events may end the call. -/
theorem Handled.ended {floats : FloatText} {state : ReadState} {item : Incoming} {result : NextEventResult}
    (hresult : returnedEvents [result] = []) (hevents : eventsOf floats item = []) :
    Handled floats state item (state, .inr result) := by
  have hreturned : Handled floats state item ({ state with pending := state.pending ++ [] }, .inr result) :=
    .returned (by rw [hresult, hevents]; rfl)
  rwa [List.append_nil] at hreturned

theorem handled (floats : FloatText) (state : ReadState) (ignored : ℕ) (item : Incoming) :
    Handled floats state item (handleIncoming floats state ignored item) := by
  rcases item with _ | error | message
  · exact .ended rfl rfl
  · cases error <;> exact .ended rfl rfl
  · cases message with
    | text payload =>
      cases hparse : parseText floats payload with
      | error failure =>
        simp only [handleIncoming, hparse]
        exact .ended rfl (by simp [eventsOf, hparse])
      | ok parsed =>
        cases parsed with
        | events primary followUp =>
          simp only [handleIncoming, hparse]
          exact .returned (by simp [eventsOf, hparse, returnedEvents])
        | metadata requestId =>
          cases requestId <;> simp only [handleIncoming, hparse] <;>
            exact .passedOver (by simp [eventsOf, hparse])
        | terminalError =>
          simp only [handleIncoming, hparse]
          exact .ended rfl (by simp [eventsOf, hparse])
        | ignore =>
          simp only [handleIncoming, hparse]
          exact .passedOver (by simp [eventsOf, hparse])
    | ping payload => exact .passedOver rfl
    | pong payload => exact .passedOver rfl
    | binary payload => exact .ended rfl rfl
    | close => exact .ended rfl rfl
    | frame => exact .ended rfl rfl

/-- Returned, queued and unread events together are those of the messages that arrived, and nothing is
queued while a message is awaited. -/
def Lossless (floats : FloatText) (items : List Incoming) (results : List NextEventResult)
    (s : CallState ReadState NextEventPoint) : Prop :=
  returnedEvents results ++ s.state.pending ++ undisturbed floats s.state.reader = undisturbed floats items ∧
    ∀ point, s.suspended = some point → point ≠ .readerLock → s.state.pending = []

section Lossless

variable {floats : FloatText} {items : List Incoming} {results : List NextEventResult} {state : ReadState}
  {point : NextEventPoint}

/-- A completed or suspended poll moves events from the stream to the queue and the results. -/
theorem lossless_nextMessage {ignored : ℕ} {rest : List Incoming} {item : Incoming}
    {state' : ReadState} {outcome : NextEventPoint ⊕ NextEventResult}
    (h : Lossless floats items results ⟨state, some (.nextMessage ignored)⟩)
    (htake : takeNext state.reader = some (item, rest))
    (hhandle : handleIncoming floats { state with reader := rest } ignored item = (state', outcome)) :
    returnedEvents (results ++ outcome.elim (fun _ => []) fun result => [result]) ++ state'.pending ++
        undisturbed floats state'.reader = undisturbed floats items ∧
      (outcome.isLeft → state'.pending = []) := by
  obtain ⟨htotal, hpending⟩ := h
  have hempty : state.pending = [] := hpending _ rfl (by simp)
  have hreader : undisturbed floats state.reader = eventsOf floats item ++ undisturbed floats rest := by
    rcases takeNext_cases htake with heq | ⟨rfl, heq⟩
    · rw [heq]
      rfl
    · rw [heq]
      rfl
  have hhandled := handled floats { state with reader := rest } ignored item
  rw [hhandle] at hhandled
  cases hhandled with
  | passedOver hevents =>
    refine ⟨?_, fun _ => hempty⟩
    simpa [hreader, hevents] using htotal
  | @returned queued result hevents =>
    refine ⟨?_, by simp⟩
    have hreturned : returnedEvents (results ++ [result]) = returnedEvents results ++ returnedEvents [result] :=
      List.filterMap_append ..
    rw [← htotal, hreader, ← hevents, hempty]
    simp [hreturned]

end Lossless

/-- However often its reads are dropped, a session returns exactly the events of its messages, in order:
what is not returned yet is queued or still unread. -/
theorem nextEvent_lossless {floats : FloatText} {reference : Option ProviderReference}
    {history : List (CallInput Incoming Unit × Option NextEventResult)}
    {s : CallState ReadState NextEventPoint}
    (hrun : Runs ((nextEvent floats).step arrive) ⟨.new reference, none⟩ history s) :
    returnedEvents (AwaitingCall.results history) ++ s.state.pending ++
      undisturbed floats s.state.reader =
        undisturbed floats (AwaitingCall.environmentEvents history) := by
  refine (AwaitingCall.invariant (fun _ => True) (Lossless floats) ?_ ?_ ?_ ?_ ?_ ?_ hrun
    fun _ _ => trivial).1
  · exact ⟨rfl, by simp⟩
  · intro items results s item h
    refine ⟨?_, h.2⟩
    simp only [arrive, undisturbed, List.flatMap_append]
    rw [← List.append_assoc]
    exact congrArg (· ++ _) h.1
  · intro items results state h
    exact ⟨h.1, by simp [nextEvent]⟩
  · intro items results state point _ state' next h hpoll
    cases point with
    | readerLock =>
      simp only [nextEvent] at hpoll
      split at hpoll
      · cases hpoll
      · cases hpoll
        exact ⟨h.1, fun _ _ _ => ‹_›⟩
    | yieldNow =>
      cases hpoll
      exact ⟨h.1, fun _ _ _ => h.2 _ rfl (by simp)⟩
    | nextMessage ignored =>
      simp only [nextEvent] at hpoll
      split at hpoll
      · cases hpoll
        exact h
      · rename_i item rest htake
        obtain ⟨htotal, hpending⟩ := lossless_nextMessage h htake hpoll
        exact ⟨by simpa using htotal, fun _ _ _ => hpending rfl⟩
  · intro items results state point _ state' result h hpoll
    cases point with
    | readerLock =>
      simp only [nextEvent] at hpoll
      split at hpoll
      · rename_i event rest hpending
        cases hpoll
        refine ⟨?_, by simp⟩
        have htotal := h.1
        simpa [hpending] using htotal
      · cases hpoll
    | yieldNow => cases hpoll
    | nextMessage ignored =>
      simp only [nextEvent] at hpoll
      split at hpoll
      · cases hpoll
      · rename_i item rest htake
        obtain ⟨htotal, -⟩ := lossless_nextMessage h htake hpoll
        exact ⟨htotal, by simp⟩
  · intro items results state point _ h
    exact ⟨h.1, by simp⟩

end Voicetext.Providers.Deepgram
