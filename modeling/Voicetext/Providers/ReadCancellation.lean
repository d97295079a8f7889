import Voicetext.Providers.Deepgram.LiveSession
import Voicetext.Providers.ElevenLabs.LiveSession

/-!
# Dropping a provider read

The transport drops the read in progress whenever the client is heard first. One adapter takes a
message off its socket and handles it without an await between; the other awaits the lock of its
state in between, and a read dropped there takes the message with it.
-/

namespace Voicetext.Providers

open Voicetext.Common Voicetext.Speech.Application

namespace ElevenLabs

/-- Letters and digits of ASCII. -/
def asciiTables : UnicodeTables := ⟨Char.isAlphanum, fun c => [c.toLower]⟩

/-- A committed transcript as the provider spells it. -/
def committedTranscript : Incoming :=
  some (.ok (.text (Json.toText (.object
    [("message_type", .string "committed_transcript"), ("text", .string "hello")]))))

/-- A committed transcript is taken by a read that is dropped before it has the state; the next read
finds nothing, where the transcript was due. -/
theorem nextEvent_loses :
    let inputs : List (CallInput SessionEvent Bool) :=
      [.environment (.recordAudio 3200), .environment (.arrive committedTranscript), .call, .poll true,
        .poll true, .poll true, .drop, .call, .poll true, .poll true, .poll true]
    let run := feed ((nextEvent .bits asciiTables).step LiveSession.occur) ⟨.new 16000 none, none⟩ inputs
    AwaitingCall.results run.1 = [] ∧ run.2.state.state.pending = [] ∧ run.2.state.reader = [] ∧
      run.2.suspended.bind NextEventPoint.inHand = none ∧
      (undisturbed asciiTables (.new 16000 none) (.recordAudio 3200 ::
        ([committedTranscript].filterMap (messageOf .bits)).map .message)).2 =
          [.transcript ⟨"hello", 0, 100, none, .utteranceFinal⟩] := by
  intro inputs run
  refine ⟨?_, ?_, ?_, ?_, ?_⟩
  · decide +kernel
  · decide +kernel
  · decide +kernel
  · decide +kernel
  · decide +kernel

end ElevenLabs

/-- Whatever reads are dropped, one adapter returns or queues exactly the events of the messages it has
taken, in order. The other does while no read is dropped with a message in hand: every message is then
performed, in hand or still unread, between the operations of other tasks, and the events returned or
queued are those of a reader which is never dropped. -/
theorem eventsKept (floats : FloatText) (reference : Option ProviderReference) :
    (∀ (history : List (CallInput Incoming Unit × Option NextEventResult))
      (s : CallState Deepgram.ReadState Deepgram.NextEventPoint),
      Runs ((Deepgram.nextEvent floats).step Deepgram.arrive) ⟨.new reference, none⟩ history s →
        returnedEvents (AwaitingCall.results history) ++ s.state.pending ++
            Deepgram.undisturbed floats s.state.reader =
          Deepgram.undisturbed floats (AwaitingCall.environmentEvents history)) ∧
    ∀ (tables : ElevenLabs.UnicodeTables) (sampleRateHz : UInt32)
      (history : List (CallInput ElevenLabs.SessionEvent Bool × Option NextEventResult))
      (s : CallState ElevenLabs.LiveSession ElevenLabs.NextEventPoint),
      Runs ((ElevenLabs.nextEvent floats tables).step ElevenLabs.LiveSession.occur)
          ⟨.new sampleRateHz reference, none⟩ history s →
        (∀ point ∈ (ElevenLabs.nextEvent floats tables).droppedPoints ElevenLabs.LiveSession.occur
          ⟨.new sampleRateHz reference, none⟩ (history.map Prod.fst), point.inHand = none) →
        s.state.performed.filterMap ElevenLabs.LiveOperation.message? ++
            (s.suspended.bind ElevenLabs.NextEventPoint.inHand).toList ++
            s.state.reader.filterMap (ElevenLabs.messageOf floats) =
          ((AwaitingCall.environmentEvents history).filterMap ElevenLabs.SessionEvent.item?).filterMap
            (ElevenLabs.messageOf floats) ∧
        s.state.performed.filterMap ElevenLabs.LiveOperation.other? =
          (AwaitingCall.environmentEvents history).filterMap ElevenLabs.SessionEvent.operation ∧
        returnedEvents (AwaitingCall.results history) ++ s.state.state.pending =
          (ElevenLabs.undisturbed tables (.new sampleRateHz reference) s.state.performed).2 := by
  refine ⟨?_, ?_⟩
  · intro history s hrun
    exact Deepgram.nextEvent_lossless hrun
  · intro tables sampleRateHz history s hrun hdropped
    have hlossless := ElevenLabs.nextEvent_lossless hrun hdropped
    exact ⟨hlossless.messages, hlossless.others, hlossless.returned⟩

/-- A read dropped while it awaits a message loses nothing: the next one returns the transcript. -/
theorem eventsKept_redelivered :
    let inputs : List (CallInput ElevenLabs.SessionEvent Bool) :=
      [.environment (.recordAudio 3200), .call, .poll true, .poll true, .drop,
        .environment (.arrive ElevenLabs.committedTranscript), .call, .poll true, .poll true, .poll true,
        .poll true]
    let run := feed ((ElevenLabs.nextEvent .bits ElevenLabs.asciiTables).step ElevenLabs.LiveSession.occur)
      ⟨.new 16000 none, none⟩ inputs
    returnedEvents (AwaitingCall.results run.1) = [.transcript ⟨"hello", 0, 100, none, .utteranceFinal⟩] ∧
      returnedEvents (AwaitingCall.results run.1) ++ run.2.state.state.pending =
        (ElevenLabs.undisturbed ElevenLabs.asciiTables (.new 16000 none) run.2.state.performed).2 := by
  intro inputs run
  have hharmless : ((ElevenLabs.nextEvent .bits ElevenLabs.asciiTables).droppedPoints
      ElevenLabs.LiveSession.occur ⟨.new 16000 none, none⟩ (run.1.map Prod.fst)).all
        fun point => point.inHand.isNone := by
    decide +kernel
  have hdropped := fun point hpoint => Option.isNone_iff_eq_none.mp (List.all_eq_true.mp hharmless point hpoint)
  refine ⟨by decide +kernel, ?_⟩
  exact ((eventsKept .bits none).2 ElevenLabs.asciiTables 16000 run.1 run.2 (runs_feed _ _ _) hdropped).2.2

end Voicetext.Providers
