import Voicetext.Providers.ElevenLabs.SynthesizedTimeline

/-!
# Finalize evidence is neither invented nor lost

The marker of an observed finalize is either returned at once or queued behind the transcript of the
same message. When the queue is drained before each message it holds one marker at most, so what was
returned and what is queued are together exactly what the messages of the run owe.
-/

namespace Voicetext.Providers.ElevenLabs

open Voicetext.Common Voicetext.Speech.Application

/-- A call on the state of a session. -/
inductive LiveInput
  | recordAudio (bytes : ℕ)
  | beginFinalize
  | cancelFinalize
  | popPending
  | apply (message : ParsedLiveMessage)

/-- Answer a call with the event it returns. -/
def LiveState.step (tables : UnicodeTables) (state : LiveState) :
    LiveInput → LiveState × Option LiveRecognitionEvent
  | .recordAudio bytes => (state.recordAudio bytes, none)
  | .beginFinalize => (state.beginFinalize, none)
  | .cancelFinalize => (state.cancelFinalize, none)
  | .popPending => state.popPending
  | .apply message => state.apply tables message

/-- A call with the event it returned. -/
abbrev LiveExchange := LiveInput × Option LiveRecognitionEvent

namespace LiveInput

/-- The bytes of audio a call records. -/
def audioBytes : LiveInput → ℕ
  | .recordAudio bytes => bytes
  | _ => 0

/-- Whether a call applies an utterance final. -/
def isUtteranceFinal : LiveInput → Bool
  | .apply (.transcript .utteranceFinal _ _) => true
  | _ => false

/-- Only the transcript of an utterance final is one. -/
theorem eq_utteranceFinal {message : ParsedLiveMessage} (h : isUtteranceFinal (.apply message) = true) :
    ∃ text confidence, message = .transcript .utteranceFinal text confidence := by
  cases message with
  | transcript kind text confidence =>
    cases kind with
    | utteranceFinal => exact ⟨text, confidence, rfl⟩
    | partial_ | segmentFinal => cases h
  | sessionStarted | terminalError | ignore => cases h

/-- The bytes of audio the calls of a list recorded. -/
def recordedBytes (inputs : List LiveInput) : ℕ := (inputs.map audioBytes).sum

/-- Whether a finalize is under way after the calls of a list, newest first: it was begun after some
audio, and neither cancelled nor answered by an utterance final since; begun twice, it is one finalize. -/
def awaitsResult : List LiveInput → Bool
  | [] => false
  | .beginFinalize :: earlier => recordedBytes earlier ≠ 0
  | .cancelFinalize :: _ => false
  | input :: earlier => !input.isUtteranceFinal && awaitsResult earlier

/-- A call which neither begins, cancels nor answers a finalize leaves it under way or not. -/
theorem awaitsResult_cons {input : LiveInput} (earlier : List LiveInput) (hbegin : input ≠ .beginFinalize)
    (hcancel : input ≠ .cancelFinalize) :
    awaitsResult (input :: earlier) = (!input.isUtteranceFinal && awaitsResult earlier) := by
  cases input with
  | beginFinalize => exact absurd rfl hbegin
  | cancelFinalize => exact absurd rfl hcancel
  | recordAudio | popPending | apply => rfl

/-- A finalize is under way only after some audio. -/
theorem recordedBytes_pos {inputs : List LiveInput} (h : awaitsResult inputs = true) :
    0 < recordedBytes inputs := by
  induction inputs with
  | nil => cases h
  | cons input earlier ih =>
    have hearlier : 0 < recordedBytes earlier := by
      cases input with
      | beginFinalize => simpa [awaitsResult, Nat.pos_iff_ne_zero] using h
      | cancelFinalize => cases h
      | recordAudio | popPending | apply =>
        rw [awaitsResult_cons _ (by simp) (by simp), Bool.and_eq_true] at h
        exact ih h.2
    simp only [recordedBytes, List.map_cons, List.sum_cons] at hearlier ⊢
    omega

end LiveInput

/-- The events an exchange owes the reader after the calls of a list, newest first: the transcript the
message has, and behind it the marker when the message answers a finalize. -/
def owedBy (earlier : List LiveInput) (exchange : LiveExchange) : List LiveRecognitionEvent :=
  match exchange.1 with
  | .apply _ =>
    (exchange.2.filter fun event => event ≠ .finalizeResultObserved).toList ++
      if exchange.1.isUtteranceFinal && LiveInput.awaitsResult earlier then [.finalizeResultObserved] else []
  | _ => []

/-- The events the exchanges of a history owe, with the calls before it, newest first. -/
def owedAfter (earlier : List LiveInput) : List LiveExchange → List LiveRecognitionEvent
  | [] => []
  | exchange :: rest => owedBy earlier exchange ++ owedAfter (exchange.1 :: earlier) rest

/-- The events a history returned, in order. -/
def delivered (history : List LiveExchange) : List LiveRecognitionEvent := history.filterMap Prod.snd

/-- Every message of a history was applied to a state with nothing pending. -/
def Drained (tables : UnicodeTables) (start : LiveState) (history : List LiveExchange) : Prop :=
  ∀ before message output after, history = before ++ (.apply message, output) :: after →
    (feed (LiveState.step tables) start (before.map Prod.fst)).2.pending = []

/-- What a history delivered and the state still holds is what its messages owe, one marker is held at
most, and no marker was delivered without audio. -/
structure EvidenceKept (history : List LiveExchange) (state : LiveState) : Prop where
  delivered_eq : delivered history ++ state.pending = owedAfter [] history
  pending_le : state.pending.length ≤ 1
  unheard : LiveInput.recordedBytes (history.map Prod.fst) = 0 →
    .finalizeResultObserved ∉ delivered history

/-- The last exchange of a history owes its events behind what the exchanges before it owe. -/
theorem owedAfter_append (earlier : List LiveInput) (history : List LiveExchange) (exchange : LiveExchange) :
    owedAfter earlier (history ++ [exchange]) =
      owedAfter earlier history ++ owedBy ((history.map Prod.fst).reverse ++ earlier) exchange := by
  induction history generalizing earlier with
  | nil => simp [owedAfter]
  | cons first rest ih => simp [owedAfter, ih]

@[simp] theorem recordedBytes_reverse (inputs : List LiveInput) :
    LiveInput.recordedBytes inputs.reverse = LiveInput.recordedBytes inputs := by
  rw [LiveInput.recordedBytes, List.map_reverse, List.sum_reverse, LiveInput.recordedBytes]

@[simp] theorem delivered_append (history : List LiveExchange) (exchange : LiveExchange) :
    delivered (history ++ [exchange]) = delivered history ++ exchange.2.toList := by
  cases houtput : exchange.2 <;> simp [delivered, houtput]

/-- A marker is owed only after some audio. -/
theorem recordedBytes_pos_of_owed {earlier : List LiveInput} {history : List LiveExchange}
    (h : .finalizeResultObserved ∈ owedAfter earlier history) :
    0 < LiveInput.recordedBytes ((history.map Prod.fst).reverse ++ earlier) := by
  induction history generalizing earlier with
  | nil => cases h
  | cons exchange rest ih =>
    rcases List.mem_append.mp h with howed | hrest
    · have hawaits : LiveInput.awaitsResult earlier = true := by
        obtain ⟨input, output⟩ := exchange
        cases input with
        | recordAudio | beginFinalize | cancelFinalize | popPending => cases howed
        | apply message =>
          rcases List.mem_append.mp howed with hkept | hmarker
          · simp at hkept
          · by_contra hnot
            simp [hnot] at hmarker
      have hpos := LiveInput.recordedBytes_pos hawaits
      simp only [LiveInput.recordedBytes, List.map_append, List.sum_append] at hpos ⊢
      omega
    · simpa using ih hrest

/-- The flag of a state says whether a finalize is under way, and its audio whether any was recorded. -/
structure LiveState.Finalizes (state : LiveState) (earlier : List LiveInput) : Prop where
  finalizing_eq : state.finalizing = LiveInput.awaitsResult earlier
  silent_iff : state.userAudioBytes = 0 ↔ LiveInput.recordedBytes earlier = 0

variable {tables : UnicodeTables} {state : LiveState} {earlier : List LiveInput}

/-- A message which is no utterance final changes neither the flag, nor the audio, nor the queue. -/
theorem LiveState.apply_of_not_utteranceFinal (state : LiveState) (tables : UnicodeTables)
    {message : ParsedLiveMessage} (h : LiveInput.isUtteranceFinal (.apply message) = false) :
    (state.apply tables message).1.finalizing = state.finalizing ∧
      (state.apply tables message).1.userAudioBytes = state.userAudioBytes ∧
      (state.apply tables message).1.pending = state.pending ∧
      (state.apply tables message).2 ≠ some .finalizeResultObserved := by
  match message with
  | .ignore | .terminalError _ | .sessionStarted none | .sessionStarted (some _) =>
    exact ⟨rfl, rfl, rfl, by simp [apply]⟩
  | .transcript .partial_ text confidence =>
    refine ⟨rfl, rfl, rfl, ?_⟩
    simp only [apply, transcript, partialTranscript]
    split <;> simp [transcriptEvent]
  | .transcript .segmentFinal text confidence =>
    simp only [apply, transcript, segmentFinal]
    split <;> simp [transcriptEvent]
  | .transcript .utteranceFinal text confidence => cases h

/-- An utterance final lowers the flag and leaves the audio. -/
theorem LiveState.utteranceFinal_kept (state : LiveState) (tables : UnicodeTables) (text : String)
    (confidence : Option Float32) :
    (state.utteranceFinal tables text confidence).1.finalizing = false ∧
      (state.utteranceFinal tables text confidence).1.userAudioBytes = state.userAudioBytes := by
  unfold utteranceFinal
  dsimp only
  split
  · split <;> exact ⟨rfl, rfl⟩
  · exact ⟨rfl, rfl⟩

/-- Every call keeps the flag and the audio in step with the calls made. -/
theorem LiveState.Finalizes.step (h : state.Finalizes earlier) (input : LiveInput) :
    (state.step tables input).1.Finalizes (input :: earlier) := by
  cases input with
  | recordAudio bytes =>
    refine ⟨h.finalizing_eq, ?_⟩
    have hsilent := h.silent_iff
    simp only [LiveInput.recordedBytes, List.map_cons, List.sum_cons, LiveInput.audioBytes] at hsilent ⊢
    simp only [LiveState.step, recordAudio, U64.saturatingAdd]
    have hmax : 0 < U64.MAX := by decide
    omega
  | beginFinalize =>
    refine ⟨?_, by
      simpa [LiveState.step, beginFinalize, LiveInput.recordedBytes, LiveInput.audioBytes] using h.silent_iff⟩
    simp only [LiveState.step, beginFinalize, hasUserAudio, LiveInput.awaitsResult]
    exact decide_eq_decide.mpr (not_congr h.silent_iff)
  | cancelFinalize =>
    exact ⟨rfl, by
      simpa [LiveState.step, cancelFinalize, LiveInput.recordedBytes, LiveInput.audioBytes] using h.silent_iff⟩
  | popPending =>
    exact ⟨h.finalizing_eq, by
      simpa [LiveState.step, popPending, LiveInput.recordedBytes, LiveInput.audioBytes] using h.silent_iff⟩
  | apply message =>
    have hsilent : state.userAudioBytes = 0 ↔
        LiveInput.recordedBytes (.apply message :: earlier) = 0 := by
      simpa [LiveInput.recordedBytes, LiveInput.audioBytes] using h.silent_iff
    cases hfinal : LiveInput.isUtteranceFinal (.apply message) with
    | false =>
      obtain ⟨hflag, haudio, -, -⟩ := apply_of_not_utteranceFinal state tables hfinal
      refine ⟨?_, by rw [LiveState.step, haudio]; exact hsilent⟩
      rw [LiveInput.awaitsResult_cons _ (by simp) (by simp), hfinal, LiveState.step, hflag]
      simpa using h.finalizing_eq
    | true =>
      obtain ⟨text, confidence, rfl⟩ := LiveInput.eq_utteranceFinal hfinal
      obtain ⟨hflag, haudio⟩ := state.utteranceFinal_kept tables text confidence
      refine ⟨hflag.trans rfl, ?_⟩
      rw [LiveState.step, apply, transcript, haudio]
      exact hsilent

/-- An utterance final on an empty queue returns what it owes, the marker queued behind a transcript. -/
theorem LiveState.Finalizes.utteranceFinal_owed (h : state.Finalizes earlier) (hpending : state.pending = [])
    (text : String) (confidence : Option Float32) :
    (state.utteranceFinal tables text confidence).2.toList ++
        (state.utteranceFinal tables text confidence).1.pending =
      owedBy earlier (.apply (.transcript .utteranceFinal text confidence),
        (state.utteranceFinal tables text confidence).2) := by
  have hflag := h.finalizing_eq
  unfold utteranceFinal
  dsimp only
  cases hevent : state.committedEvent tables text confidence
      (max state.userAudioMillis state.committedEndMillis) with
  | none =>
    split
    · rename_i hfinalizing
      simp [owedBy, LiveInput.isUtteranceFinal, ← hflag, hfinalizing, hpending]
    · rename_i hfinalizing
      simp [owedBy, LiveInput.isUtteranceFinal, ← hflag, hfinalizing, hpending]
  | some event =>
    obtain ⟨final, rfl, -⟩ := state.committedEvent_eq_some tables text confidence hevent
    split
    · rename_i hfinalizing
      simp [owedBy, LiveInput.isUtteranceFinal, ← hflag, hfinalizing, hpending, pushPending,
        MAX_PENDING_EVENTS, Option.filter]
    · rename_i hfinalizing
      simp [owedBy, LiveInput.isUtteranceFinal, ← hflag, hfinalizing, hpending, Option.filter]

/-- A call returns and queues what was queued before it and what it owes itself. -/
theorem LiveState.Finalizes.step_owed (h : state.Finalizes earlier) {input : LiveInput}
    (hdrained : ∀ message, input = .apply message → state.pending = []) :
    (state.step tables input).2.toList ++ (state.step tables input).1.pending =
      state.pending ++ owedBy earlier (input, (state.step tables input).2) := by
  cases input with
  | recordAudio | beginFinalize | cancelFinalize =>
    simp [LiveState.step, owedBy, recordAudio, beginFinalize, cancelFinalize]
  | popPending => cases hpending : state.pending <;> simp [LiveState.step, owedBy, popPending, hpending]
  | apply message =>
    have hpending := hdrained message rfl
    rw [hpending, List.nil_append]
    cases hfinal : LiveInput.isUtteranceFinal (.apply message) with
    | false =>
      obtain ⟨-, -, hqueue, hmarker⟩ :=
        apply_of_not_utteranceFinal state tables hfinal
      rw [LiveState.step, hqueue, hpending]
      cases hevent : (state.apply tables message).2 with
      | none => simp [owedBy, hfinal]
      | some event =>
        have hother : event ≠ .finalizeResultObserved := fun heq => hmarker (by rw [hevent, heq])
        simp [owedBy, hfinal, hother, Option.filter]
    | true =>
      obtain ⟨text, confidence, rfl⟩ := LiveInput.eq_utteranceFinal hfinal
      exact h.utteranceFinal_owed hpending text confidence

/-- A call queues one marker at most when the queue held one at most and none before a message. -/
theorem LiveState.step_pending_le {input : LiveInput} (hpending : state.pending.length ≤ 1)
    (hdrained : ∀ message, input = .apply message → state.pending = []) :
    (state.step tables input).1.pending.length ≤ 1 := by
  cases input with
  | recordAudio | beginFinalize | cancelFinalize => exact hpending
  | popPending =>
    rw [LiveState.step, popPending, List.length_tail]
    omega
  | apply message =>
    have hempty := hdrained message rfl
    cases hfinal : LiveInput.isUtteranceFinal (.apply message) with
    | false =>
      obtain ⟨-, -, hqueue, -⟩ := apply_of_not_utteranceFinal state tables hfinal
      rw [LiveState.step, hqueue]
      exact hpending
    | true =>
      obtain ⟨text, confidence, rfl⟩ := LiveInput.eq_utteranceFinal hfinal
      simp only [LiveState.step, apply, transcript, utteranceFinal, hempty]
      split
      · split <;> simp [pushPending, MAX_PENDING_EVENTS]
      · simp

/-- Every run which drains the queue before each message keeps its finalize evidence. -/
theorem evidenceKept_of_runs {rate : UInt32} {reference : Option ProviderReference}
    {history : List LiveExchange} {state : LiveState}
    (hrun : Runs (LiveState.step tables) (.new rate reference) history state)
    (hdrained : Drained tables (.new rate reference) history) : EvidenceKept history state := by
  suffices hkept : state.Finalizes (history.map Prod.fst).reverse ∧
      delivered history ++ state.pending = owedAfter [] history ∧ state.pending.length ≤ 1 by
    obtain ⟨-, hdelivered, hpending⟩ := hkept
    refine ⟨hdelivered, hpending, fun hsilent hmem => ?_⟩
    have howed : .finalizeResultObserved ∈ owedAfter [] history :=
      hdelivered ▸ List.mem_append_left state.pending hmem
    have hpos := recordedBytes_pos_of_owed howed
    simp [hsilent] at hpos
  induction hrun with
  | nil => exact ⟨⟨rfl, by simp [LiveState.new, LiveInput.recordedBytes]⟩, rfl, by simp [LiveState.new]⟩
  | @snoc history state hrun input ih =>
    have hbefore : Drained tables (.new rate reference) history := by
      rintro before message output after rfl
      exact hdrained before message output (after ++ [(input, (state.step tables input).2)]) (by simp)
    obtain ⟨hfinalizes, hdelivered, hpending⟩ := ih hbefore
    have hempty : ∀ message, input = .apply message → state.pending = [] := by
      rintro message rfl
      have hstate := hdrained history message _ [] rfl
      rwa [hrun.eq_feed] at hstate
    refine ⟨?_, ?_, LiveState.step_pending_le hpending hempty⟩
    · simpa using hfinalizes.step input
    · calc delivered (history ++ [(input, (state.step tables input).2)]) ++ (state.step tables input).1.pending
          = delivered history ++ ((state.step tables input).2.toList ++
              (state.step tables input).1.pending) := by
            rw [delivered_append, List.append_assoc]
        _ = delivered history ++
              (state.pending ++ owedBy (history.map Prod.fst).reverse
                (input, (state.step tables input).2)) := by
            rw [hfinalizes.step_owed hempty]
        _ = owedAfter [] (history ++ [(input, (state.step tables input).2)]) := by
            rw [← List.append_assoc, hdelivered, owedAfter_append, List.append_nil]

/-- A finalize answered by a transcript: the marker follows it once the queue is drained. -/
theorem evidenceKept_tail :
    let start : LiveState := .new 16000 none
    let tables : UnicodeTables := ⟨Char.isAlphanum, fun c => [c.toLower]⟩
    let run := feed (LiveState.step tables) start [.recordAudio 32000, .beginFinalize,
      .apply (.transcript .utteranceFinal "tail" none), .popPending]
    EvidenceKept run.1 run.2 := by
  intro start tables run
  have hdrained : Drained tables start run.1 := by
    intro before message output after h
    have hinputs := congrArg (List.map Prod.fst) h
    rw [feed_inputs, List.map_append, List.map_cons] at hinputs
    -- the message is the third call
    match hbefore : before.map Prod.fst, hinputs with
    | [], hinputs | [_], hinputs | [_, _, _], hinputs | _ :: _ :: _ :: _ :: _, hinputs => simp at hinputs
    | [first, second], hinputs =>
      obtain ⟨rfl, rfl, -⟩ : LiveInput.recordAudio 32000 = first ∧ LiveInput.beginFinalize = second ∧ _ := by
        simpa using hinputs
      rfl
  exact evidenceKept_of_runs (runs_feed _ start _) hdrained

end Voicetext.Providers.ElevenLabs
