import Mathlib.Data.Nat.Notation
import Voicetext.Speech.Application.LivePorts

/-!
# What a provider socket yields

A read takes the next item off the stream, an error or a message. A stream that is over stays over.
-/

namespace Voicetext.Providers

open Voicetext.Speech.Application

inductive WebSocketError
  | capacity
  | connectionClosed
  | alreadyClosed
  | other
deriving DecidableEq

inductive Message
  | text (payload : String)
  | binary (payload : List UInt8)
  | ping (payload : List UInt8)
  | pong (payload : List UInt8)
  | close
  | frame
deriving DecidableEq

/-- One item of the stream; nothing ends it. -/
abbrev Incoming := Option (Except WebSocketError Message)

/-- `StreamExt::next`: the item a read takes, once one has arrived. -/
def takeNext : List Incoming → Option (Incoming × List Incoming)
  | [] => none
  | none :: rest => some (none, none :: rest)
  | some item :: rest => some (some item, rest)

/-- What taking an item leaves has the same messages after it. -/
theorem takeNext_cases {items rest : List Incoming} {item : Incoming}
    (h : takeNext items = some (item, rest)) :
    items = item :: rest ∨ item = none ∧ items = rest := by
  match items with
  | none :: after =>
    obtain ⟨rfl, rfl⟩ : none = item ∧ none :: after = rest := by simpa [takeNext] using h
    exact .inr ⟨rfl, rfl⟩
  | some head :: after =>
    obtain ⟨rfl, rfl⟩ : some head = item ∧ after = rest := by simpa [takeNext] using h
    exact .inl rfl

/-- What `next_event` returns. -/
abbrev NextEventResult := Except RecognitionFailure (Option LiveRecognitionEvent)

/-- The events among results, in order. -/
def returnedEvents (results : List NextEventResult) : List LiveRecognitionEvent :=
  results.filterMap fun result => match result with
    | .ok event => event
    | .error _ => none

@[simp] theorem returnedEvents_append_ok (results : List NextEventResult)
    (event : Option LiveRecognitionEvent) :
    returnedEvents (results ++ [.ok event]) = returnedEvents results ++ event.toList := by
  cases event <;> simp [returnedEvents]

@[simp] theorem returnedEvents_append_error (results : List NextEventResult)
    (failure : RecognitionFailure) :
    returnedEvents (results ++ [.error failure]) = returnedEvents results := by
  simp [returnedEvents]

/-- Ignored messages after which a reader yields to the scheduler. -/
def MAX_IGNORED_MESSAGES_BEFORE_YIELD : ℕ := 32

end Voicetext.Providers
