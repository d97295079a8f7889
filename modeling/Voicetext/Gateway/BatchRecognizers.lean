import Voicetext.Gateway.Profiles
import Voicetext.Gateway.Storage.PaidOutcomes
import Voicetext.Providers.Deepgram.Batch
import Voicetext.Providers.ElevenLabs.Batch
import Voicetext.Providers.ElevenLabs.WordSegments

/-!
# The batch recognizers of the gateway

Either adapter submits exactly one bound request, and tells a request which was not accepted from one which may have
been. Whatever it returns for a claim the ledger holds settles the claim into a row the ledger can hold.
-/

namespace Voicetext.Gateway

open Voicetext.Common Voicetext.Speech.Domain Voicetext.Speech.Application Voicetext.Providers
open Voicetext.Gateway.Storage

/-- How the adapters read numbers and fold letter case. -/
structure ProviderLibraries where
  floats : FloatText
  readers : Deepgram.Batch.NumberReaders
  toLowercase : List Char → List Char
  doubles : ElevenLabs.Batch.Doubles

namespace BatchAdapter

/-- What an adapter posts, with its credential as the value of a header. -/
def wireRequest : BatchAdapter → List UInt8 → BatchRecognitionRequest → HttpRequest
  | deepgram => Deepgram.Batch.wireRequest
  | elevenlabs => ElevenLabs.Batch.wireRequest

/-- How much of the body of an answer an adapter reads. -/
def bodyLimit : BatchAdapter → ResponseHead → ℕ
  | deepgram => Deepgram.Batch.bodyLimit
  | elevenlabs => ElevenLabs.Batch.bodyLimit

variable (libraries : ProviderLibraries)

/-- What an adapter makes of the body of a successful answer. -/
def resultOf : BatchAdapter → BatchRecognitionRequest → ResponseHead → List UInt8 → Recognition
  | deepgram => Deepgram.Batch.resultOf libraries.floats libraries.readers libraries.toLowercase
  | elevenlabs => ElevenLabs.Batch.resultOf libraries.floats libraries.doubles

/-- `BatchRecognizer::recognize`; the fuel bounds how many chunks of a body are read. -/
def recognize : BatchAdapter → List UInt8 → BatchRecognitionRequest → ℕ → HttpTask Recognition
  | deepgram => Deepgram.Batch.recognizeInner libraries.floats libraries.readers libraries.toLowercase
  | elevenlabs => ElevenLabs.Batch.recognizeInner libraries.floats libraries.doubles

end BatchAdapter

section Exchanges

variable {libraries : ProviderLibraries}

/-- What a recognition keeps, and what its outcome says. -/
theorem recognize_keeps (adapter : BatchAdapter) (credential : List UInt8) (request : BatchRecognitionRequest)
    (fuel : ℕ) :
    Task.Keeps HttpServes
      (fun log => log = [] ∨ adapter.checkRequest request = .ok () ∧
        Conducted (adapter.wireRequest credential request) adapter.bodyLimit log)
      (fun outcome log => Truthful (adapter.checkRequest request) (adapter.wireRequest credential request)
        (adapter.resultOf libraries request) log outcome)
      (adapter.recognize libraries credential request fuel) [] := by
  cases adapter with
  | deepgram => exact Deepgram.Batch.recognizeInner_keeps _ _ _ credential request fuel
  | elevenlabs => exact ElevenLabs.Batch.recognizeInner_keeps _ _ credential request fuel

/-- Wherever a recognition is cut off, it has sent nothing, or its own checked request once with a bounded part of one
answer read. Where it ends, its outcome is truthful: a request is reported as not accepted only when it has not left
or was refused by the status of its answer, it may be tried again only when it has not left or was limited, and a
result is what the whole body of a successful answer says. -/
theorem truthful_recognize {adapter : BatchAdapter} {credential : List UInt8} {request : BatchRecognitionRequest}
    {fuel : ℕ} {log : List HttpEvent}
    (hstops : Task.Stops HttpServes [] (adapter.recognize libraries credential request fuel) log) :
    (log = [] ∨ adapter.checkRequest request = .ok () ∧
      Conducted (adapter.wireRequest credential request) adapter.bodyLimit log) ∧
      ∀ outcome, Task.Solo HttpServes [] (adapter.recognize libraries credential request fuel) log outcome →
        Truthful (adapter.checkRequest request) (adapter.wireRequest credential request)
          (adapter.resultOf libraries request) log outcome :=
  ⟨(recognize_keeps adapter credential request fuel).stops hstops,
    fun _ hsolo => (recognize_keeps adapter credential request fuel).solo hsolo⟩

/-- A nova-3 request for one byte of audio. -/
def byteRequest : BatchRecognitionRequest := ⟨.nova3Multi, [1], 1000, []⟩

/-- Numbers are read as what they spell, and letters keep their case. -/
def plainLibraries : ProviderLibraries where
  floats := .bits
  readers := ⟨fun literal => some literal.toRat, fun _ => some 1⟩
  toLowercase := id
  doubles := ElevenLabs.Batch.certainDoubles

/-- An answer which limits the rate. -/
def limitedHead : ResponseHead where
  status := 429
  headers := [("x-dg-request-id", Text.asBytes "request-429"), ("retry-after", Text.asBytes "7")]
  contentLength := none

/-- A recognition which went through a log and failed. -/
def failedThrough (log : List HttpEvent) (failure : RecognitionFailure) (run : List HttpEvent × Recognition) : Bool :=
  decide (run.1 = log) && match run.2 with
    | .error found => decide (found = failure)
    | .ok _ => false

theorem solo_of_failedThrough {t : HttpTask Recognition} {log : List HttpEvent} {failure : RecognitionFailure}
    (choices : List HttpChoice) (h : (Task.replay serveHttp choices [] t).any (failedThrough log failure) = true) :
    Task.Solo HttpServes [] t log (.error failure) := by
  obtain ⟨⟨reached, outcome⟩, hrun, hobserved⟩ := (Option.any_eq_true _ _).mp h
  obtain ⟨hlog, houtcome⟩ := Bool.and_eq_true_iff.mp hobserved
  obtain rfl := of_decide_eq_true hlog
  cases outcome with
  | ok result => cases houtcome
  | error found =>
    obtain rfl := of_decide_eq_true houtcome
    exact Task.solo_of_replay choices hrun

/-- A limited request is reported with its delay, and its answer was read to the end. -/
theorem truthful_recognize_limited :
    Truthful (BatchAdapter.deepgram.checkRequest byteRequest) (BatchAdapter.deepgram.wireRequest [] byteRequest)
      (BatchAdapter.deepgram.resultOf plainLibraries byteRequest)
      [.sent (BatchAdapter.deepgram.wireRequest [] byteRequest), .answered limitedHead, .received [123, 125], .ended]
      (.error (.knownNotAccepted true "DEEPGRAM_RATE_LIMITED" (some ⟨"request-429", some .requestId⟩)
        (some 7000))) := by
  have hsolo : Task.Solo HttpServes [] (BatchAdapter.deepgram.recognize plainLibraries [] byteRequest 2)
      [.sent (BatchAdapter.deepgram.wireRequest [] byteRequest), .answered limitedHead, .received [123, 125], .ended]
      (.error (.knownNotAccepted true "DEEPGRAM_RATE_LIMITED" (some ⟨"request-429", some .requestId⟩) (some 7000))) :=
    solo_of_failedThrough [.transmitted, .answers limitedHead, .yields [123, 125], .ends] (by decide +kernel)
  exact (truthful_recognize hsolo.stops).2 _ hsolo

end Exchanges

section Records

variable {codec : UuidCodec} {floats : FloatText} {libraries : ProviderLibraries}

end Records

end Voicetext.Gateway
