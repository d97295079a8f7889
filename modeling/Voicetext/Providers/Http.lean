import Mathlib.Algebra.GroupWithZero.Nat
import Mathlib.Data.List.Flatten
import Voicetext.Common.CrashLogic
import Voicetext.Common.U64
import Voicetext.Common.Utf8
import Voicetext.Providers.Fields

/-!
# Exchanges with a provider over HTTP

A request leaves, its answer arrives with a head, and the body of the answer follows in chunks. The log of an
exchange is what an adapter has put on the wire and taken off it. A request which could not be built, or for which
no connection was made, has not left.
-/

namespace Voicetext.Providers

open Voicetext.Common Voicetext.Speech.Application

section Messages

/-- One part of a multipart form. -/
structure FormPart where
  name : String
  fileName : Option String := none
  contentType : Option String := none
  content : List UInt8
deriving DecidableEq

/-- `Form::text`. -/
def FormPart.text (name value : String) : FormPart where
  name := name
  content := Text.asBytes value

inductive HttpBody
  | bytes (content : List UInt8)
  | multipart (parts : List FormPart)
deriving DecidableEq

/-- What `POST`s to the endpoint of an adapter, but for what the client adds to every request. -/
structure HttpRequest where
  query : List (String × String)
  headers : List (String × List UInt8)
  body : HttpBody
deriving DecidableEq

/-- An answer but for its body, with the names of its headers in lower case. -/
structure ResponseHead where
  status : ℕ
  headers : List (String × List UInt8)
  contentLength : Option ℕ
deriving DecidableEq

/-- `StatusCode::is_success`. -/
def ResponseHead.isSuccess (head : ResponseHead) : Bool := 200 ≤ head.status && head.status < 300

/-- `HeaderMap::get`: the first value of a header. -/
def ResponseHead.get (head : ResponseHead) (name : String) : Option (List UInt8) :=
  (head.headers.find? fun header => header.1 = name).map (·.2)

/-- `HeaderValue::to_str`: visible ASCII, spaces and tabs. -/
def headerText (value : List UInt8) : Option String :=
  if value.all fun b => (32 ≤ b && b < 127) || b = 9 then Text.fromUtf8 value else none

/-- `str::parse::<u64>`. -/
def parseU64 (value : String) : Option ℕ :=
  let digits := match value.toList with
    | '+' :: rest => rest
    | chars => chars
  if digits ≠ [] ∧ digits.all Char.isDigit ∧ Nat.ofDigitChars 10 digits 0 ≤ U64.MAX then
    some (Nat.ofDigitChars 10 digits 0)
  else none

def MAX_RETRY_AFTER_MILLIS : ℕ := 30000

/-- The delay an answer asks for, in milliseconds. -/
def retryAfterMillis (head : ResponseHead) : Option ℕ := do
  let seconds ← parseU64 (Text.trim (← headerText (← head.get "retry-after")))
  return min (U64.saturatingMul seconds 1000) MAX_RETRY_AFTER_MILLIS

/-- The reference to a request by the identity of its answer. -/
def requestReference (requestId : Option String) : Option ProviderReference :=
  requestId.map fun id => ⟨id, some .requestId⟩

/-- An identity which may be stored. -/
def PrintableId (requestId : Option String) : Prop := ∀ id ∈ requestId, printableReference id = some id

theorem printableId_none : PrintableId none := nofun

theorem printableId_bind (value : Option String) : PrintableId (value.bind printableReference) := by
  intro id hid
  obtain ⟨value, -, hvalue⟩ := Option.bind_eq_some_iff.mp hid
  have hsame : value = id := by
    unfold printableReference at hvalue
    split at hvalue
    · exact Option.some.inj hvalue
    · cases hvalue
  exact hsame ▸ hvalue

theorem PrintableId.or {first second : Option String} (h : PrintableId first) (h' : PrintableId second) :
    PrintableId (first.or second) := by
  cases first with
  | none => exact h'
  | some id => exact h

theorem retryAfterMillis_le {head : ResponseHead} {delay : ℕ} (h : retryAfterMillis head = some delay) :
    delay ≤ MAX_RETRY_AFTER_MILLIS := by
  simp only [retryAfterMillis, Option.bind_eq_bind, Option.bind_eq_some_iff, Option.pure_def,
    Option.some.injEq] at h
  obtain ⟨_, _, _, _, _, _, rfl⟩ := h
  exact min_le_right _ _

end Messages

section Operations

/-- Why a request has not left. -/
inductive Unreached
  | builder
  | connect
deriving DecidableEq

/-- Why a request has no answer. -/
inductive SendError
  | unreached (reason : Unreached)
  | interrupted
deriving DecidableEq

/-- The awaits of an exchange; an exchange which is cut goes no further. -/
inductive HttpOp
  | transmit (request : HttpRequest)
  | head
  | chunk
  | cut

@[reducible] def HttpOp.Reply : HttpOp → Type
  | transmit _ => Except Unreached Unit
  | head => Option ResponseHead
  | chunk => Except Unit (Option (List UInt8))
  | cut => Empty

instance instIsEmptyReplyCut : IsEmpty (HttpOp.Reply .cut) := inferInstanceAs (IsEmpty Empty)

abbrev HttpTask (α : Type) := Task HttpOp HttpOp.Reply α

/-- One await of an exchange. -/
abbrev HttpOp.perform (op : HttpOp) : HttpTask op.Reply := Task.call op

/-- `RequestBuilder::send`. -/
def send (request : HttpRequest) : HttpTask (Except SendError ResponseHead) :=
  (HttpOp.transmit request).perform.bind fun
    | .error reason => .done (.error (.unreached reason))
    | .ok () => HttpOp.head.perform.bind fun
      | none => .done (.error .interrupted)
      | some head => .done (.ok head)

/-- What has passed in an exchange. -/
inductive HttpEvent
  | sent (request : HttpRequest)
  | answered (head : ResponseHead)
  | received (bytes : List UInt8)
  | ended
deriving DecidableEq

/-- What the other side and the network decide. -/
inductive HttpChoice
  | transmitted
  | unreached (reason : Unreached)
  | answers (head : ResponseHead)
  | yields (bytes : List UInt8)
  | ends
  | breaks

/-- Serve one await of an exchange. -/
def serveHttp (log : List HttpEvent) : (op : HttpOp) → HttpChoice → Option (List HttpEvent × op.Reply)
  | .transmit request, .transmitted => some (log ++ [.sent request], .ok ())
  | .transmit _, .unreached reason => some (log, .error reason)
  | .head, .answers head => some (log ++ [.answered head], some head)
  | .head, .breaks => some (log, none)
  | .chunk, .yields bytes => some (log ++ [.received bytes], .ok (some bytes))
  | .chunk, .ends => some (log ++ [.ended], .ok none)
  | .chunk, .breaks => some (log, .error ())
  | _, _ => none

def HttpServes (log : List HttpEvent) (op : HttpOp) (log' : List HttpEvent) (reply : op.Reply) : Prop :=
  ∃ choice, serveHttp log op choice = some (log', reply)

variable {log log' : List HttpEvent}

theorem serves_transmit {request : HttpRequest} {reply : Except Unreached Unit}
    (h : HttpServes log (.transmit request) log' reply) :
    reply = .ok () ∧ log' = log ++ [.sent request] ∨ (∃ reason, reply = .error reason) ∧ log' = log := by
  obtain ⟨choice, h⟩ := h
  cases choice with
  | transmitted =>
    obtain ⟨rfl, rfl⟩ := Prod.mk.inj (Option.some.inj h)
    exact .inl ⟨rfl, rfl⟩
  | unreached reason =>
    obtain ⟨rfl, rfl⟩ := Prod.mk.inj (Option.some.inj h)
    exact .inr ⟨⟨reason, rfl⟩, rfl⟩
  | _ => cases h

theorem serves_head {reply : Option ResponseHead} (h : HttpServes log .head log' reply) :
    (∃ head, reply = some head ∧ log' = log ++ [.answered head]) ∨ reply = none ∧ log' = log := by
  obtain ⟨choice, h⟩ := h
  cases choice with
  | answers head =>
    obtain ⟨rfl, rfl⟩ := Prod.mk.inj (Option.some.inj h)
    exact .inl ⟨head, rfl, rfl⟩
  | breaks =>
    obtain ⟨rfl, rfl⟩ := Prod.mk.inj (Option.some.inj h)
    exact .inr ⟨rfl, rfl⟩
  | _ => cases h

theorem serves_chunk {reply : Except Unit (Option (List UInt8))} (h : HttpServes log .chunk log' reply) :
    (∃ bytes, reply = .ok (some bytes) ∧ log' = log ++ [.received bytes]) ∨
      reply = .ok none ∧ log' = log ++ [.ended] ∨ reply = .error () ∧ log' = log := by
  obtain ⟨choice, h⟩ := h
  cases choice with
  | yields bytes =>
    obtain ⟨rfl, rfl⟩ := Prod.mk.inj (Option.some.inj h)
    exact .inl ⟨bytes, rfl, rfl⟩
  | ends =>
    obtain ⟨rfl, rfl⟩ := Prod.mk.inj (Option.some.inj h)
    exact .inr (.inl ⟨rfl, rfl⟩)
  | breaks =>
    obtain ⟨rfl, rfl⟩ := Prod.mk.inj (Option.some.inj h)
    exact .inr (.inr ⟨rfl, rfl⟩)
  | _ => cases h

end Operations

section Bodies

/-- One chunk of a body of at most `limit` bytes. -/
def readChunk (limit : ℕ) (tooLarge readError : RecognitionFailure) (body : List UInt8) :
    HttpTask (List UInt8 ⊕ Except RecognitionFailure (List UInt8)) :=
  HttpOp.chunk.perform.bind fun
    | .error () => .done (.inr (.error readError))
    | .ok none => .done (.inr (.ok body))
    | .ok (some chunk) =>
      if body.length + chunk.length > limit then .done (.inr (.error tooLarge)) else .done (.inl (body ++ chunk))

/-- The body of an answer, unless it is told or found to be larger than `limit`. -/
def readBounded (limit : ℕ) (tooLarge readError : RecognitionFailure) (head : ResponseHead) (fuel : ℕ) :
    HttpTask (Except RecognitionFailure (List UInt8)) :=
  if head.contentLength.any fun length => length > limit then .done (.error tooLarge)
  else Task.repeatUntil .cut (readChunk limit tooLarge readError) fuel []

/-- One chunk of a body nobody reads, while no more than `limit` bytes of it have come. -/
def consumeChunk (limit consumed : ℕ) : HttpTask (ℕ ⊕ Unit) :=
  if consumed ≤ limit then
    HttpOp.chunk.perform.bind fun
      | .ok (some chunk) => .done (.inl (consumed + chunk.length))
      | _ => .done (.inr ())
  else .done (.inr ())

def consumeBounded (limit fuel : ℕ) : HttpTask Unit := Task.repeatUntil .cut (consumeChunk limit) fuel 0

variable {limit : ℕ} {front log : List HttpEvent} {chunks : List (List UInt8)}

/-- The chunks of a body behind a log, at most the last of which goes beyond `limit`. -/
def Within (limit : ℕ) (front log : List HttpEvent) : Prop :=
  ∃ (chunks : List (List UInt8)) (ending : List HttpEvent), log = front ++ chunks.map .received ++ ending ∧
    (ending = [] ∨ ending = [.ended]) ∧ chunks.dropLast.flatten.length ≤ limit

theorem Within.start : Within limit front front := ⟨[], [], by simp, .inl rfl, Nat.zero_le _⟩

/-- A body read so far may be read on. -/
theorem Within.received (h : chunks.flatten.length ≤ limit) (bytes : List UInt8) :
    Within limit front (front ++ chunks.map .received ++ [.received bytes]) :=
  ⟨chunks ++ [bytes], [], by simp, .inl rfl, by simpa using h⟩

theorem length_flatten_dropLast_le (chunks : List (List UInt8)) :
    chunks.dropLast.flatten.length ≤ chunks.flatten.length :=
  (List.Sublist.flatten (List.dropLast_sublist chunks)).length_le

theorem Within.reading (h : chunks.flatten.length ≤ limit) :
    Within limit front (front ++ chunks.map .received) :=
  ⟨chunks, [], by simp, .inl rfl, (length_flatten_dropLast_le chunks).trans h⟩

theorem Within.ended (h : chunks.flatten.length ≤ limit) :
    Within limit front (front ++ chunks.map .received ++ [.ended]) :=
  ⟨chunks, _, rfl, .inr rfl, (length_flatten_dropLast_le chunks).trans h⟩

/-- A bounded body is all of the chunks up to the end of the answer, or one of two failures. -/
theorem readBounded_keeps (tooLarge readError : RecognitionFailure) (head : ResponseHead) (fuel : ℕ) :
    Task.Keeps HttpServes (Within limit front)
      (fun outcome log => match outcome with
        | .ok body => body.length ≤ limit ∧ ∃ chunks : List (List UInt8), chunks.flatten = body ∧
            log = front ++ chunks.map .received ++ [.ended]
        | .error failure => failure = tooLarge ∨ failure = readError)
      (readBounded limit tooLarge readError head fuel) front := by
  unfold readBounded
  split
  · exact ⟨.start, .inl rfl⟩
  refine Task.Keeps.repeatUntil (fun body log => body.length ≤ limit ∧ ∃ chunks : List (List UInt8), chunks.flatten = body ∧
    log = front ++ chunks.map .received) ?_ fuel .start ⟨Nat.zero_le _, [], rfl, by simp⟩
  rintro body log hheld ⟨hbody, chunks, rfl, rfl⟩
  refine Task.Keeps.call hheld fun log' reply hserve => ?_
  rcases serves_chunk hserve with ⟨bytes, rfl, rfl⟩ | ⟨rfl, rfl⟩ | ⟨rfl, rfl⟩
  · dsimp only
    split
    · exact ⟨.received hbody bytes, .inl rfl⟩
    · rename_i hsize
      refine ⟨.received hbody bytes, ?_, chunks ++ [bytes], by simp, by simp⟩
      rw [List.length_append]
      exact not_lt.mp hsize
  · exact ⟨.ended hbody, hbody, chunks, rfl, rfl⟩
  · exact ⟨hheld, .inr rfl⟩

/-- What is left unread is within its limit as well. -/
theorem consumeBounded_keeps (fuel : ℕ) :
    Task.Keeps HttpServes (Within limit front) (fun _ _ => True) (consumeBounded limit fuel) front := by
  refine Task.Keeps.repeatUntil (fun consumed log => ∃ chunks : List (List UInt8), chunks.flatten.length = consumed ∧
    log = front ++ chunks.map .received) ?_ fuel .start ⟨[], rfl, by simp⟩
  rintro consumed log hheld ⟨chunks, rfl, rfl⟩
  unfold consumeChunk
  split
  · rename_i hsize
    refine Task.Keeps.call hheld fun log' reply hserve => ?_
    rcases serves_chunk hserve with ⟨bytes, rfl, rfl⟩ | ⟨rfl, rfl⟩ | ⟨rfl, rfl⟩
    · exact ⟨.received hsize bytes, chunks ++ [bytes], by simp, by simp⟩
    · exact ⟨.ended hsize, trivial⟩
    · exact ⟨hheld, trivial⟩
  · exact ⟨hheld, trivial⟩

end Bodies

end Voicetext.Providers
