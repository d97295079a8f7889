import Voicetext.Providers.Http

/-!
# One paid request over HTTP

Whatever goes wrong, a recognition puts at most its own request on the wire and reads a bounded part of one answer.
Its outcome is truthful when it says that a request was not accepted only of one which has not left, or which was
refused by the status of its answer, and when a result is the whole body of a successful answer.
-/

namespace Voicetext.Providers

open Voicetext.Common Voicetext.Speech.Application

/-- The answer blames the request. -/
def ResponseHead.IsRefusal (head : ResponseHead) : Prop := 400 ≤ head.status ∧ head.status < 500

instance instDecidableIsRefusal (head : ResponseHead) : Decidable head.IsRefusal :=
  inferInstanceAs (Decidable (_ ∧ _))

/-- What a recognition may have done at any point. -/
inductive Conducted (wire : HttpRequest) (limit : ResponseHead → ℕ) : List HttpEvent → Prop
  | silent : Conducted wire limit []
  | sent : Conducted wire limit [.sent wire]
  | reading {log : List HttpEvent} (head : ResponseHead) (h : Within (limit head) [.sent wire, .answered head] log) :
    Conducted wire limit log

/-- A reference which may be stored, or none. -/
def PrintableReference (reference : Option ProviderReference) : Prop := PrintableId (reference.map ProviderReference.id)

theorem printableReference_request {requestId : Option String} (h : PrintableId requestId) :
    PrintableReference (requestReference requestId) := by
  cases requestId with
  | none => exact nofun
  | some id => exact h

/-- A speaker is a 64-bit integer, if there is one. -/
def SpeakerText (speaker : Option String) : Prop := ∀ text ∈ speaker, ∃ n : ℤ, n.natAbs ≤ 2 ^ 63 ∧ text = toString n

/-- Whatever an outcome carries beside its transcript is bounded. -/
def Reportable : Recognition → Prop
  | .ok result => PrintableReference result.providerReference ∧ ∀ segment ∈ result.segments, SpeakerText segment.speaker
  | .error (.knownNotAccepted _ _ reference delay) =>
    PrintableReference reference ∧ ∀ millis ∈ delay, millis.toNat ≤ MAX_RETRY_AFTER_MILLIS
  | .error (.knownAcceptedTerminal _ reference) => PrintableReference reference
  | .error (.unknownAfterSend _ reference) => PrintableReference reference

/-- What the outcome of a recognition says of its exchange. -/
structure Truthful (check : Except RecognitionFailure Unit) (wire : HttpRequest)
    (resultOf : ResponseHead → List UInt8 → Recognition) (log : List HttpEvent) (outcome : Recognition) : Prop where
  unchecked : ∀ failure, check = .error failure → outcome = .error failure ∧ log = []
  notAccepted : ∀ retryable code reference delay,
    outcome = .error (.knownNotAccepted retryable code reference delay) →
      log = [] ∨ ∃ head : ResponseHead, head.IsRefusal ∧ [.sent wire, .answered head] <+: log
  retryable : ∀ code reference delay, outcome = .error (.knownNotAccepted true code reference delay) →
    log = [] ∧ delay = none ∨ ∃ head : ResponseHead, head.status = 429 ∧
      delay = (retryAfterMillis head).map UInt64.ofNat ∧ [.sent wire, .answered head] <+: log
  rejected : ∀ code reference delay, outcome = .error (.knownNotAccepted false code reference delay) → delay = none
  notTerminal : ∀ code reference, outcome ≠ .error (.knownAcceptedTerminal code reference)
  recognized : ∀ result, outcome = .ok result → ∃ (head : ResponseHead) (chunks : List (List UInt8)),
    head.isSuccess = true ∧ resultOf head chunks.flatten = .ok result ∧
      log = [.sent wire, .answered head] ++ chunks.map .received ++ [.ended]
  reportable : Reportable outcome

variable {check : Except RecognitionFailure Unit} {wire : HttpRequest} {limit : ResponseHead → ℕ}
  {resultOf : ResponseHead → List UInt8 → Recognition} {log : List HttpEvent} {head : ResponseHead}

/-- A body read after a head leaves it where it was. -/
theorem Within.prefix {limit : ℕ} {front : List HttpEvent} (h : Within limit front log) : front <+: log := by
  obtain ⟨chunks, ending, rfl, -, -⟩ := h
  rw [List.append_assoc]
  exact List.prefix_append _ _

/-- An unknown outcome says nothing. -/
theorem Truthful.unknown (hcheck : check = .ok ()) (code : String) {reference : Option ProviderReference}
    (h : PrintableReference reference) :
    Truthful check wire resultOf log (.error (.unknownAfterSend code reference)) where
  unchecked := by simp [hcheck]
  notAccepted := nofun
  retryable := nofun
  rejected := nofun
  notTerminal := nofun
  recognized := nofun
  reportable := h

/-- A request which fails its check is not accepted, and nothing is sent. -/
theorem Truthful.refused {code : String} (hcheck : check = .error (.knownNotAccepted false code none none)) :
    Truthful check wire resultOf [] (.error (.knownNotAccepted false code none none)) where
  unchecked := by
    intro failure hfailure
    rw [hcheck] at hfailure
    exact ⟨congrArg Except.error (Except.error.inj hfailure), rfl⟩
  notAccepted := fun _ _ _ _ _ => .inl rfl
  retryable := nofun
  rejected := by
    rintro _ _ _ ⟨⟩
    rfl
  notTerminal := nofun
  recognized := nofun
  reportable := ⟨nofun, nofun⟩

/-- A request which has not left may be tried again. -/
theorem Truthful.unsent (hcheck : check = .ok ()) (code : String) :
    Truthful check wire resultOf [] (.error (.knownNotAccepted true code none none)) where
  unchecked := by simp [hcheck]
  notAccepted := fun _ _ _ _ _ => .inl rfl
  retryable := by
    rintro _ _ _ ⟨⟩
    exact .inl ⟨rfl, rfl⟩
  rejected := nofun
  notTerminal := nofun
  recognized := nofun
  reportable := ⟨nofun, nofun⟩

/-- A request refused by its answer is not accepted. -/
theorem Truthful.rejection (hcheck : check = .ok ()) (hrefusal : head.IsRefusal)
    (hanswer : [.sent wire, .answered head] <+: log) (code : String) {reference : Option ProviderReference}
    (h : PrintableReference reference) :
    Truthful check wire resultOf log (.error (.knownNotAccepted false code reference none)) where
  unchecked := by simp [hcheck]
  notAccepted := fun _ _ _ _ _ => .inr ⟨head, hrefusal, hanswer⟩
  retryable := nofun
  rejected := by
    rintro _ _ _ ⟨⟩
    rfl
  notTerminal := nofun
  recognized := nofun
  reportable := ⟨h, nofun⟩

/-- A limited request may be tried again, after the delay its answer asks for. -/
theorem Truthful.limited (hcheck : check = .ok ()) (hlimited : head.status = 429)
    (hanswer : [.sent wire, .answered head] <+: log) (code : String) {reference : Option ProviderReference}
    (h : PrintableReference reference) :
    Truthful check wire resultOf log (.error (.knownNotAccepted true code reference
      ((retryAfterMillis head).map UInt64.ofNat))) where
  unchecked := by simp [hcheck]
  notAccepted := fun _ _ _ _ _ => .inr ⟨head, by simp [ResponseHead.IsRefusal, hlimited], hanswer⟩
  retryable := by
    rintro _ _ _ ⟨⟩
    exact .inr ⟨head, hlimited, rfl, hanswer⟩
  rejected := nofun
  notTerminal := nofun
  recognized := nofun
  reportable := by
    refine ⟨h, fun millis hmillis => ?_⟩
    obtain ⟨delay, hdelay, rfl⟩ := Option.map_eq_some_iff.mp hmillis
    have hle := retryAfterMillis_le hdelay
    rwa [UInt64.toNat_ofNat_of_lt' (hle.trans_lt (by decide))]

/-- A result is what the whole body of a successful answer says. -/
theorem Truthful.result (hcheck : check = .ok ()) (hsuccess : head.isSuccess = true) {chunks : List (List UInt8)}
    {result : BatchRecognitionResult} (hresult : resultOf head chunks.flatten = .ok result)
    (h : Reportable (.ok result)) :
    Truthful check wire resultOf ([.sent wire, .answered head] ++ chunks.map .received ++ [.ended]) (.ok result) where
  unchecked := by simp [hcheck]
  notAccepted := nofun
  retryable := nofun
  rejected := nofun
  notTerminal := nofun
  recognized := by
    rintro _ ⟨⟩
    exact ⟨head, chunks, hsuccess, hresult, rfl⟩
  reportable := h

/-- What posting a request leads to. -/
theorem send_keeps (wire : HttpRequest) (limit : ResponseHead → ℕ) :
    Task.Keeps HttpServes (Conducted wire limit)
      (fun outcome log => match outcome with
        | .error (.unreached _) => log = []
        | .error .interrupted => log = [.sent wire]
        | .ok head => log = [.sent wire, .answered head])
      (send wire) [] := by
  refine Task.Keeps.call .silent fun log reply hserve => ?_
  rcases serves_transmit hserve with ⟨rfl, rfl⟩ | ⟨⟨reason, rfl⟩, rfl⟩
  · refine Task.Keeps.call .sent fun log reply hserve => ?_
    rcases serves_head hserve with ⟨head, rfl, rfl⟩ | ⟨rfl, rfl⟩
    · exact ⟨.reading head .start, rfl⟩
    · exact ⟨.sent, rfl⟩
  · exact ⟨.silent, rfl⟩

end Voicetext.Providers
