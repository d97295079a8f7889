import Voicetext.Common.JsonReader
import Voicetext.Providers.BatchCapabilities
import Voicetext.Providers.Deepgram.OptionalParagraphs
import Voicetext.Providers.Recognition

/-!
# Recognition by the batch transcription service

A request is checked and posted once. The body of the answer is read before its status is looked at, so an answer
whose body cannot be read is never taken for a refusal. Every failure behind the post but a refusal by a status is
an unknown outcome.
-/

namespace Voicetext.Providers.Deepgram.Batch

open Voicetext.Common Voicetext.Speech.Application

def MAX_SUCCESS_BODY_BYTES : ℕ := 16 * 1024 * 1024

def MAX_ERROR_BODY_BYTES : ℕ := 8 * 1024

section Recognition

variable (floats : FloatText) (readers : NumberReaders) (toLowercase : List Char → List Char)

/-- What is posted; the authorization is the value of its header. -/
def wireRequest (authorization : List UInt8) (request : BatchRecognitionRequest) : HttpRequest where
  query := [("model", "nova-3"), ("language", "multi"), ("utterances", "true"), ("paragraphs", "true")] ++
    request.keyterms.map fun term => ("keyterm", term)
  headers := [("authorization", authorization), ("content-type", Text.asBytes "audio/ogg")]
  body := .bytes request.audio

def requestIdFromHeaders (head : ResponseHead) : Option String :=
  ((head.get "x-dg-request-id").bind headerText).bind safeRequestId

/-- How much of the body of an answer is read. -/
def bodyLimit (head : ResponseHead) : ℕ := if head.isSuccess then MAX_SUCCESS_BODY_BYTES else MAX_ERROR_BODY_BYTES

def statusFailure (head : ResponseHead) : RecognitionFailure :=
  let reference := requestReference (requestIdFromHeaders head)
  if head.status ∈ [400, 401, 402, 403, 404, 413, 415, 422] then
    .knownNotAccepted false "DEEPGRAM_REQUEST_REJECTED" reference none
  else if head.status = 429 then
    .knownNotAccepted true "DEEPGRAM_RATE_LIMITED" reference ((retryAfterMillis head).map UInt64.ofNat)
  else .unknownAfterSend "DEEPGRAM_OUTCOME_UNKNOWN" reference

def projectResult (request : BatchRecognitionRequest) (parsed : ParsedBatchResult) : BatchRecognitionResult where
  profile := request.profile
  text := parsed.text
  durationMillis := request.authoritativeDurationMillis
  providerDurationMillis := some (.ofNat parsed.providerDurationMs)
  segments := parsed.segments.map fun segment =>
    ⟨.ofNat segment.startMs, .ofNat segment.endMs, segment.text, segment.confidence, segment.speaker⟩
  readableSegments := some (parsed.readableSegments.map fun segment =>
    ⟨.ofNat segment.startMs, .ofNat segment.endMs, segment.text, segment.sourceSegmentIndices.map .ofNat⟩)
  providerReference := requestReference parsed.providerRequestId

/-- `serde_json::from_slice::<Value>`. -/
def payloadOf (body : List UInt8) : Option Json :=
  ((Text.fromUtf8 body).bind Json.parse).bind (Json.toValue floats)

/-- What the body of a successful answer says. -/
def resultOf (request : BatchRecognitionRequest) (head : ResponseHead) (body : List UInt8) : Recognition :=
  (parseAndNormalize toLowercase readers (payloadOf floats body) (requestIdFromHeaders head)
    request.authoritativeDurationMillis.toNat).map (projectResult request)

def recognizeInner (authorization : List UInt8) (request : BatchRecognitionRequest) (fuel : ℕ) :
    HttpTask Recognition :=
  match checkRequest request with
  | .error failure => .done (.error failure)
  | .ok () =>
    (send (wireRequest authorization request)).bind fun
      | .error _ => .done (.error (.unknownAfterSend "DEEPGRAM_NETWORK_ERROR" none))
      | .ok head =>
        let reference := requestReference (requestIdFromHeaders head)
        (readBounded (bodyLimit head) (.unknownAfterSend "DEEPGRAM_RESPONSE_TOO_LARGE" reference)
          (.unknownAfterSend "DEEPGRAM_RESPONSE_READ_ERROR" reference) head fuel).andThen fun body =>
            if head.isSuccess then .done (resultOf floats readers toLowercase request head body)
            else .done (.error (statusFailure head))

end Recognition

section Outcomes

variable (floats : FloatText) (readers : NumberReaders) (toLowercase : List Char → List Char)
  {headerRequestId : Option String}

theorem natAbs_le_of_asI64 {value : Json} {n : ℤ} (h : asI64 value = some n) : n.natAbs ≤ 2 ^ 63 := by
  unfold asI64 at h
  split at h
  · split at h
    · dsimp only at h
      split at h
      · rename_i hbounds
        obtain rfl := Option.some.inj h
        rw [Int.natAbs_neg, Int.natAbs_natCast]
        exact hbounds.2.2
      · cases h
    · dsimp only at h
      split at h
      · rename_i hbounds
        obtain rfl := Option.some.inj h
        rw [Int.natAbs_natCast]
        exact hbounds.2.le
      · cases h
  · cases h

/-- A failure names a reference which may be stored, or none. -/
def ParseFailure.Printable (failure : ParseFailure) : Prop := PrintableId failure.providerRequestId

/-- A result names a reference which may be stored, or none, and so do its segments their speakers. -/
structure ParsedBatchResult.Printable (parsed : ParsedBatchResult) : Prop where
  reference : PrintableId parsed.providerRequestId
  speakers : ∀ segment ∈ parsed.segments, SpeakerText segment.speaker

theorem meets_parseUtterance {providerRequestId : Option String} (hid : PrintableId providerRequestId) (value : Json) :
    Meets ParseFailure.Printable (fun segment => SpeakerText segment.speaker)
      (parseUtterance readers providerRequestId value) := by
  have hmalformed : (malformed providerRequestId).Printable := hid
  unfold parseUtterance
  refine Meets.required hmalformed fun object _ => ?_
  refine Meets.required hmalformed fun start _ => ?_
  refine Meets.required hmalformed fun stop _ => ?_
  refine Meets.required hmalformed fun startMs _ => ?_
  refine Meets.required hmalformed fun endMs _ => ?_
  refine Meets.required hmalformed fun text _ => ?_
  intro speaker hspeaker
  obtain ⟨n, hn, rfl⟩ := Option.map_eq_some_iff.mp hspeaker
  obtain ⟨value, -, hvalue⟩ := Option.bind_eq_some_iff.mp hn
  exact ⟨n, natAbs_le_of_asI64 hvalue, rfl⟩

theorem meets_parseShared (hid : PrintableId headerRequestId) (payload : Json) :
    Meets ParseFailure.Printable (fun parts => parts.1.Printable) (parseShared readers payload headerRequestId) := by
  unfold parseShared
  refine Meets.required (e := malformed headerRequestId) hid fun metadata _ => ?_
  have hprovider := (printableId_bind ((Json.lookup metadata "request_id").bind Json.asString)).or hid
  refine Meets.required hprovider fun durationSeconds _ => ?_
  refine Meets.required hprovider fun providerDurationMs _ => ?_
  refine Meets.required hprovider fun alternative _ => ?_
  refine Meets.required hprovider fun text _ => ?_
  refine Meets.required hprovider fun utterances _ => ?_
  refine (Meets.mapM fun value _ => meets_parseUtterance readers hprovider value).bind fun segments hsegments => ?_
  exact ⟨hprovider, hsegments⟩

theorem meets_parseResponse (hid : PrintableId headerRequestId) (payload : Option Json) :
    Meets ParseFailure.Printable ParsedBatchResult.Printable (parseResponse readers payload headerRequestId) := by
  unfold parseResponse
  refine Meets.required (e := malformed headerRequestId) hid fun payload _ => ?_
  refine (meets_parseShared readers hid payload).bind fun parts hparts => ?_
  exact ⟨hparts.reference, hparts.speakers⟩

/-- A failure which leaves the outcome open, with a reference which may be stored. -/
inductive OpenFailure : RecognitionFailure → Prop
  | mk (code : String) {requestId : Option String} (h : PrintableId requestId) :
    OpenFailure (.unknownAfterSend code (requestReference requestId))

/-- Overlaps are resolved among the speakers there are. -/
theorem meets_normalizeUtteranceOverlaps {requestId : Option String} (hid : PrintableId requestId)
    {segments : List ParsedSegment} (hsegments : ∀ segment ∈ segments, SpeakerText segment.speaker) :
    Meets OpenFailure (fun parts => ∀ segment ∈ parts.1, SpeakerText segment.speaker)
      (normalizeUtteranceOverlaps toLowercase segments (requestReference requestId)) := by
  have hinvalid : OpenFailure (invalidTiming (requestReference requestId)) := .mk _ hid
  refine Meets.bind (q := fun state => ∀ segment ∈ state.1, SpeakerText segment.speaker) ?_ fun state hstate => ?_
  · refine Meets.foldlM (fun state hstate segment hsegment => ?_) fun _ h => nomatch h
    have hspeaker := hsegments segment hsegment
    obtain ⟨normalized, changed⟩ := state
    cases normalized with
    | nil => exact List.forall_mem_singleton.mpr hspeaker
    | cons previous earlier =>
      obtain ⟨hprevious, hearlier⟩ := List.forall_mem_cons.mp hstate
      simp only [overlapStep]
      split
      · exact List.forall_mem_cons.mpr ⟨hspeaker, hstate⟩
      split
      · exact hinvalid
      split
      · exact List.forall_mem_cons.mpr ⟨hprevious, hearlier⟩
      · exact List.forall_mem_cons.mpr ⟨hspeaker, hstate⟩
  · exact fun segment hsegment => hstate segment (List.mem_reverse.mp hsegment)

theorem meets_normalize {parsed : ParsedBatchResult} (h : parsed.Printable) (duration : ℕ) :
    Meets OpenFailure ParsedBatchResult.Printable (normalize toLowercase parsed duration) := by
  have hend (start stop maximum : ℕ) : Meets OpenFailure (fun _ => True)
      (normalizeEnd start stop duration maximum (requestReference parsed.providerRequestId)) := by
    unfold normalizeEnd
    split
    · exact .mk _ h.reference
    · trivial
  unfold normalize
  refine (Meets.mapM (r := fun segment => SpeakerText segment.speaker) fun segment hsegment => ?_).bind
    fun segments hsegments => ?_
  · exact (hend _ _ _).bind fun endMs _ => h.speakers segment hsegment
  refine (Meets.mapM (r := fun _ => True) fun segment _ => ?_).bind fun readable _ => ?_
  · exact (hend _ _ _).bind fun endMs _ => trivial
  refine (meets_normalizeUtteranceOverlaps toLowercase h.reference hsegments).bind fun parts hparts => ?_
  exact ⟨h.reference, hparts⟩

/-- What a successful answer says fails only by leaving the outcome open. -/
theorem meets_resultOf (request : BatchRecognitionRequest) (head : ResponseHead) (body : List UInt8) :
    Meets OpenFailure (fun result => Reportable (.ok result))
      (resultOf floats readers toLowercase request head body) := by
  have hid : PrintableId (requestIdFromHeaders head) := printableId_bind _
  have hparse := meets_parseResponse readers hid (payloadOf floats body)
  unfold resultOf parseAndNormalize
  split
  · rename_i failure hfailure
    exact .mk _ (hparse.error hfailure)
  · rename_i parsed hparsed
    have hnormalize := meets_normalize toLowercase (hparse.ok hparsed)
      request.authoritativeDurationMillis.toNat
    cases hnormalized : normalize toLowercase parsed request.authoritativeDurationMillis.toNat with
    | error failure => exact hnormalize.error hnormalized
    | ok normalized =>
      obtain ⟨hreference, hspeakers⟩ := hnormalize.ok hnormalized
      exact ⟨printableReference_request hreference, List.forall_mem_map.mpr hspeakers⟩

theorem isRefusal_of_rejected {head : ResponseHead} (h : head.status ∈ [400, 401, 402, 403, 404, 413, 415, 422]) :
    head.IsRefusal := by
  simp only [List.mem_cons, List.not_mem_nil, or_false] at h
  simp only [ResponseHead.IsRefusal]
  omega

/-- A recognition posts its own request at most once, and its outcome is truthful. -/
theorem recognizeInner_keeps (authorization : List UInt8) (request : BatchRecognitionRequest) (fuel : ℕ) :
    Task.Keeps HttpServes
      (fun log => log = [] ∨ checkRequest request = .ok () ∧ Conducted (wireRequest authorization request) bodyLimit log)
      (fun outcome log => Truthful (checkRequest request) (wireRequest authorization request)
        (resultOf floats readers toLowercase request) log outcome)
      (recognizeInner floats readers toLowercase authorization request fuel) [] := by
  unfold recognizeInner
  split
  · rename_i failure hcheck
    have hfailure : failure = .knownNotAccepted false "BATCH_PROFILE_MISMATCH" none none := by
      unfold checkRequest at hcheck
      split at hcheck
      · exact (Except.error.inj hcheck).symm
      · cases hcheck
    subst hfailure
    exact ⟨.inl rfl, .refused hcheck⟩
  · rename_i hcheck
    have hprintable (head : ResponseHead) : PrintableReference (requestReference (requestIdFromHeaders head)) :=
      printableReference_request (printableId_bind _)
    refine Task.Keeps.bind ((send_keeps _ bodyLimit).mono (fun log h => .inr ⟨hcheck, h⟩) fun _ _ _ h => h) ?_
    intro outcome log hheld hsent
    cases outcome with
    | error failure => exact ⟨hheld, .unknown hcheck _ nofun⟩
    | ok head =>
      obtain rfl : log = _ := hsent
      refine Task.Keeps.andThen ((readBounded_keeps _ _ head fuel).mono
        (fun log h => .inr ⟨hcheck, .reading head h⟩) fun outcome log h hread => And.intro h hread) ?_ ?_
      · rintro failure log - ⟨-, rfl | rfl⟩ <;> exact .unknown hcheck _ (hprintable head)
      · rintro body log hheld ⟨hwithin, hbounded, chunks, rfl, rfl⟩
        split
        · rename_i hsuccess
          have hmeets := meets_resultOf floats readers toLowercase request head chunks.flatten
          cases hresult : resultOf floats readers toLowercase request head chunks.flatten with
          | error failure =>
            obtain ⟨code, hid⟩ := hmeets.error hresult
            exact ⟨hheld, .unknown hcheck _ (printableReference_request hid)⟩
          | ok result => exact ⟨hheld, .result hcheck hsuccess hresult (hmeets.ok hresult)⟩
        · unfold statusFailure
          split
          · rename_i hrejected
            exact ⟨hheld, .rejection hcheck (isRefusal_of_rejected hrejected) hwithin.prefix _ (hprintable head)⟩
          split
          · rename_i hlimited
            exact ⟨hheld, .limited hcheck hlimited hwithin.prefix _ (hprintable head)⟩
          · exact ⟨hheld, .unknown hcheck _ (hprintable head)⟩

end Outcomes

end Voicetext.Providers.Deepgram.Batch
