import Voicetext.Common.JsonReader
import Voicetext.Common.Fallible
import Voicetext.Common.SortDedup
import Voicetext.Providers.BatchCapabilities
import Voicetext.Providers.ElevenLabs.BatchDto
import Voicetext.Providers.Recognition

/-!
# Recognition by the batch word service

A request is checked, posted once as a form, and its answer judged by its status before anything but a bounded part
of an unsuccessful body is read. Only a request which has not left is known not to be accepted without an answer.
-/

namespace Voicetext.Providers.ElevenLabs.Batch

open Voicetext.Common Voicetext.Speech.Application

def MAX_SUCCESS_BODY_BYTES : ℕ := 16 * 1024 * 1024

def MAX_ERROR_BODY_BYTES : ℕ := 8 * 1024

/-- One keyterm of an input, behind those seen before it. -/
def canonicalStep (output : List String) (term : String) : List String :=
  let normalized := normalizeText term
  if normalized ∈ output then output else output ++ [normalized]

/-- Keyterms with single spaces, once each and in order. -/
def canonicalizeKeyterms (input : List String) : List String := sortBy compare (input.foldl canonicalStep [])

section Recognition

variable (floats : FloatText) (doubles : Doubles)

/-- What is posted; the key is the value of its header. -/
def wireRequest (apiKey : List UInt8) (request : BatchRecognitionRequest) : HttpRequest where
  query := []
  headers := [("xi-api-key", apiKey)]
  body := .multipart (⟨"file", some "audio.ogg", some "audio/ogg", request.audio⟩ ::
    [.text "model_id" "scribe_v2", .text "timestamps_granularity" "word", .text "diarize" "false",
      .text "tag_audio_events" "false", .text "use_multi_channel" "false", .text "webhook" "false",
      .text "file_format" "other"] ++ (canonicalizeKeyterms request.keyterms).map (.text "keyterms"))

def requestIdFromHeaders (head : ResponseHead) : Option String :=
  (((head.get "request-id").or (head.get "x-request-id")).bind headerText).bind safeRequestId

/-- How much of the body of an answer is read. -/
def bodyLimit (head : ResponseHead) : ℕ := if head.isSuccess then MAX_SUCCESS_BODY_BYTES else MAX_ERROR_BODY_BYTES

def identityReference (identity : Option ProviderIdentity) : Option ProviderReference :=
  identity.map fun
    | .requestId id => ⟨id, some .requestId⟩
    | .transcriptionId id => ⟨id, some .transcriptionId⟩

def classifySendError : SendError → RecognitionFailure
  | .unreached _ => .knownNotAccepted true "ELEVENLABS_BEFORE_SEND" none none
  | .interrupted => .unknownAfterSend "ELEVENLABS_NETWORK_ERROR" none

def statusFailure (head : ResponseHead) : RecognitionFailure :=
  let reference := requestReference (requestIdFromHeaders head)
  if 400 ≤ head.status ∧ head.status ≤ 499 ∧ head.status ≠ 429 then
    .knownNotAccepted false "ELEVENLABS_REQUEST_REJECTED" reference none
  else if head.status = 429 then
    .knownNotAccepted true "ELEVENLABS_RATE_LIMITED" reference ((retryAfterMillis head).map UInt64.ofNat)
  else .unknownAfterSend "ELEVENLABS_OUTCOME_UNKNOWN" reference

def projectResult (request : BatchRecognitionRequest) (parsed : ParsedBatchResult) : BatchRecognitionResult where
  profile := request.profile
  text := parsed.text
  durationMillis := request.authoritativeDurationMillis
  providerDurationMillis := parsed.providerDurationMillis.map .ofNat
  segments := parsed.segments.map fun segment =>
    ⟨.ofNat segment.startMillis, .ofNat segment.endMillis, segment.text, segment.confidence, none⟩
  readableSegments := none
  providerReference := identityReference parsed.providerIdentity

/-- What the body of a successful answer says. -/
def resultOf (request : BatchRecognitionRequest) (head : ResponseHead) (body : List UInt8) : Recognition :=
  match parseResponse floats doubles ((Text.fromUtf8 body).bind Json.parse)
    request.authoritativeDurationMillis.toNat (requestIdFromHeaders head) with
  | .error failure => .error (.unknownAfterSend failure.code (identityReference failure.providerIdentity))
  | .ok parsed => .ok (projectResult request parsed)

def recognizeInner (apiKey : List UInt8) (request : BatchRecognitionRequest) (fuel : ℕ) : HttpTask Recognition :=
  match validateRequest request with
  | .error failure => .done (.error failure)
  | .ok () =>
    (send (wireRequest apiKey request)).bind fun
      | .error error => .done (.error (classifySendError error))
      | .ok head =>
        if head.isSuccess then
          let reference := requestReference (requestIdFromHeaders head)
          (readBounded MAX_SUCCESS_BODY_BYTES (.unknownAfterSend "ELEVENLABS_RESPONSE_TOO_LARGE" reference)
            (.unknownAfterSend "ELEVENLABS_RESPONSE_READ_ERROR" reference) head fuel).andThen fun body =>
              .done (resultOf floats doubles request head body)
        else (consumeBounded MAX_ERROR_BODY_BYTES fuel).bind fun _ => .done (.error (statusFailure head))

end Recognition

section Outcomes

variable (floats : FloatText) (doubles : Doubles) {providerIdentity : Option ProviderIdentity}

/-- A failure names the identity its response is known by. -/
def Names (providerIdentity : Option ProviderIdentity) (failure : ParseFailure) : Prop :=
  failure.providerIdentity = providerIdentity

theorem names_malformed : Names providerIdentity (malformed providerIdentity) := rfl

theorem meets_boundedTimestamp (value : Option ℚ) (authoritativeSeconds : ℚ) :
    Meets (Names providerIdentity) (fun _ => True) (boundedTimestamp providerIdentity value authoritativeSeconds) := by
  unfold boundedTimestamp
  refine Meets.required names_malformed fun value _ => ?_
  dsimp only
  split
  · exact names_malformed
  · trivial

theorem meets_wordConfidence (logprob : Option ℚ) :
    Meets (Names providerIdentity) (fun _ => True) (wordConfidence doubles providerIdentity logprob) := by
  cases logprob with
  | none => trivial
  | some value =>
    unfold wordConfidence logProbability
    dsimp only
    split
    · exact names_malformed
    · trivial

theorem meets_pushSegment (segments : List ParsedSegment) (current : Option SegmentBuilder) :
    Meets (Names providerIdentity) (fun _ => True) (pushSegment doubles providerIdentity segments current) := by
  cases current with
  | none => trivial
  | some segment =>
    unfold pushSegment
    dsimp only
    split
    · exact names_malformed
    · refine Meets.required names_malformed fun segment _ => ?_
      split
      · exact names_malformed
      · trivial

theorem meets_splitAtWord (state : WalkState) (start stop : ℚ) :
    Meets (Names providerIdentity) (fun _ => True) (splitAtWord doubles providerIdentity state start stop) := by
  unfold splitAtWord
  split
  · have hpush : Meets (Names providerIdentity) _ _ := meets_pushSegment doubles state.segments state.current
    cases hsegments : pushSegment doubles providerIdentity state.segments state.current with
    | error failure => exact hpush.error hsegments
    | ok segments => trivial
  · trivial

theorem meets_boundedText (state : WalkState) :
    Meets (Names providerIdentity) (fun _ => True) (boundedText providerIdentity state) := by
  unfold boundedText
  split
  · exact names_malformed
  · trivial

theorem meets_readToken (authoritativeSeconds : ℚ) (state : WalkState) (word : WordDto) :
    Meets (Names providerIdentity) (fun _ => True)
      (readToken doubles providerIdentity authoritativeSeconds state word) := by
  unfold readToken
  split
  · exact names_malformed
  split
  · trivial
  · exact meets_boundedText _
  · refine Meets.bind (q := fun _ => True) ?_ fun state _ => meets_boundedText state
    unfold readWord
    split
    · exact names_malformed
    refine (meets_boundedTimestamp _ _).bind fun start _ => ?_
    refine (meets_boundedTimestamp _ _).bind fun stop _ => ?_
    dsimp only
    split
    · exact names_malformed
    refine (meets_wordConfidence doubles _).bind fun confidence _ => ?_
    exact (meets_splitAtWord doubles _ _ _).bind fun state _ => trivial
  · exact names_malformed

theorem meets_parsePayload (payload : ResponseDto) (duration : ℕ) :
    Meets (Names providerIdentity) (fun result => result.providerIdentity = providerIdentity)
      (parsePayload doubles providerIdentity payload duration) := by
  have henvelope : Meets (Names providerIdentity) (fun _ => True) (validateEnvelope providerIdentity payload) := by
    unfold validateEnvelope
    split
    · exact names_malformed
    · trivial
  have hduration : Meets (Names providerIdentity) (fun _ => True)
      (providerDuration providerIdentity payload.audioDurationSecs) := by
    cases payload.audioDurationSecs with
    | none => trivial
    | some seconds =>
      unfold providerDuration
      dsimp only
      cases secondsToMillis seconds with
      | none => exact names_malformed
      | some millis => trivial
  unfold parsePayload
  refine henvelope.bind fun _ _ => ?_
  refine Meets.bind (q := fun _ => True) (Meets.foldlM (fun state _ word _ => meets_readToken doubles _ state word)
    trivial) fun state _ => ?_
  refine (meets_pushSegment doubles _ _).bind fun segments _ => ?_
  split
  · exact names_malformed
  · exact hduration.bind fun millis _ => rfl

theorem printable_identityReference {requestId transcriptionId : Option String} (hrequest : PrintableId requestId)
    (htranscription : PrintableId transcriptionId) : PrintableReference (identityReference
      ((transcriptionId.map ProviderIdentity.transcriptionId).or (requestId.map .requestId))) := by
  cases transcriptionId with
  | some id => exact htranscription
  | none =>
    cases requestId with
    | some id => exact hrequest
    | none => exact nofun

/-- A response is known by an identity which may be stored. -/
theorem meets_parseResponse {headerRequestId : Option String} (hid : PrintableId headerRequestId)
    (document : Option Json) (duration : ℕ) :
    Meets (fun failure => PrintableReference (identityReference failure.providerIdentity))
      (fun result => PrintableReference (identityReference result.providerIdentity))
      (parseResponse floats doubles document duration headerRequestId) := by
  unfold parseResponse
  refine Meets.required ?_ fun value _ => ?_
  · exact printable_identityReference hid printableId_none
  have hprintable := printable_identityReference hid
    (printableId_bind ((value.member "transcription_id").bind Json.asString))
  refine Meets.required hprintable fun payload _ => ?_
  refine (meets_parsePayload doubles payload duration).mono (fun failure hfailure => ?_) fun result hresult => ?_
  · rw [hfailure]
    exact hprintable
  · rw [hresult]
    exact hprintable

theorem reportable_resultOf (request : BatchRecognitionRequest) (head : ResponseHead) (body : List UInt8) :
    Meets (fun failure => ∃ code reference, failure = .unknownAfterSend code reference ∧ PrintableReference reference)
      (fun result => Reportable (.ok result)) (resultOf floats doubles request head body) := by
  have hparse := meets_parseResponse floats doubles
    (printableId_bind (((head.get "request-id").or (head.get "x-request-id")).bind headerText))
    ((Text.fromUtf8 body).bind Json.parse) request.authoritativeDurationMillis.toNat
  unfold resultOf
  split
  · rename_i failure hfailure
    exact ⟨_, _, rfl, hparse.error hfailure⟩
  · rename_i parsed hparsed
    exact ⟨hparse.ok hparsed, List.forall_mem_map.mpr fun _ _ => nofun⟩

/-- A recognition posts its own request at most once, and its outcome is truthful. -/
theorem recognizeInner_keeps (apiKey : List UInt8) (request : BatchRecognitionRequest) (fuel : ℕ) :
    Task.Keeps HttpServes
      (fun log => log = [] ∨ validateRequest request = .ok () ∧ Conducted (wireRequest apiKey request) bodyLimit log)
      (fun outcome log => Truthful (validateRequest request) (wireRequest apiKey request)
        (resultOf floats doubles request) log outcome)
      (recognizeInner floats doubles apiKey request fuel) [] := by
  unfold recognizeInner
  split
  · rename_i failure hcheck
    have hfailure : ∃ code, failure = .knownNotAccepted false code none none := by
      unfold validateRequest at hcheck
      split at hcheck
      · exact ⟨_, (Except.error.inj hcheck).symm⟩
      split at hcheck
      · exact ⟨_, (Except.error.inj hcheck).symm⟩
      split at hcheck
      · exact ⟨_, (Except.error.inj hcheck).symm⟩
      split at hcheck
      · exact ⟨_, (Except.error.inj hcheck).symm⟩
      · cases hcheck
    obtain ⟨code, rfl⟩ := hfailure
    exact ⟨.inl rfl, .refused hcheck⟩
  · rename_i hcheck
    have hprintable (head : ResponseHead) : PrintableReference (requestReference (requestIdFromHeaders head)) :=
      printableReference_request (printableId_bind _)
    refine Task.Keeps.bind ((send_keeps _ bodyLimit).mono (fun log h => .inr ⟨hcheck, h⟩) fun _ _ _ h => h) ?_
    intro outcome log hheld hsent
    cases outcome with
    | error error =>
      cases error with
      | unreached reason =>
        obtain rfl : log = [] := hsent
        exact ⟨hheld, .unsent hcheck _⟩
      | interrupted => exact ⟨hheld, .unknown hcheck _ nofun⟩
    | ok head =>
      obtain rfl : log = _ := hsent
      have hreading (log : List HttpEvent) (h : Within (bodyLimit head)
          [.sent (wireRequest apiKey request), .answered head] log) : log = [] ∨
            validateRequest request = .ok () ∧ Conducted (wireRequest apiKey request) bodyLimit log :=
        .inr ⟨hcheck, .reading head h⟩
      dsimp only
      split
      · rename_i hsuccess
        have hlimit : bodyLimit head = MAX_SUCCESS_BODY_BYTES := if_pos hsuccess
        rw [hlimit] at hreading
        refine Task.Keeps.andThen ((readBounded_keeps _ _ head fuel).mono hreading fun _ _ _ h => h) ?_ ?_
        · rintro failure log - (rfl | rfl) <;> exact .unknown hcheck _ (hprintable head)
        · rintro body log hheld ⟨hbounded, chunks, rfl, rfl⟩
          have hmeets := reportable_resultOf floats doubles request head chunks.flatten
          cases hresult : resultOf floats doubles request head chunks.flatten with
          | error failure =>
            obtain ⟨code, reference, rfl, hreference⟩ := hmeets.error hresult
            exact ⟨hheld, .unknown hcheck _ hreference⟩
          | ok result => exact ⟨hheld, .result hcheck hsuccess hresult (hmeets.ok hresult)⟩
      · rename_i hsuccess
        have hlimit : bodyLimit head = MAX_ERROR_BODY_BYTES := if_neg hsuccess
        rw [hlimit] at hreading
        have hconsumed := (consumeBounded_keeps fuel).mono hreading fun (_ : Unit) log h _ => h.prefix
        refine hconsumed.bind fun _ log hheld hanswer => ?_
        unfold statusFailure
        dsimp only
        split
        · rename_i hrejected
          have hrefusal : head.IsRefusal := ⟨hrejected.1, Nat.lt_succ_of_le hrejected.2.1⟩
          exact ⟨hheld, .rejection hcheck hrefusal hanswer _ (hprintable head)⟩
        split
        · rename_i hlimited
          exact ⟨hheld, .limited hcheck hlimited hanswer _ (hprintable head)⟩
        · exact ⟨hheld, .unknown hcheck _ (hprintable head)⟩

end Outcomes

end Voicetext.Providers.ElevenLabs.Batch
