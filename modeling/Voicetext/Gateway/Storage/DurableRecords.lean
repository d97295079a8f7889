import Voicetext.Gateway.Storage.RecordRoundTrip

/-!
# Durable records of snapshots

A snapshot is storable when it passes the checks of its record. What it is written to decodes to the
snapshot, except that operation kinds of references are not stored. Conversely the columns of a decoded
snapshot are the columns it was decoded from, as long as the text of its result, written again, is within
the cap.
-/

namespace Voicetext.Gateway.Storage

open Voicetext.Common Voicetext.Speech.Domain Voicetext.Speech.Application

section Results

variable {code : String} {result : BatchRecognitionResult}

theorem validateSegments_confidence {duration : UInt64} {previousEnd : UInt64} {segments : List BatchSegment}
    (h : validateSegments duration previousEnd segments = .ok ()) :
    ∀ segment ∈ segments, ∀ value ∈ segment.confidence, validConfidence value = true := by
  induction segments generalizing previousEnd with
  | nil => simp
  | cons segment rest ih =>
    rw [validateSegments, ite_error_eq_ok] at h
    obtain ⟨hvalid, hrest⟩ := h
    refine List.forall_mem_cons.mpr ⟨fun value hvalue => ?_, ih hrest⟩
    have hconfidence : ¬ segment.confidence.any (fun value => !validConfidence value) = true :=
      fun hany => hvalid (.inr (.inr (.inr (.inr (.inr (.inl hany))))))
    rw [Option.mem_def.mp hvalue] at hconfidence
    simpa using hconfidence

theorem validateResult_eq_ok : validateResult result = .ok () ↔
    Text.len result.text ≤ MAX_TEXT_BYTES ∧ result.segments.length ≤ MAX_SEGMENTS ∧
      validateSegments result.durationMillis 0 result.segments = .ok () ∧
        ∃ references, validateProjection result = .ok references ∧ references ≤ MAX_READABLE_REFERENCES := by
  rw [validateResult, ite_error_eq_ok, check_bind_eq_ok, bind_eq_ok]
  simp [and_assoc]

/-- The record of a valid result has finite confidences. -/
theorem finite_of_validateResult (h : validateResult result = .ok ()) : Finite (.ofResult result) := by
  obtain ⟨_, _, hsegments, _⟩ := validateResult_eq_ok.mp h
  intro record hrecord x hx
  obtain ⟨segment, hsegment, rfl⟩ := List.mem_map.mp hrecord
  have hvalid := validateSegments_confidence hsegments segment hsegment x hx
  exact (Bool.and_eq_true_iff.mp hvalid).1

@[simp] theorem SegmentRecord.toSegment_ofSegment (segment : BatchSegment) :
    (SegmentRecord.ofSegment segment).toSegment = segment := rfl

@[simp] theorem SegmentRecord.ofSegment_toSegment (record : SegmentRecord) :
    SegmentRecord.ofSegment record.toSegment = record := rfl

@[simp] theorem ReadableRecord.toSegment_ofSegment (segment : BatchReadableSegment) :
    (ReadableRecord.ofSegment segment).toSegment = segment := rfl

@[simp] theorem ReadableRecord.ofSegment_toSegment (record : ReadableRecord) :
    ReadableRecord.ofSegment record.toSegment = record := rfl

/-- A result is the result of its record under its own profile and any reference. -/
theorem ResultRecord.toResult_ofResult (result : BatchRecognitionResult) (reference : Option ProviderReference) :
    (ResultRecord.ofResult result).toResult result.profile reference =
      { result with providerReference := reference } := by
  simp [ResultRecord.toResult, ResultRecord.ofResult, Option.map_map, Function.comp_def]

/-- The record of a decoded result is the record it was decoded from. -/
theorem ResultRecord.ofResult_toResult (record : ResultRecord) (profile : BatchProfile)
    (reference : Option ProviderReference) : ResultRecord.ofResult (record.toResult profile reference) = record := by
  simp [ResultRecord.toResult, ResultRecord.ofResult, Option.map_map, Function.comp_def]

end Results

section Writing

variable {codec : UuidCodec} {floats : FloatText} {snapshot : BatchJobSnapshot}

/-- The checks of a record which its columns do not show. -/
structure Checked (snapshot : BatchJobSnapshot) : Prop where
  handle : validateHandle snapshot.audio.asStr snapshot.id.asStr = .ok ()
  profile : validateProfile snapshot.job.profile = .ok ()
  keyterms : validateKeyterms snapshot.keyterms = .ok ()
  reference : validateReference snapshot.providerReference = .ok ()
  retryAfter : validateRetryAfter snapshot.job.state snapshot.retryAfterMillis = .ok ()
  presence : validateResultPresence snapshot.job.state snapshot.result.isSome = .ok ()

/-- The columns of a snapshot, but for those of its result. -/
structure PlainColumns (snapshot : BatchJobSnapshot) (record : JobRecord codec) : Prop where
  jobId : codec.canonicalUuid snapshot.id.asStr = .ok record.jobId
  version : i16OfU16 snapshot.job.profile.contractVersion = some record.contractVersion
  provider : record.provider = snapshot.job.profile.provider
  model : record.model = snapshot.job.profile.model
  language : record.language = snapshot.job.profile.language
  fingerprint : record.fingerprint = snapshot.job.fingerprint.bytes
  audioHandle : record.audioHandle = snapshot.audio.asStr
  duration : i64OfU64 snapshot.authoritativeDurationMillis = some record.authoritativeDurationMillis
  keyterms : record.keyterms = .array (snapshot.keyterms.map .string)
  state : flattenState snapshot.job.state =
    (record.state, record.attempt, record.failureCode, record.unknownReason)
  reference : record.providerReference = snapshot.providerReference.map (·.id)
  retryAfter : mapTranspose (fun value => okOr "INVALID_RETRY_AFTER" (i64OfU64 value))
    snapshot.retryAfterMillis = .ok record.retryAfterMillis
  revision : i64OfU64 snapshot.revision = some record.revision

/-- The columns of a snapshot. -/
structure Columns (floats : FloatText) (snapshot : BatchJobSnapshot) (record : JobRecord codec) : Prop
    extends PlainColumns snapshot record where
  resultText : mapTranspose (serializeResult floats snapshot) snapshot.result = .ok record.resultText
  resultJson : mapTranspose (fun value => okOr "INVALID_RESULT_JSON" (Json.parseValue floats value))
    record.resultText = .ok record.resultJson

/-- A snapshot has one value in each column. -/
theorem PlainColumns.unique {record record' : JobRecord codec} (h : PlainColumns snapshot record)
    (h' : PlainColumns snapshot record') :
    { record with resultJson := record'.resultJson, resultText := record'.resultText } = record' := by
  have hjobId := Except.ok.inj (h.jobId.symm.trans h'.jobId)
  have hversion := Option.some.inj (h.version.symm.trans h'.version)
  have hduration := Option.some.inj (h.duration.symm.trans h'.duration)
  have hretryAfter := Except.ok.inj (h.retryAfter.symm.trans h'.retryAfter)
  have hrevision := Option.some.inj (h.revision.symm.trans h'.revision)
  have hstate := h.state.symm.trans h'.state
  simp only [Prod.mk.injEq] at hstate
  cases record'
  simp only [JobRecord.mk.injEq, true_and]
  exact ⟨hjobId, hversion, h.provider.trans h'.provider.symm, h.model.trans h'.model.symm,
    h.language.trans h'.language.symm, h.fingerprint.trans h'.fingerprint.symm,
    h.audioHandle.trans h'.audioHandle.symm, hduration, h.keyterms.trans h'.keyterms.symm, hstate.1, hstate.2.1,
    hstate.2.2.1, hstate.2.2.2, h.reference.trans h'.reference.symm, hretryAfter, hrevision⟩

theorem isSome_of_mapTranspose {α β : Type} {f : α → Except RecordError β} {value : Option α} {result : Option β}
    (h : mapTranspose f value = .ok result) : result.isSome = value.isSome := by
  cases value with
  | none =>
    rw [mapTranspose_none.mp h]
    rfl
  | some a =>
    obtain ⟨b, _, rfl⟩ := mapTranspose_some.mp h
    rfl

/-- A record is written from a snapshot which passes the checks, and holds its columns. -/
theorem WritableRecord.tryFrom_eq_ok {record : WritableRecord codec} :
    WritableRecord.tryFrom codec floats snapshot = .ok record ↔
      Checked snapshot ∧ Columns floats snapshot record.toJobRecord := by
  unfold WritableRecord.tryFrom
  simp only [bind_eq_ok, okOr_eq_ok, pure, Except.pure, Except.ok.injEq]
  constructor
  · rintro ⟨jobId, hjobId, _, hhandle, _, hprofile, _, hkeyterms, _, hreference, _, hretry, resultText, htext, _,
      hpresence, resultJson, hjson, version, hversion, duration, hduration, retryAfter, hretryAfter, revision,
      hrevision, rfl⟩
    rw [isSome_of_mapTranspose htext] at hpresence
    exact ⟨⟨hhandle, hprofile, hkeyterms, hreference, hretry, hpresence⟩, ⟨hjobId, hversion, rfl, rfl, rfl, rfl, rfl,
      hduration, rfl, rfl, rfl, hretryAfter, hrevision⟩, htext, hjson⟩
  · rintro ⟨hchecked, hcolumns⟩
    obtain ⟨⟨hjobId, hversion, hprovider, hmodel, hlanguage, hfingerprint, haudio, hduration, hkeyterms, hstate,
      hreference, hretryAfter, hrevision⟩, htext, hjson⟩ := hcolumns
    have hpresence := hchecked.presence
    rw [← isSome_of_mapTranspose htext] at hpresence
    refine ⟨_, hjobId, (), hchecked.handle, (), hchecked.profile, (), hchecked.keyterms, (), hchecked.reference, (),
      hchecked.retryAfter, _, htext, (), hpresence, _, hjson, _, hversion, _, hduration, _, hretryAfter, _,
      hrevision, ?_⟩
    simp only [hstate, ← hprovider, ← hmodel, ← hlanguage, ← hfingerprint, ← haudio, ← hkeyterms, ← hreference]

/-- The text a result is stored as. -/
def resultText (floats : FloatText) (result : BatchRecognitionResult) : String :=
  ((ResultRecord.ofResult result).toJson floats).toText

theorem serializeResult_eq_ok {result : BatchRecognitionResult} {text : String} :
    serializeResult floats snapshot result = .ok text ↔
      (result.profile = snapshot.job.profile ∧ result.durationMillis = snapshot.authoritativeDurationMillis ∧
        result.providerReference = snapshot.providerReference) ∧ validateResult result = .ok () ∧
          Text.len (resultText floats result) ≤ MAX_SERIALIZED_RESULT_BYTES ∧ resultText floats result = text := by
  rw [serializeResult, ite_error_eq_ok, check_bind_eq_ok]
  simp only [check_bind_eq_ok, boundedJson, ite_error_eq_ok, pure, Except.pure, Except.ok.injEq, resultText]
  simp

/-- A snapshot which passes every check of its record. -/
structure Storable (codec : UuidCodec) (floats : FloatText) (snapshot : BatchJobSnapshot) : Prop
    extends Checked snapshot where
  id : ∃ jobId, codec.canonicalUuid snapshot.id.asStr = .ok jobId
  result : ∀ result ∈ snapshot.result, ∃ text, serializeResult floats snapshot result = .ok text
  version : snapshot.job.profile.contractVersion.toNat < 2 ^ 15
  duration : snapshot.authoritativeDurationMillis.toNat < 2 ^ 63
  revision : snapshot.revision.toNat < 2 ^ 63

theorem i16OfU16_eq_some {n : UInt16} {column : Int16} :
    i16OfU16 n = some column ↔ n.toNat < 2 ^ 15 ∧ Int16.ofNat n.toNat = column := by
  unfold i16OfU16
  split <;> simp_all

theorem i64OfU64_eq_some {n : UInt64} {column : Int64} :
    i64OfU64 n = some column ↔ n.toNat < 2 ^ 63 ∧ Int64.ofNat n.toNat = column := by
  unfold i64OfU64
  split <;> simp_all

theorem exists_mapTranspose {α β : Type} {f : α → Except RecordError β} {value : Option α}
    (h : ∀ a ∈ value, ∃ b, f a = .ok b) : ∃ result, mapTranspose f value = .ok result := by
  cases value with
  | none => exact ⟨none, rfl⟩
  | some a =>
    obtain ⟨b, hb⟩ := h a rfl
    exact ⟨some b, mapTranspose_some.mpr ⟨b, hb, rfl⟩⟩

/-- A delay which passes its check fits its column. -/
theorem retryAfter_fits {state : BatchJobState} {value : Option UInt64}
    (h : validateRetryAfter state value = .ok ()) : ∀ delay ∈ value, delay.toNat < 2 ^ 63 := by
  intro delay hdelay
  rw [validateRetryAfter, ite_error_eq_ok, not_or] at h
  rw [Option.mem_def.mp hdelay] at h
  have hle : delay ≤ MAX_RETRY_AFTER_MILLIS := by simpa using h.1.1
  exact lt_of_le_of_lt (UInt64.le_iff_toNat_le.mp hle) (by decide)

/-- The storable snapshots are those a record is written from. -/
theorem storable_iff : Storable codec floats snapshot ↔
    ∃ record, WritableRecord.tryFrom codec floats snapshot = .ok record := by
  constructor
  · intro h
    obtain ⟨jobId, hjobId⟩ := h.id
    obtain ⟨text, htext⟩ := exists_mapTranspose h.result
    obtain ⟨retryAfter, hretryAfter⟩ := exists_mapTranspose
      (f := fun value => okOr "INVALID_RETRY_AFTER" (i64OfU64 value)) fun delay hdelay =>
        ⟨_, okOr_eq_ok.mpr (i64OfU64_eq_some.mpr ⟨retryAfter_fits h.retryAfter delay hdelay, rfl⟩)⟩
    have hvalue : ∃ value, mapTranspose
        (fun value => okOr "INVALID_RESULT_JSON" (Json.parseValue floats value)) text = .ok value := by
      refine exists_mapTranspose fun value hmem => ?_
      cases hresult : snapshot.result with
      | none =>
        rw [hresult, mapTranspose_none] at htext
        simp [htext] at hmem
      | some result =>
        rw [hresult, mapTranspose_some] at htext
        obtain ⟨written, hwritten, rfl⟩ := htext
        obtain rfl := Option.some.inj hmem
        obtain ⟨_, hvalid, _, rfl⟩ := serializeResult_eq_ok.mp hwritten
        obtain ⟨parsed, hparsed⟩ := ResultRecord.parseValue_toText floats (finite_of_validateResult hvalid)
        exact ⟨parsed, okOr_eq_ok.mpr hparsed⟩
    obtain ⟨value, hvalue⟩ := hvalue
    exact ⟨{ jobId, contractVersion := _, provider := _, model := _, language := _, fingerprint := _,
             audioHandle := _, authoritativeDurationMillis := _, keyterms := _, state := _, attempt := _,
             failureCode := _, unknownReason := _, providerReference := _, retryAfterMillis := _,
             resultJson := _, resultText := _, revision := _ }, WritableRecord.tryFrom_eq_ok.mpr
      ⟨h.toChecked, ⟨hjobId, i16OfU16_eq_some.mpr ⟨h.version, rfl⟩, rfl, rfl, rfl, rfl, rfl,
        i64OfU64_eq_some.mpr ⟨h.duration, rfl⟩, rfl, rfl, rfl, hretryAfter,
        i64OfU64_eq_some.mpr ⟨h.revision, rfl⟩⟩, htext, hvalue⟩⟩
  · rintro ⟨record, hrecord⟩
    obtain ⟨hchecked, hcolumns⟩ := WritableRecord.tryFrom_eq_ok.mp hrecord
    refine { hchecked with
      id := ⟨_, hcolumns.jobId⟩
      result := fun result hresult => ?_
      version := (i16OfU16_eq_some.mp hcolumns.version).1
      duration := (i64OfU64_eq_some.mp hcolumns.duration).1
      revision := (i64OfU64_eq_some.mp hcolumns.revision).1 }
    have htext := hcolumns.resultText
    rw [Option.mem_def.mp hresult, mapTranspose_some] at htext
    obtain ⟨text, htext, _⟩ := htext
    exact ⟨text, htext⟩

end Writing

section Reading

variable {codec : UuidCodec} {floats : FloatText} {snapshot : BatchJobSnapshot} {record : JobRecord codec}

/-- A canonical identity is the formatting of its column. -/
theorem canonicalUuid_eq_ok {value : String} {uuid : codec.Uuid} :
    codec.canonicalUuid value = .ok uuid ↔ codec.hyphenated uuid = value := by
  constructor
  · exact codec.hyphenated_of_canonicalUuid
  · rintro rfl
    exact codec.canonicalUuid_hyphenated uuid

theorem profile_eq_some {version : UInt16} {provider model language : String} {profile : BatchProfile} :
    (BatchProfile.new version provider model language).toOption = some profile ↔
      profile.contractVersion = version ∧ provider = profile.provider ∧ model = profile.model ∧
        language = profile.language := by
  constructor
  · intro h
    cases hnew : BatchProfile.new version provider model language with
    | error error => simp [hnew, Except.toOption] at h
    | ok built =>
      simp only [hnew, Except.toOption, Option.some.injEq] at h
      obtain ⟨hversion, hprovider, hmodel, hlanguage⟩ := BatchProfile.eq_of_new hnew
      subst h
      exact ⟨hversion, hprovider.symm, hmodel.symm, hlanguage.symm⟩
  · rintro ⟨rfl, rfl, rfl, rfl⟩
    simp [Except.toOption]

theorem fingerprint_eq_some {bytes : List UInt8} {fingerprint : BatchRequestFingerprint} :
    (if h : bytes.length = 32 then some ⟨bytes, h⟩ else none) = some fingerprint ↔ bytes = fingerprint.bytes := by
  constructor
  · intro h
    split at h
    · obtain rfl := Option.some.inj h
      rfl
    · cases h
  · rintro rfl
    rw [dif_pos fingerprint.length_eq]

/-- A keyterms column holds strings. -/
theorem keyterms_eq_some {doc : Json} {keyterms : List String} :
    Json.asArray Json.asString doc = some keyterms ↔ doc = .array (keyterms.map .string) := by
  constructor
  · intro h
    cases doc with
    | array items =>
      rw [Json.asArray] at h
      congr 1
      induction items generalizing keyterms with
      | nil =>
        obtain rfl : keyterms = [] := by simpa using h.symm
        rfl
      | cons item rest ih =>
        rw [List.mapM_cons] at h
        cases item with
        | string value =>
          obtain ⟨values, hvalues, rfl⟩ : ∃ values, rest.mapM Json.asString = some values ∧
              value :: values = keyterms := by
            simpa [Json.asString, Option.bind_eq_some_iff] using h
          rw [ih hvalues, List.map_cons]
        | _ => cases h
    | _ => cases h
  · rintro rfl
    exact Json.asArray_map fun value _ => rfl

/-- A retry delay column is the delay it was written from. -/
theorem retryAfter_iff {value : Option UInt64} {column : Option Int64} :
    mapTranspose (fun value => okOr "INVALID_RETRY_AFTER" (i64OfU64 value)) value = .ok column ↔
      mapTranspose (fun value => okOr "INVALID_RETRY_AFTER" (u64OfI64 value)) column = .ok value := by
  cases value <;> cases column <;> simp [u64OfI64_iff]

/-- A restored result has the reference of its row. -/
theorem restoreResult_reference {text : Option String} {profile : BatchProfile} {duration : UInt64}
    {reference : Option ProviderReference} {result : Option BatchRecognitionResult}
    (h : restoreResult floats text profile duration reference = .ok result) :
    result.elim reference (·.providerReference) = reference := by
  cases text with
  | none =>
    obtain rfl := Except.ok.inj h
    rfl
  | some text =>
    rw [restoreResult, check_bind_eq_ok, bind_eq_ok] at h
    obtain ⟨_, record, _, h⟩ := h
    rw [ite_error_eq_ok, check_bind_eq_ok] at h
    obtain ⟨_, _, h⟩ := h
    obtain rfl := Except.ok.inj h
    rfl

/-- A record decodes to the snapshot which passes the checks, has its columns and a reference without an
operation kind, and whose result is restored from the text of the record. -/
theorem BatchJobSnapshot.tryFrom_eq_ok : BatchJobSnapshot.tryFrom codec floats record = .ok snapshot ↔
    Checked snapshot ∧ PlainColumns snapshot record ∧
      snapshot.providerReference = record.providerReference.map .new ∧
        ∃ text, compatibleResultText floats record.resultJson record.resultText = .ok text ∧
          restoreResult floats text snapshot.job.profile snapshot.authoritativeDurationMillis
            snapshot.providerReference = .ok snapshot.result := by
  unfold BatchJobSnapshot.tryFrom
  simp only [bind_eq_ok, okOr_eq_ok, reference_eq_ok, profile_eq_some, fingerprint_eq_some, keyterms_eq_some,
    restoreState_iff, restoreRetryAfter_eq_ok, pure, Except.pure, Except.ok.injEq]
  constructor
  · rintro ⟨version, hversion, profile, ⟨hprofileVersion, hprovider, hmodel, hlanguage⟩, _, hprofile, fingerprint,
      hfingerprint, _, hhandle, duration, hduration, keyterms, hkeytermsColumn, _, hkeyterms, _, ⟨rfl, hreference⟩,
      state, hstate, text, htext, result, hresult, _, hpresence, retryAfter, ⟨hretryAfter, hretry⟩, revision,
      hrevision, rfl⟩
    have hrestored := restoreResult_reference hresult
    refine ⟨⟨hhandle, hprofile, hkeyterms, ?_, hretry, hpresence⟩, ⟨canonicalUuid_eq_ok.mpr rfl,
      u16OfI16_iff.mpr ?_, hprovider, hmodel, hlanguage, hfingerprint, rfl, u64OfI64_iff.mpr hduration,
      hkeytermsColumn, hstate, ?_, retryAfter_iff.mpr hretryAfter, u64OfI64_iff.mpr hrevision⟩, hrestored, text,
      htext, ?_⟩
    · rw [hrestored]
      exact hreference
    · rw [hversion, BatchJob.restore, hprofileVersion]
    · rw [hrestored, Option.map_map]
      exact Option.map_id'.symm
    · rw [hrestored]
      exact hresult
  · rintro ⟨hchecked, hcolumns, hreference, text, htext, hresult⟩
    refine ⟨_, u16OfI16_iff.mp hcolumns.version, snapshot.job.profile, ⟨rfl, hcolumns.provider, hcolumns.model,
      hcolumns.language⟩, (), hchecked.profile, snapshot.job.fingerprint, hcolumns.fingerprint, (), ?_, _,
      u64OfI64_iff.mp hcolumns.duration, _, hcolumns.keyterms, (), hchecked.keyterms, _, ⟨hreference,
      hchecked.reference⟩, _, hcolumns.state, text, htext, _, hresult, (), hchecked.presence, _,
      ⟨retryAfter_iff.mp hcolumns.retryAfter, hchecked.retryAfter⟩, _, u64OfI64_iff.mp hcolumns.revision, ?_⟩
    · rw [hcolumns.audioHandle, canonicalUuid_eq_ok.mp hcolumns.jobId]
      exact hchecked.handle
    · rw [restoreResult_reference hresult, canonicalUuid_eq_ok.mp hcolumns.jobId, hcolumns.audioHandle]
      rfl

end Reading

section RoundTrip

variable {codec : UuidCodec} {floats : FloatText} {snapshot : BatchJobSnapshot}

theorem validateReference_untyped (reference : Option ProviderReference) :
    validateReference (reference.map untypedReference) = validateReference reference := by
  cases reference <;> rfl

/-- A serialized result is restored, under the reference of its row. -/
theorem restoreResult_resultText {result : BatchRecognitionResult} (hvalid : validateResult result = .ok ())
    (hbounded : Text.len (resultText floats result) ≤ MAX_SERIALIZED_RESULT_BYTES)
    (reference : Option ProviderReference) :
    restoreResult floats (some (resultText floats result)) result.profile result.durationMillis reference =
      .ok (some { result with providerReference := reference }) := by
  have hparse := ResultRecord.parse_toText floats (finite_of_validateResult hvalid)
  have hrestored : validateResult { result with providerReference := reference } = .ok () := hvalid
  rw [restoreResult, check_bind_eq_ok, bind_eq_ok]
  refine ⟨if_neg (not_lt.mpr hbounded), .ofResult result, okOr_eq_ok.mpr hparse, ?_⟩
  rw [ResultRecord.toResult_ofResult, if_neg (by simp), check_bind_eq_ok]
  exact ⟨hrestored, rfl⟩

/-- What a snapshot is written to decodes to the snapshot without operation kinds. -/
theorem tryFrom_of_written {record : WritableRecord codec}
    (h : WritableRecord.tryFrom codec floats snapshot = .ok record) :
    BatchJobSnapshot.tryFrom codec floats record.toJobRecord = .ok (untyped snapshot) := by
  obtain ⟨hchecked, hcolumns⟩ := WritableRecord.tryFrom_eq_ok.mp h
  have hreference : (untyped snapshot).providerReference = record.providerReference.map .new := by
    rw [hcolumns.reference, Option.map_map]
    rfl
  refine BatchJobSnapshot.tryFrom_eq_ok.mpr ⟨?_, ?_, hreference, ?_⟩
  · refine { hchecked with reference := ?_, presence := ?_ }
    · rw [untyped, validateReference_untyped]
      exact hchecked.reference
    · have hpresence := hchecked.presence
      simpa [untyped] using hpresence
  · refine { hcolumns.toPlainColumns with reference := ?_ }
    rw [hcolumns.reference, untyped, Option.map_map]
    rfl
  · have htext := hcolumns.resultText
    have hjson := hcolumns.resultJson
    cases hresult : snapshot.result with
    | none =>
      rw [hresult, mapTranspose_none] at htext
      rw [htext, mapTranspose_none] at hjson
      exact ⟨none, by rw [hjson, htext]; rfl, by rw [untyped, hresult]; rfl⟩
    | some result =>
      rw [hresult, mapTranspose_some] at htext
      obtain ⟨text, hserialized, htext⟩ := htext
      obtain ⟨⟨hprofile, hduration, hown⟩, hvalid, hbounded, rfl⟩ := serializeResult_eq_ok.mp hserialized
      rw [htext, mapTranspose_some] at hjson
      obtain ⟨value, hvalue, hjson⟩ := hjson
      refine ⟨some (resultText floats result), ?_, ?_⟩
      · rw [hjson, htext, compatibleResultText, bind_eq_ok]
        exact ⟨value, hvalue, by rw [Json.valueEq_self]; rfl⟩
      · have hrestored := restoreResult_resultText hvalid hbounded (untyped snapshot).providerReference
        rw [hprofile, hduration] at hrestored
        refine hrestored.trans ?_
        simp [untyped, hresult, ← hown, hprofile, hduration]

/-- The result of a decoded record is valid and belongs to its snapshot. -/
theorem result_of_decoded {record : JobRecord codec} (h : BatchJobSnapshot.tryFrom codec floats record = .ok snapshot)
    {result : BatchRecognitionResult} (hresult : snapshot.result = some result) :
    (result.profile = snapshot.job.profile ∧ result.durationMillis = snapshot.authoritativeDurationMillis ∧
      result.providerReference = snapshot.providerReference) ∧ validateResult result = .ok () := by
  obtain ⟨_, _, _, text, _, hrestored⟩ := BatchJobSnapshot.tryFrom_eq_ok.mp h
  rw [hresult] at hrestored
  cases text with
  | none => cases hrestored
  | some text =>
    rw [restoreResult, check_bind_eq_ok, bind_eq_ok] at hrestored
    obtain ⟨_, stored, _, hrestored⟩ := hrestored
    rw [ite_error_eq_ok, check_bind_eq_ok] at hrestored
    obtain ⟨hduration, hvalid, hsame⟩ := hrestored
    obtain rfl := Option.some.inj (Except.ok.inj hsame)
    exact ⟨⟨rfl, not_not.mp hduration, rfl⟩, hvalid⟩

/-- A decoded snapshot can be written when the text of its result is within the cap. -/
theorem storable_of_decoded {record : JobRecord codec}
    (h : BatchJobSnapshot.tryFrom codec floats record = .ok snapshot) :
    Storable codec floats snapshot ↔
      ∀ result ∈ snapshot.result, Text.len (resultText floats result) ≤ MAX_SERIALIZED_RESULT_BYTES := by
  constructor
  · intro hstorable result hresult
    obtain ⟨text, htext⟩ := hstorable.result result hresult
    exact (serializeResult_eq_ok.mp htext).2.2.1
  · intro hbounded
    obtain ⟨hchecked, hcolumns, _⟩ := BatchJobSnapshot.tryFrom_eq_ok.mp h
    refine { hchecked with
      id := ⟨_, hcolumns.jobId⟩
      result := fun result hresult => ?_
      version := (i16OfU16_eq_some.mp hcolumns.version).1
      duration := (i64OfU64_eq_some.mp hcolumns.duration).1
      revision := (i64OfU64_eq_some.mp hcolumns.revision).1 }
    obtain ⟨hown, hvalid⟩ := result_of_decoded h hresult
    exact ⟨_, serializeResult_eq_ok.mpr ⟨hown, hvalid, hbounded result hresult, rfl⟩⟩

/-- The columns of a decoded snapshot are those of its record, but for its result. -/
theorem columns_of_decoded {record : JobRecord codec} {written : WritableRecord codec}
    (h : BatchJobSnapshot.tryFrom codec floats record = .ok snapshot)
    (hwritten : WritableRecord.tryFrom codec floats snapshot = .ok written) :
    { record with resultJson := written.resultJson, resultText := written.resultText } = written.toJobRecord := by
  obtain ⟨_, hcolumns, _⟩ := BatchJobSnapshot.tryFrom_eq_ok.mp h
  obtain ⟨_, hwrittenColumns⟩ := WritableRecord.tryFrom_eq_ok.mp hwritten
  exact hcolumns.unique hwrittenColumns.toPlainColumns

/-- What a snapshot is written to decodes to the snapshot without operation kinds; and a decoded snapshot whose
result is within the cap is written to the columns it was decoded from, but for its result. -/
theorem records_roundTrip (codec : UuidCodec) (floats : FloatText) :
    (∀ snapshot record, WritableRecord.tryFrom codec floats snapshot = .ok record →
      BatchJobSnapshot.tryFrom codec floats record.toJobRecord = .ok (untyped snapshot)) ∧
    ∀ record snapshot, BatchJobSnapshot.tryFrom codec floats record = .ok snapshot →
      (∀ result ∈ snapshot.result, Text.len (resultText floats result) ≤ MAX_SERIALIZED_RESULT_BYTES) →
        ∃ written, WritableRecord.tryFrom codec floats snapshot = .ok written ∧
          { record with resultJson := written.resultJson, resultText := written.resultText } =
            written.toJobRecord := by
  refine ⟨fun snapshot record => tryFrom_of_written, fun record snapshot h hbounded => ?_⟩
  obtain ⟨written, hwritten⟩ := storable_iff.mp ((storable_of_decoded h).mpr hbounded)
  exact ⟨written, hwritten, columns_of_decoded h hwritten⟩

end RoundTrip

section Oversized

/-- A text of one letter. -/
def letters (n : ℕ) : String := String.ofList (List.replicate n 'a')

/-- A text of `n` letters in one second, without a confidence or a speaker. -/
def plainSegment (n i : ℕ) : SegmentRecord := ⟨.ofNat i, .ofNat (i + 1), letters n, none, none⟩

/-- A result of eight texts. -/
def plainRecord (n : ℕ) : ResultRecord where
  text := ""
  durationMillis := 8
  providerDurationMillis := none
  segments := (List.range 8).map (plainSegment n)
  readableSegments := none

/-- The same segment with its absent fields left out. -/
def sparseSegment (record : SegmentRecord) : Json :=
  .object [("start_millis", .ofU64 record.startMillis), ("end_millis", .ofU64 record.endMillis),
    ("text", .string record.text)]

/-- The same result with its absent fields left out. -/
def sparseRecord (n : ℕ) : Json :=
  .object [("text", .string ""), ("duration_millis", .ofU64 8),
    ("segments", .array ((plainRecord n).segments.map sparseSegment))]

theorem len_letters (n : ℕ) : Text.len (letters n) = n := by
  rw [letters, Text.len_of_ascii]
  · simp
  · intro c hc
    rw [String.toList_ofList] at hc
    rw [List.eq_of_mem_replicate hc]
    decide

theorem bytes_quoted_letters (n : ℕ) : Text.bytes (Json.quoted (letters n)) = n + 2 := by
  rw [Json.bytes_quoted_of_plain, len_letters]
  intro c hc
  rw [letters, String.toList_ofList] at hc
  rw [List.eq_of_mem_replicate hc]
  decide

theorem bytes_digit {i : ℕ} (h : i < 10) : Text.bytes (NumberLiteral.ofU64 (.ofNat i)).chars = 1 := by
  have hdigits : ∀ i < 10, Text.bytes (NumberLiteral.ofU64 (.ofNat i)).chars = 1 := by decide
  exact hdigits i h

theorem bytes_sparseSegment (n : ℕ) {i : ℕ} (h : i < 8) :
    Text.bytes (sparseSegment (plainSegment n i)).write = n + 43 := by
  have hkeys : Text.bytes (Json.quoted "start_millis") = 14 ∧ Text.bytes (Json.quoted "end_millis") = 12 ∧
      Text.bytes (Json.quoted "text") = 6 := by decide
  have hmarks : ('{' : Char).utf8Size = 1 ∧ (':' : Char).utf8Size = 1 ∧ (',' : Char).utf8Size = 1 ∧
      ('}' : Char).utf8Size = 1 := by decide
  simp only [sparseSegment, plainSegment, Json.write, Json.writeMembers, Json.ofU64, Text.bytes_cons,
    Text.bytes_append, Text.bytes_nil, bytes_quoted_letters, bytes_digit (show i < 10 by omega),
    bytes_digit (show i + 1 < 10 by omega), hkeys, hmarks]
  omega

/-- Written in full, the absent fields are null. -/
theorem bytes_plainSegment (floats : FloatText) (n : ℕ) {i : ℕ} (h : i < 8) :
    Text.bytes ((plainSegment n i).toJson floats).write = n + 76 := by
  have hkeys : Text.bytes (Json.quoted "start_millis") = 14 ∧ Text.bytes (Json.quoted "end_millis") = 12 ∧
      Text.bytes (Json.quoted "text") = 6 ∧ Text.bytes (Json.quoted "confidence") = 12 ∧
        Text.bytes (Json.quoted "speaker") = 9 := by decide
  have hmarks : ('{' : Char).utf8Size = 1 ∧ (':' : Char).utf8Size = 1 ∧ (',' : Char).utf8Size = 1 ∧
      ('}' : Char).utf8Size = 1 ∧ ('n' : Char).utf8Size = 1 ∧ ('u' : Char).utf8Size = 1 ∧
        ('l' : Char).utf8Size = 1 := by decide
  simp only [SegmentRecord.toJson, plainSegment, Json.ofOption, Option.elim_none, Json.write, Json.writeMembers,
    Json.ofU64, Text.bytes_cons, Text.bytes_append, Text.bytes_nil, bytes_quoted_letters,
    bytes_digit (show i < 10 by omega), bytes_digit (show i + 1 < 10 by omega), hkeys, hmarks]
  omega

/-- The items of eight segments take the bytes of each of them and seven commas. -/
theorem bytes_writeSegments {encode : SegmentRecord → Json} {n size : ℕ}
    (h : ∀ i < 8, Text.bytes (encode (plainSegment n i)).write = size) :
    Text.bytes (Json.writeItems ((plainRecord n).segments.map encode)) + 1 = 8 * (size + 1) := by
  rw [Json.bytes_writeItems (by simp [plainRecord]), plainRecord, List.map_map, List.map_map,
    List.map_congr_left (g := fun _ => size + 1)]
  · simp only [List.map_const', List.length_range, List.sum_replicate_nat]
  · intro i hi
    rw [Function.comp_apply, Function.comp_apply, h i (List.mem_range.mp hi)]

theorem len_sparseRecord (n : ℕ) : Text.len (sparseRecord n).toText = 8 * n + 396 := by
  have hkeys : Text.bytes (Json.quoted "text") = 6 ∧ Text.bytes (Json.quoted "duration_millis") = 17 ∧
      Text.bytes (Json.quoted "segments") = 10 ∧ Text.bytes (Json.quoted "") = 2 := by decide
  have hmarks : ('{' : Char).utf8Size = 1 ∧ (':' : Char).utf8Size = 1 ∧ (',' : Char).utf8Size = 1 ∧
      ('}' : Char).utf8Size = 1 := by decide
  have hduration : Text.bytes (NumberLiteral.ofU64 8).chars = 1 := by decide
  have hitems := bytes_writeSegments fun i hi => bytes_sparseSegment n hi
  have harray := Json.bytes_write_array ((plainRecord n).segments.map sparseSegment)
  rw [Json.toText, Text.len_ofList, sparseRecord]
  generalize Json.array ((plainRecord n).segments.map sparseSegment) = segments at harray ⊢
  simp only [Json.write, Json.writeMembers, Json.ofU64, Text.bytes_cons, Text.bytes_append, Text.bytes_nil, hkeys,
    hmarks, hduration, harray]
  omega

theorem len_plainRecord (floats : FloatText) (n : ℕ) :
    Text.len ((plainRecord n).toJson floats).toText = 8 * n + 717 := by
  have hkeys : Text.bytes (Json.quoted "text") = 6 ∧ Text.bytes (Json.quoted "duration_millis") = 17 ∧
      Text.bytes (Json.quoted "segments") = 10 ∧ Text.bytes (Json.quoted "") = 2 ∧
        Text.bytes (Json.quoted "provider_duration_millis") = 26 ∧
          Text.bytes (Json.quoted "readable_segments") = 19 := by decide
  have hmarks : ('{' : Char).utf8Size = 1 ∧ (':' : Char).utf8Size = 1 ∧ (',' : Char).utf8Size = 1 ∧
      ('}' : Char).utf8Size = 1 ∧ ('n' : Char).utf8Size = 1 ∧ ('u' : Char).utf8Size = 1 ∧
        ('l' : Char).utf8Size = 1 := by decide
  have hduration : Text.bytes (NumberLiteral.ofU64 (plainRecord n).durationMillis).chars = 1 := by
    change Text.bytes (NumberLiteral.ofU64 8).chars = 1
    decide
  have hitems : Text.bytes (Json.writeItems ((plainRecord n).segments.map (·.toJson floats))) + 1 =
      8 * (n + 76 + 1) := bytes_writeSegments fun i hi => bytes_plainSegment floats n hi
  have harray := Json.bytes_write_array ((plainRecord n).segments.map (·.toJson floats))
  have habsent : (plainRecord n).text = "" ∧ (plainRecord n).providerDurationMillis = none ∧
      (plainRecord n).readableSegments = none := ⟨rfl, rfl, rfl⟩
  rw [Json.toText, Text.len_ofList, ResultRecord.toJson]
  generalize Json.array ((plainRecord n).segments.map (·.toJson floats)) = segments at harray ⊢
  simp only [habsent, Json.ofOption, Option.elim_none, Json.write, Json.writeMembers, Json.ofU64, Text.bytes_cons,
    Text.bytes_append, Text.bytes_nil, hkeys, hmarks, hduration, harray, ← Nat.add_assoc, Nat.reduceAdd]
  omega

theorem ofJson_sparseRecord (floats : FloatText) (n : ℕ) :
    ResultRecord.ofJson floats (sparseRecord n) = some (plainRecord n) := by
  have hsegment : ∀ segment ∈ (plainRecord n).segments,
      SegmentRecord.ofJson floats (sparseSegment segment) = some segment := by
    intro segment hsegment
    obtain ⟨i, _, rfl⟩ := List.mem_map.mp hsegment
    simp [SegmentRecord.ofJson, sparseSegment, plainSegment, Json.fields, Json.required, Json.optional,
      Json.asString]
  have hsegments := Json.asArray_map hsegment
  simp [ResultRecord.ofJson, Json.fields, sparseRecord, Json.required, Json.optional, Json.asString, hsegments]
  rfl

theorem validateSegments_plain {n : ℕ} (hpos : 0 < n) (hle : n ≤ MAX_TEXT_BYTES) {k count : ℕ}
    (h : k + count ≤ 8) :
    validateSegments 8 (.ofNat k) ((List.range' k count).map fun i => (plainSegment n i).toSegment) = .ok () := by
  induction count generalizing k with
  | zero => rfl
  | succ count ih =>
    have htext : letters n ≠ "" := fun hempty => by
      have hlen := len_letters n
      rw [hempty] at hlen
      exact hpos.ne hlen
    have hbounded : ¬ Text.len (letters n) > MAX_TEXT_BYTES := by
      rw [len_letters]
      omega
    have hnext : ∀ k < 8, UInt64.ofNat k < .ofNat (k + 1) ∧ UInt64.ofNat (k + 1) ≤ 8 := by decide
    obtain ⟨hbefore, hwithin⟩ := hnext k (by omega)
    rw [List.range'_succ, List.map_cons, validateSegments, if_neg]
    · exact ih (by omega)
    · simp only [plainSegment, SegmentRecord.toSegment, Option.any_none, Bool.false_eq_true, or_false, not_or,
        UInt64.not_lt, UInt64.not_le]
      exact ⟨UInt64.le_refl _, hbefore, hwithin, htext, hbounded⟩

theorem validateResult_plainRecord {n : ℕ} (hpos : 0 < n) (hle : n ≤ MAX_TEXT_BYTES) (profile : BatchProfile)
    (reference : Option ProviderReference) :
    validateResult ((plainRecord n).toResult profile reference) = .ok () := by
  have hsegments : validateSegments 8 (.ofNat 0)
      ((List.range' 0 8).map fun i => (plainSegment n i).toSegment) = .ok () :=
    validateSegments_plain hpos hle (by decide)
  refine validateResult_eq_ok.mpr ⟨Nat.zero_le _, by simp [plainRecord, ResultRecord.toResult, MAX_SEGMENTS], ?_,
    0, rfl, Nat.zero_le _⟩
  rw [← List.range_eq_range', ← Function.comp_def, ← List.map_map] at hsegments
  exact hsegments

/-- A row which holds a result without its absent fields, and no exact text. -/
def sparseRow (n : ℕ) : JobRecord .canonicalForms where
  jobId := UuidCodec.nilUuid
  contractVersion := 2
  provider := "deepgram"
  model := "nova-3"
  language := "multi"
  fingerprint := List.replicate 32 0
  audioHandle := "00000000-0000-0000-0000-000000000000-" ++
    "0000000000000000000000000000000000000000000000000000000000000000.ogg"
  authoritativeDurationMillis := 8
  keyterms := .array []
  state := "completed"
  attempt := some 1
  failureCode := none
  unknownReason := none
  providerReference := none
  retryAfterMillis := none
  resultJson := some (sparseRecord n)
  resultText := none
  revision := 2

def plainProfile : BatchProfile := .nova3Multi

/-- The snapshot of the row. -/
def plainSnapshot (n : ℕ) : BatchJobSnapshot where
  id := ⟨"00000000-0000-0000-0000-000000000000"⟩
  job := ⟨plainProfile, ⟨List.replicate 32 0, by decide⟩, .completed .MIN⟩
  audio := ⟨"00000000-0000-0000-0000-000000000000-" ++
    "0000000000000000000000000000000000000000000000000000000000000000.ogg"⟩
  authoritativeDurationMillis := 8
  keyterms := []
  providerReference := none
  retryAfterMillis := none
  result := some ((plainRecord n).toResult plainProfile none)
  revision := 2

/-- A row within the cap decodes to its snapshot. -/
theorem tryFrom_sparseRow {n : ℕ} (hpos : 0 < n) (hle : n ≤ MAX_TEXT_BYTES)
    (hbounded : 8 * n + 396 ≤ MAX_SERIALIZED_RESULT_BYTES) (floats : FloatText) :
    BatchJobSnapshot.tryFrom .canonicalForms floats (sparseRow n) = .ok (plainSnapshot n) := by
  have hdepth : (sparseRecord n).depth < Json.RECURSION_LIMIT := by
    have hitems : Json.itemsDepth ((plainRecord n).segments.map sparseSegment) ≤ 1 :=
      Json.itemsDepth_map_le fun segment _ => by simp [sparseSegment, Json.depth, Json.membersDepth, Json.ofU64]
    simp only [sparseRecord, Json.depth, Json.membersDepth, Json.ofU64, Json.RECURSION_LIMIT]
    omega
  have hhandle : validateHandle (plainSnapshot 0).audio.asStr (plainSnapshot 0).id.asStr = .ok () := by decide
  have hprofile : validateProfile plainProfile = .ok () := by decide
  have hjobId : UuidCodec.canonicalForms.canonicalUuid (plainSnapshot 0).id.asStr = .ok (sparseRow 0).jobId := by
    decide
  refine BatchJobSnapshot.tryFrom_eq_ok.mpr ⟨⟨hhandle, hprofile, rfl, rfl, rfl, rfl⟩, ?_, rfl,
    some (sparseRecord n).toText, rfl, ?_⟩
  · exact ⟨hjobId, rfl, rfl, rfl, rfl, rfl, rfl, rfl, rfl, rfl, rfl, rfl, rfl⟩
  · rw [restoreResult, check_bind_eq_ok, bind_eq_ok]
    refine ⟨if_neg (not_lt.mpr ((len_sparseRecord n).trans_le hbounded)), plainRecord n, ?_, ?_⟩
    · rw [okOr_eq_ok, Json.parse_toText hdepth, Option.bind_some, ofJson_sparseRecord]
    · have hvalid := validateResult_plainRecord hpos hle plainProfile none
      exact check_bind_eq_ok.mpr ⟨hvalid, rfl⟩

/-- A decoded row whose result is over the cap when it is written in full: re-encoding its snapshot fails. -/
theorem oversizedRow_notWritten :
    BatchJobSnapshot.tryFrom .canonicalForms .bits (sparseRow 4194254) = .ok (plainSnapshot 4194254) ∧
      ∀ record, WritableRecord.tryFrom .canonicalForms .bits (plainSnapshot 4194254) ≠ .ok record := by
  have hdecoded := tryFrom_sparseRow (n := 4194254) (by decide) (by decide) (by decide) .bits
  refine ⟨hdecoded, fun record hrecord => ?_⟩
  have hbounded := (storable_of_decoded hdecoded).mp (storable_iff.mpr ⟨record, hrecord⟩) _ rfl
  rw [resultText, ResultRecord.ofResult_toResult, len_plainRecord] at hbounded
  exact absurd hbounded (by decide)

/-- A short result is written and read back. -/
theorem records_roundTrip_short :
    ∃ record, WritableRecord.tryFrom .canonicalForms .bits (plainSnapshot 1) = .ok record ∧
      BatchJobSnapshot.tryFrom .canonicalForms .bits record.toJobRecord = .ok (untyped (plainSnapshot 1)) := by
  obtain ⟨hread, hwrite⟩ := records_roundTrip .canonicalForms .bits
  have hdecoded := tryFrom_sparseRow (n := 1) (by decide) (by decide) (by decide) .bits
  have hbounded : ∀ result ∈ (plainSnapshot 1).result,
      Text.len (resultText .bits result) ≤ MAX_SERIALIZED_RESULT_BYTES := by
    rintro result ⟨⟩
    rw [resultText, ResultRecord.ofResult_toResult, len_plainRecord]
    decide
  obtain ⟨record, hrecord, _⟩ := hwrite _ _ hdecoded hbounded
  exact ⟨record, hrecord, hread _ _ hrecord⟩

end Oversized

end Voicetext.Gateway.Storage
