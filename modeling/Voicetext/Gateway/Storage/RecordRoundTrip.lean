import Voicetext.Common.Fallible
import Voicetext.Common.JsonFields
import Voicetext.Gateway.Storage.Postgres
import Voicetext.Gateway.Storage.Records

/-!
# Documents and columns of records are read back

The text of a stored result reads back as the result, and each column as the value it was written from. A
column which holds anything else is refused.
-/

namespace Voicetext.Gateway.Storage

open Voicetext.Common Voicetext.Speech.Domain Voicetext.Speech.Application

section Checks

variable {α β : Type} {code : String}

@[simp] theorem okOr_eq_ok {value : Option α} {a : α} : okOr code value = .ok a ↔ value = some a := by
  cases value <;> simp [okOr]

@[simp] theorem mapTranspose_none {f : α → Except RecordError β} {result : Option β} :
    mapTranspose f none = .ok result ↔ result = none := by
  simp [mapTranspose, eq_comm]

/-- A present column converts when its value does. -/
@[simp] theorem mapTranspose_some {f : α → Except RecordError β} {a : α} {result : Option β} :
    mapTranspose f (some a) = .ok result ↔ ∃ b, f a = .ok b ∧ result = some b := by
  cases hf : f a <;> simp [mapTranspose, hf, Except.map, eq_comm]

end Checks

section Text

variable (floats : FloatText)

/-- Every confidence of a record is a finite number. -/
def Finite (record : ResultRecord) : Prop :=
  ∀ segment ∈ record.segments, ∀ x ∈ segment.confidence, x.isFinite = true

theorem SegmentRecord.ofJson_toJson {record : SegmentRecord}
    (h : ∀ x ∈ record.confidence, x.isFinite = true) :
    SegmentRecord.ofJson floats (record.toJson floats) = some record := by
  have hconfidence : Json.optional (Json.asF32 floats)
      (some (Json.ofOption (Json.ofF32 floats) record.confidence)) = some record.confidence :=
    Json.optional_ofOption fun x hx =>
      ⟨by simp [Json.ofF32, h x hx], Json.asF32_ofF32 floats (h x hx)⟩
  have hspeaker : Json.optional Json.asString (some (Json.ofOption .string record.speaker)) =
      some record.speaker := Json.optional_ofOption fun x _ => ⟨by simp, rfl⟩
  have hfields : Json.fields ["start_millis", "end_millis", "text", "confidence", "speaker"]
      (record.toJson floats) = some [some (.ofU64 record.startMillis), some (.ofU64 record.endMillis),
        some (.string record.text), some (.ofOption (.ofF32 floats) record.confidence),
        some (.ofOption .string record.speaker)] := by
    simp [Json.fields, SegmentRecord.toJson]
  rw [SegmentRecord.ofJson, hfields]
  simp [Json.required, Json.asString, hconfidence, hspeaker]

theorem ReadableRecord.ofJson_toJson (record : ReadableRecord) :
    ReadableRecord.ofJson record.toJson = some record := by
  have hindices : Json.asArray Json.asU64 (.array (record.sourceSegmentIndices.map .ofU64)) =
      some record.sourceSegmentIndices := Json.asArray_map fun n _ => Json.asU64_ofU64 n
  have hfields : Json.fields ["start_millis", "end_millis", "text", "source_segment_indices"]
      record.toJson = some [some (.ofU64 record.startMillis), some (.ofU64 record.endMillis),
        some (.string record.text),
        some (.array (record.sourceSegmentIndices.map .ofU64))] := by
    simp [Json.fields, ReadableRecord.toJson]
  rw [ReadableRecord.ofJson, hfields]
  simp [Json.required, Json.asString, hindices]

/-- A record with finite confidences is read back from its document. -/
theorem ResultRecord.ofJson_toJson {record : ResultRecord} (h : Finite record) :
    ResultRecord.ofJson floats (record.toJson floats) = some record := by
  have hsegments : Json.asArray (SegmentRecord.ofJson floats)
      (.array (record.segments.map (·.toJson floats))) = some record.segments :=
    Json.asArray_map fun segment hsegment => SegmentRecord.ofJson_toJson floats (h segment hsegment)
  have hprovider : Json.optional Json.asU64
      (some (Json.ofOption .ofU64 record.providerDurationMillis)) = some record.providerDurationMillis :=
    Json.optional_ofOption fun n _ => ⟨by simp [Json.ofU64], Json.asU64_ofU64 n⟩
  have hreadable : Json.optional (Json.asArray ReadableRecord.ofJson)
      (some (Json.ofOption (fun segments => .array (segments.map (·.toJson)))
        record.readableSegments)) = some record.readableSegments :=
    Json.optional_ofOption fun segments _ =>
      ⟨by simp, Json.asArray_map fun segment _ => ReadableRecord.ofJson_toJson segment⟩
  have hfields : Json.fields
      ["text", "duration_millis", "provider_duration_millis", "segments", "readable_segments"]
      (record.toJson floats) = some [some (.string record.text), some (.ofU64 record.durationMillis),
        some (.ofOption .ofU64 record.providerDurationMillis),
        some (.array (record.segments.map (·.toJson floats))),
        some (.ofOption (fun segments => .array (segments.map (·.toJson)))
          record.readableSegments)] := by
    simp [Json.fields, ResultRecord.toJson]
  rw [ResultRecord.ofJson, hfields]
  simp [Json.required, Json.asString, hsegments, hprovider, hreadable]

/-- No record nests deeper than an index inside a readable segment. -/
theorem ResultRecord.depth_toJson_le (record : ResultRecord) : (record.toJson floats).depth ≤ 4 := by
  have hoption : ∀ {α : Type} (encode : α → Json) (n : ℕ) (value : Option α),
      (∀ x, (encode x).depth ≤ n) → (Json.ofOption encode value).depth ≤ n := by
    intro α encode n value h
    cases value with
    | none => exact Nat.zero_le _
    | some x => exact h x
  have hsegment : ∀ segment : SegmentRecord, (segment.toJson floats).depth ≤ 1 := by
    intro segment
    have hconfidence := hoption (Json.ofF32 floats) 0 segment.confidence fun x => by
      unfold Json.ofF32
      split <;> simp [Json.depth]
    have hspeaker := hoption Json.string 0 segment.speaker fun x => by simp [Json.depth]
    simp only [SegmentRecord.toJson, Json.depth, Json.membersDepth, Json.ofU64]
    omega
  have hreadable : ∀ segment : ReadableRecord, segment.toJson.depth ≤ 2 := by
    intro segment
    have hindices : Json.itemsDepth (segment.sourceSegmentIndices.map .ofU64) ≤ 0 :=
      Json.itemsDepth_map_le fun n _ => by simp [Json.ofU64, Json.depth]
    simp only [ReadableRecord.toJson, Json.depth, Json.membersDepth, Json.ofU64]
    omega
  have hsegments : Json.itemsDepth (record.segments.map (·.toJson floats)) ≤ 1 :=
    Json.itemsDepth_map_le fun segment _ => hsegment segment
  have hprovider := hoption Json.ofU64 0 record.providerDurationMillis fun n => by
    simp [Json.ofU64, Json.depth]
  have hprojection := hoption (fun segments : List ReadableRecord =>
      Json.array (segments.map (·.toJson))) 3 record.readableSegments fun segments => by
    have hitems : Json.itemsDepth (segments.map (·.toJson)) ≤ 2 :=
      Json.itemsDepth_map_le fun segment _ => hreadable segment
    simp only [Json.depth]
    omega
  simp only [ResultRecord.toJson, Json.depth, Json.membersDepth, Json.ofU64] at *
  omega

/-- A record with finite confidences has a value. -/
theorem ResultRecord.toValue_isSome {record : ResultRecord} (h : Finite record) :
    (Json.toValue floats (record.toJson floats)).isSome = true := by
  have hoption : ∀ {α : Type} (encode : α → Json) (value : Option α),
      (∀ x ∈ value, (Json.toValue floats (encode x)).isSome = true) →
      (Json.toValue floats (Json.ofOption encode value)).isSome = true := by
    intro α encode value h
    cases value with
    | none => rfl
    | some x => exact h x rfl
  have hobject : ∀ members : List (String × Json),
      (∀ member ∈ members, (Json.toValue floats member.2).isSome = true) →
      (Json.toValue floats (.object members)).isSome = true := by
    intro members h
    simpa [Json.toValue] using Json.toValueMembers_isSome floats h
  have harray : ∀ items : List Json, (∀ item ∈ items, (Json.toValue floats item).isSome = true) →
      (Json.toValue floats (.array items)).isSome = true := by
    intro items h
    simpa [Json.toValue] using Json.toValueItems_isSome floats h
  have hsegment : ∀ segment ∈ record.segments,
      (Json.toValue floats (segment.toJson floats)).isSome = true := by
    intro segment hsegment
    have hconfidence := hoption (Json.ofF32 floats) segment.confidence fun x hx => by
      have hfinite := h segment hsegment x hx
      simpa [Json.ofF32, hfinite, Json.toValue] using floats.canonical_printF32 x hfinite
    have hspeaker := hoption Json.string segment.speaker fun x _ => rfl
    exact hobject _ (by simp [hconfidence, hspeaker])
  have hreadable : ∀ segment : ReadableRecord,
      (Json.toValue floats segment.toJson).isSome = true := by
    intro segment
    have hindices := harray (segment.sourceSegmentIndices.map .ofU64) (by simp)
    exact hobject _ (by simp [hindices])
  have hsegments := harray (record.segments.map (·.toJson floats)) (by simpa using hsegment)
  have hprovider := hoption Json.ofU64 record.providerDurationMillis fun n _ => by simp
  have hprojection := hoption (fun segments : List ReadableRecord =>
      Json.array (segments.map (·.toJson))) record.readableSegments fun segments _ =>
    harray _ (by simp [hreadable])
  exact hobject _ (by simp [hsegments, hprovider, hprojection])

/-- The text of a record with finite confidences reads back as the record. -/
theorem ResultRecord.parse_toText {record : ResultRecord} (h : Finite record) :
    (Json.parse (record.toJson floats).toText).bind (ResultRecord.ofJson floats) = some record := by
  have hdepth := record.depth_toJson_le floats
  rw [Json.parse_toText (by simp only [Json.RECURSION_LIMIT]; omega), Option.bind_some,
    ResultRecord.ofJson_toJson floats h]

/-- The text of a record with finite confidences spells a value. -/
theorem ResultRecord.parseValue_toText {record : ResultRecord} (h : Finite record) :
    ∃ value, Json.parseValue floats (record.toJson floats).toText = some value := by
  have hdepth := record.depth_toJson_le floats
  rw [Json.parseValue, Json.parse_toText (by simp only [Json.RECURSION_LIMIT]; omega), Option.bind_some]
  exact Option.isSome_iff_exists.mp (ResultRecord.toValue_isSome floats h)

end Text

section Columns

/-- A version column is the version it was written from. -/
theorem u16OfI16_iff {n : UInt16} {column : Int16} :
    i16OfU16 n = some column ↔ u16OfI16 column = some n := by
  unfold i16OfU16 u16OfI16
  constructor
  · intro h
    split at h
    · rename_i hlt
      obtain rfl := Option.some.inj h
      rw [Int16.toInt_ofNat_of_lt hlt, if_pos (by omega)]
      simp
    · cases h
  · intro h
    split at h
    · rename_i hle
      obtain rfl := Option.some.inj h
      have hlt := column.toInt_lt
      rw [UInt16.toNat_ofNat_of_lt' (by simp only [UInt16.size]; omega), if_pos (by omega)]
      congr 1
      rw [← Int16.toInt_inj, Int16.toInt_ofNat_of_lt (by omega)]
      omega
    · cases h

/-- A counter column is the counter it was written from. -/
theorem u64OfI64_iff {n : UInt64} {column : Int64} :
    i64OfU64 n = some column ↔ u64OfI64 column = some n := by
  unfold i64OfU64 u64OfI64
  constructor
  · intro h
    split at h
    · rename_i hlt
      obtain rfl := Option.some.inj h
      rw [Int64.toInt_ofNat_of_lt hlt, if_pos (by omega)]
      simp
    · cases h
  · intro h
    split at h
    · rename_i hle
      obtain rfl := Option.some.inj h
      have hlt := column.toInt_lt
      rw [UInt64.toNat_ofNat_of_lt' (by simp only [UInt64.size]; omega), if_pos (by omega)]
      congr 1
      rw [← Int64.toInt_inj, Int64.toInt_ofNat_of_lt (by omega)]
      omega
    · cases h

/-- An attempt column is the attempt it was written from. -/
theorem restoreAttempt_iff {column : Int64} {attempt : NonZeroU32} :
    restoreAttempt column = .ok attempt ↔ column = Int64.ofNat attempt.get := by
  rw [restoreAttempt, okOr_eq_ok, Option.bind_eq_some_iff]
  constructor
  · rintro ⟨value, hvalue, hnew⟩
    unfold u32OfI64 at hvalue
    split at hvalue
    · rename_i hrange
      obtain rfl := Option.some.inj hvalue
      unfold NonZeroU32.new at hnew
      split at hnew
      · obtain rfl := Option.some.inj hnew
        dsimp only
        rw [← Int64.toInt_inj, UInt32.toNat_ofNat_of_lt' (by simp only [UInt32.size]; omega),
          Int64.toInt_ofNat_of_lt (by omega)]
        omega
      · cases hnew
    · cases hvalue
  · rintro rfl
    have hlt := attempt.lt
    have hpos := attempt.pos
    have hget : (UInt32.ofNat attempt.get).toNat = attempt.get :=
      UInt32.toNat_ofNat_of_lt' (by simp only [UInt32.size]; omega)
    refine ⟨UInt32.ofNat attempt.get, ?_, ?_⟩
    · rw [u32OfI64, Int64.toInt_ofNat_of_lt (by omega), if_pos (by omega), Int.toNat_natCast]
    · rw [NonZeroU32.new, dif_pos (by rw [hget]; exact hpos)]
      exact congrArg some (NonZeroU32.ext hget)

/-- A failure column is the code it was written from. -/
theorem restoreFailure_iff {code : String} {failure : BatchFailure} :
    restoreFailure code = .ok failure ↔ code = failure.code := by
  rw [restoreFailure, okOr_eq_ok]
  constructor
  · intro h
    cases hnew : BatchFailure.new code with
    | error error => simp [hnew, Except.toOption] at h
    | ok restored =>
      simp only [hnew, Except.toOption, Option.some.injEq] at h
      rw [← h, BatchFailure.code_of_new hnew]
  · rintro rfl
    simp [Except.toOption]

/-- The columns of a lifecycle state restore exactly that state. -/
theorem restoreState_iff {name : String} {attempt : Option Int64} {failureCode unknownReason : Option String}
    {state : BatchJobState} :
    restoreState name attempt failureCode unknownReason = .ok state ↔
      flattenState state = (name, attempt, failureCode, unknownReason) := by
  constructor
  · intro h
    unfold restoreState at h
    obtain ⟨restored, hattempt, hrest⟩ := bind_eq_ok.mp h
    obtain ⟨failure, hfailure, hstate⟩ := bind_eq_ok.mp hrest
    have hcolumn : attempt = restored.map fun n => Int64.ofNat n.get := by
      cases attempt with
      | none => simp [mapTranspose_none.mp hattempt]
      | some column =>
        obtain ⟨n, hn, rfl⟩ := mapTranspose_some.mp hattempt
        rw [restoreAttempt_iff.mp hn, Option.map_some]
    have hcode : failureCode = failure.map (·.code) := by
      cases failureCode with
      | none => simp [mapTranspose_none.mp hfailure]
      | some code =>
        obtain ⟨restored, hrestored, rfl⟩ := mapTranspose_some.mp hfailure
        rw [restoreFailure_iff.mp hrestored, Option.map_some]
    rw [hcolumn, hcode]
    split at hstate
    all_goals first | (obtain rfl := Except.ok.inj hstate; rfl) | cases hstate
  · intro h
    have hread : ∀ n : NonZeroU32, restoreAttempt (Int64.ofNat n.get) = .ok n := fun n =>
      restoreAttempt_iff.mpr rfl
    have hfail : ∀ failure : BatchFailure, restoreFailure failure.code = .ok failure := fun failure =>
      restoreFailure_iff.mpr rfl
    cases state with
    | outcomeUnknown n reason =>
      cases reason <;> obtain ⟨rfl, rfl, rfl, rfl⟩ := by simpa [flattenState] using h
      all_goals simp [restoreState, mapTranspose, hread, hfail, Except.map, bind, Except.bind, pure,
        Except.pure]
    | _ =>
      obtain ⟨rfl, rfl, rfl, rfl⟩ := by simpa [flattenState] using h
      simp [restoreState, mapTranspose, hread, hfail, Except.map, bind, Except.bind, pure, Except.pure]

/-- A reference column holds a storable reference without its operation kind. -/
theorem reference_eq_ok {column : Option String} {value : Option ProviderReference} :
    reference column = .ok value ↔
      value = column.map ProviderReference.new ∧ validateReference value = .ok () := by
  unfold reference
  rw [bind_eq_ok]
  constructor
  · rintro ⟨_, hvalid, h⟩
    obtain rfl := Except.ok.inj h
    exact ⟨rfl, hvalid⟩
  · rintro ⟨rfl, hvalid⟩
    exact ⟨(), hvalid, rfl⟩

/-- A retry delay column holds a delay its state may carry. -/
theorem restoreRetryAfter_eq_ok {state : BatchJobState} {column : Option Int64} {value : Option UInt64} :
    restoreRetryAfter state column = .ok value ↔
      mapTranspose (fun value => okOr "INVALID_RETRY_AFTER" (u64OfI64 value)) column = .ok value ∧
        validateRetryAfter state value = .ok () := by
  unfold restoreRetryAfter
  rw [bind_eq_ok]
  constructor
  · rintro ⟨read, hread, hrest⟩
    obtain ⟨_, hvalid, hvalue⟩ := bind_eq_ok.mp hrest
    obtain rfl := Except.ok.inj hvalue
    exact ⟨hread, hvalid⟩
  · rintro ⟨hread, hvalid⟩
    exact ⟨value, hread, bind_eq_ok.mpr ⟨(), hvalid, rfl⟩⟩

end Columns

end Voicetext.Gateway.Storage
