import Voicetext.Gateway.Contracts.LiveOutbound

/-!
# Encoder and decoder of live frames agree

What the server sends its client reads: the type in front leads to the decoder of the message, every field is
found again in the value of the text, and every bound the encoder enforces is the decoder's. A configuration
is read back from its own text.
-/

namespace Voicetext.Gateway.Contracts

open Voicetext.Common Voicetext.Common.Json Voicetext.Gateway.Contracts.LiveOutbound

variable {ids : SessionIds} (numbers : WireNumbers)

/-- The message a client is to read: the same data. -/
def OutboundServerMessage.received : OutboundServerMessage ids → ServerMessage ids
  | .ready sessionId identity => .ready sessionId identity
  | .ack seq => .ack seq
  | .partialSegment segment => .partialSegment segment
  | .final segment => .final segment
  | .segmentFinal segment => .segmentFinal segment
  | .finalizeComplete status sawResult => .finalizeComplete status sawResult
  | .error code message => .error code message

/-- A client bound to an identity expects it in a ready message, and every other message. -/
def OutboundServerMessage.ExpectedBy (expected : LiveIdentity) : OutboundServerMessage ids → Prop
  | .ready _ identity => identity = expected
  | _ => True

section Readings

@[simp] theorem Provider.ofJson_name (provider : Provider) : ofJson (.string provider.name) = some provider :=
  asVariant_name (by decide) (by cases provider <;> simp)

@[simp] theorem Model.ofJson_name (model : Model) : ofJson (.string model.name) = some model :=
  asVariant_name (by decide) (by cases model <;> simp)

@[simp] theorem Capability.ofJson_name (capability : Capability) :
    ofJson (.string capability.name) = some capability :=
  asVariant_name (by decide) (by cases capability; simp)

@[simp] theorem Encoding.ofJson_name (encoding : Encoding) : ofJson (.string encoding.name) = some encoding :=
  asVariant_name (by decide) (by cases encoding <;> simp)

@[simp] theorem FinalizeStatus.ofJson_name (status : FinalizeStatus) :
    ofJson (.string status.name) = some status :=
  asVariant_name (by decide) (by cases status <;> simp)

@[simp] theorem asMessageType_self (name : String) : Live.asMessageType name (some (.string name)) = some () :=
  asVariant_name (by simp) (by simp)

/-- A spelled session identity of the current variant and a known version is read. -/
theorem asSessionId_hyphenated {sessionId : ids.Uuid} (h : ids.getVariant sessionId = .rfc4122 ∧
    1 ≤ ids.getVersionNum sessionId ∧ ids.getVersionNum sessionId ≤ 8) :
    Live.asSessionId ids (.string (ids.hyphenated sessionId)) = some sessionId := by
  rw [Live.asSessionId, asJobId_hyphenated ids.hyphenated_form, Option.bind_some, if_pos h]

theorem asU32_ofU64 (n : UInt32) : Live.asU32 (.ofU64 n.toUInt64) = some n := by
  have hlt : n.toUInt64.toNat < 2 ^ 32 := by simpa using n.toNat_lt
  simp only [Live.asU32, asU64_ofU64, Option.bind_some]
  rw [if_pos hlt]
  simp

end Readings

section Messages

/-- A checked segment passes the decoder's check. -/
theorem validateSegment_received {segment : TranscriptSegment} (h : validateSegment segment = .ok ()) :
    Live.validateSegment segment.text segment.startMs segment.durationMs segment.confidence
      Live.MAX_TRANSCRIPT_LIMIT = .ok segment := by
  obtain ⟨htext, h⟩ := require_bind_eq_ok.mp h
  obtain ⟨htimes, h⟩ := require_bind_eq_ok.mp h
  obtain ⟨_, h⟩ := require_bind_eq_ok.mp h
  have hconfidence := require_eq_ok.mp h
  exact require_bind_eq_ok.mpr ⟨htext, require_bind_eq_ok.mpr ⟨htimes, require_bind_eq_ok.mpr ⟨hconfidence, rfl⟩⟩⟩

/-- The confidence of a checked segment is finite. -/
theorem isFinite_of_validateSegment {segment : TranscriptSegment} (h : validateSegment segment = .ok ()) :
    ∀ x ∈ segment.confidence, x.isFinite = true := by
  intro x hx
  obtain ⟨_, h⟩ := require_bind_eq_ok.mp h
  obtain ⟨_, h⟩ := require_bind_eq_ok.mp h
  obtain ⟨_, h⟩ := require_bind_eq_ok.mp h
  have hconfidence := require_eq_ok.mp h
  rw [Option.mem_def.mp hx, Option.all_some, Bool.and_eq_true] at hconfidence
  exact hconfidence.1

/-- The values of the members of a segment, where the confidence has a value of its own. -/
def segmentValues (messageType : String) (segment : TranscriptSegment) (confidence : Option Json)
    (isSegmentFinal : Option Bool) : List (String × Json) :=
  [("type", .string messageType), ("text", .string segment.text), ("start_ms", .ofU64 segment.startMs),
      ("duration_ms", .ofU64 segment.durationMs)] ++
    (confidence.elim [] fun value => [("confidence", value)]) ++
    isSegmentFinal.elim [] fun flag => [("is_segment_final", .bool flag)]

theorem haveValues_segment {segment : TranscriptSegment} (h : ∀ x ∈ segment.confidence, x.isFinite = true)
    (messageType : String) (isSegmentFinal : Option Bool) :
    ∃ confidence, HaveValues numbers.toFloatText (segmentMembers numbers messageType segment isSegmentFinal)
        (segmentValues messageType segment confidence isSegmentFinal) ∧
      Json.optional (asF64 numbers) confidence = some segment.confidence := by
  have hflag : HaveValues numbers.toFloatText
      (isSegmentFinal.elim [] fun flag => [("is_segment_final", .bool flag)])
      (isSegmentFinal.elim [] fun flag => [("is_segment_final", .bool flag)]) := by
    cases isSegmentFinal <;> simp
  unfold segmentMembers
  cases hconfidence : segment.confidence with
  | none => exact ⟨none, List.rel_append (List.rel_append (by simp) .nil) hflag, rfl⟩
  | some x =>
    obtain ⟨value, hvalue, hread⟩ := reads_confidence numbers (h x hconfidence)
    have hmember : HaveValues numbers.toFloatText [("confidence", .ofF64 numbers.toFloatText x)]
        [("confidence", value)] := by
      simpa using hvalue
    exact ⟨some value, List.rel_append (List.rel_append (by simp) hmember) hflag, optional_some rfl hread⟩

theorem nodup_segmentMembers (messageType : String) (segment : TranscriptSegment) (isSegmentFinal : Option Bool) :
    ((segmentMembers numbers messageType segment isSegmentFinal).map Prod.fst).Nodup := by
  unfold segmentMembers
  cases segment.confidence <;> cases isSegmentFinal <;> simp

/-- A segment is told by its type. -/
theorem lookup_segmentValues (messageType : String) (segment : TranscriptSegment) (confidence : Option Json)
    (isSegmentFinal : Option Bool) :
    lookup (segmentValues messageType segment confidence isSegmentFinal) "type" = some (.string messageType) := rfl

/-- A partial segment is read with its flag, which is absent from one that is not final. -/
theorem reads_partial {segment : TranscriptSegment} (h : ∀ x ∈ segment.confidence, x.isFinite = true)
    (isSegmentFinal : Option Bool) :
    ∃ value, toValue numbers.toFloatText (.object (segmentMembers numbers "partial" segment isSegmentFinal)) =
        some value ∧ (member "type" value).bind asString = some "partial" ∧
      Live.SegmentWire.ofJson numbers value = some ⟨segment.text, segment.startMs, segment.durationMs,
        segment.confidence, isSegmentFinal.getD false⟩ := by
  obtain ⟨confidence, hvalues, hconfidence⟩ := haveValues_segment numbers h "partial" isSegmentFinal
  refine reads_tagged ["type", "text", "start_ms", "duration_ms", "confidence", "is_segment_final"]
    (nodup_segmentMembers numbers _ _ _) hvalues (lookup_segmentValues _ _ _ _) ?_
  intro object hfields
  have hfound : fields ["type", "text", "start_ms", "duration_ms", "confidence", "is_segment_final"]
      (.object (segmentValues "partial" segment confidence isSegmentFinal)) = some [some (.string "partial"),
        some (.string segment.text), some (.ofU64 segment.startMs), some (.ofU64 segment.durationMs), confidence,
        isSegmentFinal.map .bool] := by
    unfold segmentValues
    cases confidence <;> cases isSegmentFinal <;> simp [fields]
  have hflag : defaulted asBool false (isSegmentFinal.map .bool) = some (isSegmentFinal.getD false) := by
    cases isSegmentFinal <;> rfl
  rw [Live.SegmentWire.ofJson, fieldsOr, hfields, hfound]
  · simp [required, asString, hconfidence, hflag]
  · simp

/-- A final segment is read. -/
theorem reads_final {segment : TranscriptSegment} (h : ∀ x ∈ segment.confidence, x.isFinite = true) :
    ∃ value, toValue numbers.toFloatText (.object (segmentMembers numbers "final" segment none)) = some value ∧
      (member "type" value).bind asString = some "final" ∧
      Live.FinalWire.ofJson numbers value =
        some ⟨segment.text, segment.startMs, segment.durationMs, segment.confidence⟩ := by
  obtain ⟨confidence, hvalues, hconfidence⟩ := haveValues_segment numbers h "final" none
  refine reads_tagged ["type", "text", "start_ms", "duration_ms", "confidence"]
    (nodup_segmentMembers numbers _ _ _) hvalues (lookup_segmentValues _ _ _ _) ?_
  intro object hfields
  have hfound : fields ["type", "text", "start_ms", "duration_ms", "confidence"]
      (.object (segmentValues "final" segment confidence none)) = some [some (.string "final"),
        some (.string segment.text), some (.ofU64 segment.startMs), some (.ofU64 segment.durationMs),
        confidence] := by
    unfold segmentValues
    cases confidence <;> simp [fields]
  rw [Live.FinalWire.ofJson, fieldsOr, hfields, hfound]
  · simp [required, asString, hconfidence]
  · simp

theorem reads_ready {sessionId : ids.Uuid} (h : validateSessionId sessionId = .ok ()) (identity : LiveIdentity) :
    ∃ value, toValue numbers.toFloatText (.object (readyMembers ids sessionId identity)) = some value ∧
      (member "type" value).bind asString = some "ready" ∧
      Live.ReadyWire.ofJson ids value =
        some ⟨sessionId, (identityWire identity).1, (identityWire identity).2⟩ := by
  have hvalues : HaveValues numbers.toFloatText (readyMembers ids sessionId identity)
      (readyMembers ids sessionId identity) := by
    simp [readyMembers]
  have hsession := asSessionId_hyphenated (require_eq_ok.mp h)
  refine reads_tagged ["type", "session_id", "provider", "model"] (by simp [readyMembers]) hvalues rfl ?_
  intro object hfields
  rw [Live.ReadyWire.ofJson, hfields]
  simp [fields, readyMembers, required, hsession]

theorem reads_ack (seq : UInt64) :
    ∃ value, toValue numbers.toFloatText (.object (ackMembers seq)) = some value ∧
      (member "type" value).bind asString = some "ack" ∧ Live.AckWire.ofJson value = some ⟨seq⟩ := by
  have hvalues : HaveValues numbers.toFloatText (ackMembers seq) (ackMembers seq) := by
    simp [ackMembers]
  refine reads_tagged ["type", "seq"] (by simp [ackMembers]) hvalues rfl ?_
  intro object hfields
  rw [Live.AckWire.ofJson, hfields]
  simp [fields, ackMembers, required]

theorem reads_finalize (status : FinalizeStatus) (sawResult : Bool) :
    ∃ value, toValue numbers.toFloatText (.object (finalizeMembers status sawResult)) = some value ∧
      (member "type" value).bind asString = some "finalize_complete" ∧
      Live.FinalizeWire.ofJson value = some ⟨status, sawResult⟩ := by
  have hvalues : HaveValues numbers.toFloatText (finalizeMembers status sawResult)
      (finalizeMembers status sawResult) := by
    simp [finalizeMembers]
  refine reads_tagged ["type", "status", "saw_result"] (by simp [finalizeMembers]) hvalues rfl ?_
  intro object hfields
  rw [Live.FinalizeWire.ofJson, hfields]
  simp [fields, finalizeMembers, required, asBool]

theorem reads_error (code message : String) :
    ∃ value, toValue numbers.toFloatText (.object (errorMembers code message)) = some value ∧
      (member "type" value).bind asString = some "error" ∧ Live.ErrorWire.ofJson value = some ⟨code, message⟩ := by
  have hvalues : HaveValues numbers.toFloatText (errorMembers code message) (errorMembers code message) := by
    simp [errorMembers]
  refine reads_tagged ["type", "code", "message"] (by simp [errorMembers]) hvalues rfl ?_
  intro object hfields
  rw [Live.ErrorWire.ofJson, hfields]
  simp [fields, errorMembers, required, asString]

/-- No message nests. -/
theorem depth_members_le {message : OutboundServerMessage ids} {fields : List (String × Json)}
    (h : members numbers message = .ok fields) : (Json.object fields).depth ≤ 1 := by
  have hsegment (messageType : String) (segment : TranscriptSegment) (isSegmentFinal : Option Bool) :
      membersDepth (segmentMembers numbers messageType segment isSegmentFinal) = 0 := by
    unfold segmentMembers
    cases segment.confidence <;> cases isSegmentFinal <;>
      simp [Json.ofU64, Json.ofF64, Json.depth, membersDepth, apply_ite]
  cases message with
  | ready sessionId identity =>
    obtain ⟨_, _, h⟩ := bind_eq_ok.mp h
    obtain rfl := Except.ok.inj h
    simp [readyMembers, Json.depth, membersDepth]
  | ack seq =>
    obtain ⟨_, h⟩ := require_bind_eq_ok.mp h
    obtain rfl := Except.ok.inj h
    simp [ackMembers, Json.ofU64, Json.depth, membersDepth]
  | partialSegment segment | final segment | segmentFinal segment =>
    obtain ⟨_, _, h⟩ := bind_eq_ok.mp h
    obtain rfl := Except.ok.inj h
    simp [Json.depth, hsegment]
  | finalizeComplete status sawResult =>
    obtain ⟨_, _, h⟩ := bind_eq_ok.mp h
    obtain rfl := Except.ok.inj h
    simp [finalizeMembers, Json.depth, membersDepth]
  | error code message =>
    obtain ⟨_, h⟩ := require_bind_eq_ok.mp h
    obtain ⟨_, h⟩ := require_bind_eq_ok.mp h
    obtain rfl := Except.ok.inj h
    simp [errorMembers, Json.depth, membersDepth]

/-- The text of members is read as the value of their object. -/
theorem parseValue_members {message : OutboundServerMessage ids} {fields : List (String × Json)}
    (h : members numbers message = .ok fields) {value : Json}
    (hvalue : toValue numbers.toFloatText (.object fields) = some value) :
    Json.parseValue numbers.toFloatText (Json.object fields).toText = some value := by
  have hdepth : (Json.object fields).depth < RECURSION_LIMIT :=
    lt_of_le_of_lt (depth_members_le numbers h) (by decide)
  rw [Json.parseValue, Json.parse_toText hdepth, Option.bind_some, hvalue]

/-- What the server sends, its client reads. -/
theorem parseServerMessage_serializeServerMessage {message : OutboundServerMessage ids} {json : String}
    (h : serializeServerMessage numbers message = .ok json) {expected : LiveIdentity}
    (hexpected : message.ExpectedBy expected) :
    Live.parseServerMessage ids numbers json expected Live.MAX_TRANSCRIPT_LIMIT = .ok message.received := by
  obtain ⟨fields, hfields, h⟩ := bind_eq_ok.mp h
  obtain rfl := Except.ok.inj h
  have hparsed := @parseValue_members ids numbers message fields hfields
  refine require_bind_eq_ok.mpr ⟨by decide, ?_⟩
  cases message with
  | ready sessionId identity =>
    obtain ⟨_, hsession, hfields⟩ := bind_eq_ok.mp hfields
    obtain rfl := Except.ok.inj hfields
    obtain rfl : identity = expected := hexpected
    obtain ⟨value, hvalue, htype, hwire⟩ := reads_ready numbers hsession identity
    rw [hparsed hvalue]
    refine bind_eq_ok.mpr ⟨value, rfl, bind_eq_ok.mpr ⟨"ready", okOr_eq_ok.mpr htype, ?_⟩⟩
    exact bind_eq_ok.mpr ⟨_, okOr_eq_ok.mpr hwire, require_bind_eq_ok.mpr ⟨rfl, rfl⟩⟩
  | ack seq =>
    obtain ⟨hseq, hfields⟩ := require_bind_eq_ok.mp hfields
    obtain rfl := Except.ok.inj hfields
    obtain ⟨value, hvalue, htype, hwire⟩ := reads_ack numbers seq
    rw [hparsed hvalue]
    refine bind_eq_ok.mpr ⟨value, rfl, bind_eq_ok.mpr ⟨"ack", okOr_eq_ok.mpr htype, ?_⟩⟩
    exact bind_eq_ok.mpr ⟨_, okOr_eq_ok.mpr hwire, require_bind_eq_ok.mpr ⟨hseq, rfl⟩⟩
  | partialSegment segment =>
    obtain ⟨_, hsegment, hfields⟩ := bind_eq_ok.mp hfields
    obtain rfl := Except.ok.inj hfields
    obtain ⟨value, hvalue, htype, hwire⟩ := reads_partial numbers (isFinite_of_validateSegment hsegment) none
    rw [hparsed hvalue]
    refine bind_eq_ok.mpr ⟨value, rfl, bind_eq_ok.mpr ⟨"partial", okOr_eq_ok.mpr htype, ?_⟩⟩
    refine bind_eq_ok.mpr ⟨_, okOr_eq_ok.mpr hwire, ?_⟩
    exact bind_eq_ok.mpr ⟨segment, validateSegment_received hsegment, rfl⟩
  | final segment =>
    obtain ⟨_, hsegment, hfields⟩ := bind_eq_ok.mp hfields
    obtain rfl := Except.ok.inj hfields
    obtain ⟨value, hvalue, htype, hwire⟩ := reads_final numbers (isFinite_of_validateSegment hsegment)
    rw [hparsed hvalue]
    refine bind_eq_ok.mpr ⟨value, rfl, bind_eq_ok.mpr ⟨"final", okOr_eq_ok.mpr htype, ?_⟩⟩
    refine bind_eq_ok.mpr ⟨_, okOr_eq_ok.mpr hwire, ?_⟩
    exact bind_eq_ok.mpr ⟨segment, validateSegment_received hsegment, rfl⟩
  | segmentFinal segment =>
    obtain ⟨_, hsegment, hfields⟩ := bind_eq_ok.mp hfields
    obtain rfl := Except.ok.inj hfields
    obtain ⟨value, hvalue, htype, hwire⟩ :=
      reads_partial numbers (isFinite_of_validateSegment hsegment) (some true)
    rw [hparsed hvalue]
    refine bind_eq_ok.mpr ⟨value, rfl, bind_eq_ok.mpr ⟨"partial", okOr_eq_ok.mpr htype, ?_⟩⟩
    refine bind_eq_ok.mpr ⟨_, okOr_eq_ok.mpr hwire, ?_⟩
    exact bind_eq_ok.mpr ⟨segment, validateSegment_received hsegment, rfl⟩
  | finalizeComplete status sawResult =>
    obtain ⟨_, hevidence, hfields⟩ := bind_eq_ok.mp hfields
    obtain rfl := Except.ok.inj hfields
    obtain ⟨value, hvalue, htype, hwire⟩ := reads_finalize numbers status sawResult
    rw [hparsed hvalue]
    refine bind_eq_ok.mpr ⟨value, rfl, bind_eq_ok.mpr ⟨"finalize_complete", okOr_eq_ok.mpr htype, ?_⟩⟩
    exact bind_eq_ok.mpr ⟨_, okOr_eq_ok.mpr hwire, require_bind_eq_ok.mpr ⟨require_eq_ok.mp hevidence, rfl⟩⟩
  | error code text =>
    obtain ⟨hcode, hfields⟩ := require_bind_eq_ok.mp hfields
    obtain ⟨htext, hfields⟩ := require_bind_eq_ok.mp hfields
    obtain rfl := Except.ok.inj hfields
    obtain ⟨value, hvalue, htype, hwire⟩ := reads_error numbers code text
    rw [hparsed hvalue]
    refine bind_eq_ok.mpr ⟨value, rfl, bind_eq_ok.mpr ⟨"error", okOr_eq_ok.mpr htype, ?_⟩⟩
    refine bind_eq_ok.mpr ⟨_, okOr_eq_ok.mpr hwire, require_bind_eq_ok.mpr ⟨hcode, ?_⟩⟩
    exact require_bind_eq_ok.mpr ⟨htext, rfl⟩

end Messages

section Configuration

/-- The wire form of a configuration is read from its own members. -/
theorem ofJson_members {wire : Live.ConfigWire ids} (h : ids.getVariant wire.clientSessionId = .rfc4122 ∧
    1 ≤ ids.getVersionNum wire.clientSessionId ∧ ids.getVersionNum wire.clientSessionId ≤ 8) :
    Live.ConfigWire.ofJson ids (.object (Live.ConfigWire.members ids wire)) = some wire := by
  have hsession := asSessionId_hyphenated h
  have hcapabilities : asArray Capability.ofJson
      (.array (wire.capabilities.map fun capability => .string capability.name)) = some wire.capabilities :=
    asArray_map fun capability _ => Capability.ofJson_name capability
  let keyterms : Option Json :=
    if wire.keyterms = [] then none else some (.array (wire.keyterms.map .string))
  have hkeyterms : defaulted (asArray asString) [] keyterms = some wire.keyterms := by
    by_cases hempty : wire.keyterms = []
    · simp [keyterms, hempty, defaulted]
    · have hread : asArray asString (.array (wire.keyterms.map .string)) = some wire.keyterms :=
        asArray_map fun _ _ => rfl
      simp [keyterms, hempty, defaulted, hread]
  have hfound : fieldsOr Live.configNames 10 (.object (Live.ConfigWire.members ids wire)) =
      some [some (.string "config"), some (.string wire.provider.name), some (.string wire.model.name),
        some (.string wire.language),
        some (.array (wire.capabilities.map fun capability => .string capability.name)),
        some (.ofU64 wire.channels.toUInt64), some (.ofU64 wire.protocolV.toUInt64),
        some (.string (ids.hyphenated wire.clientSessionId)), some (.string wire.encoding.name),
        some (.ofU64 wire.sampleRate.toUInt64), keyterms] := by
    by_cases hempty : wire.keyterms = [] <;>
      simp [fieldsOr, fields, Live.configNames, Live.ConfigWire.members, keyterms, hempty]
  rw [Live.ConfigWire.ofJson, hfound]
  simp [required, asString, hsession, hcapabilities, asU8_ofU64, asU32_ofU64, hkeyterms]

theorem depth_config_le (wire : Live.ConfigWire ids) :
    (Json.object (Live.ConfigWire.members ids wire)).depth ≤ 2 := by
  have hcapabilities : itemsDepth (wire.capabilities.map fun capability => .string capability.name) ≤ 0 :=
    itemsDepth_map_le fun _ _ => by simp [Json.depth]
  have hkeyterms : itemsDepth (wire.keyterms.map .string) ≤ 0 :=
    itemsDepth_map_le fun _ _ => by simp [Json.depth]
  by_cases hempty : wire.keyterms = [] <;>
    simp only [Live.ConfigWire.members, hempty, if_true, if_false, List.append_nil, List.cons_append,
      List.nil_append, Json.ofU64, Json.depth, membersDepth] <;> omega

/-- What a client sends to open a session, the server reads. -/
theorem parseClientConfig_serializeClientConfig {config : ClientConfig ids} {json : String}
    (h : Live.serializeClientConfig ids config = .ok json)
    (hsession : ids.getVariant config.clientSessionId = .rfc4122 ∧
      1 ≤ ids.getVersionNum config.clientSessionId ∧ ids.getVersionNum config.clientSessionId ≤ 8) :
    Live.parseClientConfig ids json = .ok config := by
  obtain ⟨document, hdocument, h⟩ := bind_eq_ok.mp h
  obtain rfl := Except.ok.inj h
  obtain ⟨_, hlanguage, hdocument⟩ := bind_eq_ok.mp hdocument
  obtain ⟨_, hkeyterms, hdocument⟩ := bind_eq_ok.mp hdocument
  obtain rfl := Except.ok.inj hdocument
  have hread (wire : Live.ConfigWire ids) (hid : wire.clientSessionId = config.clientSessionId) :
      (Json.parse (Json.object (Live.ConfigWire.members ids wire)).toText).bind (Live.ConfigWire.ofJson ids) =
        some wire := by
    have hdepth : (Json.object (Live.ConfigWire.members ids wire)).depth < RECURSION_LIMIT :=
      lt_of_le_of_lt (depth_config_le wire) (by decide)
    rw [Json.parse_toText hdepth, Option.bind_some, ofJson_members (by rwa [hid])]
  obtain ⟨identity, language, clientSessionId, audioFormat, keyterms⟩ := config
  refine bind_eq_ok.mpr ⟨_, okOr_eq_ok.mpr (hread _ rfl), ?_⟩
  refine require_bind_eq_ok.mpr ⟨rfl, require_bind_eq_ok.mpr ⟨rfl, require_bind_eq_ok.mpr ⟨rfl, ?_⟩⟩⟩
  refine bind_eq_ok.mpr ⟨identity, by cases identity <;> rfl, ?_⟩
  refine bind_eq_ok.mpr ⟨audioFormat, by cases audioFormat <;> rfl, ?_⟩
  exact bind_eq_ok.mpr ⟨(), hlanguage, bind_eq_ok.mpr ⟨(), hkeyterms, rfl⟩⟩

end Configuration

/-- Both directions of the live wire agree: a message the server writes is the message its client reads, when
the client expects its identity, and a configuration is read back where its session identity is a known one. -/
theorem liveWire_agrees (ids : SessionIds) (numbers : WireNumbers) :
    (∀ (message : OutboundServerMessage ids) (expected : LiveIdentity) (json : String),
      message.ExpectedBy expected → serializeServerMessage numbers message = .ok json →
        Live.parseServerMessage ids numbers json expected 65536 = .ok message.received) ∧
    ∀ (config : ClientConfig ids) (json : String),
      ids.getVariant config.clientSessionId = .rfc4122 → 1 ≤ ids.getVersionNum config.clientSessionId →
        ids.getVersionNum config.clientSessionId ≤ 8 → Live.serializeClientConfig ids config = .ok json →
          Live.parseClientConfig ids json = .ok config := by
  constructor
  · intro message expected json hexpected h
    exact parseServerMessage_serializeServerMessage numbers h hexpected
  · intro config json hvariant hknown hversion h
    exact parseClientConfig_serializeClientConfig h ⟨hvariant, hknown, hversion⟩

/-- A final segment, a ready message and a configuration with a keyterm are written and read back. -/
theorem liveWire_agrees_sample :
    let sessionId : SessionIds.canonicalForms.Uuid := ⟨"123e4567-e89b-42d3-a456-426614174000", by decide⟩
    let segment : TranscriptSegment := ⟨"hello", 10, 20, some 0.5⟩
    let config : ClientConfig .canonicalForms := ⟨.deepgramNova3, "en", sessionId, .opus48Khz, ["VoiceText"]⟩
    (∃ json, serializeServerMessage .bits
        (.segmentFinal segment : OutboundServerMessage .canonicalForms) = .ok json ∧
      Live.parseServerMessage .canonicalForms .bits json .deepgramNova3 65536 = .ok (.segmentFinal segment)) ∧
    (∃ json, serializeServerMessage .bits (.ready sessionId .deepgramNova3) = .ok json ∧
      Live.parseServerMessage .canonicalForms .bits json .deepgramNova3 65536 =
        .ok (.ready sessionId .deepgramNova3)) ∧
    ∃ json, Live.serializeClientConfig .canonicalForms config = .ok json ∧
      Live.parseClientConfig .canonicalForms json = .ok config := by
  intro sessionId segment config
  obtain ⟨hmessages, hconfigs⟩ := liveWire_agrees .canonicalForms .bits
  have hserialized (message : OutboundServerMessage .canonicalForms)
      (h : (serializeServerMessage .bits message).isOk = true) (hexpected : message.ExpectedBy .deepgramNova3) :
      ∃ json, serializeServerMessage .bits message = .ok json ∧
        Live.parseServerMessage .canonicalForms .bits json .deepgramNova3 65536 = .ok message.received := by
    obtain ⟨json, hjson⟩ := isOk_iff.mp h
    exact ⟨json, hjson, hmessages message .deepgramNova3 json hexpected hjson⟩
  have hconfig : (Live.serializeClientConfig .canonicalForms config).isOk = true := by decide +kernel
  obtain ⟨json, hjson⟩ := isOk_iff.mp hconfig
  refine ⟨hserialized (.segmentFinal segment) (by decide +kernel) trivial,
    hserialized (.ready sessionId .deepgramNova3) (by decide +kernel) rfl, json, hjson, ?_⟩
  exact hconfigs config json (by decide +kernel) (by decide +kernel) (by decide +kernel) hjson

end Voicetext.Gateway.Contracts
