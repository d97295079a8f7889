import Voicetext.Gateway.FingerprintPreimage
import Voicetext.Gateway.Server.QualificationObservation
import Voicetext.Gateway.Storage.PaidOutcomes

/-!
# Evidence digests have one reading

What a tracker feeds to its hashers is a sequence of records, each of which tells where it ends: an
acknowledgement by the length of its frame, an event by its tag. A batch result is a fixed list of fields
with the segments counted in front of them. So equal hasher inputs come from equal evidence.
-/

namespace Voicetext.Gateway.Server

open Voicetext.Common Voicetext.Speech.Application
open Voicetext.Gateway.Storage (Sha256Digest hexEncode hexEncode_inj segmentBytes validSegments_cons
  accepted_of_validResult)
open Voicetext.Gateway.Identity (Collides framable_asBytes)

/-! ## Confidences -/

theorem toBits_inj {x y : Float32} (h : x.toBits = y.toBits) : x = y := by
  cases x with
  | ofModel x =>
    cases y with
    | ofModel y =>
      cases x
      cases y
      cases h
      rfl

/-- The bits which stand for an absent confidence are those of no finite number. -/
theorem toBits_ne_max {x : Float32} (h : x.isFinite = true) : x.toBits ≠ 0xFFFFFFFF := by
  intro hbits
  have hunpack : x.toModel.unpack = Float.Model.UnpackedFloat.unpack .binary32 (x.toBits).toBitVec := rfl
  change x.toModel.unpack.isFinite = true at h
  rw [hunpack, hbits] at h
  cases h

/-- A confidence that is absent or finite. -/
def AbsentOrFinite (confidence : Option Float32) : Prop := ∀ value ∈ confidence, value.isFinite = true

theorem confidenceBits_inj {a b : Option Float32} (ha : AbsentOrFinite a) (hb : AbsentOrFinite b)
    (h : confidenceBits a = confidenceBits b) : a = b := by
  match a, b with
  | none, none => rfl
  | none, some y => exact absurd h.symm (toBits_ne_max (hb y rfl))
  | some x, none => exact absurd h (toBits_ne_max (ha x rfl))
  | some x, some y => rw [toBits_inj h]

/-! ## Live evidence -/

theorem lengthOrMax_of_framable {value : List UInt8} (h : Framable value) : lengthOrMax value.length = value.length :=
  if_pos h

theorem digestBytes_eq_frame {digest value : List UInt8} (h : Framable value) :
    digestBytes digest value = digest ++ frame value := by
  rw [digestBytes, lengthOrMax_of_framable h, frame, List.append_assoc]

/-- What an acknowledgement feeds to the frame hasher. -/
def ackBytes (ack : UInt64 × List UInt8) : List UInt8 := Bytes.toBe 8 ack.1.toNat ++ frame ack.2

/-- What an event feeds to the result hasher. -/
def eventBytes : LiveRecognitionEvent → List UInt8
  | .transcript value =>
    Text.asBytes "transcript\x00" ++ (frame (Text.asBytes value.text) ++ (Bytes.toBe 8 value.startMillis ++
      (Bytes.toBe 8 value.durationMillis ++ (Bytes.toBe 4 (confidenceBits value.confidence).toNat ++
        [stabilityByte value.stability]))))
  | .utteranceEnd lastWordEndMillis => Text.asBytes "utterance_end\x00" ++ Bytes.toBe 8 lastWordEndMillis
  | .finalizeResultObserved => Text.asBytes "finalize_result\x00"

/-- An event whose confidence, if it has one, is finite. -/
def FiniteConfidence : LiveRecognitionEvent → Prop
  | .transcript value => AbsentOrFinite value.confidence
  | .utteranceEnd _ | .finalizeResultObserved => True

theorem selfDelimiting_ackBytes : SelfDelimiting ackBytes fun ack => Framable ack.2 := by
  rintro ⟨sequence, raw⟩ ⟨sequence', raw'⟩ rest rest' hraw hraw' h
  simp only [ackBytes, List.append_assoc] at h
  obtain ⟨hsequence, h⟩ := Bytes.toBe_append_inj sequence.toNat_lt sequence'.toNat_lt h
  obtain ⟨rfl, hrest⟩ := frame_append_inj hraw hraw' h
  rw [UInt64.toNat_inj.mp hsequence]
  exact ⟨rfl, hrest⟩

theorem stabilityByte_inj {a b : LiveTranscriptStability} (h : stabilityByte a = stabilityByte b) : a = b := by
  cases a <;> cases b <;> first | rfl | cases h

/-- The tags of different events differ in their first byte. -/
theorem head_eventBytes (event : LiveRecognitionEvent) : (eventBytes event).head? = some (match event with
    | .transcript _ => 0x74
    | .utteranceEnd _ => 0x75
    | .finalizeResultObserved => 0x66) := by
  cases event <;> rfl

theorem selfDelimiting_eventBytes :
    SelfDelimiting eventBytes fun event => InMemory event ∧ FiniteConfidence event := by
  rintro a b rest rest' ⟨ha, hafinite⟩ ⟨hb, hbfinite⟩ h
  have hhead : (eventBytes a).head? = (eventBytes b).head? := by
    have hheads := congrArg List.head? h
    rwa [List.head?_append, List.head?_append, head_eventBytes, head_eventBytes, Option.some_or, Option.some_or,
      ← head_eventBytes, ← head_eventBytes] at hheads
  rw [head_eventBytes, head_eventBytes] at hhead
  cases a with
  | transcript value =>
    cases b with
    | transcript value' =>
      simp only [eventBytes, List.append_assoc, List.append_cancel_left_eq] at h
      obtain ⟨htext, h⟩ := frame_append_inj ha.1 hb.1 h
      obtain ⟨hstart, h⟩ := Bytes.toBe_append_inj ha.2.1 hb.2.1 h
      obtain ⟨hduration, h⟩ := Bytes.toBe_append_inj ha.2.2 hb.2.2 h
      obtain ⟨hbits, h⟩ :=
        Bytes.toBe_append_inj (confidenceBits _).toNat_lt (confidenceBits _).toNat_lt h
      obtain ⟨hstability, hrest⟩ := List.cons.inj h
      have hconfidence := confidenceBits_inj hafinite hbfinite (UInt32.toNat_inj.mp hbits)
      have hvalue : value = value' := by
        cases value
        cases value'
        cases Text.asBytes_inj.mp htext
        cases hstart
        cases hduration
        cases hconfidence
        cases stabilityByte_inj hstability
        rfl
      exact ⟨congrArg _ hvalue, hrest⟩
    | utteranceEnd _ => cases hhead
    | finalizeResultObserved => cases hhead
  | utteranceEnd lastWordEndMillis =>
    cases b with
    | utteranceEnd lastWordEndMillis' =>
      simp only [eventBytes, List.append_assoc, List.append_cancel_left_eq] at h
      obtain ⟨hend, hrest⟩ := Bytes.toBe_append_inj ha hb h
      exact ⟨congrArg _ hend, hrest⟩
    | transcript _ => cases hhead
    | finalizeResultObserved => cases hhead
  | finalizeResultObserved =>
    cases b with
    | finalizeResultObserved =>
      simp only [eventBytes, List.append_cancel_left_eq] at h
      exact ⟨rfl, h⟩
    | transcript _ => cases hhead
    | utteranceEnd _ => cases hhead

section Runs

variable {Uuid : Type} (tracker : LiveObservationTracker Uuid) (calls : List TrackerCall)

/-- A run feeds its acknowledgements to the frame hasher. -/
theorem frameDigest_run :
    (tracker.run calls).frameDigest = tracker.frameDigest ++ (acknowledgements calls).flatMap ackBytes := by
  induction calls generalizing tracker with
  | nil => simp [LiveObservationTracker.run, acknowledgements]
  | cons call rest ih =>
    have hrest := ih (tracker.apply call)
    rw [LiveObservationTracker.run] at hrest ⊢
    rw [List.foldl_cons, hrest]
    cases call with
    | acceptFrame => rfl
    | providerWritten sequence => rfl
    | providerEvent event =>
      obtain ⟨event, hevent⟩ := event
      cases event <;> rfl
    | ackSent sequence raw =>
      simp [LiveObservationTracker.apply, LiveObservationTracker.ackSent, acknowledgements, ackBytes, frame,
        lengthOrMax_of_framable raw.2]

/-- A run feeds its provider events to the result hasher. -/
theorem resultDigest_run :
    (tracker.run calls).resultDigest = tracker.resultDigest ++ (providerEvents calls).flatMap eventBytes := by
  induction calls generalizing tracker with
  | nil => simp [LiveObservationTracker.run, providerEvents]
  | cons call rest ih =>
    have hrest := ih (tracker.apply call)
    rw [LiveObservationTracker.run] at hrest ⊢
    rw [List.foldl_cons, hrest]
    cases call with
    | acceptFrame => rfl
    | providerWritten sequence => rfl
    | ackSent sequence raw => rfl
    | providerEvent event =>
      obtain ⟨event, hevent⟩ := event
      cases event with
      | transcript value =>
        simp [LiveObservationTracker.apply, LiveObservationTracker.providerEvent, providerEvents, eventBytes,
          digestBytes_eq_frame hevent.1]
      | utteranceEnd lastWordEndMillis =>
        simp [LiveObservationTracker.apply, LiveObservationTracker.providerEvent, providerEvents, eventBytes]
      | finalizeResultObserved =>
        simp [LiveObservationTracker.apply, LiveObservationTracker.providerEvent, providerEvents, eventBytes]

variable {calls}

theorem framable_of_acknowledged {ack : UInt64 × List UInt8} (h : ack ∈ acknowledgements calls) : Framable ack.2 := by
  obtain ⟨call, -, hack⟩ := List.mem_filterMap.mp h
  cases call with
  | ackSent sequence raw =>
    cases hack
    exact raw.2
  | acceptFrame => cases hack
  | providerWritten sequence => cases hack
  | providerEvent event => cases hack

theorem inMemory_of_observed {event : LiveRecognitionEvent} (h : event ∈ providerEvents calls) : InMemory event := by
  obtain ⟨call, -, hevent⟩ := List.mem_filterMap.mp h
  cases call with
  | providerEvent event =>
    cases hevent
    exact event.2
  | acceptFrame => cases hevent
  | providerWritten sequence => cases hevent
  | ackSent sequence raw => cases hevent

end Runs

/-! ## Batch evidence -/

/-- A segment as its digest tells it: an absent speaker is the empty one. -/
structure SegmentEvidence where
  startMillis : UInt64
  endMillis : UInt64
  text : String
  confidence : Option Float32
  speaker : String

def SegmentEvidence.ofSegment (segment : BatchSegment) : SegmentEvidence :=
  ⟨segment.startMillis, segment.endMillis, segment.text, segment.confidence, segment.speaker.getD ""⟩

/-- A result as its digest tells it: an absent provider duration is the largest one. -/
structure BatchEvidence where
  profile : Speech.Domain.BatchProfile
  text : String
  durationMillis : UInt64
  providerDurationMillis : UInt64
  segments : List SegmentEvidence

def BatchEvidence.ofResult (result : BatchRecognitionResult) : BatchEvidence where
  profile := result.profile
  text := result.text
  durationMillis := result.durationMillis
  providerDurationMillis := result.providerDurationMillis.getD 0xFFFFFFFFFFFFFFFF
  segments := result.segments.map .ofSegment

/-- What a segment feeds to the result hasher. -/
def segmentEvidenceBytes (segment : SegmentEvidence) : List UInt8 :=
  Bytes.toBe 8 segment.startMillis.toNat ++ (Bytes.toBe 8 segment.endMillis.toNat ++
    (frame (Text.asBytes segment.text) ++ (Bytes.toBe 4 (confidenceBits segment.confidence).toNat ++
      frame (Text.asBytes segment.speaker))))

/-- A segment in memory, whose confidence is absent or finite. -/
structure SegmentEvidence.Readable (segment : SegmentEvidence) : Prop where
  text : Framable (Text.asBytes segment.text)
  speaker : Framable (Text.asBytes segment.speaker)
  confidence : AbsentOrFinite segment.confidence

theorem selfDelimiting_segmentEvidenceBytes : SelfDelimiting segmentEvidenceBytes SegmentEvidence.Readable := by
  intro a b rest rest' ha hb h
  simp only [segmentEvidenceBytes, List.append_assoc] at h
  obtain ⟨hstart, h⟩ := Bytes.toBe_append_inj a.startMillis.toNat_lt b.startMillis.toNat_lt h
  obtain ⟨hend, h⟩ := Bytes.toBe_append_inj a.endMillis.toNat_lt b.endMillis.toNat_lt h
  obtain ⟨htext, h⟩ := frame_append_inj ha.text hb.text h
  obtain ⟨hbits, h⟩ := Bytes.toBe_append_inj (confidenceBits _).toNat_lt (confidenceBits _).toNat_lt h
  obtain ⟨hspeaker, hrest⟩ := frame_append_inj ha.speaker hb.speaker h
  have hconfidence := confidenceBits_inj ha.confidence hb.confidence (UInt32.toNat_inj.mp hbits)
  refine ⟨?_, hrest⟩
  cases a
  cases b
  cases UInt64.toNat_inj.mp hstart
  cases UInt64.toNat_inj.mp hend
  cases Text.asBytes_inj.mp htext
  cases hconfidence
  cases Text.asBytes_inj.mp hspeaker
  rfl

/-- The texts in front of a result. -/
def resultTexts (evidence : BatchEvidence) : List (List UInt8) :=
  [evidence.profile.provider, evidence.profile.model, evidence.profile.language, evidence.text].map Text.asBytes

/-- Evidence in memory, with its segments counted. -/
structure BatchEvidence.Readable (evidence : BatchEvidence) : Prop where
  texts : ∀ text ∈ resultTexts evidence, Framable text
  count : evidence.segments.length < 2 ^ 64
  segments : ∀ segment ∈ evidence.segments, segment.Readable

/-- What evidence feeds to the result hasher after the prefix. -/
def batchEvidenceBytes (evidence : BatchEvidence) : List UInt8 :=
  frames (resultTexts evidence) ++ (Bytes.toBe 2 evidence.profile.contractVersion.toNat ++
    (Bytes.toBe 8 evidence.durationMillis.toNat ++ (Bytes.toBe 8 evidence.providerDurationMillis.toNat ++
      (Bytes.toBe 8 evidence.segments.length ++ (evidence.segments.flatMap segmentEvidenceBytes ++ [])))))

theorem BatchEvidence.Readable.eq {a b : BatchEvidence} (ha : a.Readable) (hb : b.Readable)
    (h : batchEvidenceBytes a = batchEvidenceBytes b) : a = b := by
  rw [batchEvidenceBytes, batchEvidenceBytes] at h
  -- read both inputs field by field
  obtain ⟨htexts, h⟩ := frames_append_inj (by simp [resultTexts]) ha.texts hb.texts h
  obtain ⟨hversion, h⟩ :=
    Bytes.toBe_append_inj a.profile.contractVersion.toNat_lt b.profile.contractVersion.toNat_lt h
  obtain ⟨hduration, h⟩ := Bytes.toBe_append_inj a.durationMillis.toNat_lt b.durationMillis.toNat_lt h
  obtain ⟨hprovider, h⟩ :=
    Bytes.toBe_append_inj a.providerDurationMillis.toNat_lt b.providerDurationMillis.toNat_lt h
  obtain ⟨hcount, h⟩ := Bytes.toBe_append_inj ha.count hb.count h
  obtain ⟨hsegments, -⟩ := selfDelimiting_segmentEvidenceBytes.flatMap_append_inj hcount ha.segments hb.segments h
  have hinjective : Function.Injective Text.asBytes := fun _ _ => Text.asBytes_inj.mp
  have htexts := List.map_injective_iff.mpr hinjective htexts
  simp only [List.cons.injEq, and_true] at htexts
  obtain ⟨hproviderName, hmodel, hlanguage, htext⟩ := htexts
  cases a with
  | mk profile =>
    cases b with
    | mk profile' =>
      have hprofile : profile = profile' := by
        cases profile
        cases profile'
        cases UInt16.toNat_inj.mp hversion
        cases hproviderName
        cases hmodel
        cases hlanguage
        rfl
      cases hprofile
      cases htext
      cases UInt64.toNat_inj.mp hduration
      cases UInt64.toNat_inj.mp hprovider
      cases hsegments
      rfl

/-- A result in memory: the texts of its profile are. -/
abbrev HeldResult :=
  {result : BatchRecognitionResult //
    ∀ text ∈ [result.profile.provider, result.profile.model, result.profile.language], Framable (Text.asBytes text)}

/-- The segments of a valid timeline are within the text budget, and their confidences finite. -/
theorem readable_of_validSegments {duration previousEnd : UInt64} {bytes total : ℕ} {segments : List BatchSegment}
    (h : validSegments duration previousEnd bytes segments = some total) :
    ∀ segment ∈ segments, (SegmentEvidence.ofSegment segment).Readable := by
  induction segments generalizing previousEnd bytes with
  | nil => simp
  | cons segment rest ih =>
    obtain ⟨hbytes, hbounds, hrest⟩ := validSegments_cons h
    rw [List.forall_mem_cons]
    refine ⟨⟨?_, ?_, ?_⟩, ih hrest⟩
    · have hlen : Text.len segment.text ≤ MAX_TRANSCRIPT_BYTES := by
        simp only [segmentBytes] at hbytes
        omega
      exact framable_asBytes hlen (by decide)
    · have hlen : Text.len (segment.speaker.getD "") ≤ MAX_TRANSCRIPT_BYTES := by
        cases hspeaker : segment.speaker with
        | none => decide
        | some speaker =>
          simp only [segmentBytes, hspeaker, Option.elim_some] at hbytes
          simp only [Option.getD_some]
          omega
      exact framable_asBytes hlen (by decide)
    · intro value hvalue
      have hvalid : validConfidence value = true := by
        by_contra hinvalid
        refine hbounds (.inr (.inr (.inr (.inr ?_))))
        have hconfidence : segment.confidence = some value := hvalue
        rw [hconfidence, Option.any_some]
        simpa using hinvalid
      simp only [validConfidence, Bool.and_eq_true] at hvalid
      exact hvalid.1

/-- An accepted result is readable evidence. -/
theorem readable_of_validResult {snapshot : BatchJobSnapshot} {result : HeldResult}
    (h : validResult snapshot result.1 = true) : (BatchEvidence.ofResult result.1).Readable := by
  obtain ⟨textBytes, haccepted⟩ := accepted_of_validResult h
  refine ⟨?_, ?_, ?_⟩
  · have htext : Framable (Text.asBytes result.1.text) := framable_asBytes haccepted.text (by decide)
    have hidentities := result.2
    simp only [List.forall_mem_cons, List.not_mem_nil, false_implies, implies_true, and_true] at hidentities
    simp only [resultTexts, BatchEvidence.ofResult, List.map_cons, List.map_nil, List.forall_mem_cons,
      List.not_mem_nil, false_implies, implies_true, and_true]
    exact ⟨hidentities.1, hidentities.2.1, hidentities.2.2, htext⟩
  · rw [BatchEvidence.ofResult, List.length_map]
    exact lt_of_le_of_lt haccepted.count (by decide)
  · rw [BatchEvidence.ofResult, List.forall_mem_map]
    exact readable_of_validSegments haccepted.segments

/-- A batch result feeds its evidence to the hasher. -/
theorem batchResultHasher_eq {result : BatchRecognitionResult} (h : (BatchEvidence.ofResult result).Readable) :
    batchResultHasher result = RESULT_DIGEST_PREFIX ++ batchEvidenceBytes (.ofResult result) := by
  have htexts (texts : List String) (digest : List UInt8) (hframable : ∀ text ∈ texts, Framable (Text.asBytes text)) :
      texts.foldl (fun digest value => digestBytes digest (Text.asBytes value)) digest =
        digest ++ frames (texts.map Text.asBytes) := by
    induction texts generalizing digest with
    | nil => simp [frames]
    | cons text rest ih =>
      rw [List.forall_mem_cons] at hframable
      rw [List.foldl_cons, ih _ hframable.2, digestBytes_eq_frame hframable.1]
      simp [frames]
  have hsegments (segments : List BatchSegment) (digest : List UInt8)
      (hreadable : ∀ segment ∈ segments, (SegmentEvidence.ofSegment segment).Readable) :
      segments.foldl (fun digest segment =>
        digestBytes (digestBytes (digest ++ Bytes.toBe 8 segment.startMillis.toNat ++
          Bytes.toBe 8 segment.endMillis.toNat) (Text.asBytes segment.text) ++
          Bytes.toBe 4 (confidenceBits segment.confidence).toNat) (Text.asBytes (segment.speaker.getD ""))) digest =
        digest ++ (segments.map SegmentEvidence.ofSegment).flatMap segmentEvidenceBytes := by
    induction segments generalizing digest with
    | nil => simp
    | cons segment rest ih =>
      rw [List.forall_mem_cons] at hreadable
      obtain ⟨⟨htext, hspeaker, -⟩, hrest⟩ := hreadable
      rw [List.foldl_cons, ih _ hrest]
      simp only [SegmentEvidence.ofSegment] at htext hspeaker
      simp [digestBytes_eq_frame htext, digestBytes_eq_frame hspeaker, segmentEvidenceBytes, SegmentEvidence.ofSegment]
  have hcount : lengthOrMax result.segments.length = result.segments.length := by
    have hlt := h.count
    rw [BatchEvidence.ofResult, List.length_map] at hlt
    exact if_pos hlt
  have hsegmentsReadable := h.segments
  rw [BatchEvidence.ofResult, List.forall_mem_map] at hsegmentsReadable
  have htextsReadable : ∀ text ∈ [result.profile.provider, result.profile.model, result.profile.language, result.text],
      Framable (Text.asBytes text) := List.forall_mem_map.mp h.texts
  rw [batchResultHasher, hsegments _ _ hsegmentsReadable, htexts _ _ htextsReadable, hcount]
  simp [batchEvidenceBytes, resultTexts, BatchEvidence.ofResult]

/-! ## Every reading is the only one -/

/-- One session: what its tracker is created with, and the calls it makes. -/
structure ObservedSession (Uuid : Type) where
  effectId : Uuid
  clientSessionId : Uuid
  gatewaySessionId : Uuid
  profile : ObservationProfile
  startedAtUnixMs : UInt64
  calls : List TrackerCall

namespace ObservedSession

variable {Uuid : Type} (session : ObservedSession Uuid)

/-- The tracker of a session after its calls. -/
def tracker : LiveObservationTracker Uuid :=
  (LiveObservationTracker.new session.effectId session.clientSessionId session.gatewaySessionId session.profile
    session.startedAtUnixMs).run session.calls

/-- Whether every confidence of the session is absent or finite. -/
def FiniteConfidences : Prop := ∀ event ∈ providerEvents session.calls, FiniteConfidence event

variable {session} {session' : ObservedSession Uuid}

/-- One frame hasher input has one list of acknowledgements. -/
theorem acknowledgements_eq (h : session.tracker.frameDigest = session'.tracker.frameDigest) :
    acknowledgements session.calls = acknowledgements session'.calls := by
  rw [tracker, tracker, frameDigest_run, frameDigest_run] at h
  have h := List.append_cancel_left h
  refine selfDelimiting_ackBytes.flatMap_inj (fun ack => ?_) (fun _ => framable_of_acknowledged)
    (fun _ => framable_of_acknowledged) h
  simp [ackBytes, Bytes.toBe, Bytes.toLe]

/-- One result hasher input has one list of provider events. -/
theorem providerEvents_eq (hfinite : session.FiniteConfidences) (hfinite' : session'.FiniteConfidences)
    (h : session.tracker.resultDigest = session'.tracker.resultDigest) :
    providerEvents session.calls = providerEvents session'.calls := by
  rw [tracker, tracker, resultDigest_run, resultDigest_run] at h
  have h := List.append_cancel_left h
  refine selfDelimiting_eventBytes.flatMap_inj (fun event hnil => ?_)
    (fun event hevent => ⟨inMemory_of_observed hevent, hfinite event hevent⟩)
    (fun event hevent => ⟨inMemory_of_observed hevent, hfinite' event hevent⟩) h
  have hhead := head_eventBytes event
  rw [hnil] at hhead
  cases hhead

end ObservedSession

/-- One hasher input has one accepted result, up to what the digest identifies. -/
theorem batchEvidence_eq {snapshot snapshot' : BatchJobSnapshot} {result result' : HeldResult}
    (hvalid : validResult snapshot result.1 = true) (hvalid' : validResult snapshot' result'.1 = true)
    (h : batchResultHasher result.1 = batchResultHasher result'.1) :
    BatchEvidence.ofResult result.1 = .ofResult result'.1 := by
  have hreadable := readable_of_validResult hvalid
  have hreadable' := readable_of_validResult hvalid'
  rw [batchResultHasher_eq hreadable, batchResultHasher_eq hreadable', List.append_cancel_left_eq] at h
  exact hreadable.eq hreadable' h

/-- Texts with one digest are the same, or the hash has a collision. -/
theorem eq_or_collides {sha256 : List UInt8 → Sha256Digest} {input input' : List UInt8}
    (h : hexEncode (sha256 input).bytes = hexEncode (sha256 input').bytes) : input = input' ∨ Collides sha256 := by
  by_cases hinput : input = input'
  · exact .inl hinput
  · exact .inr ⟨input, input', hinput, hexEncode_inj h⟩

/-- What two sessions feed to a hasher, and the digests of their records, tell their evidence apart. -/
structure LiveEvidenceTold {Uuid : Type} (sha256 : List UInt8 → Sha256Digest) (s s' : ObservedSession Uuid) :
    Prop where
  frames : s.tracker.frameDigest = s'.tracker.frameDigest → acknowledgements s.calls = acknowledgements s'.calls
  events : s.FiniteConfidences → s'.FiniteConfidences → s.tracker.resultDigest = s'.tracker.resultDigest →
    providerEvents s.calls = providerEvents s'.calls
  frameRecords : ∀ operation operation' status status' now now',
    (s.tracker.finish sha256 operation status now).ackedRawInputDigest =
        (s'.tracker.finish sha256 operation' status' now').ackedRawInputDigest →
      acknowledgements s.calls = acknowledgements s'.calls ∨ Collides sha256
  eventRecords : s.FiniteConfidences → s'.FiniteConfidences → ∀ operation operation' status status' now now',
    (s.tracker.finish sha256 operation status now).resultDigest =
        (s'.tracker.finish sha256 operation' status' now').resultDigest →
      providerEvents s.calls = providerEvents s'.calls ∨ Collides sha256

/-- What two accepted results feed to the hasher, and their digests, tell their evidence apart. -/
structure BatchEvidenceTold (sha256 : List UInt8 → Sha256Digest) (result result' : BatchRecognitionResult) :
    Prop where
  hasher : batchResultHasher result = batchResultHasher result' →
    BatchEvidence.ofResult result = .ofResult result'
  digest : batchResultDigest sha256 result = batchResultDigest sha256 result' →
    BatchEvidence.ofResult result = .ofResult result' ∨ Collides sha256

/-- Equal hasher inputs have equal evidence, in every two sessions and for every two accepted results, and
different evidence has one digest only by a collision of the hash. -/
theorem evidenceDigests_unambiguous (Uuid : Type) (sha256 : List UInt8 → Sha256Digest) :
    (∀ session session' : ObservedSession Uuid, LiveEvidenceTold sha256 session session') ∧
      ∀ (snapshot snapshot' : BatchJobSnapshot) (result result' : HeldResult),
        validResult snapshot result.1 = true → validResult snapshot' result'.1 = true →
          BatchEvidenceTold sha256 result.1 result'.1 := by
  refine ⟨fun session session' => ⟨ObservedSession.acknowledgements_eq, ObservedSession.providerEvents_eq, ?_, ?_⟩,
    fun snapshot snapshot' result result' hvalid hvalid' => ⟨batchEvidence_eq hvalid hvalid', fun h => ?_⟩⟩
  · intro _ _ _ _ _ _ h
    exact (eq_or_collides h).imp_left ObservedSession.acknowledgements_eq
  · intro hfinite hfinite' _ _ _ _ _ _ h
    exact (eq_or_collides h).imp_left (ObservedSession.providerEvents_eq hfinite hfinite')
  · exact (eq_or_collides h).imp_left (batchEvidence_eq hvalid hvalid')

/-- A session which acknowledges `a` and `bc` is told from one which acknowledges `abc`, and a result whose
speaker has no name is told up to that from one without a speaker. -/
theorem evidenceDigests_unambiguous_split :
    let session (calls : List TrackerCall) : ObservedSession ℕ :=
      ⟨3, 1, 2, ⟨2, "deepgram", "nova-3", "multi"⟩, 0, calls⟩
    let split := session [.acceptFrame, .providerWritten 1, .ackSent 1 ⟨[0x61], by decide⟩, .acceptFrame,
      .providerWritten 2, .ackSent 2 ⟨[0x62, 0x63], by decide⟩]
    let joined := session [.acceptFrame, .providerWritten 1, .ackSent 1 ⟨[0x61, 0x62, 0x63], by decide⟩]
    let unheard : BatchRecognitionResult := { Storage.namelessSpeaker with segments := [⟨0, 8, "a", none, none⟩] }
    split.tracker.frameDigest ≠ joined.tracker.frameDigest ∧
      BatchEvidenceTold Identity.sampleSha256 Storage.namelessSpeaker unheard := by
  intro session split joined unheard
  have hunambiguous := evidenceDigests_unambiguous ℕ Identity.sampleSha256
  refine ⟨fun h => ?_, ?_⟩
  · exact absurd ((hunambiguous.1 split joined).frames h) (by decide)
  · exact hunambiguous.2 Storage.plainClaim Storage.plainClaim ⟨Storage.namelessSpeaker, by decide +kernel⟩
      ⟨unheard, by decide +kernel⟩ (by decide +kernel) (by decide +kernel)

end Voicetext.Gateway.Server
