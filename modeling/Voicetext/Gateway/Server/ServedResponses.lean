import Mathlib.Logic.Relation
import Voicetext.Common.JsonSize
import Voicetext.Common.Utf16
import Voicetext.Gateway.Server.Batch
import Voicetext.Gateway.Storage.PaidOutcomes

/-!
# Stored jobs are served

A completed job is served with the text its completion was validated with, however often it is written and
read again. A job in any other state is served whenever it is stored under a frozen profile: its delay is
bounded by the ledger, its failure code by the handler, and its document is small.
-/

namespace Voicetext.Gateway.Server

open Voicetext.Common Voicetext.Speech.Domain Voicetext.Speech.Application Voicetext.Gateway.Contracts
open Voicetext.Gateway.Storage (UuidCodec JobRecord WritableRecord untyped untypedReference settle Storable)

section Reloads

variable (codec : UuidCodec) (floats : FloatText)

/-- A snapshot is written to a row, which is read again under some revision. -/
def Reloaded (before after : BatchJobSnapshot) : Prop :=
  ∃ (record : WritableRecord codec) (revision : Int64),
    WritableRecord.tryFrom codec floats before = .ok record ∧
      Storage.BatchJobSnapshot.tryFrom codec floats { record.toJobRecord with revision } = .ok after

variable {codec floats} {before after : BatchJobSnapshot}

/-- What is read again is the snapshot without operation kinds, under the revision of its row. -/
theorem eq_of_reloaded (h : Reloaded codec floats before after) :
    after = { untyped before with revision := after.revision } := by
  obtain ⟨record, revision, hwritten, hread⟩ := h
  have hstored := Storage.tryFrom_of_written hwritten
  obtain ⟨_, hcolumns, _⟩ := Storage.BatchJobSnapshot.tryFrom_eq_ok.mp hstored
  obtain ⟨hchecked, hreadColumns, hreference, text, htext, hresult⟩ :=
    Storage.BatchJobSnapshot.tryFrom_eq_ok.mp hread
  -- under the revision it was written with, the row holds what was read
  have hsame : Storage.BatchJobSnapshot.tryFrom codec floats record.toJobRecord =
      .ok { after with revision := (untyped before).revision } :=
    Storage.BatchJobSnapshot.tryFrom_eq_ok.mpr
      ⟨{ hchecked with }, { hreadColumns with revision := hcolumns.revision }, hreference, text, htext, hresult⟩
  have hafter := Except.ok.inj (hstored.symm.trans hsame)
  rw [hafter]

theorem untyped_untyped (snapshot : BatchJobSnapshot) : untyped (untyped snapshot) = untyped snapshot := by
  have hreference (reference : ProviderReference) :
      untypedReference (untypedReference reference) = untypedReference reference := rfl
  simp [untyped, Option.map_map, Function.comp_def, hreference]

/-- Every later load of a snapshot is the snapshot without operation kinds, under the revision of its row. -/
theorem eq_of_reloads (h : Relation.TransGen (Reloaded codec floats) before after) :
    after = { untyped before with revision := after.revision } := by
  induction h with
  | single hstep => exact eq_of_reloaded hstep
  | @tail loaded last _ hstep ih =>
    have hlast := eq_of_reloaded hstep
    rw [ih] at hlast
    rw [hlast]
    exact congrArg (fun snapshot : BatchJobSnapshot => { snapshot with revision := last.revision })
      (untyped_untyped before)

/-- A snapshot which was read has a canonical identity. -/
theorem canonicalUuid_of_reloads (h : Relation.TransGen (Reloaded codec floats) before after) :
    ∃ uuid, codec.canonicalUuid after.id.asStr = .ok uuid := by
  have hread {loaded last : BatchJobSnapshot} (hstep : Reloaded codec floats loaded last) :
      ∃ uuid, codec.canonicalUuid last.id.asStr = .ok uuid := by
    obtain ⟨record, _, _, hread⟩ := hstep
    obtain ⟨_, hcolumns, _⟩ := Storage.BatchJobSnapshot.tryFrom_eq_ok.mp hread
    exact ⟨_, hcolumns.jobId⟩
  cases h with
  | single hstep => exact hread hstep
  | tail _ hstep => exact hread hstep

end Reloads

section Documents

variable {codec : UuidCodec} (numbers : WireNumbers) (identity : BatchIdentity)

/-- A code in capital letters, digits and underscores which is neither empty nor long. -/
def SafeCode (code : String) : Prop :=
  code ≠ "" ∧ Text.len code ≤ 128 ∧ (Text.asBytes code).all (fun byte =>
    (0x41 ≤ byte && byte ≤ 0x5a) || (0x30 ≤ byte && byte ≤ 0x39) || byte = 0x5f) = true

instance (code : String) : Decidable (SafeCode code) := inferInstanceAs (Decidable (_ ∧ _))

/-- What is shown for a failure is safe. -/
theorem safeCode_safeFailureCode (code : String) : SafeCode (safeFailureCode code) := by
  unfold safeFailureCode
  split
  · assumption
  · decide +kernel

/-- A safe code passes the check of the contract. -/
theorem validateErrorCode_of_safe {code : String} (h : SafeCode code) :
    BatchOutbound.validateErrorCode code = .ok () := by
  have hunits := Text.utf16Len_le_len code
  exact if_pos ⟨h.1, hunits.trans h.2.1, h.2.2⟩

/-- A formatted UUID takes its 36 characters and the quotes at most. -/
theorem bytes_write_jobId_le (jobId : codec.Uuid) :
    Text.bytes (Json.write (.string (codec.hyphenated jobId))) ≤ 218 := by
  have hascii : ∀ c ∈ (codec.hyphenated jobId).toList, c.toNat < 128 := by
    intro c hc
    rcases codec.hyphenated_chars jobId c hc with hlower | rfl
    · exact Storage.ascii_of_isLowerHex hlower
    · decide
  have hlen : Text.len (codec.hyphenated jobId) = 36 := by
    rw [Text.len_of_ascii hascii, codec.hyphenated_length]
  have hbound := Json.bytes_write_string_le (codec.hyphenated jobId)
  omega

/-- A response without a result: its delay is bounded, or its code is safe. -/
inductive Presentable : OutboundBatchResponse codec → Prop
  | pending {jobId : codec.Uuid} {nextAction : NextAction} {retryAfterMs : UInt64}
      (hretry : retryAfterMs ≤ BatchOutbound.MAX_RETRY_AFTER_MS) :
      Presentable (.pending jobId nextAction retryAfterMs)
  | failed {jobId : codec.Uuid} {errorCode : String} (hcode : SafeCode errorCode) :
      Presentable (.failed jobId errorCode)

/-- The bytes the members of an object take at most. -/
def membersBytes (members : List (String × Json)) : ℕ :=
  (members.map fun member => Text.bytes (Json.quoted member.1) + Text.bytes (Json.write member.2) + 2).sum

theorem membersBytes_pending (jobId : codec.Uuid) (nextAction : NextAction) (retryAfterMs : UInt64) :
    membersBytes (BatchOutbound.pendingMembers jobId nextAction retryAfterMs) ≤ 400 := by
  have hjob := bytes_write_jobId_le jobId
  have hretry := Json.bytes_write_ofU64_le retryAfterMs
  have hkeys : Text.bytes (Json.quoted "success") = 9 ∧ Text.bytes (Json.quoted "status") = 8 ∧
      Text.bytes (Json.quoted "job_id") = 8 ∧ Text.bytes (Json.quoted "next_action") = 13 ∧
        Text.bytes (Json.quoted "retry_after_ms") = 16 := by decide +kernel
  have hvalues : Text.bytes (Json.write (.bool true)) = 4 ∧ Text.bytes (Json.write (.string "running")) = 9 := by
    decide +kernel
  have haction : Text.bytes (Json.write (BatchOutbound.nextActionJson nextAction)) ≤ 7 := by
    cases nextAction <;> decide +kernel
  simp only [membersBytes, BatchOutbound.pendingMembers, List.map_cons, List.map_nil, List.sum_cons, List.sum_nil,
    hkeys, hvalues]
  omega

theorem membersBytes_failed (jobId : codec.Uuid) {errorCode : String} (hlen : Text.len errorCode ≤ 128) :
    membersBytes (BatchOutbound.failedMembers jobId errorCode) ≤ 1100 := by
  have hjob := bytes_write_jobId_le jobId
  have hcode := Json.bytes_write_string_le errorCode
  have hkeys : Text.bytes (Json.quoted "success") = 9 ∧ Text.bytes (Json.quoted "status") = 8 ∧
      Text.bytes (Json.quoted "job_id") = 8 ∧ Text.bytes (Json.quoted "retryable") = 11 ∧
        Text.bytes (Json.quoted "error_code") = 12 := by decide +kernel
  have hvalues : Text.bytes (Json.write (.bool false)) = 5 ∧ Text.bytes (Json.write (.string "failed")) = 8 := by
    decide +kernel
  simp only [membersBytes, BatchOutbound.failedMembers, List.map_cons, List.map_nil, List.sum_cons, List.sum_nil,
    hkeys, hvalues]
  omega

/-- A document of small members is within the cap, in either contract. -/
theorem len_document_le {members : List (String × Json)} (hmembers : membersBytes members ≤ 1100) :
    Text.len (Json.object members).toText ≤ BatchOutbound.MAX_RESPONSE_BYTES ∧
      Text.len (BatchOutbound.envelopeV3 3 identity members).toText ≤ BatchOutbound.MAX_RESPONSE_BYTES := by
  have hcap : BatchOutbound.MAX_RESPONSE_BYTES = 2097152 := by decide
  have hlen (doc : Json) : Text.len doc.toText = Text.bytes doc.write := Text.len_ofList _
  constructor
  · have hobject := Json.bytes_write_object_le members
    rw [hlen]
    unfold membersBytes at hmembers
    omega
  · have hobject := Json.bytes_write_object_le
      ([("contract_version", Json.ofU64 3), ("provider", .string identity.provider),
        ("model", .string identity.model), ("language", .string identity.language)] ++ members)
    have henvelope : membersBytes [("contract_version", Json.ofU64 3), ("provider", .string identity.provider),
        ("model", .string identity.model), ("language", .string identity.language)] ≤ 200 := by
      cases identity <;> decide +kernel
    rw [hlen]
    rw [List.map_append, List.sum_append] at hobject
    unfold membersBytes at hmembers henvelope
    exact hobject.trans (by omega)

/-- A response without a result is serialized under either contract. -/
theorem serializeResponse_of_presentable {response : OutboundBatchResponse codec} (h : Presentable response) :
    ∃ serialized, BatchOutbound.serializeResponse numbers identity response = .ok serialized := by
  cases h with
  | @pending jobId nextAction retryAfterMs hretry =>
    obtain ⟨hflat, henvelope⟩ := len_document_le identity
      ((membersBytes_pending jobId nextAction retryAfterMs).trans (by decide))
    cases identity with
    | deepgramNova3MultiV2 =>
      exact ⟨_, bind_eq_ok.mpr ⟨_, require_bind_eq_ok.mpr ⟨hretry, rfl⟩, require_bind_eq_ok.mpr ⟨hflat, rfl⟩⟩⟩
    | elevenlabsScribeV2MultiV3 =>
      exact ⟨_, bind_eq_ok.mpr ⟨_, require_bind_eq_ok.mpr ⟨hretry, rfl⟩, require_bind_eq_ok.mpr ⟨henvelope, rfl⟩⟩⟩
  | @failed jobId errorCode hcode =>
    have hchecked := validateErrorCode_of_safe hcode
    obtain ⟨hflat, henvelope⟩ := len_document_le identity (membersBytes_failed jobId hcode.2.1)
    cases identity with
    | deepgramNova3MultiV2 =>
      exact ⟨_, bind_eq_ok.mpr ⟨_, check_bind_eq_ok.mpr ⟨hchecked, rfl⟩, require_bind_eq_ok.mpr ⟨hflat, rfl⟩⟩⟩
    | elevenlabsScribeV2MultiV3 =>
      exact ⟨_, bind_eq_ok.mpr ⟨_, check_bind_eq_ok.mpr ⟨hchecked, rfl⟩, require_bind_eq_ok.mpr ⟨henvelope, rfl⟩⟩⟩

end Documents

section Answers

variable {codec : UuidCodec} {numbers : WireNumbers} {floats : FloatText} {snapshot : BatchJobSnapshot}

/-- A stored job without a result is shown by a response which can be serialized. -/
theorem outboundResponse_presentable (h : Storable codec floats snapshot)
    (hstate : snapshot.job.state.status ≠ .completed) (identity : BatchIdentity) (jobId : codec.Uuid) :
    ∃ outbound, outboundResponse identity jobId snapshot = .ok outbound ∧ Presentable outbound := by
  unfold outboundResponse
  cases hjob : snapshot.job.state with
  | accepted | submitting _ => exact ⟨_, rfl, .pending (by decide)⟩
  | retryable attempt failure =>
    refine ⟨_, rfl, .pending ?_⟩
    cases hdelay : snapshot.retryAfterMillis with
    | none =>
      rw [Option.getD_none]
      decide
    | some delay =>
      have hretry := h.retryAfter
      rw [Storage.validateRetryAfter, ite_error_eq_ok, hdelay] at hretry
      have hle : delay ≤ Storage.MAX_RETRY_AFTER_MILLIS := by simpa using (not_or.mp hretry.1).1
      exact hle
  | completed attempt => exact absurd (by rw [hjob]; rfl) hstate
  | failed attempt failure => exact ⟨_, rfl, .failed (safeCode_safeFailureCode _)⟩
  | outcomeUnknown attempt reason =>
    cases reason with
    | submission failure => exact ⟨_, rfl, .failed (by decide +kernel)⟩
    | interruptedSubmission => exact ⟨_, rfl, .failed (by decide +kernel)⟩

/-- A stored job without a result is served under either identity. -/
theorem responseForSnapshot_of_storable (h : Storable codec floats snapshot)
    (hstate : snapshot.job.state.status ≠ .completed) (identity : BatchIdentity) (jobId : codec.Uuid) :
    ∃ response, responseForSnapshot numbers identity jobId snapshot = .ok response := by
  obtain ⟨outbound, houtbound, hpresentable⟩ := outboundResponse_presentable h hstate identity jobId
  obtain ⟨serialized, hserialized⟩ := serializeResponse_of_presentable numbers identity hpresentable
  exact ⟨_, bind_eq_ok.mpr ⟨outbound, houtbound, bind_eq_ok.mpr ⟨serialized, mapErr_eq_ok.mpr hserialized, rfl⟩⟩⟩

/-- An outcome is recorded for a submission only. -/
theorem submitting_of_applyRecognitionOutcome {replacement : BatchJobSnapshot} {recognition : Recognition}
    {projection : BatchResultProjection}
    (h : applyRecognitionOutcome snapshot recognition projection = .ok replacement) :
    ∃ n, snapshot.job.state = .submitting n := by
  by_contra hnot
  have hrefused (target : BatchJobStatus) :
      ∃ error, snapshot.job.submissionAttempt target = .error error := by
    unfold BatchJob.submissionAttempt
    split
    · rename_i attempt hstate
      exact absurd ⟨attempt, hstate⟩ hnot
    · exact ⟨_, rfl⟩
  obtain ⟨_, hretryable⟩ := hrefused .retryable
  obtain ⟨_, hcompleted⟩ := hrefused .completed
  obtain ⟨_, hfailed⟩ := hrefused .failed
  obtain ⟨_, hunknown⟩ := hrefused .outcomeUnknown
  unfold applyRecognitionOutcome at h
  cases recognition with
  | ok result =>
    dsimp only at h
    split at h
    · simp [BatchJob.complete, hcompleted, Except.map] at h
    · simp [BatchJob.fail, hfailed, Except.map] at h
  | error failure =>
    cases failure with
    | knownNotAccepted retryable code reference delay =>
      cases retryable with
      | true => simp [BatchJob.recordRetryableFailure, hretryable, Except.map] at h
      | false => simp [BatchJob.fail, hfailed, Except.map] at h
    | knownAcceptedTerminal code reference => simp [BatchJob.fail, hfailed, Except.map] at h
    | unknownAfterSend code reference => simp [BatchJob.recordUnknownOutcome, hunknown, Except.map] at h

/-- A job completes only with a valid result which the projection accepts. -/
theorem completed_of_applyRecognitionOutcome {completed : BatchJobSnapshot} {recognition : Recognition}
    {projection : BatchResultProjection}
    (h : applyRecognitionOutcome snapshot recognition projection = .ok completed)
    (hstate : completed.job.state.status = .completed) :
    ∃ n result, recognition = .ok result ∧ validResult snapshot result = true ∧
      projection.validate snapshot.id result = .ok () ∧
        completed = settle snapshot (.completed n) result.providerReference none (some result) := by
  obtain ⟨n, hsubmitting⟩ := submitting_of_applyRecognitionOutcome h
  cases recognition with
  | ok result =>
    by_cases hprojectable : (validResult snapshot result && (projection.validate snapshot.id result).isOk) = true
    · obtain ⟨hvalid, hprojection⟩ := Bool.and_eq_true_iff.mp hprojectable
      have happlied := Storage.applyRecognitionOutcome_completed hsubmitting hvalid hprojection
      obtain ⟨_, hvalidated⟩ := isOk_iff.mp hprojection
      exact ⟨n, result, rfl, hvalid, hvalidated, Except.ok.inj (h.symm.trans happlied)⟩
    · have hsubmission := BatchJob.submissionAttempt_of_submitting hsubmitting
      have hsame : validResult { snapshot with retryAfterMillis := none } result = validResult snapshot result := rfl
      simp only [applyRecognitionOutcome, hsame, hprojectable, BatchJob.fail, hsubmission, Except.map] at h
      obtain rfl := Except.ok.inj h
      cases hstate
  | error failure =>
    obtain ⟨replacement, happlied, hsettled⟩ :=
      applyRecognitionOutcome_settlement hsubmitting (.error failure) projection
    obtain rfl := Except.ok.inj (h.symm.trans happlied)
    cases hsettled <;> cases hstate

/-- A completed response is answered with success. -/
theorem status_of_completed {identity : BatchIdentity} {jobId : codec.Uuid} {result : OutboundTranscription}
    {response : SerializedBatchResponse}
    (h : BatchOutbound.serializeResponse numbers identity (.completed jobId result) = .ok response) :
    response.status = .ok := by
  obtain ⟨⟨status, doc⟩, hdocument, h⟩ := bind_eq_ok.mp h
  obtain ⟨_, h⟩ := require_bind_eq_ok.mp h
  obtain rfl := Except.ok.inj h
  obtain ⟨_, hdocument⟩ := check_bind_eq_ok.mp hdocument
  cases identity with
  | deepgramNova3MultiV2 => exact (congrArg Prod.fst (Except.ok.inj hdocument)).symm
  | elevenlabsScribeV2MultiV3 => exact (congrArg Prod.fst (Except.ok.inj hdocument)).symm

/-- A result which was serialized is served, without the operation kind of its reference, as it was serialized. -/
theorem responseForSnapshot_untyped {identity : BatchIdentity} {jobId : codec.Uuid}
    {result : BatchRecognitionResult} {response : SerializedBatchResponse} {n : NonZeroU32}
    (hstate : snapshot.job.state = .completed n)
    (hresult : snapshot.result = some { result with
      providerReference := result.providerReference.map untypedReference })
    (h : BatchOutbound.serializeResponse numbers identity (completedResponse identity jobId result) = .ok response) :
    responseForSnapshot numbers identity jobId snapshot = .ok ⟨200, "application/json", response.body⟩ := by
  have houtbound : outboundResponse identity jobId snapshot = .ok (completedResponse identity jobId result) := by
    rw [outboundResponse, hstate, hresult]
    exact congrArg Except.ok (completedResponse_untyped identity jobId result)
  refine bind_eq_ok.mpr ⟨_, houtbound, bind_eq_ok.mpr ⟨response, mapErr_eq_ok.mpr h, ?_⟩⟩
  rw [status_of_completed h]
  rfl

/-- Every load of a job the gateway's projection let complete is served under the identity of its profile, with
the body its validation serialized; and every other stored job is served under the identity of its profile. -/
theorem storedJobs_served (codec : UuidCodec) (numbers : WireNumbers) :
    (∀ claimed recognition completed,
      applyRecognitionOutcome claimed recognition (gatewayBatchResultProjection codec numbers) = .ok completed →
        completed.job.state.status = .completed →
          ∃ result jobId identity response, completed.result = some result ∧
            codec.parseStr claimed.id.asStr = some jobId ∧ identityForResult result = some identity ∧
              BatchOutbound.serializeResponse numbers identity (completedResponse identity jobId result) =
                  .ok response ∧
                ∀ loaded, Relation.TransGen (Reloaded codec numbers.toFloatText) completed loaded →
                  codec.canonicalUuid loaded.id.asStr = .ok jobId ∧
                    identityForProfile loaded.job.profile = some identity ∧
                      responseForSnapshot numbers identity jobId loaded =
                        .ok ⟨200, "application/json", response.body⟩) ∧
    ∀ snapshot record, WritableRecord.tryFrom codec numbers.toFloatText snapshot = .ok record →
      snapshot.job.state.status ≠ .completed → ∀ identity, identityForProfile snapshot.job.profile = some identity →
        ∀ jobId : codec.Uuid, ∃ response, responseForSnapshot numbers identity jobId snapshot = .ok response := by
  constructor
  · intro claimed recognition completed happlied hstate
    obtain ⟨n, result, _, hvalid, hvalidated, rfl⟩ := completed_of_applyRecognitionOutcome happlied hstate
    obtain ⟨jobId, identity, response, hparse, hidentity, hserialized⟩ := validate_eq_ok.mp hvalidated
    refine ⟨result, jobId, identity, response, rfl, hparse, hidentity, hserialized, fun loaded hloads => ?_⟩
    have hloaded := eq_of_reloads hloads
    have hid : loaded.id = claimed.id := by rw [hloaded]; rfl
    have hprofile : loaded.job.profile = result.profile := by
      rw [hloaded]
      exact (validResult_identity hvalid).1.symm
    refine ⟨?_, ?_, ?_⟩
    · -- what was read has the formatting of some UUID, which is the one the validation parsed
      obtain ⟨uuid, huuid⟩ := canonicalUuid_of_reloads hloads
      have hsame := codec.parse_hyphenated uuid
      rw [Storage.canonicalUuid_eq_ok.mp huuid, hid, hparse] at hsame
      rw [huuid, Option.some.inj hsame]
    · rw [hprofile]
      exact hidentity
    · exact responseForSnapshot_untyped (by rw [hloaded]; rfl) (by rw [hloaded]; rfl) hserialized
  · intro snapshot record hwritten hstate identity _ jobId
    exact responseForSnapshot_of_storable (Storage.storable_iff.mpr ⟨record, hwritten⟩) hstate identity jobId

/-- A result of one word without a speaker. -/
def plainResult : BatchRecognitionResult :=
  { Storage.namelessSpeaker with segments := [⟨0, 8, "a", none, none⟩] }

/-- The claim of a first attempt is served while it runs, and with its validated body once it completed. -/
theorem storedJobs_served_plain :
    let jobId : UuidCodec.canonicalForms.Uuid := ⟨"00000000-0000-0000-0000-000000000000", by decide⟩
    (∃ response, responseForSnapshot .bits .deepgramNova3MultiV2 jobId Storage.plainClaim = .ok response) ∧
      ∃ completed loaded body, completed.job.state = .completed .MIN ∧
        Reloaded .canonicalForms WireNumbers.bits.toFloatText completed loaded ∧
          responseForSnapshot .bits .deepgramNova3MultiV2 jobId loaded = .ok ⟨200, "application/json", body⟩ := by
  intro jobId
  obtain ⟨hcompleted, hstored⟩ := storedJobs_served .canonicalForms .bits
  have hvalid : validResult Storage.plainClaim plainResult = true := by decide +kernel
  have hprojection : ((gatewayBatchResultProjection .canonicalForms .bits).validate Storage.plainClaim.id
      plainResult).isOk = true := by decide +kernel
  have happlied := Storage.applyRecognitionOutcome_completed rfl hvalid hprojection
  obtain ⟨result, uuid, identity, response, hresult, hparse, hidentity, _, hserved⟩ :=
    hcompleted _ _ _ happlied rfl
  have hstorable := (Storage.storable_settle_completed (n := .MIN)
    (Storage.storable_plainClaim WireNumbers.bits.toFloatText) hvalid).mpr ⟨rfl, by decide⟩
  obtain ⟨record, hrecord⟩ := Storage.storable_iff.mp hstorable
  obtain ⟨claimedRecord, hclaimed⟩ :=
    Storage.storable_iff.mp (Storage.storable_plainClaim WireNumbers.bits.toFloatText)
  have hreloaded : Reloaded .canonicalForms WireNumbers.bits.toFloatText _ _ :=
    ⟨record, record.revision, hrecord, Storage.tryFrom_of_written hrecord⟩
  obtain ⟨_, _, hanswer⟩ := hserved _ (.single hreloaded)
  have hjob : uuid = jobId := Option.some.inj (hparse.symm.trans (by decide))
  obtain rfl := Option.some.inj hresult
  have hdeepgram : identity = .deepgramNova3MultiV2 := Option.some.inj (hidentity.symm.trans (by decide))
  rw [hjob, hdeepgram] at hanswer
  exact ⟨hstored _ claimedRecord hclaimed (by decide) _ (by decide) jobId, _, _, _, rfl, hreloaded, hanswer⟩

end Answers

end Voicetext.Gateway.Server
