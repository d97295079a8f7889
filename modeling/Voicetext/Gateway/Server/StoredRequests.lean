import Mathlib.Data.List.Dedup
import Voicetext.Common.JsonSize
import Voicetext.Gateway.CanonicalKeyterms
import Voicetext.Gateway.Server.Batch
import Voicetext.Gateway.Storage.DurableRecords

/-!
# Admitted requests in the ledger

The initial row of an admitted request passes every check of its record but one: the boundary bounds
keyterms by their count and one by one, and the ledger also bounds their total.
-/

namespace Voicetext.Gateway.Server

open Voicetext.Common Voicetext.Speech.Domain Voicetext.Speech.Application Voicetext.Gateway.Contracts
open Voicetext.Gateway.Storage
open Voicetext.Gateway.Identity (KeytermsCanonical canonicalizeKeyterms requestFingerprint)

section Checks

theorem isPrefixOf?_append (front rest : List Char) : front.isPrefixOf? (front ++ rest) = some rest := by
  induction front with
  | nil => rfl
  | cons c front ih => simp [List.isPrefixOf?, ih]

/-- A formatted handle names its job and its digest. -/
theorem validateHandle_formatHandle {jobId digest : String} (hlength : digest.toList.length = 64)
    (hhex : ∀ c ∈ digest.toList, isLowerHex c = true) :
    validateHandle (formatHandle jobId digest) jobId = .ok () := by
  have hchars : (formatHandle jobId digest).toList =
      (jobId.toList ++ ['-']) ++ (digest.toList ++ ['.', 'o', 'g', 'g']) := by
    simp [formatHandle]
  have hsuffix : List.isSuffixOf? ['.', 'o', 'g', 'g'] (digest.toList ++ ['.', 'o', 'g', 'g']) =
      some digest.toList := by
    rw [List.isSuffixOf?, List.reverse_append, isPrefixOf?_append, Option.map_some, List.reverse_reverse]
  have hbytes : Text.bytes digest.toList = 64 := by
    rw [Text.bytes_of_ascii fun c hc => ascii_of_isLowerHex (hhex c hc), hlength]
  have hall : digest.toList.all isLowerHex = true := List.all_eq_true.mpr hhex
  simp only [validateHandle, hchars, isPrefixOf?_append, Option.bind_some, hsuffix]
  rw [if_neg]
  simp [hbytes, hall]

/-- The bytes of keyterms, in total. -/
def totalBytes (keyterms : List String) : ℕ := (keyterms.map Text.len).sum

theorem totalBytes_le {keyterms : List String} (h : ∀ keyterm ∈ keyterms, Identity.KeytermValid keyterm) :
    totalBytes keyterms ≤ Identity.MAX_KEYTERM_BYTES * keyterms.length := by
  induction keyterms with
  | nil => exact Nat.zero_le _
  | cons keyterm rest ih =>
    obtain ⟨hkeyterm, hrest⟩ := List.forall_mem_cons.mp h
    have hbound := hkeyterm.bounded
    have htotal := ih hrest
    simp only [totalBytes, List.map_cons, List.sum_cons, List.length_cons, Nat.mul_succ] at htotal ⊢
    omega

/-- Canonical keyterms are counted one by one. -/
theorem keytermsBytes_canonical {total : ℕ} {keyterms : List String}
    (hvalid : ∀ keyterm ∈ keyterms, Identity.KeytermValid keyterm)
    (htrimmed : ∀ keyterm ∈ keyterms, Text.trim keyterm = keyterm) (hfits : total + totalBytes keyterms < 2 ^ 64) :
    keytermsBytes total keyterms = some (total + totalBytes keyterms) := by
  induction keyterms generalizing total with
  | nil => rfl
  | cons keyterm rest ih =>
    obtain ⟨hkeyterm, hvalid⟩ := List.forall_mem_cons.mp hvalid
    obtain ⟨htrim, htrimmed⟩ := List.forall_mem_cons.mp htrimmed
    have hbound := hkeyterm.bounded
    simp only [totalBytes, List.map_cons, List.sum_cons, Identity.MAX_KEYTERM_BYTES] at hfits hbound ih ⊢
    have hlen : ¬ Text.len keyterm > MAX_KEYTERM_BYTES := by
      simp only [MAX_KEYTERM_BYTES]
      omega
    rw [keytermsBytes, if_neg (by simp [hkeyterm.nonempty, hlen, htrim, hkeyterm.noControl]), checkedAdd,
      if_pos (by omega), Option.bind_some, ih hvalid htrimmed (by omega), Nat.add_assoc]

/-- The ledger accepts canonical keyterms when it accepts their total. -/
theorem validateKeyterms_canonical {keyterms : List String} (h : KeytermsCanonical keyterms)
    (hcount : keyterms.length ≤ Identity.MAX_KEYTERMS) :
    validateKeyterms keyterms = .ok () ↔ totalBytes keyterms ≤ MAX_KEYTERMS_BYTES := by
  have htotal := totalBytes_le h.valid
  simp only [Identity.MAX_KEYTERM_BYTES, Identity.MAX_KEYTERMS] at htotal hcount
  have hbytes : keytermsBytes 0 keyterms = some (0 + totalBytes keyterms) :=
    keytermsBytes_canonical h.valid h.trimmed (by omega)
  rw [validateKeyterms, ite_error_eq_ok, hbytes]
  simp [MAX_KEYTERMS, hcount]

end Checks

section Requests

variable {codec : UuidCodec} {floats : FloatText} {sha256 : List UInt8 → Sha256Digest} {identity : BatchIdentity}
  {field : String} {audio : List UInt8} {duration : UInt64} {request : BatchAdmissionRequest}

theorem readKeyterms_eq_ok {keyterms : List String} : readKeyterms field = .ok keyterms ↔
    Text.len field ≤ MAX_TEXT_FIELD_BYTES ∧ ∃ rawKeyterms,
      (Json.parse field).bind (Json.asArray Json.asString) = some rawKeyterms ∧
        canonicalizeKeyterms rawKeyterms = .ok keyterms := by
  rw [readKeyterms, ite_error_eq_ok, not_lt]
  refine and_congr_right fun _ => ?_
  cases (Json.parse field).bind (Json.asArray Json.asString) <;> simp

/-- An admitted request has the profile of its identity and the canonical keyterms of its field. -/
theorem admissionRequest_eq_ok {id : BatchJobId} :
    admissionRequest sha256 identity id field audio duration = .ok request ↔
      ∃ keyterms fingerprint, readKeyterms field = .ok keyterms ∧
        (capabilities identity).validate (capabilityRequest identity keyterms audio) = .ok () ∧
        requestFingerprint sha256 (profile identity) keyterms audio = .ok fingerprint ∧
          ⟨id, profile identity, fingerprint, audio, duration, keyterms⟩ = request := by
  unfold admissionRequest
  simp only [bind_eq_ok, mapErr_eq_ok, pure, Except.pure, Except.ok.injEq]
  constructor
  · rintro ⟨keyterms, hkeyterms, _, hcapable, fingerprint, hfingerprint, hrequest⟩
    exact ⟨keyterms, fingerprint, hkeyterms, hcapable, hfingerprint, hrequest⟩
  · rintro ⟨keyterms, fingerprint, hkeyterms, hcapable, hfingerprint, hrequest⟩
    exact ⟨keyterms, hkeyterms, (), hcapable, fingerprint, hfingerprint, hrequest⟩

/-- The total of canonical keyterms is that of the distinct trimmed keyterms they come from. -/
theorem totalBytes_canonicalizeKeyterms {rawKeyterms keyterms : List String}
    (h : canonicalizeKeyterms rawKeyterms = .ok keyterms) :
    totalBytes keyterms = totalBytes (rawKeyterms.map Text.trim).dedup := by
  obtain ⟨hcanonical, hmem, _⟩ := Identity.canonical_of_canonicalizeKeyterms h
  have hperm : keyterms.Perm (rawKeyterms.map Text.trim).dedup := by
    refine (List.perm_ext_iff_of_nodup hcanonical.increasing.nodup (List.nodup_dedup _)).mpr fun term => ?_
    rw [hmem, List.mem_dedup, List.mem_map]
  exact (hperm.map Text.len).sum_nat

theorem storable_insertedSnapshot {jobId : codec.Uuid} {digest : String} (hduration : duration.toNat < 2 ^ 63)
    (hlength : digest.toList.length = 64) (hhex : ∀ c ∈ digest.toList, isLowerHex c = true)
    (fingerprint : BatchRequestFingerprint) (keyterms : List String) :
    Storable codec floats (insertedSnapshot
        ⟨⟨codec.hyphenated jobId⟩, profile identity, fingerprint, audio, duration, keyterms⟩
        ⟨formatHandle (codec.hyphenated jobId) digest⟩) ↔ validateKeyterms keyterms = .ok () := by
  have hprofile : ∀ identity, validateProfile (profile identity) = .ok () ∧
      (profile identity).contractVersion.toNat < 2 ^ 15 := by
    intro identity
    cases identity <;> exact ⟨by decide, by decide⟩
  constructor
  · intro h
    exact h.keyterms
  · intro hkeyterms
    exact {
      id := ⟨jobId, codec.canonicalUuid_hyphenated jobId⟩
      handle := validateHandle_formatHandle hlength hhex
      profile := (hprofile identity).1
      keyterms := hkeyterms
      reference := rfl
      retryAfter := by simp [validateRetryAfter, insertedSnapshot]
      presence := by simp [validateResultPresence, insertedSnapshot, BatchJob.accept, BatchJobState.status]
      result := by simp [insertedSnapshot]
      version := (hprofile identity).2
      duration := hduration
      revision := by simp [insertedSnapshot] }

end Requests

section Boundary

variable {keyterms : List String} {audio : List UInt8}

/-- The Deepgram descriptor accepts canonical keyterms with any audio within its bound. -/
theorem validate_deepgram (h : KeytermsCanonical keyterms) (hcount : keyterms.length ≤ Identity.MAX_KEYTERMS)
    (hpos : audio ≠ []) (hle : audio.length ≤ 64 * 1024 * 1024) :
    (capabilities .deepgramNova3MultiV2).validate (capabilityRequest .deepgramNova3MultiV2 keyterms audio) =
      .ok () := by
  have hterms : keyterms.any (invalidKeyTerm Providers.Deepgram.Batch.CAPABILITIES.providerLimits) = false := by
    refine List.any_eq_false.mpr fun keyterm hkeyterm => ?_
    have hvalid := h.valid keyterm hkeyterm
    have hbounded := hvalid.bounded
    simp only [Identity.MAX_KEYTERM_BYTES] at hbounded
    simp [invalidKeyTerm, Providers.Deepgram.Batch.CAPABILITIES, hvalid.nonempty, hvalid.noControl,
      h.trimmed keyterm hkeyterm, exceedsTextLimit, hbounded]
  have hlength : audio.length ≠ 0 := fun hzero => hpos (List.length_eq_zero_iff.mp hzero)
  simp only [Identity.MAX_KEYTERMS] at hcount
  simp only [BatchCapabilityDescriptor.validate, capabilities, capabilityRequest, validateKeyTerms, hterms]
  simp [Providers.Deepgram.Batch.CAPABILITIES, BatchLanguageHints.refuses, BatchIdentity.language, hpos]
  rw [if_neg (by omega), if_neg (by omega)]

/-- Canonical keyterms and audio within its bound have a fingerprint. -/
theorem requestFingerprint_isOk (sha256 : List UInt8 → Sha256Digest) (identity : BatchIdentity) (h : KeytermsCanonical keyterms)
    (hcount : keyterms.length ≤ Identity.MAX_KEYTERMS) (hpos : audio ≠ []) (hle : audio.length ≤ 64 * 1024 * 1024) :
    ∃ fingerprint, requestFingerprint sha256 (profile identity) keyterms audio = .ok fingerprint := by
  have hkeyterms := Identity.validateKeyterms_eq_ok.mpr ⟨hcount, h⟩
  have hlong : ¬ audio.length > Identity.MAX_AUDIO_BYTES := not_lt.mpr hle
  unfold requestFingerprint
  rw [hkeyterms, if_neg (by cases identity <;> decide), if_neg (by cases identity <;> decide)]
  simp only [bind, Except.bind, hpos, hlong, if_false]
  exact ⟨_, rfl⟩

/-- A field of at most a hundred valid keyterms is admitted under the second contract. -/
theorem admits_deepgram (sha256 : List UInt8 → Sha256Digest) {field : String} {rawKeyterms : List String} (id : BatchJobId) (duration : UInt64)
    (hlen : Text.len field ≤ MAX_TEXT_FIELD_BYTES)
    (hraw : (Json.parse field).bind (Json.asArray Json.asString) = some rawKeyterms)
    (hcount : rawKeyterms.length ≤ Identity.MAX_KEYTERMS)
    (hvalid : ∀ keyterm ∈ rawKeyterms, Identity.KeytermValid (Text.trim keyterm)) (hpos : audio ≠ [])
    (hle : audio.length ≤ 64 * 1024 * 1024) :
    ∃ request, admissionRequest sha256 .deepgramNova3MultiV2 id field audio duration = .ok request := by
  have hcanonicalized := Identity.canonicalizeKeyterms_eq_ok.mpr ⟨hcount, hvalid, rfl⟩
  obtain ⟨hcanonical, _, hcanonicalCount⟩ := Identity.canonical_of_canonicalizeKeyterms hcanonicalized
  obtain ⟨fingerprint, hfingerprint⟩ := requestFingerprint_isOk sha256 .deepgramNova3MultiV2 hcanonical
    hcanonicalCount hpos hle
  exact ⟨_, admissionRequest_eq_ok.mpr ⟨_, fingerprint, readKeyterms_eq_ok.mpr ⟨hlen, _, hraw, hcanonicalized⟩,
    validate_deepgram hcanonical hcanonicalCount hpos hle, hfingerprint, rfl⟩⟩

end Boundary

section Crowded

/-- A keyterm of 66 equal characters. -/
def crowdedTerm (i : ℕ) : String := String.ofList (List.replicate 66 (Char.ofNat (0x4E00 + i)))

def crowdedTerms : List String := (List.range 100).map crowdedTerm

def crowdedField : String := (Json.array (crowdedTerms.map .string)).toText

theorem char_crowdedTerm {i : ℕ} {c : Char} (hi : i < 100) (hc : c ∈ (crowdedTerm i).toList) :
    c.toNat = 0x4E00 + i ∧ c.utf8Size = 3 ∧ Text.isWhitespace c = false ∧ Text.isControl c = false ∧
      Json.isPlain c = true := by
  have hchars : ∀ i < 100, (Char.ofNat (0x4E00 + i)).toNat = 0x4E00 + i ∧
      (Char.ofNat (0x4E00 + i)).utf8Size = 3 ∧ Text.isWhitespace (Char.ofNat (0x4E00 + i)) = false ∧
        Text.isControl (Char.ofNat (0x4E00 + i)) = false ∧ Json.isPlain (Char.ofNat (0x4E00 + i)) = true := by
    decide
  rw [crowdedTerm, String.toList_ofList] at hc
  rw [List.eq_of_mem_replicate hc]
  exact hchars i hi

theorem len_crowdedTerm {i : ℕ} (hi : i < 100) : Text.len (crowdedTerm i) = 198 := by
  have hsizes : (crowdedTerm i).toList.map Char.utf8Size = List.replicate 66 3 := by
    refine List.eq_replicate_iff.mpr ⟨by simp [crowdedTerm], fun size hsize => ?_⟩
    obtain ⟨c, hc, rfl⟩ := List.mem_map.mp hsize
    exact (char_crowdedTerm hi hc).2.1
  rw [Text.len_eq_bytes, Text.bytes, hsizes]
  decide

theorem crowdedTerm_inj {i j : ℕ} (hi : i < 100) (hj : j < 100) (h : crowdedTerm i = crowdedTerm j) : i = j := by
  have hmem : Char.ofNat (0x4E00 + i) ∈ (crowdedTerm i).toList := by simp [crowdedTerm]
  have hleft := (char_crowdedTerm hi hmem).1
  rw [h] at hmem
  have hright := (char_crowdedTerm hj hmem).1
  omega

theorem trim_crowdedTerm {i : ℕ} (hi : i < 100) : Text.trim (crowdedTerm i) = crowdedTerm i := by
  have hmem : Char.ofNat (0x4E00 + i) ∈ (crowdedTerm i).toList := by simp [crowdedTerm]
  have hspace := (char_crowdedTerm hi hmem).2.2.1
  have hdrop : (List.replicate 66 (Char.ofNat (0x4E00 + i))).dropWhile Text.isWhitespace =
      List.replicate 66 (Char.ofNat (0x4E00 + i)) := by
    rw [List.replicate_succ, List.dropWhile_cons_of_neg (by simp [hspace])]
  rw [Text.trim, Text.trimChars, crowdedTerm, String.toList_ofList, hdrop, List.reverse_replicate, hdrop,
    List.reverse_replicate]

theorem keytermValid_crowdedTerm {i : ℕ} (hi : i < 100) : Identity.KeytermValid (crowdedTerm i) where
  nonempty h := by
    have hlen := len_crowdedTerm hi
    rw [h] at hlen
    exact absurd hlen (by decide)
  noControl := List.any_eq_false.mpr fun c hc => by simp [(char_crowdedTerm hi hc).2.2.2.1]
  bounded := (len_crowdedTerm hi).trans_le (by decide)

theorem forall_mem_crowdedTerms {p : String → Prop} : (∀ term ∈ crowdedTerms, p term) ↔ ∀ i < 100, p (crowdedTerm i) := by
  simp [crowdedTerms]

theorem nodup_crowdedTerms : crowdedTerms.Nodup := by
  refine List.Nodup.map_on (fun i hi j hj h => ?_) List.nodup_range
  exact crowdedTerm_inj (List.mem_range.mp hi) (List.mem_range.mp hj) h

theorem len_crowdedTerms : crowdedTerms.map Text.len = List.replicate 100 198 := by
  refine List.eq_replicate_iff.mpr ⟨by simp [crowdedTerms], ?_⟩
  exact List.forall_mem_map.mpr (forall_mem_crowdedTerms.mpr fun i hi => len_crowdedTerm hi)

theorem totalBytes_crowdedTerms : totalBytes (crowdedTerms.map Text.trim).dedup = 19800 := by
  have htrim : crowdedTerms.map Text.trim = crowdedTerms := by
    rw [List.map_congr_left (g := id) (forall_mem_crowdedTerms.mpr fun i hi => trim_crowdedTerm hi), List.map_id]
  rw [htrim, nodup_crowdedTerms.dedup, totalBytes, len_crowdedTerms, List.sum_replicate_nat]

theorem len_crowdedField : Text.len crowdedField ≤ MAX_TEXT_FIELD_BYTES := by
  have hitem : ∀ term ∈ crowdedTerms, Text.bytes (Json.string term).write ≤ 1 * Text.len term + 2 := by
    refine forall_mem_crowdedTerms.mpr fun i hi => ?_
    rw [Json.write, Json.bytes_quoted_of_plain fun c hc => (char_crowdedTerm hi hc).2.2.2.2, Nat.one_mul]
  have harray := Json.bytes_write_array_le hitem
  have hcount : crowdedTerms.length = 100 := by simp [crowdedTerms]
  rw [len_crowdedTerms, List.sum_replicate_nat, hcount] at harray
  rw [crowdedField, Json.toText, Text.len_ofList]
  simp only [MAX_TEXT_FIELD_BYTES]
  omega

theorem parse_crowdedField :
    (Json.parse crowdedField).bind (Json.asArray Json.asString) = some crowdedTerms := by
  have hdepth : (Json.array (crowdedTerms.map .string)).depth < Json.RECURSION_LIMIT := by
    have hitems : Json.itemsDepth (crowdedTerms.map .string) ≤ 0 :=
      Json.itemsDepth_map_le fun term _ => by simp [Json.depth]
    simp only [Json.depth, Json.RECURSION_LIMIT]
    omega
  rw [crowdedField, Json.parse_toText hdepth, Option.bind_some]
  exact Json.asArray_map fun term _ => rfl

def crowdedJob : UuidCodec.canonicalForms.Uuid := UuidCodec.nilUuid

def zeroDigest : String := "0000000000000000000000000000000000000000000000000000000000000000"

theorem isLowerHex_zeroDigest : ∀ c ∈ zeroDigest.toList, isLowerHex c = true :=
  List.all_eq_true.mp (by decide)

/-- A hundred distinct keyterms are admitted, and the ledger refuses the initial row of their request. -/
theorem crowdedKeyterms_notStored :
    ∃ request, admissionRequest (fun _ => ⟨List.replicate 32 0, rfl⟩) .deepgramNova3MultiV2
        ⟨UuidCodec.canonicalForms.hyphenated crowdedJob⟩ crowdedField [0] 1000 = .ok request ∧
      ∀ record, WritableRecord.tryFrom .canonicalForms .bits (insertedSnapshot request
        ⟨formatHandle (UuidCodec.canonicalForms.hyphenated crowdedJob) zeroDigest⟩) ≠ .ok record := by
  have hcount : crowdedTerms.length ≤ Identity.MAX_KEYTERMS := by simp [crowdedTerms, Identity.MAX_KEYTERMS]
  have hvalid : ∀ term ∈ crowdedTerms, Identity.KeytermValid (Text.trim term) := by
    refine forall_mem_crowdedTerms.mpr fun i hi => ?_
    rw [trim_crowdedTerm hi]
    exact keytermValid_crowdedTerm hi
  obtain ⟨request, hrequest⟩ := admits_deepgram (fun _ => ⟨List.replicate 32 0, rfl⟩)
    ⟨UuidCodec.canonicalForms.hyphenated crowdedJob⟩ 1000 len_crowdedField parse_crowdedField hcount hvalid
    (List.cons_ne_nil 0 []) (by decide)
  refine ⟨request, hrequest, fun record hrecord => ?_⟩
  obtain ⟨keyterms, fingerprint, hkeyterms, _, _, rfl⟩ := admissionRequest_eq_ok.mp hrequest
  obtain ⟨_, raw, hparsed, hcanonicalized⟩ := readKeyterms_eq_ok.mp hkeyterms
  obtain rfl := Option.some.inj (hparsed.symm.trans parse_crowdedField)
  obtain ⟨hcanonical, _, hcanonicalCount⟩ := Identity.canonical_of_canonicalizeKeyterms hcanonicalized
  have hstorable := (storable_insertedSnapshot (by decide) (by decide) isLowerHex_zeroDigest _ _).mp
    (storable_iff.mpr ⟨record, hrecord⟩)
  rw [validateKeyterms_canonical hcanonical hcanonicalCount, totalBytes_canonicalizeKeyterms hcanonicalized,
    totalBytes_crowdedTerms] at hstorable
  exact absurd hstorable (by decide)

end Crowded

section Requests

variable {codec : UuidCodec} {floats : FloatText} {sha256 : List UInt8 → Sha256Digest} {identity : BatchIdentity}
  {field : String} {audio : List UInt8} {duration : UInt64} {request : BatchAdmissionRequest}

/-- The initial row of an admitted request is accepted by the ledger if and only if the distinct trimmed keyterms
of the request are within the total bound of the ledger. -/
theorem admitted_storable_iff {jobId : codec.Uuid} {digest : String} {rawKeyterms : List String}
    (hraw : (Json.parse field).bind (Json.asArray Json.asString) = some rawKeyterms)
    (hadmitted : admissionRequest sha256 identity ⟨codec.hyphenated jobId⟩ field audio duration = .ok request)
    (hduration : duration.toNat < 2 ^ 63) (hlength : digest.toList.length = 64)
    (hhex : ∀ c ∈ digest.toList, isLowerHex c = true) :
    (∃ record, WritableRecord.tryFrom codec floats
        (insertedSnapshot request ⟨formatHandle (codec.hyphenated jobId) digest⟩) = .ok record) ↔
      totalBytes (rawKeyterms.map Text.trim).dedup ≤ MAX_KEYTERMS_BYTES := by
  obtain ⟨keyterms, fingerprint, hkeyterms, _, _, rfl⟩ := admissionRequest_eq_ok.mp hadmitted
  obtain ⟨_, raw, hparsed, hcanonicalized⟩ := readKeyterms_eq_ok.mp hkeyterms
  obtain rfl := Option.some.inj (hparsed.symm.trans hraw)
  obtain ⟨hcanonical, _, hcount⟩ := Identity.canonical_of_canonicalizeKeyterms hcanonicalized
  rw [← storable_iff, storable_insertedSnapshot hduration hlength hhex, validateKeyterms_canonical hcanonical hcount,
    totalBytes_canonicalizeKeyterms hcanonicalized]

/-- The initial row of a request without keyterms is accepted. -/
theorem admitted_storable_iff_plain :
    ∃ request, admissionRequest (fun _ => ⟨List.replicate 32 0, rfl⟩) .deepgramNova3MultiV2
        ⟨UuidCodec.canonicalForms.hyphenated crowdedJob⟩ "[]" [0] 1000 = .ok request ∧
      ∃ record, WritableRecord.tryFrom .canonicalForms .bits (insertedSnapshot request
        ⟨formatHandle (UuidCodec.canonicalForms.hyphenated crowdedJob) zeroDigest⟩) = .ok record := by
  have htext : (Json.array []).toText = "[]" := by decide
  have hraw : (Json.parse "[]").bind (Json.asArray Json.asString) = some [] := by
    rw [← htext, Json.parse_toText (by decide)]
    rfl
  obtain ⟨request, hrequest⟩ := admits_deepgram (fun _ => ⟨List.replicate 32 0, rfl⟩)
    ⟨UuidCodec.canonicalForms.hyphenated crowdedJob⟩ 1000 (by decide) hraw (by decide) (by simp)
    (List.cons_ne_nil 0 []) (by decide)
  have hlength : zeroDigest.toList.length = 64 := by decide
  exact ⟨request, hrequest, (admitted_storable_iff hraw hrequest (by decide) hlength isLowerHex_zeroDigest).mpr (by decide)⟩

end Requests

end Voicetext.Gateway.Server
