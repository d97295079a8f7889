import Voicetext.Gateway.Identity

/-!
# The input of the fingerprint hasher

The bytes a request feeds to the outer hasher have one reading: four identities, a count, that many keyterms
and the audio or its digest. Requests with one fingerprint therefore agree, or the hash has a collision.
-/

namespace Voicetext.Gateway.Identity

open Voicetext.Common Voicetext.Speech.Domain
open Voicetext.Gateway.Storage (Sha256Digest)

section Reading

variable (sha256 : List UInt8 → Sha256Digest) (profile : BatchProfile) (audio : List UInt8)

/-- The identities in front of a request. -/
def identityParts : List (List UInt8) :=
  [toString profile.contractVersion.toNat, profile.provider, profile.model, profile.language].map Text.asBytes

/-- What stands for the audio. -/
def audioPart : List UInt8 := if profile.contractVersion = 2 then audio else (sha256 audio).bytes

/-- Writing parts one by one appends them. -/
theorem foldl_writePart (hasher : List UInt8) (texts : List String) :
    texts.foldl (fun hasher text => writePart hasher (Text.asBytes text)) hasher =
      hasher ++ frames (texts.map Text.asBytes) := by
  induction texts generalizing hasher with
  | nil => simp [frames]
  | cons text rest ih =>
    rw [List.foldl_cons, ih, writePart]
    simp [frames, frame]

/-- What a request feeds to the hasher, part by part. -/
theorem hasherInput_eq (keyterms : List String) :
    hasherInput sha256 profile keyterms audio =
      frames (identityParts profile) ++ (Bytes.toBe 8 keyterms.length ++
        (frames (keyterms.map Text.asBytes) ++ (frame (audioPart sha256 profile audio) ++ []))) := by
  have hlast (hasher : List UInt8) : (if profile.contractVersion = 2 then writePart hasher audio
      else writePart hasher (sha256 audio).bytes) = hasher ++ frame (audioPart sha256 profile audio) := by
    unfold audioPart
    split <;> simp [writePart, frame]
  unfold hasherInput
  simp only [foldl_writePart]
  rw [hlast]
  simp [identityParts]

end Reading

section Bounds

variable {sha256 : List UInt8 → Sha256Digest} {profile : BatchProfile} {keyterms : List String}
  {audio : List UInt8} {fingerprint : BatchRequestFingerprint}

/-- What a fingerprinted request keeps to. -/
structure Fingerprintable (profile : BatchProfile) (keyterms : List String) (audio : List UInt8) : Prop where
  version : profile.contractVersion = 2 ∨ profile.contractVersion = 3
  identities : ∀ identity ∈ [profile.provider, profile.model, profile.language],
    Text.len identity ≤ MAX_IDENTITY_BYTES
  count : keyterms.length ≤ MAX_KEYTERMS
  keyterms : KeytermsCanonical keyterms
  audio_ne_nil : audio ≠ []
  audio_bounded : audio.length ≤ MAX_AUDIO_BYTES

/-- The fingerprint of a request is the hash of its hasher input. -/
theorem requestFingerprint_eq_ok :
    requestFingerprint sha256 profile keyterms audio = .ok fingerprint ↔
      Fingerprintable profile keyterms audio ∧
        (sha256 (hasherInput sha256 profile keyterms audio)).bytes = fingerprint.bytes := by
  rw [requestFingerprint, ite_error_eq_ok, ite_error_eq_ok, check_bind_eq_ok, validateKeyterms_eq_ok,
    ite_error_eq_ok, ite_error_eq_ok]
  have hfingerprint : (pure ⟨(sha256 (hasherInput sha256 profile keyterms audio)).bytes,
      (sha256 (hasherInput sha256 profile keyterms audio)).length_eq⟩ : Except FingerprintError _) =
        .ok fingerprint ↔
      (sha256 (hasherInput sha256 profile keyterms audio)).bytes = fingerprint.bytes := by
    cases fingerprint
    simp [pure, Except.pure]
  simp only [hfingerprint]
  constructor
  · rintro ⟨hversion, hidentities, ⟨hcount, hkeyterms⟩, haudio, hbounded, hhash⟩
    refine ⟨⟨?_, fun identity hidentity => ?_, hcount, hkeyterms, haudio, Nat.not_lt.mp hbounded⟩, hhash⟩
    · by_contra hneither
      exact hversion (not_or.mp hneither)
    · by_contra hlong
      exact hidentities (List.any_eq_true.mpr ⟨identity, hidentity, by simpa using hlong⟩)
  · rintro ⟨h, hhash⟩
    refine ⟨fun hneither => ?_, fun hlong => ?_, ⟨h.count, h.keyterms⟩, h.audio_ne_nil,
      Nat.not_lt.mpr h.audio_bounded, hhash⟩
    · exact h.version.elim hneither.1 hneither.2
    · obtain ⟨identity, hidentity, hlong⟩ := List.any_eq_true.mp hlong
      exact absurd (h.identities identity hidentity) (Nat.not_le.mpr (of_decide_eq_true hlong))

/-- A text within a bound is framable. -/
theorem framable_asBytes {text : String} {bound : ℕ} (h : Text.len text ≤ bound) (hbound : bound < 2 ^ 64) :
    Framable (Text.asBytes text) := by
  rw [Framable, Text.length_asBytes]
  exact lt_of_le_of_lt h hbound

theorem Fingerprintable.framable_identities (h : Fingerprintable profile keyterms audio) :
    ∀ part ∈ identityParts profile, Framable part := by
  have hversion : Text.len (toString profile.contractVersion.toNat) ≤ 1 := by
    rcases h.version with hversion | hversion
    · rw [hversion]
      decide +kernel
    · rw [hversion]
      decide +kernel
  rw [identityParts, List.forall_mem_map, List.forall_mem_cons]
  exact ⟨framable_asBytes hversion (by decide),
    fun identity hidentity => framable_asBytes (h.identities identity hidentity) (by decide)⟩

theorem Fingerprintable.framable_keyterms (h : Fingerprintable profile keyterms audio) :
    ∀ part ∈ keyterms.map Text.asBytes, Framable part := by
  rw [List.forall_mem_map]
  exact fun keyterm hkeyterm => framable_asBytes (h.keyterms.valid keyterm hkeyterm).bounded (by decide)

theorem Fingerprintable.framable_audio (h : Fingerprintable profile keyterms audio) :
    Framable (audioPart sha256 profile audio) := by
  unfold audioPart Framable
  split
  · exact lt_of_le_of_lt h.audio_bounded (by decide)
  · rw [(sha256 audio).length_eq]
    decide

/-- The version of a fingerprinted request is told by its spelling. -/
theorem Fingerprintable.version_eq {profile' : BatchProfile} {keyterms' : List String} {audio' : List UInt8}
    (h : Fingerprintable profile keyterms audio) (h' : Fingerprintable profile' keyterms' audio')
    (heq : toString profile.contractVersion.toNat = toString profile'.contractVersion.toNat) :
    profile.contractVersion = profile'.contractVersion := by
  rcases h.version with hversion | hversion <;> rcases h'.version with hversion' | hversion' <;>
    rw [hversion, hversion'] at heq ⊢ <;> exact absurd heq (by decide +kernel)

end Bounds

/-- Two requests agree: on their profile and keyterms, and on their audio or its digest. -/
structure RequestsAgree (sha256 : List UInt8 → Sha256Digest) (profile profile' : BatchProfile)
    (keyterms keyterms' : List String) (audio audio' : List UInt8) : Prop where
  contractVersion_eq : profile.contractVersion = profile'.contractVersion
  provider_eq : profile.provider = profile'.provider
  model_eq : profile.model = profile'.model
  language_eq : profile.language = profile'.language
  keyterms_eq : keyterms = keyterms'
  audio_eq : profile.contractVersion = 2 → audio = audio'
  digest_eq : profile.contractVersion = 3 → (sha256 audio).bytes = (sha256 audio').bytes

/-- Different inputs with one digest. -/
def Collides (sha256 : List UInt8 → Sha256Digest) : Prop :=
  ∃ input input', input ≠ input' ∧ (sha256 input).bytes = (sha256 input').bytes

section Injectivity

variable {sha256 : List UInt8 → Sha256Digest} {profile profile' : BatchProfile} {keyterms keyterms' : List String}
  {audio audio' : List UInt8} {fingerprint fingerprint' : BatchRequestFingerprint}

/-- Requests with one hasher input agree. -/
theorem Fingerprintable.agree (h : Fingerprintable profile keyterms audio)
    (h' : Fingerprintable profile' keyterms' audio')
    (hinput : hasherInput sha256 profile keyterms audio = hasherInput sha256 profile' keyterms' audio') :
    RequestsAgree sha256 profile profile' keyterms keyterms' audio audio' := by
  rw [hasherInput_eq, hasherInput_eq] at hinput
  -- read both inputs part by part
  obtain ⟨hidentities, hrest⟩ :=
    frames_append_inj (by simp [identityParts]) h.framable_identities h'.framable_identities hinput
  obtain ⟨hcount, hrest⟩ := Bytes.toBe_append_inj (lt_of_le_of_lt h.count (by decide))
    (lt_of_le_of_lt h'.count (by decide)) hrest
  obtain ⟨hkeyterms, hrest⟩ :=
    frames_append_inj (by simpa using hcount) h.framable_keyterms h'.framable_keyterms hrest
  obtain ⟨haudio, -⟩ := frame_append_inj h.framable_audio h'.framable_audio hrest
  have hinjective : Function.Injective Text.asBytes := fun _ _ => Text.asBytes_inj.mp
  have htexts := List.map_injective_iff.mpr hinjective hidentities
  simp only [List.cons.injEq, and_true] at htexts
  obtain ⟨hversion, hprovider, hmodel, hlanguage⟩ := htexts
  have hversion := h.version_eq h' hversion
  refine ⟨hversion, hprovider, hmodel, hlanguage, List.map_injective_iff.mpr hinjective hkeyterms, ?_, ?_⟩
  · intro htwo
    rwa [audioPart, audioPart, if_pos htwo, if_pos (hversion ▸ htwo)] at haudio
  · intro hthree
    have htwo : ¬ profile.contractVersion = 2 := by
      rw [hthree]
      decide
    rwa [audioPart, audioPart, if_neg htwo, if_neg (hversion ▸ htwo)] at haudio

/-- Accepted requests with one hasher input agree, and different ones have one fingerprint only by a
collision of the hash. -/
theorem requestFingerprint_preimage_injective
    (h : requestFingerprint sha256 profile keyterms audio = .ok fingerprint)
    (h' : requestFingerprint sha256 profile' keyterms' audio' = .ok fingerprint') :
    (hasherInput sha256 profile keyterms audio = hasherInput sha256 profile' keyterms' audio' →
        RequestsAgree sha256 profile profile' keyterms keyterms' audio audio') ∧
      (fingerprint = fingerprint' →
        (profile, keyterms, audio) = (profile', keyterms', audio') ∨ Collides sha256) := by
  obtain ⟨hrequest, hhash⟩ := requestFingerprint_eq_ok.mp h
  obtain ⟨hrequest', hhash'⟩ := requestFingerprint_eq_ok.mp h'
  refine ⟨hrequest.agree hrequest', fun hsame => ?_⟩
  by_cases hinput : hasherInput sha256 profile keyterms audio = hasherInput sha256 profile' keyterms' audio'
  · have hagree := hrequest.agree hrequest' hinput
    by_cases haudio : audio = audio'
    · left
      have hprofile : profile = profile' := by
        cases profile
        cases profile'
        cases hagree.contractVersion_eq
        cases hagree.provider_eq
        cases hagree.model_eq
        cases hagree.language_eq
        rfl
      rw [hprofile, hagree.keyterms_eq, haudio]
    · right
      rcases hrequest.version with hversion | hversion
      · exact absurd (hagree.audio_eq hversion) haudio
      · exact ⟨audio, audio', haudio, hagree.digest_eq hversion⟩
  · exact .inr ⟨_, _, hinput, by rw [hhash, hhash', hsame]⟩

end Injectivity

/-- SHA-256 on a request of each contract and on the audio of the third. -/
def sampleSha256 (input : List UInt8) : Sha256Digest :=
  let digest : ℕ → Sha256Digest := fun n => ⟨Bytes.toBe 32 n, Bytes.length_toBe 32 n⟩
  match input.length with
  | 105 => digest 0x972fa6c7e086624934866768b8c36b7370762af9b186854cd6c05f7a0559fdf6
  | 123 => digest 0xb7dd8ec50809b00a4e230f1af97498cdce5ed8f0792dcd9b9097ff3261b11248
  | 5 => digest 0x6ed8919ce20490a5e3ad8630a4fab69475297abd07db73918dd5f36fcfaeb11b
  | _ => digest 0

/-- A request of each contract. -/
theorem requestFingerprint_preimage_injective_samples :
    let deepgram : BatchProfile :=
      ⟨2, "deepgram", "nova-3", "multi", by decide, by decide, by decide, by decide⟩
    let elevenlabs : BatchProfile :=
      ⟨3, "elevenlabs", "scribe_v2", "multi", by decide, by decide, by decide, by decide⟩
    let oggData := Text.asBytes "OggSdata"
    let audio := Text.asBytes "audio"
    let deepgramHash := sampleSha256 (hasherInput sampleSha256 deepgram ["Codex", "Deepgram"] oggData)
    let elevenlabsHash := sampleSha256 (hasherInput sampleSha256 elevenlabs ["Voice Text"] audio)
    (hasherInput sampleSha256 deepgram ["Codex", "Deepgram"] oggData =
          hasherInput sampleSha256 elevenlabs ["Voice Text"] audio →
        RequestsAgree sampleSha256 deepgram elevenlabs ["Codex", "Deepgram"] ["Voice Text"] oggData audio) ∧
      ((⟨deepgramHash.bytes, deepgramHash.length_eq⟩ : BatchRequestFingerprint) =
          ⟨elevenlabsHash.bytes, elevenlabsHash.length_eq⟩ →
        (deepgram, ["Codex", "Deepgram"], oggData) = (elevenlabs, ["Voice Text"], audio) ∨
          Collides sampleSha256) :=
  requestFingerprint_preimage_injective (by decide +kernel) (by decide +kernel)

end Voicetext.Gateway.Identity
