import Voicetext.Gateway.Identity

/-!
# Canonical keyterms

Canonicalization gives the one strictly increasing list of the trimmed keyterms, so it depends on their set
alone, changes nothing the second time, and gives what the fingerprint asks for.
-/

namespace Voicetext.Gateway.Identity

open Voicetext.Common Voicetext.Speech.Domain
open Voicetext.Gateway.Storage (Sha256Digest)

/-- The keyterms of an accepted canonicalization are canonical, with the trimmed keyterms as members. -/
theorem canonical_of_canonicalizeKeyterms {keyterms output : List String}
    (h : canonicalizeKeyterms keyterms = .ok output) :
    KeytermsCanonical output ∧ (∀ term, term ∈ output ↔ ∃ keyterm ∈ keyterms, Text.trim keyterm = term) ∧
      output.length ≤ MAX_KEYTERMS := by
  obtain ⟨hcount, hvalid, rfl⟩ := canonicalizeKeyterms_eq_ok.mp h
  obtain ⟨hincreasing, hmem⟩ :=
    dedupNeighbours_sortBy Text.compareUtf16 (keyterms.map Text.trim)
  have hmem (term : String) : term ∈ dedupNeighbours (sortBy Text.compareUtf16 (keyterms.map Text.trim)) ↔
      ∃ keyterm ∈ keyterms, Text.trim keyterm = term := by rw [hmem, List.mem_map]
  refine ⟨⟨fun term hterm => ?_, fun term hterm => ?_, hincreasing⟩, hmem, ?_⟩
  · obtain ⟨keyterm, hkeyterm, rfl⟩ := (hmem term).mp hterm
    exact hvalid keyterm hkeyterm
  · obtain ⟨keyterm, -, rfl⟩ := (hmem term).mp hterm
    exact Text.trim_trim keyterm
  · calc (dedupNeighbours (sortBy Text.compareUtf16 (keyterms.map Text.trim))).length
        ≤ (sortBy Text.compareUtf16 (keyterms.map Text.trim)).length := length_dedupNeighbours_le _
      _ = keyterms.length := by rw [(sortBy_perm _ _).length_eq, List.length_map]
      _ ≤ MAX_KEYTERMS := hcount

/-- Accepted keyterms are canonicalized to the increasing list of their trimmed values. -/
theorem canonicalizeKeyterms_of_increasing {keyterms output : List String}
    (hcount : keyterms.length ≤ MAX_KEYTERMS) (hvalid : ∀ keyterm ∈ keyterms, KeytermValid (Text.trim keyterm))
    (hincreasing : StrictlyIncreasing Text.compareUtf16 output)
    (hmem : ∀ term, term ∈ keyterms.map Text.trim ↔ term ∈ output) :
    canonicalizeKeyterms keyterms = .ok output := by
  refine canonicalizeKeyterms_eq_ok.mpr ⟨hcount, hvalid, ?_⟩
  rw [dedupNeighbours_sortBy_congr hmem, hincreasing.canonical]

/-- Canonical keyterms within the count are their own canonicalization. -/
theorem canonicalizeKeyterms_of_canonical {keyterms : List String} (h : KeytermsCanonical keyterms)
    (hcount : keyterms.length ≤ MAX_KEYTERMS) : canonicalizeKeyterms keyterms = .ok keyterms := by
  have htrim : keyterms.map Text.trim = keyterms := by
    rw [List.map_congr_left h.trimmed, List.map_id']
  refine canonicalizeKeyterms_of_increasing hcount (fun keyterm hkeyterm => ?_) h.increasing fun term => by
    rw [htrim]
  rw [h.trimmed keyterm hkeyterm]
  exact h.valid keyterm hkeyterm

/-- Keyterms with the same members are canonicalized alike. -/
theorem canonicalizeKeyterms_congr {keyterms other output : List String}
    (h : canonicalizeKeyterms keyterms = .ok output) (hcount : other.length ≤ MAX_KEYTERMS)
    (hmem : ∀ keyterm, keyterm ∈ other ↔ keyterm ∈ keyterms) : canonicalizeKeyterms other = .ok output := by
  obtain ⟨-, hvalid, rfl⟩ := canonicalizeKeyterms_eq_ok.mp h
  refine canonicalizeKeyterms_eq_ok.mpr
    ⟨hcount, fun keyterm hkeyterm => hvalid keyterm ((hmem keyterm).mp hkeyterm), ?_⟩
  refine dedupNeighbours_sortBy_congr fun term => ?_
  simp only [List.mem_map, hmem]

/-- What a fingerprint rejects keyterms for. -/
def KeytermError (error : FingerprintError) : Prop :=
  error = .nonCanonicalKeyterms ∨ error = .invalidKeyterm ∨ error = .keytermTooLong ∨ error = .tooManyKeyterms

/-- Keyterms which pass their check are not what a fingerprint is rejected for. -/
theorem not_keytermError {sha256 : List UInt8 → Sha256Digest} {profile : BatchProfile} {keyterms : List String}
    {audio : List UInt8} {error : FingerprintError} (hkeyterms : validateKeyterms keyterms = .ok ())
    (h : requestFingerprint sha256 profile keyterms audio = .error error) : ¬ KeytermError error := by
  unfold requestFingerprint at h
  rw [hkeyterms] at h
  simp only [bind, Except.bind] at h
  split_ifs at h <;> cases h <;> simp [KeytermError]

/-- What canonicalization makes of a list of keyterms. -/
structure CanonicalForm (keyterms output : List String) : Prop where
  increasing : output.Pairwise fun left right => Text.compareUtf16 left right = .lt
  nodup : output.Nodup
  mem_iff : ∀ term, term ∈ output ↔ ∃ keyterm ∈ keyterms, Text.trim keyterm = term
  /-- Order and repetition of the input do not matter. -/
  of_mem_iff : ∀ other : List String, other.length ≤ 100 → (∀ keyterm, keyterm ∈ other ↔ keyterm ∈ keyterms) →
    canonicalizeKeyterms other = .ok output
  idempotent : canonicalizeKeyterms output = .ok output
  fingerprinted : ∀ sha256 profile audio error,
    requestFingerprint sha256 profile output audio = .error error → ¬ KeytermError error

/-- Whatever is canonicalized is in canonical form. -/
theorem canonicalForm_of_canonicalizeKeyterms {keyterms output : List String}
    (h : canonicalizeKeyterms keyterms = .ok output) : CanonicalForm keyterms output := by
  obtain ⟨hcanonical, hmem, hcount⟩ := canonical_of_canonicalizeKeyterms h
  exact
    { increasing := hcanonical.increasing
      nodup := hcanonical.increasing.nodup
      mem_iff := hmem
      of_mem_iff := fun _ hother hsame => canonicalizeKeyterms_congr h hother hsame
      idempotent := canonicalizeKeyterms_of_canonical hcanonical hcount
      fingerprinted := fun _ _ _ _ herror =>
        not_keytermError (validateKeyterms_eq_ok.mpr ⟨hcount, hcanonical⟩) herror }

/-- A scalar beyond the basic plane precedes the private use area, however the two are given. -/
theorem canonicalForm_astral :
    CanonicalForm [" \ue000 ", "𐀀", "𐀀"] ["𐀀", "\ue000"] :=
  canonicalForm_of_canonicalizeKeyterms <| by
    have hmap : [" \ue000 ", "𐀀", "𐀀"].map Text.trim = ["\ue000", "𐀀", "𐀀"] := by
      decide +kernel
    have hvalid : ∀ keyterm ∈ [" \ue000 ", "𐀀", "𐀀"], validateKeyterm (Text.trim keyterm) = .ok () := by
      decide +kernel
    have hincreasing : ["𐀀", "\ue000"].Pairwise fun left right => Text.compareUtf16 left right = .lt := by
      decide +kernel
    refine canonicalizeKeyterms_of_increasing (by decide)
      (fun keyterm hkeyterm => validateKeyterm_eq_ok.mp (hvalid keyterm hkeyterm)) hincreasing fun term => ?_
    rw [hmap]
    simp [or_comm]

end Voicetext.Gateway.Identity
