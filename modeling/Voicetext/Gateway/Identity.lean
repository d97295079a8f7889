import Voicetext.Common.Fallible
import Voicetext.Common.Framing
import Voicetext.Common.SortDedup
import Voicetext.Common.Utf16
import Voicetext.Gateway.Storage.Spool

/-!
# Stable request identities

Keyterms are trimmed, sorted by UTF-16 code units and freed of duplicates. A request is fingerprinted by
hashing its profile, its keyterms and its audio, each part after its length; the third contract hashes the
digest of the audio in the audio's place.
-/

namespace Voicetext.Gateway.Identity

open Voicetext.Common Voicetext.Speech.Domain
open Voicetext.Gateway.Storage (Sha256Digest)

def MAX_IDENTITY_BYTES : ℕ := 256

def MAX_KEYTERMS : ℕ := 100

def MAX_KEYTERM_BYTES : ℕ := 200

def MAX_AUDIO_BYTES : ℕ := 64 * 1024 * 1024

/-- Why a request could not be represented by the frozen fingerprint contract. -/
inductive FingerprintError
  | unsupportedContractVersion
  | identityTooLong
  | tooManyKeyterms
  | invalidKeyterm
  | keytermTooLong
  | nonCanonicalKeyterms
  | emptyAudio
  | audioTooLarge
deriving DecidableEq

def validateKeyterm (keyterm : String) : Except FingerprintError Unit :=
  if keyterm = "" ∨ Text.hasControl keyterm = true then .error .invalidKeyterm
  else if Text.len keyterm > MAX_KEYTERM_BYTES then .error .keytermTooLong
  else .ok ()

/-- Check keyterms one by one. -/
def validateEach : List String → Except FingerprintError Unit
  | [] => .ok ()
  | keyterm :: rest => do
    validateKeyterm keyterm
    validateEach rest

/-- Normalizes keyterms: trimmed, sorted by UTF-16 code units and deduplicated. -/
def canonicalizeKeyterms (keyterms : List String) : Except FingerprintError (List String) :=
  if keyterms.length > MAX_KEYTERMS then .error .tooManyKeyterms
  else do
    let canonical := keyterms.map Text.trim
    validateEach canonical
    return dedupNeighbours (sortBy Text.compareUtf16 canonical)

/-- Check keyterms which follow a previous one. -/
def validateKeytermsAfter : Option String → List String → Except FingerprintError Unit
  | _, [] => .ok ()
  | previous, keyterm :: rest => do
    validateKeyterm keyterm
    if Text.trim keyterm ≠ keyterm then .error .invalidKeyterm
    else if previous.any (fun value => Text.compareUtf16 value keyterm ≠ .lt) = true then
      .error .nonCanonicalKeyterms
    else validateKeytermsAfter (some keyterm) rest

def validateKeyterms (keyterms : List String) : Except FingerprintError Unit :=
  if keyterms.length > MAX_KEYTERMS then .error .tooManyKeyterms
  else validateKeytermsAfter none keyterms

/-- Feed a part to a hasher, after its length. -/
def writePart (hasher bytes : List UInt8) : List UInt8 := hasher ++ Bytes.toBe 8 bytes.length ++ bytes

section Fingerprint

variable (sha256 : List UInt8 → Sha256Digest) (profile : BatchProfile) (canonicalKeyterms : List String)
  (audio : List UInt8)

/-- The bytes a request feeds to the outer hasher. -/
def hasherInput : List UInt8 :=
  let contractVersion := toString profile.contractVersion.toNat
  let hasher := [contractVersion, profile.provider, profile.model, profile.language].foldl
    (fun hasher identity => writePart hasher (Text.asBytes identity)) []
  let hasher := hasher ++ Bytes.toBe 8 canonicalKeyterms.length
  let hasher := canonicalKeyterms.foldl (fun hasher keyterm => writePart hasher (Text.asBytes keyterm)) hasher
  if profile.contractVersion = 2 then writePart hasher audio else writePart hasher (sha256 audio).bytes

/-- Computes the frozen request fingerprint of the second and third contract. -/
def requestFingerprint : Except FingerprintError BatchRequestFingerprint :=
  if profile.contractVersion ≠ 2 ∧ profile.contractVersion ≠ 3 then .error .unsupportedContractVersion
  else if [profile.provider, profile.model, profile.language].any
      (fun identity => MAX_IDENTITY_BYTES < Text.len identity) = true then .error .identityTooLong
  else do
    validateKeyterms canonicalKeyterms
    if audio = [] then .error .emptyAudio
    else if audio.length > MAX_AUDIO_BYTES then .error .audioTooLarge
    else
      let digest := sha256 (hasherInput sha256 profile canonicalKeyterms audio)
      return ⟨digest.bytes, digest.length_eq⟩

end Fingerprint

section Specifications

/-- A keyterm within its bounds. -/
structure KeytermValid (keyterm : String) : Prop where
  nonempty : keyterm ≠ ""
  noControl : Text.hasControl keyterm = false
  bounded : Text.len keyterm ≤ MAX_KEYTERM_BYTES

theorem validateKeyterm_eq_ok {keyterm : String} : validateKeyterm keyterm = .ok () ↔ KeytermValid keyterm := by
  unfold validateKeyterm
  constructor
  · intro h
    split_ifs at h with hinvalid hlong
    obtain ⟨hnonempty, hcontrol⟩ := not_or.mp hinvalid
    exact ⟨hnonempty, by simpa using hcontrol, Nat.not_lt.mp hlong⟩
  · intro h
    rw [if_neg (by simp [h.nonempty, h.noControl]), if_neg (Nat.not_lt.mpr h.bounded)]

theorem validateEach_eq_ok {keyterms : List String} :
    validateEach keyterms = .ok () ↔ ∀ keyterm ∈ keyterms, KeytermValid keyterm := by
  induction keyterms with
  | nil => simp [validateEach]
  | cons keyterm rest ih =>
    rw [validateEach, check_bind_eq_ok, validateKeyterm_eq_ok, ih, List.forall_mem_cons]

/-- Keyterms are canonical when they are valid, trimmed and strictly increasing. -/
structure KeytermsCanonical (keyterms : List String) : Prop where
  valid : ∀ keyterm ∈ keyterms, KeytermValid keyterm
  trimmed : ∀ keyterm ∈ keyterms, Text.trim keyterm = keyterm
  increasing : StrictlyIncreasing Text.compareUtf16 keyterms

/-- Canonical keyterms after a lesser one pass the check, and only they do. -/
theorem validateKeytermsAfter_eq_ok {previous : Option String} {keyterms : List String} :
    validateKeytermsAfter previous keyterms = .ok () ↔
      KeytermsCanonical keyterms ∧
        ∀ value ∈ previous, ∀ keyterm ∈ keyterms, Text.compareUtf16 value keyterm = .lt := by
  induction keyterms generalizing previous with
  | nil => simpa [validateKeytermsAfter] using ⟨by simp, by simp, .nil⟩
  | cons keyterm rest ih =>
    have hstep : validateKeytermsAfter previous (keyterm :: rest) = .ok () ↔
        KeytermValid keyterm ∧ Text.trim keyterm = keyterm ∧
          (∀ value ∈ previous, Text.compareUtf16 value keyterm = .lt) ∧
            validateKeytermsAfter (some keyterm) rest = .ok () := by
      rw [validateKeytermsAfter, check_bind_eq_ok, validateKeyterm_eq_ok, ite_error_eq_ok, ite_error_eq_ok]
      simp [Option.any_eq_true]
    rw [hstep, ih]
    constructor
    · rintro ⟨hvalid, htrim, hprevious, hrest, hnext⟩
      have hless := hnext keyterm rfl
      refine ⟨⟨?_, ?_, List.pairwise_cons.mpr ⟨hless, hrest.increasing⟩⟩, fun value hvalue => ?_⟩
      · exact List.forall_mem_cons.mpr ⟨hvalid, hrest.valid⟩
      · exact List.forall_mem_cons.mpr ⟨htrim, hrest.trimmed⟩
      · refine List.forall_mem_cons.mpr ⟨hprevious value hvalue, fun other hother => ?_⟩
        exact Std.TransCmp.lt_trans (hprevious value hvalue) (hless other hother)
    · rintro ⟨hcanonical, hprevious⟩
      obtain ⟨hvalid, hvalidRest⟩ := List.forall_mem_cons.mp hcanonical.valid
      obtain ⟨htrim, htrimRest⟩ := List.forall_mem_cons.mp hcanonical.trimmed
      obtain ⟨hless, hincreasing⟩ := List.pairwise_cons.mp hcanonical.increasing
      refine ⟨hvalid, htrim, fun value hvalue => hprevious value hvalue keyterm List.mem_cons_self,
        ⟨hvalidRest, htrimRest, hincreasing⟩, ?_⟩
      rintro value ⟨⟩
      exact hless

theorem validateKeyterms_eq_ok {keyterms : List String} :
    validateKeyterms keyterms = .ok () ↔ keyterms.length ≤ MAX_KEYTERMS ∧ KeytermsCanonical keyterms := by
  rw [validateKeyterms, ite_error_eq_ok, validateKeytermsAfter_eq_ok, not_lt]
  simp

/-- What canonicalization accepts, and what it gives. -/
theorem canonicalizeKeyterms_eq_ok {keyterms output : List String} :
    canonicalizeKeyterms keyterms = .ok output ↔
      keyterms.length ≤ MAX_KEYTERMS ∧ (∀ keyterm ∈ keyterms, KeytermValid (Text.trim keyterm)) ∧
        dedupNeighbours (sortBy Text.compareUtf16 (keyterms.map Text.trim)) = output := by
  rw [canonicalizeKeyterms, ite_error_eq_ok, check_bind_eq_ok, validateEach_eq_ok, not_lt, List.forall_mem_map]
  simp [pure, Except.pure]

end Specifications

end Voicetext.Gateway.Identity
