import Voicetext.Speech.Application.Ports

/-!
# Job identifiers as the storage adapters read them

UUID parsing and formatting belong to a library outside the repository, so a codec is a parameter
together with the facts the adapters rely on: formatting is left inverse to parsing and always
produces 36 lower-case characters. A job identity is canonical when it is its own formatting.
-/

namespace Voicetext.Gateway.Storage

open Voicetext.Common

/-- Stable code of a record which cannot be encoded or decoded. -/
structure RecordError where
  code : String
deriving DecidableEq

/-- `u8::is_ascii_digit` or `a..=f`, the alphabet of hex digests and of canonical UUIDs. -/
def isLowerHex (c : Char) : Bool := c.isDigit || ('a' ≤ c && c ≤ 'f')

/-- The UUID library: parsing any textual form, and the canonical hyphenated form. -/
structure UuidCodec where
  Uuid : Type
  parseStr : String → Option Uuid
  hyphenated : Uuid → String
  parse_hyphenated : ∀ uuid, parseStr (hyphenated uuid) = some uuid
  hyphenated_length : ∀ uuid, (hyphenated uuid).toList.length = 36
  hyphenated_chars : ∀ uuid, ∀ c ∈ (hyphenated uuid).toList, isLowerHex c = true ∨ c = '-'

namespace UuidCodec

variable (codec : UuidCodec)

/-- The UUID of a canonical job identity; every other spelling is refused. -/
def canonicalUuid (value : String) : Except RecordError codec.Uuid :=
  match codec.parseStr value with
  | none => .error ⟨"INVALID_JOB_ID"⟩
  | some uuid => if codec.hyphenated uuid ≠ value then .error ⟨"INVALID_JOB_ID"⟩ else .ok uuid

/-- Whether a text is the canonical form of some UUID. -/
def isCanonical (value : String) : Bool := (codec.canonicalUuid value).isOk

/-- A canonical identity is exactly the formatting of its UUID. -/
theorem hyphenated_of_canonicalUuid {value : String} {uuid : codec.Uuid}
    (h : codec.canonicalUuid value = .ok uuid) : codec.hyphenated uuid = value := by
  unfold canonicalUuid at h
  split at h
  · cases h
  · split at h
    · cases h
    · rename_i hcanonical
      obtain rfl := Except.ok.inj h
      exact not_not.mp hcanonical

/-- Every formatted UUID is canonical. -/
@[simp] theorem canonicalUuid_hyphenated (uuid : codec.Uuid) :
    codec.canonicalUuid (codec.hyphenated uuid) = .ok uuid := by
  simp [canonicalUuid, codec.parse_hyphenated]

variable {codec}

theorem isCanonical_iff {value : String} :
    codec.isCanonical value = true ↔ ∃ uuid, codec.hyphenated uuid = value := by
  constructor
  · intro h
    unfold isCanonical at h
    cases huuid : codec.canonicalUuid value with
    | error e => simp [huuid, Except.isOk, Except.toBool] at h
    | ok uuid => exact ⟨uuid, codec.hyphenated_of_canonicalUuid huuid⟩
  · rintro ⟨uuid, rfl⟩
    simp [isCanonical, Except.isOk, Except.toBool]

/-- Lower-case hexadecimal digits with hyphens after 8, 12, 16 and 20 of them. -/
def isHyphenated (chars : List Char) : Bool :=
  chars.length = 36 && chars.zipIdx.all fun (c, i) =>
    if i = 8 ∨ i = 13 ∨ i = 18 ∨ i = 23 then c = '-' else isLowerHex c

/-- The codec which reads nothing but the canonical spellings. -/
def canonicalForms : UuidCodec where
  Uuid := { value : String // isHyphenated value.toList = true }
  parseStr value := if h : isHyphenated value.toList = true then some ⟨value, h⟩ else none
  hyphenated := Subtype.val
  parse_hyphenated uuid := dif_pos uuid.2
  hyphenated_length uuid := by
    obtain ⟨value, h⟩ := uuid
    simp only [isHyphenated, Bool.and_eq_true, decide_eq_true_eq] at h
    exact h.1
  hyphenated_chars uuid c hc := by
    obtain ⟨value, h⟩ := uuid
    simp only [isHyphenated, Bool.and_eq_true, List.all_eq_true] at h
    obtain ⟨i, hi, rfl⟩ := List.getElem_of_mem hc
    have hchar := h.2 (value.toList[i], i) (List.mk_mem_zipIdx_iff_getElem?.mpr (by simp [hi]))
    dsimp only at hchar
    split at hchar
    · exact .inr (by simpa using hchar)
    · exact .inl hchar

instance : DecidableEq canonicalForms.Uuid :=
  inferInstanceAs (DecidableEq { value : String // isHyphenated value.toList = true })

theorem isHyphenated_hyphenated (uuid : canonicalForms.Uuid) :
    isHyphenated (canonicalForms.hyphenated uuid).toList = true := uuid.2

/-- The UUID without a bit set. -/
def nilUuid : canonicalForms.Uuid := ⟨"00000000-0000-0000-0000-000000000000", by decide⟩

/-- A canonical identity has 36 characters. -/
theorem length_of_isCanonical {value : String} (h : codec.isCanonical value = true) :
    value.toList.length = 36 := by
  obtain ⟨uuid, rfl⟩ := isCanonical_iff.mp h
  exact codec.hyphenated_length uuid

end UuidCodec

end Voicetext.Gateway.Storage
