import Voicetext.Common.SortedTable
import Voicetext.Gateway.Storage.Identifiers
import Voicetext.Gateway.Storage.Operations

/-!
# The bounded, content-addressed audio spool

An artifact is a file named by its job and by the digest of its bytes; an identity claim binds a
job to one digest. The functions below are what one mutation does to both under the spool's lock.
A handle determines its job and digest, so distinct jobs never share an artifact.
-/

namespace Voicetext.Gateway.Storage

open Voicetext.Common Voicetext.Speech.Application

/-- One lower-case hexadecimal digit. -/
def hexDigit (n : ℕ) : Char := if n < 10 then Char.ofNat (48 + n) else Char.ofNat (87 + n)

/-- `hex::encode`: two lower-case digits for each byte. -/
def hexEncode (bytes : List UInt8) : String :=
  String.ofList (bytes.flatMap fun byte => [hexDigit (byte.toNat / 16), hexDigit (byte.toNat % 16)])

/-- A SHA-256 digest. -/
structure Sha256Digest where
  bytes : List UInt8
  length_eq : bytes.length = 32

/-- The fixed configuration of one spool: its libraries and its two capacities. -/
structure SpoolConfig where
  codec : UuidCodec
  sha256 : List UInt8 → Sha256Digest
  maximumBytes : ℕ
  maximumTotalBytes : ℕ

/-- The files of the spool directory: artifacts by handle and identity claims by job. -/
structure Spool where
  artifacts : SortedTable fun file : String × List UInt8 => file.1
  identities : SortedTable fun claim : String × String => claim.1

namespace Spool

def empty : Spool := ⟨.empty, .empty⟩

def invalidStorage : BatchAudioSpoolFailure := .unavailable "INVALID_SPOOL_ARTIFACT"

/-- Whether the artifact a handle names exists. -/
def holds (spool : Spool) (handle : BatchAudioHandle) : Bool :=
  (spool.artifacts.lookup handle.asStr).isSome

/-- Aggregate size of the stored audio. -/
def audioBytes (spool : Spool) : ℕ := (spool.artifacts.rows.map fun file => file.2.length).sum

end Spool

/-- The job and digest a handle consists of. -/
structure ParsedHandle where
  jobId : String
  digest : String
deriving DecidableEq

/-- The handle `"{job_id}-{digest}.ogg"`. -/
def formatHandle (jobId digest : String) : String := jobId ++ "-" ++ digest ++ ".ogg"

def HANDLE_BYTES : ℕ := 36 + 1 + 64 + 4

/-- Split a handle at its fixed positions, accepting only canonical jobs and lower-case digests. -/
def parseHandle (codec : UuidCodec) (value : String) : Except BatchAudioSpoolFailure ParsedHandle :=
  let chars := value.toList
  if Text.len value ≠ HANDLE_BYTES ∨ ¬ chars.all (fun c => c.toNat < 128) ∨
      chars.drop 101 ≠ ".ogg".toList then .error Spool.invalidStorage
  else
    let jobId := String.ofList (chars.take 36)
    let digest := String.ofList ((chars.drop 37).take 64)
    if chars[36]? ≠ some '-' ∨ codec.isCanonical jobId = false ∨ ¬ digest.toList.all isLowerHex then
      .error Spool.invalidStorage
    else .ok ⟨jobId, digest⟩

/-- A handle is refused in one way only. -/
theorem parseHandle_eq_error {codec : UuidCodec} {value : String} {failure : BatchAudioSpoolFailure}
    (h : parseHandle codec value = .error failure) : failure = Spool.invalidStorage := by
  unfold parseHandle at h
  dsimp only at h
  split at h
  · exact (Except.error.inj h).symm
  split at h
  · exact (Except.error.inj h).symm
  · cases h

/-- Every hexadecimal digit is a lower-case ASCII one. -/
private theorem isLowerHex_hexDigit {n : ℕ} (h : n < 16) : isLowerHex (hexDigit n) = true := by
  revert n
  decide

/-- A lower-case hexadecimal digit is ASCII. -/
theorem ascii_of_isLowerHex {c : Char} (h : isLowerHex c = true) : c.toNat < 128 := by
  unfold isLowerHex Char.isDigit at h
  simp only [Bool.or_eq_true, Bool.and_eq_true, decide_eq_true_eq] at h
  rcases h with ⟨_, h⟩ | ⟨_, h⟩
  · exact lt_of_le_of_lt (UInt32.le_iff_toNat_le.mp h) (by decide)
  · exact lt_of_le_of_lt (UInt32.le_iff_toNat_le.mp h) (by decide)

@[simp] theorem length_hexEncode (bytes : List UInt8) :
    (hexEncode bytes).toList.length = 2 * bytes.length := by
  simp [hexEncode, List.length_flatMap, mul_comm]

theorem isLowerHex_of_mem_hexEncode {bytes : List UInt8} {c : Char}
    (h : c ∈ (hexEncode bytes).toList) : isLowerHex c = true := by
  simp only [hexEncode, String.toList_ofList, List.mem_flatMap] at h
  obtain ⟨byte, _, hc⟩ := h
  have hlt := byte.toNat_lt
  rcases List.mem_pair.mp hc with rfl | rfl
  · exact isLowerHex_hexDigit (by omega)
  · exact isLowerHex_hexDigit (by omega)

/-- A digit tells its value. -/
theorem hexDigit_inj {n m : ℕ} (hn : n < 16) (hm : m < 16) (h : hexDigit n = hexDigit m) : n = m := by
  have hdigits : ∀ n < 16, ∀ m < 16, hexDigit n = hexDigit m → n = m := by decide
  exact hdigits n hn m hm h

/-- The digits of bytes tell the bytes. -/
theorem hexEncode_inj {bytes bytes' : List UInt8} (h : hexEncode bytes = hexEncode bytes') : bytes = bytes' := by
  have hchars := String.ofList_injective h
  clear h
  induction bytes generalizing bytes' with
  | nil =>
    cases bytes' with
    | nil => rfl
    | cons byte' rest' => cases hchars
  | cons byte rest ih =>
    cases bytes' with
    | nil => cases hchars
    | cons byte' rest' =>
      have hbyte := byte.toNat_lt
      have hbyte' := byte'.toNat_lt
      simp only [List.flatMap_cons, List.cons_append, List.nil_append, List.cons.injEq] at hchars
      obtain ⟨hhigh, hlow, hrest⟩ := hchars
      have hquotient := hexDigit_inj (by omega) (by omega) hhigh
      have hremainder := hexDigit_inj (by omega) (by omega) hlow
      have heq : byte = byte' := UInt8.toNat_inj.mp (by omega)
      rw [heq, ih hrest]

/-- A formatted handle parses back to the job and digest it was formatted from. -/
theorem parseHandle_formatHandle {codec : UuidCodec} {jobId digest : String}
    (hjob : codec.isCanonical jobId = true) (hlength : digest.toList.length = 64)
    (hhex : ∀ c ∈ digest.toList, isLowerHex c = true) :
    parseHandle codec (formatHandle jobId digest) = .ok ⟨jobId, digest⟩ := by
  have hjobLength := UuidCodec.length_of_isCanonical hjob
  have hchars : (formatHandle jobId digest).toList =
      jobId.toList ++ '-' :: (digest.toList ++ ".ogg".toList) := by
    simp [formatHandle]
  have hascii : ∀ c ∈ (formatHandle jobId digest).toList, c.toNat < 128 := by
    intro c hc
    obtain ⟨uuid, rfl⟩ := UuidCodec.isCanonical_iff.mp hjob
    simp only [hchars, List.mem_append, List.mem_cons] at hc
    rcases hc with hc | rfl | hc | hc
    · rcases codec.hyphenated_chars uuid c hc with hlower | rfl
      · exact ascii_of_isLowerHex hlower
      · decide
    · decide
    · exact ascii_of_isLowerHex (hhex c hc)
    · have hsuffix : ".ogg".toList = ['.', 'o', 'g', 'g'] := rfl
      simp only [hsuffix, List.mem_cons, List.not_mem_nil, or_false] at hc
      rcases hc with rfl | rfl | rfl | rfl <;> decide
  have hlen : Text.len (formatHandle jobId digest) = HANDLE_BYTES := by
    rw [Text.len_of_ascii hascii, hchars]
    simp [hjobLength, hlength, HANDLE_BYTES]
  have hsuffix : (formatHandle jobId digest).toList.drop 101 = ".ogg".toList := by
    rw [hchars, List.drop_append, hjobLength, List.drop_eq_nil_of_le (by omega)]
    simp [hlength]
  have htake : (formatHandle jobId digest).toList.take 36 = jobId.toList := by
    rw [hchars, List.take_append_of_le_length (by omega), List.take_of_length_le (by omega)]
  have hmiddle : ((formatHandle jobId digest).toList.drop 37).take 64 = digest.toList := by
    rw [hchars, List.drop_append, hjobLength, List.drop_eq_nil_of_le (by omega)]
    simp [hlength]
  have hdash : (formatHandle jobId digest).toList[36]? = some '-' := by
    rw [hchars, List.getElem?_append_right (by omega), hjobLength]
    rfl
  unfold parseHandle
  rw [if_neg (by simp only [hlen, hsuffix, ne_eq, not_true_eq_false, or_false, false_or, not_not,
    List.all_eq_true, decide_eq_true_eq]; exact hascii)]
  dsimp only
  rw [htake, hmiddle, hdash, String.ofList_toList, String.ofList_toList, if_neg]
  simpa [hjob] using hhex

/-- A handle consists of a canonical job and a digest of 64 lower-case digits, and of nothing else. -/
theorem parseHandle_eq_ok {codec : UuidCodec} {value : String} {parsed : ParsedHandle} :
    parseHandle codec value = .ok parsed ↔
      value = formatHandle parsed.jobId parsed.digest ∧ codec.isCanonical parsed.jobId = true ∧
        parsed.digest.toList.length = 64 ∧ ∀ c ∈ parsed.digest.toList, isLowerHex c = true := by
  constructor
  · intro h
    unfold parseHandle at h
    dsimp only at h
    split at h
    · cases h
    rename_i hform
    split at h
    · cases h
    rename_i hparts
    obtain rfl := Except.ok.inj h
    simp only [not_or, not_not] at hform hparts
    obtain ⟨hlen, hascii, hsuffix⟩ := hform
    obtain ⟨hdash, hcanonical, hhex⟩ := hparts
    have hlength : value.toList.length = 105 := by
      rw [← Text.len_of_ascii fun c hc => by simpa using List.all_eq_true.mp hascii c hc]
      exact hlen
    have hsplit : value.toList =
        value.toList.take 36 ++ '-' :: ((value.toList.drop 37).take 64 ++ ".ogg".toList) := by
      have hdrop : value.toList.drop 37 = (value.toList.drop 37).take 64 ++ ".ogg".toList := by
        rw [← hsuffix]
        conv_lhs => rw [← List.take_append_drop 64 (value.toList.drop 37), List.drop_drop]
      have hat : value.toList.drop 36 = '-' :: value.toList.drop 37 := by
        obtain ⟨hlt, hget⟩ := List.getElem?_eq_some_iff.mp hdash
        rw [List.drop_eq_getElem_cons hlt, hget]
      rw [← hdrop, ← hat, List.take_append_drop]
    refine ⟨?_, by simpa using hcanonical, by simp [hlength], by simpa using hhex⟩
    apply String.toList_inj.mp
    refine hsplit.trans ?_
    simp [formatHandle]
  · rintro ⟨rfl, hcanonical, hlength, hhex⟩
    exact parseHandle_formatHandle hcanonical hlength hhex

namespace SpoolConfig

variable (config : SpoolConfig)

/-- Hex digest of an audio's bytes. -/
def digest (audio : List UInt8) : String := hexEncode (config.sha256 audio).bytes

/-- The handle under which a job's audio is stored. -/
def handle (id : BatchJobId) (audio : List UInt8) : BatchAudioHandle :=
  ⟨formatHandle id.asStr (config.digest audio)⟩

/-- The handle of a canonical job parses back to that job. -/
theorem parseHandle_handle {id : BatchJobId} (hid : config.codec.isCanonical id.asStr = true)
    (audio : List UInt8) :
    parseHandle config.codec (config.handle id audio).asStr = .ok ⟨id.asStr, config.digest audio⟩ := by
  refine parseHandle_formatHandle hid ?_ fun c hc => isLowerHex_of_mem_hexEncode hc
  rw [digest, length_hexEncode, (config.sha256 audio).length_eq]

/-- Whether the aggregate capacity refuses a new artifact; sums saturate at the `u64` limit. -/
def refusesTotal (spool : Spool) (incoming : ℕ) : Bool :=
  2 ^ 64 ≤ spool.audioBytes || config.maximumTotalBytes < min (spool.audioBytes + incoming) (2 ^ 64 - 1)

/-- Read an artifact whose bytes must be within the bound and have the expected digest. -/
def readVerified (spool : Spool) (handle : BatchAudioHandle) (expectedDigest : String) :
    Except BatchAudioSpoolFailure (List UInt8) :=
  match spool.artifacts.lookup handle.asStr with
  | none => .error .missing
  | some file =>
    if file.2.length > config.maximumBytes then .error .capacityExceeded
    else if file.2 = [] ∨ config.digest file.2 ≠ expectedDigest then .error Spool.invalidStorage
    else .ok file.2

/-- Claim the job's identity for a digest, unless it is claimed for another one. -/
def claimIdentity (spool : Spool) (id : BatchJobId) (digest : String) : Option Spool :=
  match spool.identities.lookup id.asStr with
  | some claimed => if claimed.2 = digest then some spool else none
  | none => some { spool with identities := spool.identities.put (id.asStr, digest) }

/-- Store the audio of one job, and claim the job's identity for its digest. -/
def storeBlocking (spool : Spool) (id : BatchJobId) (audio : List UInt8) :
    Spool × Except BatchAudioSpoolFailure BatchAudioStoreOutcome :=
  let digest := config.digest audio
  let handle := config.handle id audio
  if audio = [] ∨ audio.length > config.maximumBytes then (spool, .error .capacityExceeded)
  else if config.codec.isCanonical id.asStr = false then (spool, .error .identityConflict)
  else if spool.holds handle then
    match config.readVerified spool handle digest with
    | .error failure => (spool, .error failure)
    | .ok _ =>
      match claimIdentity spool id digest with
      | none => (spool, .error .identityConflict)
      | some spool => (spool, .ok (.existing handle))
  else if config.refusesTotal spool audio.length then (spool, .error .capacityExceeded)
  else
    match claimIdentity spool id digest with
    -- the artifact this call created is removed again before the conflict is reported
    | none => (spool, .error .identityConflict)
    | some spool =>
      ({ spool with artifacts := spool.artifacts.put (handle.asStr, audio) }, .ok (.stored handle))

/-- Read the complete artifact a handle addresses. -/
def readBlocking (spool : Spool) (handle : BatchAudioHandle) :
    Except BatchAudioSpoolFailure (List UInt8) :=
  match parseHandle config.codec handle.asStr with
  | .error failure => .error failure
  | .ok parsed => config.readVerified spool handle parsed.digest

/-- Release the identity claim of a job when it names this digest. -/
def releaseIdentity (spool : Spool) (parsed : ParsedHandle) : Spool :=
  match spool.identities.lookup parsed.jobId with
  | some claimed =>
    if claimed.2 = parsed.digest then { spool with identities := spool.identities.erase parsed.jobId }
    else spool
  | none => spool

/-- Remove an artifact and the identity claim which names it. -/
def removeBlocking (spool : Spool) (handle : BatchAudioHandle) :
    Spool × Except BatchAudioSpoolFailure BatchAudioRemoveOutcome :=
  match parseHandle config.codec handle.asStr with
  | .error failure => (spool, .error failure)
  | .ok parsed =>
    let outcome : BatchAudioRemoveOutcome := if spool.holds handle then .removed else .alreadyMissing
    (releaseIdentity { spool with artifacts := spool.artifacts.erase handle.asStr } parsed, .ok outcome)

/-- How far a mutation had come when it failed. -/
inductive Progress
  | nothing
  | artifact
  | everything
deriving DecidableEq

/-- The directory a failing store leaves behind. -/
def storeInterrupted (spool : Spool) (id : BatchJobId) (audio : List UInt8) : Progress → Spool
  | .nothing => spool
  | .artifact =>
    if config.codec.isCanonical id.asStr && !spool.holds (config.handle id audio) then
      { spool with artifacts := spool.artifacts.put ((config.handle id audio).asStr, audio) }
    else spool
  | .everything => (config.storeBlocking spool id audio).1

/-- The directory a failing removal leaves behind, and whether it removed the artifact. -/
def removeInterrupted (spool : Spool) (handle : BatchAudioHandle) : Progress → Spool
  | .nothing => spool
  | .artifact =>
    if (parseHandle config.codec handle.asStr).isOk then
      { spool with artifacts := spool.artifacts.erase handle.asStr }
    else spool
  | .everything => (config.removeBlocking spool handle).1

variable {config} {spool : Spool}

/-- A store reports a failure without effect, finds its artifact, or creates exactly that one. -/
theorem storeBlocking_cases (spool : Spool) (id : BatchJobId) (audio : List UInt8) :
    (∃ failure, config.storeBlocking spool id audio = (spool, .error failure)) ∨
      config.codec.isCanonical id.asStr = true ∧ ∃ spool',
        (config.storeBlocking spool id audio = (spool', .ok (.existing (config.handle id audio))) ∧
          spool.holds (config.handle id audio) = true ∧ spool'.artifacts = spool.artifacts) ∨
        (config.storeBlocking spool id audio = (spool', .ok (.stored (config.handle id audio))) ∧
          spool.holds (config.handle id audio) = false ∧
          spool'.artifacts = spool.artifacts.put ((config.handle id audio).asStr, audio)) := by
  have hclaim {spool' : Spool} {digest : String} (h : claimIdentity spool id digest = some spool') :
      spool'.artifacts = spool.artifacts := by
    unfold claimIdentity at h
    split at h
    · split at h
      · obtain rfl := Option.some.inj h
        rfl
      · cases h
    · obtain rfl := Option.some.inj h
      rfl
  unfold storeBlocking
  dsimp only
  split
  · exact .inl ⟨_, rfl⟩
  · split
    · exact .inl ⟨_, rfl⟩
    · rename_i hcanonical
      split
      · rename_i hholds
        split
        · exact .inl ⟨_, rfl⟩
        · split
          · exact .inl ⟨_, rfl⟩
          · rename_i spool' hspool'
            exact .inr ⟨by simpa using hcanonical, spool', .inl ⟨rfl, hholds, hclaim hspool'⟩⟩
      · rename_i hholds
        split
        · exact .inl ⟨_, rfl⟩
        · split
          · exact .inl ⟨_, rfl⟩
          · rename_i spool' hspool'
            exact .inr ⟨by simpa using hcanonical, _, .inr ⟨rfl, by simpa using hholds, by rw [hclaim hspool']⟩⟩

/-- What is read has the digest it was asked for. -/
theorem readVerified_eq_ok {handle : BatchAudioHandle} {digest : String} {audio : List UInt8}
    (h : config.readVerified spool handle digest = .ok audio) :
    ∃ name, spool.artifacts.lookup handle.asStr = some (name, audio) ∧ config.digest audio = digest := by
  unfold readVerified at h
  split at h
  · cases h
  rename_i file hfile
  split at h
  · cases h
  split at h
  · cases h
  rename_i hverified
  obtain rfl := Except.ok.inj h
  exact ⟨file.1, hfile, not_not.mp (not_or.mp hverified).2⟩

/-- An artifact a store finds has the digest of the audio it was asked to store. -/
theorem verified_of_existing {id : BatchJobId} {audio : List UInt8} {spool' : Spool} {found : BatchAudioHandle}
    (h : config.storeBlocking spool id audio = (spool', .ok (.existing found))) :
    ∃ file, spool.artifacts.lookup (config.handle id audio).asStr = some file ∧
      config.digest file.2 = config.digest audio := by
  unfold storeBlocking at h
  dsimp only at h
  split at h
  · cases h
  split at h
  · cases h
  split at h
  · split at h
    · cases h
    · rename_i content hread
      obtain ⟨name, hlookup, hdigest⟩ := readVerified_eq_ok hread
      exact ⟨_, hlookup, hdigest⟩
  split at h
  · cases h
  split at h
  · cases h
  · cases h

/-- What is read under a handle has the handle's digest. -/
theorem readBlocking_eq_ok {handle : BatchAudioHandle} {audio : List UInt8}
    (h : config.readBlocking spool handle = .ok audio) :
    ∃ parsed name, parseHandle config.codec handle.asStr = .ok parsed ∧
      spool.artifacts.lookup handle.asStr = some (name, audio) ∧ config.digest audio = parsed.digest := by
  unfold readBlocking at h
  split at h
  · cases h
  · rename_i parsed hparsed
    obtain ⟨name, hlookup, hdigest⟩ := readVerified_eq_ok h
    exact ⟨parsed, name, hparsed, hlookup, hdigest⟩

/-- Creating one artifact adds exactly that artifact. -/
theorem holds_of_put {spool' : Spool} {handle : BatchAudioHandle} {audio : List UInt8}
    (h : spool'.artifacts = spool.artifacts.put (handle.asStr, audio)) (other : BatchAudioHandle) :
    spool'.holds other = true ↔ other = handle ∨ spool.holds other = true := by
  unfold Spool.holds
  rw [h, SortedTable.lookup_put]
  by_cases hother : other.asStr = handle.asStr
  · simp [show other = handle from by cases other; cases handle; simpa using hother]
  · have hne : other ≠ handle := fun heq => hother (by rw [heq])
    simp [hother, hne]

/-- Erasing one artifact removes exactly that artifact. -/
theorem holds_of_erase {spool' : Spool} {handle : BatchAudioHandle}
    (h : spool'.artifacts = spool.artifacts.erase handle.asStr) (other : BatchAudioHandle) :
    spool'.holds other = true ↔ other ≠ handle ∧ spool.holds other = true := by
  unfold Spool.holds
  rw [h, SortedTable.lookup_erase]
  by_cases hother : other.asStr = handle.asStr
  · simp [show other = handle from by cases other; cases handle; simpa using hother]
  · have hne : other ≠ handle := fun heq => hother (by rw [heq])
    simp [hother, hne]

/-- However far a failing store came, it removed nothing. -/
theorem holds_storeInterrupted (id : BatchJobId) (audio : List UInt8) (progress : Progress)
    {handle : BatchAudioHandle} (h : spool.holds handle = true) :
    (config.storeInterrupted spool id audio progress).holds handle = true := by
  cases progress with
  | nothing => exact h
  | artifact =>
    simp only [storeInterrupted]
    split
    · exact (holds_of_put rfl handle).mpr (.inr h)
    · exact h
  | everything =>
    change (config.storeBlocking spool id audio).1.holds handle = true
    rcases config.storeBlocking_cases spool id audio with
      ⟨failure, heq⟩ | ⟨_, spool', ⟨heq, _, hartifacts⟩ | ⟨heq, _, hartifacts⟩⟩
    · rw [heq]
      exact h
    · rw [heq]
      simpa [Spool.holds, hartifacts] using h
    · rw [heq]
      exact (holds_of_put hartifacts handle).mpr (.inr h)

/-- Releasing an identity claim touches no artifact. -/
@[simp] theorem artifacts_releaseIdentity (parsed : ParsedHandle) :
    (releaseIdentity spool parsed).artifacts = spool.artifacts := by
  unfold releaseIdentity
  split
  · split <;> rfl
  · rfl

/-- A removal refuses a malformed handle, or leaves exactly the other artifacts. -/
theorem removeBlocking_cases (spool : Spool) (handle : BatchAudioHandle) :
    (∃ failure, parseHandle config.codec handle.asStr = .error failure ∧
        config.removeBlocking spool handle = (spool, .error failure)) ∨
      ∃ spool' outcome, config.removeBlocking spool handle = (spool', .ok outcome) ∧
        spool'.artifacts = spool.artifacts.erase handle.asStr := by
  unfold removeBlocking
  cases hparse : parseHandle config.codec handle.asStr with
  | error failure => exact .inl ⟨failure, rfl, rfl⟩
  | ok parsed => exact .inr ⟨_, _, rfl, by simp⟩

/-- A removal tells whether it found its artifact. -/
theorem removeBlocking_outcome {handle : BatchAudioHandle} {spool' : Spool} {outcome : BatchAudioRemoveOutcome}
    (h : config.removeBlocking spool handle = (spool', .ok outcome)) :
    spool'.artifacts = spool.artifacts.erase handle.asStr ∧
      outcome = if spool.holds handle then .removed else .alreadyMissing := by
  unfold removeBlocking at h
  split at h
  · cases h
  · obtain ⟨rfl, houtcome⟩ := Prod.mk.inj h
    exact ⟨by simp, (Except.ok.inj houtcome).symm⟩

/-- However far a failing removal came, only its own artifact may be gone. -/
theorem holds_removeInterrupted {handle other : BatchAudioHandle} (progress : Progress)
    (h : spool.holds other = true) (hne : other ≠ handle) :
    (config.removeInterrupted spool handle progress).holds other = true := by
  cases progress with
  | nothing => exact h
  | artifact =>
    simp only [removeInterrupted]
    split
    · exact (holds_of_erase rfl other).mpr ⟨hne, h⟩
    · exact h
  | everything =>
    change (config.removeBlocking spool handle).1.holds other = true
    rcases config.removeBlocking_cases spool handle with
      ⟨failure, _, heq⟩ | ⟨spool', outcome, heq, hartifacts⟩
    · rw [heq]
      exact h
    · rw [heq]
      exact (holds_of_erase hartifacts other).mpr ⟨hne, h⟩

end SpoolConfig

/-- The spool port over the gateway's operations. -/
def durableFileSpool : BatchAudioSpool GatewayOp GatewayOp.Reply where
  store id audio := Task.call (GatewayOp.storeAudio id audio)
  read handle := Task.call (GatewayOp.readAudio handle)
  remove handle := Task.call (GatewayOp.removeAudio handle)

/-- The provider port over the gateway's operations. -/
def providerRecognizer : BatchRecognizer GatewayOp GatewayOp.Reply where
  recognize request := Task.call (GatewayOp.recognize request)

end Voicetext.Gateway.Storage
