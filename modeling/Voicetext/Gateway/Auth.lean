import Mathlib.Data.List.Basic
import Voicetext.Common.Fallible
import Voicetext.Common.Utf8
import Voicetext.Gateway.Storage.Spool

/-!
# Machine tokens

A request is authenticated by the one value of its one authorization header, compared with a token of which only
the digest is kept. Tokens and idempotency keys have one spelling each.
-/

namespace Voicetext.Gateway

open Voicetext.Common Voicetext.Gateway.Storage

section Secrets

def MIN_MACHINE_TOKEN_BYTES : ℕ := 32

inductive SecretError
  | tooShort (minimum : ℕ)
  | invalidCharacter
deriving DecidableEq

/-- Visible ASCII. -/
def isVisible (byte : UInt8) : Bool := 0x21 ≤ byte && byte ≤ 0x7e

def validateToken (token : List UInt8) : Except SecretError Unit :=
  if token.length < MIN_MACHINE_TOKEN_BYTES then .error (.tooShort MIN_MACHINE_TOKEN_BYTES)
  else if token.any fun byte => !isVisible byte then .error .invalidCharacter
  else .ok ()

/-- A one-way representation of a machine token. -/
structure MachineSecret where
  digest : Sha256Digest

namespace MachineSecret

variable (sha256 : List UInt8 → Sha256Digest)

def fromToken (token : List UInt8) : Except SecretError MachineSecret := do
  validateToken token
  return ⟨sha256 token⟩

/-- Compare a candidate by its digest (`ct_eq`). -/
def verifies (secret : MachineSecret) (candidate : List UInt8) : Bool :=
  secret.digest.bytes = (sha256 candidate).bytes

end MachineSecret

end Secrets

section Headers

/-- The headers of a request, with their names in lower case. -/
abbrev HeaderMap := List (String × List UInt8)

/-- `HeaderMap::get_all`. -/
def getAll (headers : HeaderMap) (name : String) : List (List UInt8) :=
  headers.filterMap fun header => if header.1 = name then some header.2 else none

inductive AuthenticationError
  | missing
  | multiple
  | malformed
  | invalidCredentials
deriving DecidableEq

/-- `Bearer ` -/
def BEARER_PREFIX : List UInt8 := [0x42, 0x65, 0x61, 0x72, 0x65, 0x72, 0x20]

/-- `<[u8]>::strip_prefix`. -/
def stripPrefix : List UInt8 → List UInt8 → Option (List UInt8)
  | value, [] => some value
  | [], _ :: _ => none
  | byte :: value, expected :: rest => if byte = expected then stripPrefix value rest else none

theorem stripPrefix_eq_some {value front rest : List UInt8} :
    stripPrefix value front = some rest ↔ value = front ++ rest := by
  induction value, front using stripPrefix.induct with
  | case1 value => simp [stripPrefix]
  | case2 expected front => simp [stripPrefix]
  | case3 value expected front ih => simp [stripPrefix, ih]
  | case4 byte value expected front hne => simp [stripPrefix, hne]

def parseBearer (value : List UInt8) : Except AuthenticationError (List UInt8) :=
  match stripPrefix value BEARER_PREFIX with
  | none => .error .malformed
  | some token =>
    if token = [] ∨ (token.any fun byte => !isVisible byte) = true then .error .malformed else .ok token

variable (sha256 : List UInt8 → Sha256Digest) (headers : HeaderMap) (expected : MachineSecret)

def authenticate : Except AuthenticationError Unit :=
  match getAll headers "authorization" with
  | [] => .error .missing
  | [value] => do
    let candidate ← parseBearer value
    if expected.verifies sha256 candidate then return () else .error .invalidCredentials
  | _ :: _ :: _ => .error .multiple

variable {sha256 headers expected}

/-- A bearer value is the scheme, one space and a visible token. -/
theorem parseBearer_eq_ok {value token : List UInt8} : parseBearer value = .ok token ↔
    value = BEARER_PREFIX ++ token ∧ token ≠ [] ∧ ∀ byte ∈ token, isVisible byte = true := by
  unfold parseBearer
  cases hstrip : stripPrefix value BEARER_PREFIX with
  | none =>
    refine ⟨nofun, fun h => ?_⟩
    rw [stripPrefix_eq_some.mpr h.1] at hstrip
    cases hstrip
  | some found =>
    rw [stripPrefix_eq_some] at hstrip
    subst hstrip
    dsimp only
    rw [ite_error_eq_ok, Except.ok.injEq, List.append_cancel_left_eq, not_or]
    constructor
    · rintro ⟨⟨hne, hvisible⟩, rfl⟩
      exact ⟨rfl, hne, by simpa using hvisible⟩
    · rintro ⟨rfl, hne, hvisible⟩
      exact ⟨⟨hne, by simpa using hvisible⟩, rfl⟩

/-- A request is authenticated exactly by one authorization header with the token of the expected digest. -/
theorem authenticate_eq_ok : authenticate sha256 headers expected = .ok () ↔
    ∃ token, getAll headers "authorization" = [BEARER_PREFIX ++ token] ∧ token ≠ [] ∧
      (∀ byte ∈ token, isVisible byte = true) ∧ (sha256 token).bytes = expected.digest.bytes := by
  unfold authenticate
  rcases getAll headers "authorization" with _ | ⟨value, _ | ⟨other, rest⟩⟩
  · simp
  · dsimp only
    rw [bind_eq_ok]
    constructor
    · rintro ⟨token, hparsed, hverified⟩
      obtain ⟨rfl, hne, hvisible⟩ := parseBearer_eq_ok.mp hparsed
      refine ⟨token, rfl, hne, hvisible, ?_⟩
      split at hverified
      · rename_i hverifies
        exact (of_decide_eq_true hverifies).symm
      · cases hverified
    · rintro ⟨token, hvalue, hne, hvisible, hdigest⟩
      obtain rfl : value = BEARER_PREFIX ++ token := by simpa using hvalue
      refine ⟨token, parseBearer_eq_ok.mpr ⟨rfl, hne, hvisible⟩, if_pos ?_⟩
      exact decide_eq_true hdigest.symm
  · simp

end Headers

section Keys

def IDEMPOTENCY_KEY_BYTES : ℕ := 64

inductive InvalidIdempotencyKey
  | invalidLength
  | notLowercaseHex
deriving DecidableEq

/-- 64 lower-case hexadecimal digits. -/
def IsIdempotencyKey (value : String) : Prop :=
  Text.len value = IDEMPOTENCY_KEY_BYTES ∧ value.toList.all isLowerHex = true

instance instDecidableIsIdempotencyKey (value : String) : Decidable (IsIdempotencyKey value) :=
  inferInstanceAs (Decidable (_ ∧ _))

/-- A canonical idempotency key. -/
structure IdempotencyKey where
  asStr : String
  valid : IsIdempotencyKey asStr

/-- `IdempotencyKey::parse`. -/
def IdempotencyKey.parse (value : String) : Except InvalidIdempotencyKey IdempotencyKey :=
  if hlength : Text.len value = IDEMPOTENCY_KEY_BYTES then
    if hdigits : value.toList.all isLowerHex = true then .ok ⟨value, hlength, hdigits⟩
    else .error .notLowercaseHex
  else .error .invalidLength

theorem IdempotencyKey.parse_eq_ok {value : String} {key : IdempotencyKey} :
    IdempotencyKey.parse value = .ok key ↔ key.asStr = value := by
  unfold IdempotencyKey.parse
  constructor
  · intro h
    split at h
    · split at h
      · obtain rfl := Except.ok.inj h
        rfl
      · cases h
    · cases h
  · rintro rfl
    rw [dif_pos key.valid.1, dif_pos key.valid.2]

/-- The namespace of job identities. -/
def JOB_ID_NAMESPACE : List UInt8 :=
  [0xa7, 0xef, 0x59, 0xd0, 0x40, 0x0d, 0x5b, 0x12, 0xac, 0x64, 0x32, 0xfb, 0xd5, 0x76, 0xfb, 0xbc]

/-- The job identity of a key, by `Uuid::new_v5`. -/
def deterministicJobId {codec : UuidCodec} (newV5 : List UInt8 → List UInt8 → codec.Uuid) (key : IdempotencyKey) :
    codec.Uuid := newV5 JOB_ID_NAMESPACE (Text.asBytes key.asStr)

end Keys

end Voicetext.Gateway
