import Voicetext.Gateway.Server.AdmittedRequests
import Voicetext.Gateway.Server.BatchPost

/-!
# What a batch request has been told

A request remembers its slots and the parts of its form. It asks for more of the form only while all it has read
fits, and for nothing behind the identity of the form before that identity is served and its slot taken. It calls the
coordinator at most once, with the request its complete and validated form stands for.
-/

namespace Voicetext.Gateway.Server.Upload

open Voicetext.Common Voicetext.Speech.Domain Voicetext.Speech.Application Voicetext.Gateway.Contracts
open Voicetext.Gateway.Storage Voicetext.Audio.OggOpus

section Logs

/-- More content of the part which has begun. -/
def extendLast : List Part → List UInt8 → List Part
  | [], _ => []
  | [part], bytes => [{ part with content := part.content ++ bytes }]
  | part :: next :: rest, bytes => part :: extendLast (next :: rest) bytes

/-- What a step reads of a form. -/
def readStep (parts : List Part) : (op : UploadOp) × op.Reply → List Part
  | ⟨.nextField, .got (some head)⟩ => parts ++ [⟨head, []⟩]
  | ⟨.chunk, .got (some bytes)⟩ => extendLast parts bytes
  | _ => parts

/-- The parts a request has been given. -/
def uploaded (log : UploadLog) : List Part := log.foldl readStep []

/-- The executions a request has spawned. -/
def spawns (log : UploadLog) : List (BatchIdentity × BatchJobId) :=
  log.filterMap fun
    | ⟨.spawnExecution identity id, _⟩ => some (identity, id)
    | _ => none

theorem uploaded_snoc (log : UploadLog) (step : (op : UploadOp) × op.Reply) :
    uploaded (log ++ [step]) = readStep (uploaded log) step := by
  simp [uploaded, List.foldl_append]

theorem spawns_snoc (log : UploadLog) (step : (op : UploadOp) × op.Reply) :
    spawns (log ++ [step]) = spawns log ++ spawns [step] := by
  simp [spawns, List.filterMap_append]

/-- A log goes on, and no execution is spawned. -/
structure Grows (log log' : UploadLog) : Prop where
  extends_ : log <+: log'
  spawns : spawns log' = spawns log

theorem Grows.refl (log : UploadLog) : Grows log log := ⟨List.prefix_rfl, rfl⟩

theorem Grows.trans {log log' log'' : UploadLog} (h : Grows log log') (h' : Grows log' log'') : Grows log log'' :=
  ⟨h.1.trans h'.1, h'.2.trans h.2⟩

theorem Grows.snoc {log log' : UploadLog} (h : Grows log log') {step : (op : UploadOp) × op.Reply}
    (hstep : Upload.spawns [step] = []) : Grows log (log' ++ [step]) :=
  ⟨h.1.trans (List.prefix_append _ _), by rw [spawns_snoc, hstep, List.append_nil, h.2]⟩

theorem Grows.mem {log log' : UploadLog} (h : Grows log log') {step : (op : UploadOp) × op.Reply}
    (hstep : step ∈ log) : step ∈ log' := List.IsPrefix.subset h.1 hstep

end Logs

section Conditions

/-- Parts within their limits. -/
def Fits : List ℕ → List Part → Prop
  | _, [] => True
  | [], _ :: _ => False
  | limit :: limits, part :: parts => part.content.length ≤ limit ∧ Fits limits parts

theorem fits_nil (limits : List ℕ) : Fits limits [] := by
  cases limits <;> exact trivial

/-- One more part within its limit. -/
theorem Fits.concat {limits : List ℕ} {parts : List Part} {part : Part} {limit : ℕ} (h : Fits limits parts)
    (hlimit : limits[parts.length]? = some limit) (hpart : part.content.length ≤ limit) :
    Fits limits (parts ++ [part]) := by
  induction parts generalizing limits with
  | nil =>
    cases limits with
    | nil => cases hlimit
    | cons first limits =>
      cases hlimit
      exact ⟨hpart, fits_nil limits⟩
  | cons first rest ih =>
    cases limits with
    | nil => exact h.elim
    | cons bound limits => exact ⟨h.1, ih h.2 hlimit⟩

variable (config : PostConfig) (headers : HeaderMap)

/-- The limits of the parts of a form. -/
def PostConfig.partLimits : List ℕ := List.replicate 5 MAX_TEXT_FIELD_BYTES ++ [config.batchUploadBytes.val]

/-- Parts begin with the texts of an identity. -/
inductive Selects (identity : BatchIdentity) : List Part → Prop
  | texts {contractVersion provider model language : String} {version name kind tongue : Part} {rest : List Part}
      (hversion : IsText "contract_version" contractVersion version) (hprovider : IsText "provider" provider name)
      (hmodel : IsText "model" model kind) (hlanguage : IsText "language" language tongue)
      (hidentity : identityFromFields contractVersion provider model language = .ok identity) :
      Selects identity (version :: name :: kind :: tongue :: rest)

theorem Selects.append {identity : BatchIdentity} {parts : List Part} (h : Selects identity parts)
    (more : List Part) : Selects identity (parts ++ more) := by
  cases h with
  | texts hversion hprovider hmodel hlanguage hidentity =>
    exact .texts hversion hprovider hmodel hlanguage hidentity

/-- The identity of a form is served, and its slot was taken. -/
def Cleared (log : UploadLog) (parts : List Part) : Prop :=
  ∃ identity, Selects identity parts ∧ config.configured identity = true ∧
    ⟨.acquire (.provider identity), true⟩ ∈ log

/-- A request is authenticated, has its first slots and names its job. -/
structure Opened (log : UploadLog) : Prop where
  authenticated : authenticate config.gateway.sha256 headers config.auth = .ok ()
  globalSlot : ⟨.acquire .global, true⟩ ∈ log
  batchSlot : ⟨.acquire .batch, true⟩ ∈ log
  key : ∃ key, parseIdempotencyKey headers = .ok key

/-- More of a form may be asked for, from the part this far ahead of those which have begun. -/
structure Receives (log : UploadLog) (ahead : ℕ) : Prop where
  opened : Opened config headers log
  fits : Fits config.partLimits (uploaded log)
  cleared : 4 < (uploaded log).length + ahead → Cleared config log (uploaded log)

/-- A request stands for an admission: its form is complete and validated, and its three slots are taken. -/
structure Admissible (log : UploadLog) (admission : Admission config.gateway.codec) : Prop where
  opened : Opened config headers log
  slot : ⟨.acquire (.provider admission.identity), true⟩ ∈ log
  complete : ⟨.nextField, .got none⟩ ∈ log
  key : ∃ key, parseIdempotencyKey headers = .ok key ∧ admission.jobUuid = deterministicJobId config.newV5 key
  form : ∃ form rawKeyterms recognizer validated,
    IsForm config.batchUploadBytes.val (uploaded log) form ∧ form.identity = .ok admission.identity ∧
      config.profiles.batch admission.identity = some recognizer ∧
        validateCompleteOggOpus config.readPackets config.getNbSamples form.audio = pure validated ∧
          admissionRequest config.gateway.sha256 admission.identity
            ⟨config.gateway.codec.hyphenated admission.jobUuid⟩ rawKeyterms form.audio
            (.ofNat validated.durationMillis) = .ok admission.request

/-- What a request may ask for after its steps so far. -/
def Asks (log : UploadLog) : UploadOp → Prop
  | .acquire _ => authenticate config.gateway.sha256 headers config.auth = .ok ()
  | .nextField => Receives config headers log 1
  | .chunk => Receives config headers log 0
  | .validate audio => Opened config headers log ∧ Cleared config log (uploaded log) ∧
      ∃ form, IsForm config.batchUploadBytes.val (uploaded log) form ∧ form.audio = audio
  | .spawnExecution identity id => ∃ admission, Admissible config headers log admission ∧
      admission.identity = identity ∧ admission.request.id = id
  | .cut => True

end Conditions

section Steps

variable {config : PostConfig} {headers : HeaderMap} {log log' : UploadLog} {parts : List Part} {fuel limit : ℕ}

theorem Cleared.mono (h : Cleared config log parts) (hgrows : Grows log log') (more : List Part) :
    Cleared config log' (parts ++ more) := by
  obtain ⟨identity, hselects, hconfigured, hslot⟩ := h
  exact ⟨identity, hselects.append more, hconfigured, hgrows.mem hslot⟩

theorem Opened.mono (h : Opened config headers log) (hgrows : Grows log log') : Opened config headers log' :=
  ⟨h.authenticated, hgrows.mem h.globalSlot, hgrows.mem h.batchSlot, h.key⟩

/-- A part within its limit has been read. -/
theorem Receives.next (h : Receives config headers log 1) (hgrows : Grows log log') {part : Part}
    (hparts : uploaded log' = uploaded log ++ [part]) (hlimit : config.partLimits[(uploaded log).length]? = some limit)
    (hpart : part.content.length ≤ limit)
    (hcleared : (uploaded log').length = 4 → Cleared config log' (uploaded log')) : Receives config headers log' 1 := by
  refine ⟨h.opened.mono hgrows, hparts ▸ h.fits.concat hlimit hpart, fun hlength => ?_⟩
  by_cases hfourth : (uploaded log').length = 4
  · exact hcleared hfourth
  · rw [hparts]
    refine (h.cleared ?_).mono hgrows [part]
    rw [hparts, List.length_append, List.length_singleton] at hlength hfourth
    omega

end Steps

end Voicetext.Gateway.Server.Upload
