import Voicetext.Common.TaskDelegation
import Voicetext.Common.U64
import Voicetext.Common.Utf8
import Voicetext.Gateway.Server.Batch
import Voicetext.Gateway.Server.BatchShutdown

/-!
# Reading the form of a batch request

The parts of a form come in one order, each as a head and chunks of its content, and the deadline of the upload may
elapse at every await. What is read of a form that arrives depends on its parts alone, however they are cut into
chunks; a form is accepted exactly when its parts are those of one.
-/

namespace Voicetext.Gateway.Server.Upload

open Voicetext.Common Voicetext.Speech.Domain Voicetext.Speech.Application Voicetext.Gateway.Contracts
open Voicetext.Gateway.Storage

section Operations

/-- What a part of a form says of itself. -/
structure PartHead where
  name : Option String
  fileName : Option String
  contentType : Option String
deriving DecidableEq

/-- What an await of the upload ends with. -/
inductive Arrival (α : Type)
  | elapsed
  | failed
  | got (value : α)

/-- The steps of a request beside its call of the coordinator; a request which is cut goes no further. -/
inductive UploadOp
  | acquire (slot : Slot)
  | nextField
  | chunk
  | validate (audio : List UInt8)
  | spawnExecution (identity : BatchIdentity) (id : BatchJobId)
  | cut

/-- A slot is granted or not, and a validation is joined or not. -/
@[reducible] def UploadOp.Reply : UploadOp → Type
  | acquire _ => Bool
  | nextField => Arrival (Option PartHead)
  | chunk => Arrival (Option (List UInt8))
  | validate _ => Bool
  | spawnExecution _ _ => Unit
  | cut => Empty

abbrev UploadTask (α : Type) := OuterTask GatewayOp.Reply UploadOp.Reply α

abbrev UploadLog := OwnLog UploadOp.Reply

instance instIsEmptyReplyCut : IsEmpty (OuterOp.Reply GatewayOp.Reply UploadOp.Reply (.own .cut)) :=
  inferInstanceAs (IsEmpty Empty)

/-- One step of a request. -/
abbrev UploadOp.perform (op : UploadOp) : UploadTask op.Reply := Task.call (OuterOp.own op)

end Operations

section Fields

/-- What has arrived before the deadline. -/
def arrived {α : Type} : Arrival α → Except GatewayHttpError α
  | .elapsed => .error (.badRequest "UPLOAD_DEADLINE_EXCEEDED")
  | .failed => .error (.badRequest "INVALID_MULTIPART")
  | .got value => .ok value

def nextField : UploadTask (Except GatewayHttpError PartHead) :=
  UploadOp.nextField.perform.bind fun field =>
    .done (arrived field >>= fun field => field.elim (.error (.badRequest "MISSING_MULTIPART_FIELD")) .ok)

/-- One round of `read_bounded`. -/
def readChunk (limit : ℕ) (value : List UInt8) : UploadTask (List UInt8 ⊕ Except GatewayHttpError (List UInt8)) :=
  UploadOp.chunk.perform.bind fun chunk =>
    match arrived chunk with
    | .error error => .done (.inr (.error error))
    | .ok none => .done (.inr (.ok value))
    | .ok (some chunk) =>
      if U64.saturatingAdd value.length chunk.length > limit then
        .done (.inr (.error (.badRequest "MULTIPART_FIELD_TOO_LARGE")))
      else .done (.inl (value ++ chunk))

def readBounded (fuel limit : ℕ) : UploadTask (Except GatewayHttpError (List UInt8)) :=
  Task.repeatUntil (.own .cut) (readChunk limit) fuel []

def readText (fuel : ℕ) : UploadTask (Except GatewayHttpError String) :=
  (readBounded fuel MAX_TEXT_FIELD_BYTES).andThen fun bytes =>
    .done ((Text.fromUtf8 bytes).elim (.error (.badRequest "INVALID_TEXT_FIELD")) .ok)

/-- The next field, which has to be a text of the expected name. -/
def readTextField (fuel : ℕ) (expected : String) : UploadTask (Except GatewayHttpError String) :=
  nextField.andThen fun field =>
    if field.name ≠ some expected ∨ field.fileName.isSome = true then
      .done (.error (.badRequest "INVALID_MULTIPART_ORDER"))
    else readText fuel

end Fields

section Form

structure BatchForm where
  contractVersion : String
  provider : String
  model : String
  language : String
  keyterms : List String
  audio : List UInt8

def identityFromFields (contractVersion provider model language : String) :
    Except GatewayHttpError BatchIdentity :=
  match contractVersion, provider, model, language with
  | "2", "deepgram", "nova-3", "multi" => .ok .deepgramNova3MultiV2
  | "3", "elevenlabs", "scribe_v2", "multi" => .ok .elevenlabsScribeV2MultiV3
  | _, _, _, _ => .error (.badRequest "UNSUPPORTED_PROFILE")

def BatchForm.identity (form : BatchForm) : Except GatewayHttpError BatchIdentity :=
  identityFromFields form.contractVersion form.provider form.model form.language

/-- The keyterms of a text which is not too long. -/
def parseKeyterms (text : String) : Except GatewayHttpError (List String) :=
  match (Json.parse text).bind (Json.asArray Json.asString) with
  | none => .error (.badRequest "INVALID_KEYTERMS")
  | some rawKeyterms => mapErr (.badRequest "INVALID_KEYTERMS") (Identity.canonicalizeKeyterms rawKeyterms)

/-- Whether a part is the recording. -/
def isRecording (field : PartHead) : Bool :=
  field.name = some "file" && field.fileName = some "speaker-track.ogg" && field.contentType = some "audio/ogg"

/-- The next field, which has to be the recording. -/
def readFile (fuel audioLimit : ℕ) : UploadTask (Except GatewayHttpError (List UInt8)) :=
  nextField.andThen fun file =>
    if isRecording file = false then .done (.error (.badRequest "INVALID_AUDIO_PART"))
    else readBounded fuel audioLimit

/-- A slot which has to be free. -/
def acquireSlot (slot : Slot) : UploadTask (Except GatewayHttpError Unit) :=
  (UploadOp.acquire slot).perform.bind fun acquired =>
    .done (if acquired = true then .ok () else .error .rateLimited)

/-- No further field. -/
def readEnd : UploadTask (Except GatewayHttpError Unit) :=
  UploadOp.nextField.perform.bind fun field =>
    .done (arrived field >>= fun field =>
      if field.isSome = true then .error (.badRequest "UNEXPECTED_MULTIPART_FIELD") else .ok ())

variable (fuel audioLimit : ℕ) (configured : BatchIdentity → Bool)

/-- The rest of a form behind its identity, once its slot was taken. -/
def readRest (contractVersion provider model language : String) : UploadTask (Except GatewayHttpError BatchForm) :=
  (readTextField fuel "keyterms").andThen fun rawKeyterms =>
  (readFile fuel audioLimit).andThen fun audio =>
  readEnd.andThen fun () =>
  (Task.done (parseKeyterms rawKeyterms)).andThen fun keyterms =>
  .done (.ok ⟨contractVersion, provider, model, language, keyterms, audio⟩)

def parseMultipart : UploadTask (Except GatewayHttpError BatchForm) :=
  (readTextField fuel "contract_version").andThen fun contractVersion =>
  (readTextField fuel "provider").andThen fun provider =>
  (readTextField fuel "model").andThen fun model =>
  (readTextField fuel "language").andThen fun language =>
  (Task.done (identityFromFields contractVersion provider model language)).andThen fun identity =>
  if configured identity = false then .done (.error .unsupportedProfile)
  else
    (acquireSlot (.provider identity)).andThen fun () =>
    readRest fuel audioLimit contractVersion provider model language

end Form

section Parts

/-- A part of a form with all of its content. -/
structure Part where
  head : PartHead
  content : List UInt8

/-- A part is a text of this name. -/
structure IsText (name value : String) (part : Part) : Prop where
  name : part.head.name = some name
  fileName : part.head.fileName = none
  content : part.content = Text.asBytes value
  length_le : part.content.length ≤ MAX_TEXT_FIELD_BYTES

/-- A part is the recording. -/
structure IsFile (limit : ℕ) (audio : List UInt8) (part : Part) : Prop where
  recording : isRecording part.head = true
  content : part.content = audio
  length_le : part.content.length ≤ limit

/-- Six parts in their order, and nothing behind them. -/
inductive IsForm (limit : ℕ) : List Part → BatchForm → Prop
  | parts {form : BatchForm} {rawKeyterms : String} {contractVersion provider model language keyterms file : Part}
      (hversion : IsText "contract_version" form.contractVersion contractVersion)
      (hprovider : IsText "provider" form.provider provider) (hmodel : IsText "model" form.model model)
      (hlanguage : IsText "language" form.language language) (hkeyterms : IsText "keyterms" rawKeyterms keyterms)
      (hcanonical : parseKeyterms rawKeyterms = .ok form.keyterms) (hfile : IsFile limit form.audio file) :
      IsForm limit [contractVersion, provider, model, language, keyterms, file] form

end Parts

section Delivery

/-- A form on its way: the parts which have not begun, and the chunks of the one which has. -/
structure Incoming where
  fields : List (PartHead × List (List UInt8))
  chunks : List (List UInt8)

/-- A form arrives in whatever chunks, and nothing fails. -/
def deliver (granted : Slot → Bool) (form : Incoming) :
    (op : OuterOp GatewayOp UploadOp) → Option (Incoming × OuterOp.Reply GatewayOp.Reply UploadOp.Reply op)
  | .own (.acquire slot) => some (form, granted slot)
  | .own .nextField =>
    match form.fields with
    | [] => some (⟨[], []⟩, .got none)
    | (head, chunks) :: fields => some (⟨fields, chunks⟩, .got (some head))
  | .own .chunk =>
    match form.chunks with
    | [] => some (form, .got none)
    | chunk :: chunks => some (⟨form.fields, chunks⟩, .got (some chunk))
  | .own (.validate _) | .own (.spawnExecution _ _) | .own .cut | .port _ => none

/-- A part as it arrives in chunks. -/
def joined (field : PartHead × List (List UInt8)) : Part := ⟨field.1, field.2.flatten⟩

variable {granted : Slot → Bool} {fields : List (PartHead × List (List UInt8))} {chunks : List (List UInt8)}
  {limit fuel : ℕ} {w : Incoming}

/-- A computation on the parts which have not been read. -/
abbrev PartsM (α : Type) := StateT (List Part) (Except GatewayHttpError) α

/-- The content of a part within its limit. -/
def boundedContent (limit : ℕ) (content : List UInt8) : Except GatewayHttpError (List UInt8) :=
  if content.length > limit then .error (.badRequest "MULTIPART_FIELD_TOO_LARGE") else .ok content

/-- The next part, which has to be there. -/
def partOf : PartsM Part
  | [] => .error (.badRequest "MISSING_MULTIPART_FIELD")
  | part :: rest => .ok (part, rest)

/-- A part which has to be a text of this name. -/
def Part.text (expected : String) (part : Part) : Except GatewayHttpError String :=
  if part.head.name ≠ some expected ∨ part.head.fileName.isSome = true then
    .error (.badRequest "INVALID_MULTIPART_ORDER")
  else do
    let bytes ← boundedContent MAX_TEXT_FIELD_BYTES part.content
    (Text.fromUtf8 bytes).elim (.error (.badRequest "INVALID_TEXT_FIELD")) .ok

/-- A part which has to be the recording. -/
def Part.audio (limit : ℕ) (part : Part) : Except GatewayHttpError (List UInt8) :=
  if isRecording part.head = false then .error (.badRequest "INVALID_AUDIO_PART")
  else boundedContent limit part.content

def textOf (expected : String) : PartsM String := do
  let part ← partOf
  part.text expected

def fileOf (limit : ℕ) : PartsM (List UInt8) := do
  let part ← partOf
  part.audio limit

/-- The slot is free. -/
def slotOf (granted : Slot → Bool) (slot : Slot) : Except GatewayHttpError Unit :=
  if granted slot = true then .ok () else .error .rateLimited

/-- No part is left. -/
def lastOf : PartsM Unit
  | [] => .ok ((), [])
  | _ :: _ => .error (.badRequest "UNEXPECTED_MULTIPART_FIELD")

/-- What is made of a form of these parts. -/
def formOf (limit : ℕ) (configured : BatchIdentity → Bool) (granted : Slot → Bool) : PartsM BatchForm := do
  let contractVersion ← textOf "contract_version"
  let provider ← textOf "provider"
  let model ← textOf "model"
  let language ← textOf "language"
  let identity ← identityFromFields contractVersion provider model language
  if configured identity = false then throw .unsupportedProfile
  else
    slotOf granted (.provider identity)
    let rawKeyterms ← textOf "keyterms"
    let audio ← fileOf limit
    lastOf
    let keyterms ← parseKeyterms rawKeyterms
    return ⟨contractVersion, provider, model, language, keyterms, audio⟩

end Delivery

section Reading

variable {α β : Type} {granted : Slot → Bool} {fields : List (PartHead × List (List UInt8))}
  {chunks : List (List UInt8)} {limit fuel : ℕ}

/-- What a task makes of a form that arrives is made of its parts, and the parts it leaves have not begun. -/
def Reads (granted : Slot → Bool) (fuel : ℕ) (t : UploadTask (Except GatewayHttpError α)) (parse : PartsM α) : Prop :=
  ∀ fields : List (PartHead × List (List UInt8)), (∀ field ∈ fields, field.2.length < fuel) →
    ∃ w', Task.follow (deliver granted) ⟨fields, []⟩ t = some (w', (parse (fields.map joined)).map Prod.fst) ∧
      ∀ a rest, parse (fields.map joined) = .ok (a, rest) → ∃ fields', (∀ field ∈ fields', field.2.length < fuel) ∧
        w' = ⟨fields', []⟩ ∧ rest = fields'.map joined

theorem Reads.done (x : Except GatewayHttpError α) : Reads granted fuel (.done x) (x : PartsM α) := by
  intro fields hfuel
  refine ⟨⟨fields, []⟩, ?_, ?_⟩
  · cases x <;> rfl
  · intro a rest h
    cases x with
    | error e => cases h
    | ok b =>
      cases h
      exact ⟨fields, hfuel, rfl, rfl⟩

/-- Sequences compose through the value of their first part. -/
theorem Reads.andThen {t : UploadTask (Except GatewayHttpError α)} {parse : PartsM α}
    {next : α → UploadTask (Except GatewayHttpError β)} {rest : α → PartsM β} (h : Reads granted fuel t parse)
    (hnext : ∀ a, Reads granted fuel (next a) (rest a)) :
    Reads granted fuel (t.andThen next) (parse >>= rest) := by
  intro fields hfuel
  obtain ⟨w', hfollow, hrest⟩ := h fields hfuel
  rw [Task.andThen, Task.follow_bind, hfollow]
  have hbind : (parse >>= rest) (fields.map joined) =
      parse (fields.map joined) >>= fun (a, parts) => rest a parts := rfl
  rw [hbind]
  cases hparse : parse (fields.map joined) with
  | error e => exact ⟨w', rfl, nofun⟩
  | ok read =>
    obtain ⟨a, parts⟩ := read
    obtain ⟨fields', hfuel', rfl, rfl⟩ := hrest a parts hparse
    exact hnext a fields' hfuel'

theorem Reads.ite {condition : Prop} [Decidable condition] {t u : UploadTask (Except GatewayHttpError α)}
    {parse other : PartsM α} (h : condition → Reads granted fuel t parse)
    (h' : ¬ condition → Reads granted fuel u other) :
    Reads granted fuel (if condition then t else u) (if condition then parse else other) := by
  split
  · exact h ‹_›
  · exact h' ‹_›

/-- What a task makes of the part which has begun is made of its content. -/
def ReadsContent (granted : Slot → Bool) (fuel : ℕ) (t : UploadTask (Except GatewayHttpError α))
    (parse : List UInt8 → Except GatewayHttpError α) : Prop :=
  ∀ fields chunks, chunks.length < fuel →
    ∃ w', Task.follow (deliver granted) ⟨fields, chunks⟩ t = some (w', parse chunks.flatten) ∧
      ∀ a, parse chunks.flatten = .ok a → w' = ⟨fields, []⟩

theorem saturatingAdd_gt {a b limit : ℕ} (hlimit : limit < U64.MAX) :
    U64.saturatingAdd a b > limit ↔ limit < a + b := by
  simp [U64.saturatingAdd, hlimit]

/-- However a part is cut into chunks, it is read up to its limit. -/
theorem readsContent_readBounded (hlimit : limit < U64.MAX) :
    ReadsContent granted fuel (readBounded fuel limit) (boundedContent limit) := by
  intro fields chunks hfuel
  have hloop : ∀ (chunks : List (List UInt8)) (fuel : ℕ) (value : List UInt8), chunks.length < fuel →
      value.length ≤ limit →
        ∃ w', Task.follow (deliver granted) ⟨fields, chunks⟩
            (Task.repeatUntil (.own .cut) (readChunk limit) fuel value) =
              some (w', boundedContent limit (value ++ chunks.flatten)) ∧
          ∀ bytes, boundedContent limit (value ++ chunks.flatten) = .ok bytes → w' = ⟨fields, []⟩ := by
    intro chunks
    induction chunks with
    | nil =>
      intro fuel value hfuel hvalue
      obtain ⟨n, rfl⟩ : ∃ n, fuel = n + 1 := ⟨fuel - 1, by simp at hfuel; omega⟩
      have hbounded : boundedContent limit value = .ok value := if_neg (Nat.not_lt.mpr hvalue)
      rw [List.flatten_nil, List.append_nil, hbounded]
      exact ⟨⟨fields, []⟩, rfl, fun _ _ => rfl⟩
    | cons chunk rest ih =>
      intro fuel value hfuel hvalue
      obtain ⟨n, rfl⟩ : ∃ n, fuel = n + 1 := ⟨fuel - 1, by simp at hfuel; omega⟩
      rw [List.flatten_cons]
      by_cases hlarge : limit < value.length + chunk.length
      · have hbounded : boundedContent limit (value ++ (chunk ++ rest.flatten)) =
            .error (.badRequest "MULTIPART_FIELD_TOO_LARGE") := by
          refine if_pos ?_
          simp only [List.length_append]
          omega
        rw [hbounded]
        refine ⟨⟨fields, rest⟩, ?_, nofun⟩
        simp [Task.repeatUntil, readChunk, Task.call, Task.follow, deliver, arrived, saturatingAdd_gt hlimit, hlarge]
      · have hnext := ih n (value ++ chunk) (by simp at hfuel; omega) (by simp; omega)
        rw [List.append_assoc] at hnext
        obtain ⟨w', hfollow, hend⟩ := hnext
        refine ⟨w', ?_, hend⟩
        simp [Task.repeatUntil, readChunk, Task.call, Task.follow, deliver, arrived, saturatingAdd_gt hlimit, hlarge,
          hfollow]
  exact hloop chunks fuel [] hfuel (Nat.zero_le limit)

/-- What has been read is decided on. -/
theorem ReadsContent.andThen {t : UploadTask (Except GatewayHttpError α)}
    {parse : List UInt8 → Except GatewayHttpError α} (h : ReadsContent granted fuel t parse)
    (next : α → Except GatewayHttpError β) :
    ReadsContent granted fuel (t.andThen fun a => .done (next a)) (fun content => parse content >>= next) := by
  intro fields chunks hfuel
  obtain ⟨w', hfollow, hend⟩ := h fields chunks hfuel
  rw [Task.andThen, Task.follow_bind, hfollow]
  dsimp only
  cases hparse : parse chunks.flatten with
  | error e => exact ⟨w', rfl, fun a ha => nomatch ha⟩
  | ok a => exact ⟨w', rfl, fun _ _ => hend a hparse⟩

/-- A part is refused by its head, or read. -/
theorem ReadsContent.ite {condition : Prop} [Decidable condition] {e : GatewayHttpError}
    {t : UploadTask (Except GatewayHttpError α)} {parse : List UInt8 → Except GatewayHttpError α}
    (h : ReadsContent granted fuel t parse) :
    ReadsContent granted fuel (if condition then .done (.error e) else t)
      (fun content => if condition then .error e else parse content) := by
  intro fields chunks hfuel
  split
  · exact ⟨⟨fields, chunks⟩, rfl, nofun⟩
  · exact h fields chunks hfuel

/-- A part is read once it has begun. -/
theorem Reads.part {next : PartHead → UploadTask (Except GatewayHttpError α)} {parse : Part → Except GatewayHttpError α}
    (h : ∀ head, ReadsContent granted fuel (next head) fun content => parse ⟨head, content⟩) :
    Reads granted fuel (nextField.andThen next) (partOf >>= fun part => (parse part : PartsM α)) := by
  intro fields hfuel
  cases fields with
  | nil => exact ⟨⟨[], []⟩, rfl, nofun⟩
  | cons field rest =>
    obtain ⟨head, chunks⟩ := field
    obtain ⟨hchunks, hrest⟩ := List.forall_mem_cons.mp hfuel
    obtain ⟨w', hfollow, hend⟩ := h head rest chunks hchunks
    dsimp only at hfollow hend
    have hread : (partOf >>= fun part => (parse part : PartsM α)) (((head, chunks) :: rest).map joined) =
        (parse ⟨head, chunks.flatten⟩ >>= fun a => pure (a, rest.map joined)) := rfl
    rw [hread]
    refine ⟨w', hfollow.trans ?_, ?_⟩
    · cases hparse : parse ⟨head, chunks.flatten⟩ <;> rfl
    · intro a parts hparse
      obtain ⟨b, hb, hparts⟩ := bind_eq_ok.mp hparse
      obtain ⟨rfl, rfl⟩ := Prod.mk.inj (Except.ok.inj hparts)
      exact ⟨rest, hrest, hend b hb, rfl⟩

/-- The end of a form is seen. -/
theorem reads_readEnd : Reads granted fuel readEnd lastOf := by
  intro fields hfuel
  cases fields with
  | nil =>
    refine ⟨⟨[], []⟩, rfl, ?_⟩
    intro a rest h
    cases h
    exact ⟨[], nofun, rfl, rfl⟩
  | cons field rest => exact ⟨⟨rest, field.2⟩, rfl, nofun⟩

theorem reads_readTextField (expected : String) :
    Reads granted fuel (readTextField fuel expected) (textOf expected) :=
  .part fun _ => ((readsContent_readBounded (by decide)).andThen _).ite

/-- A slot is taken, or the form is refused. -/
theorem reads_acquireSlot (slot : Slot) :
    Reads granted fuel (acquireSlot slot) (slotOf granted slot : PartsM Unit) := by
  have hdecided : Reads granted fuel (.done (slotOf granted slot)) (slotOf granted slot : PartsM Unit) := .done _
  exact fun fields hfuel => hdecided fields hfuel

theorem reads_readFile (hlimit : limit < U64.MAX) :
    Reads granted fuel (readFile fuel limit) (fileOf limit) :=
  .part fun _ => (readsContent_readBounded hlimit).ite

/-- Whatever arrives is read as the form of its parts. -/
theorem reads_parseMultipart (hlimit : limit < U64.MAX) (configured : BatchIdentity → Bool) :
    Reads granted fuel (parseMultipart fuel limit configured) (formOf limit configured granted) := by
  refine (reads_readTextField "contract_version").andThen fun contractVersion => ?_
  refine (reads_readTextField "provider").andThen fun provider => ?_
  refine (reads_readTextField "model").andThen fun model => ?_
  refine (reads_readTextField "language").andThen fun language => ?_
  refine (Reads.done _).andThen fun identity => ?_
  refine Reads.ite (fun _ => Reads.done _) fun _ => ?_
  refine (reads_acquireSlot _).andThen fun _ => ?_
  refine (reads_readTextField "keyterms").andThen fun rawKeyterms => ?_
  refine (reads_readFile hlimit).andThen fun audio => reads_readEnd.andThen fun _ => ?_
  exact (Reads.done _).andThen fun keyterms => Reads.done _

end Reading

section Exactness

variable {limit : ℕ} {configured : BatchIdentity → Bool} {granted : Slot → Bool} {parts rest : List Part} {part : Part}

/-- A sequence succeeds when both of its parts do. -/
theorem stateT_bind_eq_ok {α β : Type} {x : PartsM α} {f : α → PartsM β} {b : β} :
    (x >>= f) parts = .ok (b, rest) ↔ ∃ a middle, x parts = .ok (a, middle) ∧ f a middle = .ok (b, rest) := by
  have hbind : (x >>= f) parts = x parts >>= fun (a, middle) => f a middle := rfl
  rw [hbind, bind_eq_ok, Prod.exists]

theorem lift_eq_ok {α : Type} {x : Except GatewayHttpError α} {a : α} :
    (x : PartsM α) parts = .ok (a, rest) ↔ x = .ok a ∧ parts = rest := by
  cases x with
  | error e => exact ⟨nofun, nofun⟩
  | ok b =>
    constructor
    · intro h
      cases h
      exact ⟨rfl, rfl⟩
    · rintro ⟨⟨⟩, rfl⟩
      rfl

theorem boundedContent_eq_ok {content bytes : List UInt8} :
    boundedContent limit content = .ok bytes ↔ content.length ≤ limit ∧ content = bytes := by
  rw [boundedContent, ite_error_eq_ok, not_lt, Except.ok.injEq]

theorem text_eq_ok {expected value : String} : part.text expected = .ok value ↔ IsText expected value part := by
  rw [Part.text, ite_error_eq_ok, bind_eq_ok]
  simp only [boundedContent_eq_ok, elim_eq_ok, Text.fromUtf8_eq_some, not_or, not_not, Bool.not_eq_true,
    Option.isSome_eq_false_iff, Option.isNone_iff_eq_none]
  constructor
  · rintro ⟨⟨hname, hfile⟩, bytes, ⟨hlength, rfl⟩, hvalue⟩
    exact ⟨hname, hfile, hvalue.symm, hlength⟩
  · intro h
    exact ⟨⟨h.name, h.fileName⟩, part.content, ⟨h.length_le, rfl⟩, h.content.symm⟩

theorem audio_eq_ok {audio : List UInt8} : part.audio limit = .ok audio ↔ IsFile limit audio part := by
  rw [Part.audio, ite_error_eq_ok, boundedContent_eq_ok, Bool.not_eq_false]
  constructor
  · rintro ⟨hrecording, hlength, haudio⟩
    exact ⟨hrecording, haudio, hlength⟩
  · intro h
    exact ⟨h.recording, h.length_le, h.content⟩

theorem partOf_eq_ok : partOf parts = .ok (part, rest) ↔ parts = part :: rest := by
  cases parts with
  | nil => exact ⟨nofun, nofun⟩
  | cons first others => simp [partOf]

theorem textOf_eq_ok {expected value : String} :
    textOf expected parts = .ok (value, rest) ↔ ∃ part, parts = part :: rest ∧ IsText expected value part := by
  simp only [textOf, stateT_bind_eq_ok, partOf_eq_ok, lift_eq_ok, text_eq_ok]
  constructor
  · rintro ⟨part, middle, rfl, htext, rfl⟩
    exact ⟨part, rfl, htext⟩
  · rintro ⟨part, rfl, htext⟩
    exact ⟨part, rest, rfl, htext, rfl⟩

theorem fileOf_eq_ok {audio : List UInt8} :
    fileOf limit parts = .ok (audio, rest) ↔ ∃ part, parts = part :: rest ∧ IsFile limit audio part := by
  simp only [fileOf, stateT_bind_eq_ok, partOf_eq_ok, lift_eq_ok, audio_eq_ok]
  constructor
  · rintro ⟨part, middle, rfl, hfile, rfl⟩
    exact ⟨part, rfl, hfile⟩
  · rintro ⟨part, rfl, hfile⟩
    exact ⟨part, rest, rfl, hfile, rfl⟩

theorem lastOf_eq_ok {last : Unit} : lastOf parts = .ok (last, rest) ↔ parts = [] ∧ rest = [] := by
  cases parts with
  | nil => simp [lastOf, eq_comm]
  | cons part others => simp [lastOf]

/-- Whether the profile of a form is served, and its slot is free. -/
def Serviceable (configured : BatchIdentity → Bool) (granted : Slot → Bool) (form : BatchForm) : Prop :=
  ∃ identity, form.identity = .ok identity ∧ configured identity = true ∧ granted (.provider identity) = true

/-- A form is made of its six parts, when its profile is served and its slot is free. -/
theorem formOf_eq_ok {form : BatchForm} :
    formOf limit configured granted parts = .ok (form, rest) ↔
      rest = [] ∧ IsForm limit parts form ∧ Serviceable configured granted form := by
  constructor
  · intro h
    replace ⟨contractVersion, _, hread, h⟩ := stateT_bind_eq_ok.mp h
    obtain ⟨versionPart, rfl, hversion⟩ := textOf_eq_ok.mp hread
    replace ⟨provider, _, hread, h⟩ := stateT_bind_eq_ok.mp h
    obtain ⟨providerPart, rfl, hprovider⟩ := textOf_eq_ok.mp hread
    replace ⟨model, _, hread, h⟩ := stateT_bind_eq_ok.mp h
    obtain ⟨modelPart, rfl, hmodel⟩ := textOf_eq_ok.mp hread
    replace ⟨language, _, hread, h⟩ := stateT_bind_eq_ok.mp h
    obtain ⟨languagePart, rfl, hlanguage⟩ := textOf_eq_ok.mp hread
    replace ⟨identity, _, hread, h⟩ := stateT_bind_eq_ok.mp h
    obtain ⟨hidentity, rfl⟩ := lift_eq_ok.mp hread
    split at h
    · cases h
    rename_i hconfigured
    replace ⟨_, _, hread, h⟩ := stateT_bind_eq_ok.mp h
    obtain ⟨hslot, rfl⟩ := lift_eq_ok.mp hread
    obtain ⟨hgranted, -⟩ := ite_ok_eq_ok.mp hslot
    replace ⟨rawKeyterms, _, hread, h⟩ := stateT_bind_eq_ok.mp h
    obtain ⟨keytermsPart, rfl, hkeyterms⟩ := textOf_eq_ok.mp hread
    replace ⟨audio, _, hread, h⟩ := stateT_bind_eq_ok.mp h
    obtain ⟨filePart, rfl, hfile⟩ := fileOf_eq_ok.mp hread
    replace ⟨_, _, hread, h⟩ := stateT_bind_eq_ok.mp h
    obtain ⟨rfl, rfl⟩ := lastOf_eq_ok.mp hread
    replace ⟨keyterms, _, hread, h⟩ := stateT_bind_eq_ok.mp h
    obtain ⟨hcanonical, rfl⟩ := lift_eq_ok.mp hread
    cases h
    exact ⟨rfl, .parts hversion hprovider hmodel hlanguage hkeyterms hcanonical hfile, identity, hidentity,
      Bool.eq_true_of_not_eq_false hconfigured, hgranted⟩
  · rintro ⟨rfl, hform, identity, hidentity, hconfigured, hgranted⟩
    cases hform with
    | parts hversion hprovider hmodel hlanguage hkeyterms hcanonical hfile =>
      refine stateT_bind_eq_ok.mpr ⟨_, _, textOf_eq_ok.mpr ⟨_, rfl, hversion⟩, ?_⟩
      refine stateT_bind_eq_ok.mpr ⟨_, _, textOf_eq_ok.mpr ⟨_, rfl, hprovider⟩, ?_⟩
      refine stateT_bind_eq_ok.mpr ⟨_, _, textOf_eq_ok.mpr ⟨_, rfl, hmodel⟩, ?_⟩
      refine stateT_bind_eq_ok.mpr ⟨_, _, textOf_eq_ok.mpr ⟨_, rfl, hlanguage⟩, ?_⟩
      refine stateT_bind_eq_ok.mpr ⟨identity, _, lift_eq_ok.mpr ⟨hidentity, rfl⟩, ?_⟩
      rw [if_neg (by simp [hconfigured])]
      refine stateT_bind_eq_ok.mpr ⟨(), _, lift_eq_ok.mpr ⟨if_pos hgranted, rfl⟩, ?_⟩
      refine stateT_bind_eq_ok.mpr ⟨_, _, textOf_eq_ok.mpr ⟨_, rfl, hkeyterms⟩, ?_⟩
      refine stateT_bind_eq_ok.mpr ⟨_, _, fileOf_eq_ok.mpr ⟨_, rfl, hfile⟩, ?_⟩
      refine stateT_bind_eq_ok.mpr ⟨(), _, lastOf_eq_ok.mpr ⟨rfl, rfl⟩, ?_⟩
      exact stateT_bind_eq_ok.mpr ⟨_, _, lift_eq_ok.mpr ⟨hcanonical, rfl⟩, rfl⟩

/-- However the parts of an upload are cut into chunks, it is answered like every other upload of these parts, and
accepted exactly when they are a form whose profile is served and whose slot is free. -/
theorem parseMultipart_exact (hlimit : limit < U64.MAX) (configured : BatchIdentity → Bool) (granted : Slot → Bool)
    {fuel : ℕ} {fields : List (PartHead × List (List UInt8))} (hfuel : ∀ field ∈ fields, field.2.length < fuel) :
    ∃ w' answer,
      Task.follow (deliver granted) ⟨fields, []⟩ (parseMultipart fuel limit configured) = some (w', answer) ∧
        answer = (formOf limit configured granted (fields.map joined)).map Prod.fst ∧
          ∀ form, answer = .ok form ↔ IsForm limit (fields.map joined) form ∧ Serviceable configured granted form := by
  obtain ⟨w', hfollow, -⟩ := reads_parseMultipart hlimit configured fields hfuel
  refine ⟨w', _, hfollow, rfl, fun form => ?_⟩
  rw [map_eq_ok]
  constructor
  · rintro ⟨⟨_, rest⟩, hform, rfl⟩
    exact (formOf_eq_ok.mp hform).2
  · rintro ⟨hform, hserviceable⟩
    exact ⟨(form, []), formOf_eq_ok.mpr ⟨rfl, hform, hserviceable⟩, rfl⟩

/-- A small form, in small chunks. -/
def sampleFields : List (PartHead × List (List UInt8)) :=
  [(⟨some "contract_version", none, none⟩, [[0x32]]),
    (⟨some "provider", none, some "text/plain"⟩, [[0x64, 0x65, 0x65, 0x70], [], [0x67, 0x72, 0x61, 0x6d]]),
    (⟨some "model", none, none⟩, [[0x6e, 0x6f, 0x76, 0x61, 0x2d, 0x33]]),
    (⟨some "language", none, none⟩, [[0x6d], [0x75, 0x6c, 0x74, 0x69]]),
    (⟨some "keyterms", none, none⟩, [[0x5b, 0x5d]]),
    (⟨some "file", some "speaker-track.ogg", some "audio/ogg"⟩, [[1], [2]])]

/-- What the sample form says. -/
def sampleForm : BatchForm := ⟨"2", "deepgram", "nova-3", "multi", [], [1, 2]⟩

/-- The sample form with a recording in these chunks. -/
def sampleUpload (chunks : List (List UInt8)) : List (PartHead × List (List UInt8)) :=
  sampleFields.take 5 ++ [(⟨some "file", some "speaker-track.ogg", some "audio/ogg"⟩, chunks)]

theorem isForm_sampleUpload {audio : List UInt8} (hchunks : chunks.flatten = audio) (hlength : audio.length ≤ limit) :
    IsForm limit ((sampleUpload chunks).map joined) { sampleForm with audio } := by
  have hkeyterms : parseKeyterms "[]" = .ok [] := by
    have htext : (Json.array []).toText = "[]" := by decide
    rw [parseKeyterms, ← htext, Json.parse_toText (by decide)]
    decide +kernel
  have htext (name value : String) (contentType : Option String) (content : List UInt8)
      (h : Text.fromUtf8 content = some value ∧ content.length ≤ MAX_TEXT_FIELD_BYTES) :
      IsText name value ⟨⟨some name, none, contentType⟩, content⟩ :=
    ⟨rfl, rfl, (Text.fromUtf8_eq_some.mp h.1).symm, h.2⟩
  have hversion := htext "contract_version" "2" none [0x32] (by decide +kernel)
  have hprovider := htext "provider" "deepgram" (some "text/plain") [0x64, 0x65, 0x65, 0x70, 0x67, 0x72, 0x61, 0x6d]
    (by decide +kernel)
  have hmodel := htext "model" "nova-3" none [0x6e, 0x6f, 0x76, 0x61, 0x2d, 0x33] (by decide +kernel)
  have hlanguage := htext "language" "multi" none [0x6d, 0x75, 0x6c, 0x74, 0x69] (by decide +kernel)
  have hterms := htext "keyterms" "[]" none [0x5b, 0x5d] (by decide +kernel)
  have hrecording : isRecording ⟨some "file", some "speaker-track.ogg", some "audio/ogg"⟩ = true := by decide
  have hfile : IsFile limit audio ⟨⟨some "file", some "speaker-track.ogg", some "audio/ogg"⟩, chunks.flatten⟩ :=
    ⟨hrecording, hchunks, by rw [hchunks]; exact hlength⟩
  exact .parts hversion hprovider hmodel hlanguage hterms hkeyterms hfile

/-- The sample form is read. -/
theorem parseMultipart_exact_sample : ∃ w',
    Task.follow (deliver fun _ => true) ⟨sampleFields, []⟩ (parseMultipart 4 64 fun _ => true) =
      some (w', .ok sampleForm) := by
  have hform : IsForm 64 (sampleFields.map joined) sampleForm := isForm_sampleUpload rfl (by decide)
  obtain ⟨w', answer, hfollow, -, hexact⟩ := parseMultipart_exact (show 64 < U64.MAX by decide) (fun _ => true)
    (fun _ => true) (show ∀ field ∈ sampleFields, field.2.length < 4 by decide)
  have hanswer : answer = .ok sampleForm := (hexact sampleForm).mpr ⟨hform, .deepgramNova3MultiV2, rfl, rfl, rfl⟩
  exact ⟨w', hanswer ▸ hfollow⟩

end Exactness

end Voicetext.Gateway.Server.Upload
