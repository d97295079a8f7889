import Voicetext.Common.Dues
import Voicetext.Gateway.Runs
import Voicetext.Gateway.Server.SpoolMetrics

/-!
# The world of the metered calls

Post requests with their executions and the backlog worker share the gateway's world and the spool's metrics.
Beside them stand the spool as the listener found it and the books of what each call still owes the gauge; both
are ghost state which no call reads. No call of the ledger or the spool fails here.
-/

namespace Voicetext.Gateway.Server

open Voicetext.Common Voicetext.Speech.Application Voicetext.Gateway Voicetext.Gateway.Storage

variable {ι : Type*}

/-- Bytes of the artifact a handle names. -/
def artifactBytes (spool : Spool) (handle : BatchAudioHandle) : ℕ :=
  (spool.artifacts.lookup handle.asStr).elim 0 fun file => file.2.length

/-- What the calls have done to the spool and not to the gauge. -/
structure SpoolBooks (ι : Type*) where
  /-- The calls which have taken a step. -/
  begun : List ι
  /-- Artifacts a call has created and has not removed as superfluous. -/
  created : Dues ι BatchAudioHandle
  /-- Bytes of the artifacts for which a call has inserted a row, to be added. -/
  admitted : Dues ι ℕ
  /-- Bytes of the artifacts a call has removed and which were accounted for, to be subtracted. -/
  removed : Dues ι ℕ

def SpoolBooks.empty : SpoolBooks ι := ⟨[], [], [], []⟩

/-- A call takes a step. -/
def SpoolBooks.enter (books : SpoolBooks ι) (i : ι) : SpoolBooks ι := { books with begun := i :: books.begun }

structure MeteredWorld (ι : Type*) where
  gateway : GatewayWorld ι
  metrics : SpoolMetrics
  /-- The spool when the listener started. -/
  opening : Spool
  books : SpoolBooks ι

namespace MeteredWorld

variable (w : MeteredWorld ι)

/-- Some row names the artifact. -/
def named (handle : BatchAudioHandle) : Bool := w.gateway.ledger.rows.any fun row => row.audio = handle

/-- The gauge accounts for an artifact from the start, or since a row names it. -/
def accounted (handle : BatchAudioHandle) : Bool := w.opening.holds handle || w.named handle

/-- Bytes of the stored artifacts which are accounted for. -/
def accountedBytes : ℕ :=
  (w.gateway.spool.artifacts.rows.map fun file => if w.accounted ⟨file.1⟩ then file.2.length else 0).sum

variable [DecidableEq ι]

/-- The books after an operation of the ledger, the spool or the provider. -/
def booksAfter (i : ι) : (op : GatewayOp) → op.Reply → SpoolBooks ι
  | .insertRow snapshot, reply =>
    match (reply : Except BatchJobStoreFailure Bool) with
    | .ok true =>
      { w.books with admitted := (i, artifactBytes w.gateway.spool snapshot.audio) :: w.books.admitted }
    | _ => w.books
  | .storeAudio _ _, reply =>
    match (reply : Except BatchAudioSpoolFailure BatchAudioStoreOutcome) with
    | .ok (.stored handle) => { w.books with created := (i, handle) :: w.books.created }
    | _ => w.books
  | .removeAudio handle, reply =>
    if w.accounted handle then
      match (reply : Except BatchAudioSpoolFailure BatchAudioRemoveOutcome) with
      | .ok .removed => { w.books with removed := (i, artifactBytes w.gateway.spool handle) :: w.books.removed }
      | _ => w.books
    else { w.books with created := Dues.settle i w.books.created }
  | .selectRow _, _ | .updateRow _ _, _ | .selectRecoveryHead, _ | .selectRecoveryPage _ _ _, _ | .readAudio _, _
  | .recognize _, _ => w.books

end MeteredWorld

variable [DecidableEq ι]

/-- Serve one operation, with its effect on the gateway, the metrics and the books. -/
def serveMetered (config : GatewayConfig) (i : ι) (w : MeteredWorld ι) :
    (op : MeteredOp) → ServerChoice → Option (MeteredWorld ι × op.Reply)
  | .port op, choice => (serve config i w.gateway op choice).map fun (gateway, reply) =>
    ({ w with gateway, books := (w.booksAfter i op reply).enter i }, reply)
  | .spoolAdmitted bytes, _ =>
    some ({ w with
      metrics := w.metrics.spoolAdmitted bytes
      books := { w.books.enter i with admitted := Dues.settle i w.books.admitted } }, ())
  | .spoolTerminalCleaned bytes, _ =>
    some ({ w with
      metrics := w.metrics.spoolTerminalCleaned bytes
      books := { w.books.enter i with removed := Dues.settle i w.books.removed } }, ())

/-- Whether a call of the ledger or the spool did not fail. -/
def succeeds : (op : MeteredOp) → op.Reply → Bool
  | .port (.selectRow _), reply => Except.isOk (α := Option BatchJobSnapshot) reply
  | .port (.insertRow _), reply => Except.isOk (α := Bool) reply
  | .port (.updateRow _ _), reply => Except.isOk (α := Option BatchJobSnapshot) reply
  | .port .selectRecoveryHead, reply => Except.isOk (α := Option BatchJobId) reply
  | .port (.selectRecoveryPage _ _ _), reply => Except.isOk (α := List BatchJobSnapshot) reply
  | .port (.storeAudio _ _), reply => Except.isOk (α := BatchAudioStoreOutcome) reply
  | .port (.readAudio _), reply => Except.isOk (α := List UInt8) reply
  | .port (.removeAudio _), reply => Except.isOk (α := BatchAudioRemoveOutcome) reply
  | .port (.recognize _), _ | .spoolAdmitted _, _ | .spoolTerminalCleaned _, _ => true

section Specifications

variable {config : GatewayConfig} {i : ι} {w w' : MeteredWorld ι} {choice : ServerChoice}

/-- What a step leaves of the ledger, the artifacts, the metrics and the books. -/
structure Becomes (w w' : MeteredWorld ι) (ledger : JobTable)
    (artifacts : SortedTable fun file : String × List UInt8 => file.1) (metrics : SpoolMetrics)
    (books : SpoolBooks ι) : Prop where
  ledger : w'.gateway.ledger = ledger
  artifacts : w'.gateway.spool.artifacts = artifacts
  metrics : w'.metrics = metrics
  opening : w'.opening = w.opening
  books : w'.books = books

/-- A step which only the books of those who have begun know of. -/
def Untouched (i : ι) (w w' : MeteredWorld ι) : Prop :=
  Becomes w w' w.gateway.ledger w.gateway.spool.artifacts w.metrics (w.books.enter i)

/-- Rows of one job, for the same request and with the same audio. -/
structure SameRequest (row row' : BatchJobSnapshot) : Prop where
  id : row'.id = row.id
  fingerprint : row'.job.fingerprint = row.job.fingerprint
  audio : row'.audio = row.audio

theorem SameRequest.refl (row : BatchJobSnapshot) : SameRequest row row := ⟨rfl, rfl, rfl⟩

theorem SameRequest.trans {row row' row'' : BatchJobSnapshot} (h : SameRequest row row')
    (h' : SameRequest row' row'') : SameRequest row row'' :=
  ⟨h'.id.trans h.id, h'.fingerprint.trans h.fingerprint, h'.audio.trans h.audio⟩

theorem serve_port {op : GatewayOp} {reply : op.Reply}
    (h : serveMetered config i w (.port op) choice = some (w', reply)) :
    ∃ gateway, serve config i w.gateway op choice = some (gateway, reply) ∧
      w' = { w with gateway, books := (w.booksAfter i op reply).enter i } := by
  obtain ⟨⟨gateway, result⟩, hserve, heq⟩ := Option.map_eq_some_iff.mp h
  obtain ⟨rfl, rfl⟩ := Prod.mk.inj heq
  exact ⟨gateway, hserve, rfl⟩

omit [DecidableEq ι] in
/-- A query touches nothing and answers from the ledger. -/
theorem query_spec {α : Type} {answer : α} {gateway : GatewayWorld ι} {reply : Except BatchJobStoreFailure α}
    (h : serveQuery w.gateway answer choice = some (gateway, reply)) (hok : reply.isOk = true) :
    Untouched i w { w with gateway, books := w.books.enter i } ∧ reply = .ok answer := by
  obtain ⟨rfl, rfl | ⟨-, failure, rfl⟩⟩ := serveQuery_cases h
  · exact ⟨⟨rfl, rfl, rfl, rfl, rfl⟩, rfl⟩
  · cases hok

theorem selectRow_spec {id : BatchJobId} {reply : Except BatchJobStoreFailure (Option BatchJobSnapshot)}
    (h : serveMetered config i w (.port (.selectRow id)) choice = some (w', reply)) (hok : reply.isOk = true) :
    Untouched i w w' ∧ reply = .ok (w.gateway.ledger.lookup id.asStr) := by
  obtain ⟨gateway, hserve, rfl⟩ := serve_port h
  exact query_spec hserve hok

theorem selectRecoveryPage_spec {after through : Option BatchJobId} {limit : ℕ}
    {reply : Except BatchJobStoreFailure (List BatchJobSnapshot)}
    (h : serveMetered config i w (.port (.selectRecoveryPage after through limit)) choice = some (w', reply))
    (hok : reply.isOk = true) :
    Untouched i w w' ∧ reply = .ok (JobTable.recoveryPage w.gateway.ledger after through limit) := by
  obtain ⟨gateway, hserve, rfl⟩ := serve_port h
  exact query_spec hserve hok

/-- An insert writes the initial row of a new job, or finds that the job has one. -/
theorem insertRow_spec {snapshot : BatchJobSnapshot} {reply : Except BatchJobStoreFailure Bool}
    (h : serveMetered config i w (.port (.insertRow snapshot)) choice = some (w', reply))
    (hok : reply.isOk = true) :
    (w.gateway.ledger.lookup snapshot.id.asStr = none ∧ reply = .ok true ∧
        Becomes w w' (w.gateway.ledger.put (untyped snapshot)) w.gateway.spool.artifacts w.metrics
          (SpoolBooks.enter { w.books with
            admitted := (i, artifactBytes w.gateway.spool snapshot.audio) :: w.books.admitted } i)) ∨
      (∃ row, w.gateway.ledger.lookup snapshot.id.asStr = some row) ∧ reply = .ok false ∧ Untouched i w w' := by
  obtain ⟨gateway, hserve, rfl⟩ := serve_port h
  obtain ⟨⟨g, result⟩, hs, heq⟩ := Option.map_eq_some_iff.mp hserve
  obtain ⟨rfl, rfl⟩ := Prod.mk.inj heq
  rcases serveStatement_cases hs with ⟨row, hplan, rfl, rfl | ⟨failure, rfl⟩⟩ |
    ⟨rfl, ⟨hplan, rfl⟩ | ⟨failure, rfl⟩⟩
  · obtain ⟨habsent, rfl⟩ := JobTable.insertRow_some hplan
    exact .inl ⟨habsent, rfl, rfl, rfl, rfl, rfl, rfl⟩
  · cases hok
  · exact .inr ⟨JobTable.insertRow_none hplan, rfl, rfl, rfl, rfl, rfl, rfl⟩
  · cases hok

/-- An update writes over a row of the same request, or changes nothing. -/
theorem updateRow_spec {expected : UInt64} {replacement : BatchJobSnapshot}
    {reply : Except BatchJobStoreFailure (Option BatchJobSnapshot)}
    (h : serveMetered config i w (.port (.updateRow expected replacement)) choice = some (w', reply))
    (hok : reply.isOk = true) :
    (∃ current row, w.gateway.ledger.lookup row.id.asStr = some current ∧ SameRequest current row ∧
        SameRequest replacement row ∧ reply = .ok (some row) ∧
        Becomes w w' (w.gateway.ledger.put row) w.gateway.spool.artifacts w.metrics (w.books.enter i)) ∨
      reply = .ok none ∧ Untouched i w w' := by
  obtain ⟨gateway, hserve, rfl⟩ := serve_port h
  rcases serveStatement_cases hserve with ⟨row, hplan, rfl, rfl | ⟨failure, rfl⟩⟩ |
    ⟨rfl, ⟨hplan, rfl⟩ | ⟨failure, rfl⟩⟩
  · obtain ⟨current, hcurrent, hkeeps⟩ := JobTable.updateRow_keeps hplan
    obtain ⟨-, -, rfl, -⟩ := JobTable.updateRow_some hplan
    simp only [sameImmutable, Bool.and_eq_true, decide_eq_true_eq] at hkeeps
    exact .inl ⟨current, { untyped replacement with revision := expected + 1 }, hcurrent,
      ⟨hkeeps.1.1.1.1.1.symm, hkeeps.1.1.1.2.symm, hkeeps.1.1.2.symm⟩, ⟨rfl, rfl, rfl⟩, rfl, rfl, rfl, rfl, rfl, rfl⟩
  · cases hok
  · exact .inr ⟨rfl, rfl, rfl, rfl, rfl, rfl⟩
  · cases hok

/-- A store creates the artifact of its audio, or finds one with the same digest. -/
theorem storeAudio_spec {id : BatchJobId} {audio : List UInt8}
    {reply : Except BatchAudioSpoolFailure BatchAudioStoreOutcome}
    (h : serveMetered config i w (.port (.storeAudio id audio)) choice = some (w', reply))
    (hok : reply.isOk = true) :
    config.codec.isCanonical id.asStr = true ∧
      (w.gateway.spool.holds (config.handle id audio) = false ∧ reply = .ok (.stored (config.handle id audio)) ∧
          Becomes w w' w.gateway.ledger
            (w.gateway.spool.artifacts.put ((config.handle id audio).asStr, audio)) w.metrics
            (SpoolBooks.enter { w.books with
              created := (i, config.handle id audio) :: w.books.created } i) ∨
        (∃ file, w.gateway.spool.artifacts.lookup (config.handle id audio).asStr = some file ∧
            config.digest file.2 = config.digest audio) ∧
          reply = .ok (.existing (config.handle id audio)) ∧ Untouched i w w') := by
  obtain ⟨gateway, hserve, rfl⟩ := serve_port h
  cases choice with
  | served =>
    simp only [serve, serveStore] at hserve
    rcases config.storeBlocking_cases w.gateway.spool id audio with
      ⟨failure, heq⟩ | ⟨hid, spool', ⟨heq, -, hartifacts⟩ | ⟨heq, habsent, hartifacts⟩⟩
    · rw [heq] at hserve
      cases hserve
      cases hok
    · have hverified := SpoolConfig.verified_of_existing heq
      rw [heq] at hserve
      cases hserve
      exact ⟨hid, .inr ⟨hverified, rfl, rfl, hartifacts, rfl, rfl, rfl⟩⟩
    · rw [heq] at hserve
      cases hserve
      exact ⟨hid, .inl ⟨habsent, rfl, rfl, hartifacts, rfl, rfl, rfl⟩⟩
  | spoolFails failure progress => cases hserve; cases hok
  | ledgerFails failure committed => cases hserve
  | answers outcome => cases hserve

/-- A read touches nothing, and what it reads has the handle's digest. -/
theorem readAudio_spec {handle : BatchAudioHandle} {reply : Except BatchAudioSpoolFailure (List UInt8)}
    (h : serveMetered config i w (.port (.readAudio handle)) choice = some (w', reply))
    (hok : reply.isOk = true) :
    Untouched i w w' ∧ ∃ audio parsed name, reply = .ok audio ∧
      parseHandle config.codec handle.asStr = .ok parsed ∧
      w.gateway.spool.artifacts.lookup handle.asStr = some (name, audio) ∧
      config.digest audio = parsed.digest := by
  obtain ⟨gateway, hserve, rfl⟩ := serve_port h
  cases choice with
  | served =>
    obtain ⟨rfl, rfl⟩ := Prod.mk.inj (Option.some.inj hserve)
    refine ⟨⟨rfl, rfl, rfl, rfl, rfl⟩, ?_⟩
    cases hread : config.readBlocking w.gateway.spool handle with
    | error failure =>
      rw [hread] at hok
      cases hok
    | ok audio =>
      obtain ⟨parsed, name, hparsed, hlookup, hdigest⟩ := SpoolConfig.readBlocking_eq_ok hread
      exact ⟨audio, parsed, name, rfl, hparsed, hlookup, hdigest⟩
  | spoolFails failure progress => cases hserve; cases hok
  | ledgerFails failure committed => cases hserve
  | answers outcome => cases hserve

/-- A removal takes its artifact away, and the books tell an accounted artifact from a superfluous one. -/
theorem removeAudio_spec {handle : BatchAudioHandle}
    {reply : Except BatchAudioSpoolFailure BatchAudioRemoveOutcome}
    (h : serveMetered config i w (.port (.removeAudio handle)) choice = some (w', reply))
    (hok : reply.isOk = true) :
    Becomes w w' w.gateway.ledger (w.gateway.spool.artifacts.erase handle.asStr) w.metrics
        ((w.booksAfter i (.removeAudio handle) reply).enter i) ∧
      reply = .ok (if w.gateway.spool.holds handle then .removed else .alreadyMissing) := by
  obtain ⟨gateway, hserve, rfl⟩ := serve_port h
  cases choice with
  | served =>
    simp only [serve, serveRemove] at hserve
    split at hserve
    · rename_i spool' outcome heq
      obtain ⟨rfl, rfl⟩ := Prod.mk.inj (Option.some.inj hserve)
      obtain ⟨hartifacts, rfl⟩ := SpoolConfig.removeBlocking_outcome heq
      exact ⟨⟨rfl, hartifacts, rfl, rfl, rfl⟩, rfl⟩
    · cases hserve
      cases hok
  | spoolFails failure progress => cases hserve; cases hok
  | ledgerFails failure committed => cases hserve
  | answers outcome => cases hserve

theorem recognize_spec {request : BatchRecognitionRequest} {reply : Recognition}
    (h : serveMetered config i w (.port (.recognize request)) choice = some (w', reply)) : Untouched i w w' := by
  obtain ⟨gateway, hserve, rfl⟩ := serve_port h
  cases choice with
  | answers outcome => cases hserve; exact ⟨rfl, rfl, rfl, rfl, rfl⟩
  | served => cases hserve
  | spoolFails failure progress => cases hserve
  | ledgerFails failure committed => cases hserve

end Specifications

end Voicetext.Gateway.Server
