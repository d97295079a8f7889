import Mathlib.Data.List.AList
import Voicetext.Common.CrashLogic
import Voicetext.Common.U64
import Voicetext.Gateway.Storage.Spool

/-!
# Spool mutations one file-system step at a time

The spool directory holds audio artifacts, identity claims and temporary files side by side, and
whatever else was put there. A mutation is a task over single file-system calls; each of them may
fail, and the process may stop between any two. What has taken effect is recorded beside the directory.
-/

namespace Voicetext.Gateway.Storage

open Voicetext.Common Voicetext.Speech.Application

/-- A file name, which need not be text. -/
inductive FileName
  | text (name : String)
  | raw (bytes : List UInt8)
deriving DecidableEq

/-- `OsStr::to_str`. -/
def FileName.toStr : FileName → Option String
  | .text name => some name
  | .raw _ => none

inductive FileType
  | file
  | directory
  | symlink
  | other
deriving DecidableEq

/-- A directory entry; its times are nanoseconds from an epoch, where the platform has them. -/
structure DirectoryEntry where
  fileType : FileType
  contents : List UInt8
  modified : Option ℤ
deriving DecidableEq

abbrev Directory := AList fun _ : FileName => DirectoryEntry

/-- What `symlink_metadata` reports. -/
structure Metadata where
  fileType : FileType
  len : ℕ
  modified : Option ℤ

def DirectoryEntry.metadata (entry : DirectoryEntry) : Metadata :=
  ⟨entry.fileType, entry.contents.length, entry.modified⟩

/-- `std::io::ErrorKind` by its debug spelling, which consists of letters. -/
structure ErrorKind where
  debug : String
  letters : debug.toList.all Char.isAlpha = true
deriving DecidableEq

namespace ErrorKind

def notFound : ErrorKind := ⟨"NotFound", by decide⟩

def alreadyExists : ErrorKind := ⟨"AlreadyExists", by decide⟩

/-- The stable code of a failure, a label and the kind in upper case. -/
def code (label : String) (kind : ErrorKind) : String :=
  String.ofList ((label ++ kind.debug).toList.map Char.toUpper)

end ErrorKind

/-- One awaited interaction of the spool with its directory, its lock or the ledger. -/
inductive SpoolOp
  | newUuid
  | readDir
  | symlinkMetadata (name : FileName)
  | pathExists (name : FileName)
  | readFile (name : FileName) (limit : ℕ)
  | createNew (name : FileName)
  | writeAll (name : FileName) (contents : List UInt8)
  | syncAll (name : FileName)
  | hardLink (source target : FileName)
  | removeFile (name : FileName)
  | syncDirectory
  | lockMutation
  | spawnBlocking
  | loadRow (id : BatchJobId)

/-- What each operation replies; a listing may break off with a failure. -/
def SpoolOp.Reply (codec : UuidCodec) : SpoolOp → Type
  | newUuid => codec.Uuid
  | readDir => Except ErrorKind (List FileName × Option ErrorKind)
  | symlinkMetadata _ => Except ErrorKind Metadata
  | pathExists _ | lockMutation | spawnBlocking => Bool
  | readFile _ _ => Except ErrorKind (List UInt8)
  | createNew _ | writeAll _ _ | syncAll _ | hardLink _ _ | removeFile _ | syncDirectory =>
    Except ErrorKind Unit
  | loadRow _ => Except BatchJobStoreFailure (Option BatchJobSnapshot)

/-- Tasks over the operations of the spool. -/
abbrev SpoolTask (codec : UuidCodec) (α : Type) := Task SpoolOp (SpoolOp.Reply codec) α

/-- A step of a call which has taken effect. -/
inductive SpoolEvent
  | linked (name : FileName)
  | removed (name : FileName)
  | read (name : FileName) (contents : List UInt8)
  | ledgerFailed
deriving DecidableEq

/-- The directory, with what the call in progress has done so far. -/
structure SpoolWorld where
  directory : Directory
  events : List SpoolEvent

/-- What the server decides when it serves an operation. -/
inductive SpoolChoice (codec : UuidCodec)
  | succeeds
  | fails (kind : ErrorKind)
  | draws (uuid : codec.Uuid)
  | lists (names : List FileName) (failure : Option ErrorKind)
  | creates (modified : Option ℤ)
  | writesPart (written : List UInt8) (kind : ErrorKind)
  | ledgerFails (failure : BatchJobStoreFailure)

namespace SpoolWorld

def record (w : SpoolWorld) (event : SpoolEvent) : SpoolWorld := { w with events := w.events ++ [event] }

def insert (w : SpoolWorld) (name : FileName) (entry : DirectoryEntry) : SpoolWorld :=
  { w with directory := w.directory.insert name entry }

def erase (w : SpoolWorld) (name : FileName) : SpoolWorld :=
  { w with directory := w.directory.erase name }

/-- Whether these names list the directory in some order, or a part of it before a failure. -/
def isListing (w : SpoolWorld) (names : List FileName) (failure : Option ErrorKind) : Bool :=
  names.length < 2 ^ 63 &&
    if failure = none then decide (names.Perm w.directory.keys)
    else decide names.Nodup && names.all (· ∈ w.directory.keys)

end SpoolWorld

/-- Serve a synchronization. -/
def serveSync {codec : UuidCodec} (w : SpoolWorld) :
    SpoolChoice codec → Option (SpoolWorld × Except ErrorKind Unit)
  | .succeeds => some (w, .ok ())
  | .fails kind => some (w, .error kind)
  | _ => none

/-- Serve what may be refused: a lock that is poisoned, a thread that is lost. -/
def serveRefusable {codec : UuidCodec} (w : SpoolWorld) : SpoolChoice codec → Option (SpoolWorld × Bool)
  | .succeeds => some (w, true)
  | .fails _ => some (w, false)
  | _ => none

/-- Serve one operation with one choice; a failed call has no effect, a failed write an unknown one. -/
def serveSpool (codec : UuidCodec) (ledger : BatchJobId → Option BatchJobSnapshot) (w : SpoolWorld)
    (op : SpoolOp) (choice : SpoolChoice codec) : Option (SpoolWorld × op.Reply codec) :=
  match op with
  | .newUuid =>
    match choice with
    | .draws uuid => some (w, uuid)
    | _ => none
  | .readDir =>
    match choice with
    | .lists names failure =>
      if w.isListing names failure then some (w, Except.ok (names, failure)) else none
    | .fails kind => some (w, Except.error kind)
    | _ => none
  | .symlinkMetadata name =>
    match choice with
    | .succeeds =>
      match w.directory.lookup name with
      | some entry => some (w, Except.ok entry.metadata)
      | none => some (w, Except.error ErrorKind.notFound)
    | .fails kind => if kind = .notFound then none else some (w, Except.error kind)
    | _ => none
  | .pathExists name =>
    match choice with
    | .succeeds => some (w, (w.directory.lookup name).isSome)
    | .fails _ => some (w, false)
    | _ => none
  | .readFile name limit =>
    match choice with
    | .succeeds =>
      match w.directory.lookup name with
      | some entry =>
        if entry.fileType = .file then
          some (w.record (.read name (entry.contents.take limit)), Except.ok (entry.contents.take limit))
        else none
      | none => some (w, Except.error ErrorKind.notFound)
    | .fails kind => some (w, Except.error kind)
    | _ => none
  | .createNew name =>
    match choice with
    | .creates modified =>
      match w.directory.lookup name with
      | some _ => some (w, Except.error ErrorKind.alreadyExists)
      | none => some (w.insert name ⟨.file, [], modified⟩, Except.ok ())
    | .fails kind => some (w, Except.error kind)
    | _ => none
  | .writeAll name contents =>
    match choice with
    | .succeeds =>
      (w.directory.lookup name).map fun entry => (w.insert name { entry with contents }, Except.ok ())
    | .writesPart written kind =>
      (w.directory.lookup name).map fun entry =>
        (w.insert name { entry with contents := written }, Except.error kind)
    | _ => none
  | .hardLink source target =>
    match choice with
    | .succeeds =>
      match w.directory.lookup target with
      | some _ => some (w, Except.error ErrorKind.alreadyExists)
      | none =>
        match w.directory.lookup source with
        | some entry => some ((w.insert target entry).record (.linked target), Except.ok ())
        | none => some (w, Except.error ErrorKind.notFound)
    | .fails kind => if kind = .alreadyExists then none else some (w, Except.error kind)
    | _ => none
  | .removeFile name =>
    match choice with
    | .succeeds =>
      match w.directory.lookup name with
      | some entry =>
        if entry.fileType = .directory then none
        else some ((w.erase name).record (.removed name), Except.ok ())
      | none => some (w, Except.error ErrorKind.notFound)
    | .fails kind => if kind = .notFound then none else some (w, Except.error kind)
    | _ => none
  | .syncAll _ | .syncDirectory => serveSync w choice
  | .lockMutation | .spawnBlocking => serveRefusable w choice
  | .loadRow id =>
    match choice with
    | .succeeds => some (w, Except.ok (ledger id))
    | .ledgerFails failure => some (w.record .ledgerFailed, Except.error failure)
    | _ => none

/-- The service of a call which has the directory to itself. -/
def servesSpool (codec : UuidCodec) (ledger : BatchJobId → Option BatchJobSnapshot) (w : SpoolWorld)
    (op : SpoolOp) (w' : SpoolWorld) (reply : op.Reply codec) : Prop :=
  ∃ choice, serveSpool codec ledger w op choice = some (w', reply)

section Steps

variable {codec : UuidCodec} {ledger : BatchJobId → Option BatchJobSnapshot} {w w' : SpoolWorld}
  {name : FileName}

/-- A served operation determines the next world and the reply. -/
private theorem served {α : Type} {next : SpoolWorld} {a b : α} (h : some (next, a) = some (w', b)) :
    w' = next ∧ b = a := by
  cases h
  exact ⟨rfl, rfl⟩

theorem servesSpool_newUuid {uuid : codec.Uuid} (h : servesSpool codec ledger w .newUuid w' uuid) : w' = w := by
  obtain ⟨choice, h⟩ := h
  cases choice with
  | draws drawn => exact (served h).1
  | _ => cases h

theorem servesSpool_readDir {reply : Except ErrorKind (List FileName × Option ErrorKind)}
    (h : servesSpool codec ledger w .readDir w' reply) :
    w' = w ∧ ∀ names failure, reply = .ok (names, failure) → w.isListing names failure = true := by
  obtain ⟨choice, h⟩ := h
  cases choice with
  | lists names failure =>
    simp only [serveSpool] at h
    split at h
    · rename_i hlisting
      obtain ⟨rfl, rfl⟩ := served h
      exact ⟨rfl, fun _ _ hreply => by cases hreply; exact hlisting⟩
    · cases h
  | fails kind =>
    obtain ⟨rfl, rfl⟩ := served h
    exact ⟨rfl, fun _ _ hreply => by cases hreply⟩
  | _ => cases h

theorem servesSpool_symlinkMetadata {reply : Except ErrorKind Metadata}
    (h : servesSpool codec ledger w (.symlinkMetadata name) w' reply) :
    w' = w ∧ ((∃ entry, w.directory.lookup name = some entry ∧ reply = .ok entry.metadata) ∨
      ∃ kind, reply = .error kind ∧ (kind = .notFound → w.directory.lookup name = none)) := by
  obtain ⟨choice, h⟩ := h
  cases choice with
  | succeeds =>
    simp only [serveSpool] at h
    split at h
    · rename_i entry hentry
      obtain ⟨rfl, rfl⟩ := served h
      exact ⟨rfl, .inl ⟨entry, hentry, rfl⟩⟩
    · rename_i hnone
      obtain ⟨rfl, rfl⟩ := served h
      exact ⟨rfl, .inr ⟨_, rfl, fun _ => hnone⟩⟩
  | fails kind =>
    simp only [serveSpool] at h
    split at h
    · cases h
    · rename_i hkind
      obtain ⟨rfl, rfl⟩ := served h
      exact ⟨rfl, .inr ⟨kind, rfl, fun hfound => absurd hfound hkind⟩⟩
  | _ => cases h

theorem servesSpool_pathExists {found : Bool} (h : servesSpool codec ledger w (.pathExists name) w' found) :
    w' = w ∧ (found = true → name ∈ w.directory) := by
  obtain ⟨choice, h⟩ := h
  cases choice with
  | succeeds =>
    obtain ⟨rfl, rfl⟩ := served h
    exact ⟨rfl, AList.lookup_isSome.mp⟩
  | fails kind =>
    obtain ⟨rfl, rfl⟩ := served h
    exact ⟨rfl, by simp⟩
  | _ => cases h

theorem servesSpool_readFile {limit : ℕ} {reply : Except ErrorKind (List UInt8)}
    (h : servesSpool codec ledger w (.readFile name limit) w' reply) :
    (w' = w ∧ ∃ kind, reply = .error kind) ∨
      ∃ entry, w.directory.lookup name = some entry ∧ entry.fileType = .file ∧
        w' = w.record (.read name (entry.contents.take limit)) ∧
        reply = .ok (entry.contents.take limit) := by
  obtain ⟨choice, h⟩ := h
  cases choice with
  | succeeds =>
    simp only [serveSpool] at h
    split at h
    · rename_i entry hentry
      split at h
      · rename_i hfile
        obtain ⟨rfl, rfl⟩ := served h
        exact .inr ⟨entry, hentry, hfile, rfl, rfl⟩
      · cases h
    · obtain ⟨rfl, rfl⟩ := served h
      exact .inl ⟨rfl, _, rfl⟩
  | fails kind =>
    obtain ⟨rfl, rfl⟩ := served h
    exact .inl ⟨rfl, _, rfl⟩
  | _ => cases h

theorem servesSpool_createNew {reply : Except ErrorKind Unit}
    (h : servesSpool codec ledger w (.createNew name) w' reply) :
    (w' = w ∧ ∃ kind, reply = .error kind) ∨
      w.directory.lookup name = none ∧ ∃ modified, w' = w.insert name ⟨.file, [], modified⟩ := by
  obtain ⟨choice, h⟩ := h
  cases choice with
  | creates modified =>
    simp only [serveSpool] at h
    split at h
    · obtain ⟨rfl, rfl⟩ := served h
      exact .inl ⟨rfl, _, rfl⟩
    · rename_i hnone
      obtain ⟨rfl, rfl⟩ := served h
      exact .inr ⟨hnone, modified, rfl⟩
  | fails kind =>
    obtain ⟨rfl, rfl⟩ := served h
    exact .inl ⟨rfl, _, rfl⟩
  | _ => cases h

theorem servesSpool_writeAll {contents : List UInt8} {reply : Except ErrorKind Unit}
    (h : servesSpool codec ledger w (.writeAll name contents) w' reply) :
    ∃ entry written, w.directory.lookup name = some entry ∧
      w' = w.insert name { entry with contents := written } ∧ (reply = .ok () → written = contents) := by
  obtain ⟨choice, h⟩ := h
  cases choice with
  | succeeds =>
    obtain ⟨entry, hentry, hserved⟩ := Option.map_eq_some_iff.mp h
    obtain ⟨rfl, rfl⟩ := Prod.mk.inj hserved
    exact ⟨entry, contents, hentry, rfl, fun _ => rfl⟩
  | writesPart written kind =>
    obtain ⟨entry, hentry, hserved⟩ := Option.map_eq_some_iff.mp h
    obtain ⟨rfl, rfl⟩ := Prod.mk.inj hserved
    exact ⟨entry, written, hentry, rfl, fun hreply => by cases hreply⟩
  | _ => cases h

theorem servesSpool_hardLink {source target : FileName} {reply : Except ErrorKind Unit}
    (h : servesSpool codec ledger w (.hardLink source target) w' reply) :
    (w' = w ∧ ∃ kind, reply = .error kind ∧ (kind = .alreadyExists → target ∈ w.directory)) ∨
      ∃ entry, w.directory.lookup source = some entry ∧ w.directory.lookup target = none ∧
        w' = (w.insert target entry).record (.linked target) ∧ reply = .ok () := by
  obtain ⟨choice, h⟩ := h
  cases choice with
  | succeeds =>
    simp only [serveSpool] at h
    split at h
    · rename_i entry hentry
      obtain ⟨rfl, rfl⟩ := served h
      exact .inl ⟨rfl, _, rfl, fun _ => AList.lookup_isSome.mp (by simp [hentry])⟩
    · rename_i hnone
      split at h
      · rename_i entry hentry
        obtain ⟨rfl, rfl⟩ := served h
        exact .inr ⟨entry, hentry, hnone, rfl, rfl⟩
      · obtain ⟨rfl, rfl⟩ := served h
        exact .inl ⟨rfl, _, rfl, fun hkind => absurd hkind (by decide)⟩
  | fails kind =>
    simp only [serveSpool] at h
    split at h
    · cases h
    · rename_i hkind
      obtain ⟨rfl, rfl⟩ := served h
      exact .inl ⟨rfl, kind, rfl, fun hexists => absurd hexists hkind⟩
  | _ => cases h

theorem servesSpool_removeFile {reply : Except ErrorKind Unit}
    (h : servesSpool codec ledger w (.removeFile name) w' reply) :
    (w' = w ∧ ∃ kind, reply = .error kind ∧ (kind = .notFound → w.directory.lookup name = none)) ∨
      name ∈ w.directory ∧ w' = (w.erase name).record (.removed name) ∧ reply = .ok () := by
  obtain ⟨choice, h⟩ := h
  cases choice with
  | succeeds =>
    simp only [serveSpool] at h
    split at h
    · rename_i entry hentry
      split at h
      · cases h
      · obtain ⟨rfl, rfl⟩ := served h
        exact .inr ⟨AList.lookup_isSome.mp (by simp [hentry]), rfl, rfl⟩
    · rename_i hnone
      obtain ⟨rfl, rfl⟩ := served h
      exact .inl ⟨rfl, _, rfl, fun _ => hnone⟩
  | fails kind =>
    simp only [serveSpool] at h
    split at h
    · cases h
    · rename_i hkind
      obtain ⟨rfl, rfl⟩ := served h
      exact .inl ⟨rfl, kind, rfl, fun hfound => absurd hfound hkind⟩
  | _ => cases h

private theorem serveSync_world {choice : SpoolChoice codec} {reply : Except ErrorKind Unit}
    (h : serveSync w choice = some (w', reply)) : w' = w := by
  cases choice with
  | succeeds => exact (served h).1
  | fails kind => exact (served h).1
  | _ => cases h

private theorem serveRefusable_world {choice : SpoolChoice codec} {granted : Bool}
    (h : serveRefusable w choice = some (w', granted)) : w' = w := by
  cases choice with
  | succeeds => exact (served h).1
  | fails kind => exact (served h).1
  | _ => cases h

theorem servesSpool_syncAll {reply : Except ErrorKind Unit}
    (h : servesSpool codec ledger w (.syncAll name) w' reply) : w' = w := h.elim fun _ => serveSync_world

theorem servesSpool_syncDirectory {reply : Except ErrorKind Unit}
    (h : servesSpool codec ledger w .syncDirectory w' reply) : w' = w := h.elim fun _ => serveSync_world

theorem servesSpool_lockMutation {locked : Bool}
    (h : servesSpool codec ledger w .lockMutation w' locked) : w' = w :=
  h.elim fun _ => serveRefusable_world

theorem servesSpool_spawnBlocking {joined : Bool}
    (h : servesSpool codec ledger w .spawnBlocking w' joined) : w' = w :=
  h.elim fun _ => serveRefusable_world

theorem servesSpool_loadRow {id : BatchJobId} {reply : Except BatchJobStoreFailure (Option BatchJobSnapshot)}
    (h : servesSpool codec ledger w (.loadRow id) w' reply) :
    (w' = w ∧ reply = .ok (ledger id)) ∨ w' = w.record .ledgerFailed ∧ ∃ failure, reply = .error failure := by
  obtain ⟨choice, h⟩ := h
  cases choice with
  | succeeds => exact .inl (served h)
  | ledgerFails failure =>
    obtain ⟨rfl, rfl⟩ := served h
    exact .inr ⟨rfl, failure, rfl⟩
  | _ => cases h

end Steps

/-- The file name of an identity claim. -/
def claimName (jobId : String) : FileName := .text (jobId ++ ".identity")

/-- The names of temporary files: they start with a dot and end in `.tmp`. -/
def isTemporary (text : String) : Bool :=
  text.toList.head? = some '.' && ".tmp".toList.isSuffixOf text.toList

/-- The file name of a handle's artifact. -/
def artifactName (handle : BatchAudioHandle) : FileName := .text handle.asStr

theorem artifactName_inj {handle handle' : BatchAudioHandle} (h : artifactName handle = artifactName handle') :
    handle = handle' := by
  cases handle
  cases handle'
  exact congrArg _ (FileName.text.inj h)

/-- The job and digest an audio artifact's name consists of. -/
def audioFile (codec : UuidCodec) (name : FileName) : Option ParsedHandle :=
  match name.toStr.map (parseHandle codec) with
  | some (.ok parsed) => some parsed
  | _ => none

theorem audioFile_eq_some {codec : UuidCodec} {name : FileName} {parsed : ParsedHandle} :
    audioFile codec name = some parsed ↔ ∃ text, name = .text text ∧ parseHandle codec text = .ok parsed := by
  cases name with
  | raw bytes => simp [audioFile, FileName.toStr]
  | text text => cases h : parseHandle codec text <;> simp [audioFile, FileName.toStr, h]

/-- A handle ends in `.ogg`. -/
theorem getLast_of_parseHandle {codec : UuidCodec} {text : String} {parsed : ParsedHandle}
    (h : parseHandle codec text = .ok parsed) : text.toList.getLast? = some 'g' := by
  have hchars : text.toList = (parsed.jobId ++ "-" ++ parsed.digest).toList ++ ".ogg".toList := by
    rw [(parseHandle_eq_ok.mp h).1]
    simp [formatHandle]
  rw [hchars, List.getLast?_append]
  rfl

/-- A temporary file is not audio. -/
theorem audioFile_of_isTemporary {codec : UuidCodec} {text : String} (h : isTemporary text = true) :
    audioFile codec (.text text) = none := by
  rw [Option.eq_none_iff_forall_ne_some]
  intro parsed hparsed
  obtain ⟨_, hname, hparse⟩ := audioFile_eq_some.mp hparsed
  obtain rfl := FileName.text.inj hname
  have hlast := getLast_of_parseHandle hparse
  simp only [isTemporary, Bool.and_eq_true] at h
  obtain ⟨front, hfront⟩ := List.isSuffixOf_iff_suffix.mp h.2
  rw [← hfront] at hlast
  simp at hlast

/-- An identity claim is not audio. -/
@[simp] theorem audioFile_claimName (codec : UuidCodec) (jobId : String) :
    audioFile codec (claimName jobId) = none := by
  rw [Option.eq_none_iff_forall_ne_some]
  intro parsed hparsed
  obtain ⟨_, hname, hparse⟩ := audioFile_eq_some.mp hparsed
  obtain rfl := FileName.text.inj hname
  have hlast := getLast_of_parseHandle hparse
  simp at hlast

/-- An identity claim is not a temporary file. -/
theorem isTemporary_claim (jobId : String) : isTemporary (jobId ++ ".identity") = false := by
  rw [Bool.eq_false_iff]
  intro h
  simp only [isTemporary, Bool.and_eq_true] at h
  obtain ⟨front, hfront⟩ := List.isSuffixOf_iff_suffix.mp h.2
  have hlast := congrArg List.getLast? hfront
  simp at hlast

theorem claimName_inj {jobId jobId' : String} (h : claimName jobId = claimName jobId') : jobId = jobId' := by
  have hstrip := Text.stripSuffix_eq_some.mpr (FileName.text.inj h)
  rw [Text.stripSuffix_eq_some.mpr rfl] at hstrip
  exact Option.some.inj hstrip

namespace DurableFileSpool

variable {codec : UuidCodec}

def unavailable (kind : ErrorKind) : BatchAudioSpoolFailure := .unavailable (kind.code "SPOOL_IO_")

def joinFailure : BatchAudioSpoolFailure := .unavailable "SPOOL_TASK_FAILED"

/-- Await an operation of which every failure is reported. -/
def attempt {α : Type} (failure : ErrorKind → BatchAudioSpoolFailure)
    (t : SpoolTask codec (Except ErrorKind α)) : SpoolTask codec (Except BatchAudioSpoolFailure α) :=
  t.bind fun reply => .done (reply.mapError failure)

def regularFileMetadata (name : FileName) : SpoolTask codec (Except BatchAudioSpoolFailure Metadata) :=
  .await (.symlinkMetadata name) fun reply : Except ErrorKind Metadata =>
    match reply with
    | .error kind => .done (.error (if kind = .notFound then .missing else unavailable kind))
    | .ok metadata =>
      if metadata.fileType ≠ .file then .done (.error Spool.invalidStorage) else .done (.ok metadata)

/-- Read a regular file that is not empty and not larger than a bound. -/
def readSmallRegularFile (name : FileName) (maximumBytes : ℕ) :
    SpoolTask codec (Except BatchAudioSpoolFailure (List UInt8)) :=
  (regularFileMetadata name).andThen fun metadata =>
    if metadata.len > maximumBytes then .done (.error .capacityExceeded)
    else if metadata.len = 0 then .done (.error Spool.invalidStorage)
    else
      (attempt unavailable (Task.call (SpoolOp.readFile name (maximumBytes + 1)))).andThen fun bytes =>
        if bytes.length > maximumBytes then .done (.error .capacityExceeded) else .done (.ok bytes)

/-- Read an artifact whose bytes must be within the bound and have the expected digest. -/
def readVerifiedFile (config : SpoolConfig) (name : FileName) (expectedDigest : String) :
    SpoolTask codec (Except BatchAudioSpoolFailure (List UInt8)) :=
  (readSmallRegularFile name config.maximumBytes).andThen fun bytes =>
    if bytes = [] ∨ config.digest bytes ≠ expectedDigest then .done (.error Spool.invalidStorage)
    else .done (.ok bytes)

/-- Add the size of one listed artifact. -/
def addAudioBytes (total : ℕ) (name : FileName) : SpoolTask codec (Except BatchAudioSpoolFailure ℕ) :=
  match audioFile codec name with
  | none => .done (.ok total)
  | some _ =>
    (attempt unavailable (Task.call (SpoolOp.symlinkMetadata name))).andThen fun metadata : Metadata =>
      if metadata.fileType ≠ .file then .done (.error Spool.invalidStorage)
      else
        match U64.checkedAdd total metadata.len with
        | none => .done (.error .capacityExceeded)
        | some total => .done (.ok total)

/-- Aggregate size of the stored audio. -/
def spoolAudioBytes : SpoolTask codec (Except BatchAudioSpoolFailure ℕ) :=
  (attempt unavailable (Task.call SpoolOp.readDir)).andThen fun (names, failure) =>
    (Task.forEach addAudioBytes 0 names).andThen fun total =>
      match failure with
      | some kind => .done (.error (unavailable kind))
      | none => .done (.ok total)

/-- A failed cleanup fails a creation that had succeeded. -/
def afterCleanup (cleanup : Except ErrorKind Unit) (result : Except BatchAudioSpoolFailure Bool) :
    Except BatchAudioSpoolFailure Bool :=
  match cleanup, result with
  | .error kind, .ok _ => .error (unavailable kind)
  | _, result => result

/-- Create a file with its contents under a temporary name and link it to its own name, unless that
is taken; the temporary name is always removed again. -/
def createFileAtomic (final : FileName) (contents : List UInt8) :
    SpoolTask codec (Except BatchAudioSpoolFailure Bool) :=
  .await .newUuid fun uuid : codec.Uuid =>
    let temporary := FileName.text ("." ++ codec.hyphenated uuid ++ ".tmp")
    (attempt unavailable (Task.call (SpoolOp.createNew temporary))).andThen fun _ =>
      ((attempt unavailable (Task.call (SpoolOp.writeAll temporary contents))).andThen fun _ =>
        (attempt unavailable (Task.call (SpoolOp.syncAll temporary))).andThen fun _ =>
          (Task.call (SpoolOp.hardLink temporary final)).bind fun reply : Except ErrorKind Unit =>
            match reply with
            | .ok () => .done (.ok true)
            | .error kind =>
              if kind = .alreadyExists then .done (.ok false)
              else .done (.error (unavailable kind))).bind fun result =>
        (Task.call (SpoolOp.removeFile temporary)).bind fun cleanup : Except ErrorKind Unit =>
          .done (afterCleanup cleanup result)

/-- `sync_directory`. -/
def syncDirectory : SpoolTask codec (Except BatchAudioSpoolFailure Unit) :=
  attempt unavailable (Task.call SpoolOp.syncDirectory)

variable (config : SpoolConfig)

/-- Refuse an artifact the aggregate capacity has no room for. -/
def checkTotal (final : FileName) (incoming : ℕ) :
    SpoolTask config.codec (Except BatchAudioSpoolFailure Unit) :=
  .await (.pathExists final) fun found : Bool =>
    if found then .done (.ok ())
    else
      spoolAudioBytes.andThen fun used =>
        if U64.saturatingAdd used incoming > config.maximumTotalBytes then
          .done (.error .capacityExceeded)
        else .done (.ok ())

/-- Claim the job's identity for a digest; a conflict removes the artifact this call created. -/
def claimIdentity (id : BatchJobId) (digest : String) (final : FileName) (created : Bool) :
    SpoolTask config.codec (Except BatchAudioSpoolFailure Unit) :=
  (createFileAtomic (claimName id.asStr) (Text.asBytes digest)).andThen fun claimed =>
    if claimed then syncDirectory
    else
      (readSmallRegularFile (claimName id.asStr) 64).andThen fun value =>
        if value = Text.asBytes digest then .done (.ok ())
        else if created then
          .await (.removeFile final) fun _ => .done (.error .identityConflict)
        else .done (.error .identityConflict)

/-- `store_blocking`. -/
def storeBlocking (id : BatchJobId) (audio : List UInt8) :
    SpoolTask config.codec (Except BatchAudioSpoolFailure BatchAudioStoreOutcome) :=
  if audio = [] ∨ audio.length > config.maximumBytes then .done (.error .capacityExceeded)
  else if config.codec.isCanonical id.asStr = false then .done (.error .identityConflict)
  else
    let digest := config.digest audio
    let handle := config.handle id audio
    let final := artifactName handle
    .await .lockMutation fun locked : Bool =>
      if locked = false then .done (.error Spool.invalidStorage)
      else
        (checkTotal config final audio.length).andThen fun _ =>
          (createFileAtomic final audio).andThen fun created =>
            (if created then syncDirectory
              else (readVerifiedFile config final digest).andThen fun _ => .done (.ok ())).andThen fun _ =>
              (claimIdentity config id digest final created).andThen fun _ =>
                .done (.ok (if created then .stored handle else .existing handle))

/-- Release the claim of a job when it names this digest. -/
def releaseClaim (parsed : ParsedHandle) : SpoolTask config.codec (Except BatchAudioSpoolFailure Unit) :=
  (readSmallRegularFile (claimName parsed.jobId) 64).bind fun
    | .ok value =>
      if value = Text.asBytes parsed.digest then
        attempt unavailable (Task.call (SpoolOp.removeFile (claimName parsed.jobId)))
      else .done (.ok ())
    | .error .missing => .done (.ok ())
    | .error failure => .done (.error failure)

/-- Unlink a regular file; it may be missing. -/
def unlinkArtifact (name : FileName) :
    SpoolTask codec (Except BatchAudioSpoolFailure BatchAudioRemoveOutcome) :=
  .await (.symlinkMetadata name) fun reply : Except ErrorKind Metadata =>
    match reply with
    | .ok metadata =>
      if metadata.fileType ≠ .file then .done (.error Spool.invalidStorage)
      else
        (Task.call (SpoolOp.removeFile name)).bind fun reply : Except ErrorKind Unit =>
          match reply with
          | .ok () => .done (.ok .removed)
          | .error kind =>
            if kind = .notFound then .done (.ok .alreadyMissing) else .done (.error (unavailable kind))
    | .error kind =>
      if kind = .notFound then .done (.ok .alreadyMissing) else .done (.error (unavailable kind))

/-- `remove_blocking`. -/
def removeBlocking (handle : BatchAudioHandle) :
    SpoolTask config.codec (Except BatchAudioSpoolFailure BatchAudioRemoveOutcome) :=
  .await .lockMutation fun locked : Bool =>
    if locked = false then .done (.error Spool.invalidStorage)
    else
      match parseHandle config.codec handle.asStr with
      | .error failure => .done (.error failure)
      | .ok parsed =>
        (unlinkArtifact (artifactName handle)).andThen fun outcome =>
          (releaseClaim config parsed).andThen fun _ =>
            syncDirectory.andThen fun _ => .done (.ok outcome)

/-- `remove` of the spool port: the mutation runs on a blocking thread. -/
def remove (handle : BatchAudioHandle) :
    SpoolTask config.codec (Except BatchAudioSpoolFailure BatchAudioRemoveOutcome) :=
  .await .spawnBlocking fun joined : Bool =>
    if joined = false then .done (.error joinFailure) else removeBlocking config handle

end DurableFileSpool

end Voicetext.Gateway.Storage
