import Voicetext.Gateway.Runs
import Voicetext.Gateway.Storage.SpoolSweep

/-!
# Maintenance only deletes garbage

Wherever a pass stops, each file it has removed was garbage of its own kind. A pass that succeeds
leaves no audio of a terminal job and no old audio without a job, and reports what it leaves.
-/

namespace Voicetext.Gateway

open Voicetext.Common Voicetext.Speech.Domain Voicetext.Speech.Application Voicetext.Gateway.Storage
  Voicetext.Gateway.Storage.DurableFileSpool

/-- What maintenance may remove, by the kind of the file. -/
structure OnlyGarbage (codec : UuidCodec) (ledger : BatchJobId → Option BatchJobSnapshot) (now : ℤ)
    (retention : ℕ) (before after : Directory) : Prop where
  /-- Nothing is created or changed. -/
  kept : ∀ name entry, after.lookup name = some entry → before.lookup name = some entry
  /-- The audio of a job goes only once the job is terminal. -/
  live : ∀ name entry parsed row, before.lookup name = some entry → name ∉ after →
    audioFile codec name = some parsed → ledger ⟨parsed.jobId⟩ = some row → row.job.state.isTerminal = true
  /-- Audio without a job goes only once it is old enough. -/
  orphan : ∀ name entry parsed, before.lookup name = some entry → name ∉ after →
    audioFile codec name = some parsed → ledger ⟨parsed.jobId⟩ = none →
      expired entry.modified now retention = true
  /-- A claim goes after the artifact of its digest, or old and without any audio of its job. -/
  claim : ∀ jobId entry, before.lookup (claimName jobId) = some entry → claimName jobId ∉ after →
    (∃ handle parsed, parseHandle codec handle.asStr = .ok parsed ∧ parsed.jobId = jobId ∧
      entry.contents = Text.asBytes parsed.digest ∧ artifactName handle ∈ before ∧
        artifactName handle ∉ after) ∨
      expired entry.modified now retention = true ∧
        ∀ name parsed, audioFile codec name = some parsed → parsed.jobId = jobId → name ∉ after
  /-- A temporary file goes only once it is old enough. -/
  temporary : ∀ text entry, isTemporary text = true → before.lookup (.text text) = some entry →
    .text text ∉ after → expired entry.modified now retention = true
  /-- Every other file stays. -/
  foreign : ∀ name entry, before.lookup name = some entry → audioFile codec name = none →
    (∀ jobId, name ≠ claimName jobId) → (∀ text, name = .text text → isTemporary text = false) →
      after.lookup name = some entry

/-- What is swept is garbage of its own kind. -/
theorem onlyGarbage_of_swept {codec : UuidCodec} {ledger : BatchJobId → Option BatchJobSnapshot} {now : ℤ}
    {retention : ℕ} {before after : Directory} (h : Swept codec ledger now retention before after) :
    OnlyGarbage codec ledger now retention before after := by
  have haudio {name : FileName} {entry : DirectoryEntry} {parsed : ParsedHandle}
      (hparsed : audioFile codec name = some parsed)
      (hgarbage : Garbage codec ledger now retention before after name entry) :
      isDoomed ledger now retention parsed entry = true := by
    cases hgarbage with
    | temporary hname _ => simp [audioFile_of_isTemporary hname] at hparsed
    | audio hname _ hdoomed => exact Option.some.inj (hname.symm.trans hparsed) ▸ hdoomed
    | claimOf _ _ _ _ => simp at hparsed
    | claimAlone _ _ => simp at hparsed
  refine ⟨h.kept, ?_, ?_, ?_, ?_, ?_⟩
  · intro name entry parsed row hentry hgone hparsed hrow
    simpa [isDoomed, hrow] using haudio hparsed (h.garbage name entry hentry hgone)
  · intro name entry parsed hentry hgone hparsed hrow
    simpa [isDoomed, hrow] using haudio hparsed (h.garbage name entry hentry hgone)
  · intro jobId entry hentry hgone
    generalize hname : claimName jobId = name at hentry hgone
    cases h.garbage name entry hentry hgone with
    | temporary htemporary _ =>
      obtain rfl := FileName.text.inj hname
      simp [isTemporary_claim] at htemporary
    | audio hparsed _ _ => simp [← hname] at hparsed
    | @claimOf handle _ parsed hhandle hcontents hbefore hafter =>
      exact .inl ⟨handle, parsed, hhandle, (claimName_inj hname).symm, hcontents, hbefore, hafter⟩
    | claimAlone hexpired hnone =>
      obtain rfl := claimName_inj hname
      exact .inr ⟨hexpired, hnone⟩
  · intro text entry htemporary hentry hgone
    generalize hname : FileName.text text = name at hentry hgone
    cases h.garbage name entry hentry hgone with
    | temporary _ hexpired => exact hexpired
    | audio hparsed _ _ => simp [← hname, audioFile_of_isTemporary htemporary] at hparsed
    | claimOf _ _ _ _ =>
      obtain rfl := FileName.text.inj hname
      simp [isTemporary_claim] at htemporary
    | claimAlone _ _ =>
      obtain rfl := FileName.text.inj hname
      simp [isTemporary_claim] at htemporary
  · intro name entry hentry hparsed hclaim htemporary
    by_cases hmem : name ∈ after
    · obtain ⟨entry', hentry'⟩ := Option.isSome_iff_exists.mp (AList.lookup_isSome.mpr hmem)
      rw [hentry', ← h.kept name entry' hentry', hentry]
    · cases h.garbage name entry hentry hmem with
      | temporary hname _ => simp [htemporary _ rfl] at hname
      | audio hname _ _ => simp [hparsed] at hname
      | claimOf _ _ _ _ => exact absurd rfl (hclaim _)
      | claimAlone _ _ => exact absurd rfl (hclaim _)

/-- Wherever a maintenance pass stops it has removed nothing but garbage, and a pass that succeeds has
removed all of it and reports what is left. -/
theorem reconcile_onlyGarbage (config : SpoolConfig) (ledger : BatchJobId → Option BatchJobSnapshot)
    (now : ℤ) (retention : ℕ) (before : Directory) :
    (∀ w, Task.Stops (servesSpool config.codec ledger) ⟨before, []⟩ (reconcile config now retention) w →
      OnlyGarbage config.codec ledger now retention before w.directory) ∧
    ∀ w report, Task.Solo (servesSpool config.codec ledger) ⟨before, []⟩ (reconcile config now retention) w
        (.ok report) →
      (∀ name parsed entry row, audioFile config.codec name = some parsed →
        w.directory.lookup name = some entry → ledger ⟨parsed.jobId⟩ = some row →
          row.job.state.isTerminal = false) ∧
      (∀ name parsed entry, audioFile config.codec name = some parsed →
        w.directory.lookup name = some entry → ledger ⟨parsed.jobId⟩ = none →
          expired entry.modified now retention = false) ∧
      report.preserved = (audioFiles config.codec w.directory).length ∧
      report.usedBytes = ((audioFiles config.codec w.directory).map (fileSize w.directory)).sum := by
  have hpass : Task.Keeps (servesSpool config.codec ledger) _ _ (reconcile config now retention)
      ⟨before, []⟩ := reconcile_keeps rfl
  refine ⟨?_, ?_⟩
  · intro w hstops
    exact onlyGarbage_of_swept (hpass.stops hstops)
  · intro w report hsolo
    obtain ⟨hspared, hpreserved, hbytes⟩ := (hpass.solo hsolo).1 report rfl
    refine ⟨?_, ?_, hpreserved, hbytes⟩
    · intro name parsed entry row hparsed hentry hrow
      simpa [isDoomed, hrow] using hspared name parsed entry hparsed hentry
    · intro name parsed entry hparsed hentry hrow
      simpa [isDoomed, hrow] using hspared name parsed entry hparsed hentry

/-- A file which is not named like a temporary file of the spool but starts and ends like one. -/
def foreignName : FileName := .text ".tmp"

/-- A foreign file named `.tmp` is removed once it is old enough. -/
theorem reconcile_removesForeign :
    let before : Directory := AList.singleton foreignName ⟨.file, [7], some 0⟩
    ∃ w report, Task.Solo (servesSpool sampleGateway.codec fun _ => none) ⟨before, []⟩
        (reconcile sampleGateway.toSpoolConfig 10 5) w (.ok report) ∧
      foreignName ∈ before ∧ foreignName ∉ w.directory ∧
      audioFile sampleGateway.codec foreignName = none ∧ (∀ name, foreignName ≠ .text (name ++ ".identity")) ∧
      ∀ name, foreignName ≠ .text ("." ++ name ++ ".tmp") := by
  intro before
  have hrun : (Task.replay (serveSpool sampleGateway.codec fun _ => none)
      [.lists [foreignName] none, .succeeds, .succeeds, .lists [] none] ⟨before, []⟩
      (reconcile sampleGateway.toSpoolConfig 10 5)).any
        (fun run => run.1.directory.lookup foreignName = none && run.2.isOk) = true := by decide +kernel
  obtain ⟨⟨w, reply⟩, hreplay, hobserved⟩ := (Option.any_eq_true _ _).mp hrun
  obtain ⟨hgone, hok⟩ := Bool.and_eq_true_iff.mp hobserved
  cases reply with
  | error failure => cases hok
  | ok report =>
    refine ⟨w, report, Task.solo_of_replay _ hreplay, ?_, ?_, by decide +kernel, ?_, ?_⟩
    · exact AList.mem_keys.mpr List.mem_cons_self
    · exact AList.lookup_eq_none.mp (by simpa using hgone)
    · intro name hname
      have hlast := congrArg (fun s : String => s.toList.getLast?) (FileName.text.inj hname)
      simp at hlast
    · intro name hname
      have hlength := congrArg (fun s : String => s.toList.length) (FileName.text.inj hname)
      simp at hlength

/-- A row of a job whose audio is the sample recording. -/
def recordedRow (id : BatchJobId) (state : BatchJobState) : BatchJobSnapshot :=
  { id, job := ⟨sampleProfile, sampleRequest.fingerprint, state⟩, audio := sampleGateway.handle id [1, 2],
    authoritativeDurationMillis := 1000, keyterms := [], providerReference := none,
    retryAfterMillis := none, result := none, revision := 1 }

/-- A terminal job's audio goes with its claim, a live job's audio stays, in a pass over a listing that
names the claim first. -/
theorem reconcile_mixed :
    let live : BatchJobId := ⟨"00000000-0000-4000-8000-000000000002"⟩
    let ledger : BatchJobId → Option BatchJobSnapshot := fun id =>
      if id = sampleId then some (recordedRow id (.outcomeUnknown .MIN .interruptedSubmission))
      else if id = live then some (recordedRow id .accepted) else none
    let audio := artifactName (sampleGateway.handle sampleId [1, 2])
    let liveAudio := artifactName (sampleGateway.handle live [1, 2])
    let claim := claimName sampleId.asStr
    let before : Directory := (((AList.singleton audio ⟨.file, [1, 2], some 0⟩).insert claim
      ⟨.file, Text.asBytes (sampleGateway.digest [1, 2]), some 0⟩).insert liveAudio
        ⟨.file, [1, 2], some 0⟩).insert (.text ".upload.tmp") ⟨.file, [9], some 0⟩
    ∃ (w : SpoolWorld) (report : SpoolMaintenanceReport),
      OnlyGarbage sampleGateway.codec ledger 10 5 before w.directory ∧
      report.terminalRemoved = 1 ∧ report.preserved = 1 ∧
      report.preserved = (audioFiles sampleGateway.codec w.directory).length := by
  intro live ledger audio liveAudio claim before
  have hrun : (Task.replay (serveSpool sampleGateway.codec ledger)
      [.lists [claim, .text ".upload.tmp", audio, liveAudio] none, .succeeds,
        .lists [audio, liveAudio, claim, .text ".upload.tmp"] none, .succeeds, .succeeds, .succeeds, .succeeds,
        .succeeds, .succeeds, .succeeds, .succeeds, .succeeds, .succeeds, .succeeds, .succeeds, .succeeds,
        .succeeds, .lists [liveAudio] none, .succeeds] ⟨before, []⟩
      (reconcile sampleGateway.toSpoolConfig 10 5)).any
        (fun run => run.2.toOption.any fun report => report.terminalRemoved = 1 && report.preserved = 1) =
          true := by decide +kernel
  obtain ⟨⟨w, reply⟩, hreplay, hobserved⟩ := (Option.any_eq_true _ _).mp hrun
  cases reply with
  | error failure => cases hobserved
  | ok report =>
    have hsolo : Task.Solo (servesSpool sampleGateway.codec ledger) ⟨before, []⟩
        (reconcile sampleGateway.toSpoolConfig 10 5) w (.ok report) := Task.solo_of_replay _ hreplay
    have hpass := reconcile_onlyGarbage sampleGateway.toSpoolConfig ledger 10 5 before
    have hreport : report.terminalRemoved = 1 ∧ report.preserved = 1 := by
      simpa [Except.toOption] using hobserved
    exact ⟨w, report, hpass.1 w hsolo.stops, hreport.1, hreport.2, (hpass.2 w report hsolo).2.2.1⟩

end Voicetext.Gateway
