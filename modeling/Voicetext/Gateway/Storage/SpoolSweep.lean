import Voicetext.Gateway.Storage.SpoolMaintenance

/-!
# What a maintenance pass sweeps

Whatever is gone was garbage of its own kind, wherever the pass stops, and the audio visited is doomed and
gone or spared and counted. The audio a job still needs, and files the spool does not know, stay.
-/

namespace Voicetext.Gateway.Storage

open Voicetext.Common Voicetext.Speech.Domain Voicetext.Speech.Application

/-- Whether maintenance is to remove an artifact: its job is terminal, or it has none and is old enough. -/
def isDoomed (ledger : BatchJobId → Option BatchJobSnapshot) (now : ℤ) (retention : ℕ)
    (parsed : ParsedHandle) (entry : DirectoryEntry) : Bool :=
  match ledger ⟨parsed.jobId⟩ with
  | some row => row.job.state.isTerminal
  | none => expired entry.modified now retention

/-- Why a file may be gone after maintenance: it was temporary and old, an artifact to be removed, or a
claim that went after the artifact of its digest or was old and had no audio. -/
inductive Garbage (codec : UuidCodec) (ledger : BatchJobId → Option BatchJobSnapshot) (now : ℤ)
    (retention : ℕ) (before after : Directory) : FileName → DirectoryEntry → Prop
  | temporary {text : String} {entry : DirectoryEntry} (hname : isTemporary text = true)
      (hexpired : expired entry.modified now retention = true) :
      Garbage codec ledger now retention before after (.text text) entry
  | audio {name : FileName} {entry : DirectoryEntry} {parsed : ParsedHandle}
      (hname : audioFile codec name = some parsed)
      (hrow : ∀ row, ledger ⟨parsed.jobId⟩ = some row → artifactName row.audio = name)
      (hdoomed : isDoomed ledger now retention parsed entry = true) :
      Garbage codec ledger now retention before after name entry
  | claimOf {handle : BatchAudioHandle} {entry : DirectoryEntry} {parsed : ParsedHandle}
      (hhandle : parseHandle codec handle.asStr = .ok parsed)
      (hcontents : entry.contents = Text.asBytes parsed.digest)
      (hbefore : artifactName handle ∈ before) (hafter : artifactName handle ∉ after) :
      Garbage codec ledger now retention before after (claimName parsed.jobId) entry
  | claimAlone {jobId : String} {entry : DirectoryEntry}
      (hexpired : expired entry.modified now retention = true)
      (hnone : ∀ name parsed, audioFile codec name = some parsed → parsed.jobId = jobId → name ∉ after) :
      Garbage codec ledger now retention before after (claimName jobId) entry

/-- Why a pass may report the ledger failure: a row could not be loaded, or it names other audio. -/
def LedgerFault (codec : UuidCodec) (ledger : BatchJobId → Option BatchJobSnapshot) (before : Directory)
    (w : SpoolWorld) : Prop :=
  .ledgerFailed ∈ w.events ∨ ∃ name parsed row, audioFile codec name = some parsed ∧ name ∈ before ∧
    ledger ⟨parsed.jobId⟩ = some row ∧ artifactName row.audio ≠ name

section Sweep

variable {codec : UuidCodec} {ledger : BatchJobId → Option BatchJobSnapshot} {now : ℤ} {retention : ℕ}
  {before after : Directory}

/-- Garbage stays garbage when more is removed. -/
theorem Garbage.mono {after' : Directory} (hafter : ∀ name, name ∈ after' → name ∈ after) {name : FileName}
    {entry : DirectoryEntry} (h : Garbage codec ledger now retention before after name entry) :
    Garbage codec ledger now retention before after' name entry := by
  cases h with
  | temporary hname hexpired => exact .temporary hname hexpired
  | audio hname hrow hdoomed => exact .audio hname hrow hdoomed
  | claimOf hhandle hcontents hbefore hgone =>
    exact .claimOf hhandle hcontents hbefore fun hmem => hgone (hafter _ hmem)
  | claimAlone hexpired hnone =>
    exact .claimAlone hexpired fun name parsed hname hjob hmem => hnone name parsed hname hjob (hafter _ hmem)

/-- What is left is as it was, and what is gone was garbage. -/
structure Swept (codec : UuidCodec) (ledger : BatchJobId → Option BatchJobSnapshot) (now : ℤ)
    (retention : ℕ) (before after : Directory) : Prop where
  kept : ∀ name entry, after.lookup name = some entry → before.lookup name = some entry
  garbage : ∀ name entry, before.lookup name = some entry → name ∉ after →
    Garbage codec ledger now retention before after name entry

/-- Removing one more piece of garbage. -/
theorem Swept.erase (h : Swept codec ledger now retention before after) {name : FileName}
    (hgarbage : ∀ entry, before.lookup name = some entry →
      Garbage codec ledger now retention before (after.erase name) name entry) :
    Swept codec ledger now retention before (after.erase name) := by
  refine ⟨?_, ?_⟩
  · intro other entry hentry
    by_cases hother : other = name
    · rw [hother, AList.lookup_erase] at hentry
      cases hentry
    · rw [AList.lookup_erase_ne hother] at hentry
      exact h.kept other entry hentry
  · intro other entry hentry hgone
    by_cases hother : other = name
    · subst hother
      exact hgarbage entry hentry
    · have hnot : other ∉ after := fun hmem => hgone (AList.mem_erase.mpr ⟨hother, hmem⟩)
      exact (h.garbage other entry hentry hnot).mono fun _ hmem => (AList.mem_erase.mp hmem).2

theorem Swept.mem (h : Swept codec ledger now retention before after) {name : FileName}
    (hname : name ∈ after) : name ∈ before := by
  obtain ⟨entry, hentry⟩ := Option.isSome_iff_exists.mp (AList.lookup_isSome.mpr hname)
  exact AList.lookup_isSome.mp (by simp [h.kept name entry hentry])

/-- Removing a doomed artifact, with the claim of its digest, removes garbage. -/
theorem Swept.removing {w w' : SpoolWorld} {handle : BatchAudioHandle} {parsed : ParsedHandle}
    (h : Swept codec ledger now retention before w.directory)
    (hparse : parseHandle codec handle.asStr = .ok parsed)
    (hrow : ∀ row, ledger ⟨parsed.jobId⟩ = some row → row.audio = handle)
    (hdoomed : ∀ entry, before.lookup (artifactName handle) = some entry →
      isDoomed ledger now retention parsed entry = true)
    (hmem : artifactName handle ∈ w.directory) (hremoving : Removing w handle parsed w') :
    Swept codec ledger now retention before w'.directory := by
  induction hremoving with
  | start => exact h
  | unlink _ =>
    refine h.erase ?_
    intro entry hentry
    refine .audio (audioFile_eq_some.mpr ⟨_, rfl, hparse⟩) ?_ (hdoomed entry hentry)
    intro row hload
    rw [hrow row hload]
  | quiet _ hquiet ih => exact hquiet.directory ▸ ih
  | @release w₁ entry hbefore hgone hentry hcontents ih =>
    refine ih.erase ?_
    intro entry' hentry'
    obtain rfl := Option.some.inj ((ih.kept _ _ hentry).symm.trans hentry')
    refine .claimOf hparse hcontents (h.mem hmem) ?_
    exact fun hafter => hgone (AList.mem_erase.mp hafter).2

/-- A removal touches nothing but its artifact and its claim. -/
theorem Removing.mem_iff {w w' : SpoolWorld} {handle : BatchAudioHandle} {parsed : ParsedHandle}
    (hremoving : Removing w handle parsed w') {name : FileName} (hartifact : name ≠ artifactName handle)
    (hclaim : name ≠ claimName parsed.jobId) : name ∈ w'.directory ↔ name ∈ w.directory := by
  induction hremoving with
  | start => rfl
  | unlink _ => simp [AList.mem_erase, hartifact]
  | quiet _ hquiet ih => rw [hquiet.directory, ih]
  | release _ _ _ _ ih => simp [AList.mem_erase, hclaim, ih]

/-- Whether a name is one of an artifact that is to be removed. -/
def isDoomedName (codec : UuidCodec) (ledger : BatchJobId → Option BatchJobSnapshot) (now : ℤ)
    (retention : ℕ) (before : Directory) (name : FileName) : Bool :=
  match audioFile codec name, before.lookup name with
  | some parsed, some entry => isDoomed ledger now retention parsed entry
  | _, _ => false

/-- Whether a name is one of an artifact that stays. -/
def isSpared (codec : UuidCodec) (ledger : BatchJobId → Option BatchJobSnapshot) (now : ℤ)
    (retention : ℕ) (before : Directory) (name : FileName) : Bool :=
  (audioFile codec name).isSome && !isDoomedName codec ledger now retention before name

/-- How far a pass has come: of the audio visited, the doomed is gone and the rest counted. -/
structure Progress (codec : UuidCodec) (ledger : BatchJobId → Option BatchJobSnapshot) (now : ℤ)
    (retention : ℕ) (before : Directory) (done : List FileName) (report : SpoolMaintenanceReport)
    (after : Directory) : Prop where
  audio : ∀ name parsed, audioFile codec name = some parsed → (name ∈ after ↔
    name ∈ before ∧ (name ∈ done → isDoomedName codec ledger now retention before name = false))
  preserved : report.preserved = (done.filter (isSpared codec ledger now retention before)).length

variable {done : List FileName} {report report' : SpoolMaintenanceReport} {name : FileName}

/-- Visiting a file that is not audio does not count, whether it is removed or not. -/
theorem Progress.skip (h : Progress codec ledger now retention before done report after)
    (hname : audioFile codec name = none) (hreport : report'.preserved = report.preserved) :
    Progress codec ledger now retention before (done ++ [name]) report' after := by
  refine ⟨?_, ?_⟩
  · intro other parsed hparsed
    have hother : other ≠ name := fun heq => by simp [heq, hname] at hparsed
    simpa [hother] using h.audio other parsed hparsed
  · simpa [hreport, isSpared, hname] using h.preserved

theorem Progress.erase (h : Progress codec ledger now retention before done report after)
    (hname : audioFile codec name = none) :
    Progress codec ledger now retention before done report (after.erase name) := by
  refine ⟨?_, h.preserved⟩
  intro other parsed hparsed
  have hother : other ≠ name := fun heq => by simp [heq, hname] at hparsed
  simpa [AList.mem_erase, hother] using h.audio other parsed hparsed

/-- An artifact that stays is counted. -/
theorem Progress.spare (h : Progress codec ledger now retention before done report after)
    (hspared : isSpared codec ledger now retention before name = true) (hdone : done.length < 2 ^ 63) :
    Progress codec ledger now retention before (done ++ [name])
      { report with preserved := U64.saturatingAdd report.preserved 1 } after := by
  have hnot : isDoomedName codec ledger now retention before name = false := by
    simpa using (Bool.and_eq_true_iff.mp hspared).2
  refine ⟨?_, ?_⟩
  · intro other parsed hparsed
    rw [h.audio other parsed hparsed, List.mem_append, List.mem_singleton]
    by_cases hother : other = name
    · simp [hother, hnot]
    · simp [hother]
  · have hcount : (done.filter (isSpared codec ledger now retention before)).length ≤ done.length :=
      List.length_filter_le _ _
    have hfits : (done.filter (isSpared codec ledger now retention before)).length + 1 ≤ U64.MAX := by
      rw [U64.MAX]
      omega
    simp [U64.saturatingAdd_of_le hfits, h.preserved, hspared]

/-- A doomed artifact that is gone is done with. -/
theorem Progress.remove {w w' : SpoolWorld} {handle : BatchAudioHandle} {parsed : ParsedHandle}
    (h : Progress codec ledger now retention before done report w.directory)
    (hdoomed : isDoomedName codec ledger now retention before (artifactName handle) = true)
    (hremoving : Removing w handle parsed w') (hgone : artifactName handle ∉ w'.directory)
    (hreport : report'.preserved = report.preserved) :
    Progress codec ledger now retention before (done ++ [artifactName handle]) report' w'.directory := by
  refine ⟨?_, ?_⟩
  · intro other otherParsed hother
    by_cases hsame : other = artifactName handle
    · simp [hsame, hgone, hdoomed]
    · have hclaim : other ≠ claimName parsed.jobId := fun heq => by simp [heq] at hother
      rw [hremoving.mem_iff hsame hclaim, h.audio other otherParsed hother, List.mem_append,
        List.mem_singleton, or_iff_left hsame]
  · simp [hreport, h.preserved, isSpared, hdoomed]

end Sweep

namespace DurableFileSpool

variable {config : SpoolConfig} {ledger : BatchJobId → Option BatchJobSnapshot} {now : ℤ} {retention : ℕ}
  {before : Directory} {done : List FileName} {report : SpoolMaintenanceReport} {w : SpoolWorld}

/-- A search that finds nothing has seen every file. -/
theorem matchingAudioExists_keeps {held : SpoolWorld → Prop} (jobId : String) (hheld : held w) :
    Task.Keeps (servesSpool config.codec ledger) held (fun reply w' => w' = w ∧ (reply = .ok false →
        ∀ name parsed, audioFile config.codec name = some parsed → parsed.jobId = jobId →
          name ∉ w.directory))
      (matchingAudioExists config jobId) w := by
  refine Task.Keeps.andThen (readDir_keeps hheld) ?_ ?_
  · rintro failure w' _ ⟨rfl, -⟩
    exact ⟨rfl, by simp⟩
  rintro ⟨names, failure⟩ w' _ ⟨rfl, hlisting⟩
  dsimp only
  split
  · exact ⟨hheld, rfl, by simp⟩
  rename_i hnone
  cases failure with
  | some kind => exact ⟨hheld, rfl, by simp⟩
  | none =>
    refine ⟨hheld, rfl, ?_⟩
    rintro - name parsed hname hjob hmem
    have hlisted : name ∈ names :=
      (SpoolWorld.perm_of_isListing (hlisting names none rfl)).mem_iff.mpr (AList.mem_keys.mp hmem)
    exact hnone (List.any_eq_true.mpr ⟨name, hlisted, by simp [hname, hjob]⟩)

/-- Removing a file that is no audio: it was garbage, or the call fails. -/
theorem removeFile_keeps {name : FileName}
    (hname : audioFile config.codec name = none)
    (hswept : Swept config.codec ledger now retention before w.directory)
    (hprogress : Progress config.codec ledger now retention before done report w.directory)
    (hgarbage : ∀ entry, before.lookup name = some entry →
      Garbage config.codec ledger now retention before (w.directory.erase name) name entry) :
    Task.Keeps (servesSpool config.codec ledger)
      (fun w' => Swept config.codec ledger now retention before w'.directory)
      (fun _ w' => Progress config.codec ledger now retention before done report w'.directory)
      (attempt ioFailure (Task.call (SpoolOp.removeFile name))) w := by
  refine attempt_keeps (.await hswept ?_)
  intro w' reply hserve
  rcases servesSpool_removeFile hserve with ⟨rfl, -⟩ | ⟨-, rfl, -⟩
  · exact ⟨hswept, hprogress⟩
  · exact ⟨hswept.erase hgarbage, hprogress.erase hname⟩

/-- What visiting a name owes: only garbage goes, and a successful visit makes progress. -/
abbrev VisitKeeps (config : SpoolConfig) (ledger : BatchJobId → Option BatchJobSnapshot) (now : ℤ)
    (retention : ℕ) (before : Directory) (done : List FileName) (name : FileName)
    (t : SpoolTask config.codec (Except BatchAudioSpoolFailure SpoolMaintenanceReport)) (w : SpoolWorld) :
    Prop :=
  Task.Keeps (servesSpool config.codec ledger)
    (fun w' => Swept config.codec ledger now retention before w'.directory)
    (fun reply w' => ∀ report, reply = .ok report →
      Progress config.codec ledger now retention before (done ++ [name]) report w'.directory) t w

theorem visitTemporary_keeps {text : String} {entry : DirectoryEntry} (htext : isTemporary text = true)
    (hentry : w.directory.lookup (.text text) = some entry)
    (hswept : Swept config.codec ledger now retention before w.directory)
    (hprogress : Progress config.codec ledger now retention before done report w.directory) :
    VisitKeeps config ledger now retention before done (.text text)
      (visitTemporary config now retention report (.text text) entry.modified) w := by
  have hname : audioFile config.codec (.text text) = none := audioFile_of_isTemporary htext
  unfold visitTemporary
  split
  · rename_i hexpired
    refine (removeFile_keeps hname hswept hprogress ?_).andThen (fun _ _ _ _ => by simp) ?_
    · intro entry' hentry'
      obtain rfl := Option.some.inj ((hswept.kept _ _ hentry).symm.trans hentry')
      exact .temporary htext hexpired
    · intro _ w' hswept' hprogress'
      refine ⟨hswept', ?_⟩
      intro report' hreport
      cases hreport
      exact hprogress'.skip hname rfl
  · refine ⟨hswept, ?_⟩
    intro report' hreport
    cases hreport
    exact hprogress.skip hname rfl

theorem visitClaim_keeps {jobId : String} {entry : DirectoryEntry}
    (hentry : w.directory.lookup (claimName jobId) = some entry)
    (hswept : Swept config.codec ledger now retention before w.directory)
    (hprogress : Progress config.codec ledger now retention before done report w.directory) :
    VisitKeeps config ledger now retention before done (claimName jobId)
      (visitClaim config now retention report (claimName jobId) jobId entry.modified) w := by
  have hname := audioFile_claimName config.codec jobId
  refine (matchingAudioExists_keeps jobId hswept).andThen (fun _ _ _ _ => by simp) ?_
  rintro found w' - ⟨rfl, hfound⟩
  split
  · rename_i hremove
    obtain ⟨rfl, hexpired⟩ := hremove
    refine (removeFile_keeps hname hswept hprogress ?_).andThen (fun _ _ _ _ => by simp) ?_
    · intro entry' hentry'
      obtain rfl := Option.some.inj ((hswept.kept _ _ hentry).symm.trans hentry')
      refine .claimAlone hexpired ?_
      intro name parsed hparsed hjob hmem
      exact hfound rfl name parsed hparsed hjob (AList.mem_erase.mp hmem).2
    · intro _ w' hswept' hprogress'
      refine ⟨hswept', ?_⟩
      intro report' hreport
      cases hreport
      exact hprogress'.skip hname rfl
  · refine ⟨hswept, ?_⟩
    intro report' hreport
    cases hreport
    exact hprogress.skip hname rfl

/-- Removing a doomed artifact. -/
theorem removeDoomed_keeps {handle : BatchAudioHandle} {parsed : ParsedHandle} {entry : DirectoryEntry}
    {removed : SpoolMaintenanceReport} (hpreserved : removed.preserved = report.preserved)
    (hparse : parseHandle config.codec handle.asStr = .ok parsed)
    (hentry : w.directory.lookup (artifactName handle) = some entry)
    (hrow : ∀ row, ledger ⟨parsed.jobId⟩ = some row → row.audio = handle)
    (hdoomed : isDoomed ledger now retention parsed entry = true)
    (hswept : Swept config.codec ledger now retention before w.directory)
    (hprogress : Progress config.codec ledger now retention before done report w.directory) :
    VisitKeeps config ledger now retention before done (artifactName handle)
      ((remove config handle).andThen fun outcome =>
        .done (.ok (if outcome = .removed then removed else report))) w := by
  have hbefore := hswept.kept _ _ hentry
  have hname : isDoomedName config.codec ledger now retention before (artifactName handle) = true := by
    have haudio : audioFile config.codec (artifactName handle) = some parsed :=
      audioFile_eq_some.mpr ⟨_, rfl, hparse⟩
    simpa [isDoomedName, haudio, hbefore] using hdoomed
  have hmem : artifactName handle ∈ w.directory := AList.lookup_isSome.mp (by simp [hentry])
  have hheld : ∀ w', Removing w handle parsed w' →
      Swept config.codec ledger now retention before w'.directory := fun w' hremoving =>
    hswept.removing hparse hrow
      (fun entry' hentry' => Option.some.inj (hbefore.symm.trans hentry') ▸ hdoomed) hmem hremoving
  have hremove : Task.Keeps (servesSpool config.codec ledger)
      (fun w' => Swept config.codec ledger now retention before w'.directory)
      (fun reply w' => Removing w handle parsed w' ∧ ∀ outcome, reply = .ok outcome →
        artifactName handle ∉ w'.directory) (remove config handle) w :=
    (remove_keeps config hparse).mono hheld fun _ _ hremoving hpost => ⟨hremoving, hpost⟩
  refine hremove.andThen (fun _ _ _ _ => by simp) ?_
  rintro outcome w' hswept' ⟨hremoving, hgone⟩
  refine ⟨hswept', ?_⟩
  intro report' hreport
  cases hreport
  refine hprogress.remove hname hremoving (hgone outcome rfl) ?_
  split
  · exact hpreserved
  · rfl

/-- What visiting a name owes besides: it reports a ledger failure only for a fault of the ledger. -/
abbrev VisitExplains (config : SpoolConfig) (ledger : BatchJobId → Option BatchJobSnapshot) (now : ℤ)
    (retention : ℕ) (before : Directory) (done : List FileName) (name : FileName)
    (t : SpoolTask config.codec (Except BatchAudioSpoolFailure SpoolMaintenanceReport)) (w : SpoolWorld) :
    Prop :=
  Task.Keeps (servesSpool config.codec ledger)
    (fun w' => Swept config.codec ledger now retention before w'.directory)
    (fun reply w' => (∀ report, reply = .ok report →
        Progress config.codec ledger now retention before (done ++ [name]) report w'.directory) ∧
      (reply = .error ledgerFailure → LedgerFault config.codec ledger before w')) t w

theorem visitExplains_of_fails {name : FileName}
    {t : SpoolTask config.codec (Except BatchAudioSpoolFailure SpoolMaintenanceReport)}
    (h : VisitKeeps config ledger now retention before done name t w) (hfails : NoLedgerFailure t) :
    VisitExplains config ledger now retention before done name t w :=
  (h.fails hfails).mono (fun _ hheld => hheld) fun _ _ _ hpost =>
    ⟨hpost.1, fun hreply => absurd rfl (hpost.2 _ hreply)⟩

theorem visitAudio_keeps {handle : BatchAudioHandle} {parsed : ParsedHandle} {entry : DirectoryEntry}
    (hparse : parseHandle config.codec handle.asStr = .ok parsed)
    (hentry : w.directory.lookup (artifactName handle) = some entry)
    (hdone : done.length < 2 ^ 63)
    (hswept : Swept config.codec ledger now retention before w.directory)
    (hprogress : Progress config.codec ledger now retention before done report w.directory) :
    VisitExplains config ledger now retention before done (artifactName handle)
      (visitAudio config now retention report handle parsed entry.modified) w := by
  have haudio : audioFile config.codec (artifactName handle) = some parsed :=
    audioFile_eq_some.mpr ⟨_, rfl, hparse⟩
  have hspare (hspared : isDoomed ledger now retention parsed entry = false) :
      VisitExplains config ledger now retention before done (artifactName handle)
        (.done (.ok { report with preserved := U64.saturatingAdd report.preserved 1 })) w := by
    refine ⟨hswept, ?_, by simp⟩
    intro report' hreport
    cases hreport
    refine hprogress.spare ?_ hdone
    simp [isSpared, isDoomedName, haudio, hswept.kept _ _ hentry, hspared]
  have hremoveFails (removed : SpoolMaintenanceReport) : NoLedgerFailure ((remove config handle).andThen
      fun outcome => .done (.ok (if outcome = .removed then removed else report))) :=
    (remove_fails handle).andThen fun _ => by simp [Task.Fails]
  refine .await hswept ?_
  intro w' loaded hserve
  rcases servesSpool_loadRow hserve with ⟨rfl, rfl⟩ | ⟨rfl, failure, rfl⟩
  · cases hrow : ledger ⟨parsed.jobId⟩ with
    | some row =>
      dsimp only
      split
      · rename_i hother
        refine ⟨hswept, by simp, fun _ => .inr ⟨_, parsed, row, haudio, hswept.mem ?_, hrow, ?_⟩⟩
        · exact AList.lookup_isSome.mp (by simp [hentry])
        · exact fun hname => hother (artifactName_inj hname)
      rename_i haudioRow
      split
      · rename_i hterminal
        refine visitExplains_of_fails (removeDoomed_keeps rfl hparse hentry ?_
          (by simp [isDoomed, hrow, hterminal]) hswept hprogress) (hremoveFails _)
        intro row' hrow'
        obtain rfl := Option.some.inj (hrow.symm.trans hrow')
        exact not_not.mp haudioRow
      · rename_i hterminal
        exact hspare (by simpa [isDoomed, hrow] using hterminal)
    | none =>
      dsimp only
      split
      · rename_i hexpired
        refine visitExplains_of_fails (removeDoomed_keeps rfl hparse hentry ?_
          (by simp [isDoomed, hrow, hexpired]) hswept hprogress) (hremoveFails _)
        intro row' hrow'
        rw [hrow] at hrow'
        cases hrow'
      · rename_i hexpired
        exact hspare (by simpa [isDoomed, hrow] using hexpired)
  · exact ⟨hswept, by simp, fun _ => .inl (by simp)⟩

/-- Every listed name is visited in one of the ways above, or passed over. -/
theorem visit_keeps {name : FileName} (hname : name ∈ before) (hnot : name ∉ done)
    (hdone : done.length < 2 ^ 63)
    (hswept : Swept config.codec ledger now retention before w.directory)
    (hprogress : Progress config.codec ledger now retention before done report w.directory) :
    VisitExplains config ledger now retention before done name (visit config now retention report name) w := by
  have hpass (haudio : audioFile config.codec name = none) :
      VisitExplains config ledger now retention before done name (.done (.ok report)) w := by
    refine ⟨hswept, ?_, by simp⟩
    intro report' hreport
    cases hreport
    exact hprogress.skip haudio rfl
  refine .await hswept ?_
  intro w' reply hserve
  obtain ⟨rfl, ⟨entry, hentry, rfl⟩ | ⟨kind, rfl, hnone⟩⟩ := servesSpool_symlinkMetadata hserve
  · dsimp only [DirectoryEntry.metadata]
    cases name with
    | raw bytes => exact hpass rfl
    | text text =>
      dsimp only [FileName.toStr]
      split
      · rename_i htext
        exact visitExplains_of_fails (visitTemporary_keeps htext hentry hswept hprogress) (visitTemporary_fails _ _)
      cases hstrip : Text.stripSuffix text ".identity" with
      | some jobId =>
        obtain rfl := Text.stripSuffix_eq_some.mp hstrip
        exact visitExplains_of_fails (visitClaim_keeps hentry hswept hprogress) (visitClaim_fails _ _ _)
      | none =>
        dsimp only
        cases hparse : parseHandle config.codec text with
        | error failure => exact hpass (by simp [audioFile, FileName.toStr, hparse])
        | ok parsed =>
          have hhandle : parseHandle config.codec (⟨text⟩ : BatchAudioHandle).asStr = .ok parsed := hparse
          exact visitAudio_keeps hhandle hentry hdone hswept hprogress
  · dsimp only
    split
    · -- audio is only removed when it is visited, so a name that is gone already is none
      rename_i hkind
      refine hpass ?_
      rw [Option.eq_none_iff_forall_ne_some]
      intro parsed hparsed
      have hmem := (hprogress.audio name parsed hparsed).mpr ⟨hname, fun hdone => absurd hdone hnot⟩
      exact AList.lookup_eq_none.mp (hnone hkind) hmem
    · exact ⟨hswept, by simp, by simp [ioFailure_ne_ledgerFailure]⟩

/-- What a report of a successful pass says of the directory it leaves. -/
structure Reconciled (codec : UuidCodec) (ledger : BatchJobId → Option BatchJobSnapshot) (now : ℤ)
    (retention : ℕ) (after : Directory) (report : SpoolMaintenanceReport) : Prop where
  spared : ∀ name parsed entry, audioFile codec name = some parsed → after.lookup name = some entry →
    isDoomed ledger now retention parsed entry = false
  preserved : report.preserved = (audioFiles codec after).length
  usedBytes : report.usedBytes = ((audioFiles codec after).map (fileSize after)).sum

/-- After a whole listing the audio left is the audio that was spared. -/
theorem reconciled_of_progress {names : List FileName} {after : Directory} {usedBytes : ℕ}
    (hnames : names.Perm before.keys)
    (hswept : Swept config.codec ledger now retention before after)
    (hprogress : Progress config.codec ledger now retention before names report after)
    (hbytes : usedBytes = ((audioFiles config.codec after).map (fileSize after)).sum) :
    Reconciled config.codec ledger now retention after { report with usedBytes } := by
  have hlisted : ∀ name, name ∈ names ↔ name ∈ before := fun name =>
    hnames.mem_iff.trans AList.mem_keys.symm
  refine ⟨?_, ?_, hbytes⟩
  · intro name parsed entry hparsed hentry
    have hmem : name ∈ after := AList.lookup_isSome.mp (by simp [hentry])
    obtain ⟨hbefore, hspared⟩ := (hprogress.audio name parsed hparsed).mp hmem
    simpa [isDoomedName, hparsed, hswept.kept name entry hentry] using hspared ((hlisted name).mpr hbefore)
  · refine hprogress.preserved.trans (List.Perm.length_eq ?_)
    refine (List.perm_ext_iff_of_nodup ?_ ?_).mpr ?_
    · exact (hnames.nodup_iff.mpr before.keys_nodup).filter _
    · exact after.keys_nodup.filter _
    · intro name
      rw [List.mem_filter, audioFiles, List.mem_filter, ← AList.mem_keys, hlisted]
      cases hparsed : audioFile config.codec name with
      | none => simp [isSpared, hparsed]
      | some parsed =>
        simp only [isSpared, hparsed, hprogress.audio name parsed hparsed, hlisted, Option.isSome_some,
          Bool.true_and, Bool.not_eq_true', and_true]
        exact and_congr_right fun hbefore => ⟨fun h _ => h, fun h => h hbefore⟩

/-- A pass removes nothing but garbage, wherever it stops, accounts for what it leaves, and reports a
ledger failure only for a fault of the ledger. -/
theorem reconcile_keeps (hbefore : w.directory = before) :
    Task.Keeps (servesSpool config.codec ledger)
      (fun w' => Swept config.codec ledger now retention before w'.directory)
      (fun reply w' => (∀ report, reply = .ok report →
          Reconciled config.codec ledger now retention w'.directory report) ∧
        (reply = .error ledgerFailure → LedgerFault config.codec ledger before w'))
      (reconcile config now retention) w := by
  have hswept : Swept config.codec ledger now retention before w.directory := by
    refine ⟨fun _ _ hentry => hbefore ▸ hentry, ?_⟩
    intro name entry hentry hgone
    rw [hbefore] at hgone
    exact absurd (AList.lookup_isSome.mp (by simp [hentry])) hgone
  refine ((readDir_keeps hswept).fails (attempt_fails ioFailure_ne_ledgerFailure _)).andThen ?_ ?_
  · rintro failure w' - ⟨-, hfailure⟩
    exact ⟨by simp, fun hreply => absurd (Except.error.inj hreply) (hfailure _ rfl)⟩
  rintro ⟨names, failure⟩ w - ⟨⟨rfl, hlisting⟩, -⟩
  cases failure with
  | some kind => exact ⟨hswept, by simp, by simp [ioFailure_ne_ledgerFailure]⟩
  | none =>
    have hlisting := hlisting names none rfl
    have hperm : names.Perm before.keys := hbefore ▸ SpoolWorld.perm_of_isListing hlisting
    have hnodup : names.Nodup := hperm.nodup_iff.mpr before.keys_nodup
    have hlisted : ∀ name, name ∈ names → name ∈ before := fun name hname =>
      AList.mem_keys.mpr (hperm.mem_iff.mp hname)
    have hstart : Progress config.codec ledger now retention before [] ⟨0, 0, 0, 0, 0, config.maximumTotalBytes⟩
        w.directory := ⟨fun name parsed _ => by simp [hbefore], rfl⟩
    have hloop : Task.Keeps (servesSpool config.codec ledger)
        (fun w' => Swept config.codec ledger now retention before w'.directory)
        (fun reply w' => (∀ report, reply = .ok report →
            Progress config.codec ledger now retention before names report w'.directory) ∧
          (reply = .error ledgerFailure → LedgerFault config.codec ledger before w'))
        (Task.forEach (visit config now retention) ⟨0, 0, 0, 0, 0, config.maximumTotalBytes⟩ names) w := by
      refine Task.Keeps.forEach (fun done report w' =>
        Progress config.codec ledger now retention before done report w'.directory) names ?_ ?_ hswept hstart
      · rintro done name rest report w' rfl hswept' hprogress
        have hnot : name ∉ done := fun hmem =>
          (List.nodup_append.mp hnodup).2.2 name hmem name List.mem_cons_self rfl
        have hlength : done.length < 2 ^ 63 := by
          have := SpoolWorld.length_of_isListing hlisting
          rw [List.length_append] at this
          omega
        refine (visit_keeps (hlisted name (by simp)) hnot hlength hswept' hprogress).mono (fun _ h => h) ?_
        intro reply w'' _ hpost
        cases reply with
        | error failure => exact ⟨by simp, hpost.2⟩
        | ok report' => exact hpost.1 report' rfl
      · intro report w' _ hprogress
        refine ⟨?_, by simp⟩
        intro report' hreport
        cases hreport
        exact hprogress
    refine hloop.andThen (fun _ _ _ hpost => ⟨by simp, fun hreply => hpost.2 hreply⟩) ?_
    rintro report w' hswept' ⟨hprogress, -⟩
    refine ((spoolAudioBytes_keeps hswept').fails spoolAudioBytes_fails).andThen ?_ ?_
    · rintro failure w'' - ⟨-, hfailure⟩
      exact ⟨by simp, fun hreply => absurd (Except.error.inj hreply) (hfailure _ rfl)⟩
    rintro usedBytes w'' - ⟨⟨rfl, hbytes⟩, -⟩
    refine ⟨hswept', ?_, by simp⟩
    intro report' hreport
    cases hreport
    exact reconciled_of_progress hperm hswept' (hprogress report rfl) (hbytes usedBytes rfl)

end DurableFileSpool

end Voicetext.Gateway.Storage
