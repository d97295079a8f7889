import Mathlib.Algebra.BigOperators.Group.List.Basic
import Voicetext.Gateway.Storage.SpoolFiles

/-!
# What spool mutations can do to the directory

One specification for each call. Looking leaves the directory as it is; a removal first unlinks the
artifact and then, once that is gone, the claim which names its digest; a creation shows nothing but
temporary names until its file is complete. Every one of these holds wherever the call stops.
-/

namespace Voicetext.Gateway.Storage

open Voicetext.Common Voicetext.Speech.Application

namespace SpoolWorld

@[simp] theorem directory_record (w : SpoolWorld) (event : SpoolEvent) :
    (w.record event).directory = w.directory := rfl

@[simp] theorem directory_insert (w : SpoolWorld) (name : FileName) (entry : DirectoryEntry) :
    (w.insert name entry).directory = w.directory.insert name entry := rfl

@[simp] theorem directory_erase (w : SpoolWorld) (name : FileName) :
    (w.erase name).directory = w.directory.erase name := rfl

@[simp] theorem events_record (w : SpoolWorld) (event : SpoolEvent) :
    (w.record event).events = w.events ++ [event] := rfl

@[simp] theorem events_insert (w : SpoolWorld) (name : FileName) (entry : DirectoryEntry) :
    (w.insert name entry).events = w.events := rfl

@[simp] theorem events_erase (w : SpoolWorld) (name : FileName) : (w.erase name).events = w.events := rfl

/-- Since then the directory has only been read, and what was read of a file is its contents. -/
structure Quiet (w w' : SpoolWorld) : Prop where
  directory : w'.directory = w.directory
  events : ∃ reads, w'.events = w.events ++ reads ∧ ∀ event ∈ reads, ∃ name entry,
    w.directory.lookup name = some entry ∧ entry.fileType = .file ∧ event = .read name entry.contents

theorem Quiet.refl (w : SpoolWorld) : w.Quiet w := ⟨rfl, [], by simp⟩

theorem Quiet.trans {w w' w'' : SpoolWorld} (h : w.Quiet w') (h' : w'.Quiet w'') : w.Quiet w'' := by
  obtain ⟨reads, hevents, hreads⟩ := h.events
  obtain ⟨reads', hevents', hreads'⟩ := h'.events
  rw [h.directory] at hreads'
  refine ⟨h'.directory.trans h.directory, reads ++ reads', by simp [hevents', hevents], ?_⟩
  intro event hmem
  exact (List.mem_append.mp hmem).elim (hreads event) (hreads' event)

theorem Quiet.read {w : SpoolWorld} {name : FileName} {entry : DirectoryEntry}
    (hentry : w.directory.lookup name = some entry) (hfile : entry.fileType = .file) :
    w.Quiet (w.record (.read name entry.contents)) :=
  ⟨rfl, [.read name entry.contents], rfl, fun _ hmem => ⟨name, entry, hentry, hfile, List.mem_singleton.mp hmem⟩⟩

/-- Since then only temporary files have come and gone. -/
structure Hidden (w w' : SpoolWorld) : Prop where
  lookup : ∀ name, (∀ text, name = .text text → isTemporary text = false) →
    w'.directory.lookup name = w.directory.lookup name
  events : ∃ more, w'.events = w.events ++ more ∧
    ∀ event ∈ more, ∃ text, isTemporary text = true ∧ event = .removed (.text text)

theorem Hidden.refl (w : SpoolWorld) : w.Hidden w := ⟨fun _ _ => rfl, [], by simp⟩

theorem Hidden.insert {w w' : SpoolWorld} (h : w.Hidden w') {text : String} (htext : isTemporary text = true)
    (entry : DirectoryEntry) : w.Hidden (w'.insert (.text text) entry) := by
  refine ⟨?_, h.events⟩
  intro name hname
  have hne : name ≠ .text text := fun heq => by simp [hname text heq] at htext
  rw [directory_insert, AList.lookup_insert_ne hne, h.lookup name hname]

theorem Hidden.erase {w w' : SpoolWorld} (h : w.Hidden w') {text : String} (htext : isTemporary text = true) :
    w.Hidden ((w'.erase (.text text)).record (.removed (.text text))) := by
  refine ⟨?_, ?_⟩
  · intro name hname
    have hne : name ≠ .text text := fun heq => by simp [hname text heq] at htext
    rw [directory_record, directory_erase, AList.lookup_erase_ne hne, h.lookup name hname]
  · obtain ⟨more, hevents, hmore⟩ := h.events
    refine ⟨more ++ [.removed (.text text)], by simp [hevents], ?_⟩
    intro event hmem
    rcases List.mem_append.mp hmem with hmem | hmem
    · exact hmore event hmem
    · exact ⟨text, htext, List.mem_singleton.mp hmem⟩

theorem perm_of_isListing {w : SpoolWorld} {names : List FileName} (h : w.isListing names none = true) :
    names.Perm w.directory.keys := by
  simp only [isListing, Bool.and_eq_true] at h
  simpa using h.2

/-- A listing names what is there. -/
theorem mem_of_isListing {w : SpoolWorld} {names : List FileName} {failure : Option ErrorKind}
    (h : w.isListing names failure = true) {name : FileName} (hname : name ∈ names) : name ∈ w.directory := by
  cases failure with
  | none => exact AList.mem_keys.mpr ((perm_of_isListing h).mem_iff.mp hname)
  | some kind =>
    simp only [isListing, Bool.and_eq_true, reduceCtorEq, if_false, List.all_eq_true] at h
    exact AList.mem_keys.mpr (by simpa using h.2.2 name hname)

/-- A listing is a vector. -/
theorem length_of_isListing {w : SpoolWorld} {names : List FileName} {failure : Option ErrorKind}
    (h : w.isListing names failure = true) : names.length < 2 ^ 63 := by
  simp only [isListing, Bool.and_eq_true, decide_eq_true_eq] at h
  exact h.1

end SpoolWorld

/-- Size of a file. -/
def fileSize (directory : Directory) (name : FileName) : ℕ :=
  ((directory.lookup name).map fun entry => entry.contents.length).getD 0

/-- The audio artifacts in a directory. -/
def audioFiles (codec : UuidCodec) (directory : Directory) : List FileName :=
  directory.keys.filter fun name => (audioFile codec name).isSome

/-- What a removal can do: unlink the artifact, and then the claim naming its digest. -/
inductive Removing (w : SpoolWorld) (handle : BatchAudioHandle) (parsed : ParsedHandle) : SpoolWorld → Prop
  | start : Removing w handle parsed w
  | unlink (hartifact : artifactName handle ∈ w.directory) :
      Removing w handle parsed ((w.erase (artifactName handle)).record (.removed (artifactName handle)))
  | quiet {w₁ w₂ : SpoolWorld} (hbefore : Removing w handle parsed w₁) (hquiet : w₁.Quiet w₂) :
      Removing w handle parsed w₂
  | release {w₁ : SpoolWorld} {entry : DirectoryEntry} (hbefore : Removing w handle parsed w₁)
      (hgone : artifactName handle ∉ w₁.directory)
      (hentry : w₁.directory.lookup (claimName parsed.jobId) = some entry)
      (hcontents : entry.contents = Text.asBytes parsed.digest) :
      Removing w handle parsed
        ((w₁.erase (claimName parsed.jobId)).record (.removed (claimName parsed.jobId)))

/-- A complete file has been linked to its own name, which was free. -/
def Linked (w : SpoolWorld) (final : FileName) (contents : List UInt8) (w' : SpoolWorld) : Prop :=
  ∃ middle entry, w.Hidden middle ∧ w.directory.lookup final = none ∧ entry.fileType = .file ∧
    entry.contents = contents ∧ ((middle.insert final entry).record (.linked final)).Hidden w'

/-- What a creation can do: its file is not there, or complete. -/
def Creating (w : SpoolWorld) (final : FileName) (contents : List UInt8) (w' : SpoolWorld) : Prop :=
  w.Hidden w' ∨ Linked w final contents w'

/-- What a creation has done when it replies. -/
def Created (w : SpoolWorld) (final : FileName) (contents : List UInt8)
    (reply : Except BatchAudioSpoolFailure Bool) (w' : SpoolWorld) : Prop :=
  (reply = .ok true → Linked w final contents w') ∧
    (reply = .ok false → w.Hidden w' ∧ final ∈ w.directory)

namespace DurableFileSpool

variable {codec : UuidCodec} {ledger : BatchJobId → Option BatchJobSnapshot} {held : SpoolWorld → Prop}
  {w : SpoolWorld}

/-- Awaiting an operation whose failures are reported adds nothing to the operation. -/
theorem attempt_keeps {α : Type} {failure : ErrorKind → BatchAudioSpoolFailure}
    {t : SpoolTask codec (Except ErrorKind α)} {post : Except BatchAudioSpoolFailure α → SpoolWorld → Prop}
    (h : Task.Keeps (servesSpool codec ledger) held (fun reply => post (reply.mapError failure)) t w) :
    Task.Keeps (servesSpool codec ledger) held post (attempt failure t) w :=
  h.bind fun _ _ hheld hpost => ⟨hheld, hpost⟩

theorem syncDirectory_keeps (hheld : held w) :
    Task.Keeps (servesSpool codec ledger) held (fun _ w' => w' = w) syncDirectory w := by
  refine attempt_keeps (.await hheld ?_)
  intro w' reply hserve
  obtain rfl := servesSpool_syncDirectory hserve
  exact ⟨hheld, rfl⟩

theorem regularFileMetadata_keeps (name : FileName) (hheld : held w) :
    Task.Keeps (servesSpool codec ledger) held (fun reply w' => w' = w ∧
        (∀ metadata, reply = .ok metadata → ∃ entry, w.directory.lookup name = some entry ∧
          entry.fileType = .file ∧ metadata = entry.metadata) ∧
        (reply = .error .missing → w.directory.lookup name = none))
      (regularFileMetadata name) w := by
  refine .await hheld ?_
  intro w' reply hserve
  obtain ⟨rfl, ⟨entry, hentry, rfl⟩ | ⟨kind, rfl, hnone⟩⟩ := servesSpool_symlinkMetadata hserve
  · dsimp only
    split
    · exact ⟨hheld, rfl, by simp, by simp [Spool.invalidStorage]⟩
    · rename_i hfile
      refine ⟨hheld, rfl, ?_, by simp⟩
      intro metadata hmetadata
      cases hmetadata
      exact ⟨entry, hentry, not_not.mp hfile, rfl⟩
  · dsimp only
    refine ⟨hheld, rfl, by simp, ?_⟩
    intro hmissing
    split at hmissing
    · exact hnone ‹_›
    · simp [unavailable] at hmissing

/-- A small file is read whole, or not at all. -/
theorem readSmallRegularFile_keeps (name : FileName) (maximumBytes : ℕ)
    (hheld : ∀ w', w.Quiet w' → held w') :
    Task.Keeps (servesSpool codec ledger) held (fun reply w' => w.Quiet w' ∧
        (∀ bytes, reply = .ok bytes → ∃ entry, w.directory.lookup name = some entry ∧
          entry.fileType = .file ∧ bytes = entry.contents ∧ .read name bytes ∈ w'.events) ∧
        (reply = .error .missing → w.directory.lookup name = none))
      (readSmallRegularFile name maximumBytes) w := by
  refine (regularFileMetadata_keeps name (hheld w (.refl w))).andThen ?_ ?_
  · rintro failure _ _ ⟨rfl, -, hmissing⟩
    exact ⟨.refl _, by simp, fun h => hmissing (by simpa using h)⟩
  · rintro metadata w hw ⟨rfl, hmetadata, -⟩
    obtain ⟨entry, hentry, hfile, rfl⟩ := hmetadata metadata rfl
    split
    · exact ⟨hw, .refl _, by simp, by simp⟩
    rename_i hbound
    split
    · exact ⟨hw, .refl _, by simp, by simp [Spool.invalidStorage]⟩
    have hread : Task.Keeps (servesSpool codec ledger) held (fun reply w' => w.Quiet w' ∧
        (∀ bytes, reply = .ok bytes → bytes = entry.contents ∧ .read name bytes ∈ w'.events) ∧
        reply ≠ .error .missing)
        (attempt unavailable (Task.call (SpoolOp.readFile name (maximumBytes + 1)))) w := by
      refine attempt_keeps (.await hw ?_)
      intro w' reply hserve
      rcases servesSpool_readFile hserve with ⟨rfl, kind, rfl⟩ | ⟨entry', hentry', _, rfl, rfl⟩
      · exact ⟨hw, .refl _, by simp [Except.mapError], by simp [Except.mapError, unavailable]⟩
      · obtain rfl := Option.some.inj (hentry.symm.trans hentry')
        have hwhole : entry.contents.take (maximumBytes + 1) = entry.contents :=
          List.take_of_length_le (by simp [DirectoryEntry.metadata] at hbound; omega)
        rw [hwhole]
        have hquiet := SpoolWorld.Quiet.read hentry hfile
        refine ⟨hheld _ hquiet, hquiet, ?_, by simp [Except.mapError]⟩
        intro bytes hbytes
        cases hbytes
        exact ⟨rfl, by simp⟩
    refine hread.andThen ?_ ?_
    · rintro failure w' _ ⟨hquiet, -, hmissing⟩
      exact ⟨hquiet, by simp, fun h => absurd (by simpa using h) hmissing⟩
    · rintro bytes w' hw' ⟨hquiet, hbytes, -⟩
      obtain ⟨rfl, hread⟩ := hbytes _ rfl
      split
      · exact ⟨hw', hquiet, by simp, by simp⟩
      · refine ⟨hw', hquiet, ?_, by simp⟩
        intro bytes hreply
        cases hreply
        exact ⟨entry, hentry, hfile, rfl, hread⟩

/-- A listing names the directory as it is. -/
theorem readDir_keeps {failureOf : ErrorKind → BatchAudioSpoolFailure} (hheld : held w) :
    Task.Keeps (servesSpool codec ledger) held (fun reply w' => w' = w ∧
        ∀ names failure, reply = .ok (names, failure) → w.isListing names failure = true)
      (attempt failureOf (Task.call SpoolOp.readDir)) w := by
  refine attempt_keeps (.await hheld ?_)
  intro w' reply hserve
  obtain ⟨rfl, hlisting⟩ := servesSpool_readDir hserve
  refine ⟨hheld, rfl, ?_⟩
  intro names failure hreply
  cases reply with
  | error kind => cases hreply
  | ok listing => exact hlisting names failure (by simpa [Except.mapError] using hreply)

/-- Adding the size of a listed artifact needs it to be a regular file. -/
theorem addAudioBytes_keeps (total : ℕ) (name : FileName) (hname : name ∈ w.directory) (hheld : held w) :
    Task.Keeps (servesSpool codec ledger) held (fun reply w' => w' = w ∧ ∀ total', reply = .ok total' →
        total' = total + if (audioFile codec name).isSome then fileSize w.directory name else 0)
      (addAudioBytes total name) w := by
  unfold addAudioBytes
  cases haudio : audioFile codec name with
  | none => exact ⟨hheld, rfl, by simp⟩
  | some parsed =>
    simp only [Option.isSome_some, if_true]
    have hsize : Task.Keeps (servesSpool codec ledger) held (fun reply w' => w' = w ∧
        ∀ metadata : Metadata, reply = .ok metadata → metadata.len = fileSize w.directory name)
        (attempt unavailable (Task.call (SpoolOp.symlinkMetadata name))) w := by
      refine attempt_keeps (.await hheld ?_)
      intro w' reply hserve
      obtain ⟨rfl, ⟨entry, hentry, rfl⟩ | ⟨kind, rfl, -⟩⟩ := servesSpool_symlinkMetadata hserve
      · refine ⟨hheld, rfl, ?_⟩
        intro metadata hmetadata
        cases hmetadata
        simp [fileSize, hentry, DirectoryEntry.metadata]
      · exact ⟨hheld, rfl, by simp [Except.mapError]⟩
    refine hsize.andThen ?_ ?_
    · rintro failure w' _ ⟨rfl, -⟩
      exact ⟨rfl, by simp⟩
    · rintro metadata w' _ ⟨rfl, hlen⟩
      split
      · exact ⟨hheld, rfl, by simp⟩
      split
      · exact ⟨hheld, rfl, by simp⟩
      · rename_i sum hsum
        refine ⟨hheld, rfl, ?_⟩
        intro total' htotal
        cases htotal
        rw [← (U64.checkedAdd_eq_some.mp hsum).2, hlen metadata rfl]

/-- The bytes counted are those of the artifacts in the directory. -/
theorem spoolAudioBytes_keeps (hheld : held w) :
    Task.Keeps (servesSpool codec ledger) held (fun reply w' => w' = w ∧ ∀ total, reply = .ok total →
        total = ((audioFiles codec w.directory).map (fileSize w.directory)).sum)
      spoolAudioBytes w := by
  refine (readDir_keeps hheld).andThen ?_ ?_
  · rintro failure w' _ ⟨rfl, -⟩
    exact ⟨rfl, by simp⟩
  rintro ⟨names, failure⟩ w _ ⟨rfl, hlisting⟩
  have hnames : ∀ name ∈ names, name ∈ w.directory := fun name hname =>
    SpoolWorld.mem_of_isListing (hlisting names failure rfl) hname
  have htotal : Task.Keeps (servesSpool codec ledger) held (fun reply w' => w' = w ∧ ∀ total,
      reply = .ok total → total = (names.map fun name =>
        if (audioFile codec name).isSome then fileSize w.directory name else 0).sum)
      (Task.forEach addAudioBytes 0 names) w := by
    refine Task.Keeps.forEach (fun done total w' => w' = w ∧ total = (done.map fun name =>
      if (audioFile codec name).isSome then fileSize w.directory name else 0).sum) names ?_ ?_ hheld ⟨rfl, rfl⟩
    · rintro done name rest total w' hitems _ ⟨rfl, rfl⟩
      refine (addAudioBytes_keeps _ name (hnames name (by simp [hitems])) hheld).mono (fun _ hw => hw) ?_
      rintro reply w' - ⟨rfl, hreply⟩
      cases reply with
      | error failure => exact ⟨rfl, by simp⟩
      | ok total' => exact ⟨rfl, by simp [hreply total' rfl]⟩
    · rintro total w' - ⟨rfl, rfl⟩
      exact ⟨rfl, by simp⟩
  refine htotal.andThen ?_ ?_
  · rintro failure w' _ ⟨rfl, -⟩
    exact ⟨rfl, by simp⟩
  rintro total w' _ ⟨rfl, hsum⟩
  cases failure with
  | some kind => exact ⟨hheld, rfl, by simp⟩
  | none =>
    refine ⟨hheld, rfl, ?_⟩
    intro total' hreply
    cases hreply
    have hperm : names.Perm w'.directory.keys := SpoolWorld.perm_of_isListing (hlisting names none rfl)
    rw [hsum total rfl, (hperm.map _).sum_eq, audioFiles, List.sum_map_ite]
    simp

/-- Unlinking reports success only once the artifact is gone. -/
theorem unlinkArtifact_keeps (handle : BatchAudioHandle) (parsed : ParsedHandle) :
    Task.Keeps (servesSpool codec ledger) (Removing w handle parsed)
      (fun reply w' => ∀ outcome, reply = .ok outcome → artifactName handle ∉ w'.directory)
      (unlinkArtifact (artifactName handle)) w := by
  refine .await .start ?_
  intro w' reply hserve
  obtain ⟨rfl, ⟨entry, hentry, rfl⟩ | ⟨kind, rfl, hnone⟩⟩ := servesSpool_symlinkMetadata hserve
  · dsimp only
    split
    · exact ⟨.start, by simp⟩
    refine .call .start ?_
    intro w'' reply hserve
    rcases servesSpool_removeFile hserve with ⟨rfl, kind, rfl, hnone⟩ | ⟨hmem, rfl, rfl⟩
    · dsimp only
      split
      · rename_i hkind
        exact ⟨.start, fun _ _ => AList.lookup_eq_none.mp (hnone hkind)⟩
      · exact ⟨.start, by simp⟩
    · exact ⟨.unlink hmem, by simp⟩
  · dsimp only
    split
    · rename_i hkind
      exact ⟨.start, fun _ _ => AList.lookup_eq_none.mp (hnone hkind)⟩
    · exact ⟨.start, by simp⟩

/-- A claim is only released when the artifact of its digest is gone. -/
theorem releaseClaim_keeps {config : SpoolConfig} {w₀ : SpoolWorld} {handle : BatchAudioHandle}
    {parsed : ParsedHandle} (hw : Removing w₀ handle parsed w) (hgone : artifactName handle ∉ w.directory) :
    Task.Keeps (servesSpool config.codec ledger) (Removing w₀ handle parsed)
      (fun _ w' => artifactName handle ∉ w'.directory) (releaseClaim config parsed) w := by
  refine (readSmallRegularFile_keeps (claimName parsed.jobId) 64 fun w' hquiet => hw.quiet hquiet).bind ?_
  rintro reply w' hw' ⟨hquiet, hread, -⟩
  have hgone' : artifactName handle ∉ w'.directory := by rwa [hquiet.directory]
  cases reply with
  | error failure => cases failure <;> exact ⟨hw', hgone'⟩
  | ok value =>
    dsimp only
    split
    · rename_i hvalue
      obtain ⟨entry, hentry, -, hcontents, -⟩ := hread value rfl
      refine attempt_keeps (.await hw' ?_)
      intro w'' reply hserve
      rcases servesSpool_removeFile hserve with ⟨rfl, kind, rfl, -⟩ | ⟨hmem, rfl, rfl⟩
      · exact ⟨hw', hgone'⟩
      · refine ⟨hw'.release hgone' (by rwa [hquiet.directory]) (hcontents.symm.trans hvalue), ?_⟩
        simpa [AList.mem_erase] using fun _ => hgone'
    · exact ⟨hw', hgone'⟩

/-- A removal reports success only once the artifact is gone. -/
theorem removeBlocking_keeps (config : SpoolConfig) {handle : BatchAudioHandle} {parsed : ParsedHandle}
    (hparse : parseHandle config.codec handle.asStr = .ok parsed) :
    Task.Keeps (servesSpool config.codec ledger) (Removing w handle parsed)
      (fun reply w' => ∀ outcome, reply = .ok outcome → artifactName handle ∉ w'.directory)
      (removeBlocking config handle) w := by
  refine .await .start ?_
  intro w' locked hserve
  obtain rfl := servesSpool_lockMutation hserve
  split
  · exact ⟨.start, by simp⟩
  rw [hparse]
  refine (unlinkArtifact_keeps handle parsed).andThen (fun _ _ _ _ => by simp) ?_
  intro outcome w hw hgone
  refine (releaseClaim_keeps hw (hgone outcome rfl)).andThen (fun _ _ _ _ => by simp) ?_
  intro _ w hw hgone
  refine (syncDirectory_keeps hw).andThen (fun _ _ _ _ => by simp) ?_
  rintro _ w' hw' rfl
  exact ⟨hw', fun _ _ => hgone⟩

theorem remove_keeps (config : SpoolConfig) {handle : BatchAudioHandle} {parsed : ParsedHandle}
    (hparse : parseHandle config.codec handle.asStr = .ok parsed) :
    Task.Keeps (servesSpool config.codec ledger) (Removing w handle parsed)
      (fun reply w' => ∀ outcome, reply = .ok outcome → artifactName handle ∉ w'.directory)
      (remove config handle) w := by
  refine .await .start ?_
  intro w' joined hserve
  obtain rfl := servesSpool_spawnBlocking hserve
  split
  · exact ⟨.start, by simp⟩
  · exact removeBlocking_keeps config hparse

theorem isTemporary_temporary (name : String) : isTemporary ("." ++ name ++ ".tmp") = true := by
  simp only [isTemporary, Bool.and_eq_true, decide_eq_true_eq]
  refine ⟨by simp, List.isSuffixOf_iff_suffix.mpr ⟨("." ++ name).toList, by simp⟩⟩

/-- Linking the temporary file to its own name. -/
theorem linkTemporary_keeps {final : FileName} {contents : List UInt8} {text : String}
    {w₀ : SpoolWorld} {entry : DirectoryEntry}
    (hfinal : ∀ text, final = .text text → isTemporary text = false) (hw : w₀.Hidden w)
    (hentry : w.directory.lookup (.text text) = some entry) (hfile : entry.fileType = .file)
    (hcontents : entry.contents = contents) :
    Task.Keeps (servesSpool codec ledger) (Creating w₀ final contents) (Created w₀ final contents)
      ((Task.call (SpoolOp.hardLink (.text text) final)).bind fun reply : Except ErrorKind Unit =>
        match reply with
        | .ok () => .done (.ok true)
        | .error kind =>
          if kind = .alreadyExists then .done (.ok false) else .done (.error (unavailable kind))) w := by
  refine .call (.inl hw) ?_
  intro w' reply hserve
  rcases servesSpool_hardLink hserve with ⟨rfl, kind, rfl, hexists⟩ | ⟨entry', hentry', hnone, rfl, rfl⟩
  · dsimp only
    split
    · rename_i hkind
      refine ⟨.inl hw, by simp, fun _ => ⟨hw, ?_⟩⟩
      rw [← AList.lookup_isSome, ← hw.lookup final hfinal]
      exact AList.lookup_isSome.mpr (hexists hkind)
    · exact ⟨.inl hw, by simp, by simp⟩
  · obtain rfl := Option.some.inj (hentry.symm.trans hentry')
    rw [hw.lookup final hfinal] at hnone
    have hlinked : Linked w₀ final contents ((w.insert final entry).record (.linked final)) :=
      ⟨w, entry, hw, hnone, hfile, hcontents, .refl _⟩
    exact ⟨.inr hlinked, fun _ => hlinked, by simp⟩

/-- Removing the temporary file again leaves what was created. -/
theorem removeTemporary_keeps {final : FileName} {contents : List UInt8} {text : String}
    {w₀ : SpoolWorld} {result : Except BatchAudioSpoolFailure Bool} (htext : isTemporary text = true)
    (hw : Creating w₀ final contents w) (hresult : Created w₀ final contents result w) :
    Task.Keeps (servesSpool codec ledger) (Creating w₀ final contents) (Created w₀ final contents)
      ((Task.call (SpoolOp.removeFile (.text text))).bind fun cleanup : Except ErrorKind Unit =>
        .done (afterCleanup cleanup result)) w := by
  refine .call hw ?_
  intro w' cleanup hserve
  rcases servesSpool_removeFile hserve with ⟨rfl, kind, rfl, -⟩ | ⟨-, rfl, rfl⟩
  · cases result with
    | error failure => exact ⟨hw, hresult⟩
    | ok created => exact ⟨hw, by simp [Created, afterCleanup]⟩
  · have herase : ∀ {start : SpoolWorld}, start.Hidden w →
        start.Hidden ((w.erase (.text text)).record (.removed (.text text))) := fun h => h.erase htext
    have hlinked (h : Linked w₀ final contents w) :
        Linked w₀ final contents ((w.erase (.text text)).record (.removed (.text text))) := by
      obtain ⟨middle, entry, hmiddle, hnone, hfile, hcontents, hlast⟩ := h
      exact ⟨middle, entry, hmiddle, hnone, hfile, hcontents, herase hlast⟩
    refine ⟨hw.imp herase hlinked, fun h => hlinked (hresult.1 h), fun h => ?_⟩
    exact (hresult.2 h).imp_left herase

/-- A file appears under its own name only when it is complete, and only where none was before. -/
theorem createFileAtomic_keeps {final : FileName} (contents : List UInt8)
    (hfinal : ∀ text, final = .text text → isTemporary text = false) :
    Task.Keeps (servesSpool codec ledger) (Creating w final contents) (Created w final contents)
      (createFileAtomic final contents) w := by
  refine .await (.inl (.refl w)) ?_
  intro w' uuid hserve
  obtain rfl := servesSpool_newUuid hserve
  have htext := isTemporary_temporary (codec.hyphenated uuid)
  generalize "." ++ codec.hyphenated uuid ++ ".tmp" = text at htext ⊢
  have hcreate : Task.Keeps (servesSpool codec ledger) (Creating w' final contents)
      (fun reply w'' => reply = .ok () → ∃ modified, w'' = w'.insert (.text text) ⟨.file, [], modified⟩)
      (attempt unavailable (Task.call (SpoolOp.createNew (.text text)))) w' := by
    refine attempt_keeps (.await (.inl (.refl w')) ?_)
    intro w'' reply hserve
    rcases servesSpool_createNew hserve with ⟨rfl, kind, rfl⟩ | ⟨-, modified, rfl⟩
    · exact ⟨.inl (.refl _), by simp [Except.mapError]⟩
    · exact ⟨.inl ((SpoolWorld.Hidden.refl w').insert htext _), fun _ => ⟨modified, rfl⟩⟩
  refine hcreate.andThen (fun _ _ _ _ => ⟨by simp, by simp⟩) ?_
  intro _ w₁ _ hcreated
  obtain ⟨modified, rfl⟩ := hcreated rfl
  have hw := (SpoolWorld.Hidden.refl w').insert htext ⟨.file, [], modified⟩
  have hwrite : Task.Keeps (servesSpool codec ledger) (Creating w' final contents)
      (fun reply w₂ => w'.Hidden w₂ ∧ (reply = .ok () → ∃ entry, w₂.directory.lookup (.text text) = some entry ∧
        entry.fileType = .file ∧ entry.contents = contents))
      (attempt unavailable (Task.call (SpoolOp.writeAll (.text text) contents)))
      (w'.insert (.text text) ⟨.file, [], modified⟩) := by
    refine attempt_keeps (.await (.inl hw) ?_)
    intro w₂ reply hserve
    obtain ⟨entry, written, hentry, rfl, hwritten⟩ := servesSpool_writeAll hserve
    rw [SpoolWorld.directory_insert, AList.lookup_insert] at hentry
    obtain rfl := Option.some.inj hentry
    refine ⟨.inl (hw.insert htext _), hw.insert htext _, ?_⟩
    intro hreply
    refine ⟨_, AList.lookup_insert _, rfl, hwritten ?_⟩
    cases reply with
    | ok _ => rfl
    | error kind => cases hreply
  have hlink : Task.Keeps (servesSpool codec ledger) (Creating w' final contents) (Created w' final contents)
      ((attempt unavailable (Task.call (SpoolOp.writeAll (.text text) contents))).andThen fun _ =>
        (attempt unavailable (Task.call (SpoolOp.syncAll (.text text)))).andThen fun _ =>
          (Task.call (SpoolOp.hardLink (.text text) final)).bind fun reply : Except ErrorKind Unit =>
            match reply with
            | .ok () => .done (.ok true)
            | .error kind =>
              if kind = .alreadyExists then .done (.ok false) else .done (.error (unavailable kind)))
      (w'.insert (.text text) ⟨.file, [], modified⟩) := by
    refine hwrite.andThen (fun _ _ _ _ => ⟨by simp, by simp⟩) ?_
    rintro _ w₂ hw₂ ⟨hhidden, hwritten⟩
    obtain ⟨entry, hentry, hfile, hcontents⟩ := hwritten rfl
    have hsync : Task.Keeps (servesSpool codec ledger) (Creating w' final contents)
        (fun _ w₃ => w₃ = w₂) (attempt unavailable (Task.call (SpoolOp.syncAll (.text text)))) w₂ := by
      refine attempt_keeps (.await hw₂ ?_)
      intro w₃ reply hserve
      obtain rfl := servesSpool_syncAll hserve
      exact ⟨hw₂, rfl⟩
    refine hsync.andThen (fun _ _ _ _ => ⟨by simp, by simp⟩) ?_
    rintro _ w₃ - rfl
    exact linkTemporary_keeps hfinal hhidden hentry hfile hcontents
  refine hlink.bind ?_
  intro result w₂ hw₂ hresult
  exact removeTemporary_keeps htext hw₂ hresult

end DurableFileSpool

end Voicetext.Gateway.Storage
