import Voicetext.Gateway.Storage.SpoolCalls

/-!
# Identity claims under crashes

Audio is claimed when the identity claim of its job names its digest, so claimed audio is the only audio
of its job. A removal keeps audio claimed wherever it stops. A store does too, unless it stops after its
new artifact appeared and before its claim is settled.
-/

namespace Voicetext.Gateway.Storage

open Voicetext.Common Voicetext.Speech.Application

/-- Every artifact is claimed: its job's claim names its digest. -/
def Claimed (codec : UuidCodec) (directory : Directory) : Prop :=
  ∀ name parsed, audioFile codec name = some parsed → name ∈ directory →
    ∃ entry, directory.lookup (claimName parsed.jobId) = some entry ∧ entry.fileType = .file ∧
      entry.contents = Text.asBytes parsed.digest

/-- A new artifact was linked, and then its claim was linked or found to agree, or it was removed again. -/
def Settles (jobId digest : String) (final : FileName) (events : List SpoolEvent) : Prop :=
  .linked final ∈ events → .linked (claimName jobId) ∈ events ∨
    .read (claimName jobId) (Text.asBytes digest) ∈ events ∨ .removed final ∈ events

/-- A file that is not temporary. -/
def IsKept (name : FileName) : Prop := ∀ text, name = .text text → isTemporary text = false

theorem isKept_of_audioFile {codec : UuidCodec} {name : FileName} {parsed : ParsedHandle}
    (h : audioFile codec name = some parsed) : IsKept name := by
  rintro text rfl
  rw [Bool.eq_false_iff]
  intro htemporary
  simp [audioFile_of_isTemporary htemporary] at h

theorem isKept_claimName (jobId : String) : IsKept (claimName jobId) := by
  intro text htext
  rw [← FileName.text.inj htext]
  exact isTemporary_claim jobId

/-- The job and digest of an artifact determine its name. -/
theorem audioFile_inj {codec : UuidCodec} {name name' : FileName} {parsed : ParsedHandle}
    (h : audioFile codec name = some parsed) (h' : audioFile codec name' = some parsed) : name = name' := by
  obtain ⟨text, rfl, hparse⟩ := audioFile_eq_some.mp h
  obtain ⟨text', rfl, hparse'⟩ := audioFile_eq_some.mp h'
  rw [(parseHandle_eq_ok.mp hparse).1, (parseHandle_eq_ok.mp hparse').1]

section Claimed

variable {codec : UuidCodec} {before after : Directory}

/-- Claimed audio is the only audio of its job. -/
theorem Claimed.unique (h : Claimed codec before) {name name' : FileName} {parsed parsed' : ParsedHandle}
    (hparsed : audioFile codec name = some parsed) (hparsed' : audioFile codec name' = some parsed')
    (hname : name ∈ before) (hname' : name' ∈ before) (hjob : parsed.jobId = parsed'.jobId) :
    name = name' := by
  obtain ⟨entry, hentry, -, hcontents⟩ := h name parsed hparsed hname
  obtain ⟨entry', hentry', -, hcontents'⟩ := h name' parsed' hparsed' hname'
  rw [hjob] at hentry
  obtain rfl := Option.some.inj (hentry.symm.trans hentry')
  have hdigest : parsed.digest = parsed'.digest := Text.asBytes_inj.mp (hcontents.symm.trans hcontents')
  have hsame : parsed = parsed' := by
    cases parsed
    cases parsed'
    simp_all
  exact audioFile_inj hparsed (hsame ▸ hparsed')

/-- Temporary files do not matter. -/
theorem Claimed.congr (h : Claimed codec before)
    (hsame : ∀ name, IsKept name → after.lookup name = before.lookup name) : Claimed codec after := by
  intro name parsed hparsed hname
  rw [← AList.lookup_isSome, hsame name (isKept_of_audioFile hparsed), AList.lookup_isSome] at hname
  obtain ⟨entry, hentry, hclaimed⟩ := h name parsed hparsed hname
  exact ⟨entry, (hsame _ (isKept_claimName _)).trans hentry, hclaimed⟩

/-- Without an artifact the rest is still claimed. -/
theorem Claimed.unlink (h : Claimed codec before) {name : FileName} {parsed : ParsedHandle}
    (hparsed : audioFile codec name = some parsed) : Claimed codec (before.erase name) := by
  intro other otherParsed hother hmem
  obtain ⟨entry, hentry, hclaimed⟩ := h other otherParsed hother (AList.mem_erase.mp hmem).2
  refine ⟨entry, ?_, hclaimed⟩
  have hne : claimName otherParsed.jobId ≠ name := fun heq => by simp [← heq] at hparsed
  rw [AList.lookup_erase_ne hne, hentry]

/-- A claim whose own artifact is gone claims nothing. -/
theorem Claimed.release (h : Claimed codec before) {name : FileName} {parsed : ParsedHandle}
    {entry : DirectoryEntry} (hparsed : audioFile codec name = some parsed) (hgone : name ∉ before)
    (hentry : before.lookup (claimName parsed.jobId) = some entry)
    (hcontents : entry.contents = Text.asBytes parsed.digest) :
    Claimed codec (before.erase (claimName parsed.jobId)) := by
  intro other otherParsed hother hmem
  have hbefore := (AList.mem_erase.mp hmem).2
  obtain ⟨entry', hentry', hclaimed⟩ := h other otherParsed hother hbefore
  refine ⟨entry', ?_, hclaimed⟩
  have hjob : claimName otherParsed.jobId ≠ claimName parsed.jobId := by
    intro heq
    rw [heq, hentry] at hentry'
    obtain rfl := Option.some.inj hentry'
    have hsame : otherParsed = parsed := by
      have hdigest := Text.asBytes_inj.mp (hclaimed.2.symm.trans hcontents)
      have hid := claimName_inj heq
      cases parsed
      cases otherParsed
      simp_all
    rw [audioFile_inj hother (hsame ▸ hparsed)] at hbefore
    exact hgone hbefore
  rw [AList.lookup_erase_ne hjob, hentry']

/-- A removal keeps audio claimed wherever it stops, and adds none. -/
theorem Claimed.removing {w w' : SpoolWorld} {handle : BatchAudioHandle} {parsed : ParsedHandle}
    (h : Claimed codec w.directory) (hparse : parseHandle codec handle.asStr = .ok parsed)
    (hremoving : Removing w handle parsed w') :
    Claimed codec w'.directory ∧ ∀ name, name ∈ w'.directory → name ∈ w.directory := by
  have hparsed : audioFile codec (artifactName handle) = some parsed := audioFile_eq_some.mpr ⟨_, rfl, hparse⟩
  induction hremoving with
  | start => exact ⟨h, fun _ => id⟩
  | unlink _ => exact ⟨h.unlink hparsed, fun _ hmem => (AList.mem_erase.mp hmem).2⟩
  | quiet _ hquiet ih => rwa [hquiet.directory]
  | release _ hgone hentry hcontents ih =>
    exact ⟨ih.1.release hparsed hgone hentry hcontents, fun name hmem => ih.2 name (AList.mem_erase.mp hmem).2⟩

end Claimed

namespace DurableFileSpool

variable {config : SpoolConfig} {ledger : BatchJobId → Option BatchJobSnapshot} {id : BatchJobId}
  {audio : List UInt8} {before : Directory} {w w' : SpoolWorld}

/-- The name of the artifact a store creates. -/
def finalName (config : SpoolConfig) (id : BatchJobId) (audio : List UInt8) : FileName :=
  artifactName (config.handle id audio)

theorem audioFile_finalName (audio : List UInt8) (hid : config.codec.isCanonical id.asStr = true) :
    audioFile config.codec (finalName config id audio) = some ⟨id.asStr, config.digest audio⟩ :=
  audioFile_eq_some.mpr ⟨_, rfl, config.parseHandle_handle hid audio⟩

/-- What a store owes wherever it stops: audio is claimed once the store has settled, and the only new
audio is its own artifact. -/
structure StoreHeld (config : SpoolConfig) (id : BatchJobId) (audio : List UInt8) (before : Directory)
    (w : SpoolWorld) : Prop where
  claimed : Settles id.asStr (config.digest audio) (finalName config id audio) w.events →
    Claimed config.codec w.directory
  audio : ∀ name parsed, audioFile config.codec name = some parsed → name ∈ w.directory →
    name ∈ before ∨ name = finalName config id audio ∧ .linked (finalName config id audio) ∈ w.events

/-- Temporary files apart, the directory is as it was. -/
def AsBefore (before : Directory) (w : SpoolWorld) : Prop :=
  ∀ name, IsKept name → w.directory.lookup name = before.lookup name

theorem AsBefore.held (h : AsBefore before w) (hclaimed : Claimed config.codec before) :
    StoreHeld config id audio before w := by
  refine ⟨fun _ => hclaimed.congr h, ?_⟩
  intro name parsed hparsed hname
  rw [← AList.lookup_isSome, h name (isKept_of_audioFile hparsed), AList.lookup_isSome] at hname
  exact .inl hname

theorem AsBefore.hidden (h : AsBefore before w) (hhidden : w.Hidden w') : AsBefore before w' :=
  fun name hname => (hhidden.lookup name hname).trans (h name hname)

theorem AsBefore.quiet (h : AsBefore before w) (hquiet : w.Quiet w') : AsBefore before w' := by
  intro name hname
  rw [hquiet.directory, h name hname]

/-- The new artifact is there, and its claim is not settled. -/
structure Appeared (config : SpoolConfig) (id : BatchJobId) (audio : List UInt8) (before : Directory)
    (w : SpoolWorld) : Prop where
  lookup : ∀ name, IsKept name → name ≠ finalName config id audio →
    w.directory.lookup name = before.lookup name
  absent : before.lookup (finalName config id audio) = none
  linked : .linked (finalName config id audio) ∈ w.events
  unclaimed : .linked (claimName id.asStr) ∉ w.events
  unread : .read (claimName id.asStr) (Text.asBytes (config.digest audio)) ∉ w.events
  unremoved : .removed (finalName config id audio) ∉ w.events

namespace Appeared

theorem claimName_ne (hid : config.codec.isCanonical id.asStr = true) :
    claimName id.asStr ≠ finalName config id audio := by
  intro heq
  have hparsed := audioFile_finalName audio hid
  simp [← heq] at hparsed

/-- The only new audio is the artifact. -/
theorem mem_or (h : Appeared config id audio before w) {name : FileName} {parsed : ParsedHandle}
    (hparsed : audioFile config.codec name = some parsed) (hname : name ∈ w.directory) :
    name ∈ before ∨ name = finalName config id audio := by
  by_cases hfinal : name = finalName config id audio
  · exact .inr hfinal
  · rw [← AList.lookup_isSome, h.lookup name (isKept_of_audioFile hparsed) hfinal,
      AList.lookup_isSome] at hname
    exact .inl hname

/-- Once the claim names the new artifact's digest, and did for the audio before, all audio is claimed. -/
theorem claimed_of_claim {after : SpoolWorld} {entry : DirectoryEntry}
    (hid : config.codec.isCanonical id.asStr = true)
    (hclaimed : Claimed config.codec before)
    (hclaim : after.directory.lookup (claimName id.asStr) = some entry) (hfile : entry.fileType = .file)
    (hcontents : entry.contents = Text.asBytes (config.digest audio))
    (hothers : ∀ name, IsKept name → name ≠ finalName config id audio → name ≠ claimName id.asStr →
      after.directory.lookup name = before.lookup name)
    (hagrees : ∀ old, before.lookup (claimName id.asStr) = some old → old = entry) :
    Claimed config.codec after.directory := by
  intro name parsed hparsed hname
  by_cases hfinal : name = finalName config id audio
  · rw [hfinal, audioFile_finalName audio hid] at hparsed
    obtain rfl := Option.some.inj hparsed
    exact ⟨entry, hclaim, hfile, hcontents⟩
  have hne : name ≠ claimName id.asStr := fun heq => by simp [heq] at hparsed
  rw [← AList.lookup_isSome, hothers name (isKept_of_audioFile hparsed) hfinal hne, AList.lookup_isSome] at hname
  obtain ⟨old, hold, hproperties⟩ := hclaimed name parsed hparsed hname
  by_cases hjob : parsed.jobId = id.asStr
  · rw [hjob] at hold ⊢
    obtain rfl := hagrees old hold
    exact ⟨old, hclaim, hproperties⟩
  · refine ⟨old, ?_, hproperties⟩
    have hclaimNe : claimName parsed.jobId ≠ claimName id.asStr := fun heq => hjob (claimName_inj heq)
    have hfinalNe : claimName parsed.jobId ≠ finalName config id audio := by
      intro heq
      have hnone := audioFile_claimName config.codec parsed.jobId
      rw [heq, audioFile_finalName audio hid] at hnone
      cases hnone
    rw [hothers _ (isKept_claimName _) hfinalNe hclaimNe, hold]

theorem held (h : Appeared config id audio before w) : StoreHeld config id audio before w := by
  refine ⟨?_, ?_⟩
  · intro hsettles
    rcases hsettles h.linked with hclaim | hread | hremoved
    · exact absurd hclaim h.unclaimed
    · exact absurd hread h.unread
    · exact absurd hremoved h.unremoved
  · intro name parsed hparsed hname
    exact (h.mem_or hparsed hname).imp_right fun hfinal => ⟨hfinal, h.linked⟩

theorem hidden (h : Appeared config id audio before w) (hid : config.codec.isCanonical id.asStr = true)
    (hhidden : w.Hidden w') :
    Appeared config id audio before w' := by
  obtain ⟨more, hevents, hmore⟩ := hhidden.events
  have hkept : IsKept (finalName config id audio) := isKept_of_audioFile (audioFile_finalName audio hid)
  refine ⟨?_, h.absent, ?_, ?_, ?_, ?_⟩
  · intro name hname hfinal
    rw [hhidden.lookup name hname, h.lookup name hname hfinal]
  · rw [hevents]
    exact List.mem_append_left _ h.linked
  · rw [hevents, List.mem_append, not_or]
    exact ⟨h.unclaimed, fun hmem => by obtain ⟨_, _, heq⟩ := hmore _ hmem; cases heq⟩
  · rw [hevents, List.mem_append, not_or]
    exact ⟨h.unread, fun hmem => by obtain ⟨_, _, heq⟩ := hmore _ hmem; cases heq⟩
  · rw [hevents, List.mem_append, not_or]
    refine ⟨h.unremoved, fun hmem => ?_⟩
    obtain ⟨text, htext, heq⟩ := hmore _ hmem
    have hfalse := hkept text (SpoolEvent.removed.inj heq)
    rw [htext] at hfalse
    cases hfalse

/-- Reading a claim of another digest settles nothing. -/
theorem quiet (h : Appeared config id audio before w)
    (hother : ∀ entry, w.directory.lookup (claimName id.asStr) = some entry → entry.fileType = .file →
      entry.contents ≠ Text.asBytes (config.digest audio)) (hquiet : w.Quiet w') :
    Appeared config id audio before w' := by
  obtain ⟨reads, hevents, hreads⟩ := hquiet.events
  refine ⟨?_, h.absent, ?_, ?_, ?_, ?_⟩
  · intro name hname hfinal
    rw [hquiet.directory, h.lookup name hname hfinal]
  · rw [hevents]
    exact List.mem_append_left _ h.linked
  · rw [hevents, List.mem_append, not_or]
    exact ⟨h.unclaimed, fun hmem => by obtain ⟨_, _, _, _, heq⟩ := hreads _ hmem; cases heq⟩
  · rw [hevents, List.mem_append, not_or]
    refine ⟨h.unread, fun hmem => ?_⟩
    obtain ⟨name, entry, hentry, hfile, heq⟩ := hreads _ hmem
    obtain ⟨rfl, hcontents⟩ := SpoolEvent.read.inj heq
    exact hother entry hentry hfile hcontents.symm
  · rw [hevents, List.mem_append, not_or]
    exact ⟨h.unremoved, fun hmem => by obtain ⟨_, _, _, _, heq⟩ := hreads _ hmem; cases heq⟩

/-- The artifact has been linked. -/
theorem of_linked (hid : config.codec.isCanonical id.asStr = true)
    (hlinked : Linked ⟨before, []⟩ (finalName config id audio) audio w) :
    Appeared config id audio before w := by
  obtain ⟨middle, entry, hmiddle, hnone, -, -, hlast⟩ := hlinked
  obtain ⟨more, hevents, hmore⟩ := hmiddle.events
  have hstart : Appeared config id audio before
      ((middle.insert (finalName config id audio) entry).record (.linked (finalName config id audio))) := by
    refine ⟨?_, hnone, by simp, ?_, ?_, ?_⟩
    · intro name hname hfinal
      rw [SpoolWorld.directory_record, SpoolWorld.directory_insert, AList.lookup_insert_ne hfinal,
        hmiddle.lookup name hname]
    · simp only [SpoolWorld.events_record, SpoolWorld.events_insert, hevents, List.nil_append, List.mem_append,
        List.mem_singleton, SpoolEvent.linked.injEq, not_or]
      refine ⟨fun hmem => ?_, claimName_ne hid⟩
      obtain ⟨_, _, heq⟩ := hmore _ hmem
      cases heq
    · simp only [SpoolWorld.events_record, SpoolWorld.events_insert, hevents, List.nil_append, List.mem_append,
        List.mem_singleton, reduceCtorEq, or_false]
      exact fun hmem => by obtain ⟨_, _, heq⟩ := hmore _ hmem; cases heq
    · simp only [SpoolWorld.events_record, SpoolWorld.events_insert, hevents, List.nil_append, List.mem_append,
        List.mem_singleton, reduceCtorEq, or_false]
      intro hmem
      obtain ⟨text, htext, heq⟩ := hmore _ hmem
      have hfalse := isKept_of_audioFile (audioFile_finalName audio hid) text
        (SpoolEvent.removed.inj heq)
      rw [htext] at hfalse
      cases hfalse
  exact hstart.hidden hid hlast

/-- Linking the claim settles the store. -/
theorem held_of_claimed (h : Appeared config id audio before w)
    (hid : config.codec.isCanonical id.asStr = true) (hclaimed : Claimed config.codec before)
    (hlinked : Linked w (claimName id.asStr) (Text.asBytes (config.digest audio)) w') :
    StoreHeld config id audio before w' := by
  obtain ⟨middle, entry, hmiddle, hnone, hfile, hcontents, hlast⟩ := hlinked
  have hclaim : w'.directory.lookup (claimName id.asStr) = some entry := by
    rw [hlast.lookup _ (isKept_claimName _)]
    exact AList.lookup_insert _
  have hothers : ∀ name, IsKept name → name ≠ claimName id.asStr →
      w'.directory.lookup name = w.directory.lookup name := by
    intro name hname hne
    rw [hlast.lookup name hname, SpoolWorld.directory_record, SpoolWorld.directory_insert,
      AList.lookup_insert_ne hne, hmiddle.lookup name hname]
  have habsent : before.lookup (claimName id.asStr) = none := by
    rw [← h.lookup _ (isKept_claimName _) (claimName_ne hid), hnone]
  obtain ⟨more, hevents, -⟩ := hmiddle.events
  obtain ⟨more', hevents', -⟩ := hlast.events
  refine ⟨fun _ => claimed_of_claim hid hclaimed hclaim hfile hcontents ?_ (by simp [habsent]), ?_⟩
  · intro name hname hfinal hne
    rw [hothers name hname hne, h.lookup name hname hfinal]
  · intro name parsed hparsed hname
    have hne : name ≠ claimName id.asStr := fun heq => by simp [heq] at hparsed
    rw [← AList.lookup_isSome, hothers name (isKept_of_audioFile hparsed) hne, AList.lookup_isSome] at hname
    refine (h.mem_or hparsed hname).imp_right fun hfinal => ⟨hfinal, ?_⟩
    simp [hevents', hevents, h.linked]

/-- A claim found to name the digest settles the store. -/
theorem held_of_agreed (h : Appeared config id audio before w)
    (hid : config.codec.isCanonical id.asStr = true) (hclaimed : Claimed config.codec before)
    {entry : DirectoryEntry} (hclaim : w.directory.lookup (claimName id.asStr) = some entry)
    (hfile : entry.fileType = .file) (hcontents : entry.contents = Text.asBytes (config.digest audio))
    (hquiet : w.Quiet w') : StoreHeld config id audio before w' := by
  have hold : before.lookup (claimName id.asStr) = some entry := by
    rw [← h.lookup _ (isKept_claimName _) (claimName_ne hid), hclaim]
  obtain ⟨reads, hevents, -⟩ := hquiet.events
  refine ⟨fun _ => claimed_of_claim hid hclaimed (hquiet.directory ▸ hclaim) hfile hcontents ?_ ?_, ?_⟩
  · intro name hname hfinal _
    rw [hquiet.directory, h.lookup name hname hfinal]
  · intro old hbefore
    exact Option.some.inj (hbefore.symm.trans hold)
  · intro name parsed hparsed hname
    rw [hquiet.directory] at hname
    refine (h.mem_or hparsed hname).imp_right fun hfinal => ⟨hfinal, ?_⟩
    simp [hevents, h.linked]

/-- Removing the artifact again leaves the directory as it was. -/
theorem asBefore_of_erase (h : Appeared config id audio before w) :
    AsBefore before ((w.erase (finalName config id audio)).record (.removed (finalName config id audio))) := by
  intro name hname
  by_cases hfinal : name = finalName config id audio
  · rw [hfinal, h.absent]
    exact AList.lookup_erase _ _
  · rw [SpoolWorld.directory_record, SpoolWorld.directory_erase, AList.lookup_erase_ne hfinal,
      h.lookup name hname hfinal]

end Appeared

/-- Claiming the identity for a new artifact. -/
theorem claimIdentity_keeps_created (hid : config.codec.isCanonical id.asStr = true)
    (hclaimed : Claimed config.codec before) (h : Appeared config id audio before w) :
    Task.Keeps (servesSpool config.codec ledger) (StoreHeld config id audio before) (fun _ _ => True)
      (claimIdentity config id (config.digest audio) (finalName config id audio) true) w := by
  have hcreate : Task.Keeps (servesSpool config.codec ledger)
      (Creating w (claimName id.asStr) (Text.asBytes (config.digest audio)))
      (Created w (claimName id.asStr) (Text.asBytes (config.digest audio)))
      (createFileAtomic (claimName id.asStr) (Text.asBytes (config.digest audio))) w :=
    createFileAtomic_keeps _ (isKept_claimName id.asStr)
  have hcreating : ∀ w', Creating w (claimName id.asStr) (Text.asBytes (config.digest audio)) w' →
      StoreHeld config id audio before w' := by
    rintro w' (hhidden | hlinked)
    · exact (h.hidden hid hhidden).held
    · exact h.held_of_claimed hid hclaimed hlinked
  refine (hcreate.mono hcreating fun _ _ _ hpost => hpost).andThen (fun _ _ _ _ => trivial) ?_
  rintro claimed w₁ hw₁ ⟨-, hfound⟩
  cases claimed with
  | true => exact (syncDirectory_keeps hw₁).mono (fun _ hw => hw) fun _ _ _ _ => trivial
  | false =>
    have h₁ := h.hidden hid (hfound rfl).1
    by_cases hagreed : ∃ entry, w₁.directory.lookup (claimName id.asStr) = some entry ∧
        entry.fileType = .file ∧ entry.contents = Text.asBytes (config.digest audio)
    · obtain ⟨entry, hclaim, hfile, hcontents⟩ := hagreed
      refine (readSmallRegularFile_keeps (claimName id.asStr) 64 fun w' hquiet =>
        h₁.held_of_agreed hid hclaimed hclaim hfile hcontents hquiet).andThen (fun _ _ _ _ => trivial) ?_
      rintro value w₂ hw₂ ⟨-, hread, -⟩
      obtain ⟨entry', hclaim', -, hvalue, -⟩ := hread value rfl
      obtain rfl := Option.some.inj (hclaim.symm.trans hclaim')
      rw [if_pos (hvalue.trans hcontents)]
      exact ⟨hw₂, trivial⟩
    · have hother : ∀ entry, w₁.directory.lookup (claimName id.asStr) = some entry →
          entry.fileType = .file → entry.contents ≠ Text.asBytes (config.digest audio) :=
        fun entry hclaim hfile hcontents => hagreed ⟨entry, hclaim, hfile, hcontents⟩
      refine (readSmallRegularFile_keeps (claimName id.asStr) 64 fun w' hquiet =>
        (h₁.quiet hother hquiet).held).andThen (fun _ _ _ _ => trivial) ?_
      rintro value w₂ hw₂ ⟨hquiet, hread, -⟩
      obtain ⟨entry, hclaim, hfile, hvalue, -⟩ := hread value rfl
      rw [if_neg fun heq => hother entry hclaim hfile (hvalue.symm.trans heq), if_pos rfl]
      refine .await hw₂ ?_
      intro w₃ reply hserve
      rcases servesSpool_removeFile hserve with ⟨rfl, -⟩ | ⟨-, rfl, -⟩
      · exact ⟨hw₂, trivial⟩
      · exact ⟨(h₁.quiet hother hquiet).asBefore_of_erase.held hclaimed, trivial⟩

/-- Claiming the identity again for an artifact that was there. -/
theorem claimIdentity_keeps_existing (hid : config.codec.isCanonical id.asStr = true)
    (hclaimed : Claimed config.codec before) (h : AsBefore before w)
    (hfound : finalName config id audio ∈ before) :
    Task.Keeps (servesSpool config.codec ledger) (StoreHeld config id audio before) (fun _ _ => True)
      (claimIdentity config id (config.digest audio) (finalName config id audio) false) w := by
  have hcreate : Task.Keeps (servesSpool config.codec ledger)
      (Creating w (claimName id.asStr) (Text.asBytes (config.digest audio)))
      (Created w (claimName id.asStr) (Text.asBytes (config.digest audio)))
      (createFileAtomic (claimName id.asStr) (Text.asBytes (config.digest audio))) w :=
    createFileAtomic_keeps _ (isKept_claimName id.asStr)
  have hnotLinked : ∀ w', ¬Linked w (claimName id.asStr) (Text.asBytes (config.digest audio)) w' := by
    rintro w' ⟨_, _, _, hnone, -⟩
    obtain ⟨entry, hentry, -⟩ := hclaimed _ _ (audioFile_finalName audio hid) hfound
    rw [h _ (isKept_claimName _), hentry] at hnone
    cases hnone
  have hcreating : ∀ w', Creating w (claimName id.asStr) (Text.asBytes (config.digest audio)) w' →
      StoreHeld config id audio before w' := by
    rintro w' (hhidden | hlinked)
    · exact (h.hidden hhidden).held hclaimed
    · exact absurd hlinked (hnotLinked w')
  refine (hcreate.mono hcreating fun _ _ _ hpost => hpost).andThen (fun _ _ _ _ => trivial) ?_
  rintro claimed w₁ hw₁ ⟨hlinked, hexisted⟩
  cases claimed with
  | true => exact absurd (hlinked rfl) (hnotLinked w₁)
  | false =>
    have h₁ := h.hidden (hexisted rfl).1
    refine (readSmallRegularFile_keeps (claimName id.asStr) 64 fun w' hquiet =>
      (h₁.quiet hquiet).held hclaimed).andThen (fun _ _ _ _ => trivial) ?_
    intro value w₂ hw₂ _
    split
    · exact ⟨hw₂, trivial⟩
    · rw [if_neg (by simp)]
      exact ⟨hw₂, trivial⟩

/-- The handle a store reports. -/
def outcomeHandle : BatchAudioStoreOutcome → BatchAudioHandle
  | .stored handle | .existing handle => handle

theorem checkTotal_keeps {held : SpoolWorld → Prop} (final : FileName) (incoming : ℕ) (hheld : held w) :
    Task.Keeps (servesSpool config.codec ledger) held (fun _ w' => w' = w) (checkTotal config final incoming) w := by
  refine .await hheld ?_
  intro w' found hserve
  obtain ⟨rfl, -⟩ := servesSpool_pathExists hserve
  split
  · exact ⟨hheld, rfl⟩
  refine (spoolAudioBytes_keeps hheld).andThen (fun _ _ _ hpost => hpost.1) ?_
  rintro used w'' - ⟨rfl, -⟩
  split
  · exact ⟨hheld, rfl⟩
  · exact ⟨hheld, rfl⟩

theorem readVerifiedFile_keeps {held : SpoolWorld → Prop} (name : FileName) (digest : String)
    (hheld : ∀ w', w.Quiet w' → held w') :
    Task.Keeps (servesSpool config.codec ledger) held (fun _ w' => w.Quiet w')
      (readVerifiedFile config name digest) w := by
  refine (readSmallRegularFile_keeps name config.maximumBytes hheld).andThen (fun _ _ _ hpost => hpost.1) ?_
  rintro bytes w' hw' ⟨hquiet, -⟩
  split
  · exact ⟨hw', hquiet⟩
  · exact ⟨hw', hquiet⟩

/-- The end of a store once its artifact is there. -/
private theorem finish_keeps {t : SpoolTask config.codec (Except BatchAudioSpoolFailure Unit)} {created : Bool}
    (hid : config.codec.isCanonical id.asStr = true)
    (h : Task.Keeps (servesSpool config.codec ledger) (StoreHeld config id audio before) (fun _ _ => True) t w) :
    Task.Keeps (servesSpool config.codec ledger) (StoreHeld config id audio before)
      (fun reply _ => ∀ outcome, reply = .ok outcome →
        config.codec.isCanonical id.asStr = true ∧ outcomeHandle outcome = config.handle id audio)
      (t.andThen fun _ => .done (.ok (if created then .stored (config.handle id audio)
        else .existing (config.handle id audio)))) w := by
  refine h.andThen (fun _ _ _ _ => by simp) ?_
  intro _ w' hw' _
  refine ⟨hw', ?_⟩
  intro outcome houtcome
  cases houtcome
  refine ⟨hid, ?_⟩
  split <;> rfl

/-- A store keeps audio claimed once it has settled, and reports the handle of its artifact. -/
theorem storeBlocking_keeps (hclaimed : Claimed config.codec before) :
    Task.Keeps (servesSpool config.codec ledger) (StoreHeld config id audio before)
      (fun reply _ => ∀ outcome, reply = .ok outcome →
        config.codec.isCanonical id.asStr = true ∧ outcomeHandle outcome = config.handle id audio)
      (storeBlocking config id audio) ⟨before, []⟩ := by
  have hbefore : AsBefore before ⟨before, []⟩ := fun _ _ => rfl
  have hheld : StoreHeld config id audio before ⟨before, []⟩ := hbefore.held hclaimed
  unfold storeBlocking
  split
  · exact ⟨hheld, by simp⟩
  split
  · exact ⟨hheld, by simp⟩
  rename_i hcanonical
  have hid : config.codec.isCanonical id.asStr = true := by simpa using hcanonical
  refine .await hheld ?_
  intro w locked hserve
  obtain rfl := servesSpool_lockMutation hserve
  split
  · exact ⟨hheld, by simp⟩
  refine (checkTotal_keeps _ audio.length hheld).andThen (fun _ _ _ _ => by simp) ?_
  rintro _ w - rfl
  have hcreating : ∀ w', Creating ⟨before, []⟩ (finalName config id audio) audio w' →
      StoreHeld config id audio before w' := by
    rintro w' (hhidden | hlinked)
    · exact (hbefore.hidden hhidden).held hclaimed
    · exact (Appeared.of_linked hid hlinked).held
  have hcreate : Task.Keeps (servesSpool config.codec ledger)
      (Creating ⟨before, []⟩ (finalName config id audio) audio)
      (Created ⟨before, []⟩ (finalName config id audio) audio)
      (createFileAtomic (finalName config id audio) audio) ⟨before, []⟩ :=
    createFileAtomic_keeps audio (isKept_of_audioFile (audioFile_finalName audio hid))
  refine (hcreate.mono hcreating fun _ _ _ hpost => hpost).andThen (fun _ _ _ _ => by simp) ?_
  rintro created w₁ hw₁ ⟨hlinked, hexisted⟩
  cases created with
  | true =>
    have happeared := Appeared.of_linked hid (hlinked rfl)
    refine Task.Keeps.andThen (syncDirectory_keeps hw₁) (fun _ _ _ _ => by simp) ?_
    rintro _ w₂ - rfl
    exact finish_keeps hid (claimIdentity_keeps_created hid hclaimed happeared)
  | false =>
    obtain ⟨hhidden, hfound⟩ := hexisted rfl
    have h₁ := hbefore.hidden hhidden
    have hverify : Task.Keeps (servesSpool config.codec ledger) (StoreHeld config id audio before)
        (fun _ w' => w₁.Quiet w')
        (readVerifiedFile config (finalName config id audio) (config.digest audio)) w₁ :=
      readVerifiedFile_keeps _ _ fun w' hquiet => (h₁.quiet hquiet).held hclaimed
    have hchecked : Task.Keeps (servesSpool config.codec ledger) (StoreHeld config id audio before)
        (fun _ w' => w₁.Quiet w')
        ((readVerifiedFile config (finalName config id audio) (config.digest audio)).andThen fun _ =>
          .done (.ok ())) w₁ :=
      hverify.andThen (fun _ _ _ hpost => hpost) fun _ _ hw hpost => ⟨hw, hpost⟩
    refine Task.Keeps.andThen hchecked (fun _ _ _ _ => by simp) ?_
    intro _ w₂ _ hquiet
    exact finish_keeps hid (claimIdentity_keeps_existing hid hclaimed (h₁.quiet hquiet) hfound)

/-- A store for an identity that is not canonical is refused at once. -/
theorem storeBlocking_of_not_canonical (hid : config.codec.isCanonical id.asStr = false) :
    ∃ failure, storeBlocking config id audio = .done (.error failure) := by
  simp only [storeBlocking, hid, if_true]
  split
  · exact ⟨_, rfl⟩
  · exact ⟨_, rfl⟩

end DurableFileSpool

/-- A removal keeps audio claimed and adds none, wherever it stops and whatever its handle. -/
theorem Claimed.removeBlocking {config : SpoolConfig} {ledger : BatchJobId → Option BatchJobSnapshot}
    {w w' : SpoolWorld} (h : Claimed config.codec w.directory) {handle : BatchAudioHandle}
    (hstops : Task.Stops (servesSpool config.codec ledger) w (DurableFileSpool.removeBlocking config handle) w') :
    Claimed config.codec w'.directory ∧ ∀ name, name ∈ w'.directory → name ∈ w.directory := by
  cases hparse : parseHandle config.codec handle.asStr with
  | ok parsed => exact h.removing hparse ((DurableFileSpool.removeBlocking_keeps config hparse).stops hstops)
  | error failure =>
    have hkeeps : Task.Keeps (servesSpool config.codec ledger) (· = w) (fun _ _ => True)
        (DurableFileSpool.removeBlocking config handle) w := by
      refine .await rfl ?_
      intro w₁ locked hserve
      obtain rfl := servesSpool_lockMutation hserve
      split
      · exact ⟨rfl, trivial⟩
      · rw [hparse]
        exact ⟨rfl, trivial⟩
    rw [hkeeps.stops hstops]
    exact ⟨h, fun _ => id⟩

end Voicetext.Gateway.Storage
