import Mathlib.Data.Finset.Card
import Mathlib.Data.List.Infix
import Voicetext.Common.PartialSteps
import Voicetext.Gateway.Server.QualificationSink

/-!
# Qualification records are published atomically

What an observation owns in the directory is read off its worker: the pending name from its creation to
its removal, and the final name from its publication on. A step only ever touches the files of its own
observation, so what holds of the others is framed, and the receipt settles who keeps the final name.
-/

namespace Voicetext.Gateway.Server

open Voicetext.Common

variable {ι : Type*} {campaign : String} {observe : ι → Observation}

/-- A pending name is no final name. -/
theorem finalName_ne_temporaryName (observation other : Observation) :
    finalName campaign observation ≠ temporaryName campaign other := by
  intro h
  have hfinal (front : String) : (front ++ ".json").toList.getLast? = some 'n' := by simp
  have htemporary (front : String) : (front ++ ".pending").toList.getLast? = some 'g' := by simp
  have hlast := hfinal (campaign ++ "-" ++ observation.mode ++ "-" ++ observation.effectId)
  rw [← finalName, h, temporaryName, htemporary] at hlast
  cases hlast

namespace SinkState

variable {s s' : SinkState ι} {c : ι}

/-- The name leads to the file an observation created. -/
def Owns (s : SinkState ι) (c : ι) (name : String) : Prop := s.directory name = some (.of c)

/-- How far `prepare_record` is when some steps remain. -/
structure Progress (campaign : String) (observe : ι → Observation) (s : SinkState ι) (c : ι)
    (rest : List WorkerStep) (published : Option Bool) : Prop where
  isSuffix : rest <:+ prepareRecord
  owns_iff : ∀ name, s.Owns c name ↔
    name = temporaryName campaign (observe c) ∧ .createNew ∉ rest ∧ .unlinkTemporary ∈ rest ∨
      name = finalName campaign (observe c) ∧ .hardLink ∉ rest
  guard_eq : published = if .inspect ∈ rest then none else some (decide (.hardLink ∉ rest))
  complete : .writeAll ∉ rest → (observe c).record = some (s.content c)
  serialized : ∃ bytes, (observe c).record = some bytes

/-- The complete record is at the final name and nowhere else. -/
structure Kept (campaign : String) (observe : ι → Observation) (s : SinkState ι) (c : ι) : Prop where
  owns_iff : ∀ name, s.Owns c name ↔ name = finalName campaign (observe c)
  complete : (observe c).record = some (s.content c)

/-- What an observation owns while its worker is where it is; once the worker has finished it keeps its
file only when the caller accepted it. -/
def Holding (campaign : String) (observe : ι → Observation) (s : SinkState ι) (c : ι) (receipt : ReceiptState) :
    Worker → Prop
  | .unspawned | .queued | .sending (.error _) => ∀ name, ¬ s.Owns c name
  | .preparing rest published => Progress campaign observe s c rest published
  | .dropping names owned _ =>
    (∀ name, s.Owns c name → name ∈ names) ∧ (owned = true → ∃ name, names.head? = some name ∧ s.Owns c name)
  | .sending (.ok _) | .waiting => Kept campaign observe s c
  | .finished => if receipt = .accepted then Kept campaign observe s c else ∀ name, ¬ s.Owns c name

/-- What is known of the files of an observation. -/
def FilesKnown (campaign : String) (observe : ι → Observation) (s : SinkState ι) (c : ι) : Prop :=
  Holding campaign observe s c (s.observations c).receipt (s.observations c).worker

/-- What is owned depends on the files only. -/
theorem Holding.congr {receipt : ReceiptState} {worker : Worker}
    (h : Holding campaign observe s c receipt worker) (hdirectory : s'.directory = s.directory)
    (hcontent : s'.content = s.content) : Holding campaign observe s' c receipt worker := by
  have howns (name : String) : s'.Owns c name ↔ s.Owns c name := by rw [Owns, Owns, hdirectory]
  have hkept (hk : Kept campaign observe s c) : Kept campaign observe s' c :=
    ⟨fun name => (howns name).trans (hk.owns_iff name), hcontent ▸ hk.complete⟩
  match worker, h with
  | .unspawned, h | .queued, h | .sending (.error _), h | .dropping _ _ _, h => simpa only [Holding, howns] using h
  | .preparing _ _, h =>
    exact
      { isSuffix := h.isSuffix
        owns_iff := fun name => (howns name).trans (h.owns_iff name)
        guard_eq := h.guard_eq
        complete := hcontent ▸ h.complete
        serialized := h.serialized }
  | .sending (.ok _), h | .waiting, h => exact hkept h
  | .finished, h =>
    simp only [Holding, howns] at h ⊢
    split at h
    · rename_i haccepted
      rw [if_pos haccepted]
      exact hkept h
    · rename_i hnot
      rwa [if_neg hnot]

end SinkState

/-- Whether a worker has not reported its result yet. -/
def Worker.isSilent : Worker → Bool
  | unspawned | queued | preparing _ _ | dropping _ _ (some _) | sending _ => true
  | dropping _ _ none | waiting | finished => false

/-- Whether a caller has not spawned its worker yet. -/
def Caller.isFresh : Caller → Bool
  | idle | overCounted | unpolled => true
  | awaiting | closing | dropped | returned _ => false

/-- What caller, worker and receipt know of each other. -/
structure Handshake (o : ObservationState) : Prop where
  unspawned : o.caller.isFresh = true → o.worker = .unspawned
  accepted_iff : o.receipt = .accepted ↔ o.caller = .returned (.ok ())
  sent : o.message = some (.ok ()) → o.worker = .waiting ∨ o.receipt ≠ .active
  silent : o.worker.isSilent = true → o.message ≠ some (.ok ()) ∧ o.receipt ≠ .accepted
  declined : ∀ names owned, o.worker = .dropping names owned none → o.receipt = .cancelled

/-- Once the worker is spawned, its caller is not fresh, whatever the worker becomes. -/
theorem Handshake.not_fresh {o : ObservationState} (h : Handshake o) (hspawned : o.worker ≠ .unspawned)
    (worker : Worker) (hfresh : o.caller.isFresh = true) : worker = .unspawned :=
  absurd (h.unspawned hfresh) hspawned

/-- A worker that goes on without reporting leaves the handshake as it is. -/
theorem Handshake.silently {o : ObservationState} (h : Handshake o) (hspawned : o.worker ≠ .unspawned)
    (hsilent : o.worker.isSilent = true) {worker : Worker} (hworker : worker.isSilent = true) :
    Handshake { o with worker } := by
  obtain ⟨hmessage, hreceipt⟩ := h.silent hsilent
  refine ⟨h.not_fresh hspawned _, h.accepted_iff, fun hsent => absurd hsent hmessage, fun _ => ⟨hmessage, hreceipt⟩, ?_⟩
  rintro names owned rfl
  cases hworker

namespace SinkState

variable {s s' : SinkState ι} {c : ι}

/-- A step of one observation leaves the files and the state of all others alone. -/
structure Touches (c : ι) (s s' : SinkState ι) : Prop where
  observations_eq : ∀ other, other ≠ c → s'.observations other = s.observations other
  content_eq : ∀ other, other ≠ c → s'.content other = s.content other
  directory_iff : ∀ name file, file ≠ .of c → (s'.directory name = some file ↔ s.directory name = some file)

/-- What is known of the other observations stays known. -/
theorem Touches.filesKnown (h : Touches c s s') {other : ι} (hother : other ≠ c)
    (hknown : FilesKnown campaign observe s other) : FilesKnown campaign observe s' other := by
  have howns (name : String) : s'.Owns other name ↔ s.Owns other name :=
    h.directory_iff name (.of other) (by simpa using hother)
  have hkept (hk : Kept campaign observe s other) : Kept campaign observe s' other :=
    ⟨fun name => (howns name).trans (hk.owns_iff name), by rw [h.content_eq other hother]; exact hk.complete⟩
  unfold FilesKnown at hknown ⊢
  rw [h.observations_eq other hother]
  match (s.observations other).worker, hknown with
  | .unspawned, hknown | .queued, hknown | .sending (.error _), hknown | .dropping _ _ _, hknown =>
    simpa only [Holding, howns] using hknown
  | .preparing _ _, hknown =>
    exact
      { isSuffix := hknown.isSuffix
        owns_iff := fun name => (howns name).trans (hknown.owns_iff name)
        guard_eq := hknown.guard_eq
        complete := by
          rw [h.content_eq other hother]
          exact hknown.complete
        serialized := hknown.serialized }
  | .sending (.ok _), hknown | .waiting, hknown => exact hkept hknown
  | .finished, hknown =>
    simp only [Holding] at hknown ⊢
    split at hknown
    · rename_i haccepted
      rw [if_pos haccepted]
      exact hkept hknown
    · rename_i hnot
      rw [if_neg hnot]
      simpa only [howns] using hknown

/-- Giving an own file a free name, or freeing the name of one, touches no other file. -/
theorem touches_directory {name : String} {entry : Option (FileId ι)}
    (hbefore : s.directory name = none ∨ s.Owns c name) (hafter : entry = none ∨ entry = some (.of c)) :
    Touches c s { s with directory := Function.update s.directory name entry } where
  observations_eq _ _ := rfl
  content_eq _ _ := rfl
  directory_iff other file hfile := by
    by_cases hname : other = name
    · subst hname
      have hnew : entry ≠ some file := by
        rintro rfl
        rcases hafter with h | h
        · cases h
        · exact hfile (Option.some.inj h)
      have hold : s.directory other ≠ some file := by
        intro h
        rcases hbefore with hnone | howned
        · cases hnone.symm.trans h
        · exact hfile (Option.some.inj (h.symm.trans howned))
      simp [hnew, hold]
    · simp [hname]

/-- Touching the own files twice touches no other. -/
theorem Touches.trans {s'' : SinkState ι} (h : Touches c s s') (h' : Touches c s' s'') : Touches c s s'' where
  observations_eq other hother := (h'.observations_eq other hother).trans (h.observations_eq other hother)
  content_eq other hother := (h'.content_eq other hother).trans (h.content_eq other hother)
  directory_iff name file hfile := (h'.directory_iff name file hfile).trans (h.directory_iff name file hfile)

/-- A step of an observation keeps what is known of it and touches no other. -/
structure Advances (campaign : String) (observe : ι → Observation) (c : ι) (s s' : SinkState ι) : Prop where
  touches : Touches c s s'
  known : FilesKnown campaign observe s' c
  handshake : Handshake (s'.observations c)

/-- Whatever a step advances besides the files and the observations. -/
theorem Advances.congr {s'' : SinkState ι} (h : Advances campaign observe c s s')
    (hobservations : s''.observations = s'.observations) (hdirectory : s''.directory = s'.directory)
    (hcontent : s''.content = s'.content) : Advances campaign observe c s s'' := by
  refine ⟨⟨?_, ?_, ?_⟩, ?_, hobservations ▸ h.handshake⟩
  · rw [hobservations]
    exact h.touches.observations_eq
  · rw [hcontent]
    exact h.touches.content_eq
  · rw [hdirectory]
    exact h.touches.directory_iff
  · rw [FilesKnown, hobservations]
    exact h.known.congr hdirectory hcontent

/-- The places of the steps which move a file. -/
theorem rest_of_isSuffix {step : WorkerStep} {rest : List WorkerStep} (h : step :: rest <:+ prepareRecord) :
    (step = .createNew → rest = prepareRecord.drop 3) ∧ (step = .inspect → rest = prepareRecord.drop 4) ∧
      (step = .writeAll → rest = prepareRecord.drop 6) ∧ (step = .hardLink → rest = prepareRecord.drop 11) ∧
      (step = .unlinkTemporary → rest = prepareRecord.drop 14) := by
  have hall : ∀ l ∈ prepareRecord.tails,
      (l.head? = some .createNew → l.tail = prepareRecord.drop 3) ∧
        (l.head? = some .inspect → l.tail = prepareRecord.drop 4) ∧
        (l.head? = some .writeAll → l.tail = prepareRecord.drop 6) ∧
        (l.head? = some .hardLink → l.tail = prepareRecord.drop 11) ∧
        (l.head? = some .unlinkTemporary → l.tail = prepareRecord.drop 14) := by decide
  simpa using hall _ ((List.mem_tails _ _).mpr h)

/-- Without a guard nothing was created yet, unless the created file is just being inspected. -/
theorem unguarded_of_isSuffix {step : WorkerStep} {rest : List WorkerStep} (h : step :: rest <:+ prepareRecord)
    (hinspect : .inspect ∈ step :: rest) (hstep : step ≠ .inspect) :
    .createNew ∈ step :: rest ∧ .hardLink ∈ step :: rest := by
  have hall : ∀ l ∈ prepareRecord.tails, .inspect ∈ l → l.head? ≠ some .inspect →
      .createNew ∈ l ∧ .hardLink ∈ l := by decide
  exact hall _ ((List.mem_tails _ _).mpr h) hinspect (by simpa using hstep)

/-- The record is written before it is published. -/
theorem written_of_isSuffix {rest : List WorkerStep} (h : rest <:+ prepareRecord) (hlink : .hardLink ∉ rest) :
    .writeAll ∉ rest ∧ .createNew ∉ rest := by
  have hall : ∀ l ∈ prepareRecord.tails, .hardLink ∉ l → .writeAll ∉ l ∧ .createNew ∉ l := by decide
  exact hall _ ((List.mem_tails _ _).mpr h) hlink

section Prepare

variable {step : WorkerStep} {rest : List WorkerStep} {published : Option Bool}

/-- Without a guard nothing is owned, unless the created file is just being inspected. -/
theorem Progress.unguarded (h : Progress campaign observe s c (step :: rest) none) (hstep : step ≠ .inspect)
    (name : String) : ¬ s.Owns c name := by
  have hinspect : .inspect ∈ step :: rest := by
    by_contra hnot
    have hguard := h.guard_eq
    rw [if_neg hnot] at hguard
    cases hguard
  obtain ⟨hcreate, hlink⟩ := unguarded_of_isSuffix h.isSuffix hinspect hstep
  rw [h.owns_iff]
  rintro (⟨-, hcreated, -⟩ | ⟨-, hlinked⟩)
  · exact hcreated hcreate
  · exact hlinked hlink

/-- A guard knows the names of all files it owns. -/
theorem Progress.guarded {published : Bool} (h : Progress campaign observe s c rest (some published))
    {name : String} (howns : s.Owns c name) : name ∈ guardNames campaign observe c published := by
  have hguard := h.guard_eq
  split at hguard
  · cases hguard
  · obtain rfl := Option.some.inj hguard
    rcases (h.owns_iff name).mp howns with ⟨rfl, -, -⟩ | ⟨rfl, hlinked⟩
    · simp [guardNames]
    · simp [guardNames, hlinked]

/-- A step which moves no file and writes no content is progress. -/
theorem Progress.skip (h : Progress campaign observe s c (step :: rest) published)
    (hcreate : step ≠ .createNew) (hinspect : step ≠ .inspect) (hwrite : step ≠ .writeAll)
    (hlink : step ≠ .hardLink) (hunlink : step ≠ .unlinkTemporary) :
    Progress campaign observe s c rest published where
  isSuffix := (List.suffix_cons step rest).trans h.isSuffix
  owns_iff name := by simpa [hcreate.symm, hlink.symm, hunlink.symm] using h.owns_iff name
  guard_eq := by simpa [hinspect.symm, hlink.symm] using h.guard_eq
  complete hwritten := h.complete (by simpa [hwrite.symm] using hwritten)
  serialized := h.serialized

/-- Linking the pending file to its final name. -/
theorem Progress.link (h : Progress campaign observe s c (.hardLink :: rest) published) {file : FileId ι}
    (hfile : s.directory (temporaryName campaign (observe c)) = some file) :
    file = .of c ∧ Progress campaign observe { s with
      directory := Function.update s.directory (finalName campaign (observe c)) (some file) } c rest
        (published.map fun _ => true) := by
  obtain rfl := (rest_of_isSuffix h.isSuffix).2.2.2.1 rfl
  have howns : ∀ name, s.Owns c name ↔ name = temporaryName campaign (observe c) := by
    intro name
    rw [h.owns_iff]
    simp [prepareRecord]
  obtain rfl : file = .of c := Option.some.inj (hfile.symm.trans ((howns _).mpr rfl))
  refine ⟨rfl, (List.suffix_cons _ _).trans h.isSuffix, fun name => ?_, ?_, fun _ => h.complete (by decide),
    h.serialized⟩
  · by_cases hname : name = finalName campaign (observe c)
    · subst hname
      simp [Owns, prepareRecord]
    · have hother := howns name
      simp only [Owns] at hother ⊢
      simp [hname, hother, prepareRecord]
  · rw [h.guard_eq]
    decide

/-- Unlinking the pending name. -/
theorem Progress.unlink (h : Progress campaign observe s c (.unlinkTemporary :: rest) published) :
    s.Owns c (temporaryName campaign (observe c)) ∧ Progress campaign observe { s with
      directory := Function.update s.directory (temporaryName campaign (observe c)) none } c rest published := by
  obtain rfl := (rest_of_isSuffix h.isSuffix).2.2.2.2 rfl
  have howns : ∀ name, s.Owns c name ↔
      name = temporaryName campaign (observe c) ∨ name = finalName campaign (observe c) := by
    intro name
    rw [h.owns_iff]
    simp [prepareRecord]
  refine ⟨(howns _).mpr (.inl rfl), (List.suffix_cons _ _).trans h.isSuffix, fun name => ?_, ?_,
    fun _ => h.complete (by decide), h.serialized⟩
  · by_cases hname : name = temporaryName campaign (observe c)
    · subst hname
      simp [Owns, prepareRecord, (finalName_ne_temporaryName (observe c) (observe c)).symm]
    · have hother := howns name
      simp only [Owns] at hother ⊢
      simp [hname, hother, prepareRecord]
  · rw [h.guard_eq]
    decide

/-- The pending name is there to be looked at. -/
theorem Progress.owns_temporary (h : Progress campaign observe s c (.inspectTemporary :: rest) published) :
    s.Owns c (temporaryName campaign (observe c)) := by
  have hall : ∀ l ∈ prepareRecord.tails, l.head? = some .inspectTemporary →
      .createNew ∉ l ∧ .unlinkTemporary ∈ l := by decide
  exact (h.owns_iff _).mpr (.inl ⟨rfl, hall _ ((List.mem_tails _ _).mpr h.isSuffix) rfl⟩)

/-- The guard is made for the inspected file. -/
theorem Progress.inspect (h : Progress campaign observe s c (.inspect :: rest) published) :
    Progress campaign observe s c rest (some false) := by
  obtain rfl := (rest_of_isSuffix h.isSuffix).2.1 rfl
  refine ⟨(List.suffix_cons _ _).trans h.isSuffix, fun name => ?_, by decide, fun hwritten => absurd ?_ hwritten,
    h.serialized⟩
  · rw [h.owns_iff]
    simp [prepareRecord]
  · decide

end Prepare

section Steps

variable [DecidableEq ι] {step : WorkerStep} {rest : List WorkerStep} {published : Option Bool}

/-- A step which only changes the state of its own observation touches no file. -/
theorem touches_update (s : SinkState ι) (c : ι) (o : ObservationState) : Touches c s (s.update c o) where
  observations_eq other hother := by simp [update, hother]
  content_eq _ _ := rfl
  directory_iff _ _ _ := Iff.rfl

/-- Writing to the own file touches no other. -/
theorem touches_content (s : SinkState ι) (c : ι) (bytes : List UInt8) :
    Touches c s { s with content := Function.update s.content c bytes } where
  observations_eq _ _ := rfl
  content_eq other hother := by simp [hother]
  directory_iff _ _ _ := Iff.rfl

/-- A worker goes on without reporting. -/
theorem advances_setWorker {base : SinkState ι} (htouches : Touches c s base)
    (hsame : base.observations = s.observations) (hhandshake : Handshake (s.observations c))
    (hspawned : (s.observations c).worker ≠ .unspawned)
    (hsilent : (s.observations c).worker.isSilent = true) {worker : Worker} (hworker : worker.isSilent = true)
    (hknown : Holding campaign observe base c (s.observations c).receipt worker) :
    Advances campaign observe c s (base.setWorker c worker) := by
  have hobservation : (base.setWorker c worker).observations c = { s.observations c with worker } := by
    simp [setWorker, update, hsame]
  refine ⟨htouches.trans (touches_update base c _), ?_, ?_⟩
  · rw [FilesKnown, hobservation]
    exact hknown.congr rfl rfl
  · rw [hobservation]
    exact hhandshake.silently hspawned hsilent hworker

/-- A step of `prepare_record` other than inspecting the created file fails. -/
theorem advances_failPrepare {base : SinkState ι} (htouches : Touches c s base)
    (hsame : base.observations = s.observations) (hhandshake : Handshake (s.observations c))
    (hspawned : (s.observations c).worker ≠ .unspawned)
    (hsilent : (s.observations c).worker.isSilent = true)
    (h : Progress campaign observe base c (step :: rest) published) (hstep : step ≠ .inspect) :
    Advances campaign observe c s (base.failPrepare campaign observe c step published) := by
  cases published with
  | none =>
    exact advances_setWorker htouches hsame hhandshake hspawned hsilent rfl (h.unguarded hstep)
  | some published =>
    refine advances_setWorker htouches hsame hhandshake hspawned hsilent rfl ⟨fun name howns => h.guarded howns, ?_⟩
    simp

/-- Creating the pending file. -/
theorem Progress.create (h : Progress campaign observe s c (.createNew :: rest) published) :
    Progress campaign observe { s with
      directory := Function.update s.directory (temporaryName campaign (observe c)) (some (.of c))
      content := Function.update s.content c []
      creators := c :: s.creators } c rest published := by
  obtain rfl := (rest_of_isSuffix h.isSuffix).1 rfl
  have hnone : ∀ name, ¬ s.Owns c name := by
    intro name howns
    rcases (h.owns_iff name).mp howns with ⟨-, hcreated, -⟩ | ⟨-, hlinked⟩
    · exact hcreated (by decide)
    · exact hlinked (by decide)
  refine ⟨(List.suffix_cons _ _).trans h.isSuffix, fun name => ?_, h.guard_eq, fun hwritten => absurd ?_ hwritten,
    h.serialized⟩
  · by_cases hname : name = temporaryName campaign (observe c)
    · subst hname
      simp [Owns, prepareRecord]
    · have hother := hnone name
      simp only [Owns] at hother ⊢
      simp [hname, hother, prepareRecord]
  · decide

/-- The whole record is written. -/
theorem Progress.write (h : Progress campaign observe s c (.writeAll :: rest) published)
    {bytes : List UInt8} (hrecord : (observe c).record = some bytes) :
    Progress campaign observe { s with content := Function.update s.content c bytes } c rest published := by
  obtain rfl := (rest_of_isSuffix h.isSuffix).2.2.1 rfl
  refine ⟨(List.suffix_cons _ _).trans h.isSuffix, fun name => ?_, ?_, fun _ => by simpa using hrecord,
    h.serialized⟩
  · exact (h.owns_iff name).trans (by simp [prepareRecord])
  · rw [h.guard_eq]
    decide

/-- A step of `prepare_record` which takes place is progress. -/
theorem perform_progress (h : Progress campaign observe s c (step :: rest) published)
    {done : SinkState ι} (hperform : s.perform campaign observe c step = some done) :
    Touches c s done ∧ done.observations = s.observations ∧
      Progress campaign observe done c (s.remaining campaign observe c step rest) (guardAfter step published) := by
  have hsame : Touches c s s := ⟨fun _ _ => rfl, fun _ _ => rfl, fun _ _ _ => Iff.rfl⟩
  cases step with
  | checkpoint =>
    obtain ⟨-, rfl⟩ : (s.observations c).isActiveBefore = true ∧ s = done := by simpa [perform] using hperform
    exact ⟨hsame, rfl, h.skip (by simp) (by simp) (by simp) (by simp) (by simp)⟩
  | syncAll | openDirectory | syncDirectory =>
    obtain rfl : s = done := by simpa [perform] using hperform
    exact ⟨hsame, rfl, h.skip (by simp) (by simp) (by simp) (by simp) (by simp)⟩
  | inspect =>
    obtain rfl : s = done := by simpa [perform] using hperform
    exact ⟨hsame, rfl, h.inspect⟩
  | createNew =>
    obtain ⟨hfree, rfl⟩ : s.directory (temporaryName campaign (observe c)) = none ∧ _ = done := by
      simpa [perform] using hperform
    have hlinked : Touches c s _ := touches_directory (.inl hfree) (.inr rfl)
    exact ⟨⟨fun _ _ => rfl, (touches_content s c []).content_eq, hlinked.directory_iff⟩, rfl, h.create⟩
  | writeAll =>
    obtain ⟨bytes, hbytes⟩ := h.serialized
    obtain rfl : _ = done := by simpa [perform, hbytes] using hperform
    exact ⟨touches_content s c bytes, rfl, h.write hbytes⟩
  | hardLink =>
    simp only [perform] at hperform
    split at hperform
    · rename_i file hfile hfree
      obtain rfl := Option.some.inj hperform
      obtain ⟨rfl, hlinked⟩ := h.link hfile
      exact ⟨touches_directory (.inl hfree) (.inr rfl), rfl, hlinked⟩
    · cases hperform
  | inspectTemporary =>
    have howns := h.owns_temporary
    obtain rfl : s = done := by simpa [perform, show s.directory _ = _ from howns] using hperform
    refine ⟨hsame, rfl, ?_⟩
    have hremaining : s.remaining campaign observe c .inspectTemporary rest = rest := by
      simp [remaining, show s.directory _ = _ from howns]
    rw [hremaining]
    exact h.skip (by simp) (by simp) (by simp) (by simp) (by simp)
  | unlinkTemporary =>
    obtain rfl : _ = done := by simpa [perform] using hperform
    obtain ⟨howns, hunlinked⟩ := h.unlink
    exact ⟨touches_directory (.inr howns) (.inl rfl), rfl, hunlinked⟩

/-- A guard that is being dropped goes on. -/
theorem advances_dropping {base : SinkState ι} (htouches : Touches c s base)
    (hsame : base.observations = s.observations) (hhandshake : Handshake (s.observations c))
    {names names' : List String} {owned owned' : Bool} {failure : Option ObservationSinkFailure}
    (hworker : (s.observations c).worker = .dropping names owned failure)
    (hnames : ∀ name, base.Owns c name → name ∈ names')
    (howned : owned' = true → ∃ name, names'.head? = some name ∧ base.Owns c name) :
    Advances campaign observe c s (base.setWorker c (.dropping names' owned' failure)) := by
  have hobservation : (base.setWorker c (.dropping names' owned' failure)).observations c =
      { s.observations c with worker := .dropping names' owned' failure } := by
    simp [setWorker, update, hsame]
  have hspawned := hhandshake.not_fresh (by simp [hworker])
  refine ⟨htouches.trans (touches_update base c _), ?_, ?_⟩
  · rw [FilesKnown, hobservation]
    exact ⟨hnames, howned⟩
  · rw [hobservation]
    refine ⟨hspawned _, hhandshake.accepted_iff, fun hsent => ?_, fun hsilent => hhandshake.silent ?_, ?_⟩
    · rcases hhandshake.sent hsent with hwaiting | hreceipt
      · cases hworker.symm.trans hwaiting
      · exact .inr hreceipt
    · rw [hworker]
      cases failure with
      | none => cases hsilent
      | some failure => rfl
    · rintro _ _ ⟨⟩
      exact hhandshake.declined names owned hworker

/-- A published record is reported; a caller which is gone cannot accept it any more. -/
theorem advances_published (hhandshake : Handshake (s.observations c)) {result : Unit}
    (hworker : (s.observations c).worker = .sending (.ok result)) (hkept : Kept campaign observe s c)
    (hwork : s.work campaign observe c = some s') : Advances campaign observe c s s' := by
  obtain ⟨hmessage, hreceipt⟩ := hhandshake.silent (by rw [hworker]; rfl)
  have hspawned := hhandshake.not_fresh (by simp [hworker])
  simp only [work, hworker, Option.some.injEq] at hwork
  subst hwork
  refine ⟨?_, ?_, ?_⟩
  · split <;> exact touches_update s c _
  · unfold FilesKnown
    split <;> simp only [update, Function.update_self, ObservationState.cancel] <;>
      exact ⟨hkept.owns_iff, hkept.complete⟩
  · split
    · rename_i hawaiting
      simp only [update, Function.update_self]
      refine ⟨hspawned _, hhandshake.accepted_iff, fun _ => .inl rfl, nofun, ?_⟩
      rintro _ _ ⟨⟩
    · rename_i hgone
      simp only [update, Function.update_self, ObservationState.cancel]
      refine ⟨hspawned _, ?_, fun _ => .inl rfl, nofun, ?_⟩
      · rw [← hhandshake.accepted_iff]
        split <;> simp_all
      · rintro _ _ ⟨⟩

/-- The next step of a worker. -/
theorem work_advances (hknown : FilesKnown campaign observe s c) (hhandshake : Handshake (s.observations c))
    (hwork : s.work campaign observe c = some s') : Advances campaign observe c s s' := by
  have hself : Touches c s s := ⟨fun _ _ => rfl, fun _ _ => rfl, fun _ _ _ => Iff.rfl⟩
  have hwork' := hwork
  unfold FilesKnown at hknown
  unfold work at hwork
  match hworker : (s.observations c).worker, hknown with
  | .unspawned, _ => simp [hworker] at hwork
  | .queued, hknown =>
    simp only [hworker, Option.some.injEq] at hwork
    subst hwork
    have hspawned : (s.observations c).worker ≠ .unspawned := by simp [hworker]
    have hsilent : (s.observations c).worker.isSilent = true := by rw [hworker]; rfl
    split
    · exact advances_setWorker hself rfl hhandshake hspawned hsilent rfl hknown
    · rename_i bytes hrecord
      split
      · exact advances_setWorker hself rfl hhandshake hspawned hsilent rfl hknown
      · refine advances_setWorker hself rfl hhandshake hspawned hsilent rfl
          ⟨List.suffix_rfl, fun name => ⟨fun howns => absurd howns (hknown name), ?_⟩, by decide,
            fun hwritten => absurd (by decide) hwritten, bytes, hrecord⟩
        rintro (⟨-, hcreated, -⟩ | ⟨-, hlinked⟩)
        · exact absurd (by decide) hcreated
        · exact absurd (by decide) hlinked
  | .preparing [] published, hknown =>
    simp only [hworker, Option.some.injEq] at hwork
    subst hwork
    refine advances_setWorker hself rfl hhandshake (by simp [hworker]) (by rw [hworker]; rfl) rfl ⟨fun name => ?_, hknown.complete (by simp)⟩
    rw [hknown.owns_iff]
    simp
  | .preparing (step :: rest) published, hknown =>
    have hspawned : (s.observations c).worker ≠ .unspawned := by simp [hworker]
    have hsilent : (s.observations c).worker.isSilent = true := by rw [hworker]; rfl
    simp only [hworker] at hwork
    split at hwork
    · rename_i done hperform
      obtain rfl := Option.some.inj hwork
      obtain ⟨htouches, hsame, hprogress⟩ := perform_progress hknown hperform
      exact advances_setWorker htouches hsame hhandshake hspawned hsilent rfl hprogress
    · rename_i hrefused
      obtain rfl := Option.some.inj hwork
      refine advances_failPrepare hself rfl hhandshake hspawned hsilent hknown ?_
      rintro rfl
      cases hrefused
  | .dropping [] owned (some failure), hknown =>
    simp only [hworker, Option.some.injEq] at hwork
    subst hwork
    exact advances_setWorker hself rfl hhandshake (by simp [hworker]) (by rw [hworker]; rfl) rfl
      fun name howns => List.not_mem_nil (hknown.1 name howns)
  | .dropping [] owned none, hknown =>
    have hspawned := hhandshake.not_fresh (by simp [hworker])
    simp only [hworker, Option.some.injEq] at hwork
    subst hwork
    have hcancelled := hhandshake.declined _ _ hworker
    refine ⟨touches_update s c _, ?_, ?_⟩
    · simp only [FilesKnown, setWorker, update, Function.update_self, Holding, hcancelled, reduceCtorEq, if_false]
      exact fun name howns => List.not_mem_nil (hknown.1 name howns)
    · simp only [setWorker, update, Function.update_self]
      refine ⟨hspawned _, hhandshake.accepted_iff, fun _ => .inr (by simp [hcancelled]), nofun, ?_⟩
      rintro _ _ ⟨⟩
  | .dropping (name :: names) false failure, hknown =>
    simp only [hworker, Option.some.injEq] at hwork
    subst hwork
    split
    · rename_i howns
      exact advances_dropping hself rfl hhandshake hworker hknown.1 fun _ => ⟨name, rfl, howns⟩
    · rename_i hother
      refine advances_dropping hself rfl hhandshake hworker (fun other howns => ?_) (by simp)
      rcases List.mem_cons.mp (hknown.1 other howns) with rfl | hmem
      · exact absurd howns hother
      · exact hmem
  | .dropping (name :: names) true failure, hknown =>
    simp only [hworker, Option.some.injEq] at hwork
    subst hwork
    obtain ⟨_, hhead, howns⟩ := hknown.2 rfl
    obtain rfl := Option.some.inj hhead
    refine advances_dropping (touches_directory (.inr howns) (.inl rfl)) rfl hhandshake hworker
      (fun other hother => ?_) (by simp)
    simp only [Owns] at hother
    by_cases hname : other = name
    · simp [hname] at hother
    · rw [Function.update_of_ne hname] at hother
      exact (List.mem_cons.mp (hknown.1 other hother)).resolve_left hname
  | .sending (.ok result), hknown => exact advances_published hhandshake hworker hknown hwork'
  | .sending (.error failure), hknown =>
    have hspawned := hhandshake.not_fresh (by simp [hworker])
    obtain ⟨hmessage, hreceipt⟩ := hhandshake.silent (by rw [hworker]; rfl)
    simp only [hworker, Option.some.injEq] at hwork
    subst hwork
    refine ⟨touches_update s c _, ?_, ?_⟩
    · simp only [FilesKnown, update, Function.update_self, Holding, hreceipt, if_false]
      exact hknown
    · simp only [update, Function.update_self]
      refine ⟨hspawned _, hhandshake.accepted_iff, fun hsent => absurd hsent ?_, nofun, ?_⟩
      · split
        · simp
        · exact hmessage
      · rintro _ _ ⟨⟩
  | .waiting, hknown =>
    have hspawned := hhandshake.not_fresh (by simp [hworker])
    simp only [hworker] at hwork
    cases hreceipt : (s.observations c).receipt with
    | active => simp [hreceipt] at hwork
    | accepted =>
      simp only [hreceipt, Option.some.injEq] at hwork
      subst hwork
      refine ⟨touches_update s c _, ?_, ?_⟩
      · simp only [FilesKnown, setWorker, update, Function.update_self, Holding, hreceipt, if_true]
        exact ⟨hknown.owns_iff, hknown.complete⟩
      · simp only [setWorker, update, Function.update_self]
        refine ⟨hspawned _, hhandshake.accepted_iff, fun _ => .inr (by simp [hreceipt]), nofun, ?_⟩
        rintro _ _ ⟨⟩
    | cancelled =>
      simp only [hreceipt, Option.some.injEq] at hwork
      subst hwork
      refine ⟨touches_update s c _, ?_, ?_⟩
      · simp only [FilesKnown, setWorker, update, Function.update_self, Holding, Bool.false_eq_true, false_implies,
          and_true]
        intro name howns
        simp [guardNames, (hknown.owns_iff name).mp howns]
      · simp only [setWorker, update, Function.update_self]
        refine ⟨hspawned _, hhandshake.accepted_iff, fun _ => .inr (by simp [hreceipt]), nofun, ?_⟩
        rintro _ _ ⟨⟩
        exact hreceipt
  | .finished, _ => simp [hworker] at hwork

/-- A step of a worker fails, other than inspecting the file it created. -/
theorem workFails_advances (hknown : FilesKnown campaign observe s c) (hhandshake : Handshake (s.observations c))
    (hinspect : ∀ rest published, (s.observations c).worker ≠ .preparing (.inspect :: rest) published)
    {torn : List UInt8} (hwork : s.workFails campaign observe c torn = some s') :
    Advances campaign observe c s s' := by
  have hself : Touches c s s := ⟨fun _ _ => rfl, fun _ _ => rfl, fun _ _ _ => Iff.rfl⟩
  unfold FilesKnown at hknown
  unfold workFails at hwork
  split at hwork
  · cases hwork
  · rename_i rest published hworker
    obtain rfl := Option.some.inj hwork
    rw [hworker] at hknown
    have htorn : Progress campaign observe { s with content := Function.update s.content c torn } c
        (.writeAll :: rest) published :=
      { isSuffix := hknown.isSuffix
        owns_iff := hknown.owns_iff
        guard_eq := hknown.guard_eq
        complete := fun hwritten => absurd List.mem_cons_self hwritten
        serialized := hknown.serialized }
    exact advances_failPrepare (touches_content s c torn) rfl hhandshake (by simp [hworker])
      (by rw [hworker]; rfl) htorn (by simp)
  · rename_i step rest published _ _ hworker
    obtain rfl := Option.some.inj hwork
    rw [hworker] at hknown
    refine advances_failPrepare hself rfl hhandshake (by simp [hworker]) (by rw [hworker]; rfl) hknown ?_
    rintro rfl
    exact hinspect rest published hworker
  · cases hwork

/-- A change of the caller or the deadline which leaves the receipt alone. -/
theorem advances_caller (hknown : FilesKnown campaign observe s c) {o : ObservationState}
    (hworker : o.worker = (s.observations c).worker) (hreceipt : o.receipt = (s.observations c).receipt)
    (hhandshake : Handshake o) : Advances campaign observe c s (s.update c o) := by
  refine ⟨touches_update s c o, ?_, ?_⟩
  · unfold FilesKnown at hknown ⊢
    simp only [update, Function.update_self, hworker, hreceipt]
    exact hknown.congr rfl rfl
  · simpa [update] using hhandshake

/-- A caller which goes away or fails cancels the receipt, unless it was accepted. -/
theorem advances_cancel (hknown : FilesKnown campaign observe s c) (hhandshake : Handshake (s.observations c))
    (hcaller : (s.observations c).caller ≠ .returned (.ok ())) {caller : Caller} (hnext : caller ≠ .returned (.ok ()))
    (hfresh : caller.isFresh = false) :
    Advances campaign observe c s (s.update c { (s.observations c).cancel with caller }) := by
  have hreceipt : (s.observations c).receipt ≠ .accepted := mt hhandshake.accepted_iff.mp hcaller
  have hcancelled : (s.observations c).cancel.receipt = .cancelled := by
    unfold ObservationState.cancel
    cases hcase : (s.observations c).receipt with
    | active | cancelled => simp
    | accepted => exact absurd hcase hreceipt
  refine ⟨touches_update s c _, ?_, ?_⟩
  · unfold FilesKnown at hknown ⊢
    simp only [update, Function.update_self]
    have hforgotten : Holding campaign observe s c .cancelled (s.observations c).worker := by
      match (s.observations c).worker, hknown with
      | .unspawned, hknown | .queued, hknown | .sending (.ok _), hknown | .sending (.error _), hknown
      | .dropping _ _ _, hknown | .preparing _ _, hknown | .waiting, hknown => exact hknown
      | .finished, hknown =>
        simp only [Holding, hreceipt, if_false] at hknown
        simpa [Holding] using hknown
    rw [hcancelled]
    exact hforgotten.congr rfl rfl
  · simp only [update, Function.update_self]
    refine ⟨fun h => absurd h (by simp [hfresh]), by simp [hcancelled, hnext], fun _ => .inr (by simp [hcancelled]),
      fun hsilent => ⟨(hhandshake.silent hsilent).1, by simp [hcancelled]⟩, fun _ _ _ => hcancelled⟩

/-- The caller learns what became of its record. -/
theorem receive_advances (hknown : FilesKnown campaign observe s c) (hhandshake : Handshake (s.observations c))
    (hreceive : s.receive c = some s') : Advances campaign observe c s s' := by
  unfold receive at hreceive
  dsimp only at hreceive
  split at hreceive
  · rename_i hawaiting hmessage
    obtain rfl := Option.some.inj hreceive
    have hcaller : (s.observations c).caller ≠ .returned (.ok ()) := by simp [hawaiting]
    unfold ObservationState.accept
    split
    · rename_i hactive
      have hreceipt : (s.observations c).receipt = .active := by
        simpa [ObservationState.isActiveBefore] using (Bool.and_eq_true_iff.mp hactive).1
      -- the receipt is active, so the worker waits with its record published
      have hwaiting := (hhandshake.sent hmessage).resolve_right (by simp [hreceipt])
      refine ⟨touches_update s c _, ?_, ?_⟩
      · unfold FilesKnown at hknown ⊢
        simp only [update, Function.update_self, hwaiting] at hknown ⊢
        exact ⟨hknown.owns_iff, hknown.complete⟩
      · simp only [update, Function.update_self]
        exact ⟨nofun, by simp, fun _ => .inl hwaiting, fun hsilent => by simp [hwaiting, Worker.isSilent] at hsilent,
          fun names owned hdropping => by simp [hwaiting] at hdropping⟩
    · exact advances_cancel hknown hhandshake hcaller (by simp) rfl
  · rename_i hawaiting hmessage
    obtain rfl := Option.some.inj hreceive
    exact advances_cancel hknown hhandshake (by simp [hawaiting]) (by simp) rfl
  · rename_i hawaiting hmessage hfinished
    obtain rfl := Option.some.inj hreceive
    exact advances_cancel hknown hhandshake (by simp [hawaiting]) (by simp) rfl
  · cases hreceive

/-- Only inspecting a just created file must not fail. -/
def InspectsCreated (s : SinkState ι) (c : ι) (i : SinkStep) : Prop :=
  ∀ torn rest published, i = .workFails torn → (s.observations c).worker ≠ .preparing (.inspect :: rest) published

/-- Every step of an observation keeps what is known of it and touches no other. -/
theorem step_advances (hknown : FilesKnown campaign observe s c) (hhandshake : Handshake (s.observations c))
    {i : SinkStep} (hinspects : InspectsCreated s c i) (hstep : s.step campaign observe c i = some s') :
    Advances campaign observe c s s' := by
  -- a caller which only counts or is dropped before it polled
  have hfresh {caller : Caller} (hnext : caller ≠ .returned (.ok ()))
      (hbefore : (s.observations c).caller.isFresh = true) :
      Handshake { s.observations c with caller } := by
    have hunspawned := hhandshake.unspawned hbefore
    have hreceipt : (s.observations c).receipt ≠ .accepted := by
      intro haccepted
      rw [hhandshake.accepted_iff.mp haccepted] at hbefore
      cases hbefore
    exact ⟨fun _ => hunspawned, by simp [hreceipt, hnext], hhandshake.sent, hhandshake.silent, hhandshake.declined⟩
  have hchange {caller : Caller} (hnext : caller ≠ .returned (.ok ()))
      (hbefore : (s.observations c).caller.isFresh = true) :
      Advances campaign observe c s (s.update c { s.observations c with caller }) :=
    advances_caller hknown rfl rfl (hfresh hnext hbefore)
  cases i with
  | count =>
    simp only [SinkState.step] at hstep
    split at hstep
    · cases hstep
    · rename_i hidle
      rw [not_not] at hidle
      have hadvances (caller : Caller) (hnext : caller ≠ .returned (.ok ())) := hchange hnext (by rw [hidle]; rfl)
      split at hstep
      · obtain rfl := Option.some.inj hstep
        exact (hadvances .overCounted (by simp)).congr rfl rfl rfl
      · obtain rfl := Option.some.inj hstep
        exact (hadvances .unpolled (by simp)).congr rfl rfl rfl
  | uncount =>
    simp only [SinkState.step] at hstep
    split at hstep
    · cases hstep
    · rename_i hover
      rw [not_not] at hover
      obtain rfl := Option.some.inj hstep
      exact (hchange (by simp) (by rw [hover]; rfl)).congr rfl rfl rfl
  | poll =>
    simp only [SinkState.step] at hstep
    split at hstep
    · cases hstep
    · rename_i hunpolled
      rw [not_not] at hunpolled
      obtain rfl := Option.some.inj hstep
      have hunspawned := hhandshake.unspawned (by rw [hunpolled]; rfl)
      have hreceipt : (s.observations c).receipt ≠ .accepted := by
        simp [hhandshake.accepted_iff, hunpolled]
      obtain ⟨hmessage, -⟩ := hhandshake.silent (by rw [hunspawned]; rfl)
      refine ⟨touches_update s c _, ?_, ?_⟩
      · unfold FilesKnown at hknown ⊢
        simp only [update, Function.update_self, hunspawned] at hknown ⊢
        exact hknown
      · simp only [update, Function.update_self]
        refine ⟨nofun, by simp [hreceipt], fun hsent => absurd hsent hmessage, fun _ => ⟨hmessage, hreceipt⟩, ?_⟩
        rintro _ _ ⟨⟩
  | drop =>
    simp only [SinkState.step] at hstep
    split at hstep
    · rename_i hunpolled
      obtain rfl := Option.some.inj hstep
      exact hchange (by simp) (by rw [hunpolled]; rfl)
    · rename_i hawaiting
      obtain rfl := Option.some.inj hstep
      have hreceipt : (s.observations c).receipt ≠ .accepted := by
        simp [hhandshake.accepted_iff, hawaiting]
      refine advances_caller hknown rfl rfl ?_
      exact ⟨nofun, by simp [hreceipt], hhandshake.sent, hhandshake.silent, hhandshake.declined⟩
    · cases hstep
  | close =>
    simp only [SinkState.step] at hstep
    split at hstep
    · cases hstep
    · rename_i hclosing
      rw [not_not] at hclosing
      obtain rfl := Option.some.inj hstep
      exact advances_cancel hknown hhandshake (by simp [hclosing]) (by simp) rfl
  | receive => exact receive_advances hknown hhandshake hstep
  | expire =>
    obtain rfl := Option.some.inj hstep
    exact advances_caller hknown rfl rfl ⟨hhandshake.unspawned, hhandshake.accepted_iff, hhandshake.sent,
      hhandshake.silent, hhandshake.declined⟩
  | discard =>
    simp only [SinkState.step] at hstep
    split at hstep
    · cases hstep
    · rename_i hqueued
      rw [not_not] at hqueued
      obtain rfl := Option.some.inj hstep
      obtain ⟨hmessage, hreceipt⟩ := hhandshake.silent (by rw [hqueued]; rfl)
      refine ⟨touches_update s c _, ?_, ?_⟩
      · unfold FilesKnown at hknown ⊢
        simp only [setWorker, update, Function.update_self, hqueued, Holding, hreceipt, if_false] at hknown ⊢
        exact hknown
      · simp only [setWorker, update, Function.update_self]
        refine ⟨hhandshake.not_fresh (by simp [hqueued]) _, hhandshake.accepted_iff,
          fun hsent => absurd hsent hmessage, nofun, ?_⟩
        rintro _ _ ⟨⟩
  | work => exact work_advances hknown hhandshake hstep
  | workFails torn =>
    exact workFails_advances hknown hhandshake (fun rest published => hinspects torn rest published rfl) hstep

end Steps

section Counts

/-- Whether an observation has taken a slot and goes on. -/
def Begun (o : ObservationState) : Prop := o.caller = .unpolled ∨ o.worker ≠ .unspawned

/-- The counter counts the admitted observations and those over the limit, and only admitted ones create
files. -/
structure Counted (s : SinkState ι) : Prop where
  written_eq : s.written = s.admitted.length + s.overLimit.length
  over_iff : ∀ c, c ∈ s.overLimit ↔ (s.observations c).caller = .overCounted
  over_nodup : s.overLimit.Nodup
  admitted_le : s.admitted.length ≤ MAX_OBSERVATIONS
  begun : ∀ c, Begun (s.observations c) → c ∈ s.admitted
  creators : ∀ c ∈ s.creators, c ∈ s.admitted

/-- A step which counts nothing; only an admitted observation may create its file. -/
structure Uncounted (c : ι) (s s' : SinkState ι) : Prop where
  written_eq : s'.written = s.written
  admitted_eq : s'.admitted = s.admitted
  overLimit_eq : s'.overLimit = s.overLimit
  over_iff : ∀ other, (s'.observations other).caller = .overCounted ↔ (s.observations other).caller = .overCounted
  begun : ∀ other, Begun (s'.observations other) → Begun (s.observations other)
  creators : ∀ other ∈ s'.creators, other ∈ s.creators ∨ other = c ∧ Begun (s.observations c)

theorem Counted.uncounted (h : Counted s) (hstep : Uncounted c s s') : Counted s' where
  written_eq := by rw [hstep.written_eq, hstep.admitted_eq, hstep.overLimit_eq, h.written_eq]
  over_iff other := by rw [hstep.overLimit_eq, h.over_iff, hstep.over_iff]
  over_nodup := by
    rw [hstep.overLimit_eq]
    exact h.over_nodup
  admitted_le := by
    rw [hstep.admitted_eq]
    exact h.admitted_le
  begun other hbegun := by
    rw [hstep.admitted_eq]
    exact h.begun other (hstep.begun other hbegun)
  creators other hother := by
    rw [hstep.admitted_eq]
    rcases hstep.creators other hother with hcreator | ⟨rfl, hbegun⟩
    · exact h.creators other hcreator
    · exact h.begun _ hbegun

variable [DecidableEq ι]

/-- Replacing the state of an observation counts nothing, when its caller is over the limit as before and
no slot is taken. -/
theorem uncounted_update {o : ObservationState}
    (hover : o.caller = .overCounted ↔ (s.observations c).caller = .overCounted)
    (hbegun : Begun o → Begun (s.observations c)) : Uncounted c s (s.update c o) where
  written_eq := rfl
  admitted_eq := rfl
  overLimit_eq := rfl
  over_iff other := by
    by_cases hother : other = c
    · subst hother
      simpa [update] using hover
    · simp [update, hother]
  begun other hother := by
    by_cases hsame : other = c
    · subst hsame
      exact hbegun (by simpa [update] using hother)
    · simpa [update, hsame] using hother
  creators other hother := .inl hother

omit [DecidableEq ι] in
/-- Moving files first counts nothing either. -/
theorem Uncounted.after {base : SinkState ι} (h : Uncounted c base s') (hsame : base.observations = s.observations)
    (hwritten : base.written = s.written) (hadmitted : base.admitted = s.admitted)
    (hover : base.overLimit = s.overLimit)
    (hcreators : ∀ other ∈ base.creators, other ∈ s.creators ∨ other = c ∧ Begun (s.observations c)) :
    Uncounted c s s' where
  written_eq := h.written_eq.trans hwritten
  admitted_eq := h.admitted_eq.trans hadmitted
  overLimit_eq := h.overLimit_eq.trans hover
  over_iff other := by rw [h.over_iff, hsame]
  begun other hother := by
    rw [← hsame]
    exact h.begun other hother
  creators other hother := by
    rcases h.creators other hother with hbase | ⟨rfl, hbegun⟩
    · exact hcreators other hbase
    · exact .inr ⟨rfl, hsame ▸ hbegun⟩

/-- A step of `prepare_record` counts nothing. -/
theorem perform_counts {step : WorkerStep} {done : SinkState ι}
    (hperform : s.perform campaign observe c step = some done) :
    done.observations = s.observations ∧ done.written = s.written ∧ done.admitted = s.admitted ∧
      done.overLimit = s.overLimit ∧ ∀ other ∈ done.creators, other ∈ s.creators ∨ other = c := by
  have hsame : s.observations = s.observations ∧ s.written = s.written ∧ s.admitted = s.admitted ∧
      s.overLimit = s.overLimit ∧ ∀ other ∈ s.creators, other ∈ s.creators ∨ other = c :=
    ⟨rfl, rfl, rfl, rfl, fun _ => .inl⟩
  cases step with
  | checkpoint =>
    obtain ⟨-, rfl⟩ : (s.observations c).isActiveBefore = true ∧ s = done := by simpa [perform] using hperform
    exact hsame
  | createNew =>
    obtain ⟨-, rfl⟩ : s.directory (temporaryName campaign (observe c)) = none ∧ _ = done := by
      simpa [perform] using hperform
    exact ⟨rfl, rfl, rfl, rfl, fun other hother => (List.mem_cons.mp hother).symm⟩
  | inspect | syncAll | openDirectory | syncDirectory | writeAll | unlinkTemporary =>
    obtain rfl : _ = done := by simpa [perform] using hperform
    exact hsame
  | hardLink =>
    simp only [perform] at hperform
    split at hperform
    · obtain rfl := Option.some.inj hperform
      exact hsame
    · cases hperform
  | inspectTemporary =>
    simp only [perform] at hperform
    split at hperform
    · split at hperform
      · obtain rfl := Option.some.inj hperform
        exact hsame
      · cases hperform
    · obtain rfl := Option.some.inj hperform
      exact hsame

/-- A worker counts nothing. -/
theorem work_uncounted (hwork : s.work campaign observe c = some s') : Uncounted c s s' := by
  have hspawned : (s.observations c).worker ≠ .unspawned := by
    intro hunspawned
    simp [work, hunspawned] at hwork
  have hbegun : Begun (s.observations c) := .inr hspawned
  have hmoved {o : ObservationState} (hcaller : o.caller = (s.observations c).caller) :
      Uncounted c s (s.update c o) := uncounted_update (by rw [hcaller]) fun _ => hbegun
  unfold work at hwork
  dsimp only at hwork
  split at hwork
  · cases hwork
  · cases hwork
  · obtain rfl := Option.some.inj hwork
    exact hmoved rfl
  · obtain rfl := Option.some.inj hwork
    exact hmoved rfl
  · split at hwork
    · rename_i done hperform
      obtain rfl := Option.some.inj hwork
      obtain ⟨hsame, hwritten, hadmitted, hover, hcreators⟩ := perform_counts hperform
      refine Uncounted.after ?_ hsame hwritten hadmitted hover fun other hother =>
        (hcreators other hother).imp_right fun heq => ⟨heq, hbegun⟩
      exact uncounted_update (by rw [hsame]) fun _ => hsame ▸ hbegun
    · obtain rfl := Option.some.inj hwork
      unfold failPrepare
      split <;> exact hmoved rfl
  · obtain rfl := Option.some.inj hwork
    exact hmoved rfl
  · obtain rfl := Option.some.inj hwork
    exact hmoved rfl
  · obtain rfl := Option.some.inj hwork
    exact hmoved rfl
  · obtain rfl := Option.some.inj hwork
    refine Uncounted.after (uncounted_update ?_ fun _ => ?_) rfl rfl rfl rfl fun _ => .inl
    · rfl
    · exact hbegun
  · split at hwork
    · obtain rfl := Option.some.inj hwork
      split <;> exact hmoved rfl
    · obtain rfl := Option.some.inj hwork
      exact hmoved rfl
  · split at hwork
    · cases hwork
    · obtain rfl := Option.some.inj hwork
      exact hmoved rfl
    · obtain rfl := Option.some.inj hwork
      exact hmoved rfl

/-- A failing worker counts nothing. -/
theorem workFails_uncounted {torn : List UInt8} (hwork : s.workFails campaign observe c torn = some s') :
    Uncounted c s s' := by
  have hbegun {worker : Worker} (hworker : (s.observations c).worker = worker) (hspawned : worker ≠ .unspawned) :
      Begun (s.observations c) := .inr (hworker ▸ hspawned)
  have hfails (base : SinkState ι) (step : WorkerStep) (published : Option Bool)
      (hsame : base.observations = s.observations) (hbegun : Begun (s.observations c)) :
      Uncounted c base (base.failPrepare campaign observe c step published) := by
    unfold failPrepare
    split <;> exact uncounted_update Iff.rfl fun _ => hsame ▸ hbegun
  unfold workFails at hwork
  split at hwork
  · cases hwork
  · rename_i hworker
    obtain rfl := Option.some.inj hwork
    refine (hfails _ _ _ ?_ (hbegun hworker (by simp))).after rfl rfl rfl rfl fun _ => .inl
    rfl
  · rename_i hworker
    obtain rfl := Option.some.inj hwork
    exact hfails s _ _ rfl (hbegun hworker (by simp))
  · cases hwork

/-- An observation which is over the limit or takes a slot is counted. -/
theorem Counted.count (h : Counted s) (hunspawned : (s.observations c).worker = .unspawned)
    (hidle : (s.observations c).caller = .idle) :
    Counted { s.update c { s.observations c with caller := .overCounted } with
        written := s.written + 1, overLimit := c :: s.overLimit } ∧
      (s.written < MAX_OBSERVATIONS → Counted { s.update c { s.observations c with caller := .unpolled } with
        written := s.written + 1, admitted := c :: s.admitted }) := by
  have hwritten := h.written_eq
  have hnot : c ∉ s.overLimit := by simp [h.over_iff, hidle]
  have hother {other : ι} (hne : other ≠ c) (o : ObservationState) :
      (s.update c o).observations other = s.observations other := by simp [update, hne]
  refine ⟨⟨by simp [update]; omega, fun other => ?_, h.over_nodup.cons hnot, h.admitted_le,
    fun other hbegun => ?_, h.creators⟩, fun hroom => ⟨by simp [update]; omega, fun other => ?_, h.over_nodup,
    by simp; omega, fun other hbegun => ?_, fun other hcreator => List.mem_cons_of_mem c (h.creators other hcreator)⟩⟩
  · by_cases hne : other = c
    · subst hne
      simp [update]
    · simp [hne, hother hne, h.over_iff]
  · by_cases hne : other = c
    · subst hne
      simp [update, Begun, hunspawned] at hbegun
    · exact h.begun other (hother hne _ ▸ hbegun)
  · by_cases hne : other = c
    · subst hne
      simp [update, hnot]
    · rw [hother hne]
      exact h.over_iff other
  · by_cases hne : other = c
    · simp [hne]
    · exact List.mem_cons_of_mem c (h.begun other (hother hne _ ▸ hbegun))

/-- An observation over the limit takes its count back. -/
theorem Counted.uncount (h : Counted s) (hunspawned : (s.observations c).worker = .unspawned)
    (hover : (s.observations c).caller = .overCounted) {caller : Caller} (hcaller : caller ≠ .overCounted)
    (hpolled : caller ≠ .unpolled) :
    Counted { s.update c { s.observations c with caller } with
      written := s.written - 1, overLimit := s.overLimit.erase c } := by
  have hwritten := h.written_eq
  have hmem : c ∈ s.overLimit := (h.over_iff c).mpr hover
  have hlength := List.length_erase_of_mem hmem
  have hpos := List.length_pos_of_mem hmem
  have hother {other : ι} (hne : other ≠ c) (o : ObservationState) :
      (s.update c o).observations other = s.observations other := by simp [update, hne]
  refine ⟨?_, fun other => ?_, h.over_nodup.erase c, h.admitted_le, fun other hbegun => ?_, h.creators⟩
  · simp only [update]
    omega
  · by_cases hne : other = c
    · subst hne
      simp [update, hcaller, h.over_nodup.not_mem_erase]
    · simp [hother hne, List.mem_erase_of_ne hne, h.over_iff]
  · by_cases hne : other = c
    · subst hne
      simp [update, Begun, hunspawned, hpolled] at hbegun
    · exact h.begun other (hother hne _ ▸ hbegun)

/-- Every step keeps the counts. -/
theorem Counted.step (h : Counted s)
    (hunspawned : (s.observations c).caller.isFresh = true → (s.observations c).worker = .unspawned)
    {i : SinkStep} (hstep : s.step campaign observe c i = some s') : Counted s' := by
  -- a caller which neither counts nor takes a slot
  have hmoves {o : ObservationState} (hover : (s.observations c).caller ≠ .overCounted)
      (hnext : o.caller ≠ .overCounted) (hbegun : Begun o → Begun (s.observations c)) : Counted (s.update c o) :=
    h.uncounted (uncounted_update (by simp [hover, hnext]) hbegun)
  cases i with
  | count =>
    simp only [SinkState.step] at hstep
    split at hstep
    · cases hstep
    · rename_i hidle
      rw [not_not] at hidle
      obtain ⟨hover, htakes⟩ := h.count (hunspawned (by rw [hidle]; rfl)) hidle
      split at hstep
      · obtain rfl := Option.some.inj hstep
        exact hover
      · rename_i hroom
        obtain rfl := Option.some.inj hstep
        exact htakes (by omega)
  | uncount =>
    simp only [SinkState.step] at hstep
    split at hstep
    · cases hstep
    · rename_i hover
      rw [not_not] at hover
      obtain rfl := Option.some.inj hstep
      exact h.uncount (hunspawned (by rw [hover]; rfl)) hover (by simp) (by simp)
  | poll =>
    simp only [SinkState.step] at hstep
    split at hstep
    · cases hstep
    · rename_i hunpolled
      rw [not_not] at hunpolled
      obtain rfl := Option.some.inj hstep
      exact hmoves (by simp [hunpolled]) (by simp) fun _ => .inl hunpolled
  | drop =>
    simp only [SinkState.step] at hstep
    split at hstep
    · rename_i hunpolled
      obtain rfl := Option.some.inj hstep
      exact hmoves (by simp [hunpolled]) (by simp) fun _ => .inl hunpolled
    · rename_i hawaiting
      obtain rfl := Option.some.inj hstep
      exact hmoves (by simp [hawaiting]) (by simp) fun hbegun => .inr (hbegun.resolve_left (by simp))
    · cases hstep
  | close =>
    simp only [SinkState.step] at hstep
    split at hstep
    · cases hstep
    · rename_i hclosing
      rw [not_not] at hclosing
      obtain rfl := Option.some.inj hstep
      exact hmoves (by simp [hclosing]) (by simp) fun hbegun => .inr (hbegun.resolve_left (by simp))
  | receive =>
    simp only [SinkState.step, receive] at hstep
    split at hstep
    · rename_i hawaiting _
      obtain rfl := Option.some.inj hstep
      unfold ObservationState.accept
      split <;>
        exact hmoves (by simp [hawaiting]) (by simp) fun hbegun => .inr (hbegun.resolve_left (by simp))
    · rename_i hawaiting _
      obtain rfl := Option.some.inj hstep
      exact hmoves (by simp [hawaiting]) (by simp) fun hbegun => .inr (hbegun.resolve_left (by simp))
    · rename_i hawaiting _ _
      obtain rfl := Option.some.inj hstep
      exact hmoves (by simp [hawaiting]) (by simp) fun hbegun => .inr (hbegun.resolve_left (by simp))
    · cases hstep
  | expire =>
    obtain rfl := Option.some.inj hstep
    exact h.uncounted (uncounted_update Iff.rfl id)
  | discard =>
    simp only [SinkState.step] at hstep
    split at hstep
    · cases hstep
    · rename_i hqueued
      rw [not_not] at hqueued
      obtain rfl := Option.some.inj hstep
      exact h.uncounted (uncounted_update Iff.rfl fun _ => .inr (by simp [hqueued]))
  | work => exact h.uncounted (work_uncounted hstep)
  | workFails torn => exact h.uncounted (workFails_uncounted hstep)

end Counts

end SinkState

section Runs

variable [DecidableEq ι]

/-- What is known of every observation in every state a sink reaches. -/
structure SinkInvariant (campaign : String) (observe : ι → Observation) (s : SinkState ι) : Prop where
  known : ∀ c, s.FilesKnown campaign observe c
  handshake : ∀ c, Handshake (s.observations c)
  counted : s.Counted

variable {s s' : SinkState ι}

theorem SinkInvariant.step (h : SinkInvariant campaign observe s) {c : ι} {i : SinkStep}
    (hinspects : s.InspectsCreated c i) (hstep : s.step campaign observe c i = some s') :
    SinkInvariant campaign observe s' := by
  have hadvances := SinkState.step_advances (h.known c) (h.handshake c) hinspects hstep
  refine ⟨fun other => ?_, fun other => ?_, h.counted.step (h.handshake c).unspawned hstep⟩
  · by_cases hother : other = c
    · exact hother ▸ hadvances.known
    · exact hadvances.touches.filesKnown hother (h.known other)
  · by_cases hother : other = c
    · exact hother ▸ hadvances.handshake
    · rw [hadvances.touches.observations_eq other hother]
      exact h.handshake other

omit [DecidableEq ι] in
/-- The caller's acceptance keeps the published file. -/
theorem SinkInvariant.kept (h : SinkInvariant campaign observe s) {c : ι}
    (haccepted : (s.observations c).caller = .returned (.ok ())) : s.Kept campaign observe c := by
  have hhandshake := h.handshake c
  have hreceipt := hhandshake.accepted_iff.mpr haccepted
  have hknown := h.known c
  unfold SinkState.FilesKnown at hknown
  rw [hreceipt] at hknown
  match hworker : (s.observations c).worker with
  | .unspawned | .queued | .preparing _ _ | .dropping _ _ (some _) | .sending _ =>
    exact absurd hreceipt (hhandshake.silent (by rw [hworker]; rfl)).2
  | .dropping _ _ none => cases hreceipt.symm.trans (hhandshake.declined _ _ hworker)
  | .waiting =>
    rw [hworker] at hknown
    exact hknown
  | .finished =>
    rw [hworker] at hknown
    simpa [SinkState.Holding] using hknown

end Runs

end Voicetext.Gateway.Server
