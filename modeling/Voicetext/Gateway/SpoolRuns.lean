import Voicetext.Gateway.SpoolMaintenancePass
import Voicetext.Gateway.Storage.SpoolClaims

/-!
# The spool across calls and crashes

A run is a sequence of stores and removals, each of which may stop between two of its steps, and of rows
inserted for handles a store returned. While no store stops between its new artifact and the claim for it,
and rows agree with what is stored, a job has one artifact at most and its row names it.
-/

namespace Voicetext.Gateway

open Voicetext.Common Voicetext.Speech.Application Voicetext.Gateway.Storage
  Voicetext.Gateway.Storage.DurableFileSpool

/-- The spool directory between two calls, with the handles returned for each job and the ledger. -/
structure SpoolState where
  directory : Directory
  returned : List (BatchJobId × BatchAudioHandle)
  ledger : BatchJobId → Option BatchJobSnapshot

/-- An empty spool before its first call. -/
def SpoolState.empty : SpoolState := ⟨∅, [], fun _ => none⟩

/-- One step of a run; a call carries what has taken effect before it stopped. -/
inductive SpoolAction
  | store (id : BatchJobId) (audio : List UInt8) (events : List SpoolEvent)
  | remove (handle : BatchAudioHandle)
  | insert (id : BatchJobId) (row : BatchJobSnapshot)
  | update (id : BatchJobId) (row : BatchJobSnapshot)

/-- A call stops anywhere or returns; a row is inserted for a handle a store returned, and keeps it. -/
inductive SpoolStep (config : SpoolConfig) (s : SpoolState) : SpoolAction → SpoolState → Prop
  | stopStore {id : BatchJobId} {audio : List UInt8} {w : SpoolWorld}
      (hstops : Task.Stops (servesSpool config.codec s.ledger) ⟨s.directory, []⟩
        (storeBlocking config id audio) w) :
      SpoolStep config s (.store id audio w.events) { s with directory := w.directory }
  | returnStore {id : BatchJobId} {audio : List UInt8} {w : SpoolWorld} {outcome : BatchAudioStoreOutcome}
      (hsolo : Task.Solo (servesSpool config.codec s.ledger) ⟨s.directory, []⟩
        (storeBlocking config id audio) w (.ok outcome)) :
      SpoolStep config s (.store id audio w.events)
        { s with directory := w.directory, returned := (id, outcomeHandle outcome) :: s.returned }
  | stopRemove {handle : BatchAudioHandle} {w : SpoolWorld}
      (hstops : Task.Stops (servesSpool config.codec s.ledger) ⟨s.directory, []⟩
        (removeBlocking config handle) w) :
      SpoolStep config s (.remove handle) { s with directory := w.directory }
  | insert {id : BatchJobId} {row : BatchJobSnapshot} (hreturned : (id, row.audio) ∈ s.returned)
      (habsent : s.ledger id = none) :
      SpoolStep config s (.insert id row) { s with ledger := Function.update s.ledger id (some row) }
  | update {id : BatchJobId} {old row : BatchJobSnapshot} (hold : s.ledger id = some old)
      (haudio : row.audio = old.audio) :
      SpoolStep config s (.update id row) { s with ledger := Function.update s.ledger id (some row) }

/-- The states runs reach from the empty spool with permitted steps. -/
inductive SpoolReaches (config : SpoolConfig) (permits : SpoolState → SpoolAction → Prop) : SpoolState → Prop
  | start : SpoolReaches config permits .empty
  | step {s s' : SpoolState} {action : SpoolAction} (hrun : SpoolReaches config permits s)
      (hpermits : permits s action) (hstep : SpoolStep config s action s') :
      SpoolReaches config permits s'

theorem SpoolReaches.mono {config : SpoolConfig} {permits permits' : SpoolState → SpoolAction → Prop}
    {s : SpoolState} (h : SpoolReaches config permits s)
    (hpermits : ∀ s action, permits s action → permits' s action) : SpoolReaches config permits' s := by
  induction h with
  | start => exact .start
  | step _ hpermit hstep ih => exact .step ih (hpermits _ _ hpermit) hstep

/-- A store that stops has settled the claim for its new artifact. -/
def ClaimsSettled (config : SpoolConfig) (_ : SpoolState) : SpoolAction → Prop
  | .store id audio events => Settles id.asStr (config.digest audio) (finalName config id audio) events
  | .remove _ | .insert _ _ | .update _ _ => True

/-- Claims are settled; a store links a new artifact only if the job's row, if any, names it, and a row is
inserted while its artifact is stored. -/
def Orderly (config : SpoolConfig) (s : SpoolState) (action : SpoolAction) : Prop :=
  ClaimsSettled config s action ∧
    match action with
    | .store id audio events => .linked (finalName config id audio) ∈ events →
        ∀ row, s.ledger id = some row → row.audio = config.handle id audio
    | .insert _ row => artifactName row.audio ∈ s.directory
    | .remove _ | .update _ _ => True

/-- Artifacts are claimed, rows agree with them, and returned handles name their jobs. -/
structure SpoolInv (config : SpoolConfig) (s : SpoolState) : Prop where
  claimed : Claimed config.codec s.directory
  agrees : ∀ name parsed row, audioFile config.codec name = some parsed → name ∈ s.directory →
    s.ledger ⟨parsed.jobId⟩ = some row → artifactName row.audio = name
  returned : ∀ id handle, (id, handle) ∈ s.returned →
    ∃ digest, audioFile config.codec (artifactName handle) = some ⟨id.asStr, digest⟩

section Invariant

variable {config : SpoolConfig} {s s' : SpoolState} {id : BatchJobId} {audio : List UInt8} {w : SpoolWorld}

theorem claimed_empty (codec : UuidCodec) : Claimed codec ∅ :=
  fun _ _ _ hname => absurd hname (AList.notMem_empty _)

/-- A step keeps audio claimed when a store that stops has settled its claim. -/
theorem claimed_step (h : Claimed config.codec s.directory) {action : SpoolAction}
    (hsettled : ClaimsSettled config s action) (hstep : SpoolStep config s action s') :
    Claimed config.codec s'.directory := by
  cases hstep with
  | stopStore hstops => exact ((storeBlocking_keeps h).stops hstops).claimed hsettled
  | returnStore hsolo => exact ((storeBlocking_keeps h).stops hsolo.stops).claimed hsettled
  | stopRemove hstops => exact (h.removeBlocking hstops).1
  | insert _ _ => exact h
  | update _ _ => exact h

/-- Audio is claimed in every state reached while stores settle their claims. -/
theorem SpoolReaches.claimed (h : SpoolReaches config (ClaimsSettled config) s) :
    Claimed config.codec s.directory := by
  induction h with
  | start => exact claimed_empty config.codec
  | step _ hsettled hstep ih => exact claimed_step ih hsettled hstep

theorem spoolInv_empty (config : SpoolConfig) : SpoolInv config .empty := by
  refine ⟨claimed_empty config.codec, ?_, by simp [SpoolState.empty]⟩
  exact fun _ _ _ _ hname => absurd hname (AList.notMem_empty _)

/-- A store that stops keeps the invariant when it is orderly. -/
theorem SpoolInv.store (h : SpoolInv config s)
    (hstops : Task.Stops (servesSpool config.codec s.ledger) ⟨s.directory, []⟩ (storeBlocking config id audio) w)
    (horderly : Orderly config s (.store id audio w.events)) :
    SpoolInv config { s with directory := w.directory } := by
  by_cases hid : config.codec.isCanonical id.asStr = true
  · have hheld : StoreHeld config id audio s.directory w := (storeBlocking_keeps h.claimed).stops hstops
    refine ⟨hheld.claimed horderly.1, ?_, h.returned⟩
    intro name parsed row hparsed hname hrow
    rcases hheld.audio name parsed hparsed hname with hbefore | ⟨rfl, hlinked⟩
    · exact h.agrees name parsed row hparsed hbefore hrow
    · rw [audioFile_finalName audio hid] at hparsed
      obtain rfl := Option.some.inj hparsed
      rw [horderly.2 hlinked row hrow]
      rfl
  · obtain ⟨failure, hrefused⟩ : ∃ failure, storeBlocking config id audio = .done (.error failure) :=
      storeBlocking_of_not_canonical (Bool.eq_false_iff.mpr hid)
    rw [hrefused] at hstops
    rw [Task.stops_done hstops]
    exact h

/-- A store returns a handle of its job. -/
theorem SpoolInv.returnStore (h : SpoolInv config s) {outcome : BatchAudioStoreOutcome}
    (hsolo : Task.Solo (servesSpool config.codec s.ledger) ⟨s.directory, []⟩ (storeBlocking config id audio) w
      (.ok outcome))
    (horderly : Orderly config s (.store id audio w.events)) :
    SpoolInv config
      { s with directory := w.directory, returned := (id, outcomeHandle outcome) :: s.returned } := by
  obtain ⟨hclaimed, hagrees, hreturned⟩ := h.store hsolo.stops horderly
  obtain ⟨hid, houtcome⟩ := (storeBlocking_keeps h.claimed).solo hsolo outcome rfl
  refine ⟨hclaimed, hagrees, ?_⟩
  intro id' handle hmem
  rcases List.mem_cons.mp hmem with heq | hmem
  · obtain ⟨rfl, rfl⟩ := Prod.mk.inj heq
    rw [houtcome]
    exact ⟨_, audioFile_finalName audio hid⟩
  · exact hreturned id' handle hmem

/-- A removal keeps the invariant wherever it stops. -/
theorem SpoolInv.remove (h : SpoolInv config s) {handle : BatchAudioHandle}
    (hstops : Task.Stops (servesSpool config.codec s.ledger) ⟨s.directory, []⟩ (removeBlocking config handle) w) :
    SpoolInv config { s with directory := w.directory } := by
  obtain ⟨hclaimed, hfewer⟩ := h.claimed.removeBlocking hstops
  refine ⟨hclaimed, ?_, h.returned⟩
  exact fun name parsed row hparsed hname => h.agrees name parsed row hparsed (hfewer name hname)

/-- A row that names what is stored of its job may be written. -/
theorem SpoolInv.write (h : SpoolInv config s) {row : BatchJobSnapshot}
    (hrow : ∀ name parsed, audioFile config.codec name = some parsed → name ∈ s.directory →
      id = ⟨parsed.jobId⟩ → artifactName row.audio = name) :
    SpoolInv config { s with ledger := Function.update s.ledger id (some row) } := by
  refine ⟨h.claimed, ?_, h.returned⟩
  intro name parsed row' hparsed hname hrow'
  dsimp only at hrow'
  by_cases hjob : id = ⟨parsed.jobId⟩
  · rw [hjob, Function.update_self] at hrow'
    obtain rfl := Option.some.inj hrow'
    exact hrow name parsed hparsed hname hjob
  · rw [Function.update_of_ne fun heq => hjob heq.symm] at hrow'
    exact h.agrees name parsed row' hparsed hname hrow'

/-- A row inserted for stored audio agrees with it, since its job has no other. -/
theorem SpoolInv.insert (h : SpoolInv config s) {row : BatchJobSnapshot} (hreturned : (id, row.audio) ∈ s.returned)
    (hstored : artifactName row.audio ∈ s.directory) :
    SpoolInv config { s with ledger := Function.update s.ledger id (some row) } := by
  refine h.write ?_
  rintro name parsed hparsed hname rfl
  obtain ⟨digest, hrowAudio⟩ := h.returned _ _ hreturned
  exact h.claimed.unique hrowAudio hparsed hstored hname rfl

/-- A row that keeps its audio agrees as before. -/
theorem SpoolInv.update (h : SpoolInv config s) {old row : BatchJobSnapshot} (hold : s.ledger id = some old)
    (haudio : row.audio = old.audio) :
    SpoolInv config { s with ledger := Function.update s.ledger id (some row) } := by
  refine h.write ?_
  rintro name parsed hparsed hname rfl
  rw [haudio]
  exact h.agrees name parsed old hparsed hname hold

theorem SpoolInv.step (h : SpoolInv config s) {action : SpoolAction} (horderly : Orderly config s action)
    (hstep : SpoolStep config s action s') : SpoolInv config s' := by
  cases hstep with
  | stopStore hstops => exact h.store hstops horderly
  | returnStore hsolo => exact h.returnStore hsolo horderly
  | stopRemove hstops => exact h.remove hstops
  | insert hreturned habsent => exact h.insert hreturned horderly.2
  | update hold haudio => exact h.update hold haudio

/-- Every state an orderly run reaches meets the invariant. -/
theorem SpoolReaches.inv (h : SpoolReaches config (Orderly config) s) : SpoolInv config s := by
  induction h with
  | start => exact spoolInv_empty config
  | step _ horderly hstep ih => exact ih.step horderly hstep

end Invariant

/-- While stores settle their claims a job has one artifact at most. In an orderly run its row names it, so
maintenance never reports a ledger failure unless a row cannot be loaded. -/
theorem spoolReaches_identity (config : SpoolConfig) (s : SpoolState) :
    (SpoolReaches config (ClaimsSettled config) s →
      ∀ name name' parsed parsed', audioFile config.codec name = some parsed →
        audioFile config.codec name' = some parsed' → name ∈ s.directory → name' ∈ s.directory →
          parsed.jobId = parsed'.jobId → name = name') ∧
    (SpoolReaches config (Orderly config) s →
      (∀ name parsed row, audioFile config.codec name = some parsed → name ∈ s.directory →
        s.ledger ⟨parsed.jobId⟩ = some row → artifactName row.audio = name) ∧
      ∀ now retention w, Task.Solo (servesSpool config.codec s.ledger) ⟨s.directory, []⟩
        (reconcile config now retention) w (.error ledgerFailure) → .ledgerFailed ∈ w.events) := by
  refine ⟨?_, ?_⟩
  · intro h name name' parsed parsed'
    exact h.claimed.unique
  · intro h
    have hinv := h.inv
    refine ⟨hinv.agrees, ?_⟩
    intro now retention w hsolo
    rcases ((reconcile_keeps rfl).solo hsolo).2 rfl with
      hfailed | ⟨name, parsed, row, hparsed, hname, hrow, hother⟩
    · exact hfailed
    · exact absurd (hinv.agrees name parsed row hparsed hname hrow) hother

/-- A spool of the sample gateway with the digest of a second recording, the byte `03`. -/
def twoRecordings : SpoolConfig :=
  { sampleGateway.toSpoolConfig with
    sha256 audio := if audio = [3] then
        ⟨[0x08, 0x4f, 0xed, 0x08, 0xb9, 0x78, 0xaf, 0x4d, 0x7d, 0x19, 0x6a, 0x74, 0x46, 0xa8, 0x6b, 0x58, 0x00,
          0x9e, 0x63, 0x6b, 0x61, 0x1d, 0xb1, 0x62, 0x11, 0xb6, 0x5a, 0x9a, 0xad, 0xff, 0x29, 0xc5], rfl⟩
      else sampleDigest }

/-- The choices of a creation that succeeds. -/
def creates : List (SpoolChoice twoRecordings.codec) :=
  [.draws ⟨"00000000-0000-4000-8000-00000000000f", by decide⟩, .creates (some 0), .succeeds, .succeeds, .succeeds,
    .succeeds]

/-- A store stops after its artifact appeared, and before its claim. Another recording of the same job is
stored, returned and entered in the ledger: the job has two artifacts, and maintenance fails. -/
theorem spoolReaches_twoArtifacts :
    let first := finalName twoRecordings sampleId [1, 2]
    let second := finalName twoRecordings sampleId [3]
    ∃ s, SpoolReaches twoRecordings (fun _ _ => True) s ∧ first ≠ second ∧
      audioFile twoRecordings.codec first = some ⟨sampleId.asStr, twoRecordings.digest [1, 2]⟩ ∧
      audioFile twoRecordings.codec second = some ⟨sampleId.asStr, twoRecordings.digest [3]⟩ ∧
      first ∈ s.directory ∧ second ∈ s.directory ∧
      ∃ w, Task.Solo (servesSpool twoRecordings.codec s.ledger) ⟨s.directory, []⟩
        (reconcile twoRecordings 10 5) w (.error ledgerFailure) ∧ .ledgerFailed ∉ w.events := by
  intro first second
  let row : BatchJobSnapshot :=
    { recordedRow sampleId .accepted with audio := twoRecordings.handle sampleId [3] }
  let ledger := Function.update (fun _ : BatchJobId => none) sampleId (some row)
  have hrun : (Task.advance (serveSpool twoRecordings.codec fun _ => none)
      ([.succeeds, .succeeds, .lists [] none] ++ creates) ⟨∅, []⟩ (storeBlocking twoRecordings sampleId [1, 2])).any
      (fun stopped => (Task.replay (serveSpool twoRecordings.codec fun _ => none)
        ([.succeeds, .succeeds, .lists [first] none, .succeeds] ++ creates ++ [.succeeds] ++ creates ++ [.succeeds])
          ⟨stopped.directory, []⟩ (storeBlocking twoRecordings sampleId [3])).any
        fun stored => stored.2 = .ok (.stored (twoRecordings.handle sampleId [3])) &&
          first ∈ stored.1.directory && second ∈ stored.1.directory &&
          (Task.replay (serveSpool twoRecordings.codec ledger)
            [.lists [first, second, claimName sampleId.asStr] none, .succeeds, .succeeds]
            ⟨stored.1.directory, []⟩ (reconcile twoRecordings 10 5)).any
            fun pass => pass.2 = .error ledgerFailure && decide (.ledgerFailed ∉ pass.1.events)) = true := by
    decide +kernel
  obtain ⟨stopped, hstopped, hrun⟩ := (Option.any_eq_true _ _).mp hrun
  obtain ⟨⟨stored, reply⟩, hstored, hrun⟩ := (Option.any_eq_true _ _).mp hrun
  simp only [Bool.and_eq_true, decide_eq_true_eq] at hrun
  obtain ⟨⟨⟨rfl, hfirst⟩, hsecond⟩, hpass⟩ := hrun
  obtain ⟨⟨w, reply⟩, hreplay, hobserved⟩ := (Option.any_eq_true _ _).mp hpass
  simp only [Bool.and_eq_true, decide_eq_true_eq] at hobserved
  obtain ⟨rfl, hloaded⟩ := hobserved
  have hcrashed : SpoolReaches twoRecordings (fun _ _ => True) ⟨stopped.directory, [], fun _ => none⟩ :=
    .step .start trivial (.stopStore (Task.stops_of_advance _ hstopped))
  have hreturned : SpoolReaches twoRecordings (fun _ _ => True)
      ⟨stored.directory, [(sampleId, row.audio)], fun _ => none⟩ :=
    .step hcrashed trivial (@SpoolStep.returnStore _ ⟨stopped.directory, [], fun _ => none⟩ _ _ _ _
      (Task.solo_of_replay _ hstored))
  refine ⟨⟨stored.directory, [(sampleId, row.audio)], ledger⟩, ?_, by decide +kernel, by decide +kernel,
    by decide +kernel, hfirst, hsecond, w, Task.solo_of_replay _ hreplay, hloaded⟩
  exact .step hreturned trivial (.insert List.mem_cons_self rfl)

/-- A job stored and entered in the ledger without a crash has its one artifact. -/
theorem spoolReaches_sampleJob :
    ∃ s : SpoolState, finalName twoRecordings sampleId [1, 2] ∈ s.directory ∧ (s.ledger sampleId).isSome = true ∧
      (∀ name parsed, audioFile twoRecordings.codec name = some parsed → name ∈ s.directory →
        parsed.jobId = sampleId.asStr → name = finalName twoRecordings sampleId [1, 2]) ∧
      ∀ w, Task.Solo (servesSpool twoRecordings.codec s.ledger) ⟨s.directory, []⟩
        (reconcile twoRecordings 10 5) w (.error ledgerFailure) → .ledgerFailed ∈ w.events := by
  let artifact := finalName twoRecordings sampleId [1, 2]
  let row := recordedRow sampleId .accepted
  let ledger := Function.update (fun _ : BatchJobId => none) sampleId (some row)
  have hrun : (Task.replay (serveSpool twoRecordings.codec fun _ => none)
      ([.succeeds, .succeeds, .lists [] none] ++ creates ++ [.succeeds] ++ creates ++ [.succeeds])
        ⟨∅, []⟩ (storeBlocking twoRecordings sampleId [1, 2])).any
      (fun stored => stored.2 = .ok (.stored row.audio) && artifact ∈ stored.1.directory &&
        .linked (claimName sampleId.asStr) ∈ stored.1.events) = true := by decide +kernel
  obtain ⟨⟨stored, reply⟩, hstored, hobserved⟩ := (Option.any_eq_true _ _).mp hrun
  simp only [Bool.and_eq_true, decide_eq_true_eq] at hobserved
  obtain ⟨⟨rfl, hartifact⟩, hclaim⟩ := hobserved
  have horderly : Orderly twoRecordings .empty (.store sampleId [1, 2] stored.events) :=
    ⟨fun _ => .inl hclaim, fun _ _ hnone => by cases hnone⟩
  have hreturned : SpoolReaches twoRecordings (Orderly twoRecordings)
      ⟨stored.directory, [(sampleId, row.audio)], fun _ => none⟩ :=
    .step .start horderly (@SpoolStep.returnStore _ .empty _ _ _ _ (Task.solo_of_replay _ hstored))
  have hinsert : Orderly twoRecordings ⟨stored.directory, [(sampleId, row.audio)], fun _ => none⟩
      (.insert sampleId row) := ⟨trivial, hartifact⟩
  have hentered : SpoolReaches twoRecordings (Orderly twoRecordings)
      ⟨stored.directory, [(sampleId, row.audio)], ledger⟩ :=
    .step hreturned hinsert (.insert List.mem_cons_self rfl)
  refine ⟨⟨stored.directory, [(sampleId, row.audio)], ledger⟩, hartifact, rfl, ?_, ?_⟩
  · intro name parsed hparsed hname hjob
    exact (spoolReaches_identity twoRecordings _).1 (hentered.mono fun _ _ horderly => horderly.1) name artifact
      parsed ⟨sampleId.asStr, twoRecordings.digest [1, 2]⟩ hparsed (by decide +kernel) hname hartifact hjob
  · exact ((spoolReaches_identity twoRecordings _).2 hentered).2 10 5

end Voicetext.Gateway
