import Voicetext.Gateway.Server.MeteredSteps

/-!
# The accounts of the spool

The gauge and the bytes still to be added equal the bytes accounted for and those still to be subtracted. An
artifact is accounted for when it was there from the start or a row names it, and every other one has a creator who
is not done with it.
-/

namespace Voicetext.Gateway.Server

open Voicetext.Common Voicetext.Speech.Domain Voicetext.Speech.Application Voicetext.Gateway
  Voicetext.Gateway.Storage

variable {ι : Type*}

section Accounting

variable {w w' : MeteredWorld ι} {handle : BatchAudioHandle} {metrics : SpoolMetrics} {books : SpoolBooks ι}

/-- What a file adds to the bytes accounted for. -/
private def weight (w : MeteredWorld ι) (file : String × List UInt8) : ℕ :=
  if w.accounted ⟨file.1⟩ then file.2.length else 0

/-- The bytes accounted for are those of one artifact, if it is, and those of the others. -/
theorem accountedBytes_erase (w : MeteredWorld ι) (handle : BatchAudioHandle) :
    w.accountedBytes = ((w.gateway.spool.artifacts.erase handle.asStr).rows.map (weight w)).sum +
      if w.accounted handle then artifactBytes w.gateway.spool handle else 0 := by
  unfold MeteredWorld.accountedBytes artifactBytes
  refine (w.gateway.spool.artifacts.sum_erase (weight w) handle.asStr).trans ?_
  congr 1
  cases hfile : w.gateway.spool.artifacts.lookup handle.asStr with
  | none => simp
  | some file =>
    have hname : file.1 = handle.asStr := SortedTable.key_of_lookup hfile
    simp [weight, hname]

theorem accounted_congr (hledger : w'.gateway.ledger = w.gateway.ledger) (hopening : w'.opening = w.opening)
    (handle : BatchAudioHandle) : w'.accounted handle = w.accounted handle := by
  unfold MeteredWorld.accounted MeteredWorld.named
  rw [hledger, hopening]

private theorem weight_congr (haccounted : ∀ handle, w'.accounted handle = w.accounted handle) :
    weight w' = weight w := by
  funext file
  rw [weight, haccounted, weight]

/-- The bytes accounted for depend on the artifacts and on what is accounted for. -/
theorem accountedBytes_congr (hartifacts : w'.gateway.spool.artifacts = w.gateway.spool.artifacts)
    (haccounted : ∀ handle, w'.accounted handle = w.accounted handle) :
    w'.accountedBytes = w.accountedBytes := by
  unfold MeteredWorld.accountedBytes
  rw [hartifacts]
  exact congrArg (fun f => (w.gateway.spool.artifacts.rows.map f).sum) (weight_congr haccounted)

/-- An artifact which comes to be accounted for adds its bytes. -/
theorem accountedBytes_gain (hartifacts : w'.gateway.spool.artifacts = w.gateway.spool.artifacts)
    (hothers : ∀ other, other ≠ handle → w'.accounted other = w.accounted other)
    (hbefore : w.accounted handle = false) (hafter : w'.accounted handle = true) :
    w'.accountedBytes = w.accountedBytes + artifactBytes w.gateway.spool handle := by
  rw [accountedBytes_erase w' handle, accountedBytes_erase w handle, hbefore, hafter, hartifacts, artifactBytes,
    hartifacts]
  have hrest : (w.gateway.spool.artifacts.erase handle.asStr).rows.map (weight w') =
      (w.gateway.spool.artifacts.erase handle.asStr).rows.map (weight w) := by
    refine List.map_congr_left fun file hfile => ?_
    have hname : file.1 ≠ handle.asStr := by simpa using (List.mem_filter.mp hfile).2
    have hne : (⟨file.1⟩ : BatchAudioHandle) ≠ handle := fun heq => hname (congrArg BatchAudioHandle.asStr heq)
    rw [weight, hothers _ hne, weight]
  rw [hrest, artifactBytes]
  simp

/-- A new artifact which is not accounted for adds nothing. -/
theorem accountedBytes_put {audio : List UInt8}
    (hartifacts : w'.gateway.spool.artifacts = w.gateway.spool.artifacts.put (handle.asStr, audio))
    (haccounted : ∀ handle, w'.accounted handle = w.accounted handle)
    (habsent : w.gateway.spool.holds handle = false) (hunaccounted : w.accounted handle = false) :
    w'.accountedBytes = w.accountedBytes := by
  have hfree : w.gateway.spool.artifacts.lookup handle.asStr = none := by simpa [Spool.holds] using habsent
  have hperm := w.gateway.spool.artifacts.perm_put_of_absent (v := (handle.asStr, audio)) hfree
  unfold MeteredWorld.accountedBytes
  rw [hartifacts]
  refine ((hperm.map (weight w')).sum_nat).trans ?_
  rw [weight_congr haccounted, List.map_cons, List.sum_cons, weight, hunaccounted]
  simp only [Bool.false_eq_true, if_false, Nat.zero_add]
  rfl

/-- An erased artifact takes its bytes with it, if it was accounted for. -/
theorem accountedBytes_of_erase
    (hartifacts : w'.gateway.spool.artifacts = w.gateway.spool.artifacts.erase handle.asStr)
    (haccounted : ∀ handle, w'.accounted handle = w.accounted handle) :
    w.accountedBytes = w'.accountedBytes +
      if w.accounted handle then artifactBytes w.gateway.spool handle else 0 := by
  rw [accountedBytes_erase w handle, MeteredWorld.accountedBytes, hartifacts]
  congr 2
  exact congrArg (fun f => (w.gateway.spool.artifacts.erase handle.asStr).rows.map f) (weight_congr haccounted).symm

/-- When every artifact is accounted for, all bytes are. -/
theorem accountedBytes_eq_audioBytes
    (hall : ∀ handle, w.gateway.spool.holds handle = true → w.accounted handle = true) :
    w.accountedBytes = w.gateway.spool.audioBytes := by
  unfold MeteredWorld.accountedBytes Spool.audioBytes
  refine congrArg List.sum (List.map_congr_left fun file hfile => ?_)
  rw [hall ⟨file.1⟩ (by rw [Spool.holds, SortedTable.lookup_of_mem hfile]; rfl), if_pos rfl]

end Accounting

section Invariant

/-- What a call still owes: artifacts it created, bytes to add and bytes to subtract. -/
structure Owes [DecidableEq ι] (i : ι) (w : MeteredWorld ι) (created : List BatchAudioHandle)
    (admitted removed : List ℕ) : Prop where
  created : Dues.own i w.books.created = created
  admitted : Dues.own i w.books.admitted = admitted
  removed : Dues.own i w.books.removed = removed

/-- Only calls which have begun owe anything. -/
structure SpoolBooks.Owned (books : SpoolBooks ι) : Prop where
  created : ∀ due ∈ books.created, due.1 ∈ books.begun
  admitted : ∀ due ∈ books.admitted, due.1 ∈ books.begun
  removed : ∀ due ∈ books.removed, due.1 ∈ books.begun

/-- What holds of the metered world at every step. -/
structure MeteredInv (config : GatewayConfig) (sizes : AudioSizes) (w : MeteredWorld ι) : Prop where
  balance : w.metrics.spoolUsedBytes.toNat + Dues.total w.books.admitted =
    w.accountedBytes + Dues.total w.books.removed
  responsible : ∀ handle, w.gateway.spool.holds handle = true → w.accounted handle = true ∨
    ∃ i, (i, handle) ∈ w.books.created
  kept : ∀ handle, w.opening.holds handle = true →
    w.gateway.spool.holds handle = true ∨ w.named handle = true
  names : ∀ row, Recorded w row → NamesJob config.codec row.audio row.id
  sizedRows : ∀ row, Recorded w row →
    sizes.ofHandle config.codec row.audio = (sizes.ofFingerprint row.job.fingerprint).toNat
  sizedFiles : ∀ file ∈ w.gateway.spool.artifacts.rows,
    file.2.length = (sizes.ofDigest (config.digest file.2)).toNat
  owned : w.books.Owned

/-- What a call owes before an operation is served. -/
def MeteredPre [DecidableEq ι] (config : GatewayConfig) (sizes : AudioSizes) (i : ι) :
    MeteredOp → MeteredWorld ι → Prop
  | .port (.storeAudio _ audio), _ => audio.length = (sizes.ofDigest (config.digest audio)).toNat
  | .port (.insertRow snapshot), _ =>
    NamesJob config.codec snapshot.audio snapshot.id ∧
      sizes.ofHandle config.codec snapshot.audio = (sizes.ofFingerprint snapshot.job.fingerprint).toNat
  | .port (.removeAudio handle), w =>
    (∃ row, Recorded w row ∧ row.audio = handle) ∨
      w.opening.holds handle = false ∧ (∀ other ∈ Dues.own i w.books.created, other = handle) ∧
        ∃ row, Recorded w row ∧ NamesJob config.codec handle row.id ∧ row.audio ≠ handle
  | .spoolAdmitted bytes, w => Dues.own i w.books.admitted = [bytes.toNat]
  | .spoolTerminalCleaned bytes, w => Dues.own i w.books.removed = [bytes.toNat]
  | .port (.selectRow _), _ | .port (.updateRow _ _), _ | .port .selectRecoveryHead, _
  | .port (.selectRecoveryPage _ _ _), _ | .port (.readAudio _), _ | .port (.recognize _), _ => True

/-- The states before a step in which it keeps the gauge true: a store creates no artifact a row names, an insert
accounts for no artifact that was there from the start, and neither metric runs over. -/
def keepsGauge (config : GatewayConfig) (w : MeteredWorld ι) : MeteredOp → Bool
  | .port (.storeAudio id audio) =>
    w.gateway.spool.holds (config.handle id audio) || !w.named (config.handle id audio)
  | .port (.insertRow snapshot) =>
    (w.gateway.ledger.lookup snapshot.id.asStr).isSome || !w.opening.holds snapshot.audio
  | .spoolAdmitted bytes => w.metrics.spoolUsedBytes.toNat + bytes.toNat < 2 ^ 64
  | .spoolTerminalCleaned bytes => bytes ≤ w.metrics.spoolUsedBytes
  | .port (.selectRow _) | .port (.updateRow _ _) | .port .selectRecoveryHead | .port (.selectRecoveryPage _ _ _)
  | .port (.readAudio _) | .port (.removeAudio _) | .port (.recognize _) => true

variable {config : GatewayConfig} {sizes : AudioSizes} {w w' : MeteredWorld ι} {i : ι}

theorem SpoolBooks.Owned.enter {books : SpoolBooks ι} (h : books.Owned) : (books.enter i).Owned :=
  ⟨fun due hdue => List.mem_cons_of_mem _ (h.created due hdue),
    fun due hdue => List.mem_cons_of_mem _ (h.admitted due hdue),
    fun due hdue => List.mem_cons_of_mem _ (h.removed due hdue)⟩

/-- A job has one row, and it names an artifact of that job. -/
theorem MeteredInv.unnamed (h : MeteredInv config sizes w) {handle : BatchAudioHandle} {id : BatchJobId}
    (hnames : NamesJob config.codec handle id)
    (hother : ∀ row, Recorded w row → row.id = id → row.audio ≠ handle) : w.named handle = false := by
  rw [Bool.eq_false_iff]
  intro hnamed
  obtain ⟨row, hrow, rfl⟩ := named_iff.mp hnamed
  exact hother row hrow ((h.names row hrow).unique hnames) rfl

/-- An untouched world keeps its invariant. -/
theorem MeteredInv.untouched (h : MeteredInv config sizes w) (hstep : Untouched i w w') :
    MeteredInv config sizes w' := by
  have haccounted := accounted_congr hstep.ledger hstep.opening
  have hnamed (handle : BatchAudioHandle) : w'.named handle = w.named handle := by
    unfold MeteredWorld.named
    rw [hstep.ledger]
  constructor
  · rw [hstep.metrics, hstep.books, accountedBytes_congr hstep.artifacts haccounted]
    exact h.balance
  · intro handle
    rw [Spool.holds, hstep.artifacts, haccounted, hstep.books]
    exact h.responsible handle
  · intro handle
    rw [hstep.opening, hnamed, Spool.holds, Spool.holds, hstep.artifacts]
    exact h.kept handle
  · exact fun row hrow => h.names row ((hstep.recorded_iff row).mp hrow)
  · exact fun row hrow => h.sizedRows row ((hstep.recorded_iff row).mp hrow)
  · rw [hstep.artifacts]
    exact h.sizedFiles
  · rw [hstep.books]
    exact h.owned.enter

/-- An inserted row accounts for its artifact, and its call is to add the bytes. -/
theorem MeteredInv.insert (h : MeteredInv config sizes w) {snapshot : BatchJobSnapshot}
    (habsent : w.gateway.ledger.lookup snapshot.id.asStr = none)
    (hnames : NamesJob config.codec snapshot.audio snapshot.id)
    (hsized : sizes.ofHandle config.codec snapshot.audio = (sizes.ofFingerprint snapshot.job.fingerprint).toNat)
    (hnew : w.opening.holds snapshot.audio = false)
    (hstep : Becomes w w' (w.gateway.ledger.put (untyped snapshot)) w.gateway.spool.artifacts w.metrics
      (SpoolBooks.enter { w.books with
        admitted := (i, artifactBytes w.gateway.spool snapshot.audio) :: w.books.admitted } i)) :
    MeteredInv config sizes w' := by
  have hrecorded {row : BatchJobSnapshot} (hrow : Recorded w row) : Recorded w' row :=
    hstep.recorded_put (fun current hcurrent => by
      rw [show (untyped snapshot).id = snapshot.id from rfl, habsent] at hcurrent
      cases hcurrent) row hrow
  have hunnamed : w.named snapshot.audio = false := by
    refine h.unnamed hnames fun row hrow hid _ => ?_
    obtain ⟨current, hcurrent, -⟩ := hrow
    rw [hid, habsent] at hcurrent
    cases hcurrent
  have hnamed (other : BatchAudioHandle) :
      w'.named other = true ↔ other = snapshot.audio ∨ w.named other = true := by
    rw [named_iff, named_iff]
    constructor
    · rintro ⟨row, hrow, rfl⟩
      rcases hstep.recorded_of_put hrow with hsame | hold
      · exact .inl hsame.audio.symm
      · exact .inr ⟨row, hold, rfl⟩
    · rintro (rfl | ⟨row, hrow, rfl⟩)
      · exact ⟨_, hstep.recorded_self, rfl⟩
      · exact ⟨row, hrecorded hrow, rfl⟩
  have hbytes : w'.accountedBytes = w.accountedBytes + artifactBytes w.gateway.spool snapshot.audio := by
    refine accountedBytes_gain hstep.artifacts (fun other hother => ?_) ?_ ?_
    · rw [Bool.eq_iff_iff]
      simp only [MeteredWorld.accounted, hstep.opening, Bool.or_eq_true, hnamed, hother, false_or]
    · rw [MeteredWorld.accounted, hnew, hunnamed]
      rfl
    · rw [MeteredWorld.accounted, (hnamed _).mpr (.inl rfl), Bool.or_true]
  constructor
  · have hbalance := h.balance
    rw [hstep.metrics, hstep.books, hbytes]
    simp only [SpoolBooks.enter, Dues.total_cons]
    omega
  · intro other hother
    rw [Spool.holds, hstep.artifacts] at hother
    rw [hstep.books]
    refine (h.responsible other hother).imp_left fun haccounted => ?_
    simp only [MeteredWorld.accounted, hstep.opening, Bool.or_eq_true, hnamed] at haccounted ⊢
    exact haccounted.imp_right .inr
  · intro other hother
    rw [hstep.opening] at hother
    rw [Spool.holds, hstep.artifacts]
    exact (h.kept other hother).imp_right fun hold => (hnamed other).mpr (.inr hold)
  · intro row hrow
    rcases hstep.recorded_of_put hrow with hsame | hold
    · rw [← hsame.audio, ← hsame.id]
      exact hnames
    · exact h.names row hold
  · intro row hrow
    rcases hstep.recorded_of_put hrow with hsame | hold
    · rw [← hsame.audio, ← hsame.fingerprint]
      exact hsized
    · exact h.sizedRows row hold
  · rw [hstep.artifacts]
    exact h.sizedFiles
  · rw [hstep.books]
    refine ⟨h.owned.enter.created, fun due hdue => ?_, h.owned.enter.removed⟩
    rcases List.mem_cons.mp hdue with rfl | hdue
    · exact List.mem_cons_self
    · exact h.owned.enter.admitted due hdue

/-- A row which replaces one of its own request changes nothing that matters here. -/
theorem MeteredInv.update (h : MeteredInv config sizes w) {current row : BatchJobSnapshot}
    (hcurrent : w.gateway.ledger.lookup row.id.asStr = some current) (hsame : SameRequest current row)
    (hstep : Becomes w w' (w.gateway.ledger.put row) w.gateway.spool.artifacts w.metrics (w.books.enter i)) :
    MeteredInv config sizes w' := by
  have hrecorded {other : BatchJobSnapshot} : Recorded w' other ↔ Recorded w other := by
    constructor
    · intro hother
      refine (hstep.recorded_of_put hother).elim (fun hversion => ?_) id
      refine ⟨current, by rw [← hversion.id]; exact hcurrent, hversion.trans ?_⟩
      exact ⟨hsame.id.symm, hsame.fingerprint.symm, hsame.audio.symm⟩
    · refine hstep.recorded_put (fun replaced hreplaced => ?_) other
      obtain rfl := Option.some.inj (hcurrent.symm.trans hreplaced)
      exact hsame
  have hnamed (handle : BatchAudioHandle) : w'.named handle = w.named handle := by
    rw [Bool.eq_iff_iff, named_iff, named_iff]
    simp only [hrecorded]
  have haccounted (handle : BatchAudioHandle) : w'.accounted handle = w.accounted handle := by
    rw [MeteredWorld.accounted, hnamed, hstep.opening, MeteredWorld.accounted]
  constructor
  · rw [hstep.metrics, hstep.books, accountedBytes_congr hstep.artifacts haccounted]
    exact h.balance
  · intro handle
    rw [Spool.holds, hstep.artifacts, haccounted, hstep.books]
    exact h.responsible handle
  · intro handle
    rw [hstep.opening, hnamed, Spool.holds, Spool.holds, hstep.artifacts]
    exact h.kept handle
  · exact fun other hother => h.names other (hrecorded.mp hother)
  · exact fun other hother => h.sizedRows other (hrecorded.mp hother)
  · rw [hstep.artifacts]
    exact h.sizedFiles
  · rw [hstep.books]
    exact h.owned.enter

/-- An artifact which is created, and which no row names, is its creator's. -/
theorem MeteredInv.create (h : MeteredInv config sizes w) {handle : BatchAudioHandle} {audio : List UInt8}
    (habsent : w.gateway.spool.holds handle = false) (hunnamed : w.named handle = false)
    (hsized : audio.length = (sizes.ofDigest (config.digest audio)).toNat)
    (hstep : Becomes w w' w.gateway.ledger (w.gateway.spool.artifacts.put (handle.asStr, audio)) w.metrics
      (SpoolBooks.enter { w.books with created := (i, handle) :: w.books.created } i)) :
    MeteredInv config sizes w' := by
  have haccounted := accounted_congr hstep.ledger hstep.opening
  have hunaccounted : w.accounted handle = false := by
    rw [MeteredWorld.accounted, hunnamed, Bool.or_false, Bool.eq_false_iff]
    intro hopening
    rcases h.kept handle hopening with hholds | hnamed
    · rw [habsent] at hholds
      cases hholds
    · rw [hunnamed] at hnamed
      cases hnamed
  have hholds (other : BatchAudioHandle) :
      w'.gateway.spool.holds other = true ↔ other = handle ∨ w.gateway.spool.holds other = true :=
    SpoolConfig.holds_of_put hstep.artifacts other
  constructor
  · rw [hstep.metrics, hstep.books, accountedBytes_put hstep.artifacts haccounted habsent hunaccounted]
    exact h.balance
  · intro other hother
    rw [haccounted, hstep.books]
    rcases (hholds other).mp hother with rfl | hother
    · exact .inr ⟨i, List.mem_cons_self⟩
    · refine (h.responsible other hother).imp_right ?_
      rintro ⟨j, hmem⟩
      exact ⟨j, List.mem_cons_of_mem _ hmem⟩
  · intro other hother
    rw [hstep.opening] at hother
    rcases h.kept other hother with hheld | hnamed
    · exact .inl ((hholds other).mpr (.inr hheld))
    · refine .inr ?_
      unfold MeteredWorld.named at hnamed ⊢
      rwa [hstep.ledger]
  · exact fun row hrow => h.names row ((hstep.recorded_iff row).mp hrow)
  · exact fun row hrow => h.sizedRows row ((hstep.recorded_iff row).mp hrow)
  · rw [hstep.artifacts]
    intro file hfile
    rcases SortedTable.mem_putRow hfile with rfl | hfile
    · exact hsized
    · exact h.sizedFiles file hfile
  · rw [hstep.books]
    refine ⟨fun due hdue => ?_, h.owned.enter.admitted, h.owned.enter.removed⟩
    rcases List.mem_cons.mp hdue with rfl | hdue
    · exact List.mem_cons_self
    · exact h.owned.enter.created due hdue

/-- An artifact goes when the books follow and nobody is to have kept it. -/
private theorem MeteredInv.erase (h : MeteredInv config sizes w) {handle : BatchAudioHandle} {books : SpoolBooks ι}
    (hstep : Becomes w w' w.gateway.ledger (w.gateway.spool.artifacts.erase handle.asStr) w.metrics books)
    (hbalance : w.metrics.spoolUsedBytes.toNat + Dues.total books.admitted =
      w'.accountedBytes + Dues.total books.removed)
    (hcreated : ∀ other j, other ≠ handle → (j, other) ∈ w.books.created → (j, other) ∈ books.created)
    (hkept : w.opening.holds handle = true → w.named handle = true) (howned : books.Owned) :
    MeteredInv config sizes w' := by
  have haccounted := accounted_congr hstep.ledger hstep.opening
  have hholds (other : BatchAudioHandle) :
      w'.gateway.spool.holds other = true ↔ other ≠ handle ∧ w.gateway.spool.holds other = true :=
    SpoolConfig.holds_of_erase hstep.artifacts other
  constructor
  · rw [hstep.metrics, hstep.books]
    exact hbalance
  · intro other hother
    obtain ⟨hne, hheld⟩ := (hholds other).mp hother
    rw [haccounted, hstep.books]
    refine (h.responsible other hheld).imp_right ?_
    rintro ⟨j, hmem⟩
    exact ⟨j, hcreated other j hne hmem⟩
  · intro other hother
    rw [hstep.opening] at hother
    have hnamed : w'.named other = w.named other := by
      unfold MeteredWorld.named
      rw [hstep.ledger]
    rw [hnamed]
    by_cases hne : other = handle
    · subst hne
      exact .inr (hkept hother)
    · exact (h.kept other hother).imp_left fun hheld => (hholds other).mpr ⟨hne, hheld⟩
  · exact fun row hrow => h.names row ((hstep.recorded_iff row).mp hrow)
  · exact fun row hrow => h.sizedRows row ((hstep.recorded_iff row).mp hrow)
  · rw [hstep.artifacts]
    exact fun file hfile => h.sizedFiles file (List.mem_of_mem_filter hfile)
  · rw [hstep.books]
    exact howned

theorem artifactBytes_of_absent {spool : Spool} {handle : BatchAudioHandle} (h : spool.holds handle = false) :
    artifactBytes spool handle = 0 := by
  have hnone : spool.artifacts.lookup handle.asStr = none := by simpa [Spool.holds] using h
  rw [artifactBytes, hnone, Option.elim_none]

variable [DecidableEq ι] {handle : BatchAudioHandle} {reply : Except BatchAudioSpoolFailure BatchAudioRemoveOutcome}

/-- A removal of a named artifact is to be subtracted from the gauge. -/
theorem MeteredInv.removeNamed (h : MeteredInv config sizes w) (hnamed : w.named handle = true)
    (hreply : reply = .ok (if w.gateway.spool.holds handle then .removed else .alreadyMissing))
    (hstep : Becomes w w' w.gateway.ledger (w.gateway.spool.artifacts.erase handle.asStr) w.metrics
      ((w.booksAfter i (.removeAudio handle) reply).enter i)) : MeteredInv config sizes w' := by
  have haccounted : w.accounted handle = true := by rw [MeteredWorld.accounted, hnamed, Bool.or_true]
  have hbytes := accountedBytes_of_erase hstep.artifacts (accounted_congr hstep.ledger hstep.opening)
  rw [if_pos haccounted] at hbytes
  have hbalance := h.balance
  cases hholds : w.gateway.spool.holds handle with
  | true =>
    subst hreply
    simp only [hholds, if_true, MeteredWorld.booksAfter, haccounted] at hstep
    refine h.erase hstep ?_ (fun _ _ _ hmem => hmem) (fun _ => hnamed) ?_
    · simp only [SpoolBooks.enter, Dues.total_cons]
      omega
    · refine ⟨h.owned.enter.created, h.owned.enter.admitted, fun due hdue => ?_⟩
      rcases List.mem_cons.mp hdue with rfl | hdue
      · exact List.mem_cons_self
      · exact h.owned.enter.removed due hdue
  | false =>
    rw [artifactBytes_of_absent hholds] at hbytes
    subst hreply
    simp only [hholds, Bool.false_eq_true, if_false, MeteredWorld.booksAfter, haccounted, if_true] at hstep
    refine h.erase hstep ?_ (fun _ _ _ hmem => hmem) (fun _ => hnamed) h.owned.enter
    simp only [SpoolBooks.enter]
    omega

/-- A removal of its creator's superfluous artifact is of no concern to the gauge. -/
theorem MeteredInv.removeCreated (h : MeteredInv config sizes w) (hnew : w.opening.holds handle = false)
    (hunnamed : w.named handle = false) (hown : ∀ other ∈ Dues.own i w.books.created, other = handle)
    (hstep : Becomes w w' w.gateway.ledger (w.gateway.spool.artifacts.erase handle.asStr) w.metrics
      ((w.booksAfter i (.removeAudio handle) reply).enter i)) : MeteredInv config sizes w' := by
  have haccounted : w.accounted handle = false := by rw [MeteredWorld.accounted, hnew, hunnamed]; rfl
  have hbytes := accountedBytes_of_erase hstep.artifacts (accounted_congr hstep.ledger hstep.opening)
  have hbalance := h.balance
  simp only [haccounted, Bool.false_eq_true, if_false] at hbytes
  simp only [MeteredWorld.booksAfter, haccounted, Bool.false_eq_true, if_false] at hstep
  refine h.erase hstep ?_ (fun other j hne hmem => ?_) (fun hopening => ?_) ?_
  · simp only [SpoolBooks.enter]
    omega
  · refine Dues.mem_settle.mpr ⟨hmem, fun hj => hne (hown other ?_)⟩
    rw [← hj]
    exact Dues.mem_own.mpr hmem
  · rw [hnew] at hopening
    cases hopening
  · exact ⟨fun due hdue => h.owned.enter.created due (List.mem_of_mem_filter hdue), h.owned.enter.admitted,
      h.owned.enter.removed⟩

/-- The bytes a call owed the gauge are added, and the gauge does not wrap. -/
theorem MeteredInv.admit (h : MeteredInv config sizes w) {bytes : UInt64}
    (hown : Dues.own i w.books.admitted = [bytes.toNat])
    (hbound : w.metrics.spoolUsedBytes.toNat + bytes.toNat < 2 ^ 64) :
    MeteredInv config sizes { w with
      metrics := w.metrics.spoolAdmitted bytes
      books := { w.books.enter i with admitted := Dues.settle i w.books.admitted } } := by
  refine ⟨?_, h.responsible, h.kept, h.names, h.sizedRows, h.sizedFiles, h.owned.enter.created, fun due hdue => ?_,
    h.owned.enter.removed⟩
  · have hbalance := h.balance
    have htotal := Dues.total_settle (i := i) w.books.admitted
    rw [hown, List.sum_singleton] at htotal
    simp only [SpoolMetrics.spoolAdmitted, UInt64.toNat_add, Nat.mod_eq_of_lt hbound, SpoolBooks.enter]
    change _ = w.accountedBytes + _
    omega
  · exact h.owned.enter.admitted due (List.mem_of_mem_filter hdue)

/-- The bytes a call owed the gauge are subtracted, and the gauge does not saturate. -/
theorem MeteredInv.clean (h : MeteredInv config sizes w) {bytes : UInt64}
    (hown : Dues.own i w.books.removed = [bytes.toNat]) (hbound : bytes ≤ w.metrics.spoolUsedBytes) :
    MeteredInv config sizes { w with
      metrics := w.metrics.spoolTerminalCleaned bytes
      books := { w.books.enter i with removed := Dues.settle i w.books.removed } } := by
  refine ⟨?_, h.responsible, h.kept, h.names, h.sizedRows, h.sizedFiles, h.owned.enter.created,
    h.owned.enter.admitted, fun due hdue => ?_⟩
  · have hbalance := h.balance
    have htotal := Dues.total_settle (i := i) w.books.removed
    have hle : bytes.toNat ≤ w.metrics.spoolUsedBytes.toNat := UInt64.le_iff_toNat_le.mp hbound
    rw [hown, List.sum_singleton] at htotal
    simp only [SpoolMetrics.spoolTerminalCleaned, toNat_saturatingSub hbound, SpoolBooks.enter]
    change _ = w.accountedBytes + _
    omega
  · exact h.owned.enter.removed due (List.mem_of_mem_filter hdue)

/-- Serving an operation keeps the invariant, when its obligation is met and the state lets the gauge be kept. -/
theorem MeteredInv.serve (h : MeteredInv config sizes w) {op : MeteredOp} {choice : ServerChoice}
    {reply : op.Reply} (hpre : MeteredPre config sizes i op w) (hkeeps : keepsGauge config w op = true)
    (hserve : serveMetered config i w op choice = some (w', reply)) (hok : succeeds op reply = true) :
    MeteredInv config sizes w' := by
  match op with
  | .port (.selectRow id) => exact h.untouched (selectRow_spec hserve hok).1
  | .port .selectRecoveryHead =>
    obtain ⟨gateway, hquery, rfl⟩ := serve_port hserve
    exact h.untouched (query_spec hquery hok).1
  | .port (.selectRecoveryPage after through limit) => exact h.untouched (selectRecoveryPage_spec hserve hok).1
  | .port (.readAudio handle) => exact h.untouched (readAudio_spec hserve hok).1
  | .port (.recognize request) => exact h.untouched (recognize_spec hserve)
  | .port (.insertRow snapshot) =>
    rcases insertRow_spec hserve hok with ⟨habsent, -, hstep⟩ | ⟨-, -, huntouched⟩
    · refine h.insert habsent hpre.1 hpre.2 ?_ hstep
      simpa [keepsGauge, habsent] using hkeeps
    · exact h.untouched huntouched
  | .port (.updateRow expected replacement) =>
    rcases updateRow_spec hserve hok with ⟨current, row, hcurrent, hsame, -, -, hstep⟩ | ⟨-, huntouched⟩
    · exact h.update hcurrent hsame hstep
    · exact h.untouched huntouched
  | .port (.storeAudio id audio) =>
    rcases storeAudio_spec hserve hok with ⟨hid, ⟨habsent, -, hstep⟩ | ⟨-, -, huntouched⟩⟩
    · exact h.create habsent (by simpa [keepsGauge, habsent] using hkeeps) hpre hstep
    · exact h.untouched huntouched
  | .port (.removeAudio handle) =>
    obtain ⟨hstep, hreply⟩ := removeAudio_spec hserve hok
    rcases hpre with ⟨row, hrow, rfl⟩ | ⟨hnew, hown, row, hrow, hnames, hne⟩
    · exact h.removeNamed (named_iff.mpr ⟨row, hrow, rfl⟩) hreply hstep
    · refine h.removeCreated hnew (h.unnamed hnames fun other hother hid heq => hne ?_) hown hstep
      -- the job has one row, and it names another artifact
      obtain ⟨current, hcurrent, hsame⟩ := hother
      rw [hid] at hcurrent
      rw [← (hrow.of_lookup hcurrent).audio, hsame.audio, heq]
  | .spoolAdmitted bytes =>
    obtain ⟨rfl, -⟩ := Prod.mk.inj (Option.some.inj hserve)
    exact h.admit hpre (by simpa [keepsGauge] using hkeeps)
  | .spoolTerminalCleaned bytes =>
    obtain ⟨rfl, -⟩ := Prod.mk.inj (Option.some.inj hserve)
    exact h.clean hpre (by simpa [keepsGauge] using hkeeps)

end Invariant

end Voicetext.Gateway.Server
