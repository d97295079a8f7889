import Voicetext.Gateway.Server.MeteredCalls

/-!
# The gauge of the spool over whole runs

In every run in which no step lets the gauge go wrong, the gauge tells the bytes on disk whenever no call is in
progress. A step can let it go wrong: the admission of a job whose recording was preserved without a row adds bytes
which the gauge already counts.
-/

namespace Voicetext.Gateway.Server

open Voicetext.Common Voicetext.Speech.Application Voicetext.Gateway Voicetext.Gateway.Storage
  Voicetext.Gateway.Contracts

/-- Who uses the spool once the listener has started. -/
inductive MeteredCall
  | post (form : PostedForm)
  | drainBacklog (head : BatchJobId) (fuel : ℕ)

inductive MeteredResult
  | posted (answer : Except BatchCoordinatorFailure BatchJobSnapshot)
  | drained (visits : List Visit) (outcome : Except StartupRecoveryFailure Unit)

/-- The program of a call; a worker whose fuel is used up has not returned. -/
def MeteredCall.program (codec : UuidCodec) (state : BacklogGateway) :
    MeteredCall → MeteredTask (Option MeteredResult)
  | post form => (Server.post codec state.numbers form).bind fun answer => .done (some (.posted answer))
  | drainBacklog head fuel => (Metered.drainBacklog codec state fuel head).bind fun (visits, outcome) =>
    .done (outcome.map (.drained visits))

/-- What the listener starts with. -/
structure ListenerStart where
  ledger : JobTable
  spool : Spool
  metrics : SpoolMetrics

variable {ι : Type*}

def ListenerStart.world (start : ListenerStart) : MeteredWorld ι :=
  ⟨⟨start.ledger, start.spool, []⟩, start.metrics, start.spool, .empty⟩

abbrev MeteredState (ι : Type*) := PoolState ι (MeteredWorld ι) MeteredOp MeteredOp.Reply MeteredResult

/-- The rows name their own jobs' recordings, and recordings of different lengths, on disk or posted, have neither a
digest nor a fingerprint in common. -/
structure Unambiguous (config : GatewayConfig) (sizes : AudioSizes) (start : ListenerStart)
    (calls : ι → MeteredCall) : Prop where
  posted : ∀ i form, calls i = .post form →
    (sizes.ofDigest (config.digest form.request.audio)).toNat = form.request.audio.length ∧
      (sizes.ofFingerprint form.request.fingerprint).toNat = form.request.audio.length
  stored : ∀ file ∈ start.spool.artifacts.rows, file.2.length = (sizes.ofDigest (config.digest file.2)).toNat
  names : ∀ row ∈ start.ledger.rows, NamesJob config.codec row.audio row.id
  rows : ∀ row ∈ start.ledger.rows,
    sizes.ofHandle config.codec row.audio = (sizes.ofFingerprint row.job.fingerprint).toNat

/-- Every call which has begun has returned. -/
def Quiet (s : MeteredState ι) : Prop := ∀ i ∈ s.world.books.begun, ∃ result, s.pool i = .done (some result)

section Runs

variable [DecidableEq ι]

/-- The states any interleaving of the calls reaches from the start, without a failure of the ledger or the spool. -/
def MeteredReaches (config : GatewayConfig) (state : BacklogGateway) (allowed : MeteredEnvironment ι)
    (start : ListenerStart) (calls : ι → MeteredCall) : MeteredState ι → Prop :=
  PoolReaches (meteredService config allowed) ⟨fun i => (calls i).program config.codec state, start.world⟩

/-- Whenever nothing is in progress, the gauge tells the bytes on disk, if it did at the start. -/
def GaugeTruthful (config : GatewayConfig) (state : BacklogGateway) (allowed : MeteredEnvironment ι)
    (start : ListenerStart) (calls : ι → MeteredCall) : Prop :=
  start.metrics.spoolUsedBytes.toNat = start.spool.audioBytes →
    ∀ s, MeteredReaches config state allowed start calls s → Quiet s →
      s.world.metrics.spoolUsedBytes.toNat = s.world.gateway.spool.audioBytes

variable {config : GatewayConfig} {sizes : AudioSizes} {state : BacklogGateway} {start : ListenerStart}
  {calls : ι → MeteredCall} {w : MeteredWorld ι} {i : ι} {s : MeteredState ι}

/-- A call which has returned has settled its books. -/
def CallSettled (i : ι) : Option MeteredResult → MeteredWorld ι → Prop
  | none, _ => True
  | some _, w => SettledBooks i w

theorem program_metered (hunambiguous : Unambiguous config sizes start calls) (hinv : MeteredInv config sizes w)
    (howes : Owes i w [] [] []) :
    (meteredProtocol ι config sizes).Secured i (CallSettled i) ((calls i).program config.codec state) w := by
  cases hcall : calls i with
  | post form =>
    obtain ⟨hdigest, hfingerprint⟩ := hunambiguous.posted i form hcall
    exact (post_metered hinv hfingerprint hdigest howes).map fun _ _ _ h => h
  | drainBacklog head fuel =>
    refine (drainPages_metered hinv howes head fuel [] none).map ?_
    rintro ⟨visits, outcome⟩ w' _ howes'
    cases outcome with
    | none => trivial
    | some outcome => exact ⟨[], howes', by simp [AllNamed]⟩

omit [DecidableEq ι] in
/-- At the start everything on disk is accounted for and nobody owes anything. -/
theorem meteredInv_start (hunambiguous : Unambiguous config sizes start calls)
    (hgauge : start.metrics.spoolUsedBytes.toNat = start.spool.audioBytes) :
    MeteredInv config sizes (start.world : MeteredWorld ι) := by
  have hrow {row : BatchJobSnapshot} (h : Recorded (start.world : MeteredWorld ι) row) :
      ∃ current ∈ start.ledger.rows, SameRequest row current := by
    obtain ⟨current, hcurrent, hsame⟩ := h
    exact ⟨current, SortedTable.mem_of_lookup hcurrent, hsame⟩
  have haccounted (handle : BatchAudioHandle) (hholds : start.spool.holds handle = true) :
      (start.world : MeteredWorld ι).accounted handle = true := by
    rw [MeteredWorld.accounted]
    exact Bool.or_eq_true_iff.mpr (.inl hholds)
  refine ⟨?_, fun handle hholds => .inl (haccounted handle hholds), fun _ hholds => .inl hholds, fun row h => ?_,
    fun row h => ?_, hunambiguous.stored, ⟨by simp [ListenerStart.world, SpoolBooks.empty],
      by simp [ListenerStart.world, SpoolBooks.empty], by simp [ListenerStart.world, SpoolBooks.empty]⟩⟩
  · rw [accountedBytes_eq_audioBytes fun handle hholds => haccounted handle hholds]
    exact congrArg (· + 0) hgauge
  · obtain ⟨current, hmem, hsame⟩ := hrow h
    rw [← hsame.audio, ← hsame.id]
    exact hunambiguous.names current hmem
  · obtain ⟨current, hmem, hsame⟩ := hrow h
    rw [← hsame.audio, ← hsame.fingerprint]
    exact hunambiguous.rows current hmem

/-- Every reachable state is safe. -/
theorem metered_safe (hunambiguous : Unambiguous config sizes start calls)
    (hgauge : start.metrics.spoolUsedBytes.toNat = start.spool.audioBytes)
    (hreach : MeteredReaches config state (gaugeKept config) start calls s) :
    (meteredProtocol ι config sizes).Safe CallSettled s := by
  refine Protocol.Safe.reaches (fun _ _ => trivial) ?_ hreach
  have hinv := meteredInv_start hunambiguous hgauge
  exact ⟨hinv, fun i => program_metered hunambiguous hinv ⟨rfl, rfl, rfl⟩⟩

/-- Nothing is left to be added or subtracted when every call which has begun has settled its books. -/
theorem dues_nil {dues : Dues ι ℕ} {begun : List ι} (howned : ∀ due ∈ dues, due.1 ∈ begun)
    (hsettled : ∀ i ∈ begun, Dues.own i dues = []) : dues = [] := by
  refine Dues.eq_nil_of_own fun i => ?_
  by_cases hbegun : i ∈ begun
  · exact hsettled i hbegun
  · refine List.eq_nil_iff_forall_not_mem.mpr fun n hn => hbegun ?_
    exact howned (i, n) (Dues.mem_own.mp hn)

/-- The gauge is true in every run of steps that keep it so. -/
theorem gaugeTruthful_of_kept (hunambiguous : Unambiguous config sizes start calls) :
    GaugeTruthful config state (gaugeKept config) start calls := by
  intro hgauge s hreach hquiet
  have hsafe := metered_safe hunambiguous hgauge hreach
  have hsettled (i : ι) (hi : i ∈ s.world.books.begun) : SettledBooks i s.world := by
    obtain ⟨result, hdone⟩ := hquiet i hi
    exact hsafe.post_of_done hdone
  have hadmitted : s.world.books.admitted = [] := dues_nil hsafe.inv.owned.admitted fun i hi => by
    obtain ⟨created, howes, -⟩ := hsettled i hi
    exact howes.admitted
  have hremoved : s.world.books.removed = [] := dues_nil hsafe.inv.owned.removed fun i hi => by
    obtain ⟨created, howes, -⟩ := hsettled i hi
    exact howes.removed
  -- whatever a call has created and not removed, some row names
  have haccounted (handle : BatchAudioHandle) (hholds : s.world.gateway.spool.holds handle = true) :
      s.world.accounted handle = true := by
    rcases hsafe.inv.responsible handle hholds with haccounted | ⟨i, hcreated⟩
    · exact haccounted
    · obtain ⟨created, howes, hnamed⟩ := hsettled i (hsafe.inv.owned.created _ hcreated)
      have hmem : handle ∈ created := howes.created ▸ Dues.mem_own.mpr hcreated
      rw [MeteredWorld.accounted, hnamed handle hmem, Bool.or_true]
  have hbalance := hsafe.inv.balance
  rw [hadmitted, hremoved, accountedBytes_eq_audioBytes haccounted] at hbalance
  simpa using hbalance

/-- The ledger which any calls of the gateway have left names its jobs' own recordings. -/
theorem names_of_reachable {allowed : Environment ι} {calls : ι → GatewayCall} {s : GatewayState ι}
    (h : Reachable config allowed calls s) (row : BatchJobSnapshot) (hrow : row ∈ s.world.ledger.rows) :
    NamesJob config.codec row.audio row.id := by
  have hlookup := SortedTable.lookup_of_mem hrow
  rw [h.inv.agrees] at hlookup
  exact (h.inv.justified.version (held_of_latest hlookup).1).2

end Runs

section Schedules

variable {ι : Type*} [DecidableEq ι]

/-- The server of the metered calls restricted to states a test permits and to calls which do not fail. -/
def serveUnfailing (config : GatewayConfig) (permits : MeteredWorld ι → MeteredOp → Bool) (i : ι)
    (w : MeteredWorld ι) (op : MeteredOp) (choice : ServerChoice) : Option (MeteredWorld ι × op.Reply) :=
  if permits w op then (serveMetered config i w op choice).filter fun served => succeeds op served.2 else none

/-- Replaying an interleaving shows that some state with the observed property is reached. -/
theorem exists_metered_of_schedule (config : GatewayConfig) (state : BacklogGateway)
    (allowed : MeteredEnvironment ι) (start : ListenerStart) (calls : ι → MeteredCall)
    (permits : MeteredWorld ι → MeteredOp → Bool) (schedule : List (ι × ServerChoice))
    (observes : MeteredState ι → Bool) (hallowed : ∀ i w op, permits w op = true → allowed i w op)
    (hrun : (runSchedule (serveUnfailing config permits) schedule
      ⟨fun i => (calls i).program config.codec state, start.world⟩).any observes = true) :
    ∃ s, MeteredReaches config state allowed start calls s ∧ observes s = true := by
  obtain ⟨s, hs, hobserves⟩ := (Option.any_eq_true _ _).mp hrun
  refine ⟨s, PoolReaches.mono (fun i w op w' reply => ?_) (poolReaches_of_runSchedule schedule hs), hobserves⟩
  rintro ⟨choice, hserve⟩
  unfold serveUnfailing at hserve
  split at hserve
  · rename_i hpermits
    obtain ⟨hserved, hok⟩ := Option.filter_eq_some_iff.mp hserve
    exact ⟨hallowed i w op hpermits, hok, choice, hserved⟩
  · cases hserve

/-- A post of the sample request whose execution is taken. -/
def sampleForm : PostedForm := ⟨sampleRequest, true, by decide⟩

/-- Both adapters are configured, and slots are granted. -/
def servingGateway : BacklogGateway := ⟨.bits, fun _ => true, fun _ => true⟩

/-- A listener that found the recording of a job, and counted it, but no row: its store was the last thing that took
effect before the gateway stopped. -/
def preservedStart (id : BatchJobId) : ListenerStart where
  ledger := .empty
  spool := (sampleGateway.storeBlocking .empty id [1, 2]).1
  metrics := SpoolMetrics.recordSpool ⟨0, 0, 0, 0⟩ 0 0 2 64

/-- Every call has returned, with this gauge and these bytes on disk. -/
def observedGauge {n : ℕ} (gauge bytes : ℕ) (s : MeteredState (Fin n)) : Bool :=
  (List.finRange n).all (fun i => s.pool i matches .done (some _)) &&
    (s.world.metrics.spoolUsedBytes.toNat = gauge && s.world.gateway.spool.audioBytes = bytes)

theorem quiet_of_observed {n gauge bytes : ℕ} {s : MeteredState (Fin n)} (h : observedGauge gauge bytes s = true) :
    Quiet s := by
  rw [observedGauge, Bool.and_eq_true] at h
  intro i _
  have hdone := List.all_eq_true.mp h.1 i (List.mem_finRange i)
  split at hdone
  · exact ⟨_, ‹_›⟩
  · cases hdone

def otherId : BatchJobId := ⟨"00000000-0000-4000-8000-000000000002"⟩

def sampleCalls : Fin 2 → MeteredCall
  | 0 => .post sampleForm
  | 1 => .drainBacklog sampleId 1

/-- No two recordings of the sample runs differ in length. -/
theorem unambiguous_sample : Unambiguous sampleGateway ⟨fun _ => 2, fun _ => 2⟩ (preservedStart otherId) sampleCalls := by
  refine ⟨fun i form hform => ?_, by decide +kernel, by simp [preservedStart, SortedTable.empty],
    by simp [preservedStart, SortedTable.empty]⟩
  have hpost : ∀ i, sampleCalls i = .post form → form = sampleForm := by
    intro i hi
    match i with
    | 0 => exact (MeteredCall.post.inj hi).symm
    | 1 => cases hi
  rw [hpost i hform]
  exact ⟨rfl, rfl⟩

/-- The worker executes the job before the post has added its bytes to the gauge of a spool which holds another
recording; the gauge is true in the end. -/
theorem gaugeTruthful_sample : ∃ s : MeteredState (Fin 2),
    MeteredReaches sampleGateway servingGateway (gaugeKept sampleGateway) (preservedStart otherId) sampleCalls s ∧
      s.world.metrics.spoolUsedBytes.toNat = s.world.gateway.spool.audioBytes := by
  obtain ⟨s, hreach, hobserved⟩ := exists_metered_of_schedule sampleGateway servingGateway (gaugeKept sampleGateway)
    (preservedStart otherId) sampleCalls (keepsGauge sampleGateway)
    [(0, .served), (0, .served), (0, .served), (0, .served), (1, .served), (1, .served), (0, .served),
      (1, .served), (1, .served), (1, .served), (1, .answers sampleFailure), (1, .served), (1, .served),
      (1, .served), (0, .served)]
    (observedGauge 2 2) (fun _ _ _ hpermits => hpermits) (by decide +kernel)
  exact ⟨s, hreach, gaugeTruthful_of_kept unambiguous_sample (by decide +kernel) s hreach (quiet_of_observed hobserved)⟩

/-- The job of a preserved recording is posted again, executed and cleaned up, and nothing fails. -/
theorem gauge_counts_preserved_twice :
    ¬ GaugeTruthful sampleGateway servingGateway (fun _ _ _ => True) (preservedStart sampleId)
      fun _ : Fin 1 => .post sampleForm := by
  intro htruthful
  obtain ⟨s, hreach, hobserved⟩ := exists_metered_of_schedule sampleGateway servingGateway (fun _ _ _ => True)
    (preservedStart sampleId) (fun _ : Fin 1 => .post sampleForm) (fun _ _ => true)
    [(0, .served), (0, .served), (0, .served), (0, .served), (0, .served), (0, .served), (0, .served),
      (0, .served), (0, .answers sampleFailure), (0, .served), (0, .served), (0, .served)]
    (observedGauge 2 0) (fun _ _ _ _ => trivial) (by decide +kernel)
  have hgauge := htruthful (by decide +kernel) s hreach (quiet_of_observed hobserved)
  simp only [observedGauge, Bool.and_eq_true, decide_eq_true_eq] at hobserved
  omega

end Schedules

end Voicetext.Gateway.Server
