import Voicetext.Gateway.Runs

/-!
# Cleanup of the audio of finished jobs

When nothing fails and every call has returned, the spool holds no audio of a finished job, provided
no admission stored that audio anew after the job had finished. An admission which looked for the
row before there was one does exactly that, and then keeps the artifact because the row names it.
-/

namespace Voicetext.Gateway

open Voicetext.Common Voicetext.Speech.Domain Voicetext.Speech.Application Voicetext.Gateway.Storage

variable {ι : Type*} [DecidableEq ι] {config : GatewayConfig} {calls : ι → GatewayCall}
  {s : GatewayState ι}

/-- No ledger or spool call fails. -/
def faultless : Environment ι := fun _ _ _ choice => choice.isFault = false

/-- No ledger or spool call fails, and no store recreates the audio of a finished job. -/
def timelyStores (config : GatewayConfig) : Environment ι := fun _ w op choice =>
  choice.isFault = false ∧ ∀ id audio, op = .storeAudio id audio → StoreTimely config w id audio

/-- Every call has returned. -/
def AllReturned (s : GatewayState ι) : Prop := ∀ i, ∃ result, s.pool i = .done (some result)

/-- The spool holds no artifact named after the job. -/
def NoArtifact (codec : UuidCodec) (spool : Spool) (id : BatchJobId) : Prop :=
  ∀ handle, NamesJob codec handle id → spool.holds handle = false

/-- In every run with timely stores whose calls have all returned, finished jobs have no audio. -/
theorem timelyStores_noArtifact (hreach : Reachable config (timelyStores config) calls s)
    (hreturned : AllReturned s) {id : BatchJobId} {row : BatchJobSnapshot}
    (hrow : s.world.ledger.lookup id.asStr = some row) (hterminal : row.job.state.isTerminal = true) :
    NoArtifact config.codec s.world.spool id := by
  have hcalm : Calm config (timelyStores (ι := ι) config) :=
    ⟨fun _ _ _ _ hallowed => hallowed.1, fun _ _ id audio _ hallowed => hallowed.2 id audio rfl⟩
  have hinv := hreach.inv
  have hcleanup := hinv.cleanup hcalm
  have hsettled (i : ι) : Settled i s.world := by
    obtain ⟨result, hdone⟩ := hreturned i
    exact (hreach.returned hdone).settled hcalm
  rw [hinv.agrees] at hrow
  intro handle hnames
  by_contra hholds
  rw [Bool.not_eq_false] at hholds
  by_cases haudio : row.audio = handle
  · subst haudio
    obtain ⟨i, howes⟩ := hcleanup.terminal id row hrow hterminal hholds
    exact (hsettled i).terminal row hterminal howes
  · obtain ⟨i, howes⟩ := hcleanup.orphan id handle hnames hholds fun current hcurrent => by
      rw [hrow] at hcurrent
      cases hcurrent
      exact haudio
    -- whoever created the orphan kept it for a row, and the job has only one row
    obtain ⟨version, hheld, rfl, hversion⟩ := (hsettled i).stored id handle howes
    obtain ⟨current, hcurrent, hprecedes⟩ := hinv.justified.precedes hheld
    rw [hrow] at hcurrent
    cases hcurrent
    exact haudio (hprecedes.sameJob.audio.trans hversion)

/-- Two equal admissions of the sample job and one execution of it. -/
def finishedCalls : Fin 3 → GatewayCall
  | 0 | 1 => .admitBatch sampleRequest
  | 2 => .execute sampleId sampleProjection

/-- All three calls returned, the job is terminal, and its artifact is in the spool or is not. -/
def finishedWithAudio (held : Bool) (s : GatewayState (Fin 3)) : Bool :=
  (List.finRange 3).all (fun i => s.pool i matches .done (some _)) &&
    (s.world.ledger.lookup sampleId.asStr).any fun row =>
      row.job.state.isTerminal && s.world.spool.holds row.audio = held

theorem exists_of_finishedWithAudio {held : Bool} {s : GatewayState (Fin 3)}
    (h : finishedWithAudio held s = true) :
    AllReturned s ∧ ∃ row, s.world.ledger.lookup sampleId.asStr = some row ∧
      row.job.state.isTerminal = true ∧ s.world.spool.holds row.audio = held := by
  rw [finishedWithAudio, Bool.and_eq_true, Option.any_eq_true] at h
  obtain ⟨hreturned, row, hrow, hobserved⟩ := h
  rw [Bool.and_eq_true, decide_eq_true_eq] at hobserved
  refine ⟨fun i => ?_, row, hrow, hobserved⟩
  have hdone := List.all_eq_true.mp hreturned i (List.mem_finRange i)
  split at hdone
  · exact ⟨_, ‹_›⟩
  · cases hdone

/-- The second admission replays the job before it is executed, so nothing is left behind. -/
theorem noArtifact_replayed :
    ∃ (s : GatewayState (Fin 3)) (row : BatchJobSnapshot),
      Reachable sampleGateway (timelyStores sampleGateway) finishedCalls s ∧ AllReturned s ∧
        s.world.ledger.lookup sampleId.asStr = some row ∧ row.job.state.isTerminal = true ∧
        NoArtifact sampleGateway.codec s.world.spool sampleId := by
  obtain ⟨s, hreach, hobserved⟩ := exists_reachable_of_schedule sampleGateway
    (timelyStores sampleGateway) finishedCalls
    (fun _ w op choice => !choice.isFault &&
      (!(op matches .storeAudio _ _) || w.ledger.rows.isEmpty))
    [(0, .served), (0, .served), (0, .served), (0, .served), (1, .served), (2, .served), (2, .served),
      (2, .served), (2, .answers sampleFailure), (2, .served), (2, .served)]
    (finishedWithAudio false)
    (fun i w op choice hpermits => by
      simp only [Bool.and_eq_true, Bool.not_eq_true', Bool.or_eq_true] at hpermits
      refine ⟨hpermits.1, fun id audio hop row hrow => ?_⟩
      subst hop
      have hempty : w.ledger.rows = [] := by simpa using hpermits.2
      have hmem := SortedTable.mem_of_lookup hrow
      rw [hempty] at hmem
      cases hmem)
    (by decide +kernel)
  obtain ⟨hreturned, row, hrow, hterminal, _⟩ := exists_of_finishedWithAudio hobserved
  exact ⟨s, row, hreach, hreturned, hrow, hterminal,
    timelyStores_noArtifact hreach hreturned hrow hterminal⟩

/-- The first admission sees no row; the second one's job is accepted, executed and cleaned up; the
first one stores the audio again, finds the finished row and replays it. -/
theorem faultless_artifactLeft :
    ∃ s : GatewayState (Fin 3), Reachable sampleGateway faultless finishedCalls s ∧ AllReturned s ∧
      (∃ row, s.world.ledger.lookup sampleId.asStr = some row ∧ row.job.state.isTerminal = true) ∧
        ¬NoArtifact sampleGateway.codec s.world.spool sampleId := by
  obtain ⟨s, hreach, hobserved⟩ := exists_reachable_of_schedule sampleGateway faultless
    finishedCalls (fun _ _ _ choice => !choice.isFault)
    [(0, .served), (1, .served), (1, .served), (1, .served), (1, .served), (2, .served), (2, .served),
      (2, .served), (2, .answers sampleFailure), (2, .served), (2, .served),
      (0, .served), (0, .served), (0, .served)]
    (finishedWithAudio true) (fun _ _ _ choice hpermits => by simpa [faultless] using hpermits)
    (by decide +kernel)
  obtain ⟨hreturned, row, hrow, hterminal, hholds⟩ := exists_of_finishedWithAudio hobserved
  refine ⟨s, hreach, hreturned, ⟨row, hrow, hterminal⟩, fun hnone => ?_⟩
  rw [hreach.inv.agrees] at hrow
  obtain ⟨hheld, hid⟩ := held_of_latest hrow
  have hnames := (hreach.inv.justified.version hheld).2
  rw [hid] at hnames
  rw [hnone row.audio hnames] at hholds
  cases hholds

end Voicetext.Gateway
