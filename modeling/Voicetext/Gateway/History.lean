import Voicetext.Gateway.World
import Voicetext.Speech.Application.SnapshotInvariant

/-!
# Histories in which every effect is justified by its past

A history is justified when every row version is either the fresh row of an admission or replaces
the latest version by a transition its author was entitled to, and every provider call follows the
claim its author durably wrote. Version numbers, immutable columns, terminal states and snapshot
well-formedness of everything ever written follow by induction on the history.
-/

namespace Voicetext.Gateway

open Voicetext.Common Voicetext.Speech.Domain Voicetext.Speech.Application Voicetext.Gateway.Storage

variable {ι : Type*}

/-- The newest version of a job's row. -/
def latest (id : BatchJobId) : List (GatewayEvent ι) → Option BatchJobSnapshot
  | [] => none
  | .wrote _ row :: past => if row.id = id then some row else latest id past
  | _ :: past => latest id past

/-- Some call has durably written this row version. -/
def Held (history : List (GatewayEvent ι)) (row : BatchJobSnapshot) : Prop :=
  ∃ call, GatewayEvent.wrote call row ∈ history

/-- A row's audio handle names the row's own job. -/
def NamesJob (codec : UuidCodec) (handle : BatchAudioHandle) (id : BatchJobId) : Prop :=
  ∃ parsed, parseHandle codec handle.asStr = .ok parsed ∧ parsed.jobId = id.asStr

/-- A handle names one job only. -/
theorem NamesJob.unique {codec : UuidCodec} {handle : BatchAudioHandle} {id id' : BatchJobId}
    (h : NamesJob codec handle id) (h' : NamesJob codec handle id') : id = id' := by
  obtain ⟨parsed, hparse, hid⟩ := h
  obtain ⟨parsed', hparse', hid'⟩ := h'
  obtain rfl := Except.ok.inj (hparse.symm.trans hparse')
  cases id
  cases id'
  simp_all

/-- The version an update writes: what the record decodes to, one revision on. -/
def nextRow (replacement : BatchJobSnapshot) : BatchJobSnapshot :=
  { untyped replacement with revision := replacement.revision + 1 }

/-- A call is entitled to replace a version by its own effects so far. -/
inductive Proposes (call : ι) (past : List (GatewayEvent ι)) (prev : BatchJobSnapshot) :
    BatchJobSnapshot → Prop
  | claim {replacement : BatchJobSnapshot} (h : claim prev = .ok replacement) :
      Proposes call past prev replacement
  | outcome {replacement : BatchJobSnapshot} {n : NonZeroU32} {request : BatchRecognitionRequest}
      {recognition : Recognition} (hstate : prev.job.state = .submitting n)
      (hwrote : .wrote call prev ∈ past)
      (hrecognized : .recognized call (some prev) request recognition ∈ past)
      (h : Settlement prev n recognition replacement) : Proposes call past prev replacement
  | interrupted {n : NonZeroU32} (hstate : prev.job.state = .submitting n) :
      Proposes call past prev (recovered prev)

/-- The row admission inserts for a job nobody has written before. -/
structure Fresh (codec : UuidCodec) (past : List (GatewayEvent ι)) (row : BatchJobSnapshot) : Prop where
  absent : latest row.id past = none
  state : row.job.state = .accepted
  revision : row.revision = 0
  reference : row.providerReference = none
  retryAfter : row.retryAfterMillis = none
  result : row.result = none
  names : NamesJob codec row.audio row.id

/-- A version which follows the latest one by a transition its author was entitled to. -/
structure Follows (call : ι) (past : List (GatewayEvent ι)) (row prev replacement : BatchJobSnapshot) :
    Prop where
  latest_eq : latest row.id past = some prev
  proposes : Proposes call past prev replacement
  row_eq : row = nextRow replacement
  bounded : replacement.revision.toNat + 1 < 2 ^ 63

/-- What must have happened before an event. -/
def Justifies (codec : UuidCodec) (past : List (GatewayEvent ι)) : GatewayEvent ι → Prop
  | .wrote call row => Fresh codec past row ∨ ∃ prev replacement, Follows call past row prev replacement
  | .recognized call claimed _ _ =>
    (∃ row n, claimed = some row ∧ row.job.state = .submitting n ∧ .wrote call row ∈ past) ∧
      ∀ claimed' request outcome, .recognized call claimed' request outcome ∉ past
  | .stored _ id handle _ => NamesJob codec handle id
  | .declined _ | .removed _ _ => True

/-- Every event is justified by the events before it. -/
def Justified (codec : UuidCodec) : List (GatewayEvent ι) → Prop
  | [] => True
  | event :: past => Justified codec past ∧ Justifies codec past event

variable {codec : UuidCodec} {past : List (GatewayEvent ι)} {call : ι}
  {prev replacement row : BatchJobSnapshot}

/-- Entitlement is never lost. -/
theorem Proposes.mono {past' : List (GatewayEvent ι)} (h : Proposes call past prev replacement)
    (hsub : past ⊆ past') : Proposes call past' prev replacement := by
  cases h with
  | claim h => exact .claim h
  | outcome hstate hwrote hrecognized h => exact .outcome hstate (hsub hwrote) (hsub hrecognized) h
  | interrupted hstate => exact .interrupted hstate

theorem Proposes.replaces (h : Proposes call past prev replacement) : Replaces prev replacement := by
  cases h with
  | claim h => exact .claim h
  | outcome hstate _ _ h => exact .outcome hstate h
  | interrupted hstate => exact .interrupted hstate

theorem Held.mono {past' : List (GatewayEvent ι)} (h : Held past row) (hsub : past ⊆ past') :
    Held past' row := by
  obtain ⟨call, hmem⟩ := h
  exact ⟨call, hsub hmem⟩

theorem sameJob_nextRow (s : BatchJobSnapshot) : SameJob s (nextRow s) := ⟨rfl, rfl, rfl, rfl, rfl, rfl⟩

/-- Forgetting operation kinds keeps a snapshot well formed. -/
theorem wellFormed_untyped {s : BatchJobSnapshot} (h : WellFormed s) : WellFormed (untyped s) := by
  refine ⟨?_, h.retryAfter, fun hstate => ?_, fun result hresult => ?_⟩
  · simpa [untyped] using h.result_iff
  · simp [untyped, h.reference hstate]
  · simp only [untyped, Option.map_eq_some_iff] at hresult
    obtain ⟨original, horiginal, rfl⟩ := hresult
    obtain ⟨hprofile, hduration, hreference⟩ := h.result_identity original horiginal
    exact ⟨hprofile, hduration, by simp [untyped, hreference]⟩

/-- An update keeps the job and moves to the next revision. -/
theorem Follows.sameJob {row : BatchJobSnapshot} (h : Follows call past row prev replacement) :
    SameJob prev row ∧ row.revision.toNat = prev.revision.toNat + 1 := by
  obtain ⟨hsame, hrevision⟩ := h.proposes.replaces.sameJob
  obtain rfl := h.row_eq
  refine ⟨hsame.trans (sameJob_nextRow replacement), ?_⟩
  have hbound := h.bounded
  have hnext : (replacement.revision + 1).toNat = replacement.revision.toNat + 1 := by
    rw [UInt64.toNat_add]
    exact Nat.mod_eq_of_lt (by simpa using by omega)
  rw [nextRow, hnext, hrevision]

/-- The latest version was written, and belongs to the job it is looked up by. -/
theorem held_of_latest {id : BatchJobId} (h : latest id past = some row) : Held past row ∧ row.id = id := by
  induction past with
  | nil => cases h
  | cons event rest ih =>
    cases event with
    | wrote author version =>
      simp only [latest] at h
      split at h
      · rename_i hid
        obtain rfl := Option.some.inj h
        exact ⟨⟨author, List.mem_cons_self⟩, hid⟩
      · obtain ⟨hheld, hid⟩ := ih h
        exact ⟨hheld.mono (List.subset_cons_self _ _), hid⟩
    | declined | recognized | stored | removed =>
      obtain ⟨hheld, hid⟩ := ih h
      exact ⟨hheld.mono (List.subset_cons_self _ _), hid⟩

@[simp] theorem latest_wrote_self (author : ι) (row : BatchJobSnapshot) (rest : List (GatewayEvent ι)) :
    latest row.id (.wrote author row :: rest) = some row := by
  simp [latest]

/-- An event which writes no row of a job leaves its latest version alone. -/
theorem latest_cons_of_ne {id : BatchJobId} {event : GatewayEvent ι}
    (h : ∀ author row, event = .wrote author row → row.id ≠ id) :
    latest id (event :: past) = latest id past := by
  cases event with
  | wrote author row => simp [latest, h author row rfl]
  | declined | recognized | stored | removed => rfl

/-- A job which has a row keeps one. -/
theorem latest_isSome_cons {id : BatchJobId} {event : GatewayEvent ι} (h : (latest id past).isSome = true) :
    (latest id (event :: past)).isSome = true := by
  cases event with
  | wrote author row =>
    simp only [latest]
    split
    · rfl
    · exact h
  | declined | recognized | stored | removed => exact h

/-- How an old version of a job relates to its latest one. -/
structure Precedes (row current : BatchJobSnapshot) : Prop where
  sameJob : SameJob row current
  revision : row.revision.toNat ≤ current.revision.toNat
  attempts : row.job.state.attempts ≤ current.job.state.attempts
  terminal : row.job.state.isTerminal = true → current = row

theorem Precedes.refl (row : BatchJobSnapshot) : Precedes row row :=
  ⟨.refl row, le_rfl, le_rfl, fun _ => rfl⟩

/-- An update starts from a state which is not terminal. -/
theorem Follows.not_terminal (h : Follows call past row prev replacement) :
    prev.job.state.isTerminal = false := by
  rcases h.proposes.replaces.attempts with ⟨hactionable, _⟩ | ⟨⟨n, hstate⟩, _⟩
  · cases hstate : prev.job.state <;> simp_all [BatchJobState.isActionable, BatchJobState.isTerminal]
  · simp [hstate, BatchJobState.isTerminal]

theorem Follows.attempts_le (h : Follows call past row prev replacement) :
    prev.job.state.attempts ≤ row.job.state.attempts := by
  have hstate : row.job.state = replacement.job.state := by rw [h.row_eq]; rfl
  rw [hstate]
  rcases h.proposes.replaces.attempts with ⟨_, hattempts, _⟩ | ⟨_, hattempts, _⟩ <;> omega

/-- One update carries every relation to older versions along. -/
theorem Precedes.follows {old : BatchJobSnapshot} (h : Precedes old prev)
    (hfollows : Follows call past row prev replacement) : Precedes old row := by
  obtain ⟨hsame, hrevision⟩ := hfollows.sameJob
  have hle := h.revision
  refine ⟨h.sameJob.trans hsame, by omega, h.attempts.trans hfollows.attempts_le, fun hterminal => ?_⟩
  have hprev := h.terminal hterminal
  have hnot := hfollows.not_terminal
  rw [hprev, hterminal] at hnot
  cases hnot

/-- Every version ever written precedes the latest one of its job. -/
theorem Justified.precedes (hjust : Justified codec past) (hheld : Held past row) :
    ∃ current, latest row.id past = some current ∧ Precedes row current := by
  induction past with
  | nil =>
    obtain ⟨author, hmem⟩ := hheld
    cases hmem
  | cons event rest ih =>
    obtain ⟨hrest, hevent⟩ := hjust
    obtain ⟨author, hmem⟩ := hheld
    rcases List.mem_cons.mp hmem with rfl | hmem
    · exact ⟨row, latest_wrote_self author row rest, .refl row⟩
    · obtain ⟨current, hlatest, hprecedes⟩ := ih hrest ⟨author, hmem⟩
      by_cases hsame : ∃ writer version, event = .wrote writer version ∧ version.id = row.id
      · obtain ⟨writer, version, rfl, hid⟩ := hsame
        refine ⟨version, by rw [← hid]; exact latest_wrote_self writer version rest, ?_⟩
        rcases hevent with hfresh | ⟨prev, replacement, hfollows⟩
        · have habsent := hfresh.absent
          rw [hid, hlatest] at habsent
          cases habsent
        · have hprev := hfollows.latest_eq
          rw [hid, hlatest] at hprev
          obtain rfl := Option.some.inj hprev
          exact hprecedes.follows hfollows
      · refine ⟨current, ?_, hprecedes⟩
        rw [latest_cons_of_ne fun writer version heq hid => hsame ⟨writer, version, heq, hid⟩, hlatest]

/-- A new version is strictly newer than every version its author may have read. -/
theorem Justified.revision_lt (hjust : Justified codec (.wrote call row :: past)) {old : BatchJobSnapshot}
    (hheld : Held past old) (hid : old.id = row.id) : old.revision.toNat < row.revision.toNat := by
  obtain ⟨current, hlatest, hprecedes⟩ := hjust.1.precedes hheld
  rcases hjust.2 with hfresh | ⟨prev, replacement, hfollows⟩
  · have habsent := hfresh.absent
    rw [← hid, hlatest] at habsent
    cases habsent
  · have hprev := hfollows.latest_eq
    rw [← hid, hlatest] at hprev
    obtain rfl := Option.some.inj hprev
    have hnext := hfollows.sameJob.2
    have hle := hprecedes.revision
    omega

/-- A revision of a job is written once: the same version by the same call. -/
theorem Justified.wrote_unique (hjust : Justified codec past) {author writer : ι}
    {version : BatchJobSnapshot} (hrow : .wrote author row ∈ past) (hversion : .wrote writer version ∈ past)
    (hid : row.id = version.id) (hrevision : row.revision = version.revision) :
    author = writer ∧ row = version := by
  induction past with
  | nil => cases hrow
  | cons event rest ih =>
    rcases List.mem_cons.mp hrow with rfl | hrow'
    · rcases List.mem_cons.mp hversion with heq | hversion'
      · cases heq
        exact ⟨rfl, rfl⟩
      · have hlt := hjust.revision_lt ⟨writer, hversion'⟩ hid.symm
        rw [hrevision] at hlt
        exact absurd hlt (lt_irrefl _)
    · rcases List.mem_cons.mp hversion with rfl | hversion'
      · have hlt := hjust.revision_lt ⟨author, hrow'⟩ hid
        rw [hrevision] at hlt
        exact absurd hlt (lt_irrefl _)
      · exact ih hjust.1 hrow' hversion'

/-- Every version ever written is a well-formed snapshot whose handle names its own job. -/
theorem Justified.version (hjust : Justified codec past) (hheld : Held past row) :
    WellFormed row ∧ NamesJob codec row.audio row.id := by
  induction past generalizing row with
  | nil =>
    obtain ⟨author, hmem⟩ := hheld
    cases hmem
  | cons event rest ih =>
    obtain ⟨hrest, hevent⟩ := hjust
    obtain ⟨author, hmem⟩ := hheld
    rcases List.mem_cons.mp hmem with rfl | hmem
    · rcases hevent with hfresh | ⟨prev, replacement, hfollows⟩
      · exact ⟨.accepted hfresh.state hfresh.reference hfresh.retryAfter hfresh.result, hfresh.names⟩
      · obtain ⟨hwell, hnames⟩ := ih hrest (held_of_latest hfollows.latest_eq).1
        obtain ⟨hsame, _⟩ := hfollows.sameJob
        refine ⟨?_, by rw [hsame.audio, hsame.id]; exact hnames⟩
        have hreplacement := wellFormed_untyped (hfollows.proposes.replaces.wellFormed hwell)
        rw [hfollows.row_eq]
        exact ⟨hreplacement.result_iff, hreplacement.retryAfter, hreplacement.reference,
          hreplacement.result_identity⟩
    · exact ih hrest ⟨author, hmem⟩

/-- A reported artifact is named after the job it was stored for. -/
theorem Justified.stored_names (hjust : Justified codec past) {id : BatchJobId}
    {handle : BatchAudioHandle} {created : Bool} (h : .stored call id handle created ∈ past) :
    NamesJob codec handle id := by
  induction past with
  | nil => cases h
  | cons event rest ih =>
    rcases List.mem_cons.mp h with rfl | hrest
    · exact hjust.2
    · exact ih hjust.1 hrest

end Voicetext.Gateway
