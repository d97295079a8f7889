import Voicetext.Gateway.Invariant

/-!
# Every effect keeps the world invariant

One lemma for each kind of effect: an effect which touches neither the rows nor the artifacts, a row
version, a stored artifact, a failed store, and a removal. Nothing here depends on which program
performs the effect, only on what is known just before it.
-/

namespace Voicetext.Gateway

open Voicetext.Common Voicetext.Speech.Domain Voicetext.Speech.Application Voicetext.Gateway.Storage

variable {ι : Type*} [DecidableEq ι] {config : GatewayConfig} {allowed : Environment ι}
  {calls : ι → GatewayCall} {w : GatewayWorld ι} {call : ι}

/-- The ledger holds exactly the latest versions. -/
theorem Inv.latest_of_mem (h : Inv config allowed calls w) {row : BatchJobSnapshot}
    (hmem : row ∈ w.ledger.rows) : latest row.id w.history = some row := by
  rw [← h.agrees row.id]
  exact SortedTable.lookup_of_mem hmem

theorem Inv.mem_of_latest (h : Inv config allowed calls w) {id : BatchJobId} {row : BatchJobSnapshot}
    (hlatest : latest id w.history = some row) : row ∈ w.ledger.rows := by
  rw [← h.agrees id] at hlatest
  exact SortedTable.mem_of_lookup hlatest

/-- Any effect but a provider call leaves the provider calls as they were. -/
theorem Inv.bought_cons (h : Inv config allowed calls w) {event : GatewayEvent ι}
    (hevent : ∀ author claimed request outcome, event ≠ .recognized author claimed request outcome) :
    ∀ author claimed request outcome,
      .recognized author (some claimed) request outcome ∈ event :: w.history →
        Buys calls author claimed request := by
  intro author claimed request outcome hmem
  rcases List.mem_cons.mp hmem with heq | hpast
  · exact absurd heq.symm (hevent author (some claimed) request outcome)
  · exact h.bought author claimed request outcome hpast

/-- An effect which neither writes a row nor moves an artifact. -/
theorem Inv.record (h : Inv config allowed calls w) {event : GatewayEvent ι}
    (hjust : Justifies config.codec w.history event)
    (hbuys : ∀ author claimed request outcome, event = .recognized author (some claimed) request outcome →
      Buys calls author claimed request)
    (hquiet : ∀ author row, event ≠ .wrote author row)
    (hstored : ∀ author id handle created, event ≠ .stored author id handle created)
    (hremoved : ∀ author handle, event ≠ .removed author handle) :
    Inv config allowed calls (w.record event) := by
  have hlatest : ∀ id, latest id (event :: w.history) = latest id w.history := fun id =>
    latest_cons_of_ne fun author row heq => absurd heq (hquiet author row)
  refine ⟨⟨h.justified, hjust⟩, fun id => ?_, fun author claimed request outcome hmem => ?_,
    fun hclean => ?_, fun hcalm => ?_⟩
  · exact (h.agrees id).trans (hlatest id).symm
  · rcases List.mem_cons.mp hmem with heq | hpast
    · exact hbuys author claimed request outcome heq.symm
    · exact h.bought author claimed request outcome hpast
  · refine ⟨fun id row hrow => ?_, fun j id handle hholds => ?_⟩
    · exact (h.custody hclean).live id row ((hlatest id).symm.trans hrow)
    · have hbefore := hholds.of_cons fun created => hstored j id handle created
      exact ((h.custody hclean).pending j id handle hbefore).imp_right fun hsome => by
        rwa [← hlatest id] at hsome
  · refine ⟨fun id row hrow hterminal hholds => ?_, fun id handle hnames hholds hother => ?_⟩
    · obtain ⟨j, howes⟩ :=
        (h.cleanup hcalm).terminal id row ((hlatest id).symm.trans hrow) hterminal hholds
      exact ⟨j, howes.cons (hremoved _ _)⟩
    · obtain ⟨j, howes⟩ := (h.cleanup hcalm).orphan id handle hnames hholds fun row hrow =>
        hother row ((hlatest id).trans hrow)
      exact ⟨j, howes.cons (hremoved _ _)⟩

/-- A durable row version: a fresh row over a held artifact, or an update of the latest row. -/
theorem Inv.write (h : Inv config allowed calls w) {row : BatchJobSnapshot}
    (hjust : Justifies config.codec w.history (.wrote call row))
    (hfresh : Fresh config.codec w.history row → HoldsArtifact w.history call row.id row.audio) :
    Inv config allowed calls (w.write call row) := by
  have hother {id : BatchJobId} (hid : row.id ≠ id) :
      latest id (.wrote call row :: w.history) = latest id w.history :=
    latest_cons_of_ne fun author version heq => by cases heq; exact hid
  have hself : latest row.id (.wrote call row :: w.history) = some row :=
    latest_wrote_self call row w.history
  refine ⟨⟨h.justified, hjust⟩, fun id => ?_, h.bought_cons (by simp), fun hclean => ?_,
    fun hcalm => ?_⟩
  · change (w.ledger.put row).lookup id.asStr = latest id (.wrote call row :: w.history)
    rw [SortedTable.lookup_put]
    by_cases hid : row.id = id
    · subst hid
      simp [hself]
    · rw [hother hid, if_neg, h.agrees id]
      intro hstr
      exact hid (by cases id; cases hrow : row.id; simp_all)
  · have hcustody := h.custody hclean
    refine ⟨fun id version hversion hlive => ?_, fun j id handle hholds => ?_⟩
    · by_cases hid : row.id = id
      · subst hid
        obtain rfl := Option.some.inj (hself.symm.trans hversion)
        rcases hjust with hnew | ⟨prev, replacement, hfollows⟩
        · exact (hcustody.pending call row.id row.audio (hfresh hnew)).resolve_right (by
            simp [hnew.absent])
        · have hprev := hcustody.live row.id prev hfollows.latest_eq hfollows.not_terminal
          rw [← hfollows.sameJob.1.audio] at hprev
          exact hprev
      · exact hcustody.live id version ((hother hid).symm.trans hversion) hlive
    · have hbefore := hholds.of_cons (by simp)
      exact (hcustody.pending j id handle hbefore).imp_right latest_isSome_cons
  · have hcleanup := h.cleanup hcalm
    refine ⟨fun id version hversion hterminal hholds => ?_, fun id handle hnames hholds hnot => ?_⟩
    · by_cases hid : row.id = id
      · subst hid
        obtain rfl := Option.some.inj (hself.symm.trans hversion)
        exact ⟨call, .head rfl⟩
      · obtain ⟨j, howes⟩ :=
          hcleanup.terminal id version ((hother hid).symm.trans hversion) hterminal hholds
        exact ⟨j, howes.cons (by simp)⟩
    · have hbefore : ∀ version, latest id w.history = some version → version.audio ≠ handle := by
        intro version hversion
        by_cases hid : row.id = id
        · subst hid
          rcases hjust with hnew | ⟨prev, replacement, hfollows⟩
          · rw [hnew.absent] at hversion
            cases hversion
          · obtain rfl := Option.some.inj (hfollows.latest_eq.symm.trans hversion)
            rw [← hfollows.sameJob.1.audio]
            exact hnot row hself
        · exact hnot version ((hother hid).trans hversion)
      obtain ⟨j, howes⟩ := hcleanup.orphan id handle hnames hholds hbefore
      exact ⟨j, howes.cons (by simp)⟩

/-- A store which reports its artifact: it was there already, or exactly it was created. -/
theorem Inv.store (h : Inv config allowed calls w) {id : BatchJobId} {audio : List UInt8}
    {spool : Spool} {created : Bool} (hid : config.codec.isCanonical id.asStr = true)
    (hspool : ∀ other, spool.holds other = true ↔
      other = config.handle id audio ∨ w.spool.holds other = true)
    (hcreated : created = !w.spool.holds (config.handle id audio))
    (htimely : Calm config allowed → StoreTimely config w id audio) :
    Inv config allowed calls
      (({ w with spool } : GatewayWorld ι).record (.stored call id (config.handle id audio) created)) := by
  have hnames : NamesJob config.codec (config.handle id audio) id :=
    ⟨_, config.parseHandle_handle hid audio, rfl⟩
  refine ⟨⟨h.justified, hnames⟩, h.agrees, h.bought_cons (by simp), fun hclean => ?_,
    fun hcalm => ?_⟩
  · have hcustody := h.custody hclean
    refine ⟨fun other row hrow hlive => ?_, fun j other handle hholds => ?_⟩
    · exact (hspool _).mpr (.inr (hcustody.live other row hrow hlive))
    · by_cases hevent : ∃ made, GatewayEvent.stored call id (config.handle id audio) created =
          .stored j other handle made
      · obtain ⟨made, heq⟩ := hevent
        cases heq
        exact .inl ((hspool _).mpr (.inl rfl))
      · have hbefore := hholds.of_cons fun made heq => hevent ⟨made, heq⟩
        exact (hcustody.pending j other handle hbefore).imp_left fun hheld => (hspool _).mpr (.inr hheld)
  · have hcleanup := h.cleanup hcalm
    refine ⟨fun other row hrow hterminal hholds => ?_, fun other handle hnames' hholds hnot => ?_⟩
    · change latest other w.history = some row at hrow
      have hheld : w.spool.holds row.audio = true := by
        rcases (hspool _).mp hholds with heq | hheld
        · obtain ⟨⟨author, hwrote⟩, hrowId⟩ := held_of_latest hrow
          have hrowNames := (h.justified.version ⟨author, hwrote⟩).2
          rw [heq] at hrowNames
          refine htimely hcalm row ?_ hterminal heq
          rw [h.agrees, hnames.unique hrowNames, hrowId]
          exact hrow
        · exact hheld
      obtain ⟨j, howes⟩ := hcleanup.terminal other row hrow hterminal hheld
      exact ⟨j, howes.cons (by simp)⟩
    · by_cases hnew : w.spool.holds handle = true
      · obtain ⟨j, howes⟩ := hcleanup.orphan other handle hnames' hnew hnot
        exact ⟨j, howes.cons (by simp)⟩
      · have heq : handle = config.handle id audio := ((hspool _).mp hholds).resolve_right hnew
        subst heq
        obtain rfl := hnames.unique hnames'
        have hmade : created = true := by simpa using hcreated.trans (by simpa using hnew)
        rw [hmade]
        exact ⟨call, .head rfl⟩

/-- A failing store may leave artifacts behind but takes none away. -/
theorem Inv.storeFailed (h : Inv config allowed calls w) {spool : Spool}
    (hspool : ∀ other, w.spool.holds other = true → spool.holds other = true)
    (hfault : ¬Calm config allowed) : Inv config allowed calls { w with spool } := by
  refine ⟨h.justified, h.agrees, h.bought, fun hclean => ?_, fun hcalm => absurd hcalm hfault⟩
  exact ⟨fun id row hrow hlive => hspool _ ((h.custody hclean).live id row hrow hlive),
    fun j id handle hholds => ((h.custody hclean).pending j id handle hholds).imp_left (hspool _)⟩

/-- A removal, complete or interrupted, of an artifact nobody relies on. -/
theorem Inv.remove (h : Inv config allowed calls w) (call : ι) {handle : BatchAudioHandle} {spool : Spool}
    {history : List (GatewayEvent ι)}
    (hhistory : history = .removed call handle :: w.history ∨ history = w.history ∧ ¬Calm config allowed)
    (hkept : ∀ other, other ≠ handle → w.spool.holds other = true → spool.holds other = true)
    (hgone : Calm config allowed → ∀ other, spool.holds other = true →
      other ≠ handle ∧ w.spool.holds other = true)
    (hsafe : CleanRollbacks allowed calls → RollbackSafe w handle) :
    Inv config allowed calls ⟨w.ledger, spool, history⟩ := by
  have hlatest : ∀ id, latest id history = latest id w.history := by
    rcases hhistory with rfl | ⟨rfl, _⟩ <;> exact fun _ => rfl
  have hbefore {j : ι} {id : BatchJobId} {other : BatchAudioHandle}
      (hholds : HoldsArtifact history j id other) : HoldsArtifact w.history j id other := by
    rcases hhistory with rfl | ⟨rfl, _⟩
    · exact hholds.of_cons (by simp)
    · exact hholds
  refine ⟨?_, fun id => (h.agrees id).trans (hlatest id).symm, ?_, fun hclean => ?_, fun hcalm => ?_⟩
  · rcases hhistory with rfl | ⟨rfl, _⟩
    · exact ⟨h.justified, trivial⟩
    · exact h.justified
  · rcases hhistory with rfl | ⟨rfl, _⟩
    · exact h.bought_cons (by simp)
    · exact h.bought
  · have hcustody := h.custody hclean
    obtain ⟨hrows, hholders⟩ := hsafe hclean
    refine ⟨fun id row hrow hlive => ?_, fun j id other hholds => ?_⟩
    · rw [hlatest] at hrow
      refine hkept _ (fun heq => ?_) (hcustody.live id row hrow hlive)
      have hterminal := hrows row (h.mem_of_latest hrow) heq
      rw [hlive] at hterminal
      cases hterminal
    · rw [hlatest]
      by_cases heq : other = handle
      · subst heq
        right
        rw [← h.agrees]
        exact hholders j id (hbefore hholds)
      · exact (hcustody.pending j id other (hbefore hholds)).imp_left (hkept _ heq)
  · have hcleanup := h.cleanup hcalm
    obtain rfl := hhistory.resolve_right fun hfault => hfault.2 hcalm
    refine ⟨fun id row hrow hterminal hholds => ?_, fun id other hnames hholds hnot => ?_⟩
    · obtain ⟨hne, hheld⟩ := hgone hcalm _ hholds
      obtain ⟨j, howes⟩ := hcleanup.terminal id row hrow hterminal hheld
      exact ⟨j, howes.cons fun heq => hne (by cases heq; rfl)⟩
    · obtain ⟨hne, hheld⟩ := hgone hcalm _ hholds
      obtain ⟨j, howes⟩ := hcleanup.orphan id other hnames hheld hnot
      exact ⟨j, howes.cons fun heq => hne (by cases heq; rfl)⟩

/-- The audio of a job known to be terminal is needed by nobody. -/
theorem Inv.rollbackSafe_of_terminal (h : Inv config allowed calls w) {row : BatchJobSnapshot}
    (hheld : Held w.history row) (hterminal : row.job.state.isTerminal = true) :
    RollbackSafe w row.audio := by
  obtain ⟨current, hcurrent, hprecedes⟩ := h.justified.precedes hheld
  obtain rfl := hprecedes.terminal hterminal
  have hnames := (h.justified.version hheld).2
  refine ⟨fun other hother haudio => ?_, fun j id hholds => ?_⟩
  · have hotherLatest := h.latest_of_mem hother
    have hotherNames := (h.justified.version (held_of_latest hotherLatest).1).2
    rw [haudio] at hotherNames
    rw [hotherNames.unique hnames, hcurrent] at hotherLatest
    obtain rfl := Option.some.inj hotherLatest
    exact hterminal
  · obtain ⟨created, hmem⟩ := hholds.mem
    have hstored : NamesJob config.codec current.audio id := h.justified.stored_names hmem
    rw [h.agrees, hstored.unique hnames, hcurrent]
    rfl

end Voicetext.Gateway
