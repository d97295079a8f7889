import Voicetext.Gateway.Protocol

/-!
# Versions of the rows of any ledger

A run may start from any ledger, with any number of calls about to be made. Each row a call writes is a new
version of its job's row, or the first one, and no version of an actionable row is ever replaced by anything but
a claim. The calls owe each other one thing only: what they replace is a version they know.
-/

namespace Voicetext.Gateway

open Voicetext.Common Voicetext.Speech.Domain Voicetext.Speech.Application Voicetext.Gateway.Storage

section Versions

variable {ι : Type*}

/-- A row of the ledger a run started from, or one written since. -/
def Version (start : JobTable) (history : List (GatewayEvent ι)) (row : BatchJobSnapshot) : Prop :=
  row ∈ start.rows ∨ Held history row

/-- A version of a row was replaced by its claim. -/
def ClaimWritten (history : List (GatewayEvent ι)) (row : BatchJobSnapshot) : Prop :=
  ∃ call claimed n, .wrote call claimed ∈ history ∧ claimed.id = row.id ∧
    claimed.revision.toNat = row.revision.toNat + 1 ∧ claimed.job.state = .submitting n

/-- The ledger holds the newest version of each row, and actionable versions are only replaced by claims. -/
structure Versioned (start : JobTable) (w : GatewayWorld ι) : Prop where
  version : ∀ row ∈ w.ledger.rows, Version start w.history row
  newest : ∀ row, Version start w.history row → ∃ current, w.ledger.lookup row.id.asStr = some current ∧
    (current = row ∨ row.revision.toNat < current.revision.toNat)
  claimed : ∀ row, Version start w.history row → row.job.state.isActionable = true →
    w.ledger.lookup row.id.asStr = some row ∨ ClaimWritten w.history row

variable {start : JobTable} {history history' : List (GatewayEvent ι)} {row old : BatchJobSnapshot}
  {w w' : GatewayWorld ι} {call : ι}

theorem Version.mono (h : Version start history row) (hsub : history ⊆ history') : Version start history' row :=
  h.imp_right fun hheld => hheld.mono hsub

theorem ClaimWritten.mono (h : ClaimWritten history row) (hsub : history ⊆ history') :
    ClaimWritten history' row := by
  obtain ⟨call, claimed, n, hwrote, hid, hrevision, hstate⟩ := h
  exact ⟨call, claimed, n, hsub hwrote, hid, hrevision, hstate⟩

/-- Every row of a ledger from which a run starts is its own newest version. -/
theorem versioned_start (ledger : JobTable) (spool : Spool) :
    Versioned ledger (⟨ledger, spool, []⟩ : GatewayWorld ι) := by
  have hrow {row : BatchJobSnapshot} (h : Version ledger ([] : List (GatewayEvent ι)) row) : row ∈ ledger.rows :=
    h.resolve_right (by simp [Held])
  exact ⟨fun row h => .inl h, fun row h => ⟨row, SortedTable.lookup_of_mem (hrow h), .inl rfl⟩,
    fun row h _ => .inl (SortedTable.lookup_of_mem (hrow h))⟩

/-- Two current versions of a row at one revision are one. -/
theorem Versioned.eq_of_revision (h : Versioned start w) (hold : Version start w.history old)
    (hrow : w.ledger.lookup old.id.asStr = some row) (hrevision : row.revision = old.revision) : row = old := by
  obtain ⟨current, hcurrent, hnewest⟩ := h.newest old hold
  obtain rfl := Option.some.inj (hrow.symm.trans hcurrent)
  exact hnewest.resolve_right fun hlt => hlt.ne (congrArg UInt64.toNat hrevision.symm)

/-- Effects which write no row change nothing. -/
theorem Versioned.frame (h : Versioned start w) (hledger : w'.ledger = w.ledger)
    (hheld : ∀ row, Held w'.history row → Held w.history row) (hsub : w.history ⊆ w'.history) :
    Versioned start w' := by
  have hversion {row : BatchJobSnapshot} (hrow : Version start w'.history row) : Version start w.history row :=
    hrow.imp_right (hheld row)
  refine ⟨fun row hrow => ?_, fun row hrow => ?_, fun row hrow hactionable => ?_⟩
  · rw [hledger] at hrow
    exact (h.version row hrow).mono hsub
  · rw [hledger]
    exact h.newest row (hversion hrow)
  · rw [hledger]
    exact (h.claimed row (hversion hrow) hactionable).imp_right fun hclaimed => hclaimed.mono hsub

/-- A written row is newer than all versions of its job, and claims the current one if that is actionable. -/
theorem Versioned.write (h : Versioned start w)
    (hnewer : ∀ old, Version start w.history old → old.id = row.id → old.revision.toNat < row.revision.toNat)
    (hclaims : ∀ old, w.ledger.lookup row.id.asStr = some old → old.job.state.isActionable = true →
      row.revision.toNat = old.revision.toNat + 1 ∧ ∃ n, row.job.state = .submitting n) :
    Versioned start (w.write call row) := by
  have hsub : w.history ⊆ (w.write call row).history := List.subset_cons_self _ _
  have hversion {other : BatchJobSnapshot} (hother : Version start (w.write call row).history other) :
      other = row ∨ Version start w.history other := by
    rcases hother with hstart | ⟨author, hwrote⟩
    · exact .inr (.inl hstart)
    · rcases List.mem_cons.mp hwrote with heq | hpast
      · cases heq
        exact .inl rfl
      · exact .inr (.inr ⟨author, hpast⟩)
  have hlookup (id : BatchJobId) : (w.write call row).ledger.lookup id.asStr =
      if id.asStr = row.id.asStr then some row else w.ledger.lookup id.asStr :=
    SortedTable.lookup_put w.ledger row id.asStr
  refine ⟨fun other hother => ?_, fun other hother => ?_, fun other hother hactionable => ?_⟩
  · rcases SortedTable.mem_putRow hother with rfl | hmem
    · exact .inr ⟨call, List.mem_cons_self⟩
    · exact (h.version other hmem).mono hsub
  · rcases hversion hother with rfl | hold
    · exact ⟨other, by simp [hlookup], .inl rfl⟩
    · by_cases hid : other.id = row.id
      · exact ⟨row, by simp [hlookup, hid], .inr (hnewer other hold hid)⟩
      · rw [hlookup, if_neg fun heq => hid (asStr_inj heq)]
        exact h.newest other hold
  · rcases hversion hother with rfl | hold
    · exact .inl (by simp [hlookup])
    · rcases h.claimed other hold hactionable with hcurrent | hclaimed
      · by_cases hid : other.id = row.id
        · rw [hid] at hcurrent
          obtain ⟨hrevision, n, hstate⟩ := hclaims other hcurrent hactionable
          exact .inr ⟨call, row, n, List.mem_cons_self, hid.symm, hrevision, hstate⟩
        · rw [hlookup, if_neg fun heq => hid (asStr_inj heq)]
          exact .inl hcurrent
      · exact .inr (hclaimed.mono hsub)

/-- What replaces an actionable version is its claim. -/
theorem claim_of_replaces {prev replacement : BatchJobSnapshot} (h : Replaces prev replacement)
    (hactionable : prev.job.state.isActionable = true) : ∃ n, replacement.job.state = .submitting n := by
  cases h with
  | claim h =>
    obtain ⟨n, -, -, rfl⟩ := claim_ok h
    exact ⟨n, rfl⟩
  | outcome hstate h =>
    rw [hstate] at hactionable
    cases hactionable
  | interrupted hstate =>
    rw [hstate] at hactionable
    cases hactionable

end Versions

variable {ι : Type*} [DecidableEq ι] {config : GatewayConfig} {allowed : Environment ι} {start : JobTable}
  {w w' : GatewayWorld ι} {i : ι}

/-- What serving an operation does to the rows: it writes what it planned, or nothing. -/
theorem serve_rows {op : GatewayOp} {choice : ServerChoice} {reply : op.Reply}
    (h : serve config i w op choice = some (w', reply)) :
    (w'.ledger = w.ledger ∧ ∀ row, Held w'.history row → Held w.history row) ∨
      ∃ row, w' = w.write i row ∧
        ((∃ snapshot, op = .insertRow snapshot ∧
            JobTable.insertRow config.storable w.ledger snapshot = .ok (some row)) ∨
          ∃ expected replacement, op = .updateRow expected replacement ∧
            JobTable.updateRow config.storable w.ledger expected replacement = .ok (some row)) := by
  have hother {past : List (GatewayEvent ι)} {event : GatewayEvent ι} (hevent : ∀ call row, event ≠ .wrote call row)
      (row : BatchJobSnapshot) (hheld : Held (event :: past) row) : Held past row := by
    obtain ⟨call, hmem⟩ := hheld
    exact ⟨call, (List.mem_cons.mp hmem).resolve_left fun heq => hevent call row heq.symm⟩
  have hsame {world : GatewayWorld ι} (hworld : world = w) :
      world.ledger = w.ledger ∧ ∀ row, Held world.history row → Held w.history row := by
    subst hworld
    exact ⟨rfl, fun _ hheld => hheld⟩
  cases op with
  | selectRow id => exact .inl (hsame (serveQuery_cases h).1)
  | selectRecoveryHead => exact .inl (hsame (serveQuery_cases h).1)
  | selectRecoveryPage after through limit => exact .inl (hsame (serveQuery_cases h).1)
  | insertRow snapshot =>
    obtain ⟨⟨w₁, result⟩, hs, heq⟩ := Option.map_eq_some_iff.mp h
    obtain rfl : w₁ = w' := (Prod.mk.inj heq).1
    rcases serveStatement_cases hs with ⟨row, hplan, rfl, -⟩ | ⟨rfl, -⟩
    · exact .inr ⟨row, rfl, .inl ⟨snapshot, rfl, hplan⟩⟩
    · exact .inl ⟨rfl, hother (by simp)⟩
  | updateRow expected replacement =>
    rcases serveStatement_cases h with ⟨row, hplan, rfl, -⟩ | ⟨rfl, -⟩
    · exact .inr ⟨row, rfl, .inr ⟨expected, replacement, rfl, hplan⟩⟩
    · exact .inl ⟨rfl, hother (by simp)⟩
  | storeAudio id audio =>
    refine .inl ?_
    cases choice with
    | served =>
      simp only [serve, serveStore] at h
      split at h <;> cases h
      · exact ⟨rfl, hother (by simp)⟩
      · exact ⟨rfl, hother (by simp)⟩
      · exact ⟨rfl, fun _ hheld => hheld⟩
    | spoolFails failure progress => cases h; exact ⟨rfl, fun _ hheld => hheld⟩
    | ledgerFails failure committed => cases h
    | answers outcome => cases h
  | readAudio handle =>
    refine .inl ?_
    cases choice with
    | served => cases h; exact ⟨rfl, fun _ hheld => hheld⟩
    | spoolFails failure progress => cases h; exact ⟨rfl, fun _ hheld => hheld⟩
    | ledgerFails failure committed => cases h
    | answers outcome => cases h
  | removeAudio handle =>
    refine .inl ?_
    cases choice with
    | served =>
      simp only [serve, serveRemove] at h
      split at h <;> cases h
      · exact ⟨rfl, hother (by simp)⟩
      · exact ⟨rfl, fun _ hheld => hheld⟩
    | spoolFails failure progress => cases h; exact ⟨rfl, fun _ hheld => hheld⟩
    | ledgerFails failure committed => cases h
    | answers outcome => cases h
  | recognize request =>
    refine .inl ?_
    cases choice with
    | answers outcome => cases h; exact ⟨rfl, hother (by simp)⟩
    | served => cases h
    | spoolFails failure progress => cases h
    | ledgerFails failure committed => cases h

/-- What a call owes before it replaces a row: it replaces a version it knows as the application does. -/
def VersionPre (start : JobTable) (op : GatewayOp) (w : GatewayWorld ι) : Prop :=
  match op with
  | .updateRow expected replacement =>
    ∃ prev, Version start w.history prev ∧ prev.revision = expected ∧ Replaces prev replacement
  | _ => True

omit [DecidableEq ι] in
/-- An update which writes replaces the version which was proposed to it. -/
theorem Versioned.current_of_update (h : Versioned start w) {expected : UInt64}
    {prev replacement row : BatchJobSnapshot} (hprev : Version start w.history prev)
    (hrevision : prev.revision = expected) (hreplaces : Replaces prev replacement)
    (hplan : JobTable.updateRow config.storable w.ledger expected replacement = .ok (some row)) :
    w.ledger.lookup prev.id.asStr = some prev ∧ row.id = prev.id ∧
      row.revision.toNat = prev.revision.toNat + 1 ∧ row.job = replacement.job := by
  obtain ⟨-, hbound, rfl, current, hcurrent, hexpected⟩ := JobTable.updateRow_some hplan
  obtain ⟨hsame, -⟩ := hreplaces.sameJob
  rw [hsame.id] at hcurrent
  obtain rfl := h.eq_of_revision hprev hcurrent (hexpected.trans hrevision.symm)
  refine ⟨hcurrent, hsame.id, ?_, rfl⟩
  rw [hrevision]
  change (expected + 1).toNat = expected.toNat + 1
  rw [UInt64.toNat_add, UInt64.toNat_one, Nat.mod_eq_of_lt (by omega)]

/-- Serving any operation whose obligation is met keeps the ledger's versions in order. -/
theorem Versioned.serve (h : Versioned start w) {op : GatewayOp} {choice : ServerChoice} {reply : op.Reply}
    (hpre : VersionPre start op w) (hserve : Gateway.serve config i w op choice = some (w', reply)) :
    Versioned start w' := by
  have hsub : w.history ⊆ w'.history := by
    rcases serve_history hserve with heq | ⟨event, -, heq⟩
    · rw [heq]
      exact List.Subset.refl _
    · rw [heq]
      exact List.subset_cons_self _ _
  rcases serve_rows hserve with ⟨hledger, hheld⟩ | ⟨row, rfl, hplanned⟩
  · exact h.frame hledger hheld hsub
  rcases hplanned with ⟨snapshot, rfl, hplan⟩ | ⟨expected, replacement, rfl, hplan⟩
  · -- a row is inserted for a job which has none
    obtain ⟨hnone, rfl⟩ := JobTable.insertRow_some hplan
    refine h.write (fun old hold hid => ?_) fun old hold => ?_
    · obtain ⟨current, hcurrent, -⟩ := h.newest old hold
      rw [hid, show (untyped snapshot).id = snapshot.id from rfl, hnone] at hcurrent
      cases hcurrent
    · rw [show (untyped snapshot).id = snapshot.id from rfl, hnone] at hold
      cases hold
  · obtain ⟨prev, hprev, hrevision, hreplaces⟩ := hpre
    obtain ⟨hcurrent, hid, hnext, hjob⟩ := h.current_of_update hprev hrevision hreplaces hplan
    refine h.write (fun old hold holdId => ?_) fun old hold hactionable => ?_
    · obtain ⟨current, hlookup, hnewest⟩ := h.newest old hold
      rw [holdId, hid, hcurrent] at hlookup
      obtain rfl := Option.some.inj hlookup
      rcases hnewest with rfl | hlt
      · omega
      · omega
    · rw [hid, hcurrent] at hold
      obtain rfl := Option.some.inj hold
      rw [hjob]
      exact ⟨hnext, claim_of_replaces hreplaces hactionable⟩

theorem serve_subset {op : GatewayOp} {choice : ServerChoice} {reply : op.Reply}
    (h : serve config i w op choice = some (w', reply)) : w.history ⊆ w'.history := by
  rcases serve_history h with heq | ⟨event, -, heq⟩
  · rw [heq]
    exact List.Subset.refl _
  · rw [heq]
    exact List.subset_cons_self _ _

/-- What calls owe each other over the versions of any ledger. -/
def versionProtocol (config : GatewayConfig) (allowed : Environment ι) (start : JobTable) :
    Protocol ι (GatewayWorld ι) GatewayOp GatewayOp.Reply where
  serves := gatewayService config allowed
  inv := Versioned start
  pre _ := VersionPre start
  rely _ w w' := w.history ⊆ w'.history
  rely_refl _ _ := List.Subset.refl _
  rely_trans := List.Subset.trans
  serves_inv := by
    rintro i w op w' reply hinv hpre ⟨choice, -, hserve⟩
    exact hinv.serve hpre hserve
  serves_rely := by
    rintro i j w op w' reply - - ⟨choice, -, hserve⟩ -
    exact serve_subset hserve

section Rules

variable {α β : Type}

/-- A single operation which replaces nothing is secured by what each way of serving it leaves. -/
theorem versioned_call {op : GatewayOp} {post : op.Reply → GatewayWorld ι → Prop}
    (hpre : ∀ w', w.history ⊆ w'.history → VersionPre start op w')
    (hpost : ∀ w₁ w₂ reply choice, w.history ⊆ w₁.history → Versioned start w₁ → Versioned start w₂ →
      serve config i w₁ op choice = some (w₂, reply) → post reply w₂)
    (hstable : ∀ reply w₂ w₃, w₂.history ⊆ w₃.history → post reply w₂ → post reply w₃) :
    (versionProtocol config allowed start).Secured i post (Task.call op) w := by
  refine Protocol.Secured.await (fun w' hrely _ => hpre w' hrely) ?_
  rintro w₁ w₂ reply hrely hinv ⟨choice, -, hserve⟩ hinv'
  exact .done fun w₃ hrely' _ => hstable reply w₂ w₃ hrely' (hpost w₁ w₂ reply choice hrely hinv hinv' hserve)

/-- When a task ends, the history has only grown. -/
theorem versioned_frame {t : GatewayTask α} {post : α → GatewayWorld ι → Prop}
    (h : (versionProtocol config allowed start).Secured i post t w) :
    (versionProtocol config allowed start).Secured i (fun a w' => post a w' ∧ w.history ⊆ w'.history) t w :=
  h.frame (fun start w' => start.history ⊆ w'.history) (List.Subset.refl w.history)
    (fun _ _ hsub hrely => List.Subset.trans hsub hrely)
    (fun _ _ _ _ hsub ⟨_, _, hserve⟩ => List.Subset.trans hsub (serve_subset hserve))

/-- Sequencing: the continuation also knows that the history has only grown. -/
theorem versioned_bind {t : GatewayTask α} {next : α → GatewayTask β} {post : α → GatewayWorld ι → Prop}
    {post' : β → GatewayWorld ι → Prop} (h : (versionProtocol config allowed start).Secured i post t w)
    (hinv : Versioned start w)
    (hnext : ∀ a w', Versioned start w' → post a w' → w.history ⊆ w'.history →
      (versionProtocol config allowed start).Secured i post' (next a) w') :
    (versionProtocol config allowed start).Secured i post' (t.bind next) w :=
  (versioned_frame h).bind hinv fun a w' hinv' hpost => hnext a w' hinv' hpost.1 hpost.2

/-- A task which replaces nothing. -/
inductive ReplacesNothing : GatewayTask α → Prop
  | done (value : α) : ReplacesNothing (.done value)
  | await {op : GatewayOp} {resume : op.Reply → GatewayTask α}
      (hop : ∀ expected replacement, op ≠ .updateRow expected replacement)
      (hrest : ∀ reply, ReplacesNothing (resume reply)) : ReplacesNothing (.await op resume)

theorem ReplacesNothing.call {op : GatewayOp} (hop : ∀ expected replacement, op ≠ .updateRow expected replacement) :
    ReplacesNothing (Task.call op) := .await hop .done

theorem ReplacesNothing.bind {t : GatewayTask α} {next : α → GatewayTask β} (h : ReplacesNothing t)
    (hnext : ∀ a, ReplacesNothing (next a)) : ReplacesNothing (t.bind next) := by
  induction h with
  | done value => exact hnext value
  | await hop _ ih => exact .await hop ih

/-- A task which replaces nothing owes nothing. -/
theorem ReplacesNothing.secured {t : GatewayTask α} (h : ReplacesNothing t) :
    (versionProtocol config allowed start).Secured i (fun _ _ => True) t w := by
  induction h generalizing w with
  | done value => exact .done fun _ _ _ => trivial
  | @await op resume hop _ ih =>
    refine .await (fun w' _ _ => ?_) fun _ w' reply _ _ _ _ => ih reply
    cases op with
    | updateRow expected replacement => exact absurd rfl (hop expected replacement)
    | _ => trivial

end Rules

end Voicetext.Gateway
