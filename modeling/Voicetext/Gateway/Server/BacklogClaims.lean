import Voicetext.Gateway.Runs
import Voicetext.Gateway.Server.BacklogRecovery
import Voicetext.Gateway.VersionedCalls

/-!
# Claims of the backlog worker

A page lists the ledger as it was at one moment, so a claimable row behind the cursor is on the page, is beyond its
end or was claimed already. A row which is visited is claimed by the visit or by whoever was faster. By induction on
the pages no claimable row is left, whatever other calls insert and claim in between.
-/

namespace Voicetext.Gateway.Server

open Voicetext.Common Voicetext.Speech.Domain Voicetext.Speech.Application Voicetext.Gateway
  Voicetext.Gateway.Storage Voicetext.Gateway.Contracts

/-- Whether the gateway no longer took the candidate, or its ledger or spool failed it. -/
def VisitOutcome.disturbed : VisitOutcome → Bool
  | noSlots => true
  | executed outcome => isPortFailure outcome
  | unknownProfile | unconfigured => false

/-- The row's contract is served and has a recognizer. -/
def BacklogGateway.Serves (state : BacklogGateway) (row : BatchJobSnapshot) : Prop :=
  ∃ identity, identityForProfile row.job.profile = some identity ∧ state.configured identity = true

section Page

variable {ledger : JobTable} {after : Option BatchJobId} {head : BatchJobId} {limit : ℕ} {row : BatchJobSnapshot}

/-- The rows a page lists in identity order. -/
theorem recoveryPage_sorted :
    (JobTable.recoveryPage ledger after (some head) limit).Pairwise fun a b => a.id.asStr < b.id.asStr :=
  (ledger.sorted.filter _).sublist (List.take_sublist _ _)

theorem mem_recoveryPage (h : row ∈ JobTable.recoveryPage ledger after (some head) limit) :
    row ∈ ledger.rows ∧ (∀ id ∈ after, id.asStr < row.id.asStr) ∧ row.id.asStr ≤ head.asStr := by
  obtain ⟨hrow, hlisted⟩ := List.mem_filter.mp (List.mem_of_mem_take h)
  simp only [Bool.and_eq_true, Option.all_some, decide_eq_true_eq] at hlisted
  refine ⟨hrow, fun id hid => ?_, hlisted.2⟩
  simpa [Option.mem_def.mp hid] using hlisted.1.2

/-- A recoverable row in the range of a page is on it, or is beyond the last row of a full one. -/
theorem mem_recoveryPage_or_beyond (hrow : row ∈ ledger.rows) (hrecoverable : isRecoverable row = true)
    (hafter : ∀ id ∈ after, id.asStr < row.id.asStr) (hhead : row.id.asStr ≤ head.asStr) :
    row ∈ JobTable.recoveryPage ledger after (some head) limit ∨
      (JobTable.recoveryPage ledger after (some head) limit).length = limit ∧
        ∀ last ∈ (JobTable.recoveryPage ledger after (some head) limit).getLast?, last.id.asStr < row.id.asStr := by
  obtain ⟨listed, hlisted⟩ : ∃ listed, (ledger.rows.filter fun row =>
      isRecoverable row && after.all (fun id => id.asStr < row.id.asStr) &&
        (some head).all fun id => row.id.asStr ≤ id.asStr) = listed := ⟨_, rfl⟩
  have hpage : JobTable.recoveryPage ledger after (some head) limit = listed.take limit := by
    rw [← hlisted]
    rfl
  have hall : (after.all fun id => decide (id.asStr < row.id.asStr)) = true := by
    cases after with
    | none => rfl
    | some id => exact decide_eq_true (hafter id rfl)
  have hmem : row ∈ listed := by
    rw [← hlisted]
    refine List.mem_filter.mpr ⟨hrow, ?_⟩
    rw [hrecoverable, hall]
    exact decide_eq_true hhead
  have hsorted : listed.Pairwise fun a b => a.id.asStr < b.id.asStr := by
    rw [← hlisted]
    exact ledger.sorted.filter _
  rw [hpage]
  rw [← List.take_append_drop limit listed] at hmem hsorted
  rcases List.mem_append.mp hmem with hmem | hmem
  · exact .inl hmem
  · have hlength : limit < listed.length := by
      by_contra hle
      rw [List.drop_eq_nil_of_le (not_lt.mp hle)] at hmem
      cases hmem
    exact .inr ⟨List.length_take_of_le hlength.le, fun last hlast =>
      (List.pairwise_append.mp hsorted).2.2 last (List.mem_of_getLast? hlast) row hmem⟩

end Page

variable {ι : Type*} [DecidableEq ι] {config : GatewayConfig} {allowed : Environment ι} {start : JobTable}
  {w w' : GatewayWorld ι} {i : ι} {state : BacklogGateway} {known : List (GatewayEvent ι)}

/-- An undisturbed visit leaves no claimable version of its job, as far as they were known and served. -/
def Settles (state : BacklogGateway) (start : JobTable) (known : List (GatewayEvent ι)) (visit : Visit)
    (w : GatewayWorld ι) : Prop :=
  visit.outcome.disturbed = false → ∀ old, Version start known old → old.id = visit.id → state.Serves old →
    Claimable old → ClaimWritten w.history old

omit [DecidableEq ι] in
theorem Settles.mono {visit : Visit} (h : Settles state start known visit w) (hsub : w.history ⊆ w'.history) :
    Settles state start known visit w' := fun hcalm old hold hid hserved hclaimable =>
  (h hcalm old hold hid hserved hclaimable).mono hsub

/-- A listed row is the newest version of its job, or every claimable version of the job was claimed. -/
def Listed (start : JobTable) (known : List (GatewayEvent ι)) (snapshot : BatchJobSnapshot) (w : GatewayWorld ι) :
    Prop :=
  ∀ old, Version start known old → old.id = snapshot.id → Claimable old →
    old = snapshot ∨ ClaimWritten w.history old

omit [DecidableEq ι] in
theorem Listed.mono {snapshot : BatchJobSnapshot} (h : Listed start known snapshot w)
    (hsub : w.history ⊆ w'.history) : Listed start known snapshot w' := fun old hold hid hclaimable =>
  (h old hold hid hclaimable).imp_right fun hclaimed => hclaimed.mono hsub

/-- A visit settles the row it was handed. -/
theorem executeActionable_versioned (hinv : Versioned start w) (hknown : known ⊆ w.history)
    {snapshot : BatchJobSnapshot} (hlisted : Listed start known snapshot w) (visited : ℕ) :
    (versionProtocol config allowed start).Secured i
      (fun outcome w' => Settles state start known ⟨snapshot.id, outcome⟩ w')
      (executeActionable config.codec state visited snapshot) w := by
  have hskipped {outcome : VisitOutcome} (hunserved : ¬ state.Serves snapshot) :
      Settles state start known ⟨snapshot.id, outcome⟩ w := fun _ old hold hid hserved hclaimable => by
    refine (hlisted old hold hid hclaimable).resolve_left ?_
    rintro rfl
    exact hunserved hserved
  unfold executeActionable
  cases hidentity : identityForProfile snapshot.job.profile with
  | none =>
    refine .done fun _ hsub _ => (hskipped ?_).mono hsub
    rintro ⟨identity, hserved, -⟩
    rw [hidentity] at hserved
    cases hserved
  | some identity =>
    dsimp only
    split
    · rename_i hunconfigured
      refine .done fun _ hsub _ => (hskipped ?_).mono hsub
      rintro ⟨served, hserved, hconfigured⟩
      obtain rfl := Option.some.inj (hidentity.symm.trans hserved)
      rw [hunconfigured] at hconfigured
      cases hconfigured
    split
    · exact .done fun _ _ _ hcalm => by cases hcalm
    · refine versioned_bind (ReplacesNothing.read snapshot.audio).secured hinv fun _ w₁ hinv₁ _ hsub => ?_
      refine versioned_bind (execute_versioned hinv₁ snapshot.id _) hinv₁ fun outcome w₂ _ hclaimed _ => ?_
      refine .done fun w₃ hsub₃ _ hcalm old hold hid _ hclaimable => ?_
      have hversion : Version start w₁.history old := hold.mono (List.Subset.trans hknown hsub)
      exact (hclaimed hcalm old hversion hid hclaimable).mono hsub₃

/-- The visits of a page settle its rows, in order. -/
theorem executePage_versioned (hinv : Versioned start w) (hknown : known ⊆ w.history)
    {candidates : List BatchJobSnapshot} (hlisted : ∀ snapshot ∈ candidates, Listed start known snapshot w)
    (visits : List Visit) :
    (versionProtocol config allowed start).Secured i
      (fun visits' w' => ∃ new, visits' = visits ++ new ∧ new.map Visit.id = candidates.map (·.id) ∧
        ∀ visit ∈ new, Settles state start known visit w')
      (executePage config.codec state visits candidates) w := by
  induction candidates generalizing visits w with
  | nil => exact .done fun _ _ _ => ⟨[], (List.append_nil _).symm, rfl, by simp⟩
  | cons snapshot rest ih =>
    obtain ⟨hsnapshot, hrest⟩ := List.forall_mem_cons.mp hlisted
    refine versioned_bind (executeActionable_versioned hinv hknown hsnapshot visits.length) hinv ?_
    intro outcome w₁ hinv₁ hsettles hsub
    have hpage := ih hinv₁ (List.Subset.trans hknown hsub) (fun other hother => (hrest other hother).mono hsub)
      (visits ++ [⟨snapshot.id, outcome⟩])
    refine (versioned_frame hpage).mono ?_
    rintro visits' w₂ _ ⟨⟨new, rfl, hids, hnew⟩, hsub₂⟩
    refine ⟨⟨snapshot.id, outcome⟩ :: new, by simp, by simp [hids], ?_⟩
    exact List.forall_mem_cons.mpr ⟨hsettles.mono hsub₂, hnew⟩

/-- What the page loop did from a cursor on: its visits, and what is left unclaimed behind the cursor. -/
structure DrainedFrom (state : BacklogGateway) (start : JobTable) (known : List (GatewayEvent ι))
    (head : BatchJobId) (cursor : Option BatchJobId) (visits : List Visit)
    (outcome : Option (Except StartupRecoveryFailure Unit)) (w : GatewayWorld ι) : Prop where
  increasing : visits.Pairwise fun a b => a.id.asStr < b.id.asStr
  after : ∀ visit ∈ visits, ∀ id ∈ cursor, id.asStr < visit.id.asStr
  advanced : outcome ≠ some (.error ⟨"RECOVERY_CURSOR_DID_NOT_ADVANCE"⟩)
  present : outcome ≠ some (.error ⟨"RECOVERY_CURSOR_MISSING"⟩)
  claimed : outcome = some (.ok ()) → (∀ visit ∈ visits, visit.outcome.disturbed = false) →
    ∀ old, Version start known old → Claimable old → state.Serves old → (∀ id ∈ cursor, id.asStr < old.id.asStr) →
      old.id.asStr ≤ head.asStr → ClaimWritten w.history old

omit [DecidableEq ι] in
theorem DrainedFrom.mono {head : BatchJobId} {cursor : Option BatchJobId} {visits : List Visit}
    {outcome : Option (Except StartupRecoveryFailure Unit)}
    (h : DrainedFrom state start known head cursor visits outcome w) (hsub : w.history ⊆ w'.history) :
    DrainedFrom state start known head cursor visits outcome w' :=
  ⟨h.increasing, h.after, h.advanced, h.present,
    fun hok hcalm old hold hclaimable hserved hafter hhead =>
      (h.claimed hok hcalm old hold hclaimable hserved hafter hhead).mono hsub⟩

section PageVisits

variable {listed : GatewayWorld ι} {head : BatchJobId} {cursor : Option BatchJobId} {visits : List Visit}

omit [DecidableEq ι] in
theorem visits_increasing (hids : visits.map Visit.id =
      (JobTable.recoveryPage listed.ledger cursor (some head) RESUME_PAGE_LIMIT).map (·.id)) :
    visits.Pairwise fun a b => a.id.asStr < b.id.asStr := by
  have hpage : ((JobTable.recoveryPage listed.ledger cursor (some head) RESUME_PAGE_LIMIT).map (·.id)).Pairwise
      fun a b => a.asStr < b.asStr := List.pairwise_map.mpr recoveryPage_sorted
  rw [← hids, List.pairwise_map] at hpage
  exact hpage

omit [DecidableEq ι] in
theorem visits_after (hids : visits.map Visit.id =
      (JobTable.recoveryPage listed.ledger cursor (some head) RESUME_PAGE_LIMIT).map (·.id)) :
    ∀ visit ∈ visits, ∀ id ∈ cursor, id.asStr < visit.id.asStr := by
  intro visit hvisit id hid
  have hmem : visit.id ∈ visits.map Visit.id := List.mem_map_of_mem hvisit
  rw [hids] at hmem
  obtain ⟨row, hrow, heq⟩ := List.mem_map.mp hmem
  rw [← heq]
  exact (mem_recoveryPage hrow).2.1 id hid

omit [DecidableEq ι] in
/-- A claimable version behind the cursor is claimed once the page is visited, or lies beyond a full page. -/
theorem claimed_or_beyond (hlisted : Versioned start listed) (hknown : known ⊆ listed.history)
    (hids : visits.map Visit.id =
      (JobTable.recoveryPage listed.ledger cursor (some head) RESUME_PAGE_LIMIT).map (·.id))
    (hsettles : ∀ visit ∈ visits, Settles state start known visit w) (hsub : listed.history ⊆ w.history)
    (hcalm : ∀ visit ∈ visits, visit.outcome.disturbed = false) {old : BatchJobSnapshot}
    (hold : Version start known old) (hclaimable : Claimable old) (hserved : state.Serves old)
    (hafter : ∀ id ∈ cursor, id.asStr < old.id.asStr) (hhead : old.id.asStr ≤ head.asStr) :
    ClaimWritten w.history old ∨
      (JobTable.recoveryPage listed.ledger cursor (some head) RESUME_PAGE_LIMIT).length = RESUME_PAGE_LIMIT ∧
        ∀ last ∈ (JobTable.recoveryPage listed.ledger cursor (some head) RESUME_PAGE_LIMIT).getLast?,
          last.id.asStr < old.id.asStr := by
  rcases hlisted.claimed old (hold.mono hknown) hclaimable.1 with hcurrent | hclaimed
  · have hrecoverable : isRecoverable old = true := by
      have hactionable := hclaimable.1
      rw [isRecoverable]
      cases hstate : old.job.state <;> simp_all [BatchJobState.isTerminal, BatchJobState.isActionable]
    refine (mem_recoveryPage_or_beyond (SortedTable.mem_of_lookup hcurrent) hrecoverable hafter hhead).imp_left
      fun hrow => ?_
    have hmem : old.id ∈ visits.map Visit.id := by
      rw [hids]
      exact List.mem_map_of_mem hrow
    obtain ⟨visit, hvisit, hid⟩ := List.mem_map.mp hmem
    exact hsettles visit hvisit (hcalm visit hvisit) old hold hid.symm hserved hclaimable
  · exact .inl (hclaimed.mono hsub)

end PageVisits

/-- The page loop from any cursor on. -/
theorem drainPages_versioned (hinv : Versioned start w) (hknown : known ⊆ w.history) (head : BatchJobId) (fuel : ℕ)
    (visits : List Visit) (cursor : Option BatchJobId) :
    (versionProtocol config allowed start).Secured i
      (fun result w' => ∃ new, result.1 = visits ++ new ∧
        DrainedFrom state start known head cursor new result.2 w')
      (drainPages config.codec state head fuel visits cursor) w := by
  induction fuel generalizing visits cursor w with
  | zero => exact .done fun _ _ _ => ⟨[], (List.append_nil _).symm, .nil, by simp, by simp, by simp, by simp⟩
  | succ fuel ih =>
    unfold drainPages
    refine versioned_bind (recoveryInner_versioned cursor (some head) RESUME_PAGE_LIMIT) hinv ?_
    intro reply w₁ hinv₁ hlisted hsub
    match reply with
    | .error failure =>
      exact .done fun _ _ _ => ⟨[], (List.append_nil _).symm, .nil, by simp, by simp, by simp, by simp⟩
    | .ok candidates =>
      obtain ⟨listed, hversioned, hbefore, hafter, rfl⟩ := hlisted candidates rfl
      obtain ⟨page, hpage⟩ : ∃ page,
          JobTable.recoveryPage listed.ledger cursor (some head) RESUME_PAGE_LIMIT = page := ⟨_, rfl⟩
      have hcandidates : ∀ snapshot ∈ page, Listed start known snapshot w₁ := by
        intro snapshot hsnapshot old hold hid hclaimable
        rw [← hpage] at hsnapshot
        have hversion := hold.mono (List.Subset.trans hknown hbefore)
        refine (hversioned.claimed old hversion hclaimable.1).imp (fun hcurrent => ?_) fun hclaimed =>
          hclaimed.mono hafter
        rw [hid, SortedTable.lookup_of_mem (mem_recoveryPage hsnapshot).1] at hcurrent
        exact (Option.some.inj hcurrent).symm
      rw [hpage]
      refine versioned_bind (executePage_versioned hinv₁ (List.Subset.trans hknown hsub) hcandidates visits) hinv₁ ?_
      rintro visits' w₂ hinv₂ ⟨new, rfl, hids, hsettles⟩ hsub₂
      rw [← hpage] at hids
      have hbeyond := @claimed_or_beyond ι start w₂ state known listed head cursor new hversioned
        (List.Subset.trans hknown hbefore) hids hsettles (List.Subset.trans hafter hsub₂)
      rw [hpage] at hbeyond
      split
      · -- the last page
        rename_i hshort
        have hdrained : DrainedFrom state start known head cursor new (some (.ok ())) w₂ :=
          ⟨visits_increasing hids, visits_after hids, by simp, by simp,
            fun _ hcalm old hold hclaimable hserved hfollows hhead =>
              (hbeyond hcalm hold hclaimable hserved hfollows hhead).resolve_right fun hfull => hshort.ne hfull.1⟩
        exact .done fun _ hsub₃ _ => ⟨new, rfl, hdrained.mono hsub₃⟩
      · rename_i hfull
        cases hlast : page.getLast? with
        | none =>
          rw [List.getLast?_eq_none_iff.mp hlast] at hfull
          exact absurd (by decide) hfull
        | some last =>
          have hmem : last ∈ page := List.mem_of_getLast? hlast
          rw [← hpage] at hmem
          obtain ⟨-, hcursor, -⟩ := mem_recoveryPage hmem
          have hadvance : advanceCursor cursor last.id = .ok () :=
            if_neg fun heq => lt_irrefl _ (hcursor last.id heq)
          simp only [Option.map_some, hadvance]
          have hrest := ih hinv₂ (List.Subset.trans hknown (List.Subset.trans hsub hsub₂)) (visits ++ new)
            (some last.id)
          refine (versioned_frame hrest).mono ?_
          rintro ⟨_, outcome⟩ w₃ _ ⟨⟨later, rfl, hlater⟩, hsub₃⟩
          have hnewLe : ∀ visit ∈ new, visit.id.asStr ≤ last.id.asStr := by
            intro visit hvisit
            have hid : visit.id ∈ new.map Visit.id := List.mem_map_of_mem hvisit
            rw [hids] at hid
            obtain ⟨row, hrow, heq⟩ := List.mem_map.mp hid
            rw [← heq]
            exact SortedTable.le_getLast (recoveryPage_sorted) hrow (by rw [hpage]; exact hlast)
          refine ⟨new ++ later, List.append_assoc _ _ _, ?_, ?_, hlater.advanced, hlater.present, ?_⟩
          · refine List.pairwise_append.mpr ⟨visits_increasing hids, hlater.increasing, fun a ha b hb => ?_⟩
            exact (hnewLe a ha).trans_lt (hlater.after b hb last.id rfl)
          · intro visit hvisit id hid
            rcases List.mem_append.mp hvisit with hvisit | hvisit
            · exact visits_after hids visit hvisit id hid
            · exact (hcursor id hid).trans (hlater.after visit hvisit last.id rfl)
          · intro hok hcalm old hold hclaimable hserved hfollows hhead
            have hcalmNew : ∀ visit ∈ new, visit.outcome.disturbed = false := fun visit hvisit =>
              hcalm visit (List.mem_append_left _ hvisit)
            rcases hbeyond hcalmNew hold hclaimable hserved hfollows hhead with hclaimed | ⟨-, hbeyond⟩
            · exact hclaimed.mono hsub₃
            · refine hlater.claimed hok (fun visit hvisit => hcalm visit (List.mem_append_right _ hvisit)) old hold
                hclaimable hserved (fun id hid => ?_) hhead
              obtain rfl := Option.some.inj hid
              exact hbeyond last hlast

section Runs

/-- What a task of the pool returns: a call its result, the worker its visits and how it ended. -/
abbrev BacklogResult := CallResult ⊕ (List Visit × Option (Except StartupRecoveryFailure Unit))

/-- The worker beside any calls. -/
def backlogPrograms (codec : UuidCodec) (calls : ι → GatewayCall) (state : BacklogGateway) (fuel : ℕ)
    (head : BatchJobId) : Option ι → GatewayTask (Option BacklogResult)
  | some i => ((calls i).program codec).bind fun result => .done (result.map .inl)
  | none => (drainBacklog codec state fuel head).bind fun result => .done (some (.inr result))

/-- The states of the worker and the calls. -/
abbrev BacklogState (ι : Type*) :=
  PoolState (Option ι) (GatewayWorld (Option ι)) GatewayOp GatewayOp.Reply BacklogResult

/-- The row has been moved to submitting by a write which had not happened before. -/
def ClaimedSince (before after : List (GatewayEvent ι)) (row : BatchJobSnapshot) : Prop :=
  ∃ call claimed n, .wrote call claimed ∈ after ∧ .wrote call claimed ∉ before ∧ claimed.id = row.id ∧
    claimed.job.state = .submitting n

/-- What a run of the worker did between two worlds. -/
structure Drained (state : BacklogGateway) (head : BatchJobId) (visits : List Visit)
    (outcome : Option (Except StartupRecoveryFailure Unit)) (before after : GatewayWorld ι) : Prop where
  increasing : visits.Pairwise fun a b => a.id.asStr < b.id.asStr
  advanced : outcome ≠ some (.error ⟨"RECOVERY_CURSOR_DID_NOT_ADVANCE"⟩)
  present : outcome ≠ some (.error ⟨"RECOVERY_CURSOR_MISSING"⟩)
  claimed : outcome = some (.ok ()) → (∀ visit ∈ visits, visit.outcome.disturbed = false) →
    ∀ row ∈ before.ledger.rows, Claimable row → state.Serves row → row.id.asStr ≤ head.asStr →
      ClaimedSince before.history after.history row

omit [DecidableEq ι] in
/-- A claim of a current row is newer than everything that has happened. -/
theorem claimedSince_of_claimed {before : GatewayWorld ι} {after : List (GatewayEvent ι)} {row : BatchJobSnapshot}
    (hinv : Versioned start before) (hrow : row ∈ before.ledger.rows) (h : ClaimWritten after row) :
    ClaimedSince before.history after row := by
  obtain ⟨call, claimed, n, hwrote, hid, hrevision, hstate⟩ := h
  refine ⟨call, claimed, n, hwrote, fun hpast => ?_, hid, hstate⟩
  obtain ⟨current, hcurrent, hnewest⟩ := hinv.newest claimed (.inr ⟨call, hpast⟩)
  rw [hid, SortedTable.lookup_of_mem hrow] at hcurrent
  obtain rfl := Option.some.inj hcurrent
  rcases hnewest with heq | hlt
  · rw [heq] at hrevision
    omega
  · omega

variable {calls : ι → GatewayCall} {fuel : ℕ} {head : BatchJobId} {ledger : JobTable} {spool : Spool}
  {config : GatewayConfig} {allowed : Environment (Option ι)}

/-- A pool which started from any ledger keeps its versions in order. -/
theorem backlog_safe {s : BacklogState ι}
    (h : PoolReaches (gatewayService config allowed)
      ⟨backlogPrograms config.codec calls state fuel head, ⟨ledger, spool, []⟩⟩ s) :
    (versionProtocol config allowed ledger).Safe (fun _ _ _ => True) s := by
  have hinv : Versioned ledger (⟨ledger, spool, []⟩ : GatewayWorld (Option ι)) := versioned_start ledger spool
  have hstarted : (versionProtocol config allowed ledger).Safe (fun _ _ _ => True)
      (⟨backlogPrograms config.codec calls state fuel head, ⟨ledger, spool, []⟩⟩ : BacklogState ι) := by
    refine ⟨hinv, fun i => ?_⟩
    cases i with
    | some i =>
      exact versioned_bind (program_versioned hinv (calls i)) hinv fun _ _ _ _ _ => .done fun _ _ _ => trivial
    | none =>
      exact versioned_bind (drainPages_versioned hinv (List.Subset.refl _) head fuel [] none) hinv
        fun _ _ _ _ _ => .done fun _ _ _ => trivial
  exact hstarted.reaches (fun _ _ => trivial) h

/-- The worker, started at any moment of any run beside any calls, visits each candidate at most once and in order,
its cursor always advances, and when it ends undisturbed each row up to its head which could be claimed when it
started has been claimed since. -/
theorem backlog_drained {s₁ s₂ : BacklogState ι} {visits : List Visit}
    {outcome : Option (Except StartupRecoveryFailure Unit)}
    (hbefore : PoolReaches (gatewayService config allowed)
      ⟨backlogPrograms config.codec calls state fuel head, ⟨ledger, spool, []⟩⟩ s₁)
    (hstart : s₁.pool none = backlogPrograms config.codec calls state fuel head none)
    (hrun : PoolReaches (gatewayService config allowed) s₁ s₂)
    (hdone : s₂.pool none = .done (some (.inr (visits, outcome)))) :
    Drained state head visits outcome s₁.world s₂.world := by
  have hsafe := backlog_safe hbefore
  let posts (i : Option ι) (result : Option BacklogResult) (w : GatewayWorld (Option ι)) : Prop :=
    ∀ visits outcome, i = none → result = some (.inr (visits, outcome)) →
      DrainedFrom state ledger s₁.world.history head none visits outcome w
  have hstarted : (versionProtocol config allowed ledger).Safe posts s₁ := by
    refine ⟨hsafe.inv, fun i => ?_⟩
    cases i with
    | some i => exact (hsafe.secured (some i)).mono fun _ _ _ _ _ _ hnone => by cases hnone
    | none =>
      rw [hstart]
      refine versioned_bind (drainPages_versioned hsafe.inv (List.Subset.refl _) head fuel [] none) hsafe.inv ?_
      rintro ⟨_, outcome⟩ w _ ⟨new, rfl, hdrained⟩ _
      refine .done fun _ hsub _ visits outcome' _ hresult => ?_
      obtain ⟨rfl, rfl⟩ := Prod.mk.inj (Sum.inr.inj (Option.some.inj hresult))
      exact hdrained.mono hsub
  have hnone (i : Option ι) (w : GatewayWorld (Option ι)) : posts i none w := fun _ _ _ h => by cases h
  have hdrained := (hstarted.reaches hnone hrun).post_of_done hdone visits outcome rfl rfl
  refine ⟨hdrained.increasing, hdrained.advanced, hdrained.present, ?_⟩
  intro hok hcalm row hrow hclaimable hserved hhead
  exact claimedSince_of_claimed hsafe.inv hrow
    (hdrained.claimed hok hcalm row (hsafe.inv.version row hrow) hclaimable hserved (by simp) hhead)

/-- The sample job in a state. -/
def sampleRow (jobState : BatchJobState) : BatchJobSnapshot :=
  { id := sampleId, job := ⟨sampleProfile, sampleRequest.fingerprint, jobState⟩,
    audio := sampleGateway.handle sampleId [1, 2], authoritativeDurationMillis := 1000, keyterms := [],
    providerReference := none, retryAfterMillis := none, result := none, revision := 0 }

/-- A gateway with all recognizers, which never runs out of slots. -/
def openGateway : BacklogGateway := ⟨.bits, fun _ => true, fun _ => true⟩

/-- The worker over a ledger of one row whose audio is stored, beside an execution of the same job. -/
def sampleBacklog (row : BatchJobSnapshot) : BacklogState Unit :=
  ⟨backlogPrograms sampleGateway.codec (fun _ => .execute sampleId sampleProjection) openGateway 1 sampleId,
    ⟨SortedTable.empty.put row, (sampleGateway.storeBlocking .empty sampleId [1, 2]).1, []⟩⟩

/-- The visits of a worker which has ended well. -/
def finishedVisits (s : BacklogState Unit) : Option (List Visit) :=
  match s.pool none with
  | .done (some (.inr (visits, some (.ok ())))) => some visits
  | _ => none

/-- A schedule after which the worker has ended well reaches such a state. -/
theorem finished_of_schedule (row : BatchJobSnapshot) (schedule : List (Option Unit × ServerChoice))
    (observes : List Visit → GatewayWorld (Option Unit) → Bool)
    (h : (runSchedule (serve sampleGateway) schedule (sampleBacklog row)).any
      (fun s => (finishedVisits s).any fun visits => observes visits s.world) = true) :
    ∃ (s : BacklogState Unit) (visits : List Visit),
      PoolReaches (gatewayService sampleGateway unrestricted) (sampleBacklog row) s ∧
      s.pool none = .done (some (.inr (visits, some (.ok ())))) ∧ observes visits s.world = true := by
  obtain ⟨s, hs, hfinished⟩ := (Option.any_eq_true _ _).mp h
  obtain ⟨visits, hvisits, hobserves⟩ := (Option.any_eq_true _ _).mp hfinished
  refine ⟨s, visits, PoolReaches.mono (fun i w op w' reply => ?_) (poolReaches_of_runSchedule schedule hs), ?_,
    hobserves⟩
  · rintro ⟨choice, hserve⟩
    exact ⟨choice, trivial, hserve⟩
  · unfold finishedVisits at hvisits
    split at hvisits
    · rename_i hpool
      rw [hpool, Option.some.inj hvisits]
    · cases hvisits

/-- An accepted row which another execution claims between the listing and the visit. -/
theorem backlog_drained_raced : ∃ (s : BacklogState Unit) (visits : List Visit), visits.length = 1 ∧
    (∀ visit ∈ visits, visit.outcome.disturbed = false) ∧
    Drained openGateway sampleId visits (some (.ok ())) (sampleBacklog (sampleRow .accepted)).world s.world := by
  obtain ⟨s, visits, hrun, hdone, hobserved⟩ := finished_of_schedule (sampleRow .accepted)
    [(none, .served), (some (), .served), (some (), .served), (some (), .served), (none, .served), (none, .served)]
    (fun visits _ => visits.length = 1 ∧ visits.all fun visit => !visit.outcome.disturbed) (by decide +kernel)
  simp only [decide_eq_true_eq, List.all_eq_true, Bool.not_eq_true'] at hobserved
  exact ⟨s, visits, hobserved.1, hobserved.2, backlog_drained .refl rfl hrun hdone⟩

/-- A retryable row whose attempts cannot be counted further is visited and never claimed. -/
theorem exhausted_not_claimed : ∃ (row : BatchJobSnapshot) (s : BacklogState Unit) (visits : List Visit),
    row ∈ (sampleBacklog row).world.ledger.rows ∧ row.job.state.isActionable = true ∧
      row.id.asStr ≤ sampleId.asStr ∧ openGateway.Serves row ∧
      PoolReaches (gatewayService sampleGateway unrestricted) (sampleBacklog row) s ∧
      s.pool none = .done (some (.inr (visits, some (.ok ())))) ∧
      (∀ visit ∈ visits, visit.outcome.disturbed = false) ∧
      ¬ ClaimedSince (sampleBacklog row).world.history s.world.history row := by
  let exhausted : BatchJobState := .retryable ⟨2 ^ 32 - 1, by decide, by decide⟩
    ⟨"PROVIDER_BUSY", by decide, by decide, by decide, by decide⟩
  obtain ⟨s, visits, hrun, hdone, hobserved⟩ := finished_of_schedule (sampleRow exhausted)
    [(none, .served), (none, .served), (none, .served), (none, .served)]
    (fun visits w => (visits.all fun visit => !visit.outcome.disturbed) && w.history.isEmpty) (by decide +kernel)
  simp only [Bool.and_eq_true, List.all_eq_true, Bool.not_eq_true', List.isEmpty_iff] at hobserved
  refine ⟨sampleRow exhausted, s, visits, List.mem_cons_self, rfl, le_refl _, ⟨_, rfl, rfl⟩, hrun, hdone,
    hobserved.1, ?_⟩
  rintro ⟨call, claimed, n, hwrote, -⟩
  rw [hobserved.2] at hwrote
  cases hwrote

end Runs

end Voicetext.Gateway.Server
