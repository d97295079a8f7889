import Voicetext.Gateway.Runs
import Voicetext.Gateway.Server.Recovery

/-!
# Completeness of startup reconciliation

With no other writer the page loop visits every recoverable row once, in identity order. Its
invariant splits the backlog into the rows of the pages so far, which are reconciled, and the rest,
which the next page starts with; a page of fewer than a hundred rows is the last one.
-/

namespace Voicetext.Gateway.Server

open Voicetext.Common Voicetext.Speech.Domain Voicetext.Speech.Application Voicetext.Gateway
  Voicetext.Gateway.Storage Voicetext.Gateway.Contracts

variable {ι : Type*} [DecidableEq ι] {config : GatewayConfig} {call : ι} {w w' : GatewayWorld ι}

/-- The service of a call which is alone: every failure is possible, no other call interferes. -/
def alone (config : GatewayConfig) (call : ι) (w : GatewayWorld ι) (op : GatewayOp) (w' : GatewayWorld ι)
    (reply : op.Reply) : Prop := ∃ choice, serve config call w op choice = some (w', reply)

/-- Whether a row was found submitting. -/
def isSubmitting (row : BatchJobSnapshot) : Bool := row.job.state matches .submitting _

/-- What reconciliation makes of one row. -/
def reconciled (row : BatchJobSnapshot) : BatchJobSnapshot :=
  if isSubmitting row then nextRow (recovered row) else row

theorem isSubmitting_iff {row : BatchJobSnapshot} :
    isSubmitting row = true ↔ ∃ n, row.job.state = .submitting n := by
  unfold isSubmitting
  cases row.job.state <;> simp

@[simp] theorem reconciled_id (row : BatchJobSnapshot) : (reconciled row).id = row.id := by
  unfold reconciled
  split
  · rename_i hsubmitting
    obtain ⟨n, hstate⟩ := isSubmitting_iff.mp hsubmitting
    rw [recovered_of_submitting hstate]
    rfl
  · rfl

/-- An interrupted row keeps its job and attempt and becomes terminally unknown. -/
theorem reconciled_of_submitting {row : BatchJobSnapshot} {n : NonZeroU32}
    (h : row.job.state = .submitting n) :
    SameJob row (reconciled row) ∧
      (reconciled row).job.state = .outcomeUnknown n .interruptedSubmission := by
  have hsubmitting : isSubmitting row = true := isSubmitting_iff.mpr ⟨n, h⟩
  rw [reconciled, if_pos hsubmitting, recovered_of_submitting h]
  exact ⟨⟨rfl, rfl, rfl, rfl, rfl, rfl⟩, rfl⟩

theorem reconciled_of_not_submitting {row : BatchJobSnapshot} (h : isSubmitting row = false) :
    reconciled row = row := by
  simp [reconciled, h]

/-- The rows whose jobs have been visited are reconciled, the others untouched. -/
def reconcileVisited (visited : List BatchJobId) (row : BatchJobSnapshot) : BatchJobSnapshot :=
  if row.id ∈ visited then reconciled row else row

@[simp] theorem reconcileVisited_id (visited : List BatchJobId) (row : BatchJobSnapshot) :
    (reconcileVisited visited row).id = row.id := by
  unfold reconcileVisited
  split <;> simp

theorem reconcileVisited_of_not_mem {visited : List BatchJobId} {row : BatchJobSnapshot}
    (h : row.id ∉ visited) : reconcileVisited visited row = row := if_neg h

/-- Visiting a row which is not submitting changes nothing. -/
theorem reconcileVisited_append_of_not_submitting {visited : List BatchJobId}
    {row other : BatchJobSnapshot} (h : isSubmitting row = false) (heq : other.id = row.id → other = row) :
    reconcileVisited (visited ++ [row.id]) other = reconcileVisited visited other := by
  by_cases hid : other.id = row.id
  · obtain rfl := heq hid
    simp [reconcileVisited, reconciled_of_not_submitting h]
  · simp [reconcileVisited, hid]

/-- A table holds one row for each job. -/
theorem eq_of_id_eq {table : JobTable} {row other : BatchJobSnapshot} (hrow : row ∈ table.rows)
    (hother : other ∈ table.rows) (h : other.id = row.id) : other = row := by
  have hfound := SortedTable.lookup_of_mem hother
  rw [h, SortedTable.lookup_of_mem hrow] at hfound
  exact (Option.some.inj hfound).symm

section Page

variable {backlog : JobTable} {visited : List BatchJobId}

/-- The ledger while a backlog is being reconciled. -/
def Visited (backlog : JobTable) (visited : List BatchJobId) (ledger : JobTable) : Prop :=
  ledger.rows = backlog.rows.map (reconcileVisited visited)

/-- Before the first page nothing has been visited. -/
theorem Visited.nil (backlog : JobTable) : Visited backlog [] backlog := by
  rw [Visited]
  conv_lhs => rw [← List.map_id backlog.rows]
  exact List.map_congr_left fun row _ => (reconcileVisited_of_not_mem (by simp)).symm

/-- Rows of jobs which have not been visited are still as they were. -/
theorem Visited.lookup {ledger : JobTable} (h : Visited backlog visited ledger) {row : BatchJobSnapshot}
    (hrow : row ∈ backlog.rows) (hnot : row.id ∉ visited) : ledger.lookup row.id.asStr = some row := by
  refine SortedTable.lookup_of_mem ?_
  rw [h]
  exact List.mem_map.mpr ⟨row, hrow, reconcileVisited_of_not_mem hnot⟩

/-- Visiting a row which is not submitting needs no write. -/
theorem Visited.skip {ledger : JobTable} (h : Visited backlog visited ledger) {row : BatchJobSnapshot}
    (hrow : row ∈ backlog.rows) (hnot : isSubmitting row = false) :
    Visited backlog (visited ++ [row.id]) ledger := by
  rw [Visited, h]
  refine List.map_congr_left fun other hother => ?_
  exact (reconcileVisited_append_of_not_submitting hnot fun hid => eq_of_id_eq hrow hother hid).symm

/-- Writing the recovered row visits an interrupted one. -/
theorem Visited.write {ledger : JobTable} (h : Visited backlog visited ledger) {row : BatchJobSnapshot}
    (hrow : row ∈ backlog.rows) (hnot : row.id ∉ visited) (hsubmitting : isSubmitting row = true) :
    Visited backlog (visited ++ [row.id]) (ledger.put (nextRow (recovered row))) := by
  have hreconciled : nextRow (recovered row) = reconciled row := (if_pos hsubmitting).symm
  rw [hreconciled]
  have hmem : row ∈ ledger.rows := SortedTable.mem_of_lookup (h.lookup hrow hnot)
  rw [Visited, SortedTable.rows_put_of_mem ledger hmem (by rw [reconciled_id]), h, List.map_map]
  refine List.map_congr_left fun other hother => ?_
  simp only [Function.comp_apply, reconcileVisited_id, reconciled_id]
  by_cases hid : other.id = row.id
  · obtain rfl := eq_of_id_eq hrow hother hid
    simp [reconcileVisited]
  · have hstr : ¬other.id.asStr = row.id.asStr := fun heq => hid (asStr_inj heq)
    simp [reconcileVisited, hid, hstr]

/-- A compare-and-swap against the stored version stores the next one, or reports a failure. -/
theorem compareAndSwapInner_solo {expected : UInt64} {replacement current : BatchJobSnapshot}
    {reply : Except BatchJobStoreFailure BatchJobUpdateOutcome}
    (hcurrent : w.ledger.lookup replacement.id.asStr = some current)
    (hmatch : current.revision = expected ∧ sameImmutable current replacement = true)
    (hrun : Task.Solo (alone config call) w (compareAndSwapInner expected replacement) w' reply) :
    (∃ failure, reply = .error failure) ∨
      reply = .ok (.stored (nextRow replacement)) ∧ w'.ledger = w.ledger.put (nextRow replacement) := by
  obtain ⟨w₁, updated, ⟨choice, hserve⟩, hrest⟩ := Task.solo_await.mp hrun
  rcases serveStatement_cases hserve with ⟨row, hplan, rfl, rfl | ⟨failure, rfl⟩⟩ |
    ⟨rfl, ⟨hplan, rfl⟩ | ⟨failure, rfl⟩⟩
  · obtain ⟨hrevision, _, rfl, _⟩ := JobTable.updateRow_some hplan
    obtain ⟨rfl, rfl⟩ := Task.solo_done.mp hrest
    rw [nextRow, hrevision]
    exact .inr ⟨rfl, rfl⟩
  · obtain ⟨_, rfl⟩ := Task.solo_done.mp hrest
    exact .inl ⟨failure, rfl⟩
  · exact absurd hmatch (JobTable.updateRow_none hplan hcurrent)
  · obtain ⟨_, rfl⟩ := Task.solo_done.mp hrest
    exact .inl ⟨failure, rfl⟩

/-- Removing audio leaves the ledger alone. -/
theorem remove_solo {handle : BatchAudioHandle}
    {reply : Except BatchAudioSpoolFailure BatchAudioRemoveOutcome}
    (hrun : Task.Solo (alone config call) w (durableFileSpool.remove handle) w' reply) :
    w'.ledger = w.ledger := by
  obtain ⟨choice, hserve⟩ := Task.solo_call.mp hrun
  cases choice with
  | served =>
    simp only [serve, serveRemove] at hserve
    split at hserve <;> cases hserve <;> rfl
  | spoolFails failure progress => cases hserve; rfl
  | ledgerFails failure committed => cases hserve
  | answers outcome => cases hserve

/-- What a page adds to the report of a run which nothing disturbs. -/
structure PageReport (before after : BatchStartupRecovery) (page : List BatchJobSnapshot) : Prop where
  recoveredUnknown : after.recoveredUnknown.length =
    before.recoveredUnknown.length + page.countP isSubmitting
  conflicts : after.conflicts = before.conflicts
  missing : after.missing = before.missing
  nextCursor : after.nextCursor = before.nextCursor

/-- Reconciling the rest of a page, when it succeeds, visits exactly its rows. -/
theorem reconcileRest_solo {seed : BatchRecognizer GatewayOp GatewayOp.Reply}
    {report report' : BatchStartupRecovery} {page : List BatchJobSnapshot}
    (hledger : Visited backlog visited w.ledger) (hpage : ∀ row ∈ page, row ∈ backlog.rows)
    (hfresh : ∀ row ∈ page, row.id ∉ visited) (hnodup : (page.map (·.id)).Nodup)
    (hrun : Task.Solo (alone config call) w
      ((recoveryCoordinator config.codec seed).reconcileRest report page) w' (.ok report')) :
    Visited backlog (visited ++ page.map (·.id)) w'.ledger ∧ PageReport report report' page := by
  -- induction on the page: each row is visited by a write or by doing nothing
  induction page generalizing report visited w with
  | nil =>
    obtain ⟨rfl, hreport⟩ := Task.solo_done.mp hrun
    obtain rfl := Except.ok.inj hreport
    exact ⟨by simpa using hledger, ⟨by simp, rfl, rfl, rfl⟩⟩
  | cons snapshot rest ih =>
    have hsnapshot := hpage snapshot List.mem_cons_self
    have hnot := hfresh snapshot List.mem_cons_self
    obtain ⟨hhead, htail⟩ := List.nodup_cons.mp hnodup
    have hrestFresh : ∀ row ∈ rest, row.id ∉ visited ++ [snapshot.id] := by
      intro row hrow hmem
      rcases List.mem_append.mp hmem with hold | hnew
      · exact hfresh row (List.mem_cons_of_mem _ hrow) hold
      · exact hhead (List.mem_map.mpr ⟨row, hrow, List.mem_singleton.mp hnew⟩)
    have hnext {w₁ : GatewayWorld ι} {next : BatchStartupRecovery}
        (hledger₁ : Visited backlog (visited ++ [snapshot.id]) w₁.ledger)
        (hrest : Task.Solo (alone config call) w₁
          ((recoveryCoordinator config.codec seed).reconcileRest next rest) w' (.ok report')) :
        Visited backlog (visited ++ (snapshot :: rest).map (·.id)) w'.ledger ∧
          PageReport next report' rest := by
      obtain ⟨hvisited, hreport⟩ := ih hledger₁
        (fun row hrow => hpage row (List.mem_cons_of_mem _ hrow)) hrestFresh htail hrest
      exact ⟨by simpa using hvisited, hreport⟩
    have hskip (hquiet : isSubmitting snapshot = false) {next : BatchStartupRecovery}
        (hrest : Task.Solo (alone config call) w
          ((recoveryCoordinator config.codec seed).reconcileRest next rest) w' (.ok report'))
        (hnextReport : next.recoveredUnknown = report.recoveredUnknown ∧
          next.conflicts = report.conflicts ∧ next.missing = report.missing ∧
          next.nextCursor = report.nextCursor) :
        Visited backlog (visited ++ (snapshot :: rest).map (·.id)) w'.ledger ∧
          PageReport report report' (snapshot :: rest) := by
      obtain ⟨hvisited, hreport⟩ := hnext (hledger.skip hsnapshot hquiet) hrest
      obtain ⟨hrecovered, hconflicts, hmissing, hcursor⟩ := hnextReport
      refine ⟨hvisited, ?_, hreport.conflicts.trans hconflicts, hreport.missing.trans hmissing,
        hreport.nextCursor.trans hcursor⟩
      rw [hreport.recoveredUnknown, hrecovered, List.countP_cons_of_neg (by simp [hquiet])]
    unfold BatchCoordinator.reconcileRest at hrun
    cases hstate : snapshot.job.state with
    | accepted =>
      rw [hstate] at hrun
      exact hskip (by simp [isSubmitting, hstate]) hrun ⟨rfl, rfl, rfl, rfl⟩
    | retryable n failure =>
      rw [hstate] at hrun
      exact hskip (by simp [isSubmitting, hstate]) hrun ⟨rfl, rfl, rfl, rfl⟩
    | completed n =>
      rw [hstate] at hrun
      exact hskip (by simp [isSubmitting, hstate]) hrun ⟨rfl, rfl, rfl, rfl⟩
    | failed n failure =>
      rw [hstate] at hrun
      exact hskip (by simp [isSubmitting, hstate]) hrun ⟨rfl, rfl, rfl, rfl⟩
    | outcomeUnknown n reason =>
      rw [hstate] at hrun
      exact hskip (by simp [isSubmitting, hstate]) hrun ⟨rfl, rfl, rfl, rfl⟩
    | submitting n =>
      rw [hstate] at hrun
      have hsubmitting : isSubmitting snapshot = true := isSubmitting_iff.mpr ⟨n, hstate⟩
      obtain ⟨w₁, reply, hswap, hrest⟩ := Task.solo_bind.mp hrun
      have hcurrent : w.ledger.lookup (recovered snapshot).id.asStr = some snapshot :=
        hledger.lookup hsnapshot hnot
      have hmatch : snapshot.revision = snapshot.revision ∧
          sameImmutable snapshot (recovered snapshot) = true := by
        rw [recovered_of_submitting hstate]
        simp [sameImmutable]
      rcases compareAndSwapInner_solo hcurrent hmatch hswap with ⟨failure, rfl⟩ | ⟨rfl, hput⟩
      · obtain ⟨_, hreport⟩ := Task.solo_done.mp hrest
        cases hreport
      · obtain ⟨w₂, removal, hremove, hrest⟩ := Task.solo_bind.mp hrest
        have hledger₂ : Visited backlog (visited ++ [snapshot.id]) w₂.ledger := by
          rw [remove_solo hremove, hput]
          exact hledger.write hsnapshot hnot hsubmitting
        cases removal with
        | error failure =>
          obtain ⟨_, hreport⟩ := Task.solo_done.mp hrest
          cases hreport
        | ok outcome =>
          obtain ⟨hvisited, hreport⟩ := hnext hledger₂ hrest
          refine ⟨hvisited, ?_, hreport.conflicts, hreport.missing, hreport.nextCursor⟩
          rw [hreport.recoveredUnknown, List.length_append, List.countP_cons_of_pos hsubmitting,
            List.length_singleton]
          omega

variable {done rest : List BatchJobSnapshot} {through : BatchJobId}

/-- The recoverable rows of a backlog, in identity order. -/
abbrev recoverableRows (backlog : JobTable) : List BatchJobSnapshot := backlog.rows.filter isRecoverable

theorem recoverableRows_sorted (backlog : JobTable) :
    (recoverableRows backlog).Pairwise fun a b => a.id.asStr < b.id.asStr := backlog.sorted.filter _

/-- Distinct positions of a backlog hold distinct jobs. -/
theorem nodup_ids (backlog : JobTable) : ((recoverableRows backlog).map (·.id)).Nodup := by
  refine List.pairwise_map.mpr ((recoverableRows_sorted backlog).imp fun hlt heq => ?_)
  rw [heq] at hlt
  exact lt_irrefl _ hlt

/-- No recoverable row lies beyond the frozen head. -/
theorem le_recoveryHead (hhead : JobTable.recoveryHead backlog = some through) {row : BatchJobSnapshot}
    (hrow : row ∈ recoverableRows backlog) : row.id.asStr ≤ through.asStr := by
  obtain ⟨last, hlast, rfl⟩ := Option.map_eq_some_iff.mp hhead
  exact SortedTable.le_getLast (recoverableRows_sorted backlog) hrow hlast

/-- After the pages so far the next one starts exactly with the rows they left over. -/
theorem recoveryPage_visited {ledger : JobTable} (hbacklog : recoverableRows backlog = done ++ rest)
    (hledger : Visited backlog (done.map (·.id)) ledger)
    (hhead : JobTable.recoveryHead backlog = some through) (limit : ℕ) :
    JobTable.recoveryPage ledger (done.getLast?.map (·.id)) (some through) limit = rest.take limit := by
  have hsorted : (done ++ rest).Pairwise fun a b => a.id.asStr < b.id.asStr :=
    hbacklog ▸ recoverableRows_sorted backlog
  have hbeyond (row : BatchJobSnapshot) (hrow : row ∈ backlog.rows) :
      (isRecoverable (reconcileVisited (done.map (·.id)) row) &&
          (done.getLast?.map (·.id)).all (fun id => id.asStr < (reconcileVisited (done.map (·.id)) row).id.asStr) &&
          (some through).all fun id => (reconcileVisited (done.map (·.id)) row).id.asStr ≤ id.asStr) =
        ((done.getLast?.all fun last => decide (last.id.asStr < row.id.asStr)) && isRecoverable row) := by
    rw [reconcileVisited_id, Option.all_map]
    by_cases hvisited : row.id ∈ done.map (·.id)
    · -- a visited row is not beyond the cursor
      obtain ⟨version, hversion, hid⟩ := List.mem_map.mp hvisited
      cases hlast : done.getLast? with
      | none => simp [List.getLast?_eq_none_iff.mp hlast] at hversion
      | some last =>
        have hle := SortedTable.le_getLast (List.pairwise_append.mp hsorted).1 hversion hlast
        rw [hid] at hle
        have hnot : decide (last.id.asStr < row.id.asStr) = false := decide_eq_false (not_lt.mpr hle)
        simp only [Option.all_some, hnot, Bool.and_false, Bool.false_and]
    · rw [reconcileVisited_of_not_mem hvisited]
      cases hrecoverable : isRecoverable row with
      | false => simp
      | true =>
        have hle := le_recoveryHead hhead (List.mem_filter.mpr ⟨hrow, hrecoverable⟩)
        simp [hle]
  have hrest : ∀ row ∈ rest, row.id ∉ done.map (·.id) := by
    intro row hrow hmem
    obtain ⟨version, hversion, hid⟩ := List.mem_map.mp hmem
    have hlt := (List.pairwise_append.mp hsorted).2.2 version hversion row hrow
    rw [hid] at hlt
    exact lt_irrefl _ hlt
  have hmap : rest.map (reconcileVisited (done.map (·.id))) = rest := by
    conv_rhs => rw [← List.map_id rest]
    exact List.map_congr_left fun row hrow => reconcileVisited_of_not_mem (hrest row hrow)
  unfold JobTable.recoveryPage
  rw [hledger, List.filter_map]
  simp only [Function.comp_def]
  rw [List.filter_congr hbeyond, ← List.filter_filter]
  change (((recoverableRows backlog).filter _).map _).take limit = rest.take limit
  rw [hbacklog, SortedTable.filter_beyond hsorted, hmap]

/-- Listing a page, when it succeeds, reads the ledger and changes nothing. -/
theorem recoveryInner_solo {after through : Option BatchJobId} {limit : ℕ} {page : List BatchJobSnapshot}
    (hrun : Task.Solo (alone config call) w (recoveryInner config.codec after through limit) w'
      (.ok page)) : w' = w ∧ page = JobTable.recoveryPage w.ledger after through limit := by
  rcases recoveryInner_cases config.codec after through limit with ⟨failure, heq⟩ | heq
  · rw [heq] at hrun
    obtain ⟨_, hreply⟩ := Task.solo_done.mp hrun
    cases hreply
  · rw [heq] at hrun
    obtain ⟨choice, hserve⟩ := Task.solo_call.mp hrun
    obtain ⟨rfl, hreply | ⟨_, failure, hreply⟩⟩ := serveQuery_cases hserve
    · exact ⟨rfl, Except.ok.inj hreply⟩
    · cases hreply

/-- The rows of the next page are rows of the backlog, each of a new job. -/
theorem page_of_rest (hbacklog : recoverableRows backlog = done ++ rest) (limit : ℕ) :
    (∀ row ∈ rest.take limit, row ∈ backlog.rows) ∧
      (∀ row ∈ rest.take limit, row.id ∉ done.map (·.id)) ∧ ((rest.take limit).map (·.id)).Nodup := by
  have hnodup := nodup_ids backlog
  rw [hbacklog, List.map_append] at hnodup
  obtain ⟨_, hrest, hbetween⟩ := List.nodup_append.mp hnodup
  refine ⟨fun row hrow => ?_, fun row hrow hmem => ?_, ?_⟩
  · have hrecoverable : row ∈ recoverableRows backlog := by
      rw [hbacklog]
      exact List.mem_append_right done (List.mem_of_mem_take hrow)
    exact (List.mem_filter.mp hrecoverable).1
  · exact hbetween _ hmem _ (List.mem_map_of_mem (List.mem_of_mem_take hrow)) rfl
  · exact hrest.sublist ((List.take_sublist limit rest).map _)

/-- What one undisturbed page reports. -/
structure PageOutcome (rest : List BatchJobSnapshot) (report : BatchStartupRecovery) : Prop where
  recoveredUnknown : report.recoveredUnknown.length = (rest.take RECOVERY_BATCH_LIMIT).countP isSubmitting
  conflicts : report.conflicts = []
  missing : report.missing = []
  nextCursor : report.nextCursor =
    if rest.length ≥ RECOVERY_BATCH_LIMIT then (rest.take RECOVERY_BATCH_LIMIT).getLast?.map (·.id)
    else none

/-- One page, when it succeeds, visits the next hundred rows or all that are left. -/
theorem recoverStartupThrough_solo {seed : BatchRecognizer GatewayOp GatewayOp.Reply}
    {report : BatchStartupRecovery} (hbacklog : recoverableRows backlog = done ++ rest)
    (hledger : Visited backlog (done.map (·.id)) w.ledger)
    (hhead : JobTable.recoveryHead backlog = some through)
    (hrun : Task.Solo (alone config call) w ((recoveryCoordinator config.codec seed).recoverStartupThrough
      (done.getLast?.map (·.id)) through) w' (.ok report)) :
    Visited backlog ((done ++ rest.take RECOVERY_BATCH_LIMIT).map (·.id)) w'.ledger ∧
      PageOutcome rest report := by
  obtain ⟨w₁, listed, hlist, hrun⟩ := Task.solo_bind.mp hrun
  match listed with
  | .error failure =>
    obtain ⟨_, hreport⟩ := Task.solo_done.mp hrun
    cases hreport
  | .ok candidates =>
    change Task.Solo (alone config call) w (recoveryInner config.codec (done.getLast?.map (·.id))
      (some through) RECOVERY_BATCH_LIMIT) w₁ (.ok candidates) at hlist
    obtain ⟨rfl, rfl⟩ := recoveryInner_solo hlist
    rw [recoveryPage_visited hbacklog hledger hhead] at hrun
    have hpage := page_of_rest hbacklog RECOVERY_BATCH_LIMIT
    have hlength : (rest.take RECOVERY_BATCH_LIMIT).length ≥ RECOVERY_BATCH_LIMIT ↔
        rest.length ≥ RECOVERY_BATCH_LIMIT := by
      rw [List.length_take]
      omega
    rw [List.map_append]
    unfold BatchCoordinator.reconcileCandidates at hrun
    dsimp only at hrun
    by_cases hfull : rest.length ≥ RECOVERY_BATCH_LIMIT
    · rw [if_pos (hlength.mpr hfull), List.take_take, Nat.min_self] at hrun
      obtain ⟨hvisited, hreport⟩ := reconcileRest_solo hledger hpage.1 hpage.2.1 hpage.2.2 hrun
      refine ⟨hvisited, ?_, hreport.conflicts, hreport.missing, ?_⟩
      · rw [hreport.recoveredUnknown, List.length_nil, Nat.zero_add]
      · rw [hreport.nextCursor, if_pos hfull]
    · rw [if_neg (hlength.not.mpr hfull)] at hrun
      obtain ⟨hvisited, hreport⟩ := reconcileRest_solo hledger hpage.1 hpage.2.1 hpage.2.2 hrun
      refine ⟨hvisited, ?_, hreport.conflicts, hreport.missing, ?_⟩
      · rw [hreport.recoveredUnknown, List.length_nil, Nat.zero_add]
      · rw [hreport.nextCursor, if_neg hfull]

end Page

/-- The loop's state between two pages. -/
structure Paged (backlog : JobTable) (done rest : List BatchJobSnapshot)
    (state : StartupRecoverySummary × Option BatchJobId) (ledger : JobTable) : Prop where
  backlog_eq : recoverableRows backlog = done ++ rest
  cursor : state.2 = done.getLast?.map (·.id)
  visited : Visited backlog (done.map (·.id)) ledger
  full : done.length % RECOVERY_BATCH_LIMIT = 0
  pages : state.1.pages.toNat ≤ done.length / RECOVERY_BATCH_LIMIT
  recoveredUnknown : state.1.recoveredUnknown.toNat = min (done.countP isSubmitting) (2 ^ 64 - 1)
  undisturbed : state.1.conflicts = 0 ∧ state.1.missing = 0

/-- What a successful reconciliation has done to the ledger, and what its summary reports. -/
structure StartupReconciled (before after : JobTable) (summary : StartupRecoverySummary) : Prop where
  /-- Every row is what reconciliation makes of it, and no row came or went. -/
  rows : after.rows = before.rows.map reconciled
  /-- An interrupted row became terminally unknown at its attempt. -/
  interrupted : ∀ row ∈ before.rows, ∀ n, row.job.state = .submitting n →
    ∃ row', after.lookup row.id.asStr = some row' ∧ SameJob row row' ∧
      row'.job.state = .outcomeUnknown n .interruptedSubmission
  /-- Every other row is unchanged. -/
  unchanged : ∀ row ∈ before.rows, (∀ n, row.job.state ≠ .submitting n) →
    after.lookup row.id.asStr = some row
  /-- The summary counts the interrupted rows, as far as a 64-bit counter goes. -/
  recoveredUnknown : summary.recoveredUnknown.toNat = min (before.rows.countP isSubmitting) (2 ^ 64 - 1)
  pages : summary.pages.toNat ≤ (recoverableRows before).length / RECOVERY_BATCH_LIMIT + 1
  undisturbed : summary.conflicts = 0 ∧ summary.missing = 0

/-- The reconciled rows determine what happened to each row of the ledger. -/
theorem StartupReconciled.of_rows {before after : JobTable} {summary : StartupRecoverySummary}
    (hrows : after.rows = before.rows.map reconciled)
    (hrecovered : summary.recoveredUnknown.toNat = min (before.rows.countP isSubmitting) (2 ^ 64 - 1))
    (hpages : summary.pages.toNat ≤ (recoverableRows before).length / RECOVERY_BATCH_LIMIT + 1)
    (hundisturbed : summary.conflicts = 0 ∧ summary.missing = 0) :
    StartupReconciled before after summary := by
  have hlookup : ∀ row ∈ before.rows, after.lookup row.id.asStr = some (reconciled row) := by
    intro row hrow
    have hmem : reconciled row ∈ after.rows := by
      rw [hrows]
      exact List.mem_map_of_mem hrow
    rw [← reconciled_id row]
    exact SortedTable.lookup_of_mem hmem
  refine ⟨hrows, fun row hrow n hstate => ?_, fun row hrow hnot => ?_, hrecovered, hpages, hundisturbed⟩
  · obtain ⟨hsame, hunknown⟩ := reconciled_of_submitting hstate
    exact ⟨_, hlookup row hrow, hsame, hunknown⟩
  · rw [hlookup row hrow, reconciled_of_not_submitting]
    refine Bool.eq_false_iff.mpr fun hsubmitting => ?_
    obtain ⟨n, hstate⟩ := isSubmitting_iff.mp hsubmitting
    exact hnot n hstate

theorem isRecoverable_of_isSubmitting {row : BatchJobSnapshot} (h : isSubmitting row = true) :
    isRecoverable row = true := by
  obtain ⟨n, hstate⟩ := isSubmitting_iff.mp h
  simp [isRecoverable, hstate, BatchJobState.isTerminal]

/-- Once every recoverable row has been visited, the whole ledger is reconciled. -/
theorem Visited.all {backlog ledger : JobTable}
    (h : Visited backlog ((recoverableRows backlog).map (·.id)) ledger) :
    ledger.rows = backlog.rows.map reconciled := by
  rw [h]
  refine List.map_congr_left fun row hrow => ?_
  cases hsubmitting : isSubmitting row with
  | true =>
    have hmem : row ∈ recoverableRows backlog :=
      List.mem_filter.mpr ⟨hrow, isRecoverable_of_isSubmitting hsubmitting⟩
    exact if_pos (List.mem_map_of_mem hmem)
  | false => simp [reconcileVisited, reconciled_of_not_submitting hsubmitting]

/-- The interrupted rows of a ledger are interrupted rows of its backlog. -/
theorem countP_recoverableRows (backlog : JobTable) :
    (recoverableRows backlog).countP isSubmitting = backlog.rows.countP isSubmitting := by
  rw [List.countP_filter]
  refine List.countP_congr fun row _ => ?_
  simpa using isRecoverable_of_isSubmitting

section Summary

variable {summary : StartupRecoverySummary} {page : BatchStartupRecovery} {rest : List BatchJobSnapshot}

/-- A page has few rows, so counting them loses nothing. -/
theorem toNat_recoveredUnknown_addPage (h : PageOutcome rest page) :
    (summary.addPage page).recoveredUnknown.toNat =
      min (summary.recoveredUnknown.toNat + (rest.take RECOVERY_BATCH_LIMIT).countP isSubmitting)
        (2 ^ 64 - 1) := by
  have hfew : (rest.take RECOVERY_BATCH_LIMIT).countP isSubmitting < 2 ^ 64 := by
    refine lt_of_le_of_lt List.countP_le_length ?_
    rw [List.length_take]
    exact lt_of_le_of_lt (Nat.min_le_left _ _) (by decide)
  simp only [StartupRecoverySummary.addPage, toNat_saturatingAdd, h.recoveredUnknown]
  rw [UInt64.toNat_ofNat_of_lt' hfew]

theorem undisturbed_addPage (h : PageOutcome rest page)
    (hsummary : summary.conflicts = 0 ∧ summary.missing = 0) :
    (summary.addPage page).conflicts = 0 ∧ (summary.addPage page).missing = 0 := by
  simp only [StartupRecoverySummary.addPage, h.conflicts, h.missing, hsummary.1, hsummary.2]
  decide

theorem pages_addPage_le : (summary.addPage page).pages.toNat ≤ summary.pages.toNat + 1 := by
  simp only [StartupRecoverySummary.addPage, toNat_saturatingAdd]
  exact Nat.min_le_left _ _

end Summary

variable {backlog : JobTable} {through : BatchJobId} {seed : BatchRecognizer GatewayOp GatewayOp.Reply}

/-- One round leaves a hundred rows fewer to the next page, or finishes the backlog. -/
theorem reconcilePage_solo {done rest : List BatchJobSnapshot}
    {state : StartupRecoverySummary × Option BatchJobId}
    {next : (StartupRecoverySummary × Option BatchJobId) ⊕
      Except StartupRecoveryFailure StartupRecoverySummary}
    (hpaged : Paged backlog done rest state w.ledger)
    (hhead : JobTable.recoveryHead backlog = some through)
    (hrun : Task.Solo (alone config call) w (reconcilePage config.codec seed through state) w' next) :
    (∃ state', next = .inl state' ∧ RECOVERY_BATCH_LIMIT ≤ rest.length ∧
        Paged backlog (done ++ rest.take RECOVERY_BATCH_LIMIT) (rest.drop RECOVERY_BATCH_LIMIT) state'
          w'.ledger) ∨
      ∃ result, next = .inr result ∧
        ∀ summary, result = .ok summary → StartupReconciled backlog w'.ledger summary := by
  obtain ⟨summary, cursor⟩ := state
  obtain rfl : cursor = done.getLast?.map (·.id) := hpaged.cursor
  obtain ⟨w₁, reply, hpage, hrest⟩ := Task.solo_bind.mp hrun
  match reply with
  | .error failure =>
    obtain ⟨_, rfl⟩ := Task.solo_done.mp hrest
    exact .inr ⟨_, rfl, by simp⟩
  | .ok page =>
    obtain ⟨hvisited, houtcome⟩ :=
      recoverStartupThrough_solo hpaged.backlog_eq hpaged.visited hhead hpage
    have hrecovered : (summary.addPage page).recoveredUnknown.toNat =
        min ((done ++ rest.take RECOVERY_BATCH_LIMIT).countP isSubmitting) (2 ^ 64 - 1) := by
      have hbefore : summary.recoveredUnknown.toNat = _ := hpaged.recoveredUnknown
      rw [toNat_recoveredUnknown_addPage houtcome, hbefore, List.countP_append]
      omega
    have hpages : (summary.addPage page).pages.toNat ≤ done.length / RECOVERY_BATCH_LIMIT + 1 :=
      pages_addPage_le.trans (Nat.add_le_add_right hpaged.pages 1)
    have hundisturbed := undisturbed_addPage houtcome hpaged.undisturbed
    have hlimit : RECOVERY_BATCH_LIMIT = 100 := rfl
    dsimp only at hrest
    by_cases hfull : rest.length ≥ RECOVERY_BATCH_LIMIT
    · -- a full page names its last row as the next cursor
      have hne : rest.take RECOVERY_BATCH_LIMIT ≠ [] := by
        intro hnil
        have hlength := congrArg List.length hnil
        rw [List.length_take, List.length_nil] at hlength
        omega
      obtain ⟨last, hlast⟩ : ∃ last, (rest.take RECOVERY_BATCH_LIMIT).getLast? = some last :=
        ⟨_, List.getLast?_eq_some_getLast hne⟩
      rw [houtcome.nextCursor, if_pos hfull, hlast] at hrest
      dsimp only [Option.map_some] at hrest
      cases hadvance : advanceCursor (done.getLast?.map (·.id)) last.id with
      | error failure =>
        rw [hadvance] at hrest
        obtain ⟨_, rfl⟩ := Task.solo_done.mp hrest
        exact .inr ⟨_, rfl, by simp⟩
      | ok _ =>
        rw [hadvance] at hrest
        obtain ⟨rfl, rfl⟩ := Task.solo_done.mp hrest
        have hlength : (done ++ rest.take RECOVERY_BATCH_LIMIT).length =
            done.length + RECOVERY_BATCH_LIMIT := by
          rw [List.length_append, List.length_take, Nat.min_eq_left hfull]
        refine .inl ⟨_, rfl, hfull, ?_, ?_, hvisited, ?_, ?_, hrecovered, hundisturbed⟩
        · rw [List.append_assoc, List.take_append_drop, hpaged.backlog_eq]
        · rw [List.getLast?_append, hlast]
          rfl
        · rw [hlength, Nat.add_mod_right, hpaged.full]
        · rw [hlength, Nat.add_div_right _ (by decide)]
          exact hpages
    · rw [houtcome.nextCursor, if_neg hfull] at hrest
      obtain ⟨rfl, rfl⟩ := Task.solo_done.mp hrest
      refine .inr ⟨_, rfl, fun final hfinal => ?_⟩
      obtain rfl := Except.ok.inj hfinal
      have htake : rest.take RECOVERY_BATCH_LIMIT = rest :=
        List.take_of_length_le (by omega)
      rw [htake, ← hpaged.backlog_eq] at hvisited hrecovered
      refine .of_rows hvisited.all ?_ ?_ hundisturbed
      · rw [hrecovered, countP_recoverableRows]
      · rw [hpaged.backlog_eq, List.length_append]
        refine hpages.trans (Nat.add_le_add_right (Nat.div_le_div_right ?_) 1)
        omega

/-- The page loop comes to an end within one round more than there are full pages. -/
theorem reconcilePages_solo {fuel : ℕ}
    {result : Option (Except StartupRecoveryFailure StartupRecoverySummary)}
    (hhead : JobTable.recoveryHead w.ledger = some through)
    (hfuel : (recoverableRows w.ledger).length / RECOVERY_BATCH_LIMIT + 1 ≤ fuel)
    (hrun : Task.Solo (alone config call) w
      (Task.loop (reconcilePage config.codec seed through) fuel ({}, none)) w' result) :
    ∃ finished, result = some finished ∧
      ∀ summary, finished = .ok summary → StartupReconciled w.ledger w'.ledger summary := by
  -- the variant is the number of pages the rest of the backlog still fills
  let holds (k : ℕ) (state : StartupRecoverySummary × Option BatchJobId) (world : GatewayWorld ι) : Prop :=
    ∃ done rest, Paged w.ledger done rest state world.ledger ∧ rest.length / RECOVERY_BATCH_LIMIT + 1 ≤ k
  have hlimit : RECOVERY_BATCH_LIMIT = 100 := rfl
  refine Task.solo_loop holds (fun finished world =>
    ∀ summary, finished = .ok summary → StartupReconciled w.ledger world.ledger summary) ?_ ?_ hfuel
    ⟨[], recoverableRows w.ledger, ?_, le_rfl⟩ hrun
  · rintro state world ⟨done, rest, _, hk⟩
    exact Nat.not_succ_le_zero _ hk
  · rintro k state world world' next ⟨done, rest, hpaged, hk⟩ hround
    rcases reconcilePage_solo hpaged hhead hround with ⟨state', rfl, hfull, hnext⟩ | ⟨finished, rfl, hpost⟩
    · refine .inl ⟨state', rfl, _, _, hnext, ?_⟩
      rw [hlimit] at hk hfull
      rw [List.length_drop, hlimit]
      omega
    · exact .inr ⟨finished, rfl, hpost⟩
  · exact ⟨rfl, rfl, .nil w.ledger, rfl, le_rfl, rfl, rfl, rfl⟩

/-- A ledger without recoverable rows is reconciled as it is. -/
theorem startupReconciled_of_empty {ledger : JobTable} (hhead : JobTable.recoveryHead ledger = none) :
    StartupReconciled ledger ledger {} := by
  have hempty : recoverableRows ledger = [] := by
    simpa [JobTable.recoveryHead] using hhead
  have hnone : ledger.rows.countP isSubmitting = 0 := by
    rw [← countP_recoverableRows, hempty]
    rfl
  refine .of_rows ?_ ?_ (Nat.zero_le _) ⟨rfl, rfl⟩
  · conv_lhs => rw [← List.map_id ledger.rows]
    refine List.map_congr_left fun row hrow => (reconciled_of_not_submitting ?_).symm
    exact Bool.eq_false_iff.mpr (List.countP_eq_zero.mp hnone row hrow)
  · rw [hnone]
    rfl

/-- With no other writer, reconciliation comes to an end within one page more than there are full
pages, and when it succeeds no interrupted row is left and no other row has changed. -/
theorem reconcileStartup_complete {fuel : ℕ} {state : GatewayServer}
    {result : Option (GatewayServer × Except StartupRecoveryFailure StartupRecoveryPlan)}
    (hfuel : (recoverableRows w.ledger).length / RECOVERY_BATCH_LIMIT + 1 ≤ fuel)
    (hrun : Task.Solo (alone config call) w (reconcileStartup config.codec fuel state) w' result) :
    ∃ state' outcome, result = some (state', outcome) ∧
      ∀ plan, outcome = .ok plan → StartupReconciled w.ledger w'.ledger plan.summary := by
  obtain ⟨w₁, head, hquery, hrun⟩ := Task.solo_bind.mp hrun
  obtain ⟨choice, hserve⟩ := Task.solo_call.mp hquery
  obtain ⟨rfl, rfl | ⟨_, failure, rfl⟩⟩ := serveQuery_cases hserve
  · cases hhead : JobTable.recoveryHead w₁.ledger with
    | none =>
      rw [hhead] at hrun
      obtain ⟨rfl, rfl⟩ := Task.solo_done.mp hrun
      refine ⟨_, _, rfl, fun plan hplan => ?_⟩
      obtain rfl := Except.ok.inj hplan
      exact startupReconciled_of_empty hhead
    | some through =>
      rw [hhead] at hrun
      cases hseed : firstBatchRecognizer state with
      | none =>
        rw [hseed] at hrun
        obtain ⟨_, rfl⟩ := Task.solo_done.mp hrun
        exact ⟨_, _, rfl, by simp⟩
      | some seed =>
        rw [hseed] at hrun
        obtain ⟨w₂, looped, hloop, hrun⟩ := Task.solo_bind.mp hrun
        obtain ⟨finished, rfl, hpost⟩ := reconcilePages_solo hhead hfuel hloop
        match finished with
        | .error failure =>
          obtain ⟨_, rfl⟩ := Task.solo_done.mp hrun
          exact ⟨_, _, rfl, by simp⟩
        | .ok summary =>
          obtain ⟨rfl, rfl⟩ := Task.solo_done.mp hrun
          refine ⟨_, _, rfl, fun plan hplan => ?_⟩
          obtain rfl := Except.ok.inj hplan
          exact hpost summary rfl
  · obtain ⟨_, rfl⟩ := Task.solo_done.mp hrun
    exact ⟨_, _, rfl, by simp⟩

/-- The sample job, found submitting its first attempt. -/
def interruptedRow : BatchJobSnapshot :=
  { id := sampleId, job := ⟨sampleProfile, sampleRequest.fingerprint, .submitting .MIN⟩,
    audio := sampleGateway.handle sampleId [1, 2], authoritativeDurationMillis := 1000, keyterms := [],
    providerReference := none, retryAfterMillis := none, result := none, revision := 1 }

/-- A world whose ledger holds the interrupted sample job. -/
def interruptedWorld : GatewayWorld Unit :=
  { GatewayWorld.initial with ledger := SortedTable.empty.put interruptedRow }

/-- A server with every recognizer configured. -/
def configuredServer : GatewayServer := ⟨fun _ => some providerRecognizer, false⟩

/-- The interrupted rows a successful reconciliation reports. -/
def reportedUnknown :
    Option (GatewayServer × Except StartupRecoveryFailure StartupRecoveryPlan) → Option UInt64
  | some (_, .ok plan) => some plan.summary.recoveredUnknown
  | _ => none

/-- The interrupted sample job is found and made terminally unknown. -/
theorem reconcileStartup_interrupted :
    ∃ (w' : GatewayWorld Unit) (plan : StartupRecoveryPlan),
      StartupReconciled interruptedWorld.ledger w'.ledger plan.summary ∧
        plan.summary.recoveredUnknown = 1 := by
  have hrun : (Task.replay (serve sampleGateway ()) [.served, .served, .served, .served] interruptedWorld
      (reconcileStartup sampleGateway.codec 1 configuredServer)).any
        (fun run => reportedUnknown run.2 = some 1) = true := by decide +kernel
  obtain ⟨⟨w', result⟩, hreplay, hobserved⟩ := (Option.any_eq_true _ _).mp hrun
  have hsolo : Task.Solo (alone sampleGateway ()) interruptedWorld
      (reconcileStartup sampleGateway.codec 1 configuredServer) w' result := Task.solo_of_replay _ hreplay
  obtain ⟨state', outcome, rfl, hpost⟩ := reconcileStartup_complete (by decide) hsolo
  cases outcome with
  | error failure => cases hobserved
  | ok plan => exact ⟨w', plan, hpost plan rfl, by simpa [reportedUnknown] using hobserved⟩

end Voicetext.Gateway.Server
