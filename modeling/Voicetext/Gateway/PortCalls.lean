import Voicetext.Gateway.Protocol

/-!
# What the ledger and spool ports guarantee a secured call

One rule for each port operation: what the call must know before it, and what it knows after each
reply, in terms of the call's own effects and of the row versions ever held. Failures are told
apart from refusals only where cleanup depends on it.
-/

namespace Voicetext.Gateway

open Voicetext.Common Voicetext.Speech.Domain Voicetext.Speech.Application Voicetext.Gateway.Storage

variable {ι : Type*} [DecidableEq ι] {config : GatewayConfig} {allowed : Environment ι}
  {calls : ι → GatewayCall} {w : GatewayWorld ι} {i : ι} {events : List (GatewayEvent ι)}

/-- A single operation is secured by its precondition and by what each way of serving it leaves. -/
theorem call_secured {op : GatewayOp} {post : op.Reply → GatewayWorld ι → Prop}
    (hpre : ∀ w', Rely i w w' → Pre calls i op w')
    (hpost : ∀ w₁ w₂ reply choice, Rely i w w₁ → Inv config allowed calls w₁ →
      allowed i w₁ op choice → serve config i w₁ op choice = some (w₂, reply) → post reply w₂)
    (hstable : ∀ reply w₂ w₃, Rely i w₂ w₃ → post reply w₂ → post reply w₃) :
    (gatewayProtocol config allowed calls).Secured i post (Task.call op) w := by
  refine Protocol.Secured.await (fun w' hrely _ => hpre w' hrely) ?_
  rintro w₁ w₂ reply hrely hinv ⟨choice, hallowed, hserve⟩ -
  refine .done fun w₃ hrely' _ => hstable reply w₂ w₃ hrely' ?_
  exact hpost w₁ w₂ reply choice hrely hinv hallowed hserve

omit [DecidableEq ι] in
/-- A refused or faulty choice is excluded when nothing fails. -/
theorem not_calm_of_fault {op : GatewayOp} {choice : ServerChoice} {w₁ : GatewayWorld ι}
    (hallowed : allowed i w₁ op choice) (hfault : choice.isFault = true) : ¬Calm config allowed := by
  intro hcalm
  rw [hcalm.faultless i w₁ op choice hallowed] at hfault
  cases hfault

/-- What a call knows after a load. -/
structure Loaded (config : GatewayConfig) (allowed : Environment ι) (i : ι)
    (events : List (GatewayEvent ι)) (id : BatchJobId) (start : GatewayWorld ι)
    (reply : Except BatchJobStoreFailure (Option BatchJobSnapshot)) (w : GatewayWorld ι) : Prop where
  own_eq : own i w.history = events
  held : ∀ row, reply = .ok (some row) → Held w.history row ∧ row.id = id
  present : ∀ row, Held start.history row → row.id = id → reply ≠ .ok none
  failed : ∀ failure, reply = .error failure → ¬Calm config allowed

/-- A load returns some version of the job's row. -/
theorem loadUuid_secured (hown : own i w.history = events) (id : BatchJobId) :
    (gatewayProtocol config allowed calls).Secured i (Loaded config allowed i events id w)
      (loadUuid id) w := by
  refine call_secured (fun _ _ => trivial) ?_ ?_
  · intro w₁ w₂ reply choice hrely hinv hallowed hserve
    obtain ⟨rfl, hreply⟩ := serveQuery_cases hserve
    refine ⟨hrely.own_eq.trans hown, fun row hrow => ?_, fun row hheld hid hnone => ?_,
      fun failure herror => ?_⟩
    · rcases hreply with rfl | ⟨_, failure, rfl⟩
      · have hlatest := (hinv.agrees id).symm.trans (Except.ok.inj hrow)
        exact held_of_latest hlatest
      · cases hrow
    · rcases hreply with rfl | ⟨_, failure, rfl⟩
      · obtain ⟨current, hcurrent, _⟩ := hinv.justified.precedes (hheld.mono hrely.subset)
        rw [hid, ← hinv.agrees id, Except.ok.inj hnone] at hcurrent
        cases hcurrent
      · cases hnone
    · rcases hreply with rfl | ⟨hfault, _⟩
      · cases herror
      · exact not_calm_of_fault hallowed hfault
  · intro reply w₂ w₃ hrely hpost
    exact ⟨hrely.own_eq.trans hpost.own_eq,
      fun row hrow => (hpost.held row hrow).imp_left fun hheld => hheld.mono hrely.subset,
      hpost.present, hpost.failed⟩

/-- What a call knows after a writing statement which would write the given row. -/
structure Executed (config : GatewayConfig) (allowed : Environment ι) (i : ι)
    (events : List (GatewayEvent ι)) (row : BatchJobSnapshot)
    (reply : Except BatchJobStoreFailure (Option BatchJobSnapshot)) (w : GatewayWorld ι) : Prop where
  own_eq : own i w.history = .wrote i row :: events ∨ own i w.history = .declined i :: events
  affected : ∀ written, reply = .ok (some written) →
    written = row ∧ own i w.history = .wrote i row :: events
  unaffected : reply = .ok none → own i w.history = .declined i :: events
  failed : ∀ failure, reply = .error failure → Calm config allowed →
    own i w.history = .declined i :: events

theorem Executed.stable {row : BatchJobSnapshot}
    {reply : Except BatchJobStoreFailure (Option BatchJobSnapshot)} {w' : GatewayWorld ι}
    (h : Executed config allowed i events row reply w) (hrely : Rely i w w') :
    Executed config allowed i events row reply w' := by
  constructor <;> rw [hrely.own_eq]
  · exact h.own_eq
  · exact h.affected
  · exact h.unaffected
  · exact h.failed

/-- Serving a statement leaves exactly one effect of the call, which a success reports truly. -/
private theorem executed_of_serveStatement {w₁ w₂ : GatewayWorld ι} {op : GatewayOp}
    {planned reply : Except BatchJobStoreFailure (Option BatchJobSnapshot)} {choice : ServerChoice}
    {row : BatchJobSnapshot} (hown : own i w₁.history = events)
    (hplan : ∀ written, planned = .ok (some written) → written = row)
    (hallowed : allowed i w₁ op choice)
    (hserve : serveStatement i w₁ planned choice = some (w₂, reply)) :
    Executed config allowed i events row reply w₂ := by
  rcases serveStatement_cases hserve with ⟨written, hwritten, rfl, hreply⟩ | ⟨rfl, hreply⟩
  · obtain rfl := hplan written hwritten
    have hwrite : own i (w₁.write i written).history = .wrote i written :: events :=
      (own_cons_self rfl w₁.history).trans (congrArg _ hown)
    rcases hreply with rfl | ⟨failure, rfl⟩
    · exact ⟨.inl hwrite, fun r hr => ⟨(Option.some.inj (Except.ok.inj hr)).symm, hwrite⟩, by simp, by simp⟩
    · refine ⟨.inl hwrite, by simp, by simp, fun failure' _ hcalm => ?_⟩
      cases choice with
      | served =>
        rw [hwritten] at hserve
        cases hserve
      | ledgerFails failure committed => exact absurd hcalm (not_calm_of_fault hallowed rfl)
      | spoolFails failure progress => cases hserve
      | answers outcome => cases hserve
  · have hdecline : own i (w₁.record (.declined i)).history = .declined i :: events :=
      (own_cons_self rfl w₁.history).trans (congrArg _ hown)
    rcases hreply with ⟨_, rfl⟩ | ⟨failure, rfl⟩
    · exact ⟨.inr hdecline, by simp, fun _ => hdecline, by simp⟩
    · exact ⟨.inr hdecline, by simp, by simp, fun _ _ _ => hdecline⟩

/-- What a call knows after an insert of its initial row. -/
structure Inserted (config : GatewayConfig) (allowed : Environment ι) (i : ι)
    (events : List (GatewayEvent ι)) (row : BatchJobSnapshot)
    (reply : Except BatchJobStoreFailure BatchJobInsertOutcome) (w : GatewayWorld ι) : Prop where
  own_eq : own i w.history = .wrote i row :: events ∨ own i w.history = .declined i :: events
  inserted : ∀ loaded, reply = .ok (.inserted loaded) →
    own i w.history = .wrote i row :: events ∧ Held w.history loaded ∧ loaded.id = row.id
  existing : ∀ loaded, reply = .ok (.existing loaded) →
    own i w.history = .declined i :: events ∧ Held w.history loaded ∧ loaded.id = row.id
  failed : ∀ failure, reply = .error failure → Calm config allowed →
    own i w.history = .declined i :: events

/-- The row an admission inserts. -/
def initialRow (id : BatchJobId) (profile : BatchProfile) (fingerprint : BatchRequestFingerprint)
    (audio : BatchAudioHandle) (duration : UInt64) (keyterms : List String) : BatchJobSnapshot :=
  { id, job := .accept profile fingerprint, audio, authoritativeDurationMillis := duration, keyterms,
    providerReference := none, retryAfterMillis := none, result := none, revision := 0 }

theorem held_of_own {row : BatchJobSnapshot} (h : .wrote i row ∈ own i w.history) : Held w.history row :=
  ⟨i, mem_of_mem_own h⟩

/-- An insert over a held artifact writes the initial row, or finds the row which was there first. -/
theorem insertInner_secured {id : BatchJobId} {audio : BatchAudioHandle} {created : Bool}
    {rest : List (GatewayEvent ι)} (hown : own i w.history = .stored i id audio created :: rest)
    (hinv : Inv config allowed calls w) (profile : BatchProfile) (fingerprint : BatchRequestFingerprint)
    (duration : UInt64) (keyterms : List String) :
    (gatewayProtocol config allowed calls).Secured i
      (Inserted config allowed i (.stored i id audio created :: rest)
        (initialRow id profile fingerprint audio duration keyterms))
      (insertInner id (.accept profile fingerprint) audio duration keyterms) w := by
  set row := initialRow id profile fingerprint audio duration keyterms
  set events := GatewayEvent.stored i id audio created :: rest
  have hcall : (gatewayProtocol config allowed calls).Secured i
      (fun (reply : Except BatchJobStoreFailure Bool) w =>
        ∃ result, reply = result.map Option.isSome ∧ Executed config allowed i events row result w)
      (Task.call (GatewayOp.insertRow row)) w := by
    refine call_secured (fun w' hrely => ?_) ?_ fun _ _ _ hrely ⟨result, heq, h⟩ =>
      ⟨result, heq, h.stable hrely⟩
    · refine ⟨⟨rfl, rfl, rfl, rfl, rfl⟩, created, ?_⟩
      rw [hrely.own_eq, hown]
      rfl
    · intro w₁ w₂ reply choice hrely _ hallowed hserve
      obtain ⟨⟨w₃, result⟩, hs, heq⟩ := Option.map_eq_some_iff.mp hserve
      obtain ⟨rfl, rfl⟩ := Prod.mk.inj heq
      refine ⟨result, rfl, executed_of_serveStatement (hrely.own_eq.trans hown) ?_ hallowed hs⟩
      intro written hwritten
      -- the initial row has no reference whose kind could be lost
      have hrow : untyped row = row := rfl
      rw [(JobTable.insertRow_some hwritten).2, hrow]
  refine Protocol.Secured.bind hcall hinv ?_
  rintro _ w₁ hinv₁ ⟨result, rfl, hexecuted⟩
  have hinsertedStable {reply : Except BatchJobStoreFailure BatchJobInsertOutcome} {w₂ : GatewayWorld ι}
      (h : Inserted config allowed i events row reply w₂) :
      (gatewayProtocol config allowed calls).Secured i (Inserted config allowed i events row)
        (.done reply) w₂ := by
    refine .done fun w₃ hrely _ => ?_
    have hrely' : Rely i w₂ w₃ := hrely
    exact ⟨by rw [hrely'.own_eq]; exact h.own_eq,
      fun loaded heq => by
        rw [hrely'.own_eq]
        exact (h.inserted loaded heq).imp_right (And.imp_left fun hheld => hheld.mono hrely'.subset),
      fun loaded heq => by
        rw [hrely'.own_eq]
        exact (h.existing loaded heq).imp_right (And.imp_left fun hheld => hheld.mono hrely'.subset),
      by rw [hrely'.own_eq]; exact h.failed⟩
  match result with
  | .error failure =>
    exact hinsertedStable ⟨hexecuted.own_eq, by simp, by simp,
      fun _ _ hcalm => hexecuted.failed failure rfl hcalm⟩
  | .ok written =>
    refine Protocol.Secured.bind (loadUuid_secured rfl id) hinv₁ fun loaded w₂ _ hloaded => ?_
    have hown₂ := hloaded.own_eq
    match loaded with
    | .error failure =>
      exact hinsertedStable ⟨by rw [hown₂]; exact hexecuted.own_eq, by simp, by simp,
        fun _ _ hcalm => absurd hcalm (hloaded.failed failure rfl)⟩
    | .ok none =>
      refine hinsertedStable ⟨by rw [hown₂]; exact hexecuted.own_eq, by simp, by simp, fun _ _ _ => ?_⟩
      rw [hown₂]
      refine hexecuted.own_eq.resolve_left fun hwrote => ?_
      have hheld : Held w₁.history row := held_of_own (by rw [hwrote]; exact List.mem_cons_self)
      exact hloaded.present row hheld rfl rfl
    | .ok (some current) =>
      obtain ⟨hheld, hid⟩ := hloaded.held current rfl
      match written with
      | some written =>
        have hwrote := (hexecuted.affected written rfl).2
        refine hinsertedStable ⟨.inl (hown₂.trans hwrote), fun loaded hreply => ?_, by simp, by simp⟩
        cases hreply
        exact ⟨hown₂.trans hwrote, hheld, hid⟩
      | none =>
        have hdeclined := hexecuted.unaffected rfl
        refine hinsertedStable ⟨.inr (hown₂.trans hdeclined), by simp, fun loaded hreply => ?_, by simp⟩
        cases hreply
        exact ⟨hown₂.trans hdeclined, hheld, hid⟩

/-- What a call knows after a compare-and-swap which would write the given row. -/
structure Swapped (config : GatewayConfig) (allowed : Environment ι) (i : ι)
    (events : List (GatewayEvent ι)) (row : BatchJobSnapshot)
    (reply : Except BatchJobStoreFailure BatchJobUpdateOutcome) (w : GatewayWorld ι) : Prop where
  own_eq : own i w.history = .wrote i row :: events ∨ own i w.history = .declined i :: events
  stored : ∀ stored, reply = .ok (.stored stored) →
    stored = row ∧ own i w.history = .wrote i row :: events
  conflict : ∀ current, reply = .ok (.revisionConflict current) → own i w.history = .declined i :: events
  missing : reply = .ok .missing → own i w.history = .declined i :: events
  failed : ∀ failure, reply = .error failure → Calm config allowed →
    own i w.history = .declined i :: events

theorem Swapped.stable {row : BatchJobSnapshot} {reply : Except BatchJobStoreFailure BatchJobUpdateOutcome}
    {w' : GatewayWorld ι} (h : Swapped config allowed i events row reply w) (hrely : Rely i w w') :
    Swapped config allowed i events row reply w' := by
  constructor <;> rw [hrely.own_eq]
  · exact h.own_eq
  · exact h.stored
  · exact h.conflict
  · exact h.missing
  · exact h.failed

/-- A compare-and-swap of a proposed replacement writes its next version, or nothing. -/
theorem compareAndSwapInner_secured (hown : own i w.history = events) (hinv : Inv config allowed calls w)
    {expected : UInt64} {prev replacement : BatchJobSnapshot} (hheld : Held w.history prev)
    (hrevision : prev.revision = expected) (hproposes : Proposes i w.history prev replacement) :
    (gatewayProtocol config allowed calls).Secured i
      (Swapped config allowed i events (nextRow replacement))
      (compareAndSwapInner expected replacement) w := by
  have hcall : (gatewayProtocol config allowed calls).Secured i
      (Executed config allowed i events (nextRow replacement))
      (Task.call (GatewayOp.updateRow expected replacement)) w := by
    refine call_secured (fun w' hrely => ?_) ?_ fun _ _ _ hrely h => h.stable hrely
    · exact ⟨prev, hheld.mono hrely.subset, hrevision, hproposes.mono hrely.subset⟩
    · intro w₁ w₂ reply choice hrely _ hallowed hserve
      refine executed_of_serveStatement (hrely.own_eq.trans hown) ?_ hallowed hserve
      intro written hwritten
      obtain ⟨hreplacement, _, hrow, _⟩ := JobTable.updateRow_some hwritten
      rw [hrow, nextRow, hreplacement]
  refine Protocol.Secured.bind hcall hinv ?_
  intro result w₁ hinv₁ hexecuted
  have hdone {reply : Except BatchJobStoreFailure BatchJobUpdateOutcome} {w₂ : GatewayWorld ι}
      (h : Swapped config allowed i events (nextRow replacement) reply w₂) :
      (gatewayProtocol config allowed calls).Secured i
        (Swapped config allowed i events (nextRow replacement)) (.done reply) w₂ :=
    .done fun w₃ hrely _ => h.stable hrely
  rcases result with failure | (_ | written)
  · exact hdone ⟨hexecuted.own_eq, by simp, by simp, by simp,
      fun _ _ hcalm => hexecuted.failed failure rfl hcalm⟩
  · have hdeclined := hexecuted.unaffected rfl
    refine Protocol.Secured.bind (loadUuid_secured hdeclined replacement.id) hinv₁ ?_
    intro loaded w₂ _ hloaded
    have hown₂ := hloaded.own_eq
    rcases loaded with failure | (_ | current)
    · exact hdone ⟨.inr hown₂, by simp, by simp, by simp, fun _ _ _ => hown₂⟩
    · exact hdone ⟨.inr hown₂, by simp, by simp, fun _ => hown₂, by simp⟩
    · dsimp only
      split
      · exact hdone ⟨.inr hown₂, by simp, by simp, by simp, fun _ _ _ => hown₂⟩
      · exact hdone ⟨.inr hown₂, by simp, fun _ _ => hown₂, by simp, by simp⟩
  · refine hdone ⟨hexecuted.own_eq, fun stored hstored => ?_, by simp, by simp, by simp⟩
    cases hstored
    exact hexecuted.affected written rfl

/-- A page lists row versions, and asks nothing of the call. -/
theorem recoveryInner_secured (hown : own i w.history = events) (after through : Option BatchJobId)
    (limit : ℕ) :
    (gatewayProtocol config allowed calls).Secured i
      (fun reply w => own i w.history = events ∧
        ∀ page, reply = .ok page → ∀ row ∈ page, Held w.history row)
      (recoveryInner config.codec after through limit) w := by
  have hdone {failure : BatchJobStoreFailure} : (gatewayProtocol config allowed calls).Secured i
      (fun (reply : Except BatchJobStoreFailure (List BatchJobSnapshot)) w =>
        own i w.history = events ∧ ∀ page, reply = .ok page → ∀ row ∈ page, Held w.history row)
      (.done (.error failure)) w :=
    .done fun w' hrely _ => ⟨(Rely.own_eq hrely).trans hown, by simp⟩
  have hquery : (gatewayProtocol config allowed calls).Secured i
      (fun (reply : Except BatchJobStoreFailure (List BatchJobSnapshot)) w =>
        own i w.history = events ∧ ∀ page, reply = .ok page → ∀ row ∈ page, Held w.history row)
      (Task.call (GatewayOp.selectRecoveryPage after through limit)) w := by
    refine call_secured (fun _ _ => trivial) ?_ ?_
    · intro w₁ w₂ reply choice hrely hinv _ hserve
      obtain ⟨rfl, hreply⟩ := serveQuery_cases hserve
      refine ⟨hrely.own_eq.trans hown, fun page hpage row hrow => ?_⟩
      rcases hreply with rfl | ⟨_, failure, rfl⟩
      · obtain rfl := Except.ok.inj hpage
        have hmem := (List.mem_filter.mp (List.mem_of_mem_take hrow)).1
        exact (held_of_latest (hinv.latest_of_mem hmem)).1
      · cases hpage
    · intro reply w₂ w₃ hrely hpost
      exact ⟨hrely.own_eq.trans hpost.1,
        fun page hpage row hrow => (hpost.2 page hpage row hrow).mono hrely.subset⟩
  rcases recoveryInner_cases config.codec after through limit with ⟨failure, heq⟩ | heq
  · rw [heq]
    exact hdone
  · rw [heq]
    exact hquery

/-- A load by identity, which refuses an identity that is not canonical. -/
theorem load_secured (hown : own i w.history = events) (id : BatchJobId) :
    (gatewayProtocol config allowed calls).Secured i
      (fun reply w => own i w.history = events ∧
        (∀ row, reply = .ok (some row) → Held w.history row ∧ row.id = id) ∧
        ∀ failure, reply = .error failure → config.codec.isCanonical id.asStr = true →
          ¬Calm config allowed)
      ((postgresBatchJobStore config.codec).load id) w := by
  change (gatewayProtocol config allowed calls).Secured i _
    (if config.codec.isCanonical id.asStr = true then _ else _) w
  split
  · exact (loadUuid_secured hown id).mono fun reply w _ h =>
      ⟨h.own_eq, h.held, fun failure herror _ => h.failed failure herror⟩
  · rename_i hcanonical
    exact .done fun w' hrely _ => ⟨(Rely.own_eq hrely).trans hown, by simp,
      fun _ _ h => absurd h hcanonical⟩

/-- What a call knows after a spool store. -/
def Spooled (codec : UuidCodec) (i : ι) (events : List (GatewayEvent ι)) (id : BatchJobId)
    (reply : Except BatchAudioSpoolFailure BatchAudioStoreOutcome) (w : GatewayWorld ι) : Prop :=
  match reply with
  | .ok (.stored handle) =>
    own i w.history = .stored i id handle true :: events ∧ codec.isCanonical id.asStr = true
  | .ok (.existing handle) =>
    own i w.history = .stored i id handle false :: events ∧ codec.isCanonical id.asStr = true
  | .error _ => own i w.history = events

theorem store_secured (hown : own i w.history = events) (id : BatchJobId) (audio : List UInt8) :
    (gatewayProtocol config allowed calls).Secured i (Spooled config.codec i events id)
      (durableFileSpool.store id audio) w := by
  refine call_secured (fun _ _ => trivial) ?_ ?_
  · intro w₁ w₂ reply choice hrely _ _ hserve
    have hown₁ := hrely.own_eq.trans hown
    have hstored (handle : BatchAudioHandle) (created : Bool) :
        own i (.stored i id handle created :: w₁.history) = .stored i id handle created :: events :=
      (own_cons_self rfl w₁.history).trans (congrArg _ hown₁)
    cases choice with
    | served =>
      simp only [serve, serveStore] at hserve
      rcases config.storeBlocking_cases w₁.spool id audio with
        ⟨failure, heq⟩ | ⟨hid, spool', ⟨heq, _⟩ | ⟨heq, _⟩⟩ <;> rw [heq] at hserve <;> cases hserve
      · exact hown₁
      · exact ⟨hstored _ _, hid⟩
      · exact ⟨hstored _ _, hid⟩
    | spoolFails failure progress => cases hserve; exact hown₁
    | ledgerFails failure committed => cases hserve
    | answers outcome => cases hserve
  · intro reply w₂ w₃ hrely hpost
    unfold Spooled at hpost ⊢
    rw [hrely.own_eq]
    exact hpost

theorem read_secured (hown : own i w.history = events) (handle : BatchAudioHandle) :
    (gatewayProtocol config allowed calls).Secured i (fun _ w => own i w.history = events)
      (durableFileSpool.read handle) w := by
  refine call_secured (fun _ _ => trivial) ?_ fun _ _ _ hrely hpost => hrely.own_eq.trans hpost
  intro w₁ w₂ reply choice hrely _ _ hserve
  cases choice with
  | served => cases hserve; exact hrely.own_eq.trans hown
  | spoolFails failure progress => cases hserve; exact hrely.own_eq.trans hown
  | ledgerFails failure committed => cases hserve
  | answers outcome => cases hserve

/-- Removing an artifact nobody relies on leaves the removal behind, unless the spool fails. -/
theorem remove_secured (hown : own i w.history = events) {handle : BatchAudioHandle} {id : BatchJobId}
    (hnames : NamesJob config.codec handle id)
    (howed : (calls i).isAdmission = true ∨
      ∃ row, Held w.history row ∧ row.job.state.isTerminal = true ∧ row.audio = handle) :
    (gatewayProtocol config allowed calls).Secured i
      (fun _ w => own i w.history = .removed i handle :: events ∨
        own i w.history = events ∧ ¬Calm config allowed)
      (durableFileSpool.remove handle) w := by
  refine call_secured (fun w' hrely => ?_) ?_ fun _ _ _ hrely hpost => by rwa [hrely.own_eq]
  · exact howed.imp_right fun ⟨row, hheld, h⟩ => ⟨row, hheld.mono hrely.subset, h⟩
  · intro w₁ w₂ reply choice hrely _ hallowed hserve
    have hown₁ := hrely.own_eq.trans hown
    cases choice with
    | served =>
      simp only [serve, serveRemove] at hserve
      obtain ⟨parsed, hparse, _⟩ := hnames
      rcases config.removeBlocking_cases w₁.spool handle with
        ⟨failure, herror, _⟩ | ⟨spool', outcome, heq, _⟩
      · rw [hparse] at herror
        cases herror
      · rw [heq] at hserve
        cases hserve
        exact .inl ((own_cons_self rfl w₁.history).trans (congrArg _ hown₁))
    | spoolFails failure progress =>
      cases hserve
      exact .inr ⟨hown₁, not_calm_of_fault hallowed rfl⟩
    | ledgerFails failure committed => cases hserve
    | answers outcome => cases hserve

/-- The last row a call wrote depends on its own effects only. -/
theorem lastWritten_own (history : List (GatewayEvent ι)) :
    lastWritten i (own i history) = lastWritten i history := by
  induction history with
  | nil => rfl
  | cons event rest ih =>
    by_cases hcall : event.call = i
    · rw [own_cons_self hcall]
      cases event with
      | wrote author row =>
        obtain rfl : author = i := hcall
        simp [lastWritten]
      | declined | recognized | stored | removed => exact ih
    · rw [own_cons_of_ne hcall, ih]
      cases event with
      | wrote author row =>
        have hne : ¬author = i := hcall
        simp [lastWritten, hne]
      | declined | recognized | stored | removed => rfl

/-- A call which has durably written its claim may call the provider once. -/
theorem recognize_secured {claimed : BatchJobSnapshot} {n : NonZeroU32}
    (hown : own i w.history = [.wrote i claimed]) (hstate : claimed.job.state = .submitting n)
    {request : BatchRecognitionRequest} (hbuys : Buys calls i claimed request) :
    (gatewayProtocol config allowed calls).Secured i
      (fun reply w => own i w.history = [.recognized i (some claimed) request reply, .wrote i claimed])
      (providerRecognizer.recognize request) w := by
  have hlast {w' : GatewayWorld ι} (hown' : own i w'.history = [.wrote i claimed]) :
      lastWritten i w'.history = some claimed := by
    rw [← lastWritten_own, hown']
    simp [lastWritten]
  refine call_secured (fun w' hrely => ?_) ?_ fun _ _ _ hrely hpost => by rwa [hrely.own_eq]
  · have hown' := hrely.own_eq.trans hown
    refine ⟨⟨claimed, n, hlast hown', hstate, ?_, hbuys⟩, fun claimed' request' outcome hmem => ?_⟩
    · exact mem_of_mem_own (by rw [hown']; exact List.mem_cons_self)
    · have hmine : GatewayEvent.recognized i claimed' request' outcome ∈ own i w'.history :=
        List.mem_filter.mpr ⟨hmem, by simp [GatewayEvent.call]⟩
      rw [hown'] at hmine
      simp at hmine
  · intro w₁ w₂ reply choice hrely _ _ hserve
    have hown₁ := hrely.own_eq.trans hown
    cases choice with
    | answers outcome =>
      cases hserve
      rw [hlast hown₁]
      exact (own_cons_self rfl w₁.history).trans (congrArg _ hown₁)
    | served => cases hserve
    | spoolFails failure progress => cases hserve
    | ledgerFails failure committed => cases hserve

end Voicetext.Gateway
