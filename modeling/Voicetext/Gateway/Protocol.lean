import Voicetext.Common.RelyGuarantee
import Voicetext.Gateway.Preservation

/-!
# The protocol between concurrent batch calls

What a call owes before each operation, what it may rely on in between, and the proof that serving
any operation keeps the world invariant and disturbs no other call. A call relies on one fact: the
history only grows, and only by effects of other calls.
-/

namespace Voicetext.Gateway

open Voicetext.Common Voicetext.Speech.Domain Voicetext.Speech.Application Voicetext.Gateway.Storage

section Rely

variable {ι : Type*} {call : ι} {w w' : GatewayWorld ι}

/-- Between a call's own operations the history grows by effects of other calls only. -/
def Rely (call : ι) (w w' : GatewayWorld ι) : Prop :=
  ∃ newer, w'.history = newer ++ w.history ∧ ∀ event ∈ newer, event.call ≠ call

theorem Rely.refl (w : GatewayWorld ι) : Rely call w w := ⟨[], rfl, by simp⟩

theorem Rely.trans {w'' : GatewayWorld ι} (h : Rely call w w') (h' : Rely call w' w'') :
    Rely call w w'' := by
  obtain ⟨newer, hnewer, hothers⟩ := h
  obtain ⟨newest, hnewest, hothers'⟩ := h'
  refine ⟨newest ++ newer, by rw [hnewest, hnewer, List.append_assoc], fun event hevent => ?_⟩
  rcases List.mem_append.mp hevent with hmem | hmem
  · exact hothers' event hmem
  · exact hothers event hmem

theorem Rely.subset (h : Rely call w w') : w.history ⊆ w'.history := by
  obtain ⟨newer, hnewer, _⟩ := h
  rw [hnewer]
  exact List.subset_append_right newer w.history

end Rely

variable {ι : Type*} [DecidableEq ι] {config : GatewayConfig} {allowed : Environment ι}
  {calls : ι → GatewayCall} {w w' : GatewayWorld ι} {call : ι}

/-- The snapshot an admission hands to the ledger. -/
structure AdmissionRow (snapshot : BatchJobSnapshot) : Prop where
  state : snapshot.job.state = .accepted
  revision : snapshot.revision = 0
  reference : snapshot.providerReference = none
  retryAfter : snapshot.retryAfterMillis = none
  result : snapshot.result = none

/-- What a call owes before an operation is served. -/
def Pre (calls : ι → GatewayCall) (call : ι) : GatewayOp → GatewayWorld ι → Prop
  | .insertRow snapshot, w =>
    AdmissionRow snapshot ∧ HoldsArtifact w.history call snapshot.id snapshot.audio
  | .updateRow expected replacement, w =>
    ∃ prev, Held w.history prev ∧ prev.revision = expected ∧ Proposes call w.history prev replacement
  | .removeAudio handle, w =>
    (calls call).isAdmission = true ∨
      ∃ row, Held w.history row ∧ row.job.state.isTerminal = true ∧ row.audio = handle
  | .recognize request, w =>
    (∃ claimed n, lastWritten call w.history = some claimed ∧ claimed.job.state = .submitting n ∧
      .wrote call claimed ∈ w.history ∧ Buys calls call claimed request) ∧
      ∀ claimed request outcome, .recognized call claimed request outcome ∉ w.history
  | .selectRow _, _ | .selectRecoveryHead, _ | .selectRecoveryPage _ _ _, _ | .storeAudio _ _, _
  | .readAudio _, _ => True

/-- A call's own effects are its own business. -/
theorem Rely.own_eq (h : Rely call w w') : own call w'.history = own call w.history := by
  obtain ⟨newer, hnewer, hothers⟩ := h
  have hnone : own call newer = [] := by
    simpa [own, List.filter_eq_nil_iff] using hothers
  rw [hnewer, own, List.filter_append]
  change own call newer ++ own call w.history = _
  rw [hnone, List.nil_append]

/-- Serving an operation adds at most one effect, and it is the served call's. -/
theorem serve_history {op : GatewayOp} {choice : ServerChoice} {reply : op.Reply}
    (h : serve config call w op choice = some (w', reply)) :
    w'.history = w.history ∨ ∃ event, event.call = call ∧ w'.history = event :: w.history := by
  have hstatement {planned result} (hs : serveStatement call w planned choice = some (w', result)) :
      w'.history = w.history ∨ ∃ event, event.call = call ∧ w'.history = event :: w.history := by
    rcases serveStatement_cases hs with ⟨row, _, rfl, _⟩ | ⟨rfl, _⟩
    · exact .inr ⟨_, rfl, rfl⟩
    · exact .inr ⟨_, rfl, rfl⟩
  cases op with
  | selectRow id => exact .inl (by rw [(serveQuery_cases h).1])
  | selectRecoveryHead => exact .inl (by rw [(serveQuery_cases h).1])
  | selectRecoveryPage after through limit => exact .inl (by rw [(serveQuery_cases h).1])
  | insertRow snapshot =>
    obtain ⟨⟨w₁, result⟩, hs, heq⟩ := Option.map_eq_some_iff.mp h
    obtain rfl : w₁ = w' := (Prod.mk.inj heq).1
    exact hstatement hs
  | updateRow expected replacement => exact hstatement h
  | storeAudio id audio =>
    cases choice with
    | served =>
      simp only [serve, serveStore] at h
      split at h <;> cases h
      · exact .inr ⟨_, rfl, rfl⟩
      · exact .inr ⟨_, rfl, rfl⟩
      · exact .inl rfl
    | spoolFails failure progress => cases h; exact .inl rfl
    | ledgerFails failure committed => cases h
    | answers outcome => cases h
  | readAudio handle =>
    cases choice with
    | served => cases h; exact .inl rfl
    | spoolFails failure progress => cases h; exact .inl rfl
    | ledgerFails failure committed => cases h
    | answers outcome => cases h
  | removeAudio handle =>
    cases choice with
    | served =>
      simp only [serve, serveRemove] at h
      split at h <;> cases h
      · exact .inr ⟨_, rfl, rfl⟩
      · exact .inl rfl
    | spoolFails failure progress => cases h; exact .inl rfl
    | ledgerFails failure committed => cases h
    | answers outcome => cases h
  | recognize request =>
    cases choice with
    | answers outcome => cases h; exact .inr ⟨_, rfl, rfl⟩
    | served => cases h
    | spoolFails failure progress => cases h
    | ledgerFails failure committed => cases h

/-- An inserted row is fresh, over the artifact its admission holds. -/
private theorem Inv.insert (h : Inv config allowed calls w) {snapshot row : BatchJobSnapshot}
    (hadmission : AdmissionRow snapshot) (hholds : HoldsArtifact w.history call snapshot.id snapshot.audio)
    (hplan : JobTable.insertRow config.storable w.ledger snapshot = .ok (some row)) :
    Inv config allowed calls (w.write call row) := by
  obtain ⟨habsent, rfl⟩ := JobTable.insertRow_some hplan
  obtain ⟨created, hmem⟩ := hholds.mem
  refine h.write (.inl ⟨?_, hadmission.state, hadmission.revision, ?_, hadmission.retryAfter, ?_, ?_⟩)
    fun _ => hholds
  · rw [← h.agrees]
    exact habsent
  · simp [untyped, hadmission.reference]
  · simp [untyped, hadmission.result]
  · exact h.justified.stored_names hmem

/-- An update applies to the very version its author proposed to replace. -/
private theorem Inv.update (h : Inv config allowed calls w) {expected : UInt64}
    {replacement row prev : BatchJobSnapshot} (hheld : Held w.history prev)
    (hrevision : prev.revision = expected) (hproposes : Proposes call w.history prev replacement)
    (hplan : JobTable.updateRow config.storable w.ledger expected replacement = .ok (some row)) :
    Inv config allowed calls (w.write call row) := by
  obtain ⟨hreplacement, hbound, rfl, current, hcurrent, hmatch⟩ := JobTable.updateRow_some hplan
  obtain ⟨hsame, _⟩ := hproposes.replaces.sameJob
  rw [h.agrees, hsame.id] at hcurrent
  obtain ⟨⟨writer, hwriter⟩, hid⟩ := held_of_latest hcurrent
  obtain ⟨author, hauthor⟩ := hheld
  obtain ⟨_, rfl⟩ :=
    h.justified.wrote_unique hauthor hwriter hid.symm (hrevision.trans hmatch.symm)
  have hfollows : Follows call w.history
      { untyped replacement with revision := expected + 1 } prev replacement := by
    refine ⟨?_, hproposes, by rw [nextRow, hreplacement], by rw [hreplacement]; exact hbound⟩
    change latest replacement.id w.history = some prev
    rw [hsame.id, hcurrent]
  refine h.write (.inr ⟨prev, replacement, hfollows⟩) fun hfresh => ?_
  have habsent := hfresh.absent
  rw [hfollows.latest_eq] at habsent
  cases habsent

/-- Serving any operation whose precondition holds keeps the invariant. -/
theorem Inv.serve (h : Inv config allowed calls w) {op : GatewayOp} {choice : ServerChoice}
    {reply : op.Reply} (hpre : Pre calls call op w) (hallowed : allowed call w op choice)
    (hserve : Gateway.serve config call w op choice = some (w', reply)) :
    Inv config allowed calls w' := by
  have hdeclined : Inv config allowed calls (w.record (.declined call)) :=
    h.record trivial (by simp) (by simp) (by simp) (by simp)
  have hfault {op : GatewayOp} {choice : ServerChoice} (hallowed : allowed call w op choice)
      (hisFault : choice.isFault = true) : ¬Calm config allowed := fun hcalm => by
    rw [hcalm.faultless call w op choice hallowed] at hisFault
    cases hisFault
  cases op with
  | selectRow id => rwa [(serveQuery_cases hserve).1]
  | selectRecoveryHead => rwa [(serveQuery_cases hserve).1]
  | selectRecoveryPage after through limit => rwa [(serveQuery_cases hserve).1]
  | insertRow snapshot =>
    obtain ⟨⟨w₁, result⟩, hs, heq⟩ := Option.map_eq_some_iff.mp hserve
    obtain rfl : w₁ = w' := (Prod.mk.inj heq).1
    rcases serveStatement_cases hs with ⟨row, hplan, rfl, _⟩ | ⟨rfl, _⟩
    · exact h.insert hpre.1 hpre.2 hplan
    · exact hdeclined
  | updateRow expected replacement =>
    obtain ⟨prev, hheld, hrevision, hproposes⟩ := hpre
    rcases serveStatement_cases hserve with ⟨row, hplan, rfl, _⟩ | ⟨rfl, _⟩
    · exact h.update hheld hrevision hproposes hplan
    · exact hdeclined
  | storeAudio id audio =>
    cases choice with
    | served =>
      have htimely : Calm config allowed → StoreTimely config w id audio := fun hcalm =>
        hcalm.timely call w id audio _ hallowed
      simp only [Gateway.serve, serveStore] at hserve
      rcases config.storeBlocking_cases w.spool id audio with
        ⟨failure, heq⟩ | ⟨hid, spool', ⟨heq, hheld, hartifacts⟩ | ⟨heq, hheld, hartifacts⟩⟩
      · rw [heq] at hserve
        cases hserve
        exact h
      · rw [heq] at hserve
        cases hserve
        refine h.store hid (fun other => ?_) (by rw [hheld]; rfl) htimely
        simp only [Spool.holds, hartifacts]
        refine ⟨.inr, fun hother => ?_⟩
        rcases hother with rfl | hother
        · exact hheld
        · exact hother
      · rw [heq] at hserve
        cases hserve
        exact h.store hid (SpoolConfig.holds_of_put hartifacts) (by rw [hheld]; rfl) htimely
    | spoolFails failure progress =>
      cases hserve
      exact h.storeFailed (fun other => SpoolConfig.holds_storeInterrupted id audio progress)
        (hfault hallowed rfl)
    | ledgerFails failure committed => cases hserve
    | answers outcome => cases hserve
  | readAudio handle =>
    cases choice with
    | served => cases hserve; exact h
    | spoolFails failure progress => cases hserve; exact h
    | ledgerFails failure committed => cases hserve
    | answers outcome => cases hserve
  | removeAudio handle =>
    have hsafe : CleanRollbacks allowed calls → RollbackSafe w handle := fun hclean => by
      rcases hpre with hadmission | ⟨row, hheld, hterminal, rfl⟩
      · exact hclean call w handle choice hadmission hallowed
      · exact h.rollbackSafe_of_terminal hheld hterminal
    cases choice with
    | served =>
      simp only [Gateway.serve, serveRemove] at hserve
      rcases config.removeBlocking_cases w.spool handle with
        ⟨failure, _, heq⟩ | ⟨spool', outcome, heq, hartifacts⟩
      · rw [heq] at hserve
        cases hserve
        exact h
      · rw [heq] at hserve
        cases hserve
        exact h.remove call (.inl rfl)
          (fun other hne hheld => (SpoolConfig.holds_of_erase hartifacts other).mpr ⟨hne, hheld⟩)
          (fun _ other hheld => (SpoolConfig.holds_of_erase hartifacts other).mp hheld) hsafe
    | spoolFails failure progress =>
      cases hserve
      have hnot := hfault hallowed rfl
      exact h.remove call (.inr ⟨rfl, hnot⟩)
        (fun other hne hheld => SpoolConfig.holds_removeInterrupted progress hheld hne)
        (fun hcalm => absurd hcalm hnot) hsafe
    | ledgerFails failure committed => cases hserve
    | answers outcome => cases hserve
  | recognize request =>
    obtain ⟨⟨claimed, n, hlast, hstate, hwrote, hbuys⟩, hfirst⟩ := hpre
    cases choice with
    | answers outcome =>
      cases hserve
      refine h.record ⟨⟨claimed, n, hlast, hstate, hwrote⟩, hfirst⟩ ?_ (by simp) (by simp) (by simp)
      rintro author row asked answered heq
      rw [hlast] at heq
      cases heq
      exact hbuys
    | served => cases hserve
    | spoolFails failure progress => cases hserve
    | ledgerFails failure committed => cases hserve

/-- The protocol of the batch gateway under one environment. -/
def gatewayProtocol (config : GatewayConfig) (allowed : Environment ι) (calls : ι → GatewayCall) :
    Protocol ι (GatewayWorld ι) GatewayOp GatewayOp.Reply where
  serves := gatewayService config allowed
  inv := Inv config allowed calls
  pre := Pre calls
  rely := Rely
  rely_refl _ w := Rely.refl w
  rely_trans := Rely.trans
  serves_inv := by
    rintro i w op w' reply hinv hpre ⟨choice, hallowed, hserve⟩
    exact hinv.serve hpre hallowed hserve
  serves_rely := by
    rintro i j w op w' reply - - ⟨choice, _, hserve⟩ hne
    rcases serve_history hserve with heq | ⟨event, hcall, heq⟩
    · exact ⟨[], heq, by simp⟩
    · refine ⟨[event], heq, fun other hother => ?_⟩
      rw [List.mem_singleton.mp hother, hcall]
      exact hne.symm

/-- Sequencing of gateway tasks: the continuation also knows that the history has only grown. -/
theorem secured_bind {call : ι} {α β : Type} {t : GatewayTask α} {next : α → GatewayTask β}
    {post : α → GatewayWorld ι → Prop} {post' : β → GatewayWorld ι → Prop}
    (h : (gatewayProtocol config allowed calls).Secured call post t w)
    (hinv : Inv config allowed calls w)
    (hnext : ∀ a w', Inv config allowed calls w' → post a w' → w.history ⊆ w'.history →
      (gatewayProtocol config allowed calls).Secured call post' (next a) w') :
    (gatewayProtocol config allowed calls).Secured call post' (t.bind next) w := by
  have hframe := h.frame (fun start w' => start.history ⊆ w'.history)
    (List.Subset.refl w.history)
    (fun w₁ w₂ hsub hrely => List.Subset.trans hsub (Rely.subset hrely))
    (fun w₁ op w₂ reply hsub ⟨choice, _, hserve⟩ => by
      rcases serve_history hserve with heq | ⟨event, _, heq⟩
      · rwa [heq]
      · rw [heq]
        exact List.Subset.trans hsub (List.subset_cons_self _ _))
  exact hframe.bind hinv fun a w' hinv' hpost => hnext a w' hinv' hpost.1 hpost.2

/-- Nothing has happened in the initial world, so every part of the invariant holds. -/
theorem Inv.initial : Inv config allowed calls (GatewayWorld.initial : GatewayWorld ι) := by
  refine ⟨trivial, fun id => rfl, by simp [GatewayWorld.initial],
    fun _ => ⟨by simp [GatewayWorld.initial, latest], ?_⟩,
    fun _ => ⟨by simp [GatewayWorld.initial, latest], ?_⟩⟩
  · rintro j id handle ⟨created, hhead⟩
    cases hhead
  · rintro id handle _ hholds
    cases hholds

end Voicetext.Gateway
