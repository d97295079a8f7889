import Voicetext.Common.RelyGuarantee
import Voicetext.Gateway.Server.SpoolAccounts

/-!
# What the metered calls owe each other

A call relies on rows keeping their request, on artifacts staying until their job has a row, and on its own part of
the books. Serving any operation keeps the accounts, in every state in which the gauge can be kept true.
-/

namespace Voicetext.Gateway.Server

open Voicetext.Common Voicetext.Speech.Domain Voicetext.Speech.Application Voicetext.Gateway
  Voicetext.Gateway.Storage

variable {ι : Type*}

section Protocol

variable [DecidableEq ι] {config : GatewayConfig} {sizes : AudioSizes} {w w' w'' : MeteredWorld ι} {i j : ι}

/-- What a call may rely on between two of its operations. -/
structure Undisturbed (config : GatewayConfig) (i : ι) (w w' : MeteredWorld ι) : Prop extends
    Grows config w w' where
  anchored : ∀ id handle, NamesJob config.codec handle id → Anchored w id handle → Anchored w' id handle
  created : Dues.own i w'.books.created = Dues.own i w.books.created
  admitted : Dues.own i w'.books.admitted = Dues.own i w.books.admitted
  removed : Dues.own i w'.books.removed = Dues.own i w.books.removed

theorem Undisturbed.refl (w : MeteredWorld ι) : Undisturbed config i w w :=
  ⟨.refl w, fun _ _ _ h => h, rfl, rfl, rfl⟩

theorem Undisturbed.trans (h : Undisturbed config i w w') (h' : Undisturbed config i w' w'') :
    Undisturbed config i w w'' :=
  ⟨h.toGrows.trans h'.toGrows, fun id handle hnames hhandle => h'.anchored id handle hnames
    (h.anchored id handle hnames hhandle), h'.created.trans h.created, h'.admitted.trans h.admitted,
    h'.removed.trans h.removed⟩

theorem Owes.undisturbed {created : List BatchAudioHandle} {admitted removed : List ℕ}
    (h : Owes i w created admitted removed) (hrely : Undisturbed config i w w') :
    Owes i w' created admitted removed :=
  ⟨hrely.created.trans h.created, hrely.admitted.trans h.admitted, hrely.removed.trans h.removed⟩

/-- The books of the others do not change. -/
structure SameBooks (j : ι) (w w' : MeteredWorld ι) : Prop where
  created : Dues.own j w'.books.created = Dues.own j w.books.created
  admitted : Dues.own j w'.books.admitted = Dues.own j w.books.admitted
  removed : Dues.own j w'.books.removed = Dues.own j w.books.removed

omit [DecidableEq ι] in
/-- What a job's artifact is anchored by stays, when artifacts stay and jobs keep their rows. -/
theorem anchored_of (hholds : ∀ handle, w.gateway.spool.holds handle = true → w'.gateway.spool.holds handle = true)
    (hrows : Grows config w w') {id : BatchJobId} {handle : BatchAudioHandle} (h : Anchored w id handle) :
    Anchored w' id handle := by
  refine h.imp (hholds handle) fun hrow => ?_
  obtain ⟨row, hlookup⟩ := Option.isSome_iff_exists.mp hrow
  obtain ⟨hmem, hid⟩ := SortedTable.lookup_eq_some_iff.mp hlookup
  obtain ⟨current, hcurrent, -⟩ := hrows.recorded row (recorded_of_mem hmem)
  rw [← hid, hcurrent]
  rfl

omit [DecidableEq ι] in
/-- A recorded request's job has a row. -/
theorem Recorded.isSome {row : BatchJobSnapshot} (h : Recorded w row) :
    (w.gateway.ledger.lookup row.id.asStr).isSome = true := by
  obtain ⟨current, hcurrent, -⟩ := h
  rw [hcurrent]
  rfl

/-- Only a removal takes an artifact away, and then its job has a row. -/
theorem anchored_of_serve (h : MeteredInv config sizes w) {op : MeteredOp} {choice : ServerChoice}
    {reply : op.Reply} (hpre : MeteredPre config sizes i op w)
    (hserve : serveMetered config i w op choice = some (w', reply)) (hok : succeeds op reply = true)
    {id : BatchJobId} {handle : BatchAudioHandle} (hnames : NamesJob config.codec handle id)
    (hanchored : Anchored w id handle) : Anchored w' id handle := by
  have hgrows : Grows config w w' := grows_of_serve hserve hok
  have huntouched (hstep : Untouched i w w') : Anchored w' id handle :=
    anchored_of (fun other hother => by rw [Spool.holds, hstep.artifacts]; exact hother) hgrows hanchored
  cases op with
  | spoolAdmitted bytes =>
    obtain ⟨rfl, -⟩ := Prod.mk.inj (Option.some.inj hserve)
    exact hanchored
  | spoolTerminalCleaned bytes =>
    obtain ⟨rfl, -⟩ := Prod.mk.inj (Option.some.inj hserve)
    exact hanchored
  | port op =>
    cases op with
    | selectRow id => exact huntouched (selectRow_spec hserve hok).1
    | selectRecoveryHead =>
      obtain ⟨gateway, hquery, rfl⟩ := serve_port hserve
      exact huntouched (query_spec hquery hok).1
    | selectRecoveryPage after through limit => exact huntouched (selectRecoveryPage_spec hserve hok).1
    | readAudio handle => exact huntouched (readAudio_spec hserve hok).1
    | recognize request => exact huntouched (recognize_spec hserve)
    | insertRow snapshot =>
      rcases insertRow_spec hserve hok with ⟨-, -, hstep⟩ | ⟨-, -, hstep⟩
      · exact anchored_of (fun other hother => by rw [Spool.holds, hstep.artifacts]; exact hother) hgrows hanchored
      · exact huntouched hstep
    | updateRow expected replacement =>
      rcases updateRow_spec hserve hok with ⟨_, _, -, -, -, -, hstep⟩ | ⟨-, hstep⟩
      · exact anchored_of (fun other hother => by rw [Spool.holds, hstep.artifacts]; exact hother) hgrows hanchored
      · exact huntouched hstep
    | storeAudio id audio =>
      rcases storeAudio_spec hserve hok with ⟨-, ⟨-, -, hstep⟩ | ⟨-, -, hstep⟩⟩
      · exact anchored_of (fun other hother => (SpoolConfig.holds_of_put hstep.artifacts other).mpr (.inr hother))
          hgrows hanchored
      · exact huntouched hstep
    | removeAudio erased =>
      obtain ⟨hstep, -⟩ := removeAudio_spec hserve hok
      by_cases heq : handle = erased
      · -- whoever removes it, the job of the artifact has a row
        subst heq
        obtain ⟨row, hrow, hjob⟩ : ∃ row, Recorded w row ∧ NamesJob config.codec handle row.id := by
          rcases hpre with ⟨row, hrow, rfl⟩ | ⟨-, -, row, hrow, hjob, -⟩
          · exact ⟨row, hrow, h.names row hrow⟩
          · exact ⟨row, hrow, hjob⟩
        rw [hnames.unique hjob]
        exact .inr (hgrows.recorded row hrow).isSome
      · rcases hanchored with hheld | hrow
        · exact .inl ((SpoolConfig.holds_of_erase hstep.artifacts handle).mpr ⟨heq, hheld⟩)
        · refine .inr ?_
          rwa [hstep.ledger]

/-- A call writes into its own part of the books. -/
theorem sameBooks_of_serve {op : MeteredOp} {choice : ServerChoice} {reply : op.Reply}
    (hserve : serveMetered config i w op choice = some (w', reply)) (hne : i ≠ j) : SameBooks j w w' := by
  cases op with
  | spoolAdmitted bytes =>
    obtain ⟨rfl, -⟩ := Prod.mk.inj (Option.some.inj hserve)
    exact ⟨rfl, Dues.own_settle_of_ne hne, rfl⟩
  | spoolTerminalCleaned bytes =>
    obtain ⟨rfl, -⟩ := Prod.mk.inj (Option.some.inj hserve)
    exact ⟨rfl, rfl, Dues.own_settle_of_ne hne⟩
  | port op =>
    obtain ⟨gateway, -, rfl⟩ := serve_port hserve
    cases op with
    | insertRow snapshot =>
      rcases reply with failure | _ | _
      · exact ⟨rfl, rfl, rfl⟩
      · exact ⟨rfl, rfl, rfl⟩
      · exact ⟨rfl, Dues.own_cons_of_ne hne, rfl⟩
    | storeAudio id audio =>
      rcases reply with failure | handle | handle
      · exact ⟨rfl, rfl, rfl⟩
      · exact ⟨Dues.own_cons_of_ne hne, rfl, rfl⟩
      · exact ⟨rfl, rfl, rfl⟩
    | removeAudio handle =>
      cases haccounted : w.accounted handle with
      | false =>
        simp only [MeteredWorld.booksAfter, haccounted, Bool.false_eq_true, if_false]
        exact ⟨Dues.own_settle_of_ne hne, rfl, rfl⟩
      | true =>
        simp only [MeteredWorld.booksAfter, haccounted, if_true]
        rcases reply with failure | _ | _
        · exact ⟨rfl, rfl, rfl⟩
        · exact ⟨rfl, rfl, Dues.own_cons_of_ne hne⟩
        · exact ⟨rfl, rfl, rfl⟩
    | _ => exact ⟨rfl, rfl, rfl⟩

/-- In which states before a step an operation may be served. -/
abbrev MeteredEnvironment (ι : Type*) := ι → MeteredWorld ι → MeteredOp → Prop

/-- Serving in a permitted state, without a failure of the ledger or the spool. -/
def meteredService (config : GatewayConfig) (allowed : MeteredEnvironment ι) :
    Service ι (MeteredWorld ι) MeteredOp MeteredOp.Reply :=
  fun i w op w' reply =>
    allowed i w op ∧ succeeds op reply = true ∧ ∃ choice, serveMetered config i w op choice = some (w', reply)

/-- The states before a step in which it keeps the gauge true. -/
def gaugeKept (config : GatewayConfig) : MeteredEnvironment ι := fun _ w op => keepsGauge config w op = true

/-- The protocol of the metered calls. -/
def meteredProtocol (ι : Type*) [DecidableEq ι] (config : GatewayConfig) (sizes : AudioSizes) :
    Protocol ι (MeteredWorld ι) MeteredOp MeteredOp.Reply where
  serves := meteredService config (gaugeKept config)
  inv := MeteredInv config sizes
  pre := MeteredPre config sizes
  rely := Undisturbed config
  rely_refl _ := Undisturbed.refl
  rely_trans := Undisturbed.trans
  serves_inv := by
    rintro i w op w' reply hinv hpre ⟨hkeeps, hok, choice, hserve⟩
    exact hinv.serve hpre hkeeps hserve hok
  serves_rely := by
    rintro i j w op w' reply hinv hpre ⟨-, hok, choice, hserve⟩ hne
    obtain ⟨hcreated, hadmitted, hremoved⟩ := sameBooks_of_serve hserve hne.symm
    exact ⟨grows_of_serve hserve hok, fun id handle hnames => anchored_of_serve hinv hpre hserve hok hnames,
      hcreated, hadmitted, hremoved⟩

end Protocol

end Voicetext.Gateway.Server
