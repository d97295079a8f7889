import Voicetext.Gateway.Server.Batch
import Voicetext.Gateway.Server.MeteredProtocol

/-!
# The ports of the metered calls

What each operation of the ledger, the spool and the metrics leaves to the call that awaited it, whatever the others
did before and do after it: rows it may rely on, and what it owes from then on.
-/

namespace Voicetext.Gateway.Server

open Voicetext.Common Voicetext.Speech.Domain Voicetext.Speech.Application Voicetext.Gateway
  Voicetext.Gateway.Storage

variable {ι : Type*} [DecidableEq ι] {config : GatewayConfig} {sizes : AudioSizes} {w w' : MeteredWorld ι} {i : ι}
  {created : List BatchAudioHandle} {admitted removed : List ℕ}

section Rules

variable {α β : Type}

/-- A single operation is secured by its precondition and by what each way of serving it leaves. -/
theorem metered_call (op : MeteredOp) {post : op.Reply → MeteredWorld ι → Prop}
    (hpre : ∀ w', Undisturbed config i w w' → MeteredInv config sizes w' → MeteredPre config sizes i op w')
    (hpost : ∀ w₁ w₂ reply choice, Undisturbed config i w w₁ → MeteredInv config sizes w₁ →
      MeteredInv config sizes w₂ → keepsGauge config w₁ op = true →
      serveMetered config i w₁ op choice = some (w₂, reply) → succeeds op reply = true → post reply w₂)
    (hstable : ∀ reply w₂ w₃, Undisturbed config i w₂ w₃ → post reply w₂ → post reply w₃) :
    (meteredProtocol ι config sizes).Secured i post (Task.call op) w := by
  refine Protocol.Secured.await (fun w' hrely hinv => hpre w' hrely hinv) ?_
  rintro w₁ w₂ reply hrely hinv ⟨hkeeps, hok, choice, hserve⟩ hinv'
  exact .done fun w₃ hrely' _ =>
    hstable reply w₂ w₃ hrely' (hpost w₁ w₂ reply choice hrely hinv hinv' hkeeps hserve hok)

/-- Sequencing: the continuation also knows that nothing was undone. -/
theorem metered_bind {t : MeteredTask α} {next : α → MeteredTask β} {post : α → MeteredWorld ι → Prop}
    {post' : β → MeteredWorld ι → Prop} (h : (meteredProtocol ι config sizes).Secured i post t w)
    (hinv : MeteredInv config sizes w)
    (hnext : ∀ a w', MeteredInv config sizes w' → post a w' → Grows config w w' →
      (meteredProtocol ι config sizes).Secured i post' (next a) w') :
    (meteredProtocol ι config sizes).Secured i post' (t.bind next) w := by
  have hframe := h.frame (Grows config) (Grows.refl w) (fun _ _ hgrows hrely => hgrows.trans hrely.toGrows)
    (fun _ _ _ _ hgrows ⟨_, hok, _, hserve⟩ => hgrows.trans (grows_of_serve hserve hok))
  exact hframe.bind hinv fun a w' hinv' hpost => hnext a w' hinv' hpost.1 hpost.2

@[simp] theorem unmetered_bind (t : GatewayTask α) (next : α → GatewayTask β) :
    unmetered (t.bind next) = (unmetered t).bind fun a => unmetered (next a) := by
  induction t with
  | done value => rfl
  | await op resume ih => exact congrArg (Task.await (MeteredOp.port op)) (funext ih)

/-- Sequencing of programs which change no metric. -/
theorem unmetered_seq {t : GatewayTask α} {next : α → GatewayTask β} {post : α → MeteredWorld ι → Prop}
    {post' : β → MeteredWorld ι → Prop} (h : (meteredProtocol ι config sizes).Secured i post (unmetered t) w)
    (hinv : MeteredInv config sizes w)
    (hnext : ∀ a w', MeteredInv config sizes w' → post a w' → Grows config w w' →
      (meteredProtocol ι config sizes).Secured i post' (unmetered (next a)) w') :
    (meteredProtocol ι config sizes).Secured i post' (unmetered (t.bind next)) w := by
  rw [unmetered_bind]
  exact metered_bind h hinv hnext

end Rules

section Ports

/-- What a load has found: the recorded row of its job, and the one which was known already. -/
structure LoadedRow (known : MeteredWorld ι) (id : BatchJobId)
    (reply : Except BatchJobStoreFailure (Option BatchJobSnapshot)) (w : MeteredWorld ι) : Prop where
  found : ∀ row, reply = .ok (some row) → Recorded w row ∧ row.id = id
  present : ∀ row, Recorded known row → row.id = id → ∃ loaded, reply = .ok (some loaded) ∧ SameRequest row loaded

/-- What a call owes is read off the books. -/
theorem Becomes.owes {ledger : JobTable} {artifacts : SortedTable fun file : String × List UInt8 => file.1}
    {metrics : SpoolMetrics} {books : SpoolBooks ι} (h : Becomes w w' ledger artifacts metrics books)
    (hcreated : Dues.own i books.created = created) (hadmitted : Dues.own i books.admitted = admitted)
    (hremoved : Dues.own i books.removed = removed) : Owes i w' created admitted removed := by
  obtain ⟨-, -, -, -, rfl⟩ := h
  exact ⟨hcreated, hadmitted, hremoved⟩

theorem Owes.untouched (h : Owes i w created admitted removed) (hstep : Untouched i w w') :
    Owes i w' created admitted removed := hstep.owes h.created h.admitted h.removed

theorem loadUuid_metered (howes : Owes i w created admitted removed) (id : BatchJobId) :
    (meteredProtocol ι config sizes).Secured i
      (fun reply w' => Owes i w' created admitted removed ∧ LoadedRow w id reply w') (unmetered (loadUuid id)) w := by
  refine metered_call (.port (.selectRow id)) (fun _ _ _ => trivial) ?_ ?_
  · intro w₁ w₂ reply choice hrely _ _ _ hserve hok
    obtain ⟨hstep, rfl⟩ := selectRow_spec hserve hok
    refine ⟨(howes.undisturbed hrely).untouched hstep, fun row hrow => ?_, fun row hrow hid => ?_⟩
    · have hlookup := Except.ok.inj hrow
      obtain ⟨hmem, hkey⟩ := SortedTable.lookup_eq_some_iff.mp hlookup
      exact ⟨(hstep.recorded_iff row).mpr (recorded_of_mem hmem), asStr_inj hkey⟩
    · obtain ⟨current, hcurrent, hsame⟩ := hrely.recorded row hrow
      exact ⟨current, by rw [← hid, hcurrent], hsame⟩
  · intro reply w₂ w₃ hrely h
    exact ⟨h.1.undisturbed hrely, fun row hrow => (h.2.found row hrow).imp_left (hrely.recorded row), h.2.present⟩

theorem load_metered (howes : Owes i w created admitted removed) (id : BatchJobId) :
    (meteredProtocol ι config sizes).Secured i
      (fun reply w' => Owes i w' created admitted removed ∧
        ∀ row, reply = .ok (some row) → Recorded w' row ∧ row.id = id)
      (unmetered ((postgresBatchJobStore config.codec).load id)) w := by
  rw [postgresBatchJobStore]
  dsimp only
  split
  · exact (loadUuid_metered howes id).mono fun _ _ _ h => ⟨h.1, h.2.found⟩
  · exact .done fun w' hrely _ => ⟨howes.undisturbed hrely, fun row hrow => by cases hrow⟩

/-- What a call knows of the artifact it is about to insert a row for. -/
structure Holding (config : GatewayConfig) (sizes : AudioSizes) (w : MeteredWorld ι) (id : BatchJobId)
    (handle : BatchAudioHandle) (bytes : ℕ) : Prop where
  names : NamesJob config.codec handle id
  anchored : Anchored w id handle
  intact : Intact config w handle
  size : sizes.ofHandle config.codec handle = bytes

theorem Holding.undisturbed {id : BatchJobId} {handle : BatchAudioHandle} {bytes : ℕ}
    (h : Holding config sizes w id handle bytes) (hrely : Undisturbed config i w w') :
    Holding config sizes w' id handle bytes :=
  ⟨h.names, hrely.anchored id handle h.names h.anchored, hrely.intact handle h.intact, h.size⟩

omit [DecidableEq ι] in
/-- An intact artifact has the length its handle was formed for. -/
theorem MeteredInv.artifactBytes (h : MeteredInv config sizes w) {handle : BatchAudioHandle} {parsed : ParsedHandle}
    (hparsed : parseHandle config.codec handle.asStr = .ok parsed) (hintact : Intact config w handle)
    (hholds : w.gateway.spool.holds handle = true) :
    artifactBytes w.gateway.spool handle = sizes.ofHandle config.codec handle := by
  obtain ⟨file, hfile⟩ := Option.isSome_iff_exists.mp hholds
  rw [Server.artifactBytes, hfile, Option.elim_some, h.sizedFiles file (SortedTable.mem_of_lookup hfile),
    hintact file parsed hfile hparsed, AudioSizes.ofHandle, hparsed]

/-- What an insert leaves: a row of this request and its bytes to be added, or the row there was. -/
def InsertPost (i : ι) (id : BatchJobId) (handle : BatchAudioHandle) (fingerprint : BatchRequestFingerprint)
    (created : List BatchAudioHandle) (bytes : ℕ) :
    Except BatchJobStoreFailure BatchJobInsertOutcome → MeteredWorld ι → Prop
  | .ok (.inserted row), w =>
    Owes i w created [bytes] [] ∧ Recorded w row ∧ row.id = id ∧ row.audio = handle ∧
      row.job.fingerprint = fingerprint
  | .ok (.existing row), w => Owes i w created [] [] ∧ Recorded w row ∧ row.id = id
  | .error _, _ => False

theorem insertInner_metered (hinv : MeteredInv config sizes w) (howes : Owes i w created [] [])
    {request : BatchAdmissionRequest} {handle : BatchAudioHandle} {bytes : ℕ}
    (hholding : Holding config sizes w request.id handle bytes)
    (hsized : (sizes.ofFingerprint request.fingerprint).toNat = bytes) :
    (meteredProtocol ι config sizes).Secured i
      (InsertPost i request.id handle request.fingerprint created bytes)
      (unmetered (insertInner request.id (.accept request.profile request.fingerprint) handle
        request.authoritativeDurationMillis request.keyterms)) w := by
  obtain ⟨snapshot, hsnapshot⟩ : ∃ snapshot, insertedSnapshot request handle = snapshot := ⟨_, rfl⟩
  have hid : snapshot.id = request.id := hsnapshot ▸ rfl
  have haudio : snapshot.audio = handle := hsnapshot ▸ rfl
  have hfingerprint : snapshot.job.fingerprint = request.fingerprint := hsnapshot ▸ rfl
  -- the insert either records this request's row or finds one
  have hinsert : (meteredProtocol ι config sizes).Secured i
      (fun reply w' => reply = .ok true ∧ Owes i w' created [bytes] [] ∧ Recorded w' snapshot ∨
        reply = .ok false ∧ Owes i w' created [] [] ∧ ∃ row, Recorded w' row ∧ row.id = request.id)
      (unmetered (Task.call (GatewayOp.insertRow snapshot))) w := by
    refine metered_call (.port (.insertRow snapshot)) (fun w' hrely _ => ?_) ?_ ?_
    · refine ⟨?_, ?_⟩
      · rw [haudio, hid]
        exact hholding.names
      · rw [haudio, hfingerprint, hholding.size, hsized]
    · intro w₁ w₂ reply choice hrely hinv₁ _ _ hserve hok
      have howes₁ := howes.undisturbed hrely
      have hholding₁ := hholding.undisturbed hrely
      rcases insertRow_spec hserve hok with ⟨habsent, rfl, hstep⟩ | ⟨⟨row, hrow⟩, rfl, hstep⟩
      · -- the job has no row, so its artifact is still there
        rw [hid] at habsent
        have hholds := hholding₁.anchored.resolve_right (by rw [habsent]; simp)
        obtain ⟨parsed, hparsed, -⟩ := hholding.names
        have hbytes := hinv₁.artifactBytes hparsed hholding₁.intact hholds
        rw [hholding.size] at hbytes
        rw [haudio, hbytes] at hstep
        exact .inl ⟨rfl, hstep.owes howes₁.created (Dues.own_cons_self.trans (congrArg _ howes₁.admitted))
          howes₁.removed, hstep.recorded_self.of_same ⟨rfl, rfl, rfl⟩⟩
      · obtain ⟨hmem, hkey⟩ := SortedTable.lookup_eq_some_iff.mp hrow
        refine .inr ⟨rfl, howes₁.untouched hstep, row, (hstep.recorded_iff row).mpr (recorded_of_mem hmem), ?_⟩
        exact (asStr_inj hkey).trans hid
    · intro reply w₂ w₃ hrely h
      refine h.imp (fun h => ?_) fun h => ?_
      · exact ⟨h.1, h.2.1.undisturbed hrely, hrely.recorded _ h.2.2⟩
      · obtain ⟨hreply, howes₂, row, hrow, hrowId⟩ := h
        exact ⟨hreply, howes₂.undisturbed hrely, row, hrely.recorded row hrow, hrowId⟩
  subst hsnapshot
  refine unmetered_seq hinsert hinv ?_
  rintro reply w₁ hinv₁ (⟨rfl, howes₁, hrecorded⟩ | ⟨rfl, howes₁, row, hrow, hrowId⟩) -
  · refine unmetered_seq (loadUuid_metered howes₁ request.id) hinv₁ ?_
    rintro loaded w₂ _ ⟨howes₂, hloaded⟩ -
    obtain ⟨current, rfl, hsame⟩ := hloaded.present _ hrecorded rfl
    obtain ⟨hcurrent, -⟩ := hloaded.found current rfl
    exact .done fun w₃ hrely _ => ⟨howes₂.undisturbed hrely, hrely.recorded _ hcurrent, hsame.id, hsame.audio,
      hsame.fingerprint⟩
  · refine unmetered_seq (loadUuid_metered howes₁ request.id) hinv₁ ?_
    rintro loaded w₂ _ ⟨howes₂, hloaded⟩ -
    obtain ⟨current, rfl, -⟩ := hloaded.present row hrow hrowId
    obtain ⟨hcurrent, hcurrentId⟩ := hloaded.found current rfl
    exact .done fun w₃ hrely _ => ⟨howes₂.undisturbed hrely, hrely.recorded _ hcurrent, hcurrentId⟩

/-- A compare-and-swap reports as stored only a recorded version of its replacement. -/
theorem compareAndSwapInner_metered (hinv : MeteredInv config sizes w)
    (howes : Owes i w created admitted removed) (expected : UInt64) (replacement : BatchJobSnapshot) :
    (meteredProtocol ι config sizes).Secured i
      (fun reply w' => Owes i w' created admitted removed ∧
        ∀ row, reply = .ok (.stored row) → Recorded w' row ∧ SameRequest replacement row)
      (unmetered (compareAndSwapInner expected replacement)) w := by
  have hupdate : (meteredProtocol ι config sizes).Secured i
      (fun reply w' => Owes i w' created admitted removed ∧
        ∀ row, reply = .ok (some row) → Recorded w' row ∧ SameRequest replacement row)
      (unmetered (Task.call (GatewayOp.updateRow expected replacement))) w := by
    refine metered_call (.port (.updateRow expected replacement)) (fun _ _ _ => trivial) ?_ ?_
    · intro w₁ w₂ reply choice hrely _ _ _ hserve hok
      have howes₁ := howes.undisturbed hrely
      rcases updateRow_spec hserve hok with ⟨current, row, -, -, hsame, rfl, hstep⟩ | ⟨rfl, hstep⟩
      · refine ⟨hstep.owes howes₁.created howes₁.admitted howes₁.removed, fun stored hstored => ?_⟩
        obtain rfl := Option.some.inj (Except.ok.inj hstored)
        exact ⟨hstep.recorded_self, hsame⟩
      · exact ⟨howes₁.untouched hstep, fun stored hstored => by cases hstored⟩
    · intro reply w₂ w₃ hrely h
      exact ⟨h.1.undisturbed hrely, fun row hrow => (h.2 row hrow).imp_left (hrely.recorded row)⟩
  have hdone {reply : Except BatchJobStoreFailure BatchJobUpdateOutcome} {w₁ : MeteredWorld ι}
      (howes₁ : Owes i w₁ created admitted removed)
      (hstored : ∀ row, reply = .ok (.stored row) → Recorded w₁ row ∧ SameRequest replacement row) :
      (meteredProtocol ι config sizes).Secured i
        (fun reply w' => Owes i w' created admitted removed ∧
          ∀ row, reply = .ok (.stored row) → Recorded w' row ∧ SameRequest replacement row)
        (.done reply) w₁ := .done fun _ hrely _ =>
    ⟨howes₁.undisturbed hrely, fun row hrow => (hstored row hrow).imp_left (hrely.recorded row)⟩
  refine unmetered_seq hupdate hinv ?_
  rintro reply w₁ hinv₁ ⟨howes₁, hwritten⟩ -
  match (reply : Except BatchJobStoreFailure (Option BatchJobSnapshot)) with
  | .error failure => exact hdone howes₁ (by simp)
  | .ok (some written) =>
    refine hdone howes₁ fun row hrow => ?_
    obtain rfl : written = row := by simpa using hrow
    exact hwritten written rfl
  | .ok none =>
    refine unmetered_seq (loadUuid_metered howes₁ replacement.id) hinv₁ ?_
    rintro loaded w₂ _ ⟨howes₂, -⟩ -
    match loaded with
    | .error failure => exact hdone howes₂ (by simp)
    | .ok none => exact hdone howes₂ (by simp)
    | .ok (some current) =>
      dsimp only
      split
      · exact hdone howes₂ (by simp)
      · exact hdone howes₂ (by simp)

/-- What is read is intact and as long as its handle says. -/
theorem read_metered (howes : Owes i w created admitted removed) (handle : BatchAudioHandle) :
    (meteredProtocol ι config sizes).Secured i
      (fun reply w' => Owes i w' created admitted removed ∧ Intact config w' handle ∧
        ∃ audio, reply = .ok audio ∧ audio.length = sizes.ofHandle config.codec handle ∧ audio.length < 2 ^ 64)
      (unmetered (durableFileSpool.read handle)) w := by
  refine metered_call (.port (.readAudio handle)) (fun _ _ _ => trivial) ?_ ?_
  · intro w₁ w₂ reply choice hrely hinv₁ _ _ hserve hok
    obtain ⟨hstep, audio, parsed, name, rfl, hparsed, hlookup, hdigest⟩ := readAudio_spec hserve hok
    refine ⟨(howes.undisturbed hrely).untouched hstep, hstep.intact_iff.mpr ?_, audio, rfl, ?_⟩
    · intro file parsed' hfile hparsed'
      obtain rfl := Option.some.inj (hlookup.symm.trans hfile)
      obtain rfl := Except.ok.inj (hparsed.symm.trans hparsed')
      exact hdigest
    · have hlength : audio.length = (sizes.ofDigest (config.digest audio)).toNat :=
        hinv₁.sizedFiles (name, audio) (SortedTable.mem_of_lookup hlookup)
      refine ⟨?_, ?_⟩
      · rw [hlength, hdigest, AudioSizes.ofHandle, hparsed]
      · rw [hlength]
        exact UInt64.toNat_lt _
  · intro reply w₂ w₃ hrely h
    exact ⟨h.1.undisturbed hrely, hrely.intact handle h.2.1, h.2.2⟩

/-- Removing the audio of a recorded row leaves its bytes to be subtracted, if it was there. -/
theorem removeRecorded_metered (howes : Owes i w created admitted []) {row : BatchJobSnapshot}
    (hrow : Recorded w row) (hintact : Intact config w row.audio) :
    (meteredProtocol ι config sizes).Secured i
      (fun reply w' => ∃ outcome, reply = .ok outcome ∧ Owes i w' created admitted
        (if outcome = .removed then [sizes.ofHandle config.codec row.audio] else []))
      (unmetered (durableFileSpool.remove row.audio)) w := by
  refine metered_call (.port (.removeAudio row.audio))
    (fun w' hrely _ => .inl ⟨row, hrely.recorded row hrow, rfl⟩) ?_ ?_
  · intro w₁ w₂ reply choice hrely hinv₁ _ _ hserve hok
    have howes₁ := howes.undisturbed hrely
    have hrow₁ := hrely.recorded row hrow
    have haccounted : w₁.accounted row.audio = true := by
      rw [MeteredWorld.accounted, named_iff.mpr ⟨row, hrow₁, rfl⟩, Bool.or_true]
    obtain ⟨hstep, rfl⟩ := removeAudio_spec hserve hok
    refine ⟨_, rfl, ?_⟩
    cases hholds : w₁.gateway.spool.holds row.audio with
    | true =>
      obtain ⟨parsed, hparsed, -⟩ := hinv₁.names row hrow₁
      have hbytes := hinv₁.artifactBytes hparsed (hrely.intact row.audio hintact) hholds
      simp only [hholds, if_true, MeteredWorld.booksAfter, haccounted, hbytes] at hstep
      exact hstep.owes howes₁.created howes₁.admitted (Dues.own_cons_self.trans (congrArg _ howes₁.removed))
    | false =>
      simp only [hholds, Bool.false_eq_true, if_false, MeteredWorld.booksAfter, haccounted, if_true] at hstep
      exact hstep.owes howes₁.created howes₁.admitted howes₁.removed
  · rintro reply w₂ w₃ hrely ⟨outcome, hreply, howes₂⟩
    exact ⟨outcome, hreply, howes₂.undisturbed hrely⟩

/-- Removing the artifact a call created, which its job's row does not name, leaves nothing to settle. -/
theorem removeCreated_metered {handle : BatchAudioHandle} (howes : Owes i w [handle] admitted removed)
    (hnew : w.opening.holds handle = false) {row : BatchJobSnapshot} (hrow : Recorded w row)
    (hnames : NamesJob config.codec handle row.id) (hother : row.audio ≠ handle) :
    (meteredProtocol ι config sizes).Secured i
      (fun reply w' => ∃ outcome, reply = .ok outcome ∧ Owes i w' [] admitted removed)
      (unmetered (durableFileSpool.remove handle)) w := by
  refine metered_call (.port (.removeAudio handle)) (fun w' hrely _ => .inr ⟨?_, ?_, row, ?_, hnames, hother⟩)
    ?_ ?_
  · rw [hrely.opening]
    exact hnew
  · rw [(howes.undisturbed hrely).created]
    simp
  · exact hrely.recorded row hrow
  · intro w₁ w₂ reply choice hrely hinv₁ _ _ hserve hok
    have howes₁ := howes.undisturbed hrely
    obtain ⟨hstep, rfl⟩ := removeAudio_spec hserve hok
    have hunnamed : w₁.named handle = false := by
      refine hinv₁.unnamed hnames fun version hversion hid haudio => hother ?_
      obtain ⟨current, hcurrent, hsame⟩ := hversion
      rw [hid] at hcurrent
      rw [← ((hrely.recorded row hrow).of_lookup hcurrent).audio, hsame.audio, haudio]
    have haccounted : w₁.accounted handle = false := by
      rw [MeteredWorld.accounted, hrely.opening, hnew, hunnamed]
      rfl
    simp only [MeteredWorld.booksAfter, haccounted, Bool.false_eq_true, if_false] at hstep
    exact ⟨_, rfl, hstep.owes Dues.own_settle_self howes₁.admitted howes₁.removed⟩
  · rintro reply w₂ w₃ hrely ⟨outcome, hreply, howes₂⟩
    exact ⟨outcome, hreply, howes₂.undisturbed hrely⟩

/-- What a store leaves: an artifact to insert a row for, which is the call's own when it was created. -/
def StorePost (config : GatewayConfig) (sizes : AudioSizes) (i : ι) (id : BatchJobId) (bytes : ℕ) :
    Except BatchAudioSpoolFailure BatchAudioStoreOutcome → MeteredWorld ι → Prop
  | .ok (.stored handle), w =>
    Owes i w [handle] [] [] ∧ w.opening.holds handle = false ∧ Holding config sizes w id handle bytes
  | .ok (.existing handle), w => Owes i w [] [] [] ∧ Holding config sizes w id handle bytes
  | .error _, _ => False

theorem store_metered (howes : Owes i w [] [] []) (id : BatchJobId) {audio : List UInt8}
    (hsized : (sizes.ofDigest (config.digest audio)).toNat = audio.length) :
    (meteredProtocol ι config sizes).Secured i (StorePost config sizes i id audio.length)
      (unmetered (durableFileSpool.store id audio)) w := by
  refine metered_call (.port (.storeAudio id audio)) (fun _ _ _ => hsized.symm) ?_ ?_
  · intro w₁ w₂ reply choice hrely hinv₁ _ hkeeps hserve hok
    have howes₁ := howes.undisturbed hrely
    obtain ⟨hid, hstored⟩ := storeAudio_spec hserve hok
    have hnames : NamesJob config.codec (config.handle id audio) id :=
      ⟨_, config.parseHandle_handle hid audio, rfl⟩
    have hsize := (sizes.ofHandle_handle hid audio).trans hsized
    rcases hstored with ⟨habsent, rfl, hstep⟩ | ⟨⟨file, hfile, hdigest⟩, rfl, hstep⟩
    · have hunnamed : w₁.named (config.handle id audio) = false := by simpa [keepsGauge, habsent] using hkeeps
      refine ⟨hstep.owes (Dues.own_cons_self.trans (congrArg _ howes₁.created)) howes₁.admitted howes₁.removed, ?_,
        hnames, ?_, hstep.intact_put hid (.inl rfl), hsize⟩
      · rw [hstep.opening, Bool.eq_false_iff]
        intro hopening
        rcases hinv₁.kept _ hopening with hholds | hnamed
        · rw [habsent] at hholds
          cases hholds
        · rw [hunnamed] at hnamed
          cases hnamed
      · exact .inl ((SpoolConfig.holds_of_put hstep.artifacts _).mpr (.inl rfl))
    · refine ⟨howes₁.untouched hstep, hnames, .inl ?_, ?_, hsize⟩
      · rw [Spool.holds, hstep.artifacts, hfile]
        rfl
      · intro found parsed hfound hparsed
        rw [hstep.artifacts, hfile] at hfound
        rw [config.parseHandle_handle hid audio] at hparsed
        obtain rfl := Option.some.inj hfound
        obtain rfl := Except.ok.inj hparsed
        exact hdigest
  · intro reply w₂ w₃ hrely h
    rcases reply with failure | handle | handle
    · exact h.elim
    · exact ⟨h.1.undisturbed hrely, hrely.opening ▸ h.2.1, h.2.2.undisturbed hrely⟩
    · exact ⟨h.1.undisturbed hrely, h.2.undisturbed hrely⟩

theorem recognize_metered (howes : Owes i w created admitted removed) (request : BatchRecognitionRequest) :
    (meteredProtocol ι config sizes).Secured i (fun _ w' => Owes i w' created admitted removed)
      (unmetered (providerRecognizer.recognize request)) w := by
  refine metered_call (.port (.recognize request)) (fun _ _ _ => trivial) ?_ ?_
  · intro w₁ w₂ reply choice hrely _ _ _ hserve _
    exact (howes.undisturbed hrely).untouched (recognize_spec hserve)
  · exact fun reply w₂ w₃ hrely h => h.undisturbed hrely

/-- Every listed row is recorded. -/
theorem recoveryInner_metered (howes : Owes i w created admitted removed) (after through : Option BatchJobId)
    (limit : ℕ) :
    (meteredProtocol ι config sizes).Secured i
      (fun reply w' => Owes i w' created admitted removed ∧
        ∀ page, reply = .ok page → ∀ row ∈ page, Recorded w' row)
      (unmetered (recoveryInner config.codec after through limit)) w := by
  rcases recoveryInner_cases config.codec after through limit with ⟨failure, heq⟩ | heq
  · rw [heq]
    exact .done fun w' hrely _ => ⟨howes.undisturbed hrely, fun page hpage => by cases hpage⟩
  rw [heq]
  refine metered_call (.port (.selectRecoveryPage after through limit)) (fun _ _ _ => trivial) ?_ ?_
  · intro w₁ w₂ reply choice hrely _ _ _ hserve hok
    obtain ⟨hstep, rfl⟩ := selectRecoveryPage_spec hserve hok
    refine ⟨(howes.undisturbed hrely).untouched hstep, fun page hpage row hrow => ?_⟩
    obtain rfl := Except.ok.inj hpage
    exact (hstep.recorded_iff row).mpr (recorded_of_mem (List.mem_filter.mp (List.mem_of_mem_take hrow)).1)
  · intro reply w₂ w₃ hrely h
    exact ⟨h.1.undisturbed hrely, fun page hpage row hrow => hrely.recorded row (h.2 page hpage row hrow)⟩

/-- The bytes of an admitted job are added. -/
theorem spoolAdmitted_metered {bytes : UInt64} (howes : Owes i w created [bytes.toNat] removed) :
    (meteredProtocol ι config sizes).Secured i (fun _ w' => Owes i w' created [] removed)
      (Task.call (MeteredOp.spoolAdmitted bytes)) w := by
  refine metered_call _ (fun w' hrely _ => (howes.undisturbed hrely).admitted) ?_ ?_
  · intro w₁ w₂ reply choice hrely _ _ _ hserve _
    obtain ⟨rfl, -⟩ := Prod.mk.inj (Option.some.inj hserve)
    have howes₁ := howes.undisturbed hrely
    exact ⟨howes₁.created, Dues.own_settle_self, howes₁.removed⟩
  · exact fun reply w₂ w₃ hrely h => h.undisturbed hrely

/-- The bytes of a removed recording are subtracted. -/
theorem spoolTerminalCleaned_metered {bytes : UInt64} (howes : Owes i w created admitted [bytes.toNat]) :
    (meteredProtocol ι config sizes).Secured i (fun _ w' => Owes i w' created admitted [])
      (Task.call (MeteredOp.spoolTerminalCleaned bytes)) w := by
  refine metered_call _ (fun w' hrely _ => (howes.undisturbed hrely).removed) ?_ ?_
  · intro w₁ w₂ reply choice hrely _ _ _ hserve _
    obtain ⟨rfl, -⟩ := Prod.mk.inj (Option.some.inj hserve)
    have howes₁ := howes.undisturbed hrely
    exact ⟨howes₁.created, howes₁.admitted, Dues.own_settle_self⟩
  · exact fun reply w₂ w₃ hrely h => h.undisturbed hrely

end Ports

end Voicetext.Gateway.Server
