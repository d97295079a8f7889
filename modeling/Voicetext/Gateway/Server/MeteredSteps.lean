import Voicetext.Gateway.Server.MeteredWorld

/-!
# What no step of the metered calls undoes

A job keeps the row of its request, whichever version, and an artifact with the digest of its handle never has
another one. What a call has found out of either stays true, whatever the others do.
-/

namespace Voicetext.Gateway.Server

open Voicetext.Common Voicetext.Speech.Domain Voicetext.Speech.Application Voicetext.Gateway
  Voicetext.Gateway.Storage

/-- The length of a recording by its digest, and by the fingerprint of the request it came with. -/
structure AudioSizes where
  ofDigest : String → UInt64
  ofFingerprint : BatchRequestFingerprint → UInt64

/-- The length of the recording a handle was formed for. -/
def AudioSizes.ofHandle (sizes : AudioSizes) (codec : UuidCodec) (handle : BatchAudioHandle) : ℕ :=
  match parseHandle codec handle.asStr with
  | .ok parsed => (sizes.ofDigest parsed.digest).toNat
  | .error _ => 0

theorem AudioSizes.ofHandle_handle (sizes : AudioSizes) {config : GatewayConfig} {id : BatchJobId}
    (hid : config.codec.isCanonical id.asStr = true) (audio : List UInt8) :
    sizes.ofHandle config.codec (config.handle id audio) = (sizes.ofDigest (config.digest audio)).toNat := by
  rw [ofHandle, config.parseHandle_handle hid audio]

variable {ι : Type*}

section Knowledge

/-- The ledger has the row of this request, in this version or another. -/
def Recorded (w : MeteredWorld ι) (row : BatchJobSnapshot) : Prop :=
  ∃ current, w.gateway.ledger.lookup row.id.asStr = some current ∧ SameRequest row current

/-- The artifact is there, or its job has a row. -/
def Anchored (w : MeteredWorld ι) (id : BatchJobId) (handle : BatchAudioHandle) : Prop :=
  w.gateway.spool.holds handle = true ∨ (w.gateway.ledger.lookup id.asStr).isSome = true

/-- The artifact has the digest its handle tells, if it is there. -/
def Intact (config : GatewayConfig) (w : MeteredWorld ι) (handle : BatchAudioHandle) : Prop :=
  ∀ file parsed, w.gateway.spool.artifacts.lookup handle.asStr = some file →
    parseHandle config.codec handle.asStr = .ok parsed → config.digest file.2 = parsed.digest

/-- What no step undoes. -/
structure Grows (config : GatewayConfig) (w w' : MeteredWorld ι) : Prop where
  recorded : ∀ row, Recorded w row → Recorded w' row
  intact : ∀ handle, Intact config w handle → Intact config w' handle
  opening : w'.opening = w.opening

variable {config : GatewayConfig} {w w' w'' : MeteredWorld ι} {row : BatchJobSnapshot} {handle : BatchAudioHandle}

theorem Grows.refl (w : MeteredWorld ι) : Grows config w w := ⟨fun _ h => h, fun _ h => h, rfl⟩

theorem Grows.trans (h : Grows config w w') (h' : Grows config w' w'') : Grows config w w'' :=
  ⟨fun row hrow => h'.recorded row (h.recorded row hrow),
    fun handle hhandle => h'.intact handle (h.intact handle hhandle), h'.opening.trans h.opening⟩

/-- A stored row is recorded. -/
theorem recorded_of_mem (h : row ∈ w.gateway.ledger.rows) : Recorded w row :=
  ⟨row, SortedTable.lookup_of_mem h, .refl row⟩

/-- An artifact is named by a recorded row. -/
theorem named_iff : w.named handle = true ↔ ∃ row, Recorded w row ∧ row.audio = handle := by
  simp only [MeteredWorld.named, List.any_eq_true, decide_eq_true_eq]
  constructor
  · rintro ⟨row, hmem, haudio⟩
    exact ⟨row, recorded_of_mem hmem, haudio⟩
  · rintro ⟨row, ⟨current, hcurrent, hsame⟩, haudio⟩
    exact ⟨current, SortedTable.mem_of_lookup hcurrent, hsame.audio.trans haudio⟩

/-- What is recorded of a request is recorded of its every version. -/
theorem Recorded.of_same {version : BatchJobSnapshot} (h : Recorded w row) (hsame : SameRequest version row) :
    Recorded w version := by
  obtain ⟨current, hcurrent, hcurrentSame⟩ := h
  exact ⟨current, by rw [← hsame.id, hcurrent], hsame.trans hcurrentSame⟩

/-- A lookup finds the row of the recorded request. -/
theorem Recorded.of_lookup {loaded : BatchJobSnapshot} (h : Recorded w row)
    (hlookup : w.gateway.ledger.lookup row.id.asStr = some loaded) : SameRequest row loaded := by
  obtain ⟨current, hcurrent, hsame⟩ := h
  obtain rfl := Option.some.inj (hcurrent.symm.trans hlookup)
  exact hsame

/-- A job has one request. -/
theorem Recorded.unique {other : BatchJobSnapshot} (h : Recorded w row) (hother : Recorded w other)
    (hid : other.id = row.id) : other.audio = row.audio := by
  obtain ⟨current, hcurrent, hsame⟩ := hother
  rw [hid] at hcurrent
  exact hsame.audio.symm.trans (h.of_lookup hcurrent).audio

end Knowledge

section Steps

variable {config : GatewayConfig} {w w' : MeteredWorld ι} {handle : BatchAudioHandle}
  {ledger : JobTable} {artifacts : SortedTable fun file : String × List UInt8 => file.1} {metrics : SpoolMetrics}
  {books : SpoolBooks ι}

/-- An unchanged ledger records the same rows. -/
theorem Becomes.recorded_iff (h : Becomes w w' w.gateway.ledger artifacts metrics books) (row : BatchJobSnapshot) :
    Recorded w' row ↔ Recorded w row := by
  rw [Recorded, h.ledger, Recorded]

/-- A row written over one of its own request, or for a new job, keeps what was recorded. -/
theorem Becomes.recorded_put {written : BatchJobSnapshot}
    (h : Becomes w w' (w.gateway.ledger.put written) artifacts metrics books)
    (hover : ∀ current, w.gateway.ledger.lookup written.id.asStr = some current → SameRequest current written)
    (row : BatchJobSnapshot) (hrow : Recorded w row) : Recorded w' row := by
  obtain ⟨current, hcurrent, hsame⟩ := hrow
  rw [Recorded, h.ledger]
  by_cases hid : row.id.asStr = written.id.asStr
  · rw [hid, SortedTable.lookup_put, if_pos rfl]
    exact ⟨written, rfl, hsame.trans (hover current (hid ▸ hcurrent))⟩
  · rw [SortedTable.lookup_put, if_neg hid]
    exact ⟨current, hcurrent, hsame⟩

/-- The written row is recorded. -/
theorem Becomes.recorded_self {written : BatchJobSnapshot}
    (h : Becomes w w' (w.gateway.ledger.put written) artifacts metrics books) : Recorded w' written := by
  rw [Recorded, h.ledger, SortedTable.lookup_put, if_pos rfl]
  exact ⟨written, rfl, .refl written⟩

/-- What a written table records beside the written row was recorded before. -/
theorem Becomes.recorded_of_put {written : BatchJobSnapshot}
    (h : Becomes w w' (w.gateway.ledger.put written) artifacts metrics books) {row : BatchJobSnapshot}
    (hrow : Recorded w' row) : SameRequest row written ∨ Recorded w row := by
  obtain ⟨current, hcurrent, hsame⟩ := hrow
  rw [h.ledger, SortedTable.lookup_put] at hcurrent
  split at hcurrent
  · obtain rfl := Option.some.inj hcurrent
    exact .inl hsame
  · exact .inr ⟨current, hcurrent, hsame⟩

/-- Unchanged artifacts stay intact. -/
theorem Becomes.intact_iff (h : Becomes w w' ledger w.gateway.spool.artifacts metrics books) :
    Intact config w' handle ↔ Intact config w handle := by
  rw [Intact, h.artifacts, Intact]

/-- An artifact stored under the handle of its own audio is intact. -/
theorem Becomes.intact_put {id : BatchJobId} {audio : List UInt8}
    (h : Becomes w w' ledger (w.gateway.spool.artifacts.put ((config.handle id audio).asStr, audio)) metrics books)
    (hid : config.codec.isCanonical id.asStr = true) (hintact : handle = config.handle id audio ∨
      Intact config w handle) : Intact config w' handle := by
  intro file parsed hfile hparsed
  rw [h.artifacts, SortedTable.lookup_put] at hfile
  split at hfile
  · rename_i hhandle
    obtain rfl := Option.some.inj hfile
    rw [hhandle, config.parseHandle_handle hid audio] at hparsed
    obtain rfl := Except.ok.inj hparsed
    rfl
  · rename_i hhandle
    rcases hintact with rfl | hintact
    · exact absurd rfl hhandle
    · exact hintact file parsed hfile hparsed

theorem Becomes.intact_erase {erased : BatchAudioHandle}
    (h : Becomes w w' ledger (w.gateway.spool.artifacts.erase erased.asStr) metrics books)
    (hintact : Intact config w handle) : Intact config w' handle := by
  intro file parsed hfile hparsed
  rw [h.artifacts, SortedTable.lookup_erase] at hfile
  split at hfile
  · cases hfile
  · exact hintact file parsed hfile hparsed

variable {i : ι}

theorem Untouched.grows (h : Untouched i w w') : Grows config w w' :=
  ⟨fun row => (h.recorded_iff row).mpr, fun _ => h.intact_iff.mpr, h.opening⟩

variable [DecidableEq ι]

/-- Whoever takes a step, what is recorded and intact stays so. -/
theorem grows_of_serve {op : MeteredOp} {choice : ServerChoice} {reply : op.Reply}
    (h : serveMetered config i w op choice = some (w', reply)) (hok : succeeds op reply = true) :
    Grows config w w' := by
  match op with
  | .port (.selectRow id) => exact (selectRow_spec h hok).1.grows
  | .port .selectRecoveryHead =>
    obtain ⟨gateway, hserve, rfl⟩ := serve_port h
    exact (query_spec hserve hok).1.grows (i := i)
  | .port (.selectRecoveryPage after through limit) => exact (selectRecoveryPage_spec h hok).1.grows
  | .port (.readAudio handle) => exact (readAudio_spec h hok).1.grows
  | .port (.recognize request) => exact (recognize_spec h).grows
  | .port (.insertRow snapshot) =>
    rcases insertRow_spec h hok with ⟨habsent, -, hbecomes⟩ | ⟨-, -, huntouched⟩
    · refine ⟨hbecomes.recorded_put fun current hcurrent => ?_, fun _ => hbecomes.intact_iff.mpr, hbecomes.opening⟩
      rw [show (untyped snapshot).id = snapshot.id from rfl, habsent] at hcurrent
      cases hcurrent
    · exact huntouched.grows
  | .port (.updateRow expected replacement) =>
    rcases updateRow_spec h hok with ⟨current, row, hcurrent, hsame, -, -, hbecomes⟩ | ⟨-, huntouched⟩
    · refine ⟨hbecomes.recorded_put fun other hother => ?_, fun _ => hbecomes.intact_iff.mpr, hbecomes.opening⟩
      obtain rfl := Option.some.inj (hcurrent.symm.trans hother)
      exact hsame
    · exact huntouched.grows
  | .port (.storeAudio id audio) =>
    rcases storeAudio_spec h hok with ⟨hid, ⟨-, -, hbecomes⟩ | ⟨-, -, huntouched⟩⟩
    · exact ⟨fun row => (hbecomes.recorded_iff row).mpr, fun _ hintact => hbecomes.intact_put hid (.inr hintact),
        hbecomes.opening⟩
    · exact huntouched.grows
  | .port (.removeAudio handle) =>
    obtain ⟨hbecomes, -⟩ := removeAudio_spec h hok
    exact ⟨fun row => (hbecomes.recorded_iff row).mpr, fun _ => hbecomes.intact_erase, hbecomes.opening⟩
  | .spoolAdmitted bytes =>
    obtain ⟨rfl, -⟩ := Prod.mk.inj (Option.some.inj h)
    exact ⟨fun _ hrow => hrow, fun _ hintact => hintact, rfl⟩
  | .spoolTerminalCleaned bytes =>
    obtain ⟨rfl, -⟩ := Prod.mk.inj (Option.some.inj h)
    exact ⟨fun _ hrow => hrow, fun _ hintact => hintact, rfl⟩

end Steps

end Voicetext.Gateway.Server
