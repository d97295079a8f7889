import Mathlib.Algebra.Order.BigOperators.Group.List
import Voicetext.Common.Machine
import Voicetext.Gateway.Storage.Spool

/-!
# Quota and claims over spool runs

Mutations are serialised by the spool's lock, so a run is a sequence of stores and removals. The stored
audio stays within the aggregate capacity, also while a store holds an artifact it may have to remove
again, and a job whose store has succeeded keeps its digest until its artifact is removed.
-/

namespace Voicetext.Gateway.Storage

open Voicetext.Common Voicetext.Speech.Application

/-- A mutation of the spool. -/
inductive SpoolCall
  | store (id : BatchJobId) (audio : List UInt8)
  | remove (handle : BatchAudioHandle)

/-- What a mutation reports. -/
inductive SpoolReply
  | stored (result : Except BatchAudioSpoolFailure BatchAudioStoreOutcome)
  | removed (result : Except BatchAudioSpoolFailure BatchAudioRemoveOutcome)

namespace SpoolConfig

/-- Answer one mutation. -/
def answer (config : SpoolConfig) (spool : Spool) : SpoolCall → Spool × SpoolReply
  | .store id audio => ((config.storeBlocking spool id audio).1, .stored (config.storeBlocking spool id audio).2)
  | .remove handle => ((config.removeBlocking spool handle).1, .removed (config.removeBlocking spool handle).2)

/-- The directory within a store, once its artifact is there and before its identity is claimed. -/
def storeCreated (config : SpoolConfig) (spool : Spool) (id : BatchJobId) (audio : List UInt8) : Spool :=
  if audio = [] ∨ audio.length > config.maximumBytes ∨ config.codec.isCanonical id.asStr = false ∨
      spool.holds (config.handle id audio) = true ∨ config.refusesTotal spool audio.length = true then spool
  else { spool with artifacts := spool.artifacts.put ((config.handle id audio).asStr, audio) }

variable {config : SpoolConfig} {spool spool' : Spool} {id : BatchJobId} {audio : List UInt8}

/-- A claimed identity names its digest, and no other identity changes. -/
theorem identities_of_claimIdentity {digest : String} (h : claimIdentity spool id digest = some spool') :
    spool'.artifacts = spool.artifacts ∧ ∀ jobId, spool'.identities.lookup jobId =
      if jobId = id.asStr then some (id.asStr, digest) else spool.identities.lookup jobId := by
  unfold claimIdentity at h
  split at h
  · rename_i claimed hclaimed
    split at h
    · rename_i hdigest
      obtain rfl := Option.some.inj h
      refine ⟨rfl, fun jobId => ?_⟩
      split
      · rename_i hjob
        have hkey : claimed.1 = id.asStr := SortedTable.key_of_lookup hclaimed
        rw [hjob, hclaimed, ← hkey, ← hdigest]
      · rfl
    · cases h
  · obtain rfl := Option.some.inj h
    exact ⟨rfl, fun jobId => SortedTable.lookup_put _ _ _⟩

/-- An identity which is claimed for another digest is not claimed. -/
theorem claimIdentity_eq_none {digest : String} : claimIdentity spool id digest = none ↔
    ∃ claimed, spool.identities.lookup id.asStr = some claimed ∧ claimed.2 ≠ digest := by
  unfold claimIdentity
  split
  · rename_i claimed hclaimed
    simp [hclaimed]
  · rename_i hfree
    simp [hfree]

/-- What a store does: a failure changes nothing; a success claims the identity for the digest, and the artifact
was there or has been created within the capacity. -/
inductive StoreStep (config : SpoolConfig) (spool : Spool) (id : BatchJobId) (audio : List UInt8) :
    Spool × Except BatchAudioSpoolFailure BatchAudioStoreOutcome → Prop
  | failed (failure : BatchAudioSpoolFailure) : StoreStep config spool id audio (spool, .error failure)
  | existing {spool' : Spool} (hclaim : claimIdentity spool id (config.digest audio) = some spool')
      (hholds : spool.holds (config.handle id audio) = true) :
      StoreStep config spool id audio (spool', .ok (.existing (config.handle id audio)))
  | stored {spool' : Spool} (hclaim : claimIdentity spool id (config.digest audio) = some spool')
      (hholds : spool.holds (config.handle id audio) = false)
      (hfits : config.refusesTotal spool audio.length = false) :
      StoreStep config spool id audio
        ({ spool' with artifacts := spool'.artifacts.put ((config.handle id audio).asStr, audio) },
          .ok (.stored (config.handle id audio)))

theorem storeStep (config : SpoolConfig) (spool : Spool) (id : BatchJobId) (audio : List UInt8) :
    StoreStep config spool id audio (config.storeBlocking spool id audio) := by
  unfold storeBlocking
  dsimp only
  split
  · exact .failed _
  · split
    · exact .failed _
    · split
      · rename_i hholds
        split
        · exact .failed _
        · split
          · exact .failed _
          · rename_i spool' hclaim
            exact .existing hclaim hholds
      · rename_i hholds
        split
        · exact .failed _
        · rename_i hfits
          split
          · exact .failed _
          · rename_i spool' hclaim
            exact .stored hclaim (by simpa using hholds) (by simpa using hfits)

/-- The audio of a store which is not refused fits the capacity. -/
theorem fits_of_not_refusesTotal (hcapacity : config.maximumTotalBytes < 2 ^ 64 - 1) {incoming : ℕ}
    (h : config.refusesTotal spool incoming = false) :
    spool.audioBytes + incoming ≤ config.maximumTotalBytes := by
  simp only [refusesTotal, Bool.or_eq_false_iff, decide_eq_false_iff_not] at h
  omega

/-- A new artifact adds its bytes. -/
theorem audioBytes_put {handle : BatchAudioHandle} (h : spool.holds handle = false)
    (hspool' : spool'.artifacts = spool.artifacts.put (handle.asStr, audio)) :
    spool'.audioBytes = spool.audioBytes + audio.length := by
  have habsent : spool.artifacts.lookup handle.asStr = none := by simpa [Spool.holds] using h
  have hperm := spool.artifacts.perm_put_of_absent (v := (handle.asStr, audio)) habsent
  rw [Spool.audioBytes, hspool', (hperm.map _).sum_nat, List.map_cons, List.sum_cons, Spool.audioBytes, Nat.add_comm]

theorem audioBytes_erase (spool : Spool) (text : String) :
    ({ spool with artifacts := spool.artifacts.erase text } : Spool).audioBytes ≤ spool.audioBytes := by
  exact (List.filter_sublist.map _).sum_le_sum fun _ _ => Nat.zero_le _

/-- A store keeps the stored audio within the capacity, at its end and on its way there. -/
theorem audioBytes_storeBlocking (hcapacity : config.maximumTotalBytes < 2 ^ 64 - 1)
    (h : spool.audioBytes ≤ config.maximumTotalBytes) :
    (config.storeBlocking spool id audio).1.audioBytes ≤ config.maximumTotalBytes ∧
      (config.storeCreated spool id audio).audioBytes ≤ config.maximumTotalBytes := by
  constructor
  · have hstep := storeStep config spool id audio
    generalize config.storeBlocking spool id audio = result at hstep
    cases hstep with
    | failed failure => exact h
    | existing hclaim hholds =>
      rw [Spool.audioBytes, (identities_of_claimIdentity hclaim).1]
      exact h
    | stored hclaim hholds hfits =>
      rw [audioBytes_put hholds (by rw [(identities_of_claimIdentity hclaim).1])]
      exact fits_of_not_refusesTotal hcapacity hfits
  · unfold storeCreated
    split
    · exact h
    · rename_i hcreates
      simp only [not_or, Bool.not_eq_true] at hcreates
      rw [audioBytes_put hcreates.2.2.2.1 rfl]
      exact fits_of_not_refusesTotal hcapacity hcreates.2.2.2.2

/-- A removal takes audio away only. -/
theorem audioBytes_removeBlocking (handle : BatchAudioHandle) :
    (config.removeBlocking spool handle).1.audioBytes ≤ spool.audioBytes := by
  rcases config.removeBlocking_cases spool handle with ⟨failure, _, hremove⟩ | ⟨spool', outcome, hremove, hartifacts⟩
  · rw [hremove]
  · rw [hremove, Spool.audioBytes, hartifacts]
    exact audioBytes_erase spool handle.asStr

/-- The job has stored this audio: its artifact is there and its identity is claimed for the digest. -/
structure Owned (config : SpoolConfig) (id : BatchJobId) (audio : List UInt8) (spool : Spool) : Prop where
  canonical : config.codec.isCanonical id.asStr = true
  holds : spool.holds (config.handle id audio) = true
  claimed : spool.identities.lookup id.asStr = some (id.asStr, config.digest audio)

/-- A job owns what its store reports as stored or existing. -/
theorem owned_of_storeBlocking {outcome : BatchAudioStoreOutcome}
    (h : (config.storeBlocking spool id audio).2 = .ok outcome) :
    Owned config id audio (config.storeBlocking spool id audio).1 := by
  have hcanonical : config.codec.isCanonical id.asStr = true := by
    rcases config.storeBlocking_cases spool id audio with ⟨failure, hfailed⟩ | ⟨hcanonical, _⟩
    · rw [hfailed] at h
      cases h
    · exact hcanonical
  have hstep := storeStep config spool id audio
  generalize config.storeBlocking spool id audio = result at hstep h
  cases hstep with
  | failed failure => cases h
  | existing hclaim hholds =>
    obtain ⟨hartifacts, hidentities⟩ := identities_of_claimIdentity hclaim
    exact ⟨hcanonical, by rwa [Spool.holds, hartifacts], by rw [hidentities, if_pos rfl]⟩
  | stored hclaim hholds hfits =>
    obtain ⟨hartifacts, hidentities⟩ := identities_of_claimIdentity hclaim
    exact ⟨hcanonical, (holds_of_put rfl _).mpr (.inl rfl), by rw [hidentities, if_pos rfl]⟩

/-- Another store leaves what a job owns. -/
theorem Owned.store (h : Owned config id audio spool) (other : BatchJobId) (otherAudio : List UInt8) :
    Owned config id audio (config.storeBlocking spool other otherAudio).1 := by
  have hidentity {digest : String} {spool' : Spool} (hclaim : claimIdentity spool other digest = some spool') :
      spool'.identities.lookup id.asStr = some (id.asStr, config.digest audio) := by
    obtain ⟨_, hidentities⟩ := identities_of_claimIdentity hclaim
    rw [hidentities]
    split
    · rename_i hjob
      -- the job is claimed already, so the claim is for the same digest
      by_contra hdigest
      have hnone : claimIdentity spool other digest = none := by
        refine claimIdentity_eq_none.mpr ⟨_, hjob ▸ h.claimed, fun heq => hdigest ?_⟩
        rw [← heq, hjob]
      rw [hnone] at hclaim
      cases hclaim
    · exact h.claimed
  have hstep := storeStep config spool other otherAudio
  generalize config.storeBlocking spool other otherAudio = result at hstep
  cases hstep with
  | failed failure => exact h
  | existing hclaim hholds =>
    refine ⟨h.canonical, ?_, hidentity hclaim⟩
    rw [Spool.holds, (identities_of_claimIdentity hclaim).1]
    exact h.holds
  | stored hclaim hholds hfits =>
    have hclaimed := hidentity hclaim
    refine ⟨h.canonical, (holds_of_put rfl _).mpr (.inr ?_), hclaimed⟩
    rw [Spool.holds, (identities_of_claimIdentity hclaim).1]
    exact h.holds

/-- A removal takes its artifact, and the identity claim which names the same digest. -/
theorem removeBlocking_parsed {handle : BatchAudioHandle} {parsed : ParsedHandle}
    (h : parseHandle config.codec handle.asStr = .ok parsed) :
    (config.removeBlocking spool handle).1 = { spool with
      artifacts := spool.artifacts.erase handle.asStr
      identities := if spool.identities.lookup parsed.jobId = some (parsed.jobId, parsed.digest) then
        spool.identities.erase parsed.jobId else spool.identities } := by
  simp only [removeBlocking, h, releaseIdentity]
  cases hclaimed : spool.identities.lookup parsed.jobId with
  | none => simp
  | some claimed =>
    have hkey : claimed.1 = parsed.jobId := SortedTable.key_of_lookup hclaimed
    have hiff : claimed = (parsed.jobId, parsed.digest) ↔ claimed.2 = parsed.digest := by
      rw [Prod.ext_iff]
      simp [hkey]
    by_cases hdigest : claimed.2 = parsed.digest
    · simp [hdigest, hiff]
    · simp [hdigest, hiff]

/-- Removing another artifact leaves what a job owns. -/
theorem Owned.remove (h : Owned config id audio spool) {handle : BatchAudioHandle}
    (hother : handle ≠ config.handle id audio) : Owned config id audio (config.removeBlocking spool handle).1 := by
  cases hparse : parseHandle config.codec handle.asStr with
  | error failure => simpa [removeBlocking, hparse] using h
  | ok parsed =>
    rw [removeBlocking_parsed hparse]
    refine ⟨h.canonical, (holds_of_erase rfl _).mpr ⟨hother.symm, h.holds⟩, ?_⟩
    dsimp only
    split
    · rename_i hclaimed
      rw [SortedTable.lookup_erase, if_neg, h.claimed]
      intro hjob
      -- the handle would name the job and its digest
      rw [← hjob, h.claimed, Option.some.injEq, Prod.mk.injEq] at hclaimed
      have hhandle := (parseHandle_eq_ok.mp hparse).1
      rw [← hclaimed.2, ← hjob] at hhandle
      exact hother (by cases handle; exact congrArg _ hhandle)
    · exact h.claimed

/-- A job keeps what it owns until its artifact is removed. -/
theorem Owned.feed (h : Owned config id audio spool) {calls : List SpoolCall}
    (hkept : ∀ exchange ∈ (feed config.answer spool calls).1,
      ∀ outcome, exchange ≠ (.remove (config.handle id audio), .removed (.ok outcome))) :
    Owned config id audio (feed config.answer spool calls).2 := by
  induction calls generalizing spool with
  | nil => exact h
  | cons call rest ih =>
    simp only [Common.feed, List.forall_mem_cons] at hkept ⊢
    obtain ⟨hfirst, hrest⟩ := hkept
    refine ih ?_ hrest
    cases call with
    | store other otherAudio => exact h.store other otherAudio
    | remove handle =>
      refine h.remove fun hhandle => ?_
      have hparse := config.parseHandle_handle h.canonical audio
      refine hfirst (if spool.holds handle then .removed else .alreadyMissing) ?_
      simp only [answer, removeBlocking, hhandle, hparse]

/-- A job which owns audio stores the same digest again, as existing. -/
theorem Owned.existing (h : Owned config id audio spool) {again : List UInt8} {outcome : BatchAudioStoreOutcome}
    (hstored : (config.storeBlocking spool id again).2 = .ok outcome) :
    config.digest again = config.digest audio ∧ outcome = .existing (config.handle id again) := by
  have hdigest {spool' : Spool} (hclaim : claimIdentity spool id (config.digest again) = some spool') :
      config.digest again = config.digest audio := by
    by_contra hne
    have hnone : claimIdentity spool id (config.digest again) = none :=
      claimIdentity_eq_none.mpr ⟨_, h.claimed, fun heq => hne heq.symm⟩
    rw [hnone] at hclaim
    cases hclaim
  have hstep := storeStep config spool id again
  generalize config.storeBlocking spool id again = result at hstep hstored
  cases hstep with
  | failed failure => cases hstored
  | existing hclaim hholds => exact ⟨hdigest hclaim, (Except.ok.inj hstored).symm⟩
  | stored hclaim hholds hfits =>
    have hhandle : config.handle id again = config.handle id audio := by rw [handle, handle, hdigest hclaim]
    rw [hhandle, h.holds] at hholds
    cases hholds

/-- The stored audio of a run from an empty directory is within the capacity. -/
theorem audioBytes_of_runs (hcapacity : config.maximumTotalBytes < 2 ^ 64 - 1)
    {history : List (SpoolCall × SpoolReply)} (hrun : Runs config.answer .empty history spool) :
    spool.audioBytes ≤ config.maximumTotalBytes := by
  refine hrun.invariant (fun _ spool => spool.audioBytes ≤ config.maximumTotalBytes) (Nat.zero_le _) ?_
  intro history spool call h
  cases call with
  | store id audio => exact (audioBytes_storeBlocking hcapacity h).1
  | remove handle => exact (audioBytes_removeBlocking handle).trans h

/-- The rules of the spool in a state and over the calls which follow. -/
structure Disciplined (config : SpoolConfig) (spool : Spool) : Prop where
  quota : spool.audioBytes ≤ config.maximumTotalBytes
  /-- The capacity holds within a store as well. -/
  quota_within : ∀ id audio, (config.storeCreated spool id audio).audioBytes ≤ config.maximumTotalBytes
  failed_unchanged : ∀ id audio failure, (config.storeBlocking spool id audio).2 = .error failure →
    (config.storeBlocking spool id audio).1 = spool
  /-- Two stores of one job, with no removal of the first one's artifact in between. -/
  same_digest : ∀ id audio again outcome outcome' calls,
    (config.storeBlocking spool id audio).2 = .ok outcome →
      (∀ exchange ∈ (feed config.answer (config.storeBlocking spool id audio).1 calls).1,
        ∀ taken, exchange ≠ (.remove (config.handle id audio), .removed (.ok taken))) →
        (config.storeBlocking (feed config.answer (config.storeBlocking spool id audio).1 calls).2 id again).2 =
            .ok outcome' →
          config.digest again = config.digest audio ∧ outcome' = .existing (config.handle id again)
  removed_own : ∀ handle parsed, parseHandle config.codec handle.asStr = .ok parsed →
    (config.removeBlocking spool handle).1 = { spool with
      artifacts := spool.artifacts.erase handle.asStr
      identities := if spool.identities.lookup parsed.jobId = some (parsed.jobId, parsed.digest) then
        spool.identities.erase parsed.jobId else spool.identities }
  malformed_unchanged : ∀ handle failure, parseHandle config.codec handle.asStr = .error failure →
    config.removeBlocking spool handle = (spool, .error failure)

/-- Every run from an empty directory keeps the rules of the spool. -/
theorem disciplined_of_runs (hcapacity : config.maximumTotalBytes < 2 ^ 64 - 1)
    {history : List (SpoolCall × SpoolReply)} (hrun : Runs config.answer .empty history spool) :
    Disciplined config spool := by
  have hquota := audioBytes_of_runs hcapacity hrun
  refine ⟨hquota, fun id audio => (audioBytes_storeBlocking hcapacity hquota).2, ?_, ?_,
    fun handle parsed => removeBlocking_parsed, ?_⟩
  · intro id audio failure hfailed
    have hstep := storeStep config spool id audio
    generalize config.storeBlocking spool id audio = result at hstep hfailed
    cases hstep with
    | failed _ => rfl
    | existing _ _ => cases hfailed
    | stored _ _ _ => cases hfailed
  · intro id audio again outcome outcome' calls hstored hkept hagain
    exact ((owned_of_storeBlocking hstored).feed hkept).existing hagain
  · intro handle failure hparse
    rw [removeBlocking, hparse]

/-- One recording is stored within a capacity of sixteen bytes. -/
theorem disciplined_of_runs_stored :
    ∃ config : SpoolConfig, ∃ spool, config.maximumTotalBytes = 16 ∧
      Runs config.answer .empty [(.store ⟨"00000000-0000-0000-0000-000000000000"⟩ [1, 2, 3],
        (config.answer .empty (.store ⟨"00000000-0000-0000-0000-000000000000"⟩ [1, 2, 3])).2)] spool ∧
        Disciplined config spool := by
  let config : SpoolConfig := ⟨.canonicalForms, fun _ => ⟨List.replicate 32 0, rfl⟩, 8, 16⟩
  have hrun := runs_feed config.answer .empty [.store ⟨"00000000-0000-0000-0000-000000000000"⟩ [1, 2, 3]]
  exact ⟨config, _, rfl, hrun, disciplined_of_runs (by decide) hrun⟩

end SpoolConfig

end Voicetext.Gateway.Storage
