import Mathlib.Data.List.MinMax
import Voicetext.Providers.Deepgram.NormalizedTimeline

/-!
# Which utterances are merged away

An utterance is merged into the last normalized segment by its end alone. The segment belongs to the utterance
which first reached the latest end so far, so what is merged lies within its owner exactly when it also starts no
earlier. The order in which utterances arrive decides this, and nothing checks it.
-/

namespace Voicetext.Providers.Deepgram.Batch

open Voicetext.Common Voicetext.Speech.Application

/-- A normalized segment with the utterance it began as and the utterances merged into it. -/
structure Tracked where
  segment : ParsedSegment
  owner : ParsedSegment
  absorbed : List ParsedSegment

variable (toLowercase : List Char → List Char) (reference : Option ProviderReference)

/-- The step of the walk, which also tells where utterances go. -/
def trackStep : List Tracked → ParsedSegment → Except RecognitionFailure (List Tracked)
  | [], segment => .ok [⟨segment, segment, []⟩]
  | previous :: earlier, segment =>
    if segment.startMs ≥ previous.segment.endMs then .ok (⟨segment, segment, []⟩ :: previous :: earlier)
    else if previous.segment.endMs - segment.startMs > MAX_UTTERANCE_OVERLAP_MILLIS then
      .error (invalidTiming reference)
    else if segment.endMs ≤ previous.segment.endMs then
      .ok (⟨{ previous.segment with
          text := mergeContainedText toLowercase previous.segment.text segment.text },
        previous.owner, previous.absorbed ++ [segment]⟩ :: earlier)
    else .ok (⟨{ segment with startMs := previous.segment.endMs }, segment, []⟩ :: previous :: earlier)

/-- The normalized segments with their utterances. -/
def trackOverlaps (segments : List ParsedSegment) : Except RecognitionFailure (List Tracked) := do
  let tracked ← segments.foldlM (trackStep toLowercase reference) []
  return tracked.reverse

/-- Every utterance without a segment of its own lay within the utterance whose segment absorbed it. -/
def AbsorbsContained (tracked : List Tracked) : Prop :=
  ∀ segment ∈ tracked, ∀ utterance ∈ segment.absorbed,
    segment.owner.startMs ≤ utterance.startMs ∧ utterance.endMs ≤ segment.owner.endMs

/-- An utterance which ends by the latest end before it starts no earlier than the first to reach that end. -/
def StartsInOrder (segments : List ParsedSegment) : Prop :=
  ∀ earlier segment later, segments = earlier ++ segment :: later →
    ∀ latest ∈ List.argmax ParsedSegment.endMs earlier,
      segment.endMs ≤ latest.endMs → latest.startMs ≤ segment.startMs

variable {toLowercase reference}

/-- Without the utterances, the step is that of the walk. -/
theorem overlapStep_of_trackStep {tracked : List Tracked} {changed : Bool} {segment : ParsedSegment} :
    (overlapStep toLowercase reference (tracked.map Tracked.segment, changed) segment).map Prod.fst =
      (trackStep toLowercase reference tracked segment).map (List.map Tracked.segment) := by
  cases tracked with
  | nil => rfl
  | cons previous earlier =>
    simp only [List.map_cons, overlapStep, trackStep]
    split
    · rfl
    split
    · rfl
    split <;> rfl

/-- Without the utterances, the walk is the one which normalizes. -/
theorem track_of_overlaps {segments : List ParsedSegment} {state final : List ParsedSegment × Bool}
    {tracked : List Tracked} (hstate : state.1 = tracked.map Tracked.segment)
    (h : segments.foldlM (overlapStep toLowercase reference) state = .ok final) :
    ∃ tracked', segments.foldlM (trackStep toLowercase reference) tracked = .ok tracked' ∧
      tracked'.map Tracked.segment = final.1 := by
  induction segments generalizing state tracked with
  | nil =>
    cases h
    exact ⟨tracked, rfl, hstate.symm⟩
  | cons segment rest ih =>
    obtain ⟨_, changed⟩ := state
    obtain rfl : _ = tracked.map Tracked.segment := hstate
    rw [List.foldlM_cons, bind_eq_ok] at h
    obtain ⟨middle, hmiddle, hrest⟩ := h
    have hstep := @overlapStep_of_trackStep toLowercase reference tracked changed segment
    rw [hmiddle] at hstep
    obtain ⟨next, hnext, hmap⟩ := map_eq_ok.mp hstep.symm
    obtain ⟨tracked', hrun, hfinal⟩ := ih hmap.symm hrest
    exact ⟨tracked', by rw [List.foldlM_cons, bind_eq_ok]; exact ⟨next, hnext, hrun⟩, hfinal⟩

/-- One more utterance is in order when it is against the ones before it. -/
theorem startsInOrder_concat {walked : List ParsedSegment} {segment : ParsedSegment} :
    StartsInOrder (walked ++ [segment]) ↔
      StartsInOrder walked ∧ ∀ latest ∈ List.argmax ParsedSegment.endMs walked,
        segment.endMs ≤ latest.endMs → latest.startMs ≤ segment.startMs := by
  constructor
  · intro h
    exact ⟨fun earlier other later hsplit => h earlier other (later ++ [segment]) (by simp [hsplit]),
      h walked segment [] rfl⟩
  · rintro ⟨hwalked, hlast⟩ earlier other later hsplit
    rcases List.eq_nil_or_concat later with rfl | ⟨front, last, rfl⟩
    · obtain ⟨rfl, hsame⟩ := List.append_inj' hsplit rfl
      obtain rfl := List.head_eq_of_cons_eq hsame
      exact hlast
    · rw [List.concat_eq_append, ← List.cons_append, ← List.append_assoc] at hsplit
      exact hwalked earlier other front (List.append_inj' hsplit rfl).1

/-- What the walk knows of owners after the utterances it walked. -/
structure Owned (walked : List ParsedSegment) (tracked : List Tracked) : Prop where
  ends : ∀ segment ∈ tracked, segment.segment.endMs = segment.owner.endMs
  latest : tracked.head?.map Tracked.owner = List.argmax ParsedSegment.endMs walked
  utterances : (tracked.flatMap fun segment => segment.owner :: segment.absorbed).Perm walked
  contained : AbsorbsContained tracked ↔ StartsInOrder walked

/-- An utterance which ends last owns a segment. -/
theorem Owned.push {walked : List ParsedSegment} {tracked : List Tracked} {segment own : ParsedSegment}
    (h : Owned walked tracked) (hown : own.endMs = segment.endMs)
    (hends : ∀ latest ∈ List.argmax ParsedSegment.endMs walked, latest.endMs < segment.endMs) :
    Owned (walked ++ [segment]) (⟨own, segment, []⟩ :: tracked) := by
  refine ⟨List.forall_mem_cons.mpr ⟨hown, h.ends⟩, ?_, ?_, ?_⟩
  · rw [List.argmax_concat]
    cases hlatest : List.argmax ParsedSegment.endMs walked with
    | none => rfl
    | some latest =>
      dsimp only
      rw [if_pos (hends latest hlatest)]
      rfl
  · exact (h.utterances.cons segment).trans (List.perm_append_singleton segment walked).symm
  · rw [startsInOrder_concat, ← h.contained]
    constructor
    · intro hcontained
      refine ⟨fun other hother => hcontained other (List.mem_cons_of_mem _ hother), fun latest hlatest hle => ?_⟩
      exact absurd (hends latest hlatest) (Nat.not_lt.mpr hle)
    · rintro ⟨hcontained, -⟩
      exact List.forall_mem_cons.mpr ⟨fun _ hnone => (nomatch hnone), hcontained⟩

/-- An utterance which does not end last is absorbed by the first to reach the latest end. -/
theorem Owned.absorb {walked : List ParsedSegment} {previous : Tracked} {earlier : List Tracked}
    {segment own : ParsedSegment} (h : Owned walked (previous :: earlier))
    (hown : own.endMs = previous.segment.endMs) (hends : segment.endMs ≤ previous.segment.endMs) :
    Owned (walked ++ [segment]) (⟨own, previous.owner, previous.absorbed ++ [segment]⟩ :: earlier) := by
  obtain ⟨hprevious, hearlier⟩ := List.forall_mem_cons.mp h.ends
  have hlatest : List.argmax ParsedSegment.endMs walked = some previous.owner := h.latest.symm
  refine ⟨List.forall_mem_cons.mpr ⟨hown.trans hprevious, hearlier⟩, ?_, ?_, ?_⟩
  · rw [List.argmax_concat, hlatest]
    dsimp only
    rw [if_neg (by omega)]
    rfl
  · let others := earlier.flatMap fun segment => segment.owner :: segment.absorbed
    have hparts : previous.owner :: (previous.absorbed ++ [segment]) ++ others =
        previous.owner :: previous.absorbed ++ segment :: others := by simp
    have hmoved : (previous.owner :: previous.absorbed ++ segment :: others).Perm
        (segment :: (previous.owner :: previous.absorbed ++ others)) := List.perm_middle
    rw [List.flatMap_cons]
    exact (hparts ▸ hmoved).trans ((h.utterances.cons segment).trans (List.perm_append_singleton segment walked).symm)
  · have hlies : AbsorbsContained (⟨own, previous.owner, previous.absorbed ++ [segment]⟩ :: earlier) ↔
        AbsorbsContained (previous :: earlier) ∧ previous.owner.startMs ≤ segment.startMs := by
      simp only [AbsorbsContained, List.forall_mem_cons, List.forall_mem_append]
      have hend : segment.endMs ≤ previous.owner.endMs := hprevious ▸ hends
      tauto
    rw [startsInOrder_concat, ← h.contained, hlatest, hlies]
    refine and_congr_right fun _ => ⟨fun hstart latest hlast _ => ?_, fun horder => ?_⟩
    · obtain rfl := Option.some.inj hlast
      exact hstart
    · exact horder previous.owner rfl (hprevious ▸ hends)

/-- Walking one more utterance keeps track of its owner. -/
theorem Owned.step {walked : List ParsedSegment} {tracked tracked' : List Tracked} {segment : ParsedSegment}
    (h : Owned walked tracked) (hsegment : segment.startMs < segment.endMs)
    (hstep : trackStep toLowercase reference tracked segment = .ok tracked') :
    Owned (walked ++ [segment]) tracked' := by
  cases tracked with
  | nil =>
    cases hstep
    have hnone : List.argmax ParsedSegment.endMs walked = none := h.latest.symm
    exact h.push rfl fun latest hlatest => by
      rw [hnone] at hlatest
      cases hlatest
  | cons previous earlier =>
    obtain ⟨hprevious, -⟩ := List.forall_mem_cons.mp h.ends
    have hlater (hends : previous.segment.endMs < segment.endMs) :
        ∀ latest ∈ List.argmax ParsedSegment.endMs walked, latest.endMs < segment.endMs := by
      intro latest hlatest
      have howner : List.argmax ParsedSegment.endMs walked = some previous.owner := h.latest.symm
      rw [howner] at hlatest
      obtain rfl := Option.some.inj hlatest
      rwa [hprevious] at hends
    simp only [trackStep] at hstep
    split at hstep
    · rename_i hstarts
      cases hstep
      exact h.push rfl (hlater (lt_of_le_of_lt hstarts hsegment))
    obtain ⟨-, hstep⟩ := ite_error_eq_ok.mp hstep
    split at hstep
    · cases hstep
      exact h.absorb rfl ‹_›
    · rename_i hends
      cases hstep
      exact h.push rfl (hlater (Nat.not_le.mp hends))

/-- Walking utterances keeps track of their owners. -/
theorem Owned.run {walked rest : List ParsedSegment} {tracked tracked' : List Tracked} (h : Owned walked tracked)
    (hrest : ∀ segment ∈ rest, segment.startMs < segment.endMs)
    (hfold : rest.foldlM (trackStep toLowercase reference) tracked = .ok tracked') :
    Owned (walked ++ rest) tracked' := by
  induction rest generalizing walked tracked with
  | nil =>
    cases hfold
    rwa [List.append_nil]
  | cons segment rest ih =>
    obtain ⟨hsegment, hrest⟩ := List.forall_mem_cons.mp hrest
    rw [List.foldlM_cons, bind_eq_ok] at hfold
    obtain ⟨middle, hstep, hfold⟩ := hfold
    have hwalked := ih (h.step hsegment hstep) hrest hfold
    rwa [List.append_assoc] at hwalked

/-- In an accepted timeline, exactly the utterances which start in order are merged into one they lay within. -/
theorem absorbsContained_iff_startsInOrder {parsed result : ParsedBatchResult} {duration : ℕ}
    (h : normalize toLowercase parsed duration = .ok result) :
    ∃ tracked, trackOverlaps toLowercase (providerReference parsed) (clampedSegments parsed duration) = .ok tracked ∧
      tracked.map Tracked.segment = result.segments ∧
      (tracked.flatMap fun segment => segment.owner :: segment.absorbed).Perm (clampedSegments parsed duration) ∧
      (AbsorbsContained tracked ↔ StartsInOrder (clampedSegments parsed duration)) := by
  obtain ⟨hfits, -, segments, changed, hoverlaps, rfl⟩ := normalize_eq_ok.mp h
  obtain ⟨⟨normalized, _⟩, hfold, hresult⟩ := bind_eq_ok.mp hoverlaps
  cases hresult
  have hnothing : (([], false) : List ParsedSegment × Bool).1 = ([] : List Tracked).map Tracked.segment := rfl
  obtain ⟨tracked, hrun, hsegments⟩ := track_of_overlaps hnothing hfold
  have hempty : Owned [] [] :=
    ⟨fun _ h => (nomatch h), rfl, .refl _, iff_of_true (fun _ h => (nomatch h)) fun earlier segment later h => by
      simp at h⟩
  have howned := hempty.run (fun segment hsegment => by
    obtain ⟨source, hsource, rfl⟩ := List.mem_map.mp hsegment
    have hfit := hfits source hsource
    exact lt_min hfit.start_lt_stop hfit.start_lt) hrun
  refine ⟨tracked.reverse, bind_eq_ok.mpr ⟨tracked, hrun, rfl⟩, by rw [List.map_reverse, hsegments], ?_, ?_⟩
  · exact ((List.reverse_perm tracked).flatMap_right _).trans howned.utterances
  · rw [List.nil_append] at howned
    rw [← howned.contained]
    simp only [AbsorbsContained, List.mem_reverse]

/-- A refinement arrives after the utterance it lies within. -/
theorem refinement_absorbed : ∃ tracked,
    trackOverlaps (List.map Char.toLower) none (clampedSegments refinement 30000) = .ok tracked ∧
      (AbsorbsContained tracked ↔ StartsInOrder (clampedSegments refinement 30000)) := by
  have h : ∃ result, normalize (List.map Char.toLower) refinement 30000 = .ok result := ⟨_, rfl⟩
  obtain ⟨result, hresult⟩ := h
  obtain ⟨tracked, hrun, -, -, hiff⟩ := absorbsContained_iff_startsInOrder hresult
  exact ⟨tracked, hrun, hiff⟩

/-- An utterance after which another arrives that was spoken before it. -/
def outOfOrder : ParsedBatchResult where
  text := "later before"
  providerDurationMs := 30000
  segments := [⟨10000, 12000, "later", none, none, 10, 12⟩, ⟨5000, 8000, "before", none, none, 5, 8⟩]
  readableSegments := []
  providerRequestId := none

/-- An utterance spoken before another is merged into it. -/
theorem outOfOrder_absorbed : ∃ result tracked,
    normalize (List.map Char.toLower) outOfOrder 30000 = .ok result ∧
      trackOverlaps (List.map Char.toLower) none (clampedSegments outOfOrder 30000) = .ok tracked ∧
      tracked.map Tracked.segment = result.segments ∧
      ∃ segment ∈ tracked, ∃ utterance ∈ segment.absorbed, utterance.endMs < segment.owner.startMs :=
  ⟨_, _, rfl, rfl, rfl, _, List.mem_singleton_self _, _, List.mem_singleton_self _, by decide⟩

end Voicetext.Providers.Deepgram.Batch
