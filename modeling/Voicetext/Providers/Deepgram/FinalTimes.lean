import Voicetext.Common.Fallible
import Voicetext.Common.Machine
import Voicetext.Providers.Deepgram.LiveDto
import Voicetext.Speech.Application.LiveTimeline

/-!
# Rounded final times against the gateway's timing policy

Start and duration are rounded to milliseconds independently and added again, so a final may end one
millisecond later than the exact time its successor starts. This happens exactly when both fractions
of a millisecond round up and the successor starts before the sum of the roundings.
-/

namespace Voicetext.Providers.Deepgram.FinalTimes

open Voicetext.Common Voicetext.Speech.Application

/-- Exact times of a final, in nanoseconds. -/
structure ExactTimes where
  start : ℕ
  duration : ℕ
deriving DecidableEq

namespace ExactTimes

/-- The times a message spells. -/
def Spelled (times : ExactTimes) (object : List (String × Json)) : Prop :=
  requiredNonNegative (get object "start") = .ok (times.start / NANOS_PER_SEC : ℚ) ∧
    requiredNonNegative (get object "duration") = .ok (times.duration / NANOS_PER_SEC : ℚ)

/-- A final which starts no earlier than the end of the previous one. -/
def Follows (previous next : ExactTimes) : Prop := previous.start + previous.duration ≤ next.start

/-- Start and duration do not both round up, or the next final starts late enough for both to. -/
def RoundsInOrder (previous next : ExactTimes) : Prop :=
  previous.start % 1000000 < 500000 ∨ previous.duration % 1000000 < 500000 ∨
    (previous.start / 1000000 + previous.duration / 1000000 + 1) * 1000000 + 500000 ≤ next.start

/-- The end which the rounded start and duration add up to. -/
def endMillis (times : ExactTimes) : ℕ :=
  (times.start + 500000) / 1000000 + (times.duration + 500000) / 1000000

/-- For finals in order, the rounded times are in order exactly under that condition. -/
theorem roundsInOrder_iff {previous next : ExactTimes} (h : previous.Follows next) :
    previous.RoundsInOrder next ↔ previous.endMillis ≤ (next.start + 500000) / 1000000 := by
  unfold Follows at h
  unfold RoundsInOrder endMillis
  omega

/-- A final inside the horizon ends at most a millisecond beyond it once rounded. -/
theorem endMillis_le {times : ExactTimes} {horizonMillis : ℕ}
    (h : times.start + times.duration ≤ 1000000 * horizonMillis) :
    times.endMillis ≤ horizonMillis + 1 := by
  unfold endMillis
  omega

end ExactTimes

/-- Whole nanoseconds are a duration of just as many. -/
theorem durationFromSecs_nanos {nanos duration : ℕ}
    (h : durationFromSecs (nanos / NANOS_PER_SEC : ℚ) = some duration) : duration = nanos := by
  have hnanos : (nanos / NANOS_PER_SEC : ℚ) * NANOS_PER_SEC = (nanos : ℤ) := by
    rw [div_mul_cancel₀ _ (by norm_num [NANOS_PER_SEC])]
    rfl
  have hfloor : ((nanos : ℤ) : ℚ).floor = nanos := Rat.floor_intCast nanos
  have hhalf : (0 : ℚ) < 1 / 2 ∨ (0 : ℚ) = 1 / 2 ∧ (nanos : ℤ) % 2 = 0 := .inl (by norm_num)
  simp only [durationFromSecs, hnanos, hfloor, sub_self, if_pos hhalf] at h
  split_ifs at h
  exact (Option.some.inj h).symm

/-- Whole nanoseconds round to the nearest millisecond, halves up. -/
theorem secondsToMillis_nanos {nanos millis : ℕ}
    (h : secondsToMillis (nanos / NANOS_PER_SEC : ℚ) = some millis) :
    millis = (nanos + 500000) / 1000000 := by
  obtain ⟨duration, hduration, hrounded⟩ := Option.bind_eq_some_iff.mp h
  obtain rfl := durationFromSecs_nanos hduration
  obtain ⟨rounded, hadd, hmillis⟩ := Option.bind_eq_some_iff.mp hrounded
  obtain rfl : duration + 500000 = rounded := by
    unfold durationAdd at hadd
    split_ifs at hadd
    exact Option.some.inj hadd
  split_ifs at hmillis
  exact (Option.some.inj hmillis).symm

/-- A message with a final flag. -/
def Final (object : List (String × Json)) : Prop :=
  optionalBool (get object "is_final") = .ok true ∨ optionalBool (get object "speech_final") = .ok true

/-- The transcript of a final message has its rounded times and is final. -/
theorem transcript_of_parseResults {readF32 : NumberLiteral → Option Float32}
    {object : List (String × Json)} {times : ExactTimes} {spoken : LiveTranscript}
    {followUp : Option LiveRecognitionEvent} (hspelled : times.Spelled object) (hfinal : Final object)
    (h : parseResults readF32 object = .ok (.events (.transcript spoken) followUp)) :
    spoken.startMillis = (times.start + 500000) / 1000000 ∧
      spoken.durationMillis = (times.duration + 500000) / 1000000 ∧ spoken.isFinal = true := by
  unfold parseResults at h
  simp only [bind_eq_ok, elim_eq_ok] at h
  obtain ⟨start, hstart, duration, hduration, startMillis, hstartMillis, durationMillis,
    hdurationMillis, isFinal, hisFinal, speechFinal, hspeechFinal, fromFinalize, -, alternative, -,
    text, -, confidence, -, h⟩ := h
  obtain rfl := Except.ok.inj (hspelled.1.symm.trans hstart)
  obtain rfl := Except.ok.inj (hspelled.2.symm.trans hduration)
  split at h
  · cases h
  · split at h
    · cases h
    · cases h
      refine ⟨secondsToMillis_nanos hstartMillis, secondsToMillis_nanos hdurationMillis, ?_⟩
      have hflag : isFinal = true ∨ speechFinal = true := hfinal.imp
        (fun h => Except.ok.inj (hisFinal.symm.trans h))
        (fun h => Except.ok.inj (hspeechFinal.symm.trans h))
      cases speechFinal with
      | true => rfl
      | false =>
        have hisFinal : isFinal = true := by simpa using hflag
        simp [LiveTranscript.isFinal, hisFinal]

/-- What happens to the timeline: audio is written or a message arrives, with its exact times. -/
inductive TimelineInput
  | audio (byteLen : ℕ)
  | results (object : List (String × Json)) (times : ExactTimes)

/-- The horizon an input met and the verdict on the transcript it returned. -/
structure TimelineOutput where
  horizonMillis : ℕ
  verdict : Option (Except LiveTimelineError Unit)
deriving DecidableEq

/-- A write the provider takes is prepared and committed; a returned transcript is validated. -/
def step (readF32 : NumberLiteral → Option Float32) (timeline : LiveTimeline) :
    TimelineInput → LiveTimeline × TimelineOutput
  | .audio byteLen =>
    match timeline.prepareAudioWrite byteLen with
    | .error _ => (timeline, ⟨timeline.acceptedHorizonMillis, none⟩)
    | .ok acceptance => (timeline.commitAudioWrite acceptance, ⟨timeline.acceptedHorizonMillis, none⟩)
  | .results object _ =>
    match parseResults readF32 object with
    | .ok (.events (.transcript spoken) _) =>
      let (next, verdict) := timeline.validateTranscript spoken
      (next, ⟨timeline.acceptedHorizonMillis, some verdict⟩)
    | _ => (timeline, ⟨timeline.acceptedHorizonMillis, none⟩)

/-- An input with its output. -/
abbrev Exchange := TimelineInput × TimelineOutput

/-- The exact times of an exchange which returned a transcript. -/
def returnedTimes : Exchange → Option ExactTimes
  | (.results _ times, output) => output.verdict.map fun _ => times
  | _ => none

/-- The exact times of the returned finals, in order. -/
def finalTimes (history : List Exchange) : List ExactTimes := history.filterMap returnedTimes

/-- No transcript of a history was rejected. -/
def Accepted (history : List Exchange) : Prop :=
  ∀ exchange ∈ history, ∀ verdict, exchange.2.verdict = some verdict → verdict = .ok ()

/-- Messages are finals whose exact times are in order and end inside the horizon they meet. -/
structure WellTimed (history : List Exchange) : Prop where
  spelled : ∀ object times output, (.results object times, output) ∈ history → times.Spelled object
  final : ∀ object times output, (.results object times, output) ∈ history → Final object
  within : ∀ object times output, (.results object times, output) ∈ history →
    times.start + times.duration ≤ 1000000 * output.horizonMillis
  ordered : (finalTimes history).IsChain ExactTimes.Follows

theorem accepted_append (history : List Exchange) (exchange : Exchange) :
    Accepted (history ++ [exchange]) ↔
      Accepted history ∧ ∀ verdict, exchange.2.verdict = some verdict → verdict = .ok () := by
  simp [Accepted, or_imp, forall_and]

@[simp] theorem finalTimes_append (history : List Exchange) (exchange : Exchange) :
    finalTimes (history ++ [exchange]) = finalTimes history ++ (returnedTimes exchange).toList := by
  cases h : returnedTimes exchange <;> simp [finalTimes, h]

theorem WellTimed.before {history : List Exchange} {exchange : Exchange}
    (h : WellTimed (history ++ [exchange])) : WellTimed history where
  spelled object times output hmem := h.spelled object times output (List.mem_append_left _ hmem)
  final object times output hmem := h.final object times output (List.mem_append_left _ hmem)
  within object times output hmem := h.within object times output (List.mem_append_left _ hmem)
  ordered := by
    have hordered := h.ordered
    rw [finalTimes_append] at hordered
    exact hordered.left_of_append

/-- What a history of well-timed messages says about the timeline it leads to. -/
structure Kept (rate : UInt32) (history : List Exchange) (timeline : LiveTimeline) : Prop where
  rate_eq : timeline.sampleRateHz = rate.toNat
  horizon_fits : timeline.acceptedHorizonMillis * timeline.sampleRateHz ≤ U64.MAX
  accepted_iff : Accepted history ↔ (finalTimes history).IsChain ExactTimes.RoundsInOrder
  last_eq : Accepted history →
    timeline.lastFinalEndMillis = (finalTimes history).getLast?.map ExactTimes.endMillis

section Kept

variable {rate : UInt32} {readF32 : NumberLiteral → Option Float32} {history : List Exchange}
  {timeline : LiveTimeline}

theorem Kept.initial (hnew : LiveTimeline.new rate 1 = .ok timeline) : Kept rate [] timeline := by
  obtain ⟨hrate, -, -, hhorizon, hlast⟩ := LiveTimeline.new_eq_ok hnew
  exact
    { rate_eq := hrate
      horizon_fits := by simp [hhorizon]
      accepted_iff := by simp [Accepted, finalTimes]
      last_eq := fun _ => hlast }

/-- An exchange without a transcript keeps the verdicts. -/
theorem Kept.silent (h : Kept rate history timeline) {exchange : Exchange}
    (hverdict : exchange.2.verdict = none) (htimes : returnedTimes exchange = none) :
    Kept rate (history ++ [exchange]) timeline where
  rate_eq := h.rate_eq
  horizon_fits := h.horizon_fits
  accepted_iff := by simpa [accepted_append, hverdict, htimes] using h.accepted_iff
  last_eq := by simpa [accepted_append, hverdict, htimes] using h.last_eq

/-- Committed audio keeps the verdicts. -/
theorem Kept.audio (h : Kept rate history timeline) (byteLen : ℕ) :
    Kept rate (history ++ [(.audio byteLen, (step readF32 timeline (.audio byteLen)).2)])
      (step readF32 timeline (.audio byteLen)).1 := by
  simp only [step]
  split
  · exact h.silent rfl rfl
  · rename_i acceptance hprepared
    obtain ⟨-, -, hfits, hhorizon⟩ := LiveTimeline.prepareAudioWrite_eq_ok hprepared
    have hsilent : Kept rate
        (history ++ [(.audio byteLen, ⟨timeline.acceptedHorizonMillis, none⟩)]) timeline :=
      h.silent rfl rfl
    exact
      { hsilent with
        horizon_fits := by
          dsimp only [LiveTimeline.commitAudioWrite]
          rw [hhorizon]
          exact (Nat.div_mul_le_self _ _).trans hfits }

/-- A well-timed final is accepted exactly when its rounded times are in order with the last one. -/
theorem Kept.transcript (h : Kept rate history timeline) (hrate : 2 ≤ rate.toNat)
    {object : List (String × Json)} {times : ExactTimes} {spoken : LiveTranscript}
    (hstart : spoken.startMillis = (times.start + 500000) / 1000000)
    (hduration : spoken.durationMillis = (times.duration + 500000) / 1000000)
    (hfinal : spoken.isFinal = true)
    (hwithin : times.start + times.duration ≤ 1000000 * timeline.acceptedHorizonMillis)
    (hordered : (finalTimes history ++ [times]).IsChain ExactTimes.Follows) :
    Kept rate
      (history ++ [(.results object times,
        ⟨timeline.acceptedHorizonMillis, some (timeline.validateTranscript spoken).2⟩)])
      (timeline.validateTranscript spoken).1 := by
  have hend : spoken.endMillis = times.endMillis := by
    rw [LiveTranscript.endMillis, hstart, hduration, ExactTimes.endMillis]
  have hbound := ExactTimes.endMillis_le hwithin
  have hmax : timeline.acceptedHorizonMillis + 1 ≤ U64.MAX := by
    have hfits := h.horizon_fits
    rw [h.rate_eq] at hfits
    have htwice := (Nat.mul_le_mul_left timeline.acceptedHorizonMillis hrate).trans hfits
    have hvalue : U64.MAX = 18446744073709551615 := rfl
    omega
  have hchain : (finalTimes history ++ [times]).IsChain ExactTimes.RoundsInOrder ↔
      Accepted history ∧ timeline.Admits spoken := by
    rw [List.isChain_append, h.accepted_iff]
    rw [List.isChain_append] at hordered
    refine and_congr_right fun hrounds => ?_
    have hlast := h.last_eq (h.accepted_iff.mpr hrounds)
    constructor
    · rintro ⟨-, hnext⟩
      refine ⟨by omega, by omega, fun _ previousEnd hprevious => ?_⟩
      rw [hlast, Option.map_eq_some_iff] at hprevious
      obtain ⟨previous, hprevious, rfl⟩ := hprevious
      have hfollows := hordered.2.2 previous hprevious times rfl
      rw [hstart]
      exact (ExactTimes.roundsInOrder_iff hfollows).mp (hnext previous hprevious times rfl)
    · rintro ⟨-, -, hafter⟩
      refine ⟨.singleton _, fun previous hprevious next hnext => ?_⟩
      obtain rfl : next = times := by simpa using hnext.symm
      have hfollows := hordered.2.2 previous hprevious next rfl
      rw [ExactTimes.roundsInOrder_iff hfollows, ← hstart]
      exact hafter hfinal _ (by rw [hlast, Option.mem_def.mp hprevious]; rfl)
  rcases timeline.validateTranscript_cases spoken with ⟨hreject, error, hvalidate⟩ | ⟨hadmits, hvalidate⟩
  · have hrejected : ¬ Accepted (history ++ [(.results object times,
        ⟨timeline.acceptedHorizonMillis, some (.error error)⟩)]) := by
      rw [accepted_append]
      rintro ⟨-, hok⟩
      cases hok _ rfl
    rw [hvalidate]
    refine ⟨h.rate_eq, h.horizon_fits, iff_of_false hrejected ?_, fun haccepted => absurd haccepted hrejected⟩
    rw [finalTimes_append]
    exact fun hrounds => hreject (hchain.mp hrounds).2
  · have haccepted : Accepted (history ++ [(.results object times,
        ⟨timeline.acceptedHorizonMillis, some (.ok ())⟩)]) ↔ Accepted history := by
      rw [accepted_append]
      exact and_iff_left fun verdict hverdict => (Option.some.inj hverdict).symm
    rw [hvalidate]
    refine ⟨?_, ?_, ?_, fun _ => ?_⟩
    · simpa using h.rate_eq
    · simpa using h.horizon_fits
    · rw [haccepted, finalTimes_append]
      exact (hchain.trans (and_iff_left hadmits)).symm
    · simp [LiveTimeline.accept, hfinal, hend, returnedTimes]

/-- Every well-timed exchange keeps the verdicts. -/
theorem Kept.step (h : Kept rate history timeline) (hrate : 2 ≤ rate.toNat) (input : TimelineInput)
    (htimed : WellTimed (history ++ [(input, (step readF32 timeline input).2)])) :
    Kept rate (history ++ [(input, (step readF32 timeline input).2)]) (step readF32 timeline input).1 := by
  cases input with
  | audio byteLen => exact h.audio byteLen
  | results object times =>
    have hmem := List.mem_append_right history
      (List.mem_singleton_self (TimelineInput.results object times, (FinalTimes.step readF32 timeline
        (.results object times)).2))
    have hspelled := htimed.spelled _ _ _ hmem
    have hfinal := htimed.final _ _ _ hmem
    have hwithin := htimed.within _ _ _ hmem
    have hordered := htimed.ordered
    rw [finalTimes_append] at hordered
    revert hwithin hordered
    simp only [FinalTimes.step]
    split
    · rename_i spoken followUp hparse
      intro hwithin hordered
      obtain ⟨hstart, hduration, hkind⟩ := transcript_of_parseResults hspelled hfinal hparse
      exact h.transcript hrate hstart hduration hkind hwithin hordered
    · intro _ _
      exact h.silent rfl rfl

/-- Well-timed finals of a session are all accepted exactly when no two of them round out of order. -/
theorem accepted_iff_roundsInOrder (hrate : rate = 16000 ∨ rate = 48000) {start : LiveTimeline}
    (hnew : LiveTimeline.new rate 1 = .ok start) (hrun : Runs (step readF32) start history timeline)
    (htimed : WellTimed history) :
    Accepted history ↔ (finalTimes history).IsChain ExactTimes.RoundsInOrder := by
  have htwo : 2 ≤ rate.toNat := by rcases hrate with rfl | rfl <;> decide
  have hkept := hrun.invariant (fun history timeline => WellTimed history → Kept rate history timeline)
    (fun _ => .initial hnew) (fun history timeline input h htimed =>
      (h htimed.before).step htwo input htimed) htimed
  exact hkept.accepted_iff

end Kept

/-- A final message of one word. -/
def message (start duration : NumberLiteral) : List (String × Json) :=
  [("start", .number start), ("duration", .number duration), ("is_final", .bool true),
    ("channel", .object [("alternatives", .array [.object [("transcript", .string "word")]])])]

/-- A message with its times and output is well timed on its own. -/
def Timely (object : List (String × Json)) (times : ExactTimes) (output : TimelineOutput) : Prop :=
  times.Spelled object ∧ Final object ∧ times.start + times.duration ≤ 1000000 * output.horizonMillis

/-- Audio and two timely messages in order are well timed. -/
theorem wellTimed_pair {byteLen : ℕ} {first second : List (String × Json)} {before after : ExactTimes}
    {output firstOutput secondOutput : TimelineOutput} (hfirst : Timely first before firstOutput)
    (hsecond : Timely second after secondOutput) (hfollows : before.Follows after) :
    WellTimed [(.audio byteLen, output), (.results first before, firstOutput),
      (.results second after, secondOutput)] := by
  have htimely : ∀ object times output', (TimelineInput.results object times, output') ∈
      [(TimelineInput.audio byteLen, output), (.results first before, firstOutput),
        (.results second after, secondOutput)] → Timely object times output' := by
    intro object times output' hmem
    simp only [List.mem_cons, Prod.mk.injEq, reduceCtorEq, TimelineInput.results.injEq, false_and,
      List.not_mem_nil, or_false, false_or] at hmem
    rcases hmem with ⟨⟨rfl, rfl⟩, rfl⟩ | ⟨⟨rfl, rfl⟩, rfl⟩
    · exact hfirst
    · exact hsecond
  refine ⟨fun object times output' hmem => (htimely object times output' hmem).1,
    fun object times output' hmem => (htimely object times output' hmem).2.1,
    fun object times output' hmem => (htimely object times output' hmem).2.2, ?_⟩
  cases hfirst : firstOutput.verdict <;> cases hsecond : secondOutput.verdict <;>
    simp [finalTimes, List.filterMap_cons, returnedTimes, hfirst, hsecond, hfollows]

/-- A final from half a millisecond to one millisecond and one from there on: the second is rejected. -/
theorem halfMilliseconds_rejected :
    let start : LiveTimeline := ⟨16000, 2, 0, 0, none, by decide, by decide⟩
    let first := message ⟨['0', '.', '0', '0', '0', '5'], by decide⟩ ⟨['0', '.', '0', '0', '0', '5'], by decide⟩
    let second := message ⟨['0', '.', '0', '0', '1'], by decide⟩ ⟨['0', '.', '5'], by decide⟩
    let history := (feed (step fun _ => none) start [.audio 32000, .results first ⟨500000, 500000⟩,
      .results second ⟨1000000, 500000000⟩]).1
    LiveTimeline.new 16000 1 = .ok start ∧ WellTimed history ∧
      history.map (fun exchange => exchange.2.verdict) =
        [none, some (.ok ()), some (.error .finalRegressionOrOverlap)] ∧
      ¬ Accepted history := by
  intro start first second history
  have houtputs : history.map Prod.snd =
      [⟨0, none⟩, ⟨1000, some (.ok ())⟩, ⟨1000, some (.error .finalRegressionOrOverlap)⟩] := by
    decide +kernel
  have hhistory : history = [(.audio 32000, ⟨0, none⟩),
      (.results first ⟨500000, 500000⟩, ⟨1000, some (.ok ())⟩),
      (.results second ⟨1000000, 500000000⟩, ⟨1000, some (.error .finalRegressionOrOverlap)⟩)] := by
    refine (feed_eq_zip _ _ _).trans ?_
    rw [houtputs]
    rfl
  have hfirst : Timely first ⟨500000, 500000⟩ ⟨1000, some (.ok ())⟩ :=
    ⟨⟨by decide +kernel, by decide +kernel⟩, .inl (by decide +kernel), by decide⟩
  have hsecond : Timely second ⟨1000000, 500000000⟩ ⟨1000, some (.error .finalRegressionOrOverlap)⟩ :=
    ⟨⟨by decide +kernel, by decide +kernel⟩, .inl (by decide +kernel), by decide⟩
  rw [hhistory]
  refine ⟨rfl, wellTimed_pair hfirst hsecond (Nat.le_refl _), rfl, fun haccepted => ?_⟩
  have hrejected := haccepted
    (.results second ⟨1000000, 500000000⟩, ⟨1000, some (.error .finalRegressionOrOverlap)⟩)
    (by simp) (.error .finalRegressionOrOverlap) rfl
  cases hrejected

/-- Quarter seconds round exactly and are accepted. -/
theorem accepted_iff_quarterSeconds :
    let start : LiveTimeline := ⟨16000, 2, 0, 0, none, by decide, by decide⟩
    let first := message ⟨['0'], by decide⟩ ⟨['0', '.', '2', '5'], by decide⟩
    let second := message ⟨['0', '.', '2', '5'], by decide⟩ ⟨['0', '.', '5'], by decide⟩
    let history := (feed (step fun _ => none) start [.audio 32000, .results first ⟨0, 250000000⟩,
      .results second ⟨250000000, 500000000⟩]).1
    Accepted history ↔ (finalTimes history).IsChain ExactTimes.RoundsInOrder := by
  intro start first second history
  have houtputs : history.map Prod.snd =
      [⟨0, none⟩, ⟨1000, some (.ok ())⟩, ⟨1000, some (.ok ())⟩] := by
    decide +kernel
  have hhistory : history = [(.audio 32000, ⟨0, none⟩),
      (.results first ⟨0, 250000000⟩, ⟨1000, some (.ok ())⟩),
      (.results second ⟨250000000, 500000000⟩, ⟨1000, some (.ok ())⟩)] := by
    refine (feed_eq_zip _ _ _).trans ?_
    rw [houtputs]
    rfl
  have hfirst : Timely first ⟨0, 250000000⟩ ⟨1000, some (.ok ())⟩ :=
    ⟨⟨by decide +kernel, by decide +kernel⟩, .inl (by decide +kernel), by decide⟩
  have hsecond : Timely second ⟨250000000, 500000000⟩ ⟨1000, some (.ok ())⟩ :=
    ⟨⟨by decide +kernel, by decide +kernel⟩, .inl (by decide +kernel), by decide⟩
  have htimed : WellTimed history := hhistory ▸ wellTimed_pair hfirst hsecond (Nat.le_refl _)
  have hnew : LiveTimeline.new 16000 1 = .ok start := rfl
  exact accepted_iff_roundsInOrder (.inl rfl) hnew (runs_feed _ start _) htimed

end Voicetext.Providers.Deepgram.FinalTimes
