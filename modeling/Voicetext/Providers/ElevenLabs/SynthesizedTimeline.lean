import Voicetext.Common.Machine
import Voicetext.Providers.ElevenLabs.LiveState
import Voicetext.Speech.Application.LiveTimeline

/-!
# The synthesized timeline meets the gateway's timing policy

Only two cursors of the adapter matter for timing: the end of the last segment and the end of the last
committed utterance. Finals never end beyond the segment cursor, and an utterance starts at the
committed cursor only when no segment final has been returned since, so every transcript is accepted.
-/

namespace Voicetext.Providers.ElevenLabs

open Voicetext.Common Voicetext.Speech.Application

/-- The cursors of the adapter and whether it holds stable text. -/
structure Cursors where
  segmentEnd : ℕ
  committedEnd : ℕ
  stable : Prop

/-- What a message does to the cursors, and the transcript it returns, when audio ends at `horizon`. -/
inductive Cursors.Moves (horizon : ℕ) (cursors : Cursors) : Option LiveTranscript → Cursors → Prop
  | silent : Moves horizon cursors none cursors
  | partial_ {spoken : LiveTranscript} (hkind : spoken.isFinal = false)
      (hstart : spoken.startMillis = max cursors.segmentEnd cursors.committedEnd)
      (hduration : spoken.durationMillis = horizon - spoken.startMillis) :
      Moves horizon cursors (some spoken) cursors
  | segmentFinal {spoken : LiveTranscript} {stable : Prop} (hstable : stable) (hkind : spoken.isFinal = true)
      (hstart : spoken.startMillis = max cursors.segmentEnd cursors.committedEnd)
      (hduration : spoken.durationMillis = max horizon spoken.startMillis - spoken.startMillis) :
      Moves horizon cursors (some spoken)
        ⟨max horizon (max cursors.segmentEnd cursors.committedEnd), cursors.committedEnd, stable⟩
  | utteranceFinal {spoken : Option LiveTranscript} {stable : Prop}
      (hspoken : ∀ final, spoken = some final →
        final.isFinal = true ∧
        (final.startMillis = cursors.committedEnd ∧ ¬ cursors.stable ∨
          final.startMillis = max cursors.committedEnd
            (min cursors.segmentEnd (max horizon cursors.committedEnd))) ∧
        final.durationMillis = max horizon cursors.committedEnd - final.startMillis) :
      Moves horizon cursors spoken
        ⟨max horizon cursors.committedEnd, max horizon cursors.committedEnd, stable⟩

/-- The cursors stand between the last accepted final and the accepted horizon. -/
structure Cursors.Sound (cursors : Cursors) (timeline : LiveTimeline) : Prop where
  committed_le : cursors.committedEnd ≤ cursors.segmentEnd
  segment_le : cursors.segmentEnd ≤ timeline.acceptedHorizonMillis
  last_le : ∀ lastEnd, timeline.lastFinalEndMillis = some lastEnd → lastEnd ≤ cursors.segmentEnd
  unstable : ¬ cursors.stable →
    ∀ lastEnd, timeline.lastFinalEndMillis = some lastEnd → lastEnd ≤ cursors.committedEnd

/-- A transcript of sound cursors ends at the horizon, is admitted and leaves the cursors sound. -/
theorem Cursors.Sound.moves {cursors cursors' : Cursors} {timeline : LiveTimeline}
    {spoken : Option LiveTranscript} (h : cursors.Sound timeline)
    (hmoves : cursors.Moves timeline.acceptedHorizonMillis spoken cursors')
    (hfits : timeline.acceptedHorizonMillis ≤ U64.MAX) :
    (∀ transcript, spoken = some transcript →
      timeline.Admits transcript ∧ transcript.endMillis = timeline.acceptedHorizonMillis) ∧
      cursors'.Sound (spoken.elim timeline timeline.accept) := by
  have hcommitted := h.committed_le
  have hsegment := h.segment_le
  have hadmits {transcript : LiveTranscript}
      (hend : transcript.endMillis = timeline.acceptedHorizonMillis)
      (hfollows : transcript.isFinal → ∀ lastEnd,
        timeline.lastFinalEndMillis = some lastEnd → lastEnd ≤ transcript.startMillis) :
      timeline.Admits transcript := ⟨by omega, by omega, hfollows⟩
  -- a final which ends at the horizon becomes the last one
  have hlast {final : LiveTranscript} {lastEnd : ℕ} (hfinal : final.isFinal = true)
      (hend : final.endMillis = timeline.acceptedHorizonMillis)
      (h : (timeline.accept final).lastFinalEndMillis = some lastEnd) :
      lastEnd = timeline.acceptedHorizonMillis := by
    rw [LiveTimeline.accept, if_pos hfinal] at h
    rw [← Option.some.inj h, hend]
  cases hmoves with
  | silent => exact ⟨by simp, h⟩
  | @partial_ spoken hkind hstart hduration =>
    have hend : spoken.endMillis = timeline.acceptedHorizonMillis := by
      rw [LiveTranscript.endMillis]
      omega
    refine ⟨?_, ?_⟩
    · rintro _ ⟨⟩
      exact ⟨hadmits hend (by simp [hkind]), hend⟩
    · simpa [LiveTimeline.accept, hkind] using h
  | @segmentFinal spoken _ hstable hkind hstart hduration =>
    have hend : spoken.endMillis = timeline.acceptedHorizonMillis := by
      rw [LiveTranscript.endMillis]
      omega
    refine ⟨?_, ⟨?_, ?_, ?_, ?_⟩⟩
    · rintro _ ⟨⟩
      refine ⟨hadmits hend fun _ lastEnd hlastEnd => ?_, hend⟩
      have hbefore := h.last_le lastEnd hlastEnd
      omega
    · simp
    · simp
      omega
    · intro lastEnd hlastEnd
      rw [hlast hkind hend hlastEnd]
      simp
    · intro hunstable
      exact absurd hstable hunstable
  | utteranceFinal hspoken =>
    have hhorizon : max timeline.acceptedHorizonMillis cursors.committedEnd =
        timeline.acceptedHorizonMillis := by omega
    rw [hhorizon] at hspoken ⊢
    have hend {final : LiveTranscript} (hfinal : spoken = some final) :
        final.endMillis = timeline.acceptedHorizonMillis := by
      obtain ⟨-, hstart, hduration⟩ := hspoken final hfinal
      rw [LiveTranscript.endMillis]
      omega
    have hnext : ∀ lastEnd, (spoken.elim timeline timeline.accept).lastFinalEndMillis = some lastEnd →
        lastEnd ≤ timeline.acceptedHorizonMillis := by
      intro lastEnd hlastEnd
      cases hcase : spoken with
      | none =>
        rw [hcase] at hlastEnd
        have hbefore := h.last_le lastEnd hlastEnd
        omega
      | some final =>
        rw [hcase] at hlastEnd
        exact (hlast (hspoken final hcase).1 (hend hcase) hlastEnd).le
    have hsame : (spoken.elim timeline timeline.accept).acceptedHorizonMillis =
        timeline.acceptedHorizonMillis := by cases spoken <;> simp
    refine ⟨fun final hfinal => ⟨hadmits (hend hfinal) fun _ lastEnd hlastEnd => ?_, hend hfinal⟩,
      ⟨le_rfl, hsame.ge, hnext, fun _ => hnext⟩⟩
    have hbefore := h.last_le lastEnd hlastEnd
    obtain ⟨-, ⟨hstart, hstable⟩ | hstart, -⟩ := hspoken final hfinal
    · rw [hstart]
      exact h.unstable hstable lastEnd hlastEnd
    · omega

/-- The cursors of a state; stable text is what is left of it once trimmed. -/
def LiveState.cursors (state : LiveState) : Cursors :=
  ⟨state.segmentEndMillis, state.committedEndMillis, Text.trim state.stableText ≠ ""⟩

/-- The transcript of an event. -/
def transcript? : LiveRecognitionEvent → Option LiveTranscript
  | .transcript spoken => some spoken
  | _ => none

/-- A text with letters or digits leaves stable text behind. -/
theorem appendStable_stable {tables : UnicodeTables} {text : String}
    (h : normalize tables text ≠ "") (accumulator : String) :
    Text.trim (appendStable accumulator text) ≠ "" := by
  obtain ⟨word, hword, c, hc⟩ : ∃ word ∈ Text.splitWhitespace text, ∃ c, c ∈ word := by
    by_contra hnone
    push Not at hnone
    apply h
    have hflat : (Text.splitWhitespace text).flatten = [] := by
      rw [List.flatten_eq_nil_iff]
      exact fun word hword => List.eq_nil_iff_forall_not_mem.mpr (hnone word hword)
    simp [normalize, hflat]
  obtain ⟨hmem, hspace⟩ := Text.mem_of_mem_splitWhitespace hword hc
  have hkept : c ∈ (appendStable accumulator text).toList := by
    simp [appendStable, Text.trim, Text.mem_trimChars hmem hspace]
  exact Text.trim_ne_empty hkept hspace

/-- The result of a message moves the cursors, leaves the audio alone and queues only markers. -/
structure LiveState.Follows (state : LiveState) (result : LiveState × Option LiveRecognitionEvent) :
    Prop where
  moves : state.cursors.Moves state.userAudioMillis (result.2.bind transcript?) result.1.cursors
  rate_eq : result.1.sampleRateHz = state.sampleRateHz
  bytes_eq : result.1.userAudioBytes = state.userAudioBytes
  queued : ∀ event ∈ result.1.pending, event ∈ state.pending ∨ event = .finalizeResultObserved

variable (state : LiveState) (tables : UnicodeTables) (text : String) (confidence : Option Float32)

theorem LiveState.follows_partialTranscript :
    state.Follows (state.partialTranscript tables text confidence) := by
  unfold partialTranscript
  split
  · exact ⟨.silent, rfl, rfl, fun _ => .inl⟩
  · exact ⟨.partial_ rfl rfl rfl, rfl, rfl, fun _ => .inl⟩

theorem LiveState.follows_segmentFinal : state.Follows (state.segmentFinal tables text confidence) := by
  unfold segmentFinal
  dsimp only
  split
  · exact ⟨.silent, rfl, rfl, fun _ => .inl⟩
  · rename_i hnew
    have hstable := appendStable_stable (not_or.mp hnew).1 state.stableText
    exact ⟨.segmentFinal hstable rfl rfl rfl, rfl, rfl, fun _ => .inl⟩

/-- A committed transcript ends with the audio; it starts at the committed cursor only when there is
no stable text to start from. -/
theorem LiveState.committedEvent_eq_some {endMillis : ℕ} {event : LiveRecognitionEvent}
    (h : state.committedEvent tables text confidence endMillis = some event) :
    ∃ final, event = .transcript final ∧ final.isFinal = true ∧
      (final.startMillis = state.committedEndMillis ∧ Text.trim state.stableText = "" ∨
        final.startMillis = max state.committedEndMillis (min state.segmentEndMillis endMillis)) ∧
      final.durationMillis = endMillis - final.startMillis := by
  unfold committedEvent at h
  dsimp only at h
  split at h
  · cases h
  · rename_i hnew
    simp only [not_or] at hnew
    obtain ⟨-, -, hsuffix, hunstable⟩ := hnew
    cases hreconciled : committedSuffixAfterStablePrefix tables text state.stableText with
    | none =>
      rw [hreconciled] at h hunstable
      cases h
      exact ⟨_, rfl, rfl, .inl ⟨rfl, by simpa using hunstable⟩, rfl⟩
    | some suffix =>
      rw [hreconciled] at h hsuffix
      have hnonempty : suffix ≠ "" := fun heq => hsuffix (by rw [heq])
      simp only [if_neg hnonempty] at h
      cases h
      exact ⟨_, rfl, rfl, .inr rfl, rfl⟩

theorem LiveState.follows_utteranceFinal : state.Follows (state.utteranceFinal tables text confidence) := by
  have hspoken : ∀ event, state.committedEvent tables text confidence
      (max state.userAudioMillis state.committedEndMillis) = some event →
      ∀ final, transcript? event = some final → final.isFinal = true ∧
        (final.startMillis = state.cursors.committedEnd ∧ ¬ state.cursors.stable ∨
          final.startMillis = max state.cursors.committedEnd
            (min state.cursors.segmentEnd (max state.userAudioMillis state.cursors.committedEnd))) ∧
        final.durationMillis =
          max state.userAudioMillis state.cursors.committedEnd - final.startMillis := by
    intro event hevent final hfinal
    obtain ⟨_, rfl, hkind, hstart, hduration⟩ := state.committedEvent_eq_some tables text confidence hevent
    cases hfinal
    exact ⟨hkind, hstart.imp_left fun h => ⟨h.1, not_not.mpr h.2⟩, hduration⟩
  unfold utteranceFinal
  dsimp only
  cases hevent : state.committedEvent tables text confidence
      (max state.userAudioMillis state.committedEndMillis) with
  | none =>
    split
    · exact ⟨.utteranceFinal (by simp [transcript?]), rfl, rfl, fun _ => .inl⟩
    · exact ⟨.utteranceFinal (by simp), rfl, rfl, fun _ => .inl⟩
  | some event =>
    split
    · refine ⟨.utteranceFinal (hspoken event hevent), rfl, rfl, fun queued hqueued => ?_⟩
      rcases List.mem_append.mp hqueued with hqueued | hqueued
      · refine .inl ?_
        split at hqueued
        · exact List.mem_of_mem_tail hqueued
        · exact hqueued
      · exact .inr (List.mem_singleton.mp hqueued)
    · exact ⟨.utteranceFinal (hspoken event hevent), rfl, rfl, fun _ => .inl⟩

/-- What a parsed message does to a state, and the transcript it returns. -/
theorem LiveState.follows_apply (message : ParsedLiveMessage) :
    state.Follows (state.apply tables message) := by
  cases message with
  | sessionStarted reference => cases reference <;> exact ⟨.silent, rfl, rfl, fun _ => .inl⟩
  | terminalError code => exact ⟨.silent, rfl, rfl, fun _ => .inl⟩
  | ignore => exact ⟨.silent, rfl, rfl, fun _ => .inl⟩
  | transcript kind text confidence =>
    cases kind with
    | partial_ => exact state.follows_partialTranscript tables text confidence
    | segmentFinal => exact state.follows_segmentFinal tables text confidence
    | utteranceFinal => exact state.follows_utteranceFinal tables text confidence

/-- The adapter's state beside the gateway's timeline of the same session. -/
structure SynthesizedSession where
  state : LiveState
  timeline : LiveTimeline

/-- What happens to both: audio is written, a message is parsed or finalization begins or is undone. -/
inductive SynthesizedInput
  | audio (bytes : ℕ)
  | message (message : ParsedLiveMessage)
  | beginFinalize
  | cancelFinalize
  | popPending

/-- An event the adapter returned with the gateway's verdict on it. -/
abbrev SynthesizedOutput := Option (LiveRecognitionEvent × Except LiveTimelineError Unit)

/-- Submit a returned event to the timeline; only transcripts are validated. -/
def submit (timeline : LiveTimeline) : Option LiveRecognitionEvent → LiveTimeline × SynthesizedOutput
  | none => (timeline, none)
  | some (.transcript spoken) =>
    let (timeline, verdict) := timeline.validateTranscript spoken
    (timeline, some (.transcript spoken, verdict))
  | some event => (timeline, some (event, .ok ()))

namespace SynthesizedSession

/-- Both sides record the audio, or the adapter's event is submitted at once. -/
def step (tables : UnicodeTables) (session : SynthesizedSession) :
    SynthesizedInput → SynthesizedSession × SynthesizedOutput
  | .audio bytes =>
    let timeline := match session.timeline.prepareAudioWrite bytes with
      | .error _ => session.timeline
      | .ok acceptance => session.timeline.commitAudioWrite acceptance
    (⟨session.state.recordAudio bytes, timeline⟩, none)
  | .message message =>
    let (state, event) := session.state.apply tables message
    let (timeline, output) := submit session.timeline event
    (⟨state, timeline⟩, output)
  | .beginFinalize => ({ session with state := session.state.beginFinalize }, none)
  | .cancelFinalize => ({ session with state := session.state.cancelFinalize }, none)
  | .popPending =>
    let (state, event) := session.state.popPending
    let (timeline, output) := submit session.timeline event
    (⟨state, timeline⟩, output)

/-- A call with the event it returned and the verdict on it. -/
abbrev Exchange := SynthesizedInput × SynthesizedOutput

/-- The bytes of audio an exchange recorded. -/
def audioBytes : Exchange → ℕ
  | (.audio bytes, _) => bytes
  | _ => 0

/-- The bytes of audio a history recorded. -/
def recordedBytes (history : List Exchange) : ℕ := (history.map audioBytes).sum

/-- The final transcripts a history returned, in order. -/
def finals (history : List Exchange) : List LiveTranscript :=
  (history.filterMap fun exchange => exchange.2.bind fun output => transcript? output.1).filter
    LiveTranscript.isFinal

/-- Both sides of a session agree on its audio, and the cursors are sound. -/
structure Agrees (rate : UInt32) (history : List Exchange) (session : SynthesizedSession) : Prop where
  state_rate : session.state.sampleRateHz = rate
  rate_eq : session.timeline.sampleRateHz = session.state.sampleRateHz.toNat
  frame_eq : session.timeline.bytesPerSampleFrame = 2
  bytes_eq : session.state.userAudioBytes = recordedBytes history
  frames_eq : recordedBytes history = session.timeline.acceptedSampleFrames * 2
  horizon_eq : session.timeline.acceptedHorizonMillis =
    1000 * session.timeline.acceptedSampleFrames / session.timeline.sampleRateHz
  sound : session.state.cursors.Sound session.timeline
  accepted : session.timeline.Accepted (finals history)
  queued : ∀ event ∈ session.state.pending, event = .finalizeResultObserved

section Agrees

variable {rate : UInt32} {tables : UnicodeTables} {history : List Exchange} {session : SynthesizedSession}

/-- The adapter's clock is the accepted horizon. -/
theorem Agrees.userAudioMillis_eq (h : Agrees rate history session)
    (hfits : recordedBytes history * 1000 ≤ U64.MAX) :
    session.state.userAudioMillis = session.timeline.acceptedHorizonMillis := by
  have hrate : session.state.sampleRateHz.toNat * 2 ≠ 0 := by
    have hpos := session.timeline.rate_pos
    rw [h.rate_eq] at hpos
    omega
  rw [LiveState.userAudioMillis, h.bytes_eq, U64.saturatingMul_of_le hfits, U64.checkedDiv,
    BYTES_PER_SAMPLE, if_neg hrate, Option.getD_some, h.horizon_eq, h.rate_eq, h.frames_eq]
  calc session.timeline.acceptedSampleFrames * 2 * 1000 / (session.state.sampleRateHz.toNat * 2)
      = 1000 * session.timeline.acceptedSampleFrames * 2 / (session.state.sampleRateHz.toNat * 2) := by
        rw [Nat.mul_right_comm, Nat.mul_comm session.timeline.acceptedSampleFrames 1000]
    _ = 1000 * session.timeline.acceptedSampleFrames / session.state.sampleRateHz.toNat :=
        Nat.mul_div_mul_right _ _ (by decide)

/-- The horizon of audio that fits 64 bits fits 64 bits. -/
theorem Agrees.horizon_fits (h : Agrees rate history session)
    (hfits : recordedBytes history * 1000 ≤ U64.MAX) :
    session.timeline.acceptedHorizonMillis ≤ U64.MAX := by
  rw [h.horizon_eq]
  refine (Nat.div_le_self _ _).trans ?_
  rw [h.frames_eq] at hfits
  omega

theorem Agrees.initial {timeline : LiveTimeline}
    (hnew : LiveTimeline.new rate 1 = .ok timeline) (reference : Option ProviderReference) :
    Agrees rate [] ⟨.new rate reference, timeline⟩ := by
  obtain ⟨hrate, hframe, haccepted, hhorizon, hlast⟩ := LiveTimeline.new_eq_ok hnew
  exact
    { state_rate := rfl
      rate_eq := hrate
      frame_eq := hframe
      bytes_eq := rfl
      frames_eq := by simp [haccepted, recordedBytes]
      horizon_eq := by simp [haccepted, hhorizon]
      sound := ⟨le_rfl, by simp [LiveState.cursors, LiveState.new], by simp [hlast], by simp [hlast]⟩
      accepted := ⟨hlast, by simp [finals], .nil⟩
      queued := by simp [LiveState.new] }

@[simp] theorem recordedBytes_append (history : List Exchange) (exchange : Exchange) :
    recordedBytes (history ++ [exchange]) = recordedBytes history + audioBytes exchange := by
  simp [recordedBytes]

/-- An exchange without a transcript adds no final. -/
theorem finals_append_of_none (history : List Exchange) {exchange : Exchange}
    (h : (exchange.2.bind fun output => transcript? output.1) = none) :
    finals (history ++ [exchange]) = finals history := by
  simp [finals, h]

/-- Recording the same audio on both sides moves both clocks together. -/
theorem Agrees.audio (h : Agrees rate history session) {bytes : ℕ} (heven : bytes % 2 = 0)
    (hfits : (recordedBytes history + bytes) * 1000 ≤ U64.MAX) :
    Agrees rate (history ++ [(.audio bytes, none)]) (session.step tables (.audio bytes)).1 := by
  have hbytes : (session.state.recordAudio bytes).userAudioBytes = recordedBytes history + bytes := by
    have hbound : min bytes U64.MAX = bytes := min_eq_left (by omega)
    rw [LiveState.recordAudio, h.bytes_eq, hbound]
    exact U64.saturatingAdd_of_le (by omega)
  have hfinals : finals (history ++ [(.audio bytes, none)]) = finals history :=
    finals_append_of_none history rfl
  cases hprepare : session.timeline.prepareAudioWrite bytes with
  | error error =>
    -- the timeline refuses even audio that fits only when there is none
    have hzero : bytes = 0 := by
      by_contra hpos
      have hprepared : ∃ acceptance, session.timeline.prepareAudioWrite bytes = .ok acceptance :=
        LiveTimeline.prepareAudioWrite_of_fits hpos (by rwa [h.frame_eq])
          (by rwa [h.frame_eq, ← h.frames_eq])
      obtain ⟨acceptance, hok⟩ := hprepared
      cases hprepare.symm.trans hok
    subst hzero
    simp only [step, hprepare]
    exact
      { h with
        bytes_eq := by simpa [audioBytes] using hbytes
        frames_eq := by simpa [audioBytes] using h.frames_eq
        accepted := hfinals ▸ h.accepted }
  | ok acceptance =>
    obtain ⟨-, htotal, -, hhorizon⟩ := LiveTimeline.prepareAudioWrite_eq_ok hprepare
    have hgrows : session.timeline.acceptedHorizonMillis ≤ acceptance.horizonMillis := by
      rw [h.horizon_eq, hhorizon, htotal]
      exact Nat.div_le_div_right (Nat.mul_le_mul_left 1000 (Nat.le_add_right _ _))
    simp only [step, hprepare]
    exact
      { state_rate := h.state_rate
        rate_eq := h.rate_eq
        frame_eq := h.frame_eq
        bytes_eq := by simpa [audioBytes] using hbytes
        frames_eq := by
          have hframes := h.frames_eq
          rw [h.frame_eq] at htotal
          simp only [recordedBytes_append, audioBytes, LiveTimeline.commitAudioWrite, htotal]
          omega
        horizon_eq := hhorizon
        sound :=
          { h.sound with
            segment_le := h.sound.segment_le.trans hgrows }
        accepted := hfinals ▸ ⟨h.accepted.last_eq, h.accepted.bounded, h.accepted.ordered⟩
        queued := h.queued }

/-- An admitted event is accepted as it is. -/
theorem submit_of_admits {timeline : LiveTimeline} {event : Option LiveRecognitionEvent}
    (hadmits : ∀ spoken, event.bind transcript? = some spoken → timeline.Admits spoken) :
    submit timeline event =
      ((event.bind transcript?).elim timeline timeline.accept, event.map fun event => (event, .ok ())) := by
  match event with
  | none => rfl
  | some (.transcript spoken) =>
    rcases timeline.validateTranscript_cases spoken with ⟨hreject, -⟩ | ⟨-, hvalidate⟩
    · exact absurd (hadmits spoken rfl) hreject
    · simp [submit, hvalidate, transcript?]
  | some (.utteranceEnd lastWordEndMillis) => rfl
  | some .finalizeResultObserved => rfl

/-- An event of the adapter is accepted by the agreeing timeline and ends by the horizon. -/
theorem Agrees.submitted (h : Agrees rate history session)
    (hfits : recordedBytes history * 1000 ≤ U64.MAX)
    {result : LiveState × Option LiveRecognitionEvent} (hfollows : session.state.Follows result)
    {input : SynthesizedInput} (hinput : ∀ output, audioBytes (input, output) = 0) :
    Agrees rate (history ++ [(input, (submit session.timeline result.2).2)])
        ⟨result.1, (submit session.timeline result.2).1⟩ ∧
      ∀ spoken verdict, (submit session.timeline result.2).2 = some (.transcript spoken, verdict) →
        verdict = .ok () ∧ spoken.endMillis ≤ session.timeline.acceptedHorizonMillis := by
  have hmoves := hfollows.moves
  rw [h.userAudioMillis_eq hfits] at hmoves
  obtain ⟨hadmits, hsound⟩ := h.sound.moves hmoves (h.horizon_fits hfits)
  rw [submit_of_admits fun spoken hspoken => (hadmits spoken hspoken).1]
  have hfinals : finals (history ++ [(input, result.2.map fun event => (event, .ok ()))]) =
      finals history ++ (result.2.bind transcript?).elim [] fun spoken =>
        if spoken.isFinal then [spoken] else [] := by
    cases hevent : result.2 with
    | none => simp [finals]
    | some event =>
      cases hspoken : transcript? event with
      | none => simp [finals, hspoken]
      | some spoken => cases hfinal : spoken.isFinal <;> simp [finals, hspoken, hfinal]
  constructor
  · refine
      { state_rate := hfollows.rate_eq.trans h.state_rate
        rate_eq := ?_
        frame_eq := ?_
        bytes_eq := by simpa [hinput, hfollows.bytes_eq] using h.bytes_eq
        frames_eq := ?_
        horizon_eq := ?_
        sound := hsound
        accepted := ?_
        queued := fun event hevent => (hfollows.queued event hevent).elim (h.queued event) id }
    · cases result.2.bind transcript? <;> simpa [hfollows.rate_eq] using h.rate_eq
    · cases result.2.bind transcript? <;> simpa using h.frame_eq
    · cases result.2.bind transcript? <;> simpa [hinput] using h.frames_eq
    · cases result.2.bind transcript? <;> simpa using h.horizon_eq
    · rw [hfinals]
      cases hspoken : result.2.bind transcript? with
      | none => simpa using h.accepted
      | some spoken => exact h.accepted.accept (hadmits spoken hspoken).1
  · intro spoken verdict houtput
    obtain ⟨event, hevent, hpair⟩ := Option.map_eq_some_iff.mp houtput
    cases hpair
    exact ⟨rfl, (hadmits spoken (by rw [hevent]; rfl)).2.le⟩

/-- A queued marker is popped without moving anything. -/
theorem LiveState.follows_popPending {state : LiveState}
    (hqueued : ∀ event ∈ state.pending, event = .finalizeResultObserved) :
    state.Follows state.popPending := by
  refine ⟨?_, rfl, rfl, fun event hevent => .inl (List.mem_of_mem_tail hevent)⟩
  cases hpending : state.pending with
  | nil =>
    simp only [LiveState.popPending, hpending, List.head?_nil, Option.bind_none]
    exact .silent
  | cons event rest =>
    have hmarker := hqueued event (by rw [hpending]; exact List.mem_cons_self)
    simp only [LiveState.popPending, hpending, List.head?_cons, hmarker, Option.bind_some, transcript?]
    exact .silent

/-- Every call keeps the agreement, and the timeline accepts what it returns. -/
theorem Agrees.step (h : Agrees rate history session) (tables : UnicodeTables) (input : SynthesizedInput)
    (heven : ∀ bytes, input = .audio bytes → bytes % 2 = 0)
    (hfits : (recordedBytes history + audioBytes (input, none)) * 1000 ≤ U64.MAX) :
    Agrees rate (history ++ [(input, (session.step tables input).2)]) (session.step tables input).1 ∧
      ∀ spoken verdict, (session.step tables input).2 = some (.transcript spoken, verdict) →
        verdict = .ok () ∧ spoken.endMillis ≤ session.timeline.acceptedHorizonMillis := by
  -- what only changes the finalize flag returns nothing
  have hquiet {state : LiveState} (hstate : session.state.Follows (state, none))
      (hinput : ∀ output, audioBytes (input, output) = 0) :=
    (h.submitted (by simpa [hinput] using hfits) hstate hinput).1
  cases input with
  | audio bytes => exact ⟨h.audio (heven bytes rfl) hfits, by simp [SynthesizedSession.step]⟩
  | message message =>
    exact h.submitted (by simpa [audioBytes] using hfits) (session.state.follows_apply tables message)
      fun _ => rfl
  | beginFinalize =>
    exact ⟨hquiet ⟨.silent, rfl, rfl, fun _ => .inl⟩ fun _ => rfl, by simp [SynthesizedSession.step]⟩
  | cancelFinalize =>
    exact ⟨hquiet ⟨.silent, rfl, rfl, fun _ => .inl⟩ fun _ => rfl, by simp [SynthesizedSession.step]⟩
  | popPending =>
    exact h.submitted (by simpa [audioBytes] using hfits) (LiveState.follows_popPending h.queued)
      fun _ => rfl

end Agrees

/-- The gateway accepts every transcript of a run, none ends beyond the horizon of the audio recorded
before it, and the finals follow each other. -/
structure PolicyMet (rate : UInt32) (history : List Exchange) : Prop where
  accepted : ∀ input spoken verdict, (input, some (.transcript spoken, verdict)) ∈ history →
    verdict = .ok ()
  within : ∀ before after input spoken verdict,
    history = before ++ (input, some (.transcript spoken, verdict)) :: after →
      spoken.startMillis + spoken.durationMillis ≤ 1000 * (recordedBytes before / 2) / rate.toNat
  finals_ordered : (finals history).IsChain fun previous next =>
    previous.startMillis + previous.durationMillis ≤ next.startMillis

section Runs

variable {rate : UInt32} {tables : UnicodeTables} {reference : Option ProviderReference}
  {timeline : LiveTimeline} {history : List Exchange} {session : SynthesizedSession}

/-- Audio a history recorded is even and fits the 64-bit products. -/
def Fits (history : List Exchange) : Prop :=
  (∀ bytes output, (.audio bytes, output) ∈ history → bytes % 2 = 0) ∧
    recordedBytes history * 1000 ≤ U64.MAX

theorem Fits.before {before after : List Exchange} (h : Fits (before ++ after)) : Fits before := by
  refine ⟨fun bytes output hmem => h.1 bytes output (List.mem_append_left after hmem), ?_⟩
  have hle : recordedBytes before ≤ recordedBytes (before ++ after) := by
    simp [recordedBytes]
  exact (Nat.mul_le_mul_right 1000 hle).trans h.2

/-- The next input of fitting audio is even and fits. -/
theorem Fits.next {input : SynthesizedInput} {output : SynthesizedOutput}
    (h : Fits (history ++ [(input, output)])) :
    (∀ bytes, input = .audio bytes → bytes % 2 = 0) ∧
      (recordedBytes history + audioBytes (input, none)) * 1000 ≤ U64.MAX := by
  refine ⟨?_, ?_⟩
  · rintro bytes rfl
    exact h.1 bytes output (by simp)
  · have htotal := h.2
    rw [recordedBytes_append] at htotal
    cases input <;> exact htotal

/-- The two sides agree after every run with fitting audio. -/
theorem agrees_of_runs (hnew : LiveTimeline.new rate 1 = .ok timeline)
    (hrun : Runs (SynthesizedSession.step tables) ⟨.new rate reference, timeline⟩ history session)
    (hfits : Fits history) : Agrees rate history session := by
  refine hrun.invariant (fun history session => Fits history → Agrees rate history session)
    (fun _ => .initial hnew reference) (fun history session input h hfits => ?_) hfits
  obtain ⟨heven, hnext⟩ := hfits.next
  exact ((h hfits.before).step tables input heven hnext).1

/-- Every run with fitting audio meets the gateway's timing policy. -/
theorem policyMet_of_runs (hnew : LiveTimeline.new rate 1 = .ok timeline)
    (hrun : Runs (SynthesizedSession.step tables) ⟨.new rate reference, timeline⟩ history session)
    (heven : ∀ bytes output, (.audio bytes, output) ∈ history → bytes % 2 = 0)
    (hfits : recordedBytes history * 1000 ≤ U64.MAX) : PolicyMet rate history := by
  have hreturned : ∀ before after input spoken verdict,
      history = before ++ (input, some (.transcript spoken, verdict)) :: after →
        verdict = .ok () ∧ spoken.endMillis ≤ 1000 * (recordedBytes before / 2) / rate.toNat := by
    rintro before after input spoken verdict rfl
    obtain ⟨middle, hbefore, houtput⟩ := hrun.exchange
    have hwhole : Fits ((before ++ [(input, some (.transcript spoken, verdict))]) ++ after) :=
      ⟨by simpa using heven, by simpa using hfits⟩
    have hupto := hwhole.before
    obtain ⟨hbytes, hnext⟩ := hupto.next
    have hagrees := agrees_of_runs hnew hbefore hupto.before
    obtain ⟨-, hverdict⟩ := hagrees.step tables input hbytes hnext
    obtain ⟨hok, hend⟩ := hverdict spoken verdict houtput.symm
    rw [hagrees.horizon_eq, hagrees.rate_eq, hagrees.state_rate] at hend
    rw [hagrees.frames_eq, Nat.mul_div_cancel _ (by decide)]
    exact ⟨hok, hend⟩
  refine ⟨fun input spoken verdict hmem => ?_, fun before after input spoken verdict h =>
    (hreturned before after input spoken verdict h).2, ?_⟩
  · obtain ⟨before, after, h⟩ := List.append_of_mem hmem
    exact (hreturned before after input spoken verdict h).1
  · exact (agrees_of_runs hnew hrun ⟨heven, hfits⟩).accepted.ordered

end Runs

/-- A segment final, its revision by later audio and the utterance that contains both. -/
theorem policyMet_reconciled :
    let tables : UnicodeTables := ⟨Char.isAlphanum, fun c => [c.toLower]⟩
    let start : SynthesizedSession :=
      ⟨.new 16000 none, ⟨16000, 2, 0, 0, none, by decide, by decide⟩⟩
    let inputs : List SynthesizedInput :=
      [.audio 32000, .message (.transcript .segmentFinal "one" none), .audio 16000,
        .message (.transcript .partial_ "one two" none),
        .message (.transcript .utteranceFinal "one two" none)]
    PolicyMet 16000 (feed (SynthesizedSession.step tables) start inputs).1 := by
  intro tables start inputs
  have heven : ∀ bytes output,
      (.audio bytes, output) ∈ (feed (SynthesizedSession.step tables) start inputs).1 → bytes % 2 = 0 := by
    intro bytes output hmem
    have hinput := List.mem_map_of_mem (f := Prod.fst) hmem
    rw [feed_inputs] at hinput
    have hcases : bytes = 32000 ∨ bytes = 16000 := by simpa [inputs] using hinput
    omega
  have hnew : LiveTimeline.new 16000 1 = .ok start.timeline := rfl
  exact policyMet_of_runs hnew (runs_feed _ start inputs) heven (by decide)

end SynthesizedSession

end Voicetext.Providers.ElevenLabs
