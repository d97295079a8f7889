import Mathlib.Data.List.Chain
import Mathlib.Data.List.Forall2
import Voicetext.Common.Fallible
import Voicetext.Providers.ElevenLabs.BatchDto

/-!
# Segments of the words of a response

From the first word on, every token is said by exactly one segment, and a segment begins only at a word. So the
segments say the response text exactly when nothing but whitespace is said before the first word: the rebuilt text
holds those tokens as well, while no segment is there to take them.
-/

namespace Voicetext.Providers.ElevenLabs.Batch

open Voicetext.Common

def isWord (token : WordDto) : Bool := token.kind = "word"

/-- The characters which tokens add to the text; audio events add none. -/
def spokenChars (tokens : List WordDto) : List Char :=
  tokens.flatMap fun token => if token.kind = "audio_event" then [] else token.text.toList

@[simp] theorem spokenChars_append (tokens others : List WordDto) :
    spokenChars (tokens ++ others) = spokenChars tokens ++ spokenChars others := List.flatMap_append

/-- A word and the tokens behind it which are in the same segment. -/
structure TokenRun where
  first : WordDto
  rest : List WordDto

namespace TokenRun

def tokens (run : TokenRun) : List WordDto := run.first :: run.rest

def words (run : TokenRun) : List WordDto := run.first :: run.rest.filter isWord

/-- The last word. -/
def last (run : TokenRun) : WordDto := (run.rest.filter isWord).getLast?.getD run.first

/-- The run with another token behind it. -/
def push (run : TokenRun) (token : WordDto) : TokenRun := { run with rest := run.rest ++ [token] }

variable {run : TokenRun} {token : WordDto}

@[simp] theorem first_push : (run.push token).first = run.first := rfl

@[simp] theorem tokens_push : (run.push token).tokens = run.tokens ++ [token] := rfl

theorem words_push_word (h : isWord token = true) : (run.push token).words = run.words ++ [token] := by
  simp [words, push, h]

theorem words_push_other (h : isWord token = false) : (run.push token).words = run.words := by
  simp [words, push, h]

theorem last_push_word (h : isWord token = true) : (run.push token).last = token := by
  simp [last, push, h]

theorem last_push_other (h : isWord token = false) : (run.push token).last = run.last := by
  simp [last, push, h]

theorem length_words_le (run : TokenRun) : run.words.length ≤ run.tokens.length :=
  Nat.succ_le_succ (List.length_filter_le _ _)

/-- The words of a run which begins with one are the words of its tokens. -/
theorem words_eq_filter (h : isWord run.first = true) : run.words = run.tokens.filter isWord := by
  rw [tokens, List.filter_cons_of_pos h, words]

end TokenRun

section Specification

variable (authoritativeSeconds : ℚ)

/-- A time, no later than the authoritative duration. -/
def clamped (time : Option ℚ) : Option ℚ := time.map fun value => min value authoritativeSeconds

/-- The segment of a run. -/
structure Describes (run : TokenRun) (segment : ParsedSegment) : Prop where
  isWord : isWord run.first = true
  start : (clamped authoritativeSeconds run.first.start).bind secondsToMillis = some segment.startMillis
  stop : (clamped authoritativeSeconds run.last.stop).bind secondsToMillis = some segment.endMillis
  text : segment.text.toList = spokenChars run.tokens
  confidence_iff : segment.confidence.isSome = true ↔ ∀ word ∈ run.words, word.logprob.isSome = true

/-- Consecutive words between two runs are apart by a pause, or the next word is not held by the first run: it
would make the run too long, or it is late enough behind the end of a sentence. -/
def SplitsAt (run next : TokenRun) : Prop :=
  ∃ segmentStart previousEnd start stop : ℚ,
    clamped authoritativeSeconds run.first.start = some segmentStart ∧
    clamped authoritativeSeconds run.last.stop = some previousEnd ∧
    clamped authoritativeSeconds next.first.start = some start ∧
    clamped authoritativeSeconds next.first.stop = some stop ∧
    (PAUSE_SPLIT_SECONDS ≤ start - previousEnd ∨ HARD_SPLIT_SECONDS < stop - segmentStart ∨
      (PUNCTUATION_SPLIT_SECONDS ≤ start - segmentStart ∧
        endsSentencePunctuation (String.ofList (spokenChars run.tokens)) = true))

end Specification

/-- Segments with times in order, which are not too many. -/
structure InOrder (segments : List ParsedSegment) : Prop where
  length_le : segments.length ≤ MAX_SEGMENTS
  start_lt : ∀ segment ∈ segments, segment.startMillis < segment.endMillis
  chain : segments.IsChain fun previous next => previous.endMillis ≤ next.startMillis

/-- The segments of a response: of all its words, in order and in time, and of its text. -/
structure Segmented (authoritativeDurationMillis : ℕ) (words : List WordDto) (result : ParsedBatchResult) :
    Prop where
  inOrder : InOrder result.segments
  end_le : ∀ segment ∈ result.segments, segment.endMillis ≤ authoritativeDurationMillis
  runs : ∃ runs : List TokenRun, runs.flatMap TokenRun.words = words.filter isWord ∧
    List.Forall₂ (Describes (authoritativeDurationMillis / 1000)) runs result.segments ∧
    runs.IsChain (SplitsAt (authoritativeDurationMillis / 1000))
  text : normalizeText (String.join (result.segments.map ParsedSegment.text)) = normalizeText result.text

section Times

variable {providerIdentity : Option ProviderIdentity}

theorem clamped_of_boundedTimestamp {value : Option ℚ} {authoritativeSeconds time : ℚ}
    (h : boundedTimestamp providerIdentity value authoritativeSeconds = .ok time) :
    clamped authoritativeSeconds value = some time := by
  obtain ⟨read, hread, hchecked⟩ := bind_eq_ok.mp h
  rw [elim_eq_ok.mp hread]
  exact congrArg some (Except.ok.inj (ite_error_eq_ok.mp hchecked).2)

theorem le_of_clamped {value : Option ℚ} {authoritativeSeconds time : ℚ}
    (h : clamped authoritativeSeconds value = some time) : time ≤ authoritativeSeconds := by
  obtain ⟨read, -, rfl⟩ := Option.map_eq_some_iff.mp h
  exact min_le_right _ _

/-- Rounding to nanoseconds does not pass a whole number of them. -/
theorem durationFromSecs_le {seconds : ℚ} {nanos bound : ℕ} (h : Deepgram.durationFromSecs seconds = some nanos)
    (hle : seconds * Deepgram.NANOS_PER_SEC ≤ bound) : nanos ≤ bound := by
  obtain ⟨scaled, hscaled⟩ : ∃ scaled, seconds * Deepgram.NANOS_PER_SEC = scaled := ⟨_, rfl⟩
  simp only [Deepgram.durationFromSecs, hscaled] at h
  rw [hscaled] at hle
  have hfloor : (scaled.floor : ℚ) ≤ scaled := Rat.floor_le scaled
  have hfloorLe : scaled.floor ≤ (bound : ℤ) := by exact_mod_cast hfloor.trans hle
  have hrounded : (if scaled - scaled.floor < 1 / 2 ∨ scaled - scaled.floor = 1 / 2 ∧ scaled.floor % 2 = 0 then
      scaled.floor else scaled.floor + 1) ≤ (bound : ℤ) := by
    rcases hfloorLe.lt_or_eq with hlt | heq
    · split_ifs
      · exact hfloorLe
      · exact hlt
    · -- the bound itself is no longer rounded
      have hfraction : scaled - scaled.floor ≤ 0 := by
        rw [heq]
        exact sub_nonpos.mpr hle
      rw [if_pos (.inl (hfraction.trans_lt (by norm_num)))]
      exact hfloorLe
  generalize (if scaled - scaled.floor < 1 / 2 ∨ scaled - scaled.floor = 1 / 2 ∧ scaled.floor % 2 = 0 then
    scaled.floor else scaled.floor + 1) = rounded at h hrounded
  split at h
  · cases h
  · obtain rfl := Option.some.inj h
    exact Int.toNat_le.mpr hrounded

/-- Rounding to milliseconds does not pass a whole number of them. -/
theorem secondsToMillis_le {seconds : ℚ} {millis duration : ℕ} (h : secondsToMillis seconds = some millis)
    (hle : seconds ≤ duration / 1000) : millis ≤ duration := by
  obtain ⟨nanos, hnanos, hrounded⟩ := Option.bind_eq_some_iff.mp h
  obtain ⟨rounded, hadd, hmillis⟩ := Option.bind_eq_some_iff.mp hrounded
  have hbound : nanos ≤ duration * 1000000 := by
    refine durationFromSecs_le hnanos ?_
    have hscaled : seconds * 1000000000 ≤ duration / 1000 * 1000000000 :=
      mul_le_mul_of_nonneg_right hle (by norm_num)
    have hwhole : (duration : ℚ) / 1000 * 1000000000 = (duration * 1000000 : ℕ) := by
      push_cast
      ring
    rw [← hwhole]
    exact_mod_cast hscaled
  obtain rfl : nanos + 500000 = rounded := by
    unfold Deepgram.durationAdd at hadd
    split_ifs at hadd
    exact Option.some.inj hadd
  split_ifs at hmillis
  obtain rfl := Option.some.inj hmillis
  omega

end Times

section Building

variable {doubles : Doubles} {providerIdentity : Option ProviderIdentity} {authoritativeSeconds : ℚ}

/-- A word has a confidence when it has a log-probability, and then one of the unit interval. -/
theorem unit_of_wordConfidence {logprob confidence : Option ℚ}
    (h : wordConfidence doubles providerIdentity logprob = .ok confidence) :
    confidence.isSome = logprob.isSome ∧ 0 ≤ confidence.getD 0 ∧
      confidence.getD 0 ≤ ((if confidence.isSome then 1 else 0 : ℕ) : ℚ) := by
  cases logprob with
  | none =>
    obtain rfl := Except.ok.inj h
    simp
  | some value =>
    obtain ⟨probability, hprobability, rfl⟩ := map_eq_ok.mp h
    obtain ⟨hvalue, hexp⟩ := ite_error_eq_ok.mp hprobability
    obtain rfl := Except.ok.inj hexp
    simpa using doubles.exp_unit value (not_lt.mp hvalue)

/-- A builder is at the end of a run. -/
structure Building (authoritativeSeconds : ℚ) (run : TokenRun) (segment : SegmentBuilder) : Prop where
  isWord : isWord run.first = true
  start : clamped authoritativeSeconds run.first.start = some segment.startSeconds
  stop : clamped authoritativeSeconds run.last.stop = some segment.endSeconds
  text : segment.text.toList = spokenChars run.tokens
  wordCount : segment.wordCount = run.words.length
  confidenceCount : segment.confidenceCount = run.words.countP fun word => word.logprob.isSome
  sum_nonneg : 0 ≤ segment.confidenceSum
  sum_le : segment.confidenceSum ≤ segment.confidenceCount

variable {run : TokenRun} {segment : SegmentBuilder} {word : WordDto} {start stop : ℚ} {confidence : Option ℚ}

theorem Building.new (hword : Batch.isWord word = true)
    (hstart : clamped authoritativeSeconds word.start = some start)
    (hstop : clamped authoritativeSeconds word.stop = some stop)
    (hconfidence : wordConfidence doubles providerIdentity word.logprob = .ok confidence) :
    Building authoritativeSeconds ⟨word, []⟩ (SegmentBuilder.new start stop word.text confidence) := by
  obtain ⟨hsome, hlow, hhigh⟩ := unit_of_wordConfidence hconfidence
  have hkind : word.kind = "word" := by simpa [Batch.isWord] using hword
  exact {
    isWord := hword
    start := hstart
    stop := hstop
    text := by simp [SegmentBuilder.new, spokenChars, TokenRun.tokens, hkind]
    wordCount := rfl
    confidenceCount := by simp [SegmentBuilder.new, TokenRun.words, List.countP_cons, hsome]
    sum_nonneg := hlow
    sum_le := hhigh }

theorem Building.pushWord (h : Building authoritativeSeconds run segment) (hword : Batch.isWord word = true)
    (hstop : clamped authoritativeSeconds word.stop = some stop)
    (hconfidence : wordConfidence doubles providerIdentity word.logprob = .ok confidence) :
    Building authoritativeSeconds (run.push word) (segment.pushWord word.text stop confidence) := by
  obtain ⟨hsome, hlow, hhigh⟩ := unit_of_wordConfidence hconfidence
  have hkind : word.kind = "word" := by simpa [Batch.isWord] using hword
  exact {
    isWord := h.isWord
    start := h.start
    stop := by rw [TokenRun.last_push_word hword]; exact hstop
    text := by simp [SegmentBuilder.pushWord, h.text, spokenChars, hkind]
    wordCount := by simp [SegmentBuilder.pushWord, TokenRun.words_push_word hword, h.wordCount]
    confidenceCount := by
      simp [SegmentBuilder.pushWord, TokenRun.words_push_word hword, h.confidenceCount, hsome]
    sum_nonneg := add_nonneg h.sum_nonneg hlow
    sum_le := by
      rw [SegmentBuilder.pushWord]
      push_cast
      exact add_le_add h.sum_le (by exact_mod_cast hhigh) }

theorem Building.pushSpacing (h : Building authoritativeSeconds run segment) (hkind : word.kind = "spacing") :
    Building authoritativeSeconds (run.push word) (segment.pushSpacing word.text) := by
  have hother : Batch.isWord word = false := by simp [Batch.isWord, hkind]
  exact {
    isWord := h.isWord
    start := h.start
    stop := by rw [TokenRun.last_push_other hother]; exact h.stop
    text := by simp [SegmentBuilder.pushSpacing, h.text, spokenChars, hkind]
    wordCount := by rw [TokenRun.words_push_other hother]; exact h.wordCount
    confidenceCount := by rw [TokenRun.words_push_other hother]; exact h.confidenceCount
    sum_nonneg := h.sum_nonneg
    sum_le := h.sum_le }

theorem Building.pushEvent (h : Building authoritativeSeconds run segment) (hkind : word.kind = "audio_event") :
    Building authoritativeSeconds (run.push word) segment := by
  have hother : Batch.isWord word = false := by simp [Batch.isWord, hkind]
  exact {
    isWord := h.isWord
    start := h.start
    stop := by rw [TokenRun.last_push_other hother]; exact h.stop
    text := by simp [h.text, spokenChars, hkind]
    wordCount := by rw [TokenRun.words_push_other hother]; exact h.wordCount
    confidenceCount := by rw [TokenRun.words_push_other hother]; exact h.confidenceCount
    sum_nonneg := h.sum_nonneg
    sum_le := h.sum_le }

/-- A finished builder is the segment of its run. -/
theorem Building.describes (h : Building authoritativeSeconds run segment)
    (hlength : run.tokens.length ≤ MAX_WORDS) {finished : ParsedSegment}
    (hfinish : segment.finish doubles = some finished) : Describes authoritativeSeconds run finished := by
  obtain ⟨startMillis, hstart, hrest⟩ := Option.bind_eq_some_iff.mp hfinish
  obtain ⟨endMillis, hstop, hfinished⟩ := Option.bind_eq_some_iff.mp hrest
  obtain rfl := Option.some.inj hfinished
  have hcount : segment.wordCount < 2 ^ 32 := by
    have hle : run.words.length ≤ 100000 := run.length_words_le.trans hlength
    rw [h.wordCount]
    omega
  have hpos : 0 < (segment.wordCount : ℚ) := by
    rw [h.wordCount]
    exact_mod_cast Nat.succ_pos _
  have hall : segment.confidenceCount = segment.wordCount ↔
      ∀ word ∈ run.words, word.logprob.isSome = true := by
    rw [h.confidenceCount, h.wordCount, List.countP_eq_length]
  refine ⟨h.isWord, ?_, ?_, h.text, ?_⟩
  · rw [h.start]
    exact hstart
  · rw [h.stop]
    exact hstop
  · rw [← hall]
    simp only [hcount, and_true]
    split
    · rename_i heq
      refine iff_of_true (doubles.toF32_unit _ (div_nonneg h.sum_nonneg hpos.le) ?_) heq
      rw [div_le_one hpos, ← heq]
      exact h.sum_le
    · rename_i hne
      exact iff_of_false (by simp) hne

end Building

section Walking

variable {doubles : Doubles} {providerIdentity : Option ProviderIdentity} {authoritativeSeconds : ℚ}

/-- What pushing a builder does to the segments. -/
theorem inOrder_of_pushSegment {segments segments' : List ParsedSegment} {segment : SegmentBuilder}
    (hsegments : InOrder segments)
    (h : pushSegment doubles providerIdentity segments (some segment) = .ok segments') :
    ∃ finished, segment.finish doubles = some finished ∧ segments' = segments ++ [finished] ∧
      InOrder segments' := by
  obtain ⟨hroom, h⟩ := ite_error_eq_ok.mp h
  obtain ⟨finished, hfinish, h⟩ := bind_eq_ok.mp h
  obtain ⟨htimes, h⟩ := ite_error_eq_ok.mp h
  obtain rfl := Except.ok.inj h
  rw [not_or] at hroom htimes
  refine ⟨finished, elim_eq_ok.mp hfinish, rfl, ?_, ?_, ?_⟩
  · have hlt : segments.length + 1 ≤ MAX_SEGMENTS := lt_of_le_of_ne hsegments.length_le hroom.2
    simpa using hlt
  · intro other hother
    rcases List.mem_append.mp hother with hother | hother
    · exact hsegments.start_lt other hother
    · rw [List.mem_singleton.mp hother]
      exact not_le.mp htimes.1
  · refine List.isChain_append.mpr ⟨hsegments.chain, .singleton _, fun previous hprevious next hnext => ?_⟩
    obtain rfl : finished = next := by simpa using hnext
    rw [Option.mem_def.mp hprevious] at htimes
    simpa using htimes.2

/-- The tokens walked from the first word on, cut into closed runs and an open one. -/
structure Walked (authoritativeSeconds : ℚ) (lead : List Char) (walked : List WordDto) (state : WalkState)
    (closed : List TokenRun) (run : TokenRun) : Prop where
  tokens : closed.flatMap TokenRun.tokens ++ run.tokens = walked
  reconstructed : state.reconstructed.toList = lead ++ spokenChars walked
  described : List.Forall₂ (Describes authoritativeSeconds) closed state.segments
  inOrder : InOrder state.segments
  building : ∃ segment, state.current = some segment ∧ Building authoritativeSeconds run segment
  previousWordEnd : state.previousWordEnd = clamped authoritativeSeconds run.last.stop
  splits : (closed ++ [run]).IsChain (SplitsAt authoritativeSeconds)

/-- A run is split from the next one where its first word is. -/
theorem isChain_push {closed : List TokenRun} {run : TokenRun} {token : WordDto}
    (h : (closed ++ [run]).IsChain (SplitsAt authoritativeSeconds)) :
    (closed ++ [run.push token]).IsChain (SplitsAt authoritativeSeconds) := by
  obtain ⟨hclosed, -, hlast⟩ := List.isChain_append.mp h
  refine List.isChain_append.mpr ⟨hclosed, .singleton _, fun previous hprevious next hnext => ?_⟩
  obtain rfl : run.push token = next := by simpa using hnext
  exact hlast previous hprevious run (by simp)

variable {lead : List Char} {walked : List WordDto} {state state' : WalkState} {closed : List TokenRun}
  {run : TokenRun} {token : WordDto}

theorem Walked.audioEvent (h : Walked authoritativeSeconds lead walked state closed run)
    (hkind : token.kind = "audio_event") :
    Walked authoritativeSeconds lead (walked ++ [token]) state closed (run.push token) := by
  have hother : isWord token = false := by simp [isWord, hkind]
  obtain ⟨segment, hcurrent, hbuilding⟩ := h.building
  exact {
    tokens := by rw [← h.tokens, TokenRun.tokens_push, List.append_assoc]
    reconstructed := by simp [h.reconstructed, spokenChars, hkind]
    described := h.described
    inOrder := h.inOrder
    building := ⟨segment, hcurrent, hbuilding.pushEvent hkind⟩
    previousWordEnd := by rw [TokenRun.last_push_other hother]; exact h.previousWordEnd
    splits := isChain_push h.splits }

theorem Walked.spacing (h : Walked authoritativeSeconds lead walked state closed run)
    (hkind : token.kind = "spacing") :
    Walked authoritativeSeconds lead (walked ++ [token]) (readSpacing state token) closed (run.push token) := by
  have hother : isWord token = false := by simp [isWord, hkind]
  obtain ⟨segment, hcurrent, hbuilding⟩ := h.building
  exact {
    tokens := by rw [← h.tokens, TokenRun.tokens_push, List.append_assoc]
    reconstructed := by simp [readSpacing, h.reconstructed, spokenChars, hkind]
    described := h.described
    inOrder := h.inOrder
    building := ⟨segment.pushSpacing token.text, by simp [readSpacing, hcurrent], hbuilding.pushSpacing hkind⟩
    previousWordEnd := by rw [TokenRun.last_push_other hother]; exact h.previousWordEnd
    splits := isChain_push h.splits }

/-- A word which is read has its times and its confidence, and is pushed on what is current once split. -/
theorem readWord_eq_ok
    (h : readWord doubles providerIdentity authoritativeSeconds state token = .ok state') :
    ∃ start stop confidence split, clamped authoritativeSeconds token.start = some start ∧
      clamped authoritativeSeconds token.stop = some stop ∧
      wordConfidence doubles providerIdentity token.logprob = .ok confidence ∧
      splitAtWord doubles providerIdentity state start stop = .ok split ∧
      state' = { split with
        current := some (split.current.elim (SegmentBuilder.new start stop token.text confidence)
          fun segment => segment.pushWord token.text stop confidence)
        previousWordEnd := some stop
        reconstructed := split.reconstructed ++ token.text } := by
  obtain ⟨-, h⟩ := ite_error_eq_ok.mp h
  obtain ⟨start, hstart, h⟩ := bind_eq_ok.mp h
  obtain ⟨stop, hstop, h⟩ := bind_eq_ok.mp h
  obtain ⟨-, h⟩ := ite_error_eq_ok.mp h
  obtain ⟨confidence, hconfidence, h⟩ := bind_eq_ok.mp h
  obtain ⟨split, hsplit, h⟩ := bind_eq_ok.mp h
  obtain rfl := Except.ok.inj h
  refine ⟨start, stop, confidence, split, clamped_of_boundedTimestamp hstart, clamped_of_boundedTimestamp hstop,
    hconfidence, hsplit, ?_⟩
  cases split.current <;> rfl

/-- The first word opens the first run. -/
theorem Walked.firstWord (hword : isWord token = true) (hcurrent : state.current = none)
    (hsegments : state.segments = [])
    (hread : readWord doubles providerIdentity authoritativeSeconds state token = .ok state') :
    Walked authoritativeSeconds state.reconstructed.toList [token] state' [] ⟨token, []⟩ := by
  obtain ⟨start, stop, confidence, split, hstart, hstop, hconfidence, hsplit, rfl⟩ := readWord_eq_ok hread
  have hkind : token.kind = "word" := by simpa [isWord] using hword
  have hsame : state = split := by simpa [splitAtWord, hcurrent] using hsplit
  subst hsame
  exact {
    tokens := rfl
    reconstructed := by simp [spokenChars, hkind]
    described := by simp [hsegments]
    inOrder := by
      simp only [hsegments]
      exact ⟨Nat.zero_le _, by simp, .nil⟩
    building := ⟨_, rfl, by rw [hcurrent]; exact .new hword hstart hstop hconfidence⟩
    previousWordEnd := hstop.symm
    splits := .singleton _ }

/-- Another word is pushed on the open run, or closes it and opens the next one. -/
theorem Walked.word (h : Walked authoritativeSeconds lead walked state closed run)
    (hlength : walked.length ≤ MAX_WORDS) (hword : isWord token = true)
    (hread : readWord doubles providerIdentity authoritativeSeconds state token = .ok state') :
    ∃ closed' run', Walked authoritativeSeconds lead (walked ++ [token]) state' closed' run' := by
  obtain ⟨start, stop, confidence, split, hstart, hstop, hconfidence, hsplit, rfl⟩ := readWord_eq_ok hread
  obtain ⟨segment, hcurrent, hbuilding⟩ := h.building
  have hkind : token.kind = "word" := by simpa [isWord] using hword
  rw [splitAtWord, hcurrent, Option.any_some] at hsplit
  split at hsplit
  · -- the open run is closed
    rename_i hshould
    obtain ⟨segments, hpushed, rfl⟩ := map_eq_ok.mp hsplit
    obtain ⟨finished, hfinish, rfl, hinOrder⟩ := inOrder_of_pushSegment h.inOrder hpushed
    have hrunLength : run.tokens.length ≤ walked.length := by
      rw [← h.tokens, List.length_append]
      exact Nat.le_add_left _ _
    have hdescribes := hbuilding.describes (hrunLength.trans hlength) hfinish
    have hsplits : SplitsAt authoritativeSeconds run ⟨token, []⟩ := by
      have hprevious : state.previousWordEnd = some segment.endSeconds := h.previousWordEnd.trans hbuilding.stop
      have htext : segment.text = String.ofList (spokenChars run.tokens) := by
        rw [← hbuilding.text, String.ofList_toList]
      refine ⟨_, _, start, stop, hbuilding.start, hbuilding.stop, hstart, hstop, ?_⟩
      simpa [shouldSplit, hprevious, htext, or_assoc] using hshould
    refine ⟨closed ++ [run], ⟨token, []⟩, ?_⟩
    exact {
      tokens := by simp [← h.tokens, TokenRun.tokens]
      reconstructed := by simp [h.reconstructed, spokenChars, hkind]
      described := List.rel_append h.described (.cons hdescribes .nil)
      inOrder := hinOrder
      building := ⟨_, rfl, .new hword hstart hstop hconfidence⟩
      previousWordEnd := hstop.symm
      splits := by
        refine List.isChain_append.mpr ⟨h.splits, .singleton _, fun previous hprevious next hnext => ?_⟩
        obtain rfl : run = previous := by simpa using hprevious
        obtain rfl : ⟨token, []⟩ = next := by simpa using hnext
        exact hsplits }
  · -- the word joins the open run
    obtain rfl := Except.ok.inj hsplit
    refine ⟨closed, run.push token, ?_⟩
    exact {
      tokens := by rw [← h.tokens, TokenRun.tokens_push, List.append_assoc]
      reconstructed := by simp [h.reconstructed, spokenChars, hkind]
      described := h.described
      inOrder := h.inOrder
      building := ⟨_, rfl, by rw [hcurrent]; exact hbuilding.pushWord hword hstop hconfidence⟩
      previousWordEnd := by rw [TokenRun.last_push_word hword]; exact hstop.symm
      splits := isChain_push h.splits }

/-- What reading a token does, by its kind. -/
theorem readToken_eq_ok (h : readToken doubles providerIdentity authoritativeSeconds state token = .ok state') :
    (token.kind = "audio_event" ∧ state' = state) ∨
      (token.kind = "spacing" ∧ state' = readSpacing state token) ∨
      (isWord token = true ∧ readWord doubles providerIdentity authoritativeSeconds state token = .ok state') := by
  obtain ⟨-, h⟩ := ite_error_eq_ok.mp h
  split at h
  · exact .inl ⟨‹_›, (Except.ok.inj h).symm⟩
  · exact .inr (.inl ⟨‹_›, (Except.ok.inj (ite_error_eq_ok.mp h).2).symm⟩)
  · rename_i hkind
    obtain ⟨read, hread, hbounded⟩ := bind_eq_ok.mp h
    obtain rfl := Except.ok.inj (ite_error_eq_ok.mp hbounded).2
    exact .inr (.inr ⟨by simp [isWord, hkind], hread⟩)
  · cases h

theorem Walked.step (h : Walked authoritativeSeconds lead walked state closed run)
    (hlength : walked.length ≤ MAX_WORDS)
    (hread : readToken doubles providerIdentity authoritativeSeconds state token = .ok state') :
    ∃ closed' run', Walked authoritativeSeconds lead (walked ++ [token]) state' closed' run' := by
  rcases readToken_eq_ok hread with ⟨hkind, rfl⟩ | ⟨hkind, rfl⟩ | ⟨hword, hread⟩
  · exact ⟨closed, run.push token, h.audioEvent hkind⟩
  · exact ⟨closed, run.push token, h.spacing hkind⟩
  · exact h.word hlength hword hread

theorem Walked.walk {rest : List WordDto} (h : Walked authoritativeSeconds lead walked state closed run)
    (hlength : (walked ++ rest).length ≤ MAX_WORDS)
    (hread : rest.foldlM (readToken doubles providerIdentity authoritativeSeconds) state = .ok state') :
    ∃ closed' run', Walked authoritativeSeconds lead (walked ++ rest) state' closed' run' := by
  induction rest generalizing walked state closed run with
  | nil =>
    obtain rfl := Except.ok.inj hread
    exact ⟨closed, run, by rwa [List.append_nil]⟩
  | cons token rest ih =>
    rw [List.append_cons] at hlength ⊢
    obtain ⟨next, hnext, hrest⟩ := bind_eq_ok.mp hread
    have hwalked : walked.length ≤ MAX_WORDS := by
      simp only [List.length_append] at hlength
      omega
    obtain ⟨closed', run', h'⟩ := h.step hwalked hnext
    exact ih h' hlength hrest

/-- Tokens before the first word are added to the text and to no segment. -/
theorem walked_lead {tokens : List WordDto} (htokens : ∀ token ∈ tokens, isWord token = false)
    (hcurrent : state.current = none) (hsegments : state.segments = [])
    (hread : tokens.foldlM (readToken doubles providerIdentity authoritativeSeconds) state = .ok state') :
    state'.current = none ∧ state'.segments = [] ∧
      state'.reconstructed.toList = state.reconstructed.toList ++ spokenChars tokens ∧
      ∀ token ∈ tokens, token.kind = "audio_event" ∨ token.kind = "spacing" := by
  induction tokens generalizing state with
  | nil =>
    obtain rfl := Except.ok.inj hread
    exact ⟨hcurrent, hsegments, (List.append_nil _).symm, by simp⟩
  | cons token rest ih =>
    obtain ⟨hother, htokens⟩ := List.forall_mem_cons.mp htokens
    obtain ⟨next, hnext, hrest⟩ := bind_eq_ok.mp hread
    rcases readToken_eq_ok hnext with ⟨hkind, rfl⟩ | ⟨hkind, rfl⟩ | ⟨hword, -⟩
    · simpa [spokenChars, hkind] using ih htokens hcurrent hsegments hrest
    · have hspaced : (readSpacing state token).current = none := by simp [readSpacing, hcurrent]
      simpa [readSpacing, spokenChars, hkind] using ih htokens hspaced hsegments hrest
    · rw [hother] at hword
      cases hword

end Walking

section Accepted

variable {doubles : Doubles} {providerIdentity : Option ProviderIdentity}

/-- The tokens before the first word. -/
def leadTokens (words : List WordDto) : List WordDto := words.takeWhile fun token => !isWord token

/-- Nothing but whitespace is said before the first word. -/
def LeadsWithWhitespace (words : List WordDto) : Prop :=
  ∀ token ∈ leadTokens words, token.kind = "spacing" → ∀ c ∈ token.text.toList, Text.isWhitespace c = true

instance (words : List WordDto) : Decidable (LeadsWithWhitespace words) :=
  decidable_of_iff ((leadTokens words).all fun token =>
    token.kind ≠ "spacing" || token.text.toList.all Text.isWhitespace)
    (by simp [LeadsWithWhitespace, imp_iff_not_or])

theorem leadsWithWhitespace_iff {words : List WordDto}
    (h : ∀ token ∈ leadTokens words, token.kind = "audio_event" ∨ token.kind = "spacing") :
    LeadsWithWhitespace words ↔ ∀ c ∈ spokenChars (leadTokens words), Text.isWhitespace c = true := by
  constructor
  · intro hlead c hc
    obtain ⟨token, htoken, hmem⟩ := List.mem_flatMap.mp hc
    rcases h token htoken with hkind | hkind
    · simp [hkind] at hmem
    · exact hlead token htoken hkind c (by simpa [hkind] using hmem)
  · intro hspoken token htoken hkind c hc
    exact hspoken c (List.mem_flatMap.mpr ⟨token, htoken, by simpa [hkind] using hc⟩)

/-- The segments of an accepted response with the runs they are of, and what its text was compared with. -/
structure Cut (authoritativeSeconds : ℚ) (words : List WordDto) (reconstructed : String)
    (segments : List ParsedSegment) (runs : List TokenRun) : Prop where
  lead : ∀ token ∈ leadTokens words, token.kind = "audio_event" ∨ token.kind = "spacing"
  tokens : leadTokens words ++ runs.flatMap TokenRun.tokens = words
  reconstructed : reconstructed.toList = spokenChars words
  described : List.Forall₂ (Describes authoritativeSeconds) runs segments
  inOrder : InOrder segments
  splits : runs.IsChain (SplitsAt authoritativeSeconds)

/-- The walk over the tokens and the last push cut them into the runs of the segments. -/
theorem cut_of_walk {authoritativeSeconds : ℚ} {words : List WordDto} {state : WalkState}
    {segments : List ParsedSegment} (hlength : words.length ≤ MAX_WORDS)
    (hread : words.foldlM (readToken doubles providerIdentity authoritativeSeconds) {} = .ok state)
    (hpushed : pushSegment doubles providerIdentity state.segments state.current = .ok segments) :
    ∃ runs, Cut authoritativeSeconds words state.reconstructed segments runs := by
  have hsplit : leadTokens words ++ words.dropWhile (fun token => !isWord token) = words :=
    List.takeWhile_append_dropWhile
  have hother : ∀ token ∈ leadTokens words, isWord token = false := fun token htoken => by
    simpa using List.mem_takeWhile_imp htoken
  rw [← hsplit, List.foldlM_append] at hread
  obtain ⟨led, hled, hread⟩ := bind_eq_ok.mp hread
  obtain ⟨hcurrent, hsegments, hreconstructed, hkinds⟩ := walked_lead hother rfl rfl hled
  rw [show ({} : WalkState).reconstructed.toList = [] from rfl, List.nil_append] at hreconstructed
  cases hrest : words.dropWhile (fun token => !isWord token) with
  | nil =>
    rw [hrest] at hread hsplit
    obtain rfl := Except.ok.inj hread
    rw [hcurrent] at hpushed
    obtain rfl := Except.ok.inj hpushed
    rw [List.append_nil] at hsplit
    exact ⟨[], hkinds, by simp [hsplit], by rw [hreconstructed, hsplit], by simp [hsegments],
      by rw [hsegments]; exact ⟨Nat.zero_le _, by simp, .nil⟩, .nil⟩
  | cons token rest =>
    have hword : isWord token = true := by
      have hhead := List.head?_dropWhile_not (fun token => !isWord token) words
      rw [hrest] at hhead
      simpa using hhead
    rw [hrest] at hread hsplit
    obtain ⟨first, hfirst, hread⟩ := bind_eq_ok.mp hread
    rcases readToken_eq_ok hfirst with ⟨hkind, -⟩ | ⟨hkind, -⟩ | ⟨-, hfirst⟩
    · simp [isWord, hkind] at hword
    · simp [isWord, hkind] at hword
    have hwalked := Walked.firstWord hword hcurrent hsegments hfirst
    have hrestLength : ([token] ++ rest).length ≤ MAX_WORDS := by
      refine le_trans ?_ hlength
      have hsum := congrArg List.length hsplit
      rw [List.length_append] at hsum
      exact le_of_le_of_eq (Nat.le_add_left _ _) hsum
    obtain ⟨closed, run, hwalked⟩ := hwalked.walk hrestLength hread
    obtain ⟨segment, hbuilt, hbuilding⟩ := hwalked.building
    rw [hbuilt] at hpushed
    obtain ⟨finished, hfinish, rfl, hinOrder⟩ := inOrder_of_pushSegment hwalked.inOrder hpushed
    have hrunLength : run.tokens.length ≤ ([token] ++ rest).length := by
      rw [← hwalked.tokens, List.length_append]
      exact Nat.le_add_left _ _
    refine ⟨closed ++ [run], hkinds, ?_, ?_, ?_, hinOrder, hwalked.splits⟩
    · rw [List.flatMap_append, List.flatMap_singleton, hwalked.tokens]
      exact hsplit
    · rw [hwalked.reconstructed, hreconstructed, ← spokenChars_append]
      exact congrArg spokenChars hsplit
    · exact List.rel_append hwalked.described
        (.cons (hbuilding.describes (hrunLength.trans hrestLength) hfinish) .nil)

/-- The segments of the runs say what the tokens of the runs say. -/
theorem Cut.join_text {authoritativeSeconds : ℚ} {words : List WordDto} {reconstructed : String}
    {segments : List ParsedSegment} {runs : List TokenRun}
    (h : Cut authoritativeSeconds words reconstructed segments runs) :
    String.join (segments.map ParsedSegment.text) =
      String.ofList (spokenChars (runs.flatMap TokenRun.tokens)) := by
  rw [← String.toList_inj, String.toList_join, String.toList_ofList]
  have hdescribed := h.described
  clear h
  induction hdescribed with
  | nil => rfl
  | cons hdescribes _ ih => rw [List.map_cons, List.flatMap_cons, List.flatMap_cons, spokenChars_append, ih,
      hdescribes.text]

/-- The words of the runs are all the words. -/
theorem Cut.words_eq {authoritativeSeconds : ℚ} {words : List WordDto} {reconstructed : String}
    {segments : List ParsedSegment} {runs : List TokenRun}
    (h : Cut authoritativeSeconds words reconstructed segments runs) :
    runs.flatMap TokenRun.words = words.filter isWord := by
  have hlead : (leadTokens words).filter isWord = [] :=
    List.filter_eq_nil_iff.mpr fun token htoken => by simpa using List.mem_takeWhile_imp htoken
  have hruns : runs.flatMap TokenRun.words = (runs.flatMap TokenRun.tokens).filter isWord := by
    rw [List.filter_flatMap]
    have hdescribed := h.described
    clear h
    induction hdescribed with
    | nil => rfl
    | cons hdescribes _ ih => rw [List.flatMap_cons, List.flatMap_cons, ih,
        TokenRun.words_eq_filter hdescribes.isWord]
  rw [hruns]
  conv_rhs => rw [← h.tokens, List.filter_append, hlead, List.nil_append]

/-- The end of a segment is in the authoritative duration. -/
theorem Describes.endMillis_le {duration : ℕ} {run : TokenRun} {segment : ParsedSegment}
    (h : Describes (duration / 1000) run segment) : segment.endMillis ≤ duration := by
  obtain ⟨stop, hstop, hmillis⟩ := Option.bind_eq_some_iff.mp h.stop
  exact secondsToMillis_le hmillis (le_of_clamped hstop)

/-- Described segments end in the authoritative duration. -/
theorem end_le_of_described {duration : ℕ} {runs : List TokenRun} {segments : List ParsedSegment}
    (h : List.Forall₂ (Describes (duration / 1000)) runs segments) :
    ∀ segment ∈ segments, segment.endMillis ≤ duration := by
  induction h with
  | nil => simp
  | cons hdescribes _ ih => exact List.forall_mem_cons.mpr ⟨hdescribes.endMillis_le, ih⟩

/-- A decoded response which is accepted is segmented exactly when it leads with whitespace. -/
theorem segmented_iff_of_parsePayload {payload : ResponseDto} {duration : ℕ} {result : ParsedBatchResult}
    (h : parsePayload doubles providerIdentity payload duration = .ok result) :
    Segmented duration payload.words result ↔ LeadsWithWhitespace payload.words := by
  obtain ⟨henvelope, h⟩ := check_bind_eq_ok.mp h
  obtain ⟨state, hread, h⟩ := bind_eq_ok.mp h
  obtain ⟨segments, hpushed, h⟩ := bind_eq_ok.mp h
  obtain ⟨htext, h⟩ := ite_error_eq_ok.mp h
  obtain ⟨providerDurationMillis, -, h⟩ := bind_eq_ok.mp h
  obtain rfl := Except.ok.inj h
  rw [not_or, not_not] at htext
  have hlength : payload.words.length ≤ MAX_WORDS := by
    have hchecked := (ite_error_eq_ok.mp henvelope).1
    rw [not_or] at hchecked
    exact not_lt.mp hchecked.1
  obtain ⟨runs, hcut⟩ := cut_of_walk hlength hread hpushed
  have hsame : normalizeText (String.join (segments.map ParsedSegment.text)) = normalizeText payload.text ↔
      LeadsWithWhitespace payload.words := by
    have hreconstructed : state.reconstructed = String.ofList (spokenChars (leadTokens payload.words) ++
        spokenChars (runs.flatMap TokenRun.tokens)) := by
      rw [← spokenChars_append, hcut.tokens, ← hcut.reconstructed, String.ofList_toList]
    rw [leadsWithWhitespace_iff hcut.lead, ← htext.1, hcut.join_text, hreconstructed, normalizeText,
      normalizeText, Text.joinWords_splitWhitespace_inj, eq_comm, Text.splitWhitespace_append_eq_iff]
  constructor
  · intro hsegmented
    exact hsame.mp hsegmented.text
  · intro hlead
    exact ⟨hcut.inOrder, end_le_of_described hcut.described,
      ⟨runs, hcut.words_eq, hcut.described, hcut.splits⟩, hsame.mpr hlead⟩

variable {floats : FloatText}

/-- An accepted response is decoded, and its payload is accepted. -/
theorem parseResponse_eq_ok {document : Option Json} {duration : ℕ} {headerRequestId : Option String}
    {result : ParsedBatchResult}
    (h : parseResponse floats doubles document duration headerRequestId = .ok result) :
    ∃ payload providerIdentity, document.bind (ResponseDto.ofJson doubles) = some payload ∧
      parsePayload doubles providerIdentity payload duration = .ok result := by
  obtain ⟨value, -, h⟩ := bind_eq_ok.mp h
  obtain ⟨payload, hpayload, h⟩ := bind_eq_ok.mp h
  exact ⟨payload, _, elim_eq_ok.mp hpayload, h⟩

/-- An accepted response is segmented exactly when nothing but whitespace is said before its first word. -/
theorem segmented_iff_leadsWithWhitespace {document : Option Json} {duration : ℕ} {headerRequestId : Option String}
    {result : ParsedBatchResult}
    (h : parseResponse floats doubles document duration headerRequestId = .ok result) :
    ∃ payload : ResponseDto, document.bind (ResponseDto.ofJson doubles) = some payload ∧
      (Segmented duration payload.words result ↔ LeadsWithWhitespace payload.words) := by
  obtain ⟨payload, providerIdentity, hpayload, hparsed⟩ := parseResponse_eq_ok h
  exact ⟨payload, hpayload, segmented_iff_of_parsePayload hparsed⟩

end Accepted

section Greetings

/-- Numbers are read as what they spell, and only certainty has a probability. -/
def certainDoubles : Doubles where
  readF64 literal := some literal.toRat
  exp _ := 1
  toF32 _ := some 1
  exp_unit _ _ := ⟨by decide, by decide⟩
  toF32_unit _ _ _ := rfl

/-- A token which is said without times. -/
def spacingToken (text : String) : Json := .object [("type", .string "spacing"), ("text", .string text)]

/-- A certain word with its times in milliseconds. -/
def wordToken (text : String) (startMillis endMillis : ℕ) : Json :=
  .object [("type", .string "word"), ("text", .string text), ("start", .number (.ofThousandths startMillis)),
    ("end", .number (.ofThousandths endMillis)), ("logprob", .number (.ofThousandths 0))]

/-- A response of two words with the given tokens. -/
def greeting (tokens : List Json) : Json :=
  .object [("language_code", .string "en"), ("language_probability", .number (.ofThousandths 1000)),
    ("text", .string "Hello world"), ("words", .array tokens)]

/-- A response whose words are word tokens. -/
theorem segmented_iff_greeting : ∃ (result : ParsedBatchResult) (payload : ResponseDto),
    parseResponse FloatText.bits certainDoubles
      (some (greeting [wordToken "Hello" 0 400, spacingToken " ", wordToken "world" 500 1000])) 1000 none =
        .ok result ∧
      ResponseDto.ofJson certainDoubles
        (greeting [wordToken "Hello" 0 400, spacingToken " ", wordToken "world" 500 1000]) = some payload ∧
      (Segmented 1000 payload.words result ↔ LeadsWithWhitespace payload.words) := by
  obtain ⟨result, hresult⟩ := isOk_iff.mp (show (parseResponse FloatText.bits certainDoubles
    (some (greeting [wordToken "Hello" 0 400, spacingToken " ", wordToken "world" 500 1000])) 1000 none).isOk =
      true by decide +kernel)
  obtain ⟨payload, hpayload, hiff⟩ := segmented_iff_leadsWithWhitespace hresult
  exact ⟨result, payload, hresult, hpayload, hiff⟩

/-- A word which is said by a spacing token before the first word token is in no segment. -/
theorem spokenLead_not_segmented : ∃ (result : ParsedBatchResult) (payload : ResponseDto),
    parseResponse FloatText.bits certainDoubles
      (some (greeting [spacingToken "Hello ", wordToken "world" 500 1000])) 1000 none = .ok result ∧
      ResponseDto.ofJson certainDoubles (greeting [spacingToken "Hello ", wordToken "world" 500 1000]) =
        some payload ∧
      ¬ Segmented 1000 payload.words result := by
  obtain ⟨result, hresult⟩ := isOk_iff.mp (show (parseResponse FloatText.bits certainDoubles
    (some (greeting [spacingToken "Hello ", wordToken "world" 500 1000])) 1000 none).isOk = true by
      decide +kernel)
  obtain ⟨payload, providerIdentity, hpayload, hparsed⟩ := parseResponse_eq_ok hresult
  have hhead : ((ResponseDto.ofJson certainDoubles (greeting [spacingToken "Hello ",
      wordToken "world" 500 1000])).bind fun payload => payload.words.head?.map fun token =>
        (token.kind, token.text)) = some ("spacing", "Hello ") := by
    decide +kernel
  rw [Option.bind_some] at hpayload
  rw [hpayload, Option.bind_some] at hhead
  refine ⟨result, payload, hresult, hpayload, fun h => ?_⟩
  have hlead := (segmented_iff_of_parsePayload hparsed).mp h
  obtain ⟨token, htoken, hsame⟩ := Option.map_eq_some_iff.mp hhead
  obtain ⟨hkind, htext⟩ := Prod.mk.inj hsame
  obtain ⟨rest, hwords⟩ := List.head?_eq_some_iff.mp htoken
  have hspoken : token ∈ leadTokens payload.words := by
    have hword : isWord token = false := by simp [isWord, hkind]
    simp [leadTokens, hwords, hword]
  have hwhitespace := hlead token hspoken hkind 'H' (by rw [htext]; decide)
  exact absurd hwhitespace (by decide)

end Greetings

end Voicetext.Providers.ElevenLabs.Batch
