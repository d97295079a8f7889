import Voicetext.Common.MaximalRuns
import Voicetext.Providers.ElevenLabs.FinalizeEvidence

/-!
# Finals reconstruct the committed transcript word for word

The words of a text are its maximal alphanumeric runs in lower case. Joining segment finals with spaces
and trimming keeps their words, and cutting a committed text at the position of one of its tokens leaves
the words from that token on, so the stable text and what is returned behind it are the committed words.
-/

namespace Voicetext.Providers.ElevenLabs

open Voicetext.Common Voicetext.Speech.Application

/-- What the standard library promises of its tables: whitespace is not alphanumeric, and every character
has a lower case. -/
structure UnicodeTables.Lawful (tables : UnicodeTables) : Prop where
  whitespace_not_alphanumeric : ∀ c, Text.isWhitespace c = true → tables.isAlphanumeric c = false
  toLowercase_ne_nil : ∀ c, tables.toLowercase c ≠ []

/-- A run of characters in lower case. -/
def lowerCase (tables : UnicodeTables) (run : List Char) : String := .ofList (run.flatMap tables.toLowercase)

/-- The maximal alphanumeric runs of some characters in lower case. -/
def wordsOf (tables : UnicodeTables) (characters : List Char) : List String :=
  (maximalRuns tables.isAlphanumeric characters).map (lowerCase tables)

/-- The words of a text. -/
def words (tables : UnicodeTables) (text : String) : List String := wordsOf tables text.toList

section Words

variable {tables : UnicodeTables}

@[simp] theorem wordsOf_nil : wordsOf tables [] = [] := by simp [wordsOf]

/-- A character that is not alphanumeric parts the words on its two sides. -/
theorem wordsOf_append_cons (before after : List Char) {separator : Char}
    (h : tables.isAlphanumeric separator = false) :
    wordsOf tables (before ++ separator :: after) = wordsOf tables before ++ wordsOf tables after := by
  rw [wordsOf, maximalRuns_append_cons before after h, List.map_append]
  rfl

/-- A run of alphanumeric characters is one word. -/
theorem wordsOf_run {run : List Char} (hne : run ≠ []) (h : ∀ c ∈ run, tables.isAlphanumeric c = true) :
    wordsOf tables run = [lowerCase tables run] := by
  rw [wordsOf, maximalRuns_of_forall hne h]
  rfl

/-- A text has no words when none of its characters is alphanumeric. -/
theorem words_eq_nil_iff {text : String} :
    words tables text = [] ↔ ∀ c ∈ text.toList, tables.isAlphanumeric c = false := by
  rw [words, wordsOf, List.map_eq_nil_iff, maximalRuns_eq_nil_iff]

theorem words_empty : words tables "" = [] := by simp [words]

/-- Trimming keeps the words. -/
theorem UnicodeTables.Lawful.words_trim (h : tables.Lawful) (text : String) :
    words tables (Text.trim text) = words tables text := by
  have htrim : (Text.trim text).toList =
      (text.toList.dropWhile Text.isWhitespace).rdropWhile Text.isWhitespace := by
    rw [Text.trim, String.toList_ofList]
    rfl
  rw [words, htrim, wordsOf, maximalRuns_rdropWhile h.whitespace_not_alphanumeric,
    maximalRuns_dropWhile h.whitespace_not_alphanumeric]
  rfl

/-- A text normalizes to nothing when it has no words. -/
theorem UnicodeTables.Lawful.normalize_eq_empty_iff (h : tables.Lawful) {text : String} :
    normalize tables text = "" ↔ words tables text = [] := by
  have hkept : (Text.splitWhitespace text).flatten.filter tables.isAlphanumeric =
      text.toList.filter tables.isAlphanumeric := by
    have hflat : (Text.splitWhitespace text).flatten =
        text.toList.filter fun c => !Text.isWhitespace c := by
      rw [Text.splitWhitespace, ← flatten_splitOnP, List.flatten_filter_ne_nil]
    rw [hflat, List.filter_filter]
    refine List.filter_congr fun c _ => ?_
    cases hspace : Text.isWhitespace c with
    | false => simp
    | true => simp [h.whitespace_not_alphanumeric c hspace]
  rw [normalize, hkept, words_eq_nil_iff, String.ofList_eq_empty_iff, List.flatMap_eq_nil_iff]
  constructor
  · intro hlower c hc
    by_contra halnum
    exact h.toLowercase_ne_nil c (hlower c (List.mem_filter.mpr ⟨hc, by simpa using halnum⟩))
  · intro hnone c hc
    obtain ⟨hmem, halnum⟩ := List.mem_filter.mp hc
    simp [hnone c hmem] at halnum

/-- A stable text grows by the words appended to it. -/
theorem UnicodeTables.Lawful.words_appendStable (h : tables.Lawful) (accumulator text : String) :
    words tables (appendStable accumulator text) = words tables accumulator ++ words tables text := by
  have hspace : tables.isAlphanumeric ' ' = false := h.whitespace_not_alphanumeric ' ' (by decide)
  unfold appendStable
  split
  · rename_i hempty
    subst hempty
    rw [String.empty_append, h.words_trim, words_empty, List.nil_append]
  · have hchars : (accumulator ++ " " ++ Text.trim text).toList =
        accumulator.toList ++ ' ' :: (Text.trim text).toList := by simp
    rw [words, hchars, wordsOf_append_cons _ _ hspace, ← words, ← words, h.words_trim]

/-- Only an empty run is empty in lower case. -/
theorem UnicodeTables.Lawful.flatMap_toLowercase_eq_nil (h : tables.Lawful) {run : List Char} :
    run.flatMap tables.toLowercase = [] ↔ run = [] := by
  rw [List.flatMap_eq_nil_iff]
  constructor
  · intro hnil
    exact List.eq_nil_iff_forall_not_mem.mpr fun c hc => h.toLowercase_ne_nil c (hnil c hc)
  · rintro rfl
    simp

/-- Read on from a run, the tokens are the words of the run and what follows it. -/
theorem UnicodeTables.Lawful.lexicalTokensFrom_words (h : tables.Lawful) (run : List Char)
    (hrun : ∀ c ∈ run, tables.isAlphanumeric c = true) (index start : ℕ) (rest : List Char) :
    (lexicalTokensFrom tables index (run.flatMap tables.toLowercase) start rest).map Prod.fst =
      wordsOf tables (run ++ rest) := by
  induction rest generalizing run index start with
  | nil =>
    rw [lexicalTokensFrom]
    split
    · rename_i hnil
      simp [h.flatMap_toLowercase_eq_nil.mp hnil]
    · rename_i hne
      rw [h.flatMap_toLowercase_eq_nil] at hne
      rw [List.append_nil, wordsOf_run hne hrun]
      rfl
  | cons c rest ih =>
    rw [lexicalTokensFrom]
    split
    · rename_i halnum
      have hread := ih (run ++ [c]) (by simpa [or_imp, forall_and] using ⟨hrun, halnum⟩) (index + 1)
        (if run.flatMap tables.toLowercase = [] then index else start)
      simpa using hread
    · rename_i hother
      have hread := ih [] (by simp) (index + 1) start
      rw [wordsOf_append_cons run rest (by simpa using hother)]
      split
      · rename_i hnil
        rw [hnil]
        rw [h.flatMap_toLowercase_eq_nil] at hnil
        simpa [hnil] using hread
      · rename_i hne
        rw [h.flatMap_toLowercase_eq_nil] at hne
        rw [wordsOf_run hne hrun]
        simpa [lowerCase] using hread

/-- The characters of a text from one of its tokens on have the words from that token on. -/
theorem UnicodeTables.Lawful.wordsOf_drop (h : tables.Lawful) (before run : List Char) {rest : List Char}
    (hrun : ∀ c ∈ run, tables.isAlphanumeric c = true) (index start : ℕ)
    (hindex : index = before.length + run.length) (hstart : run ≠ [] → start = before.length) {k : ℕ}
    {token : String × ℕ}
    (htoken : (lexicalTokensFrom tables index (run.flatMap tables.toLowercase) start rest)[k]? = some token) :
    wordsOf tables ((before ++ run ++ rest).drop token.2) = (wordsOf tables (run ++ rest)).drop k := by
  induction rest generalizing before run index start k with
  | nil =>
    rw [lexicalTokensFrom] at htoken
    split at htoken
    · cases htoken
    · rename_i hne
      rw [h.flatMap_toLowercase_eq_nil] at hne
      cases k with
      | zero =>
        cases htoken
        simp [hstart hne]
      | succ k => cases htoken
  | cons c rest ih =>
    rw [lexicalTokensFrom] at htoken
    split at htoken
    · rename_i halnum
      have hnext : ∀ d ∈ run ++ [c], tables.isAlphanumeric d = true := by
        simpa [or_imp, forall_and] using ⟨hrun, halnum⟩
      have hread := ih before (run ++ [c]) hnext (index + 1)
        (if run.flatMap tables.toLowercase = [] then index else start)
        (by simp; omega) (by
          intro _
          rw [hindex]
          split
          · rename_i hnil
            simp [h.flatMap_toLowercase_eq_nil.mp hnil]
          · rename_i hne
            exact hstart fun hnil => hne (h.flatMap_toLowercase_eq_nil.mpr hnil))
        (by simpa using htoken)
      simpa using hread
    · rename_i hother
      have hseparated := wordsOf_append_cons run rest (by simpa using hother)
      split at htoken
      · rename_i hnil
        have hread := ih (before ++ [c]) [] (by simp) (index + 1) start
          (by simp [h.flatMap_toLowercase_eq_nil.mp hnil] at hindex ⊢; omega) (by simp)
          (by simpa [hnil] using htoken)
        rw [h.flatMap_toLowercase_eq_nil] at hnil
        subst hnil
        rw [hseparated]
        simpa using hread
      · rename_i hne
        rw [h.flatMap_toLowercase_eq_nil] at hne
        cases k with
        | zero =>
          cases htoken
          simp [hstart hne]
        | succ k =>
          -- the next token starts a run behind the separator
          have hread := ih (before ++ run ++ [c]) [] (by simp) (index + 1)
            start (by simp; omega) (by simp) (by simpa using htoken)
          rw [hseparated, wordsOf_run hne hrun]
          simpa using hread

/-- The tokens of a text are its words. -/
theorem UnicodeTables.Lawful.lexicalTokens_words (h : tables.Lawful) (text : String) :
    (lexicalTokens tables text).map Prod.fst = words tables text := by
  simpa [lexicalTokens, words] using h.lexicalTokensFrom_words [] (by simp) 0 0 text.toList

/-- A text cut at one of its tokens and trimmed has the words from that token on. -/
theorem UnicodeTables.Lawful.words_cut (h : tables.Lawful) {text : String} {k : ℕ} {token : String × ℕ}
    (htoken : (lexicalTokens tables text)[k]? = some token) :
    words tables (Text.trim (.ofList (text.toList.drop token.2))) = (words tables text).drop k := by
  rw [h.words_trim, words, String.toList_ofList, words]
  simpa using h.wordsOf_drop [] [] (by simp) 0 0 rfl (by simp) htoken

/-- Tokens compared one by one agree when the words of the first are the first of the second. -/
theorem all_zip_iff_isPrefix {stable committed : List (String × ℕ)} (hle : stable.length ≤ committed.length) :
    ((stable.zip committed).all fun (stable, committed) => stable.1 = committed.1) = true ↔
      stable.map Prod.fst <+: committed.map Prod.fst := by
  induction stable generalizing committed with
  | nil => simp
  | cons first rest ih =>
    cases committed with
    | nil => simp at hle
    | cons other others =>
      have hrest := @ih others (by simpa using hle)
      simp only [List.zip_cons_cons, List.all_cons, List.map_cons, List.cons_prefix_cons, Bool.and_eq_true,
        decide_eq_true_eq, hrest]

/-- What a committed text adds to a stable text: its words behind the stable ones, when those come first. -/
inductive Reconciles (tables : UnicodeTables) (committed stable : String) : Option String → Prop
  | fresh (h : words tables stable = []) : Reconciles tables committed stable none
  | differs (hstable : words tables stable ≠ []) (h : ¬ words tables stable <+: words tables committed) :
      Reconciles tables committed stable none
  | covered (hstable : words tables stable ≠ []) (h : words tables stable = words tables committed) :
      Reconciles tables committed stable (some "")
  | extends_ {suffix : String} (hstable : words tables stable ≠ []) (hsuffix : words tables suffix ≠ [])
      (h : words tables stable ++ words tables suffix = words tables committed) :
      Reconciles tables committed stable (some suffix)

/-- A committed text is reconciled with the words of the stable text. -/
theorem UnicodeTables.Lawful.reconciles (h : tables.Lawful) (committed stable : String) :
    Reconciles tables committed stable (committedSuffixAfterStablePrefix tables committed stable) := by
  have hstable := h.lexicalTokens_words stable
  have hcommitted := h.lexicalTokens_words committed
  have hstableLength := congrArg List.length hstable
  have hcommittedLength := congrArg List.length hcommitted
  rw [List.length_map] at hstableLength hcommittedLength
  unfold committedSuffixAfterStablePrefix
  dsimp only
  split
  · rename_i hnil
    rw [hnil] at hstable
    exact .fresh hstable.symm
  rename_i hne
  have hspoken : words tables stable ≠ [] := by
    rw [← hstable]
    simpa using hne
  split
  · rename_i hdiffers
    refine .differs hspoken fun hprefix => ?_
    have hle := hprefix.length_le
    rcases hdiffers with hlonger | hother
    · omega
    · rw [← hstable, ← hcommitted] at hprefix
      exact hother ((all_zip_iff_isPrefix (by omega)).mpr hprefix)
  · rename_i hagrees
    rw [not_or, not_not, not_lt] at hagrees
    have hfirst := (all_zip_iff_isPrefix hagrees.1).mp hagrees.2
    rw [hstable, hcommitted] at hfirst
    have happend := List.prefix_iff_eq_append.mp hfirst
    split
    · rename_i hend
      have hlength := List.getElem?_eq_none_iff.mp hend
      exact .covered hspoken (hfirst.eq_of_length_le (by omega))
    · rename_i token start hnext
      have hlength := (List.getElem?_eq_some_iff.mp hnext).1
      have hcut := h.words_cut hnext
      refine .extends_ hspoken ?_ ?_
      · rw [hcut, hstableLength, Ne, List.drop_eq_nil_iff]
        omega
      · rw [hcut, hstableLength]
        exact happend

end Words

/-- The text of a returned transcript of a stability. -/
def transcriptText (stability : LiveTranscriptStability) : Option LiveRecognitionEvent → Option String
  | some (.transcript spoken) => if spoken.stability = stability then some spoken.text else none
  | _ => none

/-- The segment finals a history returned since its last utterance final. -/
def segmentFinals (history : List LiveExchange) : List String :=
  (history.rtakeWhile fun exchange => !exchange.1.isUtteranceFinal).filterMap fun exchange =>
    transcriptText .segmentFinal exchange.2

/-- The words of the segment finals a history returned since its last utterance final. -/
def segmentWords (tables : UnicodeTables) (history : List LiveExchange) : List String :=
  (segmentFinals history).flatMap (words tables)

/-- The accepted-audio boundary after the calls of a list. -/
def acceptedBoundary (inputs : List LiveInput) : ℕ :=
  min (inputs.countP fun | .recordAudio _ => true | _ => false) U64.MAX

/-- The utterance finals with words among the calls of a list, newest first: normalized, each at the
accepted-audio boundary it arrived at. -/
def committedMessages (tables : UnicodeTables) : List LiveInput → RecentTexts
  | [] => []
  | .apply (.transcript .utteranceFinal text _) :: earlier =>
    if normalize tables text = "" then committedMessages tables earlier
    else (acceptedBoundary earlier, normalize tables text) :: committedMessages tables earlier
  | _ :: earlier => committedMessages tables earlier

/-- One of the last eight utterance finals with words was this text at this accepted-audio boundary. -/
def Repeated (tables : UnicodeTables) (earlier : List LiveInput) (text : String) : Prop :=
  (acceptedBoundary earlier, normalize tables text) ∈ (committedMessages tables earlier).take 8

/-- The answer to a committed text after a history: behind the words of the segment finals it has the
committed words that remain, or it is no transcript when the committed words do not start with them. -/
structure WordForWord (tables : UnicodeTables) (before : List LiveExchange) (text : String)
    (output : Option LiveRecognitionEvent) : Prop where
  complete : segmentWords tables before <+: words tables text →
    ¬ Repeated tables (before.map Prod.fst).reverse text →
      segmentWords tables before ++ (transcriptText .utteranceFinal output).elim [] (words tables) =
        words tables text
  silent : ¬ segmentWords tables before <+: words tables text → transcriptText .utteranceFinal output = none

section Runs

variable {tables : UnicodeTables} {history : List LiveExchange} {state : LiveState}

/-- Remembering one more text keeps the eight newest. -/
theorem remember_take (newest : RecentTexts) (boundary : ℕ) (value : String) :
    remember (newest.take 8).reverse boundary value = (((boundary, value) :: newest).take 8).reverse := by
  have hkept : (if (newest.take 8).reverse.length = MAX_RECENT_TEXTS then (newest.take 8).reverse.tail
      else (newest.take 8).reverse) = (newest.take 7).reverse := by
    split
    · rename_i hfull
      rw [List.length_reverse, MAX_RECENT_TEXTS] at hfull
      rw [List.tail_reverse, List.dropLast_eq_take, hfull, List.take_take]
      rfl
    · rename_i hroom
      rw [List.length_reverse, List.length_take, MAX_RECENT_TEXTS] at hroom
      rw [List.take_of_length_le (by omega), List.take_of_length_le (by omega)]
  rw [remember, hkept, List.take_succ_cons, List.reverse_cons]

/-- What a state remembers of a history: the words of the segment finals returned since the last
utterance final, the accepted-audio boundary and the newest committed texts. -/
structure LiveState.Remembers (tables : UnicodeTables) (history : List LiveExchange) (state : LiveState) :
    Prop where
  stable_words : words tables state.stableText = segmentWords tables history
  stable_empty : segmentWords tables history = [] → state.stableText = ""
  boundary_eq : state.acceptedAudioBoundary = acceptedBoundary (history.map Prod.fst).reverse
  committed_eq : state.recentCommitted =
    ((committedMessages tables (history.map Prod.fst).reverse).take 8).reverse
  queued : ∀ event ∈ state.pending, event = .finalizeResultObserved

/-- A committed text is returned without the words of the stable text, or not at all. -/
theorem LiveState.committedEvent_words (htables : tables.Lawful) {text : String}
    (hspoken : words tables text ≠ [])
    (hempty : words tables state.stableText = [] → state.stableText = "") (confidence : Option Float32)
    (endMillis : ℕ) :
    (words tables state.stableText <+: words tables text →
      containsAtBoundary state.recentCommitted state.acceptedAudioBoundary (normalize tables text) = false →
        words tables state.stableText ++ (transcriptText .utteranceFinal
          (state.committedEvent tables text confidence endMillis)).elim [] (words tables) =
            words tables text) ∧
      (¬ words tables state.stableText <+: words tables text →
        state.committedEvent tables text confidence endMillis = none) := by
  have hnormalized : normalize tables text ≠ "" := fun h => hspoken (htables.normalize_eq_empty_iff.mp h)
  have hhad (hstable : words tables state.stableText ≠ []) : Text.trim state.stableText ≠ "" := by
    intro htrim
    apply hstable
    rw [← htables.words_trim, htrim, words_empty]
  have hreconciles := htables.reconciles text state.stableText
  unfold committedEvent
  dsimp only
  cases hresult : committedSuffixAfterStablePrefix tables text state.stableText with
  | none =>
    rw [hresult] at hreconciles
    cases hreconciles with
    | fresh hnone =>
      refine ⟨fun _ hnew => ?_, fun hdiffers => absurd ?_ hdiffers⟩
      · have htrim : Text.trim state.stableText = "" := by
          rw [hempty hnone]
          rfl
        simp [hnormalized, hnew, htrim, hnone, transcriptText, transcriptEvent]
      · rw [hnone]
        exact List.nil_prefix
    | differs hstable hdiffers =>
      refine ⟨fun hprefix => absurd hprefix hdiffers, fun _ => ?_⟩
      simp [hhad hstable]
  | some suffix =>
    rw [hresult] at hreconciles
    cases hreconciles with
    | covered hstable hcovered =>
      refine ⟨fun _ _ => ?_, fun hdiffers => absurd ?_ hdiffers⟩
      · simpa [transcriptText] using hcovered
      · rw [hcovered]
    | extends_ hstable hsuffix hextends =>
      refine ⟨fun _ hnew => ?_, fun hdiffers => absurd ?_ hdiffers⟩
      · have hne : suffix ≠ "" := fun h => hsuffix (by rw [h, words_empty])
        simpa [hnormalized, hnew, hne, transcriptText, transcriptEvent] using hextends
      · exact ⟨_, hextends⟩

/-- An utterance final returns the committed transcript, or no transcript when there is none. -/
theorem LiveState.transcriptText_utteranceFinal (text : String) (confidence : Option Float32) :
    transcriptText .utteranceFinal (state.utteranceFinal tables text confidence).2 =
      transcriptText .utteranceFinal (state.committedEvent tables text confidence
        (max state.userAudioMillis state.committedEndMillis)) := by
  unfold utteranceFinal
  dsimp only
  cases state.committedEvent tables text confidence (max state.userAudioMillis state.committedEndMillis) with
  | none => split <;> rfl
  | some event => split <;> rfl

/-- An exchange which is no utterance final adds the segment final it returns. -/
theorem segmentWords_append (exchange : LiveExchange) (h : exchange.1.isUtteranceFinal = false) :
    segmentWords tables (history ++ [exchange]) = segmentWords tables history ++
      (transcriptText .segmentFinal exchange.2).elim [] (words tables) := by
  unfold segmentWords segmentFinals
  rw [List.rtakeWhile_concat_pos _ _ _ (by simp [h]), List.filterMap_append, List.flatMap_append]
  cases htext : transcriptText .segmentFinal exchange.2 <;> simp [htext]

/-- An utterance final starts over. -/
theorem segmentWords_append_utteranceFinal {exchange : LiveExchange} (h : exchange.1.isUtteranceFinal = true) :
    segmentWords tables (history ++ [exchange]) = [] := by
  rw [segmentWords, segmentFinals, List.rtakeWhile_concat_neg _ _ _ (by simp [h])]
  rfl

/-- A call which is no utterance final adds no committed text. -/
theorem committedMessages_cons {input : LiveInput} (earlier : List LiveInput)
    (h : input.isUtteranceFinal = false) :
    committedMessages tables (input :: earlier) = committedMessages tables earlier := by
  match input with
  | .recordAudio _ | .beginFinalize | .cancelFinalize | .popPending | .apply .ignore
  | .apply (.terminalError _) | .apply (.sessionStarted _) | .apply (.transcript .partial_ _ _)
  | .apply (.transcript .segmentFinal _ _) => rfl
  | .apply (.transcript .utteranceFinal _ _) => cases h

/-- Only recorded audio moves the accepted-audio boundary. -/
theorem acceptedBoundary_cons {input : LiveInput} (earlier : List LiveInput)
    (h : ∀ bytes, input ≠ .recordAudio bytes) : acceptedBoundary (input :: earlier) = acceptedBoundary earlier := by
  cases input with
  | recordAudio bytes => exact absurd rfl (h bytes)
  | beginFinalize | cancelFinalize | popPending | apply => rfl

/-- A call which touches none of what is remembered and returns no segment final keeps it. -/
theorem LiveState.Remembers.quiet (h : state.Remembers tables history) {input : LiveInput} {next : LiveState}
    {output : Option LiveRecognitionEvent} (hinput : input.isUtteranceFinal = false)
    (haudio : ∀ bytes, input ≠ .recordAudio bytes) (houtput : transcriptText .segmentFinal output = none)
    (hstable : next.stableText = state.stableText)
    (hboundary : next.acceptedAudioBoundary = state.acceptedAudioBoundary)
    (hcommitted : next.recentCommitted = state.recentCommitted)
    (hqueued : ∀ event ∈ next.pending, event = .finalizeResultObserved) :
    next.Remembers tables (history ++ [(input, output)]) := by
  have hwords : segmentWords tables (history ++ [(input, output)]) = segmentWords tables history := by
    rw [segmentWords_append (input, output) hinput, houtput, Option.elim_none, List.append_nil]
  have hinputs : ((history ++ [(input, output)]).map Prod.fst).reverse =
      input :: (history.map Prod.fst).reverse := by simp
  exact
    { stable_words := by rw [hstable, hwords, h.stable_words]
      stable_empty := by
        rw [hstable, hwords]
        exact h.stable_empty
      boundary_eq := by rw [hboundary, hinputs, acceptedBoundary_cons _ haudio, h.boundary_eq]
      committed_eq := by rw [hcommitted, hinputs, committedMessages_cons _ hinput, h.committed_eq]
      queued := hqueued }

/-- A segment final keeps what is remembered: one that is returned adds its words. -/
theorem LiveState.Remembers.segmentFinal (htables : tables.Lawful) (h : state.Remembers tables history)
    (text : String) (confidence : Option Float32) :
    (state.segmentFinal tables text confidence).1.Remembers tables (history ++
      [(.apply (.transcript .segmentFinal text confidence), (state.segmentFinal tables text confidence).2)]) := by
  unfold LiveState.segmentFinal
  dsimp only
  split
  · exact h.quiet rfl (by simp) rfl rfl rfl rfl h.queued
  · rename_i hnew
    have hspoken : words tables text ≠ [] :=
      fun hnone => (not_or.mp hnew).1 (htables.normalize_eq_empty_iff.mpr hnone)
    refine
      { stable_words := ?_
        stable_empty := ?_
        boundary_eq := by
          rw [List.map_append, List.reverse_append]
          exact h.boundary_eq.trans (acceptedBoundary_cons _ (by simp)).symm
        committed_eq := by
          rw [List.map_append, List.reverse_append]
          exact h.committed_eq
        queued := h.queued }
    · rw [segmentWords_append _ rfl, htables.words_appendStable, h.stable_words]
      rfl
    · rw [segmentWords_append _ rfl]
      intro hnone
      exact absurd (List.append_eq_nil_iff.mp hnone).2 hspoken

/-- What an utterance final leaves behind. -/
theorem LiveState.utteranceFinal_remembered (state : LiveState) (tables : UnicodeTables) (text : String)
    (confidence : Option Float32) :
    let next := (state.utteranceFinal tables text confidence).1
    next.stableText = "" ∧ next.acceptedAudioBoundary = state.acceptedAudioBoundary ∧
      next.recentCommitted = (if normalize tables text = "" then state.recentCommitted
        else remember state.recentCommitted state.acceptedAudioBoundary (normalize tables text)) ∧
      ∀ event ∈ next.pending, event ∈ state.pending ∨ event = .finalizeResultObserved := by
  intro next
  refine ⟨?_, ?_, ?_, (state.follows_utteranceFinal tables text confidence).queued⟩
  all_goals
    simp only [next, LiveState.utteranceFinal]
    split
    · split <;> rfl
    · rfl

/-- An utterance final forgets the segment finals and adds its text to the committed ones. -/
theorem LiveState.Remembers.utteranceFinal (h : state.Remembers tables history) (text : String)
    (confidence : Option Float32) (output : Option LiveRecognitionEvent) :
    (state.utteranceFinal tables text confidence).1.Remembers tables (history ++
      [(.apply (.transcript .utteranceFinal text confidence), output)]) := by
  have hwords : segmentWords tables
      (history ++ [(.apply (.transcript .utteranceFinal text confidence), output)]) = [] :=
    segmentWords_append_utteranceFinal rfl
  have hinputs : ((history ++ [(LiveInput.apply (.transcript .utteranceFinal text confidence), output)]).map
      Prod.fst).reverse = .apply (.transcript .utteranceFinal text confidence) ::
        (history.map Prod.fst).reverse := by simp
  have hkept : ∀ next : LiveState, next.stableText = "" →
      next.acceptedAudioBoundary = state.acceptedAudioBoundary →
      next.recentCommitted = (if normalize tables text = "" then state.recentCommitted
        else remember state.recentCommitted state.acceptedAudioBoundary (normalize tables text)) →
      (∀ event ∈ next.pending, event = .finalizeResultObserved) →
      next.Remembers tables (history ++ [(.apply (.transcript .utteranceFinal text confidence), output)]) := by
    intro next hstable hboundary hcommitted hqueued
    refine
      { stable_words := by rw [hwords, hstable, words_empty]
        stable_empty := fun _ => hstable
        boundary_eq := by rw [hboundary, hinputs, acceptedBoundary_cons _ (by simp), h.boundary_eq]
        committed_eq := ?_
        queued := hqueued }
    rw [hcommitted, hinputs, committedMessages]
    split
    · exact h.committed_eq
    · rw [h.committed_eq, h.boundary_eq, remember_take]
  obtain ⟨hstable, hboundary, hcommitted, hpending⟩ := state.utteranceFinal_remembered tables text confidence
  refine hkept _ hstable hboundary hcommitted fun event hevent => ?_
  rcases hpending event hevent with hold | hmarker
  · exact h.queued event hold
  · exact hmarker

/-- Every call keeps what the state remembers of the history. -/
theorem LiveState.Remembers.step (htables : tables.Lawful) (h : state.Remembers tables history)
    (input : LiveInput) : (state.step tables input).1.Remembers tables
      (history ++ [(input, (state.step tables input).2)]) := by
  match input with
  | .recordAudio bytes =>
    refine { h with boundary_eq := ?_, stable_words := ?_, stable_empty := ?_, committed_eq := ?_ }
    · rw [segmentWords_append _ rfl]
      simpa [transcriptText, LiveState.step, recordAudio] using h.stable_words
    · rw [segmentWords_append _ rfl]
      simpa [transcriptText, LiveState.step, recordAudio] using h.stable_empty
    · rw [List.map_append, List.reverse_append]
      have hboundary := h.boundary_eq
      simp only [acceptedBoundary] at hboundary
      simp only [LiveState.step, recordAudio, hboundary, acceptedBoundary, U64.saturatingAdd, List.map_cons,
        List.map_nil, List.reverse_singleton, List.singleton_append, List.countP_cons]
      simp only [if_true]
      omega
    · rw [List.map_append, List.reverse_append]
      exact h.committed_eq
  | .beginFinalize | .cancelFinalize => exact h.quiet rfl (by simp) rfl rfl rfl rfl h.queued
  | .popPending =>
    refine h.quiet rfl (by simp) ?_ rfl rfl rfl fun event hevent =>
      h.queued event (List.mem_of_mem_tail hevent)
    cases hpending : state.pending with
    | nil => simp [LiveState.step, popPending, hpending, transcriptText]
    | cons event rest =>
      have hmarker := h.queued event (by rw [hpending]; exact List.mem_cons_self)
      simp [LiveState.step, popPending, hpending, hmarker, transcriptText]
  | .apply .ignore | .apply (.terminalError _) | .apply (.sessionStarted none)
  | .apply (.sessionStarted (some _)) => exact h.quiet rfl (by simp) rfl rfl rfl rfl h.queued
  | .apply (.transcript .partial_ text confidence) =>
    refine h.quiet rfl (by simp) ?_ rfl rfl rfl h.queued
    simp only [LiveState.step, apply, LiveState.transcript, partialTranscript]
    split <;> simp [transcriptText, transcriptEvent]
  | .apply (.transcript .segmentFinal text confidence) => exact h.segmentFinal htables text confidence
  | .apply (.transcript .utteranceFinal text confidence) => exact h.utteranceFinal text confidence _

/-- A state remembers its history. -/
theorem remembers_of_runs {rate : UInt32} {reference : Option ProviderReference} (htables : tables.Lawful)
    (hrun : Runs (LiveState.step tables) (.new rate reference) history state) :
    state.Remembers tables history := by
  refine hrun.invariant (fun history state => state.Remembers tables history) ?_
    fun history state input h => h.step htables input
  exact
    { stable_words := words_empty
      stable_empty := fun _ => rfl
      boundary_eq := by simp [LiveState.new, acceptedBoundary]
      committed_eq := rfl
      queued := by simp [LiveState.new] }

/-- In every run each utterance final with words is answered word for word. -/
theorem wordForWord_of_runs {rate : UInt32} {reference : Option ProviderReference} (htables : tables.Lawful)
    (hrun : Runs (LiveState.step tables) (.new rate reference) history state) {before after : List LiveExchange}
    {text : String} {confidence : Option Float32} {output : Option LiveRecognitionEvent}
    (hmessage : history = before ++ (.apply (.transcript .utteranceFinal text confidence), output) :: after)
    (hspoken : ∃ c ∈ text.toList, tables.isAlphanumeric c = true) : WordForWord tables before text output := by
  subst hmessage
  obtain ⟨middle, hbefore, rfl⟩ := hrun.exchange
  have hremembers := remembers_of_runs htables hbefore
  have hwords : words tables text ≠ [] := by
    rw [Ne, words_eq_nil_iff]
    push Not
    simpa using hspoken
  obtain ⟨hcomplete, hsilent⟩ := middle.committedEvent_words htables hwords
    (fun hnone => hremembers.stable_empty (hremembers.stable_words ▸ hnone)) confidence
    (max middle.userAudioMillis middle.committedEndMillis)
  rw [hremembers.stable_words] at hcomplete hsilent
  have htext : transcriptText .utteranceFinal
      (middle.step tables (.apply (.transcript .utteranceFinal text confidence))).2 = _ :=
    middle.transcriptText_utteranceFinal text confidence
  refine ⟨fun hprefix hnew => ?_, fun hdiffers => ?_⟩
  · rw [htext]
    refine hcomplete hprefix ?_
    rw [containsAtBoundary, List.any_eq_false]
    rintro ⟨boundary, value⟩ hmem heq
    obtain ⟨rfl, rfl⟩ : boundary = middle.acceptedAudioBoundary ∧ value = normalize tables text := by
      simpa using heq
    rw [hremembers.committed_eq, List.mem_reverse, hremembers.boundary_eq] at hmem
    exact hnew hmem
  · rw [htext, hsilent hdiffers]
    rfl

end Runs

/-- The tables restricted to ASCII keep the promises. -/
theorem lawful_ascii : UnicodeTables.Lawful ⟨Char.isAlphanum, fun c => [c.toLower]⟩ := by
  refine ⟨fun c hspace => ?_, fun c => List.cons_ne_nil _ _⟩
  rw [← Bool.not_eq_true]
  intro halnum
  have hcode : (65 ≤ c.toNat ∧ c.toNat ≤ 90) ∨ (97 ≤ c.toNat ∧ c.toNat ≤ 122) ∨
      (48 ≤ c.toNat ∧ c.toNat ≤ 57) := by
    change c.isAlphanum = true at halnum
    delta Char.isAlphanum Char.isAlpha Char.isUpper Char.isLower at halnum
    simpa [Char.isDigit, UInt32.le_iff_toNat_le, or_assoc] using halnum
  simp only [Text.isWhitespace, Bool.or_eq_true, Bool.and_eq_true, decide_eq_true_eq, beq_iff_eq] at hspace
  omega

/-- A segment final with a comma and the utterance which goes on behind it. -/
theorem wordForWord_continued :
    let tables : UnicodeTables := ⟨Char.isAlphanum, fun c => [c.toLower]⟩
    let run := feed (LiveState.step tables) (.new 16000 none)
      [.recordAudio 32000, .apply (.transcript .segmentFinal "Hello," none)]
    WordForWord tables run.1 "hello world!"
      (run.2.step tables (.apply (.transcript .utteranceFinal "hello world!" none))).2 := by
  intro tables run
  have hrun := (runs_feed (LiveState.step tables) (.new 16000 none)
    [.recordAudio 32000, .apply (.transcript .segmentFinal "Hello," none)]).snoc
      (.apply (.transcript .utteranceFinal "hello world!" none))
  exact wordForWord_of_runs lawful_ascii hrun rfl ⟨'h', by decide, by decide⟩

end Voicetext.Providers.ElevenLabs
