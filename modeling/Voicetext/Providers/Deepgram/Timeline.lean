import Voicetext.Providers.Deepgram.BatchDto

/-!
# The timeline of a batch result

Ends within a tolerance behind the authoritative duration are clamped to it. An utterance which overlaps the one
before it is merged into it when it ends no later, and otherwise begins where the other ends. Folding of letter
case is a parameter.
-/

namespace Voicetext.Providers.Deepgram.Batch

open Voicetext.Common Voicetext.Speech.Application

def TIMESTAMP_TOLERANCE_MILLIS : ℕ := 250

def TIMESTAMP_RELATIVE_TOLERANCE_DIVISOR : ℕ := 200

def MAX_UTTERANCE_OVERLAP_MILLIS : ℕ := 10000

def invalidTiming (providerReference : Option ProviderReference) : RecognitionFailure :=
  .unknownAfterSend "DEEPGRAM_INVALID_TIMING" providerReference

section Words

variable (toLowercase : List Char → List Char)

def wordsEqual (left right : List (List Char)) : Bool :=
  (left.zip right).all fun pair => toLowercase pair.1 = toLowercase pair.2

/-- `slice::windows`. -/
def windows (size : ℕ) (words : List (List Char)) : List (List (List Char)) :=
  (List.range (words.length + 1 - size)).map fun start => (words.drop start).take size

def containsWords (haystack needle : List (List Char)) : Bool :=
  needle ≠ [] && (decide (needle.length ≤ haystack.length) &&
    (windows needle.length haystack).any fun window => wordsEqual toLowercase window needle)

/-- The words of both texts, with the longest run which ends one and begins the other said once. -/
def shareWords (previousWords currentWords : List (List Char)) : ℕ → Option (List (List Char))
  | 0 => none
  | sharedWords + 1 =>
    if wordsEqual toLowercase (previousWords.drop (previousWords.length - (sharedWords + 1)))
        (currentWords.take (sharedWords + 1)) then some (previousWords ++ currentWords.drop (sharedWords + 1))
    else shareWords previousWords currentWords sharedWords

def mergeContainedText (previous current : String) : String :=
  let previousWords := Text.splitWhitespace previous
  let currentWords := Text.splitWhitespace current
  if containsWords toLowercase previousWords currentWords then previous
  else if containsWords toLowercase currentWords previousWords then current
  else
    let maximumSharedWords := min previousWords.length currentWords.length
    match shareWords toLowercase previousWords currentWords maximumSharedWords with
    | some words => Text.joinWords words
    | none => previous ++ " " ++ current

end Words

section Normalization

variable (toLowercase : List Char → List Char)

def normalizeEnd (startMillis endMillis authoritativeDurationMillis maximumProviderEnd : ℕ)
    (providerReference : Option ProviderReference) : Except RecognitionFailure ℕ :=
  if startMillis ≥ authoritativeDurationMillis ∨ endMillis > maximumProviderEnd ∨ endMillis ≤ startMillis then
    .error (invalidTiming providerReference)
  else .ok (min endMillis authoritativeDurationMillis)

/-- One segment against the normalized ones, which are kept with the last first. -/
def overlapStep (providerReference : Option ProviderReference) :
    List ParsedSegment × Bool → ParsedSegment → Except RecognitionFailure (List ParsedSegment × Bool)
  | ([], changed), segment => .ok ([segment], changed)
  | (previous :: earlier, changed), segment =>
    if segment.startMs ≥ previous.endMs then .ok (segment :: previous :: earlier, changed)
    else if previous.endMs - segment.startMs > MAX_UTTERANCE_OVERLAP_MILLIS then
      .error (invalidTiming providerReference)
    else if segment.endMs ≤ previous.endMs then
      .ok ({ previous with text := mergeContainedText toLowercase previous.text segment.text } :: earlier, true)
    else .ok ({ segment with startMs := previous.endMs } :: previous :: earlier, true)

/-- The segments without overlaps, and whether any was moved or merged. -/
def normalizeUtteranceOverlaps (segments : List ParsedSegment) (providerReference : Option ProviderReference) :
    Except RecognitionFailure (List ParsedSegment × Bool) := do
  let (normalized, changed) ← segments.foldlM (overlapStep toLowercase providerReference) ([], false)
  return (normalized.reverse, changed)

def normalize (parsed : ParsedBatchResult) (authoritativeDurationMillis : ℕ) :
    Except RecognitionFailure ParsedBatchResult := do
  let tolerance :=
    max TIMESTAMP_TOLERANCE_MILLIS (authoritativeDurationMillis / TIMESTAMP_RELATIVE_TOLERANCE_DIVISOR)
  let maximumProviderEnd := U64.saturatingAdd authoritativeDurationMillis tolerance
  let providerReference : Option ProviderReference := parsed.providerRequestId.map fun id => ⟨id, some .requestId⟩
  let segments ← parsed.segments.mapM fun segment => do
    let endMs ← normalizeEnd segment.startMs segment.endMs authoritativeDurationMillis maximumProviderEnd
      providerReference
    return { segment with endMs }
  let readableSegments ← parsed.readableSegments.mapM fun segment => do
    let endMs ← normalizeEnd segment.startMs segment.endMs authoritativeDurationMillis maximumProviderEnd
      providerReference
    return { segment with endMs }
  let (segments, changed) ← normalizeUtteranceOverlaps toLowercase segments providerReference
  -- source indices no longer identify the segments after a merge
  return { parsed with segments, readableSegments := if changed then [] else readableSegments }

end Normalization

section Merging

variable {toLowercase : List Char → List Char} {left right previousWords currentWords : List (List Char)}

/-- As many words are equal when they are once folded. -/
theorem wordsEqual_iff (h : left.length = right.length) :
    wordsEqual toLowercase left right = true ↔ left.map toLowercase = right.map toLowercase := by
  induction left generalizing right with
  | nil =>
    obtain rfl := List.length_eq_zero_iff.mp h.symm
    simp [wordsEqual]
  | cons word rest ih =>
    obtain ⟨word', rest', rfl⟩ := List.exists_cons_of_length_eq_add_one h.symm
    simpa [wordsEqual] using fun _ => ih (Nat.succ.inj h)

/-- Contained words are a run of the others. -/
theorem runIn_of_containsWords (h : containsWords toLowercase left right = true) :
    Text.RunIn toLowercase right left := by
  simp only [containsWords, Bool.and_eq_true, decide_eq_true_eq, List.any_eq_true, windows, List.mem_map,
    List.mem_range] at h
  obtain ⟨-, hle, _, ⟨start, hstart, rfl⟩, hequal⟩ := h
  have hlength : ((left.drop start).take right.length).length = right.length := by
    rw [List.length_take, List.length_drop]
    omega
  rw [wordsEqual_iff hlength] at hequal
  rw [Text.RunIn, ← hequal]
  exact ((List.take_prefix _ _).isInfix.trans (List.drop_suffix _ _).isInfix).map toLowercase

/-- Shared words are said once, and the words of both texts remain runs. -/
theorem shareWords_eq_some {sharedWords : ℕ} {words : List (List Char)}
    (hprevious : sharedWords ≤ previousWords.length) (hcurrent : sharedWords ≤ currentWords.length)
    (h : shareWords toLowercase previousWords currentWords sharedWords = some words) :
    (∀ word ∈ words, word ∈ previousWords ∨ word ∈ currentWords) ∧
      Text.RunIn toLowercase previousWords words ∧ Text.RunIn toLowercase currentWords words := by
  induction sharedWords with
  | zero => cases h
  | succ sharedWords ih =>
    unfold shareWords at h
    split at h
    · rename_i hequal
      obtain rfl := Option.some.inj h
      rw [wordsEqual_iff (by rw [List.length_drop, List.length_take]; omega)] at hequal
      refine ⟨fun word hword => ?_, Text.RunIn.of_isInfix (List.prefix_append _ _).isInfix, ?_⟩
      · exact (List.mem_append.mp hword).imp_right List.mem_of_mem_drop
      · -- the shared end of the previous words stands for the beginning of the current ones
        have hcurrentWords : currentWords.map toLowercase =
            (previousWords.drop (previousWords.length - (sharedWords + 1))).map toLowercase ++
              (currentWords.drop (sharedWords + 1)).map toLowercase := by
          rw [hequal, ← List.map_append, List.take_append_drop]
        rw [Text.RunIn, hcurrentWords, ← List.map_append]
        have hsuffix : previousWords.drop (previousWords.length - (sharedWords + 1)) ++
            currentWords.drop (sharedWords + 1) <:+ previousWords ++ currentWords.drop (sharedWords + 1) :=
          List.suffix_append_self_iff.mpr (List.drop_suffix _ _)
        exact hsuffix.isInfix.map toLowercase
    · exact ih (by omega) (by omega) h

/-- The merged text says both texts. -/
theorem runIn_mergeContainedText (previous current : String) :
    Text.RunIn toLowercase (Text.splitWhitespace previous)
        (Text.splitWhitespace (mergeContainedText toLowercase previous current)) ∧
      Text.RunIn toLowercase (Text.splitWhitespace current)
        (Text.splitWhitespace (mergeContainedText toLowercase previous current)) := by
  unfold mergeContainedText
  dsimp only
  split
  · exact ⟨.refl _, runIn_of_containsWords ‹_›⟩
  split
  · exact ⟨runIn_of_containsWords ‹_›, .refl _⟩
  split
  · rename_i words hwords
    obtain ⟨hmem, hprevious, hcurrent⟩ := shareWords_eq_some (min_le_left _ _) (min_le_right _ _) hwords
    have hword : ∀ word ∈ words, Text.IsWord word := fun word h =>
      (hmem word h).elim Text.isWord_of_mem Text.isWord_of_mem
    rw [Text.splitWhitespace_joinWords hword]
    exact ⟨hprevious, hcurrent⟩
  · rw [Text.splitWhitespace_append]
    exact ⟨.of_isInfix (List.prefix_append _ _).isInfix, .of_isInfix (List.suffix_append _ _).isInfix⟩

end Merging

end Voicetext.Providers.Deepgram.Batch
