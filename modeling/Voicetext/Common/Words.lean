import Mathlib.Data.List.Infix
import Voicetext.Common.MaximalRuns
import Voicetext.Common.Text

/-!
# Words of a text and runs of words

Words are what whitespace separates. A text may say a run of words in other letter case, which is a run of
the same words once both are folded.
-/

namespace Voicetext.Common.Text

/-- `words.join(" ")`. -/
def joinWords (words : List (List Char)) : String := String.ofList ([' '].intercalate words)

/-- A non-empty run without whitespace. -/
def IsWord (word : List Char) : Prop := word ≠ [] ∧ ∀ c ∈ word, isWhitespace c = false

theorem isWord_of_mem {s : String} {word : List Char} (h : word ∈ splitWhitespace s) : IsWord word :=
  ⟨by simpa using (List.mem_filter.mp h).2, fun _ hc => (mem_of_mem_splitWhitespace h hc).2⟩

/-- A space separates the words of two texts. -/
theorem splitWhitespace_append (s t : String) :
    splitWhitespace (s ++ " " ++ t) = splitWhitespace s ++ splitWhitespace t := by
  have hsplit : (s.toList ++ ' ' :: t.toList).splitOnP isWhitespace =
      s.toList.splitOnP isWhitespace ++ t.toList.splitOnP isWhitespace :=
    List.splitOnP_append_cons _ _ (by decide)
  have hchars : (s ++ " " ++ t).toList = s.toList ++ ' ' :: t.toList := by simp
  rw [splitWhitespace, hchars, hsplit, List.filter_append]
  rfl

/-- Joined words are split again. -/
theorem splitWhitespace_joinWords {words : List (List Char)} (h : ∀ word ∈ words, IsWord word) :
    splitWhitespace (joinWords words) = words := by
  have hword {word : List Char} (hword : IsWord word) : splitWhitespace (String.ofList word) = [word] := by
    rw [splitWhitespace, String.toList_ofList, List.splitOnP_eq_singleton hword.2]
    simp [hword.1]
  induction words with
  | nil => rfl
  | cons word rest ih =>
    obtain ⟨hfirst, hrest⟩ := List.forall_mem_cons.mp h
    cases rest with
    | nil => simpa [joinWords] using hword hfirst
    | cons next rest =>
      have hjoin : joinWords (word :: next :: rest) = String.ofList word ++ " " ++ joinWords (next :: rest) := by
        simp [joinWords, List.intercalate_cons_cons, String.append_assoc]
      rw [hjoin, splitWhitespace_append, hword hfirst, ih hrest]
      rfl

/-- Texts are joined again to the same text exactly when they have the same words. -/
theorem joinWords_splitWhitespace_inj {s t : String} :
    joinWords (splitWhitespace s) = joinWords (splitWhitespace t) ↔ splitWhitespace s = splitWhitespace t := by
  refine ⟨fun h => ?_, congrArg joinWords⟩
  have hwords := congrArg splitWhitespace h
  rwa [splitWhitespace_joinWords fun _ => isWord_of_mem, splitWhitespace_joinWords fun _ => isWord_of_mem]
    at hwords

/-- Words are the maximal runs without whitespace. -/
theorem splitWhitespace_eq_maximalRuns (s : String) :
    splitWhitespace s = maximalRuns (fun c => !isWhitespace c) s.toList := by
  rw [splitWhitespace, maximalRuns]
  simp only [Bool.not_not]
  refine List.filter_congr fun run _ => ?_
  cases run <;> simp

/-- What stands in front of a text does not change its words exactly when it is whitespace. -/
theorem splitWhitespace_append_eq_iff {lead rest : List Char} :
    splitWhitespace (String.ofList (lead ++ rest)) = splitWhitespace (String.ofList rest) ↔
      ∀ c ∈ lead, isWhitespace c = true := by
  rw [splitWhitespace_eq_maximalRuns, splitWhitespace_eq_maximalRuns, String.toList_ofList, String.toList_ofList,
    maximalRuns_append_eq_iff]
  simp

section Runs

variable {α β : Type} (fold : α → β)

/-- A run of words which are equal once folded. -/
def RunIn (run words : List α) : Prop := run.map fold <:+: words.map fold

variable {fold} {run words words' : List α}

theorem RunIn.refl (words : List α) : RunIn fold words words := List.infix_rfl

theorem RunIn.trans (h : RunIn fold run words) (h' : RunIn fold words words') : RunIn fold run words' :=
  List.IsInfix.trans h h'

/-- A run in some of the words is a run in all of them. -/
theorem RunIn.of_isInfix (h : run <:+: words) : RunIn fold run words := h.map fold

end Runs

end Voicetext.Common.Text
