import Mathlib.Data.List.DropRight

/-!
# Maximal runs of a list

The maximal runs of members which satisfy a predicate are what splitting at all other members leaves.
Everything about them follows from one equation: a member outside every run separates the runs of what
stands before it from the runs of what stands behind it.
-/

namespace Voicetext.Common

variable {α : Type*} {inRun : α → Bool}

/-- The maximal non-empty runs of members which satisfy a predicate, in order. -/
def maximalRuns (inRun : α → Bool) (members : List α) : List (List α) :=
  (members.splitOnP fun member => !inRun member).filter fun run => !run.isEmpty

@[simp] theorem maximalRuns_nil : maximalRuns inRun [] = [] := by simp [maximalRuns]

/-- A separator parts the runs on its two sides. -/
theorem maximalRuns_append_cons (before after : List α) {separator : α} (h : inRun separator = false) :
    maximalRuns inRun (before ++ separator :: after) =
      maximalRuns inRun before ++ maximalRuns inRun after := by
  have hseparator : (!inRun separator) = true := by rw [h]; rfl
  rw [maximalRuns, List.splitOnP_append_cons before after hseparator, List.filter_append]
  rfl

/-- A separator in front of a list is in no run. -/
theorem maximalRuns_cons (members : List α) {separator : α} (h : inRun separator = false) :
    maximalRuns inRun (separator :: members) = maximalRuns inRun members := by
  simpa using maximalRuns_append_cons [] members h

/-- A separator behind a list is in no run. -/
theorem maximalRuns_append_singleton (members : List α) {separator : α} (h : inRun separator = false) :
    maximalRuns inRun (members ++ [separator]) = maximalRuns inRun members := by
  simpa using maximalRuns_append_cons members [] h

/-- A list whose members are all in one run is that run. -/
theorem maximalRuns_of_forall {run : List α} (hne : run ≠ []) (h : ∀ member ∈ run, inRun member = true) :
    maximalRuns inRun run = [run] := by
  rw [maximalRuns, List.splitOnP_eq_singleton fun member hmember => by simp [h member hmember]]
  simp [hne]

/-- A run between members which do not continue it is one of the maximal runs. -/
theorem mem_maximalRuns_append {before run after : List α} (hne : run ≠ [])
    (hrun : ∀ member ∈ run, inRun member = true) (hbefore : ∀ member ∈ before.getLast?, inRun member = false)
    (hafter : ∀ member ∈ after.head?, inRun member = false) :
    run ∈ maximalRuns inRun (before ++ (run ++ after)) := by
  have hopen : run ∈ maximalRuns inRun (run ++ after) := by
    cases after with
    | nil => simp [maximalRuns_of_forall hne hrun]
    | cons separator after =>
      rw [maximalRuns_append_cons run after (hafter separator rfl), maximalRuns_of_forall hne hrun]
      exact List.mem_cons_self
  obtain rfl | ⟨init, separator, rfl⟩ := before.eq_nil_or_concat
  · exact hopen
  · rw [List.concat_eq_append] at hbefore ⊢
    rw [List.append_assoc, List.singleton_append,
      maximalRuns_append_cons init (run ++ after) (hbefore separator (by simp))]
    exact List.mem_append_right _ hopen

/-- Splitting leaves all members which are no separators. -/
theorem flatten_splitOnP (isSeparator : α → Bool) (members : List α) :
    (members.splitOnP isSeparator).flatten = members.filter fun member => !isSeparator member := by
  induction members with
  | nil => simp
  | cons member rest ih =>
    rw [List.splitOnP_cons_eq_if_modifyHead]
    split
    · rename_i hseparator
      simpa [hseparator] using ih
    · rename_i hmember
      cases hparts : rest.splitOnP isSeparator with
      | nil => exact absurd hparts (List.splitOnP_ne_nil isSeparator rest)
      | cons first others =>
        rw [hparts] at ih
        rw [List.modifyHead_cons, List.flatten_cons, List.cons_append, ← List.flatten_cons, ih]
        simp [hmember]

/-- The runs hold all members which satisfy the predicate, in order. -/
theorem flatten_maximalRuns (inRun : α → Bool) (members : List α) :
    (maximalRuns inRun members).flatten = members.filter inRun := by
  rw [maximalRuns, List.flatten_filter_not_isEmpty, flatten_splitOnP]
  simp

/-- There are no runs when no member satisfies the predicate. -/
theorem maximalRuns_eq_nil_iff {members : List α} :
    maximalRuns inRun members = [] ↔ ∀ member ∈ members, inRun member = false := by
  have hnonempty : ∀ run ∈ maximalRuns inRun members, run ≠ [] := by
    intro run hrun
    simpa using (List.mem_filter.mp hrun).2
  have hflat := flatten_maximalRuns inRun members
  constructor
  · intro h member hmember
    rw [h, List.flatten_nil] at hflat
    simpa using List.filter_eq_nil_iff.mp hflat.symm member hmember
  · intro h
    rw [List.filter_eq_nil_iff.mpr (by simpa using h), List.flatten_eq_nil_iff] at hflat
    exact List.eq_nil_iff_forall_not_mem.mpr fun run hrun => hnonempty run hrun (hflat run hrun)

/-- What stands in front of a list adds no run and lengthens none exactly when it is separators. -/
theorem maximalRuns_append_eq_iff {before after : List α} :
    maximalRuns inRun (before ++ after) = maximalRuns inRun after ↔ ∀ member ∈ before, inRun member = false := by
  constructor
  · intro h member hmember
    have hflat := congrArg List.flatten h
    rw [flatten_maximalRuns, flatten_maximalRuns, List.filter_append, List.append_left_eq_self] at hflat
    simpa using List.filter_eq_nil_iff.mp hflat member hmember
  · intro h
    induction before with
    | nil => rfl
    | cons first rest ih =>
      rw [List.forall_mem_cons] at h
      rw [List.cons_append, maximalRuns_cons _ h.1, ih h.2]

/-- Dropping separators from the front keeps the runs. -/
theorem maximalRuns_dropWhile {isDropped : α → Bool} (h : ∀ member, isDropped member = true → inRun member = false)
    (members : List α) : maximalRuns inRun (members.dropWhile isDropped) = maximalRuns inRun members := by
  induction members with
  | nil => rfl
  | cons member rest ih =>
    rw [List.dropWhile_cons]
    split
    · rename_i hdropped
      rw [ih, maximalRuns_cons rest (h member hdropped)]
    · rfl

/-- Dropping separators from the back keeps the runs. -/
theorem maximalRuns_rdropWhile {isDropped : α → Bool}
    (h : ∀ member, isDropped member = true → inRun member = false) (members : List α) :
    maximalRuns inRun (members.rdropWhile isDropped) = maximalRuns inRun members := by
  induction members using List.reverseRecOn with
  | nil => rfl
  | append_singleton rest member ih =>
    cases hdropped : isDropped member with
    | true =>
      rw [List.rdropWhile_concat_pos _ _ _ hdropped, ih, maximalRuns_append_singleton rest (h member hdropped)]
    | false => rw [List.rdropWhile_concat_neg _ _ _ (by simp [hdropped])]

end Voicetext.Common
