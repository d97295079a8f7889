import Mathlib.Data.List.Destutter
import Mathlib.Data.List.Nodup
import Mathlib.Data.List.Perm.Basic

/-!
# Sorted lists without duplicates

Sorting by a total order whose equality is equality and then dropping neighbours which repeat gives the one
strictly increasing list with the members of the input. Such a list is therefore a canonical form of the set
of its members.
-/

namespace Voicetext.Common

open Std

variable {α : Type*} (cmp : α → α → Ordering)

/-- `[T]::sort_by`: a stable sort. -/
def sortBy (xs : List α) : List α := xs.mergeSort fun a b => (cmp a b).isLE

/-- `Vec::dedup`: drop an element which repeats its predecessor. -/
def dedupNeighbours [DecidableEq α] (xs : List α) : List α := xs.destutter (· ≠ ·)

/-- Each element is less than every later one. -/
def StrictlyIncreasing (xs : List α) : Prop := xs.Pairwise fun a b => cmp a b = .lt

section Sorting

theorem sortBy_perm (xs : List α) : (sortBy cmp xs).Perm xs := List.mergeSort_perm _ _

/-- A sorted list increases weakly. -/
theorem sortBy_ordered [TransCmp cmp] (xs : List α) : (sortBy cmp xs).Pairwise fun a b => (cmp a b).isLE := by
  have htrans (a b c : α) (hab : (cmp a b).isLE = true) (hbc : (cmp b c).isLE = true) :
      (cmp a c).isLE = true := TransCmp.isLE_trans hab hbc
  have htotal (a b : α) : ((cmp a b).isLE || (cmp b a).isLE) = true := by
    rw [@OrientedCmp.eq_swap α cmp _ b a]
    cases cmp a b <;> rfl
  exact List.pairwise_mergeSort htrans htotal xs

end Sorting

section Canonical

variable {cmp} [TransCmp cmp] [LawfulEqCmp cmp] {xs ys : List α}

omit [TransCmp cmp] in
/-- A strictly increasing list repeats nothing. -/
theorem StrictlyIncreasing.nodup (h : StrictlyIncreasing cmp xs) : xs.Nodup := by
  refine h.imp fun {a b} hlt heq => ?_
  rw [heq, @ReflCmp.compare_self α cmp] at hlt
  cases hlt

/-- Strictly increasing lists with the same members are the same. -/
theorem StrictlyIncreasing.eq_of_mem_iff (hxs : StrictlyIncreasing cmp xs) (hys : StrictlyIncreasing cmp ys)
    (h : ∀ a, a ∈ xs ↔ a ∈ ys) : xs = ys := by
  have hperm : xs.Perm ys := (List.perm_ext_iff_of_nodup hxs.nodup hys.nodup).mpr h
  refine List.Perm.eq_of_pairwise (fun a b _ _ hab hba => ?_) hxs hys hperm
  exact absurd hba (OrientedCmp.not_lt_of_lt hab)

variable [DecidableEq α]

/-- Dropping repeated neighbours drops no member of a sorted list, and leaves it strictly increasing. -/
theorem dedupNeighbours_of_ordered (h : xs.Pairwise fun a b => (cmp a b).isLE) :
    StrictlyIncreasing cmp (dedupNeighbours xs) ∧ ∀ a, a ∈ dedupNeighbours xs ↔ a ∈ xs := by
  induction xs with
  | nil => exact ⟨.nil, fun a => Iff.rfl⟩
  | cons a rest ih =>
    obtain ⟨hle, hrest⟩ := List.pairwise_cons.mp h
    obtain ⟨hincreasing, hmem⟩ := ih hrest
    cases rest with
    | nil => exact ⟨List.pairwise_singleton _ _, fun b => Iff.rfl⟩
    | cons b rest =>
      by_cases hab : a = b
      · subst hab
        have hdrop : dedupNeighbours (a :: a :: rest) = dedupNeighbours (a :: rest) := by
          simp [dedupNeighbours, List.destutter_cons']
        rw [hdrop]
        exact ⟨hincreasing, fun c => by rw [hmem]; simp⟩
      · have hkeep : dedupNeighbours (a :: b :: rest) = a :: dedupNeighbours (b :: rest) := by
          simp [dedupNeighbours, List.destutter_cons', hab]
        have hlt : cmp a b = .lt := by
          have hnotEq : cmp a b ≠ .eq := fun heq => hab (LawfulEqCmp.eq_of_compare heq)
          have hisLE := hle b List.mem_cons_self
          cases hcmp : cmp a b with
          | lt => rfl
          | eq => exact absurd hcmp hnotEq
          | gt => rw [hcmp] at hisLE; cases hisLE
        rw [hkeep]
        refine ⟨List.pairwise_cons.mpr ⟨fun c hc => ?_, hincreasing⟩, fun c => ?_⟩
        · -- every later member is at least the one which follows
          rcases List.mem_cons.mp ((hmem c).mp hc) with rfl | hc
          · exact hlt
          · exact TransCmp.lt_of_lt_of_isLE hlt ((List.pairwise_cons.mp hrest).1 c hc)
        · rw [List.mem_cons, hmem, @List.mem_cons _ a]

variable (cmp) in
/-- Sorting and dropping repeated neighbours. -/
theorem dedupNeighbours_sortBy (xs : List α) :
    StrictlyIncreasing cmp (dedupNeighbours (sortBy cmp xs)) ∧
      ∀ a, a ∈ dedupNeighbours (sortBy cmp xs) ↔ a ∈ xs := by
  obtain ⟨hincreasing, hmem⟩ := dedupNeighbours_of_ordered (sortBy_ordered cmp xs)
  exact ⟨hincreasing, fun a => (hmem a).trans (sortBy_perm cmp xs).mem_iff⟩

/-- A strictly increasing list is its own canonical form. -/
theorem StrictlyIncreasing.canonical (h : StrictlyIncreasing cmp xs) :
    dedupNeighbours (sortBy cmp xs) = xs := by
  obtain ⟨hincreasing, hmem⟩ := dedupNeighbours_sortBy cmp xs
  exact hincreasing.eq_of_mem_iff h hmem

/-- Lists with the same members have one canonical form. -/
theorem dedupNeighbours_sortBy_congr (h : ∀ a, a ∈ xs ↔ a ∈ ys) :
    dedupNeighbours (sortBy cmp xs) = dedupNeighbours (sortBy cmp ys) := by
  obtain ⟨hxs, hmemXs⟩ := dedupNeighbours_sortBy cmp xs
  obtain ⟨hys, hmemYs⟩ := dedupNeighbours_sortBy cmp ys
  exact hxs.eq_of_mem_iff hys fun a => (hmemXs a).trans ((h a).trans (hmemYs a).symm)

/-- Dropping neighbours makes a list no longer. -/
theorem length_dedupNeighbours_le (xs : List α) : (dedupNeighbours xs).length ≤ xs.length :=
  (List.destutter_sublist _ xs).length_le

end Canonical

end Voicetext.Common
