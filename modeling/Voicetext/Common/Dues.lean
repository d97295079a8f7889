import Mathlib.Algebra.BigOperators.Group.List.Basic
import Mathlib.Algebra.GroupWithZero.Nat
import Mathlib.Data.List.Basic

/-!
# What the participants of a shared account still owe

Entries of a common list belong to the participants who made them. Each participant adds and settles its own
entries only, so what one owes is left alone by what the others do, and the account is even when nobody owes
anything.
-/

namespace Voicetext.Common

variable {ι α : Type*} [DecidableEq ι]

/-- What is owed, each entry with the participant who owes it. -/
abbrev Dues (ι α : Type*) := List (ι × α)

namespace Dues

/-- What one participant owes, the newest first. -/
def own (i : ι) (dues : Dues ι α) : List α := (dues.filter fun due => due.1 = i).map Prod.snd

/-- What is left when one participant has settled everything. -/
def settle (i : ι) (dues : Dues ι α) : Dues ι α := dues.filter fun due => due.1 ≠ i

/-- The amount owed by all together. -/
def total (dues : Dues ι ℕ) : ℕ := (dues.map Prod.snd).sum

variable {i j : ι} {a : α} {dues : Dues ι α}

@[simp] theorem own_nil : own i ([] : Dues ι α) = [] := rfl

@[simp] theorem own_cons_self : own i ((i, a) :: dues) = a :: own i dues := by simp [own]

theorem own_cons_of_ne (h : i ≠ j) : own j ((i, a) :: dues) = own j dues := by simp [own, h]

@[simp] theorem own_settle_self : own i (settle i dues) = [] := by
  simp [own, settle, List.filter_filter]

theorem own_settle_of_ne (h : i ≠ j) : own j (settle i dues) = own j dues := by
  unfold own settle
  rw [List.filter_filter]
  congr 1
  refine List.filter_congr fun due _ => ?_
  by_cases hdue : due.1 = j
  · simp [hdue, h.symm]
  · simp [hdue]

@[simp] theorem mem_own : a ∈ own i dues ↔ (i, a) ∈ dues := by
  simp [own]

/-- An entry is settled with its owner's, or stays. -/
theorem mem_settle : (j, a) ∈ settle i dues ↔ (j, a) ∈ dues ∧ j ≠ i := by
  simp [settle]

/-- When nobody owes anything, nothing is owed. -/
theorem eq_nil_of_own (h : ∀ i, own i dues = []) : dues = [] := by
  refine List.eq_nil_iff_forall_not_mem.mpr ?_
  rintro ⟨i, a⟩ hmem
  rw [← mem_own, h i] at hmem
  cases hmem

omit [DecidableEq ι] in
@[simp] theorem total_nil : total ([] : Dues ι ℕ) = 0 := rfl

omit [DecidableEq ι] in
@[simp] theorem total_cons (n : ℕ) (dues : Dues ι ℕ) : total ((i, n) :: dues) = n + total dues := by
  simp [total]

/-- Settling takes what its participant owes off the total. -/
theorem total_settle (dues : Dues ι ℕ) : total (settle i dues) + (own i dues).sum = total dues := by
  induction dues with
  | nil => rfl
  | cons due rest ih =>
    obtain ⟨j, n⟩ := due
    by_cases h : j = i
    · subst h
      rw [own_cons_self, List.sum_cons, total_cons, ← ih]
      have hrest : settle j ((j, n) :: rest) = settle j rest := by simp [settle]
      rw [hrest]
      omega
    · rw [own_cons_of_ne h, total_cons, ← ih]
      have hrest : settle i ((j, n) :: rest) = (j, n) :: settle i rest := by simp [settle, h]
      rw [hrest, total_cons]
      omega

end Dues

end Voicetext.Common
