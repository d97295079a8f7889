import Mathlib.Algebra.Order.Group.Nat
import Mathlib.Data.Nat.Notation

/-!
# Checked and saturating 64-bit arithmetic

Unsigned 64-bit quantities are natural numbers below `2 ^ 64`. Every operation says what happens at
the limit: a checked one yields nothing, a saturating one yields the largest value.
-/

namespace Voicetext.Common.U64

/-- `u64::MAX`. -/
def MAX : ℕ := 2 ^ 64 - 1

/-- `u64::checked_add`. -/
def checkedAdd (a b : ℕ) : Option ℕ := if a + b ≤ MAX then some (a + b) else none

/-- `u64::checked_mul`. -/
def checkedMul (a b : ℕ) : Option ℕ := if a * b ≤ MAX then some (a * b) else none

/-- `u64::checked_sub`. -/
def checkedSub (a b : ℕ) : Option ℕ := if b ≤ a then some (a - b) else none

/-- `u64::checked_div`. -/
def checkedDiv (a b : ℕ) : Option ℕ := if b = 0 then none else some (a / b)

/-- `u64::saturating_add`. -/
def saturatingAdd (a b : ℕ) : ℕ := min (a + b) MAX

/-- `u64::saturating_mul`. -/
def saturatingMul (a b : ℕ) : ℕ := min (a * b) MAX

/-- `u64::saturating_sub`. -/
def saturatingSub (a b : ℕ) : ℕ := a - b

@[simp] theorem checkedAdd_eq_some {a b c : ℕ} : checkedAdd a b = some c ↔ a + b ≤ MAX ∧ a + b = c := by
  simp [checkedAdd]

@[simp] theorem checkedAdd_eq_none {a b : ℕ} : checkedAdd a b = none ↔ MAX < a + b := by
  simp [checkedAdd]

@[simp] theorem checkedMul_eq_some {a b c : ℕ} : checkedMul a b = some c ↔ a * b ≤ MAX ∧ a * b = c := by
  simp [checkedMul]

@[simp] theorem checkedSub_eq_some {a b c : ℕ} : checkedSub a b = some c ↔ b ≤ a ∧ a - b = c := by
  simp [checkedSub]

/-- A sum within the range is there. -/
theorem checkedAdd_of_le {a b : ℕ} (h : a + b ≤ MAX) : checkedAdd a b = some (a + b) := if_pos h

/-- A product within the range is there. -/
theorem checkedMul_of_le {a b : ℕ} (h : a * b ≤ MAX) : checkedMul a b = some (a * b) := if_pos h

/-- A product within the range does not saturate. -/
theorem saturatingMul_of_le {a b : ℕ} (h : a * b ≤ MAX) : saturatingMul a b = a * b := min_eq_left h

/-- A sum within the range does not saturate. -/
theorem saturatingAdd_of_le {a b : ℕ} (h : a + b ≤ MAX) : saturatingAdd a b = a + b := min_eq_left h

end Voicetext.Common.U64
