import Mathlib.Data.List.Basic
import Voicetext.Common.Framing
import Voicetext.Common.U64

/-!
# Computations over byte slices

An index or a slice out of bounds stops the program, which is neither a result nor an error it reports. A
computation therefore has three outcomes, and a bounds argument shows that the first one never occurs.
-/

namespace Voicetext.Common

/-- A computation which leaves its slices, reports an error or succeeds. -/
abbrev Checked (ε α : Type) := ExceptT ε Option α

namespace Checked

variable {ε α β : Type}

/-- The outcome of an access out of bounds. -/
def outOfBounds : Checked ε α := ExceptT.mk none

/-- `bytes[start..stop]`. -/
def slice (bytes : List UInt8) (start stop : ℕ) : Checked ε (List UInt8) :=
  if start ≤ stop ∧ stop ≤ bytes.length then pure ((bytes.drop start).take (stop - start)) else outOfBounds

/-- `bytes[i]`. -/
def index (bytes : List UInt8) (i : ℕ) : Checked ε UInt8 := (bytes[i]?).elim outOfBounds pure

/-- A number from the first bytes of a slice, read one by one. -/
def readLe (count : ℕ) (bytes : List UInt8) : Checked ε ℕ :=
  if count ≤ bytes.length then pure (Bytes.ofLe (bytes.take count)) else outOfBounds

/-- Where a length after an offset ends, unless it ends beyond the bytes. -/
def endWithin (bytes : List UInt8) (offset length : ℕ) (error : ε) : Checked ε ℕ :=
  ((U64.checkedAdd offset length).filter fun stop => stop ≤ bytes.length).elim (throw error) pure

/-- A computation has one of three outcomes. -/
theorem cases (x : Checked ε α) : x = outOfBounds ∨ (∃ e, x = throw e) ∨ ∃ a, x = pure a := by
  rcases h : x.run with _ | e | a
  · exact .inl h
  · exact .inr (.inl ⟨e, h⟩)
  · exact .inr (.inr ⟨a, h⟩)

@[simp] theorem throw_bind (e : ε) (f : α → Checked ε β) : (throw e : Checked ε α) >>= f = throw e := rfl

@[simp] theorem pure_inj {a b : α} : (pure a : Checked ε α) = pure b ↔ a = b :=
  ⟨fun h => Except.ok.inj (Option.some.inj h), congrArg pure⟩

@[simp] theorem throw_ne_pure {e : ε} {a : α} : (throw e : Checked ε α) ≠ pure a :=
  fun h => nomatch Option.some.inj h

@[simp] theorem outOfBounds_ne_pure {a : α} : (outOfBounds : Checked ε α) ≠ pure a := fun h => nomatch h

/-- A sequence succeeds when both of its parts do. -/
theorem bind_eq_pure {x : Checked ε α} {f : α → Checked ε β} {b : β} :
    x >>= f = pure b ↔ ∃ a, x = pure a ∧ f a = pure b := by
  rcases x.cases with rfl | ⟨e, rfl⟩ | ⟨a, rfl⟩
  · simpa using fun h => nomatch h
  · simp
  · simp

/-- A guarded computation succeeds when its guard lets it through. -/
theorem ite_throw_eq_pure {condition : Prop} [Decidable condition] {e : ε} {x : Checked ε α} {a : α} :
    (if condition then throw e else x) = pure a ↔ ¬ condition ∧ x = pure a := by
  by_cases h : condition <;> simp [h]

/-- A computation which stays within its slices. -/
def InBounds (x : Checked ε α) : Prop := x ≠ outOfBounds

theorem inBounds_pure (a : α) : InBounds (pure a : Checked ε α) := fun h => nomatch h

theorem inBounds_throw (e : ε) : InBounds (throw e : Checked ε α) := fun h => nomatch h

/-- A sequence stays within its slices when its parts do. -/
theorem InBounds.bind {x : Checked ε α} {f : α → Checked ε β} (hx : InBounds x)
    (hf : ∀ a, x = pure a → InBounds (f a)) : InBounds (x >>= f) := by
  rcases x.cases with rfl | ⟨e, rfl⟩ | ⟨a, rfl⟩
  · exact absurd rfl hx
  · exact inBounds_throw e
  · rw [pure_bind]
    exact hf a rfl

theorem inBounds_ite {condition : Prop} [Decidable condition] {x y : Checked ε α}
    (hx : condition → InBounds x) (hy : ¬ condition → InBounds y) :
    InBounds (if condition then x else y) := by
  split
  · exact hx ‹_›
  · exact hy ‹_›

theorem inBounds_elim (value : Option α) (e : ε) :
    InBounds (value.elim (throw e) pure : Checked ε α) := by
  cases value with
  | none => exact inBounds_throw e
  | some a => exact inBounds_pure a

/-- A required value succeeds when it is there. -/
theorem elim_eq_pure {value : Option α} {e : ε} {a : α} :
    value.elim (throw e) pure = (pure a : Checked ε α) ↔ value = some a := by
  cases value <;> simp

section Accesses

variable {bytes : List UInt8} {start stop : ℕ}

theorem slice_of_le (hstart : start ≤ stop) (hstop : stop ≤ bytes.length) :
    (slice bytes start stop : Checked ε _) = pure ((bytes.drop start).take (stop - start)) :=
  if_pos ⟨hstart, hstop⟩

theorem index_of_lt {i : ℕ} (h : i < bytes.length) : (index bytes i : Checked ε _) = pure bytes[i] := by
  simp [index, h]

theorem readLe_of_le {count : ℕ} (h : count ≤ bytes.length) :
    (readLe count bytes : Checked ε _) = pure (Bytes.ofLe (bytes.take count)) := if_pos h

/-- The end of a length within the bytes. -/
theorem endWithin_of_le {offset length : ℕ} {error : ε} (hbytes : bytes.length ≤ U64.MAX)
    (h : offset + length ≤ bytes.length) : endWithin bytes offset length error = pure (offset + length) := by
  have hadd : U64.checkedAdd offset length = some (offset + length) :=
    U64.checkedAdd_eq_some.mpr ⟨h.trans hbytes, rfl⟩
  simp [endWithin, hadd, Option.filter, h]

/-- An end beyond the bytes is the error. -/
theorem endWithin_of_lt {offset length : ℕ} {error : ε} (h : bytes.length < offset + length) :
    endWithin bytes offset length error = throw error := by
  unfold endWithin
  cases hadd : U64.checkedAdd offset length with
  | none => rfl
  | some stop =>
    obtain ⟨-, rfl⟩ := U64.checkedAdd_eq_some.mp hadd
    simp [Option.filter, Nat.not_le.mpr h]

theorem inBounds_endWithin (offset length : ℕ) (error : ε) :
    InBounds (endWithin bytes offset length error) := inBounds_elim _ error

theorem inBounds_slice (hstart : start ≤ stop) (hstop : stop ≤ bytes.length) :
    InBounds (slice bytes start stop : Checked ε _) := by
  rw [slice_of_le hstart hstop]
  exact inBounds_pure _

theorem inBounds_index {i : ℕ} (h : i < bytes.length) : InBounds (index bytes i : Checked ε _) := by
  rw [index_of_lt h]
  exact inBounds_pure _

theorem inBounds_readLe {count : ℕ} (h : count ≤ bytes.length) : InBounds (readLe count bytes : Checked ε _) := by
  rw [readLe_of_le h]
  exact inBounds_pure _

theorem slice_eq_pure {part : List UInt8} :
    (slice bytes start stop : Checked ε _) = pure part ↔
      (start ≤ stop ∧ stop ≤ bytes.length) ∧ (bytes.drop start).take (stop - start) = part := by
  unfold slice
  split <;> simp_all

theorem index_eq_pure {i : ℕ} {byte : UInt8} :
    (index bytes i : Checked ε _) = pure byte ↔ bytes[i]? = some byte := by
  unfold index
  cases bytes[i]? <;> simp

theorem readLe_eq_pure {count n : ℕ} :
    (readLe count bytes : Checked ε _) = pure n ↔ count ≤ bytes.length ∧ Bytes.ofLe (bytes.take count) = n := by
  unfold readLe
  split <;> simp_all

/-- An end is reported within the bytes. -/
theorem endWithin_eq_pure {offset length : ℕ} {error : ε} (h : endWithin bytes offset length error = pure stop) :
    stop = offset + length ∧ stop ≤ bytes.length := by
  by_cases hend : offset + length ≤ bytes.length
  · unfold endWithin at h
    cases hadd : U64.checkedAdd offset length with
    | none => simp [hadd] at h
    | some sum =>
      obtain ⟨-, rfl⟩ := U64.checkedAdd_eq_some.mp hadd
      simp only [hadd, Option.filter, decide_eq_true_eq, if_pos hend, Option.elim_some, pure_inj] at h
      exact ⟨h.symm, h ▸ hend⟩
  · rw [endWithin_of_lt (Nat.not_le.mp hend)] at h
    exact absurd h throw_ne_pure

end Accesses

end Checked

end Voicetext.Common
